import Mathlib.Data.List.Infix

/-!
# Spans in a log

A log of events under keys. Under a key one span is opened, goes on and is closed, while those of
other keys go on beside it; every open span has its holder.
-/

namespace DressOn.Spans

/-- What an event does to the span of its key. -/
inductive Mark where
  | opens
  | inside
  | closes
  deriving DecidableEq

variable {marks first : List Mark}

/-- A span that is not closed. -/
def Open (marks : List Mark) : Prop := ∃ n, marks = .opens :: List.replicate n .inside

/-- A span from its opening to its close. -/
def Whole (marks : List Mark) : Prop :=
  ∃ n, marks = .opens :: List.replicate n .inside ++ [.closes]

/-- No span yet, one that is open, or a whole one. -/
inductive Formed (marks : List Mark) : Prop where
  | none (empty : marks = [])
  | opened (opened : Open marks)
  | whole (whole : Whole marks)

/-- A span that has just been opened is open. -/
theorem Open.singleton : Open [.opens] := ⟨0, rfl⟩

/-- A mark inside keeps a span open. -/
theorem Open.inside (opened : Open marks) : Open (marks ++ [.inside]) := by
  obtain ⟨n, rfl⟩ := opened
  exact ⟨n + 1, by rw [List.replicate_succ', List.cons_append]⟩

/-- A closing mark makes an open span whole. -/
theorem Open.closes (opened : Open marks) : Whole (marks ++ [.closes]) := by
  obtain ⟨n, rfl⟩ := opened
  exact ⟨n, rfl⟩

/-- An open span is not empty. -/
theorem Open.ne_nil (opened : Open marks) : marks ≠ [] := by
  obtain ⟨n, rfl⟩ := opened
  nofun

/-- A whole span is not open. -/
theorem Whole.not_open (whole : Whole marks) : ¬ Open marks := by
  rintro ⟨n, opened⟩
  obtain ⟨m, rfl⟩ := whole
  have closes : Mark.closes ∈ Mark.opens :: List.replicate n .inside := by
    rw [← opened]
    simp
  rcases List.mem_cons.1 closes with same | same
  · cases same
  · cases List.eq_of_mem_replicate same

/-- What is seen of a span so far is formed as well. -/
theorem Formed.of_seen (formed : Formed marks) (seen : first <+: marks) : Formed first := by
  have of_open {marks : List Mark} (opened : Open marks) (seen : first <+: marks) :
      Formed first := by
    obtain ⟨n, rfl⟩ := opened
    rcases List.prefix_cons_iff.1 seen with empty | ⟨later, rfl, rest⟩
    · exact .none empty
    · obtain ⟨-, all⟩ := List.prefix_replicate_iff.1 rest
      exact .opened ⟨later.length, congrArg _ all⟩
  cases formed with
  | none empty =>
    rw [empty] at seen
    exact .none (List.prefix_nil.1 seen)
  | opened opened => exact of_open opened seen
  | whole whole =>
    obtain ⟨n, rfl⟩ := whole
    rcases List.prefix_concat_iff.1 seen with same | seen
    · exact .whole ⟨n, same⟩
    · exact of_open ⟨n, rfl⟩ seen

section Log

variable {ε κ : Type} [DecidableEq κ] (key : ε → κ) (mark : ε → Mark) {log : List ε}
  {event : ε} {k : κ}

/-- The span under a key. -/
def span (log : List ε) (k : κ) : List Mark := (log.filter (key · = k)).map mark

/-- The spans of two logs, one after the other. -/
theorem span_append (log later : List ε) (k : κ) :
    span key mark (log ++ later) k = span key mark log k ++ span key mark later k := by
  unfold span
  rw [List.filter_append, List.map_append]

/-- An event of the key is put to its span. -/
theorem span_concat_self (log : List ε) (same : key event = k) :
    span key mark (log ++ [event]) k = span key mark log k ++ [mark event] := by
  rw [span_append]
  unfold span
  rw [List.filter_cons_of_pos (by simpa using same)]
  rfl

/-- An event of another key leaves the span alone. -/
theorem span_concat_of_ne (log : List ε) (ne : key event ≠ k) :
    span key mark (log ++ [event]) k = span key mark log k := by
  rw [span_append]
  unfold span
  rw [List.filter_cons_of_neg (by simpa using ne)]
  exact List.append_nil _

/-- The span that has been seen is the beginning of the whole one. -/
theorem span_seen {seen : List ε} (early : seen <+: log) (k : κ) :
    span key mark seen k <+: span key mark log k := by
  obtain ⟨later, rfl⟩ := early
  rw [span_append]
  exact List.prefix_append _ _

/-- Events of one key are all in its span. -/
theorem span_of_key {events : List ε} (all : ∀ event ∈ events, key event = k) :
    span key mark events k = events.map mark := by
  unfold span
  rw [List.filter_eq_self.2 fun event member => by simpa using all event member]

/-- Events of one key are in no other's span. -/
theorem span_of_other {events : List ε} {k' : κ} (all : ∀ event ∈ events, key event = k)
    (ne : k' ≠ k) : span key mark events k' = [] := by
  unfold span
  rw [List.filter_eq_nil_iff.2 fun event member => ?_]
  · rfl
  · rw [all event member]
    simpa using ne.symm

variable {τ : Type} {holds holds' : τ → Bool} {at_ at' : τ → κ} {unused unused' : κ → Prop}
  {t : τ}

/-- Every holder holds an open span of its own, every open span is held, and some keys are
unused. -/
structure Held (log : List ε) (holds : τ → Bool) (at_ : τ → κ) (unused : κ → Prop) : Prop where
  formed (k : κ) : Formed (span key mark log k)
  held (t : τ) : holds t = true → Open (span key mark log (at_ t))
  apart (t u : τ) : holds t = true → holds u = true → at_ t = at_ u → t = u
  opened (k : κ) : Open (span key mark log k) → ∃ t, holds t = true ∧ at_ t = k
  fresh (k : κ) : unused k → span key mark log k = []

namespace Held

variable {key mark}

/-- An empty log has no spans. -/
theorem nil (none : ∀ t, holds t = false) (unused : κ → Prop) :
    Held key mark ([] : List ε) holds at_ unused where
  formed _ := .none rfl
  held t holds := absurd ((none t).symm.trans holds) nofun
  apart t _ holds := absurd ((none t).symm.trans holds) nofun
  opened _ opened := absurd rfl opened.ne_nil
  fresh _ _ := rfl

/-- Who held nothing opens a span under an unused key. -/
theorem opens (held : Held key mark log holds at_ unused) (none : unused k)
    (same : key event = k) (opening : mark event = .opens) (idle : holds t = false)
    (here : holds' t = true ∧ at' t = k)
    (others : ∀ u, u ≠ t → holds' u = holds u ∧ at' u = at_ u)
    (rest : ∀ k', unused' k' → unused k' ∧ k' ≠ k) :
    Held key mark (log ++ [event]) holds' at' unused' := by
  have new : span key mark (log ++ [event]) k = [.opens] := by
    rw [span_concat_self key mark log same, held.fresh k none, opening]
    rfl
  have old {k' : κ} (ne : k' ≠ k) : span key mark (log ++ [event]) k' = span key mark log k' :=
    span_concat_of_ne key mark log fun same' => ne (same'.symm.trans same)
  -- no one was at the unused key
  have away {u : τ} (holding : holds u = true) : at_ u ≠ k := fun same =>
    (held.held u holding).ne_nil (same ▸ held.fresh k none)
  constructor
  · intro k'
    by_cases at_key : k' = k
    · rw [at_key, new]
      exact .opened .singleton
    · rw [old at_key]
      exact held.formed k'
  · intro u holding
    by_cases self : u = t
    · rw [self, here.2, new]
      exact .singleton
    · obtain ⟨hold, stay⟩ := others u self
      rw [hold] at holding
      rw [stay, old (away holding)]
      exact held.held u holding
  · intro u v holding holding' together
    by_cases self : u = t
    · by_cases self' : v = t
      · rw [self, self']
      · obtain ⟨hold, stay⟩ := others v self'
        rw [hold] at holding'
        rw [self, here.2, stay] at together
        exact absurd together.symm (away holding')
    · obtain ⟨hold, stay⟩ := others u self
      rw [hold] at holding
      by_cases self' : v = t
      · rw [self', here.2, stay] at together
        exact absurd together (away holding)
      · obtain ⟨hold', stay'⟩ := others v self'
        rw [hold'] at holding'
        rw [stay, stay'] at together
        exact held.apart u v holding holding' together
  · intro k' opened
    by_cases at_key : k' = k
    · exact ⟨t, here.1, here.2.trans at_key.symm⟩
    · rw [old at_key] at opened
      obtain ⟨u, holding, rfl⟩ := held.opened k' opened
      have ne : u ≠ t := fun self => absurd ((self ▸ holding).symm.trans idle) nofun
      obtain ⟨hold, stay⟩ := others u ne
      exact ⟨u, hold.trans holding, stay⟩
  · intro k' none'
    obtain ⟨none', ne⟩ := rest k' none'
    rw [old ne]
    exact held.fresh k' none'

/-- An open span goes on. -/
theorem inside (held : Held key mark log holds at_ unused) (holding : holds t = true)
    (same : key event = at_ t) (goes_on : mark event = .inside) :
    Held key mark (log ++ [event]) holds at_ unused := by
  have here : span key mark (log ++ [event]) (at_ t)
      = span key mark log (at_ t) ++ [.inside] := by
    rw [span_concat_self key mark log same, goes_on]
  have old {k : κ} (ne : k ≠ at_ t) : span key mark (log ++ [event]) k = span key mark log k :=
    span_concat_of_ne key mark log fun same' => ne (same'.symm.trans same)
  have opened := held.held t holding
  constructor
  · intro k
    by_cases at_key : k = at_ t
    · rw [at_key, here]
      exact .opened opened.inside
    · rw [old at_key]
      exact held.formed k
  · intro u holding'
    by_cases at_key : at_ u = at_ t
    · rw [at_key, here]
      exact opened.inside
    · rw [old at_key]
      exact held.held u holding'
  · exact held.apart
  · intro k opened'
    by_cases at_key : k = at_ t
    · exact ⟨t, holding, at_key.symm⟩
    · rw [old at_key] at opened'
      exact held.opened k opened'
  · intro k none
    have ne : k ≠ at_ t := fun at_key => opened.ne_nil (at_key ▸ held.fresh k none)
    rw [old ne]
    exact held.fresh k none

/-- A holder closes its span. -/
theorem closes (held : Held key mark log holds at_ unused) (holding : holds t = true)
    (same : key event = at_ t) (closing : mark event = .closes) (idle : holds' t = false)
    (others : ∀ u, u ≠ t → holds' u = holds u) :
    Held key mark (log ++ [event]) holds' at_ unused := by
  have here : span key mark (log ++ [event]) (at_ t)
      = span key mark log (at_ t) ++ [.closes] := by
    rw [span_concat_self key mark log same, closing]
  have old {k : κ} (ne : k ≠ at_ t) : span key mark (log ++ [event]) k = span key mark log k :=
    span_concat_of_ne key mark log fun same' => ne (same'.symm.trans same)
  have opened := held.held t holding
  have still {u : τ} (holding' : holds' u = true) : u ≠ t ∧ holds u = true := by
    have ne : u ≠ t := fun self => absurd ((self ▸ holding').symm.trans idle) nofun
    exact ⟨ne, (others u ne).symm.trans holding'⟩
  constructor
  · intro k
    by_cases at_key : k = at_ t
    · rw [at_key, here]
      exact .whole opened.closes
    · rw [old at_key]
      exact held.formed k
  · intro u holding'
    obtain ⟨ne, before⟩ := still holding'
    rw [old fun together => ne (held.apart u t before holding together)]
    exact held.held u before
  · exact fun u v hold hold' => held.apart u v (still hold).2 (still hold').2
  · intro k opened'
    by_cases at_key : k = at_ t
    · rw [at_key, here] at opened'
      exact absurd opened' opened.closes.not_open
    · rw [old at_key] at opened'
      obtain ⟨u, before, rfl⟩ := held.opened k opened'
      exact ⟨u, (others u fun self => at_key (congrArg at_ self)).trans before, rfl⟩
  · intro k none
    have ne : k ≠ at_ t := fun at_key => opened.ne_nil (at_key ▸ held.fresh k none)
    rw [old ne]
    exact held.fresh k none

/-- A whole span under an unused key is nobody's. -/
theorem adds (held : Held key mark log holds at_ unused) {events : List ε} (none : unused k)
    (all : ∀ event ∈ events, key event = k) (whole : Whole (events.map mark))
    (rest : ∀ k', unused' k' → unused k' ∧ k' ≠ k) :
    Held key mark (log ++ events) holds at_ unused' := by
  have new : span key mark (log ++ events) k = events.map mark := by
    rw [span_append, held.fresh k none, span_of_key key mark all]
    rfl
  have old {k' : κ} (ne : k' ≠ k) : span key mark (log ++ events) k' = span key mark log k' := by
    rw [span_append, span_of_other key mark all ne, List.append_nil]
  have away {u : τ} (holding : holds u = true) : at_ u ≠ k := fun same =>
    (held.held u holding).ne_nil (same ▸ held.fresh k none)
  constructor
  · intro k'
    by_cases at_key : k' = k
    · rw [at_key, new]
      exact .whole whole
    · rw [old at_key]
      exact held.formed k'
  · intro u holding
    rw [old (away holding)]
    exact held.held u holding
  · exact held.apart
  · intro k' opened
    by_cases at_key : k' = k
    · rw [at_key, new] at opened
      exact absurd opened whole.not_open
    · rw [old at_key] at opened
      exact held.opened k' opened
  · intro k' none'
    obtain ⟨none', ne⟩ := rest k' none'
    rw [old ne]
    exact held.fresh k' none'

/-- Without holders, every span is whole. -/
theorem whole_of_none (held : Held key mark log holds at_ unused) (none : ∀ t, holds t = false)
    (k : κ) : span key mark log k = [] ∨ Whole (span key mark log k) := by
  cases held.formed k with
  | none empty => exact Or.inl empty
  | opened opened =>
    obtain ⟨t, holding, -⟩ := held.opened k opened
    exact absurd ((none t).symm.trans holding) nofun
  | whole whole => exact Or.inr whole

/-- Without holders, fewer unused keys are unused as well, whoever may hold what. -/
theorem of_none (held : Held key mark log holds at_ unused) (none : ∀ t, holds t = false)
    (rest : ∀ k, unused' k → unused k) (at' : τ → κ) :
    Held key mark log holds at' unused' where
  formed := held.formed
  held t holding := absurd ((none t).symm.trans holding) nofun
  apart t _ holding := absurd ((none t).symm.trans holding) nofun
  opened k opened := by
    obtain ⟨t, holding, -⟩ := held.opened k opened
    exact absurd ((none t).symm.trans holding) nofun
  fresh k none' := held.fresh k (rest k none')

end Held

end Log

end DressOn.Spans
