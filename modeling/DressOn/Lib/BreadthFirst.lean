import Mathlib.Data.Finset.Card
import Mathlib.Data.List.Chain
import Mathlib.Data.List.Nodup

/-!
# Breadth-first search

A search that keeps for each joint it has met the one it came from, and reads the way back from
its goal. The lists of neighbours may be missing; where they are there and stay inside a finite
set, the search ends, and it finds a path without repeats wherever there is a way at all.
-/

namespace DressOn.BreadthFirst

variable {V : Type*}

/-- What has been met, each with the one it was met from and the latest first, and what is still
to be looked at. -/
structure Search (V : Type*) where
  prev : List (V × Option V)
  queue : List V

/-- What has been met. -/
def met (prev : List (V × Option V)) : List V := prev.map Prod.fst

/-- Everything but the first was met from something met before. -/
inductive Rooted (adj : V → Option (List V)) (a : V) : List (V × Option V) → Prop
  | root : Rooted adj a [(a, none)]
  | grow {prev : List (V × Option V)} {c nb : V} {nbs : List V} (rooted : Rooted adj a prev)
      (from_met : c ∈ met prev) (new : nb ∉ met prev) (at_c : adj c = some nbs)
      (neighbour : nb ∈ nbs) : Rooted adj a ((nb, some c) :: prev)

/-- A way from one joint to another without repeats. -/
structure Path (adj : V → Option (List V)) (a b : V) (path : List V) : Prop where
  head : path.head? = some a
  last : path.getLast? = some b
  nodup : path.Nodup
  steps : path.IsChain fun c nb => ∃ nbs, adj c = some nbs ∧ nb ∈ nbs

variable {adj : V → Option (List V)} {a b : V} {prev : List (V × Option V)}

theorem Rooted.nodup (rooted : Rooted adj a prev) : (met prev).Nodup := by
  induction rooted with
  | root => exact List.nodup_singleton a
  | grow _ _ new _ _ inductionHypothesis => exact List.nodup_cons.mpr ⟨new, inductionHypothesis⟩

/-- The neighbours are there for all of a finite set and in it. -/
structure Within (adj : V → Option (List V)) (all : Finset V) : Prop where
  exists_nbs : ∀ c ∈ all, ∃ nbs, adj c = some nbs ∧ ∀ nb ∈ nbs, nb ∈ all

variable {all : Finset V}

theorem Rooted.subset (within : Within adj all) (start : a ∈ all) (rooted : Rooted adj a prev) :
    ∀ c ∈ met prev, c ∈ all := by
  induction rooted with
  | root => simpa [met] using start
  | @grow prev c nb nbs _ from_met _ at_c neighbour inductionHypothesis =>
    obtain ⟨nbs', at_c', inside⟩ := within.exists_nbs c (inductionHypothesis c from_met)
    rw [at_c, Option.some.injEq] at at_c'
    subst at_c'
    exact List.forall_mem_cons.mpr ⟨inside nb neighbour, inductionHypothesis⟩

/-- A way that starts in a set with all neighbours of its members stays there. -/
theorem mem_of_isChain {set : List V}
    (closed : ∀ c ∈ set, ∀ nbs, adj c = some nbs → nbs ⊆ set) {c : V} {way : List V}
    (steps : (c :: way).IsChain fun c nb => ∃ nbs, adj c = some nbs ∧ nb ∈ nbs) (here : c ∈ set) :
    ∀ d ∈ c :: way, d ∈ set := by
  induction way generalizing c with
  | nil => simpa using here
  | cons next way inductionHypothesis =>
    rw [List.isChain_cons_cons] at steps
    obtain ⟨⟨nbs, at_c, neighbour⟩, steps⟩ := steps
    exact List.forall_mem_cons.mpr
      ⟨here, inductionHypothesis steps (closed c here nbs at_c neighbour)⟩

variable [DecidableEq V]

/-- A neighbour is met. -/
def Search.visit (c : V) (search : Search V) (nb : V) : Search V :=
  if (search.prev.lookup nb).isSome then search
  else ⟨(nb, some c) :: search.prev, search.queue ++ [nb]⟩

/-- The search, up to its goal or until nothing is left. -/
def search (adj : V → Option (List V)) (b : V) : ℕ → Search V → Option (Search V)
  | _, ⟨prev, []⟩ => some ⟨prev, []⟩
  | 0, ⟨_, _ :: _⟩ => none
  | fuel + 1, ⟨prev, c :: queue⟩ =>
    if c = b then some ⟨prev, queue⟩
    else (adj c).bind fun nbs => search adj b fuel (nbs.foldl (Search.visit c) ⟨prev, queue⟩)

/-- The way back from a joint, in front of what follows. -/
def walkBack (prev : List (V × Option V)) : ℕ → V → List V → Option (List V)
  | 0, _, _ => none
  | fuel + 1, c, path =>
    match prev.lookup c with
    | none => none
    | some none => some (c :: path)
    | some (some p) => walkBack prev fuel p (c :: path)

theorem lookup_isSome {c : V} : (prev.lookup c).isSome ↔ c ∈ met prev := by
  induction prev with
  | nil => simp [met]
  | cons entry prev inductionHypothesis =>
    rw [met, List.map_cons, List.mem_cons, ← met, ← inductionHypothesis, List.lookup_cons]
    by_cases same : c = entry.1
    · simp [same]
    · rw [beq_eq_false_iff_ne.mpr same]
      simp [same]

/-- What was met from something is behind it. -/
theorem Rooted.of_lookup (rooted : Rooted adj a prev) {c p : V}
    (found : prev.lookup c = some (some p)) : p ∈ met prev := by
  induction rooted with
  | root =>
    rw [List.lookup_cons] at found
    split at found <;> simp at found
  | grow _ from_met _ _ _ inductionHypothesis =>
    rw [List.lookup_cons] at found
    split at found
    · cases found
      exact List.mem_cons_of_mem _ from_met
    · exact List.mem_cons_of_mem _ (inductionHypothesis found)

/-- A later one is not on the way back. -/
theorem Rooted.walkBack_cons (rooted : Rooted adj a prev) {nb : V} {entry : Option V}
    (new : nb ∉ met prev) (fuel : ℕ) {c : V} (here : c ∈ met prev) (path : List V) :
    walkBack ((nb, entry) :: prev) fuel c path = walkBack prev fuel c path := by
  induction fuel generalizing c path with
  | zero => rfl
  | succ fuel inductionHypothesis =>
    have differ : (c == nb) = false := beq_eq_false_iff_ne.mpr fun same => new (same ▸ here)
    rw [walkBack, walkBack, List.lookup_cons, differ]
    dsimp only
    cases found : prev.lookup c with
    | none => rfl
    | some before =>
      cases before with
      | none => rfl
      | some p => exact inductionHypothesis (rooted.of_lookup found) _

/-- The way back from what has been met is a path from the start. -/
theorem Rooted.exists_path (rooted : Rooted adj a prev) {c : V} (here : c ∈ met prev) {fuel : ℕ}
    (enough : prev.length ≤ fuel) (later : List V) :
    ∃ path, walkBack prev fuel c later = some (path ++ later) ∧ Path adj a c path ∧
      path ⊆ met prev := by
  induction rooted generalizing c fuel later with
  | root =>
    obtain rfl : c = a := by simpa [met] using here
    obtain ⟨fuel, rfl⟩ : ∃ less, fuel = less + 1 := ⟨fuel - 1, by simp at enough; omega⟩
    refine ⟨[c], ?_, ⟨rfl, rfl, List.nodup_singleton c, List.isChain_singleton c⟩, ?_⟩
    · simp [walkBack]
    · simp [met]
  | @grow prev p nb nbs rooted from_met new at_p neighbour inductionHypothesis =>
    rw [List.length_cons] at enough
    by_cases same : c = nb
    · subst same
      obtain ⟨fuel, rfl⟩ : ∃ less, fuel = less + 1 := ⟨fuel - 1, by omega⟩
      obtain ⟨path, walked, is_path, inside⟩ := inductionHypothesis from_met
        (show prev.length ≤ fuel by omega) (c :: later)
      have away : c ∉ path := fun member => new (inside member)
      refine ⟨path ++ [c], ?_, ⟨?_, by simp, ?_, ?_⟩, ?_⟩
      · rw [walkBack, List.lookup_cons, beq_self_eq_true]
        dsimp only
        rw [rooted.walkBack_cons new fuel from_met, walked, List.append_assoc,
          List.singleton_append]
      · rw [List.head?_append, is_path.head]
        rfl
      · exact is_path.nodup.append (List.nodup_singleton c) (by simpa using away)
      · rw [List.isChain_append]
        refine ⟨is_path.steps, List.isChain_singleton c, fun q last d first => ?_⟩
        rw [is_path.last] at last
        cases last
        cases first
        exact ⟨nbs, at_p, neighbour⟩
      · rw [met, List.map_cons]
        exact List.append_subset.mpr ⟨List.subset_cons_of_subset _ inside, by simp⟩
    · have before : c ∈ met prev := (List.mem_cons.mp here).resolve_left same
      obtain ⟨path, walked, is_path, inside⟩ := inductionHypothesis before
        (show prev.length ≤ fuel by omega) later
      exact ⟨path, by rw [rooted.walkBack_cons new fuel before, walked], is_path,
        List.subset_cons_of_subset _ inside⟩

/-- What looking at the neighbours of a joint does to the search. -/
structure Looked (adj : V → Option (List V)) (a : V) (nbs : List V) (before after : Search V) :
    Prop where
  rooted : Rooted adj a after.prev
  kept : met before.prev ⊆ met after.prev
  queue : before.queue ⊆ after.queue
  neighbours : nbs ⊆ met after.prev
  fresh : ∀ c ∈ met after.prev, c ∈ met before.prev ∨ c ∈ after.queue
  queued : ∀ c ∈ after.queue, c ∈ before.queue ∨ c ∈ met after.prev
  balance : after.prev.length + before.queue.length = before.prev.length + after.queue.length

theorem looked_of_visits {c : V} {nbs : List V} (at_c : adj c = some nbs) (before : Search V)
    (rooted : Rooted adj a before.prev) (here : c ∈ met before.prev) {some_nbs : List V}
    (part : some_nbs ⊆ nbs) :
    Looked adj a some_nbs before (some_nbs.foldl (Search.visit c) before) := by
  induction some_nbs generalizing before with
  | nil =>
    exact ⟨rooted, List.Subset.refl _, List.Subset.refl _, nofun, fun _ member => .inl member,
      fun _ member => .inl member, rfl⟩
  | cons nb others inductionHypothesis =>
    rw [List.cons_subset] at part
    rw [List.foldl_cons, Search.visit]
    by_cases known : nb ∈ met before.prev
    · rw [if_pos (lookup_isSome.mpr known)]
      have looked := inductionHypothesis before rooted here part.2
      exact { looked with
        neighbours := List.cons_subset.mpr ⟨looked.kept known, looked.neighbours⟩ }
    · rw [if_neg fun found => known (lookup_isSome.mp found)]
      have looked := inductionHypothesis ⟨(nb, some c) :: before.prev, before.queue ++ [nb]⟩
        (rooted.grow here known at_c part.1) (List.mem_cons_of_mem _ here) part.2
      have first : nb ∈ met ((nb, some c) :: before.prev) := List.mem_cons_self
      refine ⟨looked.rooted, fun _ member => looked.kept (List.mem_cons_of_mem _ member),
        fun _ member => looked.queue (List.mem_append_left _ member),
        List.cons_subset.mpr ⟨looked.kept first, looked.neighbours⟩, fun d member => ?_,
        fun d member => ?_, ?_⟩
      · rcases looked.fresh d member with old | queued
        · rcases List.mem_cons.mp old with rfl | old
          · exact .inr (looked.queue (by simp))
          · exact .inl old
        · exact .inr queued
      · rcases looked.queued d member with old | new
        · rcases List.mem_append.mp old with old | new
          · exact .inl old
          · obtain rfl := List.mem_singleton.mp new
            exact .inr (looked.kept first)
        · exact .inr new
      · have balance := looked.balance
        simp only [List.length_cons, List.length_append, List.length_nil] at balance
        omega

/-- How the search stands between two turns. -/
structure Exploring (adj : V → Option (List V)) (a : V) (search : Search V) : Prop where
  rooted : Rooted adj a search.prev
  queued : ∀ c ∈ search.queue, c ∈ met search.prev
  closed : ∀ c ∈ met search.prev, c ∈ search.queue ∨
    ∀ nbs, adj c = some nbs → nbs ⊆ met search.prev

/-- No more is met than there is. -/
theorem Rooted.length_le (within : Within adj all) (start : a ∈ all) (rooted : Rooted adj a prev) :
    prev.length ≤ all.card := by
  have subset : (met prev).toFinset ⊆ all := fun c member =>
    rooted.subset within start c (List.mem_toFinset.mp member)
  have card := Finset.card_le_card subset
  rwa [List.toFinset_card_of_nodup rooted.nodup, met, List.length_map] at card

/-- The search ends, and has met its goal or all neighbours of what it has met. -/
theorem exists_search (within : Within adj all) (start : a ∈ all) (fuel : ℕ) (now : Search V)
    (exploring : Exploring adj a now)
    (enough : all.card + now.queue.length ≤ fuel + now.prev.length) :
    ∃ after, search adj b fuel now = some after ∧ Rooted adj a after.prev ∧
      met now.prev ⊆ met after.prev ∧ (b ∈ met after.prev ∨
        ∀ c ∈ met after.prev, ∀ nbs, adj c = some nbs → nbs ⊆ met after.prev) := by
  induction fuel generalizing now with
  | zero =>
    obtain ⟨prev, queue⟩ := now
    cases queue with
    | nil =>
      exact ⟨⟨prev, []⟩, by rw [search], exploring.rooted, List.Subset.refl _, .inr fun c member =>
        (exploring.closed c member).resolve_left nofun⟩
    | cons c queue =>
      have few := exploring.rooted.length_le within start
      simp only [List.length_cons] at enough few
      omega
  | succ fuel inductionHypothesis =>
    obtain ⟨prev, queue⟩ := now
    cases queue with
    | nil =>
      exact ⟨⟨prev, []⟩, by rw [search], exploring.rooted, List.Subset.refl _, .inr fun c member =>
        (exploring.closed c member).resolve_left nofun⟩
    | cons c queue =>
      have here : c ∈ met prev := exploring.queued c List.mem_cons_self
      rw [search]
      by_cases goal : c = b
      · rw [if_pos goal]
        exact ⟨_, rfl, exploring.rooted, List.Subset.refl _, .inl (goal ▸ here)⟩
      · obtain ⟨nbs, at_c, -⟩ := within.exists_nbs c (exploring.rooted.subset within start c here)
        rw [if_neg goal, at_c, Option.bind_some]
        have looked := looked_of_visits at_c ⟨prev, queue⟩ exploring.rooted here
          (List.Subset.refl nbs)
        have balance := looked.balance
        have exploring' : Exploring adj a (nbs.foldl (Search.visit c) ⟨prev, queue⟩) := {
          rooted := looked.rooted
          queued := fun d member => (looked.queued d member).elim
            (fun old => looked.kept (exploring.queued d (List.mem_cons_of_mem _ old))) id
          closed := fun d member => by
            rcases looked.fresh d member with old | queued
            · rcases exploring.closed d old with waiting | closed
              · rcases List.mem_cons.mp waiting with rfl | waiting
                · refine .inr fun nbs' at_d => ?_
                  rw [at_c, Option.some.injEq] at at_d
                  exact at_d ▸ looked.neighbours
                · exact .inl (looked.queue waiting)
              · exact .inr fun nbs' at_d => List.Subset.trans (closed nbs' at_d) looked.kept
            · exact .inl queued }
        simp only [List.length_cons] at enough balance
        obtain ⟨after, done, rooted, kept, found⟩ := inductionHypothesis _ exploring' (by omega)
        exact ⟨after, done, rooted, List.Subset.trans looked.kept kept, found⟩

/-- A path from one joint to another, empty where there is none. -/
def path (adj : V → Option (List V)) (fuel : ℕ) (a b : V) : Option (List V) :=
  (search adj b fuel ⟨[(a, none)], [a]⟩).bind fun found =>
    if (found.prev.lookup b).isSome then walkBack found.prev fuel b [] else some []

/-- The search answers, with a path just where there is one. -/
theorem exists_path (within : Within adj all) (start : a ∈ all) (fuel : ℕ)
    (enough : all.card < fuel) (b : V) :
    ∃ found, path adj fuel a b = some found ∧
      (found = [] ∧ (∀ way, ¬ Path adj a b way) ∨ Path adj a b found) := by
  obtain ⟨after, done, rooted, kept, found⟩ := @exists_search V adj a b all _ within start fuel
    ⟨[(a, none)], [a]⟩
    ⟨.root, by simp [met], fun c member => .inl (by simpa [met] using member)⟩
    (by simp only [List.length_singleton]; omega)
  rw [path, done, Option.bind_some]
  by_cases reached : b ∈ met after.prev
  · have room := rooted.length_le within start
    obtain ⟨way, walked, is_path, -⟩ :=
      @Rooted.exists_path V adj a _ _ rooted b reached fuel (by omega) []
    rw [if_pos (lookup_isSome.mpr reached), walked, List.append_nil]
    exact ⟨way, rfl, .inr is_path⟩
  · rw [if_neg fun found => reached (lookup_isSome.mp found)]
    refine ⟨[], rfl, .inl ⟨rfl, fun way is_path => reached ?_⟩⟩
    have closed := found.resolve_left reached
    cases way with
    | nil => exact nomatch is_path.head
    | cons first way =>
      obtain rfl : first = a := by simpa using is_path.head
      exact mem_of_isChain closed is_path.steps (kept (by simp [met])) b
        (List.mem_of_getLast? is_path.last)

end DressOn.BreadthFirst
