import Mathlib.Data.List.Induction
import Mathlib.Data.List.Nodup

/-!
# Lists by key

Lists whose entries are found by a key: an update changes the entry of its key where there is one,
and appends a new entry where there is none.
-/

namespace DressOn.Keyed

variable {α κ : Type} [DecidableEq κ] (key : α → κ) (merge : α → α → α)

/-- The list with an entry put in: merged into the entry of the same key, or appended. -/
def put (entries : List α) (entry : α) : List α :=
  if key entry ∈ entries.map key then
    entries.map fun old => if key old = key entry then merge old entry else old
  else entries ++ [entry]

/-- The list that the entries of another one make, put in one after the other. -/
def putAll (entries : List α) : List α := entries.foldl (put key merge) []

variable {key merge}

/-- Putting an entry in keeps the keys and adds at most its own at the end. -/
theorem map_put (keeps : ∀ old entry, key (merge old entry) = key old) (entries : List α)
    (entry : α) :
    (put key merge entries entry).map key
      = if key entry ∈ entries.map key then entries.map key
        else entries.map key ++ [key entry] := by
  unfold put
  split
  · rw [List.map_map]
    refine List.map_congr_left fun old _ => ?_
    simp only [Function.comp_apply]
    split
    · exact keeps old entry
    · rfl
  · simp

/-- Keys stay distinct. -/
theorem nodup_put (keeps : ∀ old entry, key (merge old entry) = key old) {entries : List α}
    (distinct : (entries.map key).Nodup) (entry : α) :
    ((put key merge entries entry).map key).Nodup := by
  rw [map_put keeps]
  split
  · exact distinct
  · next fresh => simpa [List.nodup_append, distinct] using fresh

/-- However entries are put in, their keys are distinct. -/
theorem nodup_putAll (keeps : ∀ old entry, key (merge old entry) = key old) (entries : List α) :
    ((putAll key merge entries).map key).Nodup := by
  suffices run : ∀ start : List α, (start.map key).Nodup →
      ((entries.foldl (put key merge) start).map key).Nodup from run [] (by simp)
  induction entries with
  | nil => exact fun start distinct => distinct
  | cons entry entries inductionHypothesis =>
    exact fun start distinct => inductionHypothesis _ (nodup_put keeps distinct entry)

/-- Entries of distinct keys are put in as they are. -/
theorem putAll_of_nodup {entries : List α} (distinct : (entries.map key).Nodup) :
    putAll key merge entries = entries := by
  suffices run : ∀ start : List α, ((start ++ entries).map key).Nodup →
      entries.foldl (put key merge) start = start ++ entries from run [] (by simpa using distinct)
  clear distinct
  induction entries with
  | nil => simp
  | cons entry entries inductionHypothesis =>
    intro start distinct
    have fresh : key entry ∉ start.map key := by
      simp only [List.map_append, List.map_cons, List.nodup_append] at distinct
      exact fun member => distinct.2.2 _ member _ (by simp) rfl
    rw [List.foldl_cons, put, if_neg fresh, inductionHypothesis _ (by simpa using distinct)]
    simp

/-- A fact about entries that merging keeps holds of all that are put in. -/
theorem forall_putAll {fact : α → Prop}
    (kept : ∀ old entry, fact old → fact entry → fact (merge old entry)) {entries : List α}
    (each : ∀ entry ∈ entries, fact entry) : ∀ entry ∈ putAll key merge entries, fact entry := by
  suffices run : ∀ start : List α, (∀ entry ∈ start, fact entry) →
      ∀ entry ∈ entries.foldl (put key merge) start, fact entry from run [] (by simp)
  induction entries with
  | nil => exact fun start starts => starts
  | cons entry entries inductionHypothesis =>
    intro start starts
    refine inductionHypothesis (fun other member => each other (by simp [member])) _ ?_
    intro result member
    have own := each entry (by simp)
    unfold put at member
    split at member
    · obtain ⟨old, old_member, rfl⟩ := List.mem_map.mp member
      split
      · exact kept old entry (starts old old_member) own
      · exact starts old old_member
    · rcases List.mem_append.mp member with old_member | new_member
      · exact starts result old_member
      · obtain rfl : result = entry := by simpa using new_member
        exact own

/-! ## The order of the keys -/

theorem putAll_snoc (entries : List α) (entry : α) :
    putAll key merge (entries ++ [entry]) = put key merge (putAll key merge entries) entry := by
  unfold putAll
  rw [List.foldl_append]
  rfl

section Order

variable (keeps : ∀ old entry, key (merge old entry) = key old)

include keeps

/-- The keys are those of the entries, -/
theorem mem_map_putAll (entries : List α) (k : κ) :
    k ∈ (putAll key merge entries).map key ↔ k ∈ entries.map key := by
  induction entries using List.reverseRecOn with
  | nil => exact Iff.rfl
  | append_singleton entries entry ih =>
    have members : ∀ other, other = k → (other ∈ (putAll key merge entries).map key ↔
        other ∈ entries.map key) := fun _ same => same ▸ ih
    rw [putAll_snoc, map_put keeps, List.map_append, List.mem_append]
    split
    next there =>
      rw [ih]
      refine ⟨.inl, fun here => here.elim id fun last => ?_⟩
      have same : k = key entry := List.mem_singleton.mp last
      exact same ▸ (members _ same.symm).mp there
    · rw [List.mem_append, ih]
      exact Iff.rfl

/-- in the order in which they came first, -/
theorem idxOf_map_putAll (entries : List α) (one two : κ) :
    ((putAll key merge entries).map key).idxOf one < ((putAll key merge entries).map key).idxOf two
      ↔ (entries.map key).idxOf one < (entries.map key).idxOf two := by
  have length : ∀ {keys : List κ} {k : κ}, k ∈ keys → keys.idxOf k < keys.length :=
    List.idxOf_lt_length_of_mem
  induction entries using List.reverseRecOn with
  | nil => exact Iff.rfl
  | append_singleton entries entry ih =>
    rw [putAll_snoc, map_put keeps, List.map_append, List.map_singleton]
    have members := mem_map_putAll keeps entries
    generalize (putAll key merge entries).map key = keys at ih members ⊢
    generalize entries.map key = raw at ih members ⊢
    have place (list : List κ) (k : κ) : (list ++ [key entry]).idxOf k
        = if k ∈ list then list.idxOf k
          else if k = key entry then list.length else list.length + 1 := by
      by_cases here : k ∈ list
      · rw [if_pos here, List.idxOf_append_of_mem here]
      · rw [if_neg here, List.idxOf_append_of_notMem here]
        by_cases last : k = key entry
        · rw [if_pos last, last, List.idxOf_cons_self, Nat.add_zero]
        · rw [if_neg last, List.idxOf_cons_ne _ (Ne.symm last), List.idxOf_nil]
    have outside {list : List κ} {k : κ} (absent : k ∉ list) : list.idxOf k = list.length :=
      List.idxOf_eq_length absent
    split
    next again =>
      have again' := (members _).mp again
      rw [place, place]
      by_cases first : one ∈ keys <;> by_cases second : two ∈ keys
      · rw [if_pos ((members _).mp first), if_pos ((members _).mp second)]
        exact ih
      · rw [if_pos ((members _).mp first), if_neg (second ∘ (members _).mpr), outside second]
        have low := length ((members _).mp first)
        refine iff_of_true (length first) ?_
        split <;> omega
      · rw [if_pos ((members _).mp second), if_neg (first ∘ (members _).mpr), outside first]
        have low := length ((members _).mp second)
        refine iff_of_false (Nat.lt_asymm (length second)) ?_
        split <;> omega
      · rw [if_neg (second ∘ (members _).mpr), if_neg (first ∘ (members _).mpr), outside first,
          outside second, if_neg fun same : one = key entry => first (same ▸ again),
          if_neg fun same : two = key entry => second (same ▸ again)]
        omega
    · rw [place, place, place, place]
      by_cases first : one ∈ keys <;> by_cases second : two ∈ keys
      · rw [if_pos first, if_pos second, if_pos ((members _).mp first),
          if_pos ((members _).mp second)]
        exact ih
      · rw [if_pos first, if_neg second, if_pos ((members _).mp first),
          if_neg (second ∘ (members _).mpr)]
        have low := length first
        have low' := length ((members _).mp first)
        refine iff_of_true ?_ ?_ <;> split <;> omega
      · rw [if_neg first, if_pos second, if_neg (first ∘ (members _).mpr),
          if_pos ((members _).mp second)]
        have low := length second
        have low' := length ((members _).mp second)
        refine iff_of_false ?_ ?_ <;> split <;> omega
      · rw [if_neg first, if_neg second, if_neg (first ∘ (members _).mpr),
          if_neg (second ∘ (members _).mpr)]
        split <;> split <;> omega

/-- and where the keys of a kind come once they are those of the list. -/
theorem filter_map_putAll (entries : List α) (kind : κ → Bool)
    (once : ∀ k, kind k = true → (entries.map key).count k ≤ 1) :
    ((putAll key merge entries).map key).filter kind = (entries.map key).filter kind := by
  induction entries using List.reverseRecOn with
  | nil => rfl
  | append_singleton entries entry ih =>
    rw [List.map_append, List.map_singleton] at once ⊢
    have once' : ∀ k, kind k = true → (entries.map key).count k ≤ 1 := fun k is =>
      Nat.le_trans ((List.sublist_append_left _ _).count_le k) (once k is)
    rw [putAll_snoc, map_put keeps, List.filter_append, ← ih once']
    split
    next again =>
      have again' := (mem_map_putAll keeps entries _).mp again
      have other : kind (key entry) = false := by
        by_contra is
        have twice := once (key entry) (Bool.not_eq_false _ ▸ is)
        have before := List.count_pos_iff.mpr again'
        rw [List.count_append, List.count_singleton_self] at twice
        omega
      rw [List.filter_singleton, other]
      exact (List.append_nil _).symm
    · rw [List.filter_append]

/-- The entry of a key is what the entries of the key make. -/
theorem mem_putAll {entries : List α} {result : α} (member : result ∈ putAll key merge entries) :
    ∃ first rest, entries.filter (fun entry => key entry = key result) = first :: rest ∧
      result = rest.foldl merge first := by
  induction entries using List.reverseRecOn generalizing result with
  | nil => cases member
  | append_singleton entries entry ih =>
    rw [putAll_snoc] at member
    unfold put at member
    split at member
    · obtain ⟨old, before, rfl⟩ := List.mem_map.mp member
      obtain ⟨first, rest, cut, same⟩ := ih before
      by_cases own : key old = key entry
      · rw [if_pos own, keeps, List.filter_append, cut, List.filter_singleton,
          decide_eq_true own.symm, cond_true]
        refine ⟨first, rest ++ [entry], rfl, ?_⟩
        rw [List.foldl_append, ← same]
        rfl
      · rw [if_neg own, List.filter_append, cut, List.filter_singleton,
          decide_eq_false (Ne.symm own), cond_false, List.append_nil]
        exact ⟨first, rest, rfl, same⟩
    next fresh =>
      rcases List.mem_append.mp member with before | last
      · obtain ⟨first, rest, cut, same⟩ := ih before
        have own : key result ≠ key entry := fun same => fresh (same ▸ List.mem_map_of_mem before)
        rw [List.filter_append, cut, List.filter_singleton, decide_eq_false (Ne.symm own),
          cond_false, List.append_nil]
        exact ⟨first, rest, rfl, same⟩
      · obtain rfl := List.mem_singleton.mp last
        refine ⟨result, [], ?_, rfl⟩
        rw [List.filter_append, List.filter_singleton, decide_eq_true rfl, cond_true,
          List.filter_eq_nil_iff.mpr, List.nil_append]
        intro entry before own
        refine fresh ((mem_map_putAll keeps entries _).mpr ?_)
        exact of_decide_eq_true own ▸ List.mem_map_of_mem before

end Order

end DressOn.Keyed
