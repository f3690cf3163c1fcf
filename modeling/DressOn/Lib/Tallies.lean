import Mathlib.Data.List.Basic
import Mathlib.Data.List.Count
import Mathlib.Data.List.Induction
import Mathlib.Order.Lattice

/-!
# Tallies

An ordered map from keys to counts, one entry a key, and what counting a list into it gives: the
keys in order, each with the number of times it occurs.
-/

namespace DressOn.Tallies

variable {κ : Type*} [LinearOrder κ]

/-- One more of a key. -/
def bump (key : κ) : List (κ × Nat) → List (κ × Nat)
  | [] => [(key, 1)]
  | (other, count) :: rest =>
    if key < other then (key, 1) :: (other, count) :: rest
    else if key = other then (other, count + 1) :: rest
    else (other, count) :: bump key rest

/-- All keys of a list. -/
def tally (keys : List κ) : List (κ × Nat) := keys.foldl (fun entries key => bump key entries) []

/-- The count of a key, 0 where there is none. -/
def counted (key : κ) : List (κ × Nat) → Nat
  | [] => 0
  | (other, count) :: rest => if key = other then count else counted key rest

/-- The keys go up, and none is there for nothing. -/
structure Ordered (entries : List (κ × Nat)) : Prop where
  sorted : entries.Pairwise fun one two => one.1 < two.1
  counts : ∀ entry ∈ entries, 0 < entry.2

/-- After a bump an entry is the key's, or an old one. -/
theorem mem_bump {key : κ} {entries : List (κ × Nat)} {entry : κ × Nat}
    (member : entry ∈ bump key entries) :
    (entry.1 = key ∧ 0 < entry.2) ∨ entry ∈ entries := by
  induction entries with
  | nil => exact .inl (by rw [List.mem_singleton.mp member]; exact ⟨rfl, Nat.one_pos⟩)
  | cons head rest inductionHypothesis =>
    obtain ⟨other, count⟩ := head
    unfold bump at member
    split at member
    · rcases List.mem_cons.mp member with rfl | member
      · exact .inl ⟨rfl, Nat.one_pos⟩
      · exact .inr member
    · split at member
      next same =>
        rcases List.mem_cons.mp member with rfl | member
        · exact .inl ⟨same.symm, Nat.succ_pos _⟩
        · exact .inr (List.mem_cons_of_mem _ member)
      · rcases List.mem_cons.mp member with rfl | member
        · exact .inr (List.mem_cons_self ..)
        · exact (inductionHypothesis member).imp_right (List.mem_cons_of_mem _)

/-- A bump keeps the order of the keys. -/
theorem Ordered.bump {entries : List (κ × Nat)} (ordered : Ordered entries) (key : κ) :
    Ordered (bump key entries) := by
  refine ⟨?_, fun entry member => (mem_bump member).elim And.right (ordered.counts entry)⟩
  have sorted := ordered.sorted
  clear ordered
  induction entries with
  | nil => exact List.pairwise_singleton _ _
  | cons head rest inductionHypothesis =>
    obtain ⟨other, count⟩ := head
    obtain ⟨first, later⟩ := List.pairwise_cons.mp sorted
    unfold Tallies.bump
    split
    next less =>
      refine List.pairwise_cons.mpr ⟨fun entry member => ?_, sorted⟩
      rcases List.mem_cons.mp member with rfl | member
      · exact less
      · exact less.trans (first entry member)
    next notLess =>
      split
      · exact List.pairwise_cons.mpr ⟨first, later⟩
      next away =>
        refine List.pairwise_cons.mpr ⟨fun entry member => ?_, inductionHypothesis later⟩
        rcases mem_bump member with ⟨same, _⟩ | member
        · rw [same]
          exact lt_of_le_of_ne (not_lt.mp notLess) (Ne.symm away)
        · exact first entry member

/-- A key below all others is not counted. -/
theorem counted_of_forall_lt {key : κ} {entries : List (κ × Nat)}
    (above : ∀ entry ∈ entries, key < entry.1) : counted key entries = 0 := by
  induction entries with
  | nil => rfl
  | cons head rest inductionHypothesis =>
    unfold counted
    rw [if_neg (above head (List.mem_cons_self ..)).ne]
    exact inductionHypothesis fun entry member => above entry (List.mem_cons_of_mem _ member)

/-- One key more counts one more, and no other. -/
theorem Ordered.counted_bump {entries : List (κ × Nat)} (ordered : Ordered entries) (key other : κ) :
    counted other (Tallies.bump key entries)
      = counted other entries + if other = key then 1 else 0 := by
  have sorted := ordered.sorted
  clear ordered
  induction entries with
  | nil => simp only [Tallies.bump, counted, Nat.zero_add]
  | cons head rest inductionHypothesis =>
    obtain ⟨here, count⟩ := head
    obtain ⟨first, later⟩ := List.pairwise_cons.mp sorted
    unfold Tallies.bump
    split
    next less =>
      have absent : counted key ((here, count) :: rest) = 0 := by
        refine counted_of_forall_lt fun entry member => ?_
        rcases List.mem_cons.mp member with rfl | member
        · exact less
        · exact less.trans (first entry member)
      by_cases same : other = key
      · subst same
        rw [absent, if_pos rfl]
        exact if_pos rfl
      · rw [if_neg same, Nat.add_zero]
        exact if_neg same
    next notLess =>
      split
      next same =>
        subst same
        unfold counted
        split <;> rfl
      next away =>
        unfold counted
        split
        next found => rw [if_neg (fun same => away (same.symm.trans found)), Nat.add_zero]
        · exact inductionHypothesis later

/-- One more key is one more bump. -/
theorem tally_snoc (keys : List κ) (key : κ) : tally (keys ++ [key]) = bump key (tally keys) := by
  unfold tally
  rw [List.foldl_append]
  rfl

/-- The keys of a tally are in order. -/
theorem ordered_tally (keys : List κ) : Ordered (tally keys) := by
  induction keys using List.reverseRecOn with
  | nil => exact ⟨List.Pairwise.nil, fun entry member => nomatch member⟩
  | append_singleton keys key inductionHypothesis =>
    rw [tally_snoc]
    exact inductionHypothesis.bump key

/-- A tally counts. -/
theorem counted_tally (keys : List κ) (key : κ) : counted key (tally keys) = keys.count key := by
  induction keys using List.reverseRecOn with
  | nil => rfl
  | append_singleton keys last inductionHypothesis =>
    rw [tally_snoc, (ordered_tally keys).counted_bump, inductionHypothesis, List.count_append,
      List.count_singleton]
    refine congrArg (keys.count key + ·) (if_congr ?_ rfl rfl)
    rw [beq_iff_eq, eq_comm]

/-- The keys of a table are those that it counts. -/
theorem Ordered.mem_map_fst_iff {entries : List (κ × Nat)} (ordered : Ordered entries) {key : κ} :
    key ∈ entries.map Prod.fst ↔ 0 < counted key entries := by
  induction entries with
  | nil => exact iff_of_false List.not_mem_nil (Nat.lt_irrefl 0)
  | cons head rest inductionHypothesis =>
    obtain ⟨first, later⟩ := List.pairwise_cons.mp ordered.sorted
    have tail : Ordered rest :=
      ⟨later, fun entry member => ordered.counts entry (List.mem_cons_of_mem _ member)⟩
    rw [List.map_cons, List.mem_cons]
    unfold counted
    split
    next same => exact iff_of_true (.inl same) (ordered.counts head (List.mem_cons_self ..))
    next away => exact (or_iff_right away).trans (inductionHypothesis tail)

/-- The keys of a tally are those of the list, each once. -/
theorem mem_keys_tally {keys : List κ} {key : κ} : key ∈ (tally keys).map Prod.fst ↔ key ∈ keys := by
  rw [(ordered_tally keys).mem_map_fst_iff, counted_tally, List.count_pos_iff]

/-- No key of a tally stands twice. -/
theorem nodup_keys_tally (keys : List κ) : ((tally keys).map Prod.fst).Nodup :=
  (List.pairwise_map.mpr (ordered_tally keys).sorted).imp fun less => less.ne

end DressOn.Tallies
