import Mathlib.Data.List.Count
import Mathlib.Data.List.NodupEquivFin
import Mathlib.Data.List.Perm.Subperm
import Mathlib.Data.List.Range
import Mathlib.Order.Basic

/-!
# Ranks by counting

Every index of a row counts the indices that go before it. Where going before is a strict total
order the counts are the numbers below the length, each once, and writing every index at its count
lists the row in that order. Going by a value, and by the index where two values are equal, is such
an order, whichever way the values go.
-/

namespace DressOn.Ranks

/-- Of two different indices just one goes before the other, and what goes before an index goes
before all that come after it. -/
structure Goes (before : Nat → Nat → Bool) : Prop where
  irrefl : ∀ j, ¬ before j j = true
  trans : ∀ i j k, before i j = true → before j k = true → before i k = true
  total : ∀ i j, i ≠ j → before i j = true ∨ before j i = true

/-- How many of the first indices go before one. -/
def rank (before : Nat → Nat → Bool) (n j : Nat) : Nat := (List.range n).countP fun k => before k j

variable {before : Nat → Nat → Bool} {n i j : Nat}

/-- An index that goes before another has a smaller rank. -/
theorem rank_lt_rank (goes : Goes before) (inside : i < n) (first : before i j = true) :
    rank before n i < rank before n j := by
  have split := List.countP_eq_countP_filter_add (List.range n) (fun k => before k j)
    fun k => before k i
  have low : ((List.range n).filter fun k => before k i).countP (fun k => before k j) =
      rank before n i := by
    rw [rank, List.countP_filter]
    refine List.countP_congr fun k _ => ?_
    simp only [Bool.and_eq_true, and_iff_right_iff_imp]
    exact fun goesI => goes.trans k i j goesI first
  have self : 0 < ((List.range n).filter fun k => !before k i).countP fun k => before k j := by
    refine List.countP_pos_iff.2 ⟨i, List.mem_filter.2 ⟨List.mem_range.2 inside, ?_⟩, first⟩
    simpa using goes.irrefl i
  rw [low] at split
  unfold rank at split ⊢
  omega

/-- Ranks tell the order. -/
theorem before_iff_rank_lt (goes : Goes before) (insideI : i < n) (insideJ : j < n) :
    before i j = true ↔ rank before n i < rank before n j := by
  refine ⟨rank_lt_rank goes insideI, fun less => ?_⟩
  by_contra notBefore
  by_cases same : i = j
  · exact absurd less (same ▸ Nat.lt_irrefl _)
  · have other := (goes.total i j same).resolve_left notBefore
    exact absurd (rank_lt_rank goes insideJ other) (Nat.lt_asymm less)

/-- A rank is below the length. -/
theorem rank_lt (goes : Goes before) (inside : j < n) : rank before n j < n := by
  have below := List.countP_le_length (p := fun k => before k j) (l := List.range n)
  rw [List.length_range] at below
  refine lt_of_le_of_ne below fun full => goes.irrefl j ?_
  have all := List.countP_eq_length.1 (full.trans List.length_range.symm)
  exact all j (List.mem_range.2 inside)

/-- Different indices have different ranks. -/
theorem rank_inj (goes : Goes before) (insideI : i < n) (insideJ : j < n)
    (same : rank before n i = rank before n j) : i = j := by
  by_contra differ
  rcases goes.total i j differ with first | first
  · exact absurd same (rank_lt_rank goes insideI first).ne
  · exact absurd same (rank_lt_rank goes insideJ first).ne'

/-- The ranks are the indices in some order. -/
theorem ranks_perm (goes : Goes before) : ((List.range n).map (rank before n)).Perm (List.range n) := by
  have distinct : ((List.range n).map (rank before n)).Nodup :=
    List.nodup_range.map_on fun i memberI j memberJ same =>
      rank_inj goes (List.mem_range.1 memberI) (List.mem_range.1 memberJ) same
  have within : (List.range n).map (rank before n) ⊆ List.range n := by
    intro r member
    obtain ⟨j, inside, rfl⟩ := List.mem_map.1 member
    exact List.mem_range.2 (rank_lt goes (List.mem_range.1 inside))
  exact (List.subperm_of_subset distinct within).perm_of_length_le (by simp)

/-- Every place below the length is one index's rank. -/
theorem exists_rank (goes : Goes before) {r : Nat} (inside : r < n) :
    ∃ j < n, rank before n j = r := by
  obtain ⟨j, member, same⟩ := List.mem_map.1 ((ranks_perm goes).mem_iff.2 (List.mem_range.2 inside))
  exact ⟨j, List.mem_range.1 member, same⟩

/-- A list that has every index at its rank has each index once, in the order. -/
theorem listed (goes : Goes before) {out : Nat → Nat}
    (written : ∀ j < n, out (rank before n j) = j) :
    ((List.range n).map out).Perm (List.range n) ∧
      ((List.range n).map out).Pairwise fun i j => before i j = true := by
  have perm := (ranks_perm goes (n := n)).map out
  rw [List.map_map] at perm
  have identity : (List.range n).map (out ∘ rank before n) = List.range n :=
    (List.map_congr_left fun j member => written j (List.mem_range.1 member)).trans (List.map_id _)
  refine ⟨(identity ▸ perm).symm, ?_⟩
  rw [List.pairwise_map]
  refine List.pairwise_lt_range.imp_of_mem fun {r s} memberR memberS less => ?_
  obtain ⟨i, insideI, rfl⟩ := exists_rank goes (List.mem_range.1 memberR)
  obtain ⟨j, insideJ, rfl⟩ := exists_rank goes (List.mem_range.1 memberS)
  rw [written i insideI, written j insideJ]
  exact (before_iff_rank_lt goes insideI insideJ).2 less

section Values

variable {κ : Type*} [LinearOrder κ]

/-- Index `k` goes before index `j`: by the values, and by the indices where these are equal. -/
def byValue (desc : Bool) (row : Nat → κ) (k j : Nat) : Bool :=
  (if desc then decide (row j < row k) else decide (row k < row j)) ||
    decide (row k = row j) && decide (k < j)

theorem byValue_iff {desc : Bool} {row : Nat → κ} {k j : Nat} :
    byValue desc row k j = true ↔
      (if desc then row j < row k else row k < row j) ∨ row k = row j ∧ k < j := by
  cases desc <;> simp [byValue]

theorem goes_byValue (desc : Bool) (row : Nat → κ) : Goes (byValue desc row) where
  irrefl j := by
    rw [byValue_iff]
    cases desc <;> simp
  trans i j k := by
    simp only [byValue_iff]
    cases desc
    · rintro (one | ⟨one, less⟩) (two | ⟨two, less'⟩)
      · exact .inl (lt_trans one two)
      · exact .inl (two ▸ one)
      · exact .inl (one ▸ two)
      · exact .inr ⟨one.trans two, less.trans less'⟩
    · rintro (one | ⟨one, less⟩) (two | ⟨two, less'⟩)
      · exact .inl (lt_trans two one)
      · exact .inl (two ▸ one)
      · exact .inl (one ▸ two)
      · exact .inr ⟨one.trans two, less.trans less'⟩
  total i j differ := by
    simp only [byValue_iff]
    rcases lt_trichotomy (row i) (row j) with less | same | greater
    · cases desc
      · exact .inl (.inl less)
      · exact .inr (.inl less)
    · rcases Nat.lt_or_gt_of_ne differ with less | less
      · exact .inl (.inr ⟨same, less⟩)
      · exact .inr (.inr ⟨same.symm, less⟩)
    · cases desc
      · exact .inr (.inl greater)
      · exact .inl (.inl greater)

end Values

end DressOn.Ranks
