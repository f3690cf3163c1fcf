import Mathlib.Algebra.Order.Ring.Nat
import Mathlib.Data.Nat.Log
import Mathlib.Tactic.Ring

/-!
# Trees that grow like a counter

A tree of a number of leaves has the largest power of two that leaves some for the right under its
left branch. Leaf by leaf it grows on a stack of full trees, one for every one among the binary
digits of the count.
-/

namespace DressOn.Peaks

variable {Node Value : Type*} (value : Node → Value) (join : Value → Value → Node)
  (leaf : ℕ → Node)

/-- The leaves under the left branch. -/
def leftCount (count : ℕ) : ℕ := 2 ^ (count - 1).log2

theorem leftCount_pos (count : ℕ) : 0 < leftCount count := Nat.two_pow_pos _

theorem leftCount_lt {count : ℕ} (several : 1 < count) : leftCount count < count := by
  have := Nat.log2_self_le (n := count - 1) (by omega)
  unfold leftCount
  omega

/-- The left branch of a tree that is at most twice as large as a full one. -/
theorem leftCount_add {level count : ℕ} (positive : 0 < count) (fits : count ≤ 2 ^ level) :
    leftCount (2 ^ level + count) = 2 ^ level := by
  have same : (2 ^ level + count - 1).log2 = level := by
    have := Nat.two_pow_pos level
    rw [Nat.log2_eq_iff (by omega), pow_succ]
    omega
  rw [leftCount, same]

/-- The tree of a number of leaves. -/
def tree (first count : ℕ) : Node :=
  if _ : 1 < count then
    join (value (tree first (leftCount count)))
      (value (tree (first + leftCount count) (count - leftCount count)))
  else
    leaf first
termination_by count
decreasing_by
  · exact leftCount_lt ‹_›
  · have := leftCount_pos count
    omega

@[simp] theorem tree_one (first : ℕ) : tree value join leaf first 1 = leaf first := by
  rw [tree, dif_neg (Nat.lt_irrefl 1)]

/-- A full tree joins one that is not larger. -/
theorem tree_add (first : ℕ) {level count : ℕ} (positive : 0 < count) (fits : count ≤ 2 ^ level) :
    tree value join leaf first (2 ^ level + count) =
      join (value (tree value join leaf first (2 ^ level)))
        (value (tree value join leaf (first + 2 ^ level) count)) := by
  have := Nat.two_pow_pos level
  rw [tree, dif_pos (by omega), leftCount_add positive fits, Nat.add_sub_cancel_left]

/-- The values of the full trees over a number of neighbours of one level, the last one on top. -/
def peaks (level n : ℕ) : List Value :=
  if n = 0 then
    []
  else if n % 2 = 1 then
    value (tree value join leaf ((n - 1) * 2 ^ level) (2 ^ level)) :: peaks (level + 1) (n / 2)
  else
    peaks (level + 1) (n / 2)
termination_by n

@[simp] theorem peaks_zero (level : ℕ) : peaks value join leaf level 0 = [] := by
  rw [peaks, if_pos rfl]

/-- An even number of neighbours are half as many of the next level. -/
theorem peaks_double (level n : ℕ) :
    peaks value join leaf level (2 * n) = peaks value join leaf (level + 1) n := by
  rw [peaks]
  split
  next zero => rw [show n = 0 by omega, peaks_zero]
  next => rw [if_neg (by omega), Nat.mul_div_cancel_left _ two_pos]

/-- Of an odd number the last one is on its own. -/
theorem peaks_double_succ (level n : ℕ) :
    peaks value join leaf level (2 * n + 1) =
      value (tree value join leaf (2 * n * 2 ^ level) (2 ^ level)) ::
        peaks value join leaf (level + 1) n := by
  rw [peaks, if_neg (by omega), if_pos (by omega), Nat.add_sub_cancel,
    show (2 * n + 1) / 2 = n by omega]

/-- One peak for a digit at most. -/
theorem length_peaks_le (level : ℕ) {n digits : ℕ} (fits : n < 2 ^ digits) :
    (peaks value join leaf level n).length ≤ digits := by
  induction digits generalizing level n with
  | zero =>
    obtain rfl : n = 0 := by simpa using fits
    simp
  | succ digits inductionHypothesis =>
    rw [pow_succ] at fits
    obtain ⟨half, rfl | rfl⟩ : ∃ half, n = 2 * half ∨ n = 2 * half + 1 := ⟨n / 2, by omega⟩
    · rw [peaks_double]
      have := inductionHypothesis (level + 1) (n := half) (by omega)
      omega
    · rw [peaks_double_succ, List.length_cons]
      have := inductionHypothesis (level + 1) (n := half) (by omega)
      omega

/-- Two full neighbours make a full tree of the next level. -/
theorem value_tree_double (level n : ℕ) :
    join (value (tree value join leaf (2 * n * 2 ^ level) (2 ^ level)))
        (value (tree value join leaf ((2 * n + 1) * 2 ^ level) (2 ^ level))) =
      tree value join leaf (n * 2 ^ (level + 1)) (2 ^ (level + 1)) := by
  have next : (2 * n + 1) * 2 ^ level = 2 * n * 2 ^ level + 2 ^ level := by ring
  have first : n * 2 ^ (level + 1) = 2 * n * 2 ^ level := by ring
  have count : 2 ^ (level + 1) = 2 ^ level + 2 ^ level := by ring
  rw [next, first, count, tree_add value join leaf _ (Nat.two_pow_pos _) le_rfl]

/-- A tree that is not larger than its left neighbours joins them from the top to the bottom. -/
theorem foldl_peaks (level n : ℕ) {count : ℕ} (positive : 0 < count) (fits : count ≤ 2 ^ level) :
    (peaks value join leaf level n).foldl (fun node left => join left (value node))
        (tree value join leaf (n * 2 ^ level) count) =
      tree value join leaf 0 (n * 2 ^ level + count) := by
  induction n using Nat.strong_induction_on generalizing level count with
  | h n inductionHypothesis =>
    rcases Nat.eq_zero_or_pos n with rfl | some
    · simp
    have double : 2 ^ (level + 1) = 2 ^ level + 2 ^ level := by ring
    obtain ⟨half, rfl | rfl⟩ : ∃ half, n = 2 * half ∨ n = 2 * half + 1 := ⟨n / 2, by omega⟩
    · have same : 2 * half * 2 ^ level = half * 2 ^ (level + 1) := by ring
      rw [peaks_double, same]
      exact inductionHypothesis half (by omega) (level + 1) positive (by omega)
    · have first : (2 * half + 1) * 2 ^ level = 2 * half * 2 ^ level + 2 ^ level := by ring
      have same : 2 * half * 2 ^ level = half * 2 ^ (level + 1) := by ring
      rw [peaks_double_succ, List.foldl_cons, first, ← tree_add value join leaf _ positive fits,
        Nat.add_assoc, same]
      exact inductionHypothesis half (by omega) (level + 1) (by omega) (by omega)

end DressOn.Peaks
