import DressOn.Lib.CountingSort
import Mathlib.Algebra.BigOperators.Group.Finset.Basic

/-!
# Sums over buckets

Summing over the buckets and then over what each holds is summing over the items:
a gather by key and the scatter back to the items move the same terms.
-/

namespace DressOn.CountingSort

open Finset

variable {ι M : Type*} [AddCommMonoid M]

theorem sum_range_eq_sum_map (n : Nat) (f : Nat → M) :
    ∑ i ∈ range n, f i = ((List.range n).map f).sum := by
  induction n with
  | zero => rfl
  | succ n ih => rw [sum_range_succ, ih, List.range_succ, List.map_append, List.sum_append]; simp

/-- A sum over lists laid end to end. -/
theorem sum_map_flatMap {κ : Type*} (blocks : List κ) (block : κ → List ι) (f : ι → M) :
    ((blocks.flatMap block).map f).sum = (blocks.map fun b => ((block b).map f).sum).sum := by
  induction blocks with
  | nil => rfl
  | cons b rest ih => simp [ih]

/-- Each item is met once, in the bucket of its key. -/
theorem sum_bucket {key : ι → Nat} {items : List ι} {buckets : Nat}
    (inRange : ∀ item ∈ items, key item < buckets) (f : Nat → ι → M) :
    ∑ b ∈ range buckets, ((bucket key items b).map (f b)).sum =
      (items.map fun item => f (key item) item).sum := by
  have ofKey : ∀ b, (bucket key items b).map (f b) =
      (bucket key items b).map fun item => f (key item) item := by
    intro b
    apply List.map_congr_left
    intro item member
    rw [show key item = b by simpa [bucket] using (List.mem_filter.mp member).2]
  rw [sum_range_eq_sum_map, ← ((perm_flatMap_bucket_of_lt key inRange).map _).sum_eq,
    sum_map_flatMap]
  simp only [ofKey]

end DressOn.CountingSort
