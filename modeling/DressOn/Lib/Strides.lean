import Mathlib.Data.List.Forall2
import Mathlib.Data.List.Range
import DressOn.Lib.Windows

/-!
# Strides

Flat arrays that counted loops fill row by row behind what is already there: the state of such a
loop after each of its turns, and what a row of the array reads.
-/

namespace DressOn.Strides

open DressOn.Windows

universe u

variable {α : Type} {σ : Type u}

/-- A counted loop whose turns take each state to the next ends in the last one. -/
theorem foldlM_range {step : σ → Nat → Option σ} (state : Nat → σ) (n : Nat)
    (turn : ∀ k < n, step (state k) k = some (state (k + 1))) :
    (List.range n).foldlM step (state 0) = some (state n) := by
  induction n with
  | zero => rfl
  | succ n inductionHypothesis =>
    have before := inductionHypothesis fun k inside => turn k (Nat.lt_succ_of_lt inside)
    rw [List.range_succ, List.foldlM_append, before]
    exact (bind_pure _).trans (turn n n.lt_succ_self)

/-- One more row. -/
theorem flatMap_range_succ (row : Nat → List α) (n : Nat) :
    (List.range (n + 1)).flatMap row = (List.range n).flatMap row ++ row n := by
  rw [List.range_succ, List.flatMap_append, List.flatMap_singleton]

variable {row : Nat → List α} {width n : Nat}

/-- Rows of one width. -/
theorem length_flatMap_range (wide : ∀ k < n, (row k).length = width) :
    ((List.range n).flatMap row).length = width * n := by
  induction n with
  | zero => rfl
  | succ n inductionHypothesis =>
    rw [flatMap_range_succ, List.length_append, wide n n.lt_succ_self,
      inductionHypothesis fun k inside => wide k (Nat.lt_succ_of_lt inside), Nat.mul_succ]

/-- What stands between two parts of an array. -/
theorem view_between (front part back : List α) :
    view (front ++ (part ++ back)) (front.length, part.length) = part := by
  rw [view, List.drop_left, List.take_left]

/-- A row reads as it was put, behind what stood in the array before. -/
theorem view_flatMap_range (before : List α) (wide : ∀ k < n, (row k).length = width) {k : Nat}
    (inside : k < n) :
    view (before ++ (List.range n).flatMap row) (before.length + width * k, width) = row k := by
  obtain ⟨m, rfl⟩ : ∃ m, n = k + 1 + m := ⟨n - (k + 1), by omega⟩
  have first := length_flatMap_range fun i (less : i < k) => wide i (less.trans inside)
  have parts := view_between (before ++ (List.range k).flatMap row) (row k)
    (((List.range m).map (k + 1 + ·)).flatMap row)
  rw [List.length_append, first, wide k inside] at parts
  rw [List.range_add, List.flatMap_append, flatMap_range_succ]
  simpa only [List.append_assoc] using parts

end DressOn.Strides
