import Mathlib.Data.List.Basic

/-!
# Windows

A range cut into consecutive windows of one size, the last one possibly shorter, and what reading
a list window by window gives.
-/

namespace DressOn.Windows

variable {α : Type}

/-- The windows of at most `size` places from a place up to the total, as their starts and
lengths. Windows of no place are none. -/
def windowsFrom (size total start : Nat) : List (Nat × Nat) :=
  if 0 < size ∧ start < total then
    (start, min size (total - start))
      :: windowsFrom size total (start + min size (total - start))
  else []
termination_by total - start

/-- The windows of a whole range. -/
def windows (size total : Nat) : List (Nat × Nat) := windowsFrom size total 0

/-- Every window has some places, no more than the size, inside the range. -/
theorem of_mem_windowsFrom {size total start : Nat} {window : Nat × Nat}
    (member : window ∈ windowsFrom size total start) :
    0 < window.2 ∧ window.2 ≤ size ∧ window.1 + window.2 ≤ total := by
  fun_induction windowsFrom size total start with
  | case1 start inside inductionHypothesis =>
    rcases List.mem_cons.mp member with rfl | member
    · dsimp only
      omega
    · exact inductionHypothesis member
  | case2 start outside => cases member

/-- The same of the windows of a whole range. -/
theorem of_mem_windows {size total : Nat} {window : Nat × Nat}
    (member : window ∈ windows size total) :
    0 < window.2 ∧ window.2 ≤ size ∧ window.1 + window.2 ≤ total :=
  of_mem_windowsFrom member

/-- What a list has in a window. -/
def view (data : List α) (window : Nat × Nat) : List α := (data.drop window.1).take window.2

/-- A window inside the list shows as many elements as it has places. -/
theorem length_view {data : List α} {window : Nat × Nat}
    (inside : window.1 + window.2 ≤ data.length) : (view data window).length = window.2 := by
  simp only [view, List.length_take, List.length_drop]
  omega

/-- The windows from a place on show the rest of a list, when each place stands for `stride`
elements. -/
theorem flatMap_windowsFrom {size total start stride : Nat} {data : List α} (positive : 0 < size)
    (length_eq : data.length = total * stride) :
    (windowsFrom size total start).flatMap
        (fun window => view data (window.1 * stride, window.2 * stride))
      = data.drop (start * stride) := by
  fun_induction windowsFrom size total start with
  | case1 start inside inductionHypothesis =>
    rw [List.flatMap_cons, inductionHypothesis, view, Nat.add_mul, ← List.drop_drop,
      List.take_append_drop]
  | case2 start outside =>
    have past : data.length ≤ start * stride := by
      rw [length_eq]
      exact Nat.mul_le_mul_right stride (by omega)
    rw [List.flatMap_nil, List.drop_eq_nil_of_le past]

/-- Read window by window, a list is whole. -/
theorem flatMap_windows {size total stride : Nat} {data : List α} (positive : 0 < size)
    (length_eq : data.length = total * stride) :
    (windows size total).flatMap (fun window => view data (window.1 * stride, window.2 * stride))
      = data := by
  rw [windows, flatMap_windowsFrom positive length_eq, Nat.zero_mul, List.drop_zero]

/-- The same with one element for each place. -/
theorem flatMap_view_windows {size : Nat} {data : List α} (positive : 0 < size) :
    (windows size data.length).flatMap (view data) = data := by
  have whole := @flatMap_windows α size data.length 1 data positive (by omega)
  simpa using whole

end DressOn.Windows
