import Mathlib.Algebra.Group.Torsion
import Mathlib.Algebra.Order.Group.Nat
import Mathlib.Algebra.BigOperators.Group.List.Basic
import Mathlib.Data.List.Induction
import Mathlib.Logic.Function.Basic

/-!
# Overwriting where one should add

Writers that overwrite their cell leave there what the last of them wrote. Over
every order of the writers that is the sum of what they write only when there is
at most one of them or nothing to add.
-/

namespace DressOn.Overwrites

section Cells

variable {ι κ M : Type*} [DecidableEq κ] (key : ι → κ) (value : ι → M)

/-- Each writer overwrites its cell. -/
def overwrite (order : List ι) (cells : κ → M) : κ → M :=
  order.foldl (fun cells i => Function.update cells (key i) (value i)) cells

/-- The writers of a cell, in order. -/
def writers (order : List ι) (cell : κ) : List ι := order.filter fun i => key i = cell

/-- A cell holds what its last writer wrote. -/
theorem overwrite_apply (order : List ι) (cells : κ → M) (cell : κ) :
    overwrite key value order cells cell =
      ((writers key order cell).map value).getLast?.getD (cells cell) := by
  induction order using List.reverseRecOn with
  | nil => rfl
  | append_singleton order i ih =>
      rw [overwrite, List.foldl_append]
      by_cases here : key i = cell
      · simp [writers, here]
      · simpa [writers, here, Ne.symm here, overwrite] using ih

/-- Only what the writers write matters. -/
theorem overwrite_congr {other : ι → M} {order : List ι}
    (same : ∀ i ∈ order, value i = other i) (cells : κ → M) :
    overwrite key value order cells = overwrite key other order cells := by
  apply List.foldl_ext
  intro cells i member
  rw [same i member]

end Cells

section Sums

variable {M : Type*} [AddCommGroup M] [IsAddTorsionFree M]

/-- At least two summands that each equal the sum are all zero. -/
theorem eq_zero_of_forall_eq_sum {values : List M} (several : 1 < values.length)
    (each : ∀ value ∈ values, value = values.sum) : ∀ value ∈ values, value = 0 := by
  have total : values.sum = values.length • values.sum := by
    calc values.sum = (values.map fun _ => values.sum).sum := by
          rw [List.map_congr_left fun value member => (each value member).symm, List.map_id']
      _ = values.length • values.sum := by simp
  have rest : (values.length - 1) • values.sum = 0 := by
    have split : values.length • values.sum = (values.length - 1) • values.sum + values.sum := by
      rw [← succ_nsmul, Nat.sub_add_cancel (by omega)]
    rw [split] at total
    exact right_eq_add.mp total
  have zero : values.sum = 0 := (nsmul_eq_zero_iff_right (by omega)).mp rest
  intro value member
  rw [each value member, zero]

/-- In every order of the writers a cell ends with the sum of what its writers
write exactly when it has at most one writer, or they all write zero. -/
theorem overwrite_eq_sum_iff {ι κ : Type*} [DecidableEq κ] (key : ι → κ) (value : ι → M)
    (items : List ι) (cell : κ) :
    (∀ order : List ι, order.Perm items → overwrite key value order (fun _ => 0) cell =
        ((writers key items cell).map value).sum) ↔
      (writers key items cell).length ≤ 1 ∨ ∀ i ∈ writers key items cell, value i = 0 := by
  simp only [overwrite_apply]
  constructor
  · intro lastIsSum
    by_cases few : (writers key items cell).length ≤ 1
    · exact Or.inl few
    · right
      have several : 1 < ((writers key items cell).map value).length := by simpa using few
      have zero := eq_zero_of_forall_eq_sum several ?_
      · simpa using zero
      · intro written member
        obtain ⟨i, writes, rfl⟩ := List.mem_map.mp member
        obtain ⟨listed, here⟩ := List.mem_filter.mp writes
        -- put this writer last
        obtain ⟨before, after, rfl⟩ := List.append_of_mem listed
        have moved := lastIsSum (before ++ after ++ [i]) (by
          rw [List.append_assoc]
          exact (List.perm_append_singleton i after).append_left before)
        rw [← moved]
        simp [writers, of_decide_eq_true here]
  · rintro few order perm
    have same : (writers key order cell).Perm (writers key items cell) := perm.filter _
    rw [← (same.map value).sum_eq]
    rcases few with few | zero
    · rw [← same.length_eq] at few
      match writers key order cell, few with
      | [], _ => simp
      | [i], _ => simp
    · have none : ∀ written ∈ (writers key order cell).map value, written = 0 := by
        intro written member
        obtain ⟨i, writes, rfl⟩ := List.mem_map.mp member
        exact zero i (same.mem_iff.mp writes)
      rw [List.sum_eq_zero none]
      cases last : ((writers key order cell).map value).getLast? with
      | none => rfl
      | some written => exact none written (List.mem_of_getLast? last)

end Sums

end DressOn.Overwrites
