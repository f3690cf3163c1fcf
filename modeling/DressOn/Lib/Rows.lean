import Mathlib.Data.List.Basic
import Mathlib.Logic.Function.Basic

/-!
# Row updates

Lanes that each rewrite a row of a store. If no lane reads a row another lane
writes, running them one after another is the same as running them all from the
store they started on.
-/

namespace DressOn.Rows

universe u v w

variable {κ : Type u} {β : Type v} {σ : Type w} [DecidableEq κ]

/-- Rewrite the listed rows from the values `f` gives on one store. -/
def rewrite (rows : List κ) (f : κ → β) (store : κ → β) : κ → β :=
  fun row => if row ∈ rows then f row else store row

theorem rewrite_of_mem {rows : List κ} {row : κ} (member : row ∈ rows) (f : κ → β)
    (store : κ → β) : rewrite rows f store row = f row := if_pos member

theorem rewrite_of_notMem {rows : List κ} {row : κ} (outside : row ∉ rows) (f : κ → β)
    (store : κ → β) : rewrite rows f store row = store row := if_neg outside

/-- Rewriting the same rows twice composes the rewrites. -/
theorem rewrite_rewrite (rows : List κ) (f g : κ → β → β) (store : κ → β) :
    rewrite rows (fun row => g row (rewrite rows (fun row => f row (store row)) store row))
        (rewrite rows (fun row => f row (store row)) store) =
      rewrite rows (fun row => g row (f row (store row))) store := by
  funext row
  by_cases member : row ∈ rows
  · rw [rewrite_of_mem member, rewrite_of_mem member, rewrite_of_mem member]
  · rw [rewrite_of_notMem member, rewrite_of_notMem member, rewrite_of_notMem member]

/-- A sweep whose rows do not read each other rewrites them all at once. -/
theorem foldl_update {rows : List κ} (nodup : rows.Nodup) (f : (κ → β) → κ → β)
    (apart : ∀ u ∈ rows, ∀ v ∈ rows, u ≠ v → ∀ store value,
      f (Function.update store u value) v = f store v) (store : κ → β) :
    rows.foldl (fun store row => Function.update store row (f store row)) store =
      rewrite rows (f store) store := by
  induction rows generalizing store with
  | nil => funext row; simp [rewrite]
  | cons head rest ih =>
      obtain ⟨fresh, restNodup⟩ := List.nodup_cons.mp nodup
      have restApart : ∀ u ∈ rest, ∀ v ∈ rest, u ≠ v → ∀ store value,
          f (Function.update store u value) v = f store v := fun u uRest v vRest =>
        apart u (List.mem_cons_of_mem _ uRest) v (List.mem_cons_of_mem _ vRest)
      rw [List.foldl_cons, ih restNodup restApart]
      funext row
      by_cases later : row ∈ rest
      · have distinct : head ≠ row := fun same => fresh (same ▸ later)
        rw [rewrite_of_mem later, rewrite_of_mem (List.mem_cons_of_mem _ later),
          apart head List.mem_cons_self row (List.mem_cons_of_mem _ later) distinct]
      · rw [rewrite_of_notMem later]
        by_cases here : row = head
        · subst here
          rw [rewrite_of_mem List.mem_cons_self, Function.update_self]
        · rw [rewrite_of_notMem (by simp [here, later]), Function.update_of_ne here]

/-- Lanes that rewrite their own row of one component of a state, each from that
row and the rest of the state. -/
theorem foldl_lanes {ι : Type*} (put : (κ → β) → σ) (lane : ι → σ → σ) (row : ι → κ)
    (f : κ → β → β)
    (step : ∀ i store, lane i (put store) =
      put (Function.update store (row i) (f (row i) (store (row i)))))
    {lanes : List ι} (nodup : (lanes.map row).Nodup) (store : κ → β) :
    lanes.foldl (fun state i => lane i state) (put store) =
      put (rewrite (lanes.map row) (fun row => f row (store row)) store) := by
  have moved : ∀ store, lanes.foldl (fun state i => lane i state) (put store) =
      put ((lanes.map row).foldl
        (fun store row => Function.update store row (f row (store row))) store) := by
    clear nodup
    induction lanes with
    | nil => exact fun store => rfl
    | cons i rest ih =>
        intro store
        rw [List.foldl_cons, step, ih, List.map_cons, List.foldl_cons]
  rw [moved, foldl_update nodup (fun store row => f row (store row))]
  intro u _ v _ distinct store value
  rw [Function.update_of_ne distinct.symm]

section Cells

variable {ι : Type*} (addr : ι → κ)

/-- A loop of writes to addressed cells, each value independent of the other
writes, leaves in a cell what its last write put there. -/
theorem foldl_write {writes : List ι} {value : (κ → β) → ι → β}
    (stable : ∀ c ∈ writes, ∀ c' ∈ writes, ∀ store x,
      value (Function.update store (addr c') x) c = value store c)
    (c : ι) (injective : ∀ c' ∈ writes, addr c' = addr c → c' = c) (store : κ → β) :
    (c ∈ writes → writes.foldl (fun store c => Function.update store (addr c) (value store c)) store
      (addr c) = value store c) ∧
    (c ∉ writes → writes.foldl (fun store c => Function.update store (addr c) (value store c)) store
      (addr c) = store (addr c)) := by
  induction writes generalizing store with
  | nil => simp
  | cons w rest ih =>
      obtain ⟨written, kept⟩ := ih
        (fun c inRest c' inRest' => stable c (List.mem_cons_of_mem _ inRest) c'
          (List.mem_cons_of_mem _ inRest'))
        (fun c' inRest => injective c' (List.mem_cons_of_mem _ inRest))
        (Function.update store (addr w) (value store w))
      rw [List.foldl_cons]
      constructor
      · intro member
        by_cases later : c ∈ rest
        · rw [written later, stable c member w List.mem_cons_self]
        · obtain rfl : c = w := (List.mem_cons.mp member).resolve_right later
          rw [kept later, Function.update_self]
      · intro outside
        have apart : addr c ≠ addr w := fun same =>
          outside (List.mem_cons.mpr (Or.inl (injective w List.mem_cons_self same.symm).symm))
        rw [kept fun later => outside (List.mem_cons_of_mem _ later), Function.update_of_ne apart]

omit [DecidableEq κ] in
/-- A loop none of whose turns touches a cell leaves it as it was. -/
theorem foldl_frame {τ : Type*} {cell : κ} {turn : (κ → β) → τ → κ → β} {turns : List τ}
    (frame : ∀ i ∈ turns, ∀ store, turn store i cell = store cell) (store : κ → β) :
    turns.foldl turn store cell = store cell := by
  induction turns generalizing store with
  | nil => rfl
  | cons i rest ih =>
      rw [List.foldl_cons, ih fun j inRest => frame j (List.mem_cons_of_mem _ inRest),
        frame i List.mem_cons_self]

end Cells

end DressOn.Rows
