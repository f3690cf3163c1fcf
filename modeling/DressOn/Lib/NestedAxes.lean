import Mathlib.Algebra.BigOperators.Group.List.Basic
import Mathlib.Algebra.Order.Ring.Nat
import Mathlib.Data.List.Forall2
import Mathlib.Tactic.Linarith
import Mathlib.Tactic.Ring

/-!
# Nested axes

A strided layout whose axes are listed from the lowest up is nested when each axis
steps over the whole of the one below it. Distinct indices then lie at least one
pitch apart, and the index one pitch further on is found by a carry over the axes
that leave no gap.
-/

namespace DressOn.NestedAxes

/-- How many indices an axis has, and how far apart they are. -/
structure Axis where
  extent : ℕ
  stride : ℕ

/-- The stride of the lowest axis. -/
def pitch : List Axis → ℕ
  | [] => 1
  | axis :: _ => axis.stride

@[simp] theorem pitch_cons (axis : Axis) (rest : List Axis) :
    pitch (axis :: rest) = axis.stride := rfl

/-- Where an index lies. -/
def address : List Axis → List ℕ → ℕ
  | axis :: rest, i :: index => i * axis.stride + address rest index
  | _, _ => 0

/-- An index that lies inside the extents. -/
abbrev Within (axes : List Axis) (index : List ℕ) : Prop :=
  List.Forall₂ (fun axis i => i < axis.extent) axes index

/-- Every axis steps over the whole of the one below it. -/
def Nested : List Axis → Prop
  | [] => True
  | axis :: rest =>
      0 < axis.stride ∧ (rest = [] ∨ axis.extent * axis.stride ≤ pitch rest) ∧ Nested rest

/-- Whether the next axis up continues where this one ends. -/
def Linked (axis : Axis) (rest : List Axis) : Prop := pitch rest = axis.extent * axis.stride

instance (axis : Axis) (rest : List Axis) : Decidable (Linked axis rest) :=
  inferInstanceAs (Decidable (_ = _))

/-- The carry to the index one pitch further on. -/
def next : List Axis → List ℕ → Option (List ℕ)
  | axis :: rest, i :: index =>
      if i + 1 < axis.extent then some ((i + 1) :: index)
      else if Linked axis rest then (next rest index).map (0 :: ·)
      else none
  | _, _ => none

/-- Whether some index lies one pitch before this one. -/
def HasPrevious : List Axis → List ℕ → Prop
  | axis :: rest, i :: index => 0 < i ∨ Linked axis rest ∧ HasPrevious rest index
  | _, _ => False

/-- The address of the last index. -/
def top (axes : List Axis) : ℕ := (axes.map fun axis => (axis.extent - 1) * axis.stride).sum

/-- How many indices there are. -/
def volume (axes : List Axis) : ℕ := (axes.map Axis.extent).prod

section Apart

variable {axes : List Axis} {index other : List ℕ}

/-- One step within an axis covers less than its extent. -/
theorem step_le {axis : Axis} {i : ℕ} (within : i < axis.extent) :
    i * axis.stride + axis.stride ≤ axis.extent * axis.stride := by
  calc i * axis.stride + axis.stride = (i + 1) * axis.stride := by ring
    _ ≤ axis.extent * axis.stride := Nat.mul_le_mul_right _ within

/-- Indices that differ above an axis are further apart than the axis is long. -/
theorem extent_le_pitch {axis : Axis} {rest : List Axis}
    (fits : rest = [] ∨ axis.extent * axis.stride ≤ pitch rest)
    (differ : address rest index < address rest other) :
    axis.extent * axis.stride ≤ pitch rest := by
  rcases fits with rfl | fits
  · simp [address] at differ
  · exact fits

/-- Distinct addresses lie at least one pitch apart. -/
theorem address_add_pitch_le (nested : Nested axes) (within : Within axes index)
    (within' : Within axes other) (less : address axes index < address axes other) :
    address axes index + pitch axes ≤ address axes other := by
  induction axes generalizing index other with
  | nil => cases within; simp [address] at less
  | cons axis rest ih =>
      cases within with
      | @cons _ i _ index below within =>
        cases within' with
        | @cons _ j _ other below' within' =>
          obtain ⟨-, fits, nested⟩ := nested
          simp only [address, pitch_cons] at less ⊢
          have step := step_le below
          have step' := step_le below'
          rcases lt_trichotomy (address rest index) (address rest other) with up | same | down
          · have apart := ih nested within within' up
            have long := extent_le_pitch fits up
            omega
          · have lower : i < j := by
              by_contra ge
              have := Nat.mul_le_mul_right axis.stride (Nat.le_of_not_lt ge)
              omega
            have := Nat.mul_le_mul_right axis.stride (Nat.succ_le_of_lt lower)
            rw [Nat.succ_mul] at this
            omega
          · have apart := ih nested within' within down
            have long := extent_le_pitch fits down
            omega

/-- No two indices share an address. -/
theorem address_inj (nested : Nested axes) (within : Within axes index)
    (within' : Within axes other) :
    address axes index = address axes other ↔ index = other := by
  refine ⟨fun same => ?_, fun same => same ▸ rfl⟩
  induction axes generalizing index other with
  | nil => cases within; cases within'; rfl
  | cons axis rest ih =>
      cases within with
      | @cons _ i _ index below within =>
        cases within' with
        | @cons _ j _ other below' within' =>
          obtain ⟨stride_pos, fits, nested⟩ := nested
          simp only [address] at same
          have step := step_le below
          have step' := step_le below'
          rcases lt_trichotomy (address rest index) (address rest other) with up | equal | down
          · have apart := address_add_pitch_le nested within within' up
            have long := extent_le_pitch fits up
            omega
          · rw [equal, Nat.add_right_cancel_iff] at same
            rw [Nat.eq_of_mul_eq_mul_right stride_pos same, ih nested within within' equal]
          · have apart := address_add_pitch_le nested within' within down
            have long := extent_le_pitch fits down
            omega

end Apart

section Carry

variable {axes : List Axis} {index other : List ℕ}

/-- The carry stays inside and moves one pitch on. -/
theorem next_spec (within : Within axes index) (carried : next axes index = some other) :
    Within axes other ∧ address axes other = address axes index + pitch axes := by
  induction within generalizing other with
  | nil => simp [next] at carried
  | @cons axis i rest index below within ih =>
      rw [next] at carried
      split at carried
      next inside =>
        obtain rfl := Option.some.inj carried
        refine ⟨List.Forall₂.cons inside within, ?_⟩
        simp only [address, pitch_cons]
        ring
      next ends =>
        split at carried
        next linked =>
          obtain ⟨above, carriedAbove, rfl⟩ := Option.map_eq_some_iff.mp carried
          obtain ⟨within', moved⟩ := ih carriedAbove
          have last : axis.extent = i + 1 := by omega
          refine ⟨List.Forall₂.cons (by omega) within', ?_⟩
          rw [Linked, last] at linked
          simp only [address, pitch_cons, moved, linked]
          ring
        next => cases carried

/-- Where the carry stops, no index lies one pitch further on. -/
theorem address_ne_of_next_none (nested : Nested axes) (within : Within axes index)
    (within' : Within axes other) (stops : next axes index = none) :
    address axes other ≠ address axes index + pitch axes := by
  induction axes generalizing index other with
  | nil => cases within; cases within'; simp [address, pitch]
  | cons axis rest ih =>
      cases within with
      | @cons _ i _ index below within =>
        cases within' with
        | @cons _ j _ other below' within' =>
          obtain ⟨stride_pos, fits, nested⟩ := nested
          rw [next] at stops
          split at stops
          next => cases stops
          next ends =>
            have last : axis.extent = i + 1 := by omega
            have whole : axis.extent * axis.stride = i * axis.stride + axis.stride := by
              rw [last, Nat.succ_mul]
            have step' := step_le below'
            simp only [address, pitch_cons]
            intro further
            rcases lt_trichotomy (address rest index) (address rest other) with up | equal | down
            · -- the address leaves this axis, so the axis above continues it
              have apart := address_add_pitch_le nested within within' up
              have long := extent_le_pitch fits up
              have linked : Linked axis rest := by rw [Linked]; omega
              rw [if_pos linked, Option.map_eq_none_iff] at stops
              exact ih nested within within' stops (by omega)
            · omega
            · omega

/-- The carry finds the index one pitch further on, when there is one. -/
theorem address_eq_add_pitch_iff (nested : Nested axes) (within : Within axes index)
    (within' : Within axes other) :
    address axes other = address axes index + pitch axes ↔ next axes index = some other := by
  refine ⟨fun further => ?_, fun carried => (next_spec within carried).2⟩
  cases found : next axes index with
  | none => exact absurd further (address_ne_of_next_none nested within within' found)
  | some carried =>
      obtain ⟨inside, moved⟩ := next_spec within found
      rw [(address_inj nested inside within').mp (moved.trans further.symm)]

/-- An index is carried to exactly when some axis of the chain is past its start. -/
theorem hasPrevious_iff (within : Within axes index) :
    HasPrevious axes index ↔ ∃ other, Within axes other ∧ next axes other = some index := by
  induction within with
  | nil => simp [HasPrevious, next]
  | @cons axis i rest index below within ih =>
      rw [HasPrevious]
      constructor
      · rintro (positive | ⟨linked, previous⟩)
        · refine ⟨(i - 1) :: index, List.Forall₂.cons (by omega) within, ?_⟩
          have back : i - 1 + 1 = i := by omega
          rw [next, if_pos (by omega), back]
        · by_cases positive : 0 < i
          · refine ⟨(i - 1) :: index, List.Forall₂.cons (by omega) within, ?_⟩
            have back : i - 1 + 1 = i := by omega
            rw [next, if_pos (by omega), back]
          · obtain ⟨other, inside, carried⟩ := ih.mp previous
            obtain rfl : i = 0 := by omega
            refine ⟨(axis.extent - 1) :: other, List.Forall₂.cons (by omega) inside, ?_⟩
            rw [next, if_neg (by omega), if_pos linked, carried, Option.map_some]
      · rintro ⟨other, inside, carried⟩
        cases inside with
        | @cons _ j _ other below' inside =>
          rw [next] at carried
          split at carried
          next => simp at carried; omega
          next =>
            split at carried
            next linked =>
              obtain ⟨above, carriedAbove, same⟩ := Option.map_eq_some_iff.mp carried
              obtain ⟨-, rfl⟩ := List.cons.inj same
              exact Or.inr ⟨linked, ih.mpr ⟨other, inside, carriedAbove⟩⟩
            next => cases carried

/-- There are no more indices than addresses up to the last one. -/
theorem volume_mul_pitch_le (nested : Nested axes) (extents : ∀ axis ∈ axes, 0 < axis.extent) :
    volume axes * pitch axes ≤ top axes + pitch axes := by
  induction axes with
  | nil => simp [volume, pitch, top]
  | cons axis rest ih =>
      obtain ⟨stride_pos, fits, nested⟩ := nested
      have here : 0 < axis.extent := extents axis List.mem_cons_self
      have ih := ih nested fun axis member => extents axis (List.mem_cons_of_mem _ member)
      have whole : (axis.extent - 1) * axis.stride + axis.stride = axis.extent * axis.stride := by
        rw [← Nat.succ_mul, Nat.succ_eq_add_one, Nat.sub_add_cancel here]
      have split : volume (axis :: rest) * axis.stride
          = volume rest * (axis.extent * axis.stride) := by
        simp only [volume, List.map_cons, List.prod_cons]
        ring
      have total : top (axis :: rest) = (axis.extent - 1) * axis.stride + top rest := by
        simp [top]
      rw [pitch, split, total, Nat.add_right_comm, whole]
      rcases fits with rfl | fits
      · simp [volume, top]
      · have positive : 0 < volume rest := List.prod_pos_iff_forall_pos_nat.mpr fun extent member => by
          obtain ⟨above, listed, rfl⟩ := List.mem_map.mp member
          exact extents above (List.mem_cons_of_mem _ listed)
        obtain ⟨more, volume_eq⟩ : ∃ more, volume rest = more + 1 :=
          ⟨_, (Nat.sub_add_cancel positive).symm⟩
        rw [volume_eq] at ih ⊢
        have := Nat.mul_le_mul_left more fits
        linarith

end Carry

end DressOn.NestedAxes
