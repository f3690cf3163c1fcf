import DressOn.Lib.Numerals
import Mathlib.Algebra.Order.Field.Basic
import Mathlib.Data.Matrix.Mul
import Mathlib.Tactic.Abel
import Mathlib.Tactic.FieldSimp
import Mathlib.Tactic.Linarith

/-!
# The nearest point of a triangle

The plane of a triangle has coordinates: the point `a + s ab + u ac`. Seven regions say which
corner, edge or inner point is nearest, by signs of the products of the two edges with the ways
from the corners to the point, in any number of dimensions and over any ordered field. The first
region whose signs fit is the right one.
-/

namespace DressOn.TriangleRegions

/-- The products of two edges with each other, and with the way from their corner to a point. -/
structure Products (α : Type*) where
  abab : α
  abac : α
  acac : α
  abap : α
  acap : α

namespace Products

variable {α : Type*} [Field α]

/-- The other edge first. -/
def flip (k : Products α) : Products α := ⟨k.acac, k.abac, k.abab, k.acap, k.abap⟩

/-- The first edge with the way from its end. -/
def abbp (k : Products α) : α := k.abap - k.abab

/-- The second edge with the way from the end of the first. -/
def acbp (k : Products α) : α := k.acap - k.abac

/-- The first edge with the way from the end of the second. -/
def abcp (k : Products α) : α := k.abap - k.abac

/-- The second edge with the way from its end. -/
def accp (k : Products α) : α := k.acap - k.acac

/-- The weight of the end of the second edge. -/
def weightC (k : Products α) : α := k.abap * k.acbp - k.abbp * k.acap

/-- The weight of the end of the first edge. -/
def weightB (k : Products α) : α := k.abcp * k.acap - k.abap * k.accp

/-- The weight of the corner. -/
def weightA (k : Products α) : α := k.abbp * k.accp - k.abcp * k.acbp

/-- What the squared distance has beyond that of the corner. -/
def excess (k : Products α) (s u : α) : α :=
  s * s * k.abab + 2 * (s * u * k.abac) + u * u * k.acac - 2 * (s * k.abap + u * k.acap)

/-- How the distance falls along the first edge. -/
def slopeB (k : Products α) (s u : α) : α := k.abap - s * k.abab - u * k.abac

/-- How the distance falls along the second edge. -/
def slopeC (k : Products α) (s u : α) : α := k.acap - s * k.abac - u * k.acac

/-- The weights add up to the square of the area, twice over. -/
theorem weights_sum (k : Products α) :
    k.weightA + k.weightB + k.weightC = k.abab * k.acac - k.abac * k.abac := by
  simp only [weightA, weightB, weightC, abbp, acbp, abcp, accp]
  ring

section Flip

variable (k : Products α)

theorem flip_weightC : k.flip.weightC = k.weightB := by
  simp only [weightC, weightB, flip, abbp, acbp, abcp, accp]
  ring

theorem flip_weightB : k.flip.weightB = k.weightC := by
  simp only [weightC, weightB, flip, abbp, acbp, abcp, accp]
  ring

theorem flip_weightA : k.flip.weightA = k.weightA := by
  simp only [weightA, flip, abbp, acbp, abcp, accp]
  ring

end Flip

variable [LinearOrder α]

/-- The edges span a plane. -/
structure Solid (k : Products α) : Prop where
  ab : 0 < k.abab
  ac : 0 < k.acac
  area : 0 < k.abab * k.acac - k.abac * k.abac

/-- No point of the triangle is nearer. -/
def Best (k : Products α) (s u : α) : Prop :=
  ∀ s' u', 0 ≤ s' → 0 ≤ u' → s' + u' ≤ 1 → k.excess s u ≤ k.excess s' u'

/-- The coordinates of the nearest point. -/
def spot (k : Products α) : α × α :=
  if k.abap ≤ 0 ∧ k.acap ≤ 0 then (0, 0)
  else if 0 ≤ k.abbp ∧ k.acbp ≤ k.abbp then (1, 0)
  else if k.weightC ≤ 0 ∧ 0 ≤ k.abap ∧ k.abbp ≤ 0 then (k.abap / (k.abap - k.abbp), 0)
  else if 0 ≤ k.accp ∧ k.abcp ≤ k.accp then (0, 1)
  else if k.weightB ≤ 0 ∧ 0 ≤ k.acap ∧ k.accp ≤ 0 then (0, k.acap / (k.acap - k.accp))
  else if k.weightA ≤ 0 ∧ 0 ≤ k.acbp - k.abbp ∧ 0 ≤ k.abcp - k.accp then
    (1 - (k.acbp - k.abbp) / (k.acbp - k.abbp + (k.abcp - k.accp)),
      (k.acbp - k.abbp) / (k.acbp - k.abbp + (k.abcp - k.accp)))
  else
    (k.weightB * (1 / (k.weightA + k.weightB + k.weightC)),
      k.weightC * (1 / (k.weightA + k.weightB + k.weightC)))

variable [IsStrictOrderedRing α] {k : Products α}

namespace Solid

omit [IsStrictOrderedRing α] in
theorem flip (solid : k.Solid) : k.flip.Solid where
  ab := solid.ac
  ac := solid.ab
  area := by
    have area := solid.area
    rw [mul_comm] at area
    exact area

/-- The third edge has a length. -/
theorem bc (solid : k.Solid) : 0 < k.abab - 2 * k.abac + k.acac := by
  have scaled : 0 < k.abab * (k.abab - 2 * k.abac + k.acac) := by
    have square := sq_nonneg (k.abab - k.abac)
    linarith [solid.area, square,
      show k.abab * (k.abab - 2 * k.abac + k.acac) = (k.abab - k.abac) ^ 2 +
        (k.abab * k.acac - k.abac * k.abac) by ring]
  exact (mul_pos_iff_of_pos_left solid.ab).1 scaled

/-- A step in the plane has a length. -/
theorem spread (solid : k.Solid) (s u : α) :
    0 ≤ s * s * k.abab + 2 * (s * u * k.abac) + u * u * k.acac := by
  have scaled : 0 ≤ k.abab * (s * s * k.abab + 2 * (s * u * k.abac) + u * u * k.acac) := by
    have square := sq_nonneg (s * k.abab + u * k.abac)
    have area := mul_nonneg (mul_self_nonneg u) solid.area.le
    linarith [show k.abab * (s * s * k.abab + 2 * (s * u * k.abac) + u * u * k.acac) =
      (s * k.abab + u * k.abac) ^ 2 + u * u * (k.abab * k.acac - k.abac * k.abac) by ring]
  exact nonneg_of_mul_nonneg_right scaled solid.ab

end Solid

/-- A point is nearest when the distance falls towards no corner. -/
theorem best_of_slopes (solid : k.Solid) {s u : α}
    (toA : 0 ≤ s * k.slopeB s u + u * k.slopeC s u)
    (toB : k.slopeB s u ≤ s * k.slopeB s u + u * k.slopeC s u)
    (toC : k.slopeC s u ≤ s * k.slopeB s u + u * k.slopeC s u) : k.Best s u := by
  intro s' u' sPos uPos sum
  have away : s' * k.slopeB s u + u' * k.slopeC s u ≤ s * k.slopeB s u + u * k.slopeC s u := by
    have byB := mul_le_mul_of_nonneg_left toB sPos
    have byC := mul_le_mul_of_nonneg_left toC uPos
    have byA := mul_nonneg (sub_nonneg.2 sum) toA
    linarith
  have spread := solid.spread (s' - s) (u' - u)
  have parts : k.excess s' u' - k.excess s u =
      (s' - s) * (s' - s) * k.abab + 2 * ((s' - s) * (u' - u) * k.abac) +
        (u' - u) * (u' - u) * k.acac +
      2 * (s * k.slopeB s u + u * k.slopeC s u - (s' * k.slopeB s u + u' * k.slopeC s u)) := by
    simp only [excess, slopeB, slopeC]
    ring
  linarith

/-- The wedge between two sides of an angle: a point beyond one side is short of the other. -/
theorem wedge {A E F G H : α} (aPos : 0 < A) (area : F * F < A * E) (gPos : 0 < G) (hPos : 0 < H)
    (beyond : A * G ≤ F * H) : 0 < F ∧ F * G < E * H := by
  have fPos : 0 < F :=
    (mul_pos_iff_of_pos_right hPos).1 (lt_of_lt_of_le (mul_pos aPos gPos) beyond)
  refine ⟨fPos, ?_⟩
  have scaled : A * (F * G) < A * (E * H) := by
    calc A * (F * G) = F * (A * G) := by ring
      _ ≤ F * (F * H) := mul_le_mul_of_nonneg_left beyond fPos.le
      _ = F * F * H := by ring
      _ < A * E * H := mul_lt_mul_of_pos_right area hPos
      _ = A * (E * H) := by ring
  exact lt_of_mul_lt_mul_left scaled aPos.le

/-- Beyond one side and farther out than the other side is long. -/
theorem wedge_far {A E F G H : α} (aPos : 0 < A) (ePos : 0 < E) (area : F * F < A * E)
    (gPos : 0 < G) (hPos : 0 < H) (beyond : A * G ≤ F * H) (far : E ≤ G) : F < H := by
  obtain ⟨fPos, short⟩ := wedge aPos area gPos hPos beyond
  have scaled : E * F < E * H := by
    calc E * F ≤ G * F := mul_le_mul_of_nonneg_right far fPos.le
      _ = F * G := mul_comm _ _
      _ < E * H := short
  exact lt_of_mul_lt_mul_left scaled ePos.le

/-- The point falls in the region of no corner and of no edge. -/
structure Inner (k : Products α) : Prop where
  a : ¬ (k.abap ≤ 0 ∧ k.acap ≤ 0)
  b : ¬ (0 ≤ k.abbp ∧ k.acbp ≤ k.abbp)
  ab : ¬ (k.weightC ≤ 0 ∧ 0 ≤ k.abap ∧ k.abbp ≤ 0)
  c : ¬ (0 ≤ k.accp ∧ k.abcp ≤ k.accp)
  ac : ¬ (k.weightB ≤ 0 ∧ 0 ≤ k.acap ∧ k.accp ≤ 0)
  bc : ¬ (k.weightA ≤ 0 ∧ 0 ≤ k.acbp - k.abbp ∧ 0 ≤ k.abcp - k.accp)

namespace Inner

omit [IsStrictOrderedRing α] in
theorem flip (inner : k.Inner) : k.flip.Inner where
  a := fun region => inner.a ⟨region.2, region.1⟩
  b := inner.c
  ab := by
    rw [flip_weightC]
    exact inner.ac
  c := inner.b
  ac := by
    rw [flip_weightB]
    exact inner.ab
  bc := by
    rw [flip_weightA]
    exact fun region => inner.bc ⟨region.1, region.2.2, region.2.1⟩

/-- Below the first edge the point cannot lie behind the corner. -/
theorem not_behind (solid : k.Solid) (inner : k.Inner) (below : k.weightC ≤ 0) : 0 ≤ k.abap := by
  by_contra behind
  have hPos : 0 < -k.abap := by linarith
  have gPos : 0 < k.acap := by
    by_contra short
    exact inner.a ⟨by linarith, not_lt.1 short⟩
  have beyond : k.abab * k.acap ≤ -k.abac * -k.abap := by
    have parts : k.weightC = k.abab * k.acap - -k.abac * -k.abap := by
      simp only [weightC, acbp, abbp]
      ring
    linarith
  have area : -k.abac * -k.abac < k.abab * k.acac := by linarith [solid.area]
  obtain ⟨_, short⟩ := wedge solid.ab area gPos hPos beyond
  have besides : k.weightB ≤ 0 := by
    have parts : k.weightB = -k.abac * k.acap - k.acac * -k.abap := by
      simp only [weightB, abcp, accp]
      ring
    linarith
  have past : 0 < k.accp := by
    by_contra near
    exact inner.ac ⟨besides, gPos.le, not_lt.1 near⟩
  have far := wedge_far solid.ab solid.ac area gPos hPos beyond (by
    simp only [accp] at past
    linarith)
  refine inner.c ⟨past.le, ?_⟩
  simp only [abcp]
  linarith

/-- Below the first edge the point cannot lie beyond its end. -/
theorem not_beyond (solid : k.Solid) (inner : k.Inner) (below : k.weightC ≤ 0) : k.abbp ≤ 0 := by
  by_contra beyondEnd
  have hPos : 0 < k.abbp := not_le.1 beyondEnd
  have gPos : 0 < k.acbp - k.abbp := by
    by_contra short
    exact inner.b ⟨hPos.le, by linarith⟩
  have beyond : k.abab * (k.acbp - k.abbp) ≤ (k.abac - k.abab) * k.abbp := by
    have parts : k.weightC = k.abab * (k.acbp - k.abbp) - (k.abac - k.abab) * k.abbp := by
      simp only [weightC, acbp, abbp]
      ring
    linarith
  have area : (k.abac - k.abab) * (k.abac - k.abab) <
      k.abab * (k.abab - 2 * k.abac + k.acac) := by linarith [solid.area]
  obtain ⟨_, short⟩ := wedge solid.ab area gPos hPos beyond
  have besides : k.weightA ≤ 0 := by
    have parts : k.weightA = (k.abac - k.abab) * (k.acbp - k.abbp) -
        (k.abab - 2 * k.abac + k.acac) * k.abbp := by
      simp only [weightA, accp, abcp, acbp, abbp]
      ring
    linarith
  have past : k.abcp < k.accp := by
    by_contra near
    exact inner.bc ⟨besides, gPos.le, by linarith⟩
  have thirdEdge : k.abab - 2 * k.abac + k.acac = k.acbp - k.abbp + (k.abcp - k.accp) := by
    simp only [accp, abcp, acbp, abbp]
    ring
  have far := wedge_far solid.ab solid.bc area gPos hPos beyond (by linarith)
  refine inner.c ⟨?_, past.le⟩
  have parts : k.accp = k.abbp - (k.abac - k.abab) +
      (k.acbp - k.abbp - (k.abab - 2 * k.abac + k.acac)) := by
    simp only [accp, acbp, abbp]
    ring
  linarith

theorem weightC_pos (solid : k.Solid) (inner : k.Inner) : 0 < k.weightC := by
  by_contra below
  have below := not_lt.1 below
  exact inner.ab ⟨below, inner.not_behind solid below, inner.not_beyond solid below⟩

theorem weightB_pos (solid : k.Solid) (inner : k.Inner) : 0 < k.weightB := by
  rw [← flip_weightC]
  exact inner.flip.weightC_pos solid.flip

/-- Beyond the third edge the point cannot lie past its first end. -/
theorem toC_nonneg (solid : k.Solid) (inner : k.Inner) (beyond : k.weightA ≤ 0) :
    0 ≤ k.acbp - k.abbp := by
  by_contra past
  have gPos : 0 < k.abbp - k.acbp := by linarith
  have hPos : 0 < -k.abbp := by
    by_contra short
    exact inner.b ⟨by linarith, by linarith⟩
  have above := inner.weightC_pos solid
  have side : k.abab * (k.abbp - k.acbp) ≤ (k.abac - k.abab) * -k.abbp := by
    have parts : k.weightC = (k.abac - k.abab) * -k.abbp - k.abab * (k.abbp - k.acbp) := by
      simp only [weightC, acbp, abbp]
      ring
    linarith
  have area : (k.abac - k.abab) * (k.abac - k.abab) <
      k.abab * (k.abab - 2 * k.abac + k.acac) := by linarith [solid.area]
  obtain ⟨_, short⟩ := wedge solid.ab area gPos hPos side
  have parts : k.weightA = (k.abab - 2 * k.abac + k.acac) * -k.abbp -
      (k.abac - k.abab) * (k.abbp - k.acbp) := by
    simp only [weightA, accp, abcp, acbp, abbp]
    ring
  linarith

theorem weightA_pos (solid : k.Solid) (inner : k.Inner) : 0 < k.weightA := by
  by_contra beyond
  have beyond := not_lt.1 beyond
  refine inner.bc ⟨beyond, inner.toC_nonneg solid beyond, ?_⟩
  exact inner.flip.toC_nonneg solid.flip (by rw [flip_weightA]; exact beyond)

end Inner

/-- The coordinates are those of a point of the triangle. -/
structure Within (spot : α × α) : Prop where
  toB : 0 ≤ spot.1
  toC : 0 ≤ spot.2
  toA : spot.1 + spot.2 ≤ 1

/-- A share of a whole. -/
theorem share {part rest : α} (partNonneg : 0 ≤ part) (restNonneg : 0 ≤ rest) :
    0 ≤ part / (part + rest) ∧ part / (part + rest) ≤ 1 :=
  ⟨div_nonneg partNonneg (add_nonneg partNonneg restNonneg),
    div_le_one_of_le₀ (by linarith) (add_nonneg partNonneg restNonneg)⟩

/-- The corner's region. -/
theorem best_a (solid : k.Solid) (region : k.abap ≤ 0 ∧ k.acap ≤ 0) : k.Best 0 0 := by
  apply best_of_slopes solid <;> simp only [slopeB, slopeC] <;> linarith

/-- The region of the end of the first edge. -/
theorem best_b (solid : k.Solid) (region : 0 ≤ k.abbp ∧ k.acbp ≤ k.abbp) : k.Best 1 0 := by
  obtain ⟨past, aside⟩ := region
  simp only [abbp, acbp] at past aside
  apply best_of_slopes solid <;> simp only [slopeB, slopeC] <;> linarith

/-- The region of the first edge. -/
theorem best_ab (solid : k.Solid) (region : k.weightC ≤ 0 ∧ 0 ≤ k.abap ∧ k.abbp ≤ 0) :
    Within (k.abap / (k.abap - k.abbp), 0) ∧ k.Best (k.abap / (k.abap - k.abbp)) 0 := by
  obtain ⟨below, past, short⟩ := region
  have whole : k.abap - k.abbp = k.abab := by simp [abbp]
  have shared := share past (neg_nonneg.2 short)
  rw [← sub_eq_add_neg] at shared
  have flat : k.slopeB (k.abap / (k.abap - k.abbp)) 0 = 0 := by
    rw [whole, slopeB, div_mul_cancel₀ _ solid.ab.ne']
    ring
  have outward : k.slopeC (k.abap / (k.abap - k.abbp)) 0 ≤ 0 := by
    have parts : k.slopeC (k.abap / (k.abap - k.abbp)) 0 = k.weightC / k.abab := by
      have := solid.ab.ne'
      rw [whole]
      simp only [slopeC, weightC, acbp, abbp]
      field_simp
      ring
    rw [parts]
    exact div_nonpos_of_nonpos_of_nonneg below solid.ab.le
  refine ⟨⟨shared.1, le_rfl, by simpa using shared.2⟩, best_of_slopes solid ?_ ?_ ?_⟩ <;>
    simp only [flat, mul_zero, zero_mul, add_zero, le_refl]
  exact outward

omit [IsStrictOrderedRing α] in
/-- What is best with the edges the other way round is best. -/
theorem best_flip {s u : α} (best : k.flip.Best s u) : k.Best u s := by
  intro s' u' sPos uPos sum
  have turned := best u' s' uPos sPos (by rwa [add_comm])
  have same : ∀ s u, k.flip.excess s u = k.excess u s := by
    intro s u
    simp only [excess, flip]
    ring
  rwa [same, same] at turned

/-- The region of the end of the second edge. -/
theorem best_c (solid : k.Solid) (region : 0 ≤ k.accp ∧ k.abcp ≤ k.accp) : k.Best 0 1 :=
  best_flip (best_b solid.flip region)

/-- The region of the second edge. -/
theorem best_ac (solid : k.Solid) (region : k.weightB ≤ 0 ∧ 0 ≤ k.acap ∧ k.accp ≤ 0) :
    Within (0, k.acap / (k.acap - k.accp)) ∧ k.Best 0 (k.acap / (k.acap - k.accp)) := by
  obtain ⟨within, best⟩ := best_ab solid.flip (by rw [flip_weightC]; exact region)
  exact ⟨⟨within.toC, within.toB, (add_comm _ _).trans_le within.toA⟩, best_flip best⟩

/-- The region of the third edge. -/
theorem best_bc (solid : k.Solid)
    (region : k.weightA ≤ 0 ∧ 0 ≤ k.acbp - k.abbp ∧ 0 ≤ k.abcp - k.accp) :
    let part := (k.acbp - k.abbp) / (k.acbp - k.abbp + (k.abcp - k.accp))
    Within (1 - part, part) ∧ k.Best (1 - part) part := by
  intro part
  obtain ⟨below, past, short⟩ := region
  have shared : 0 ≤ part ∧ part ≤ 1 := share past short
  have whole : k.acbp - k.abbp + (k.abcp - k.accp) = k.abab - 2 * k.abac + k.acac := by
    simp only [accp, abcp, acbp, abbp]
    ring
  have long : k.acbp - k.abbp + (k.abcp - k.accp) ≠ 0 := by
    rw [whole]
    exact solid.bc.ne'
  have partEq : part * (k.abab - 2 * k.abac + k.acac) = k.acbp - k.abbp := by
    rw [← whole]
    exact div_mul_cancel₀ _ long
  have level : k.slopeC (1 - part) part = k.slopeB (1 - part) part := by
    simp only [acbp, abbp] at partEq
    simp only [slopeB, slopeC]
    linarith
  have outward : 0 ≤ k.slopeB (1 - part) part := by
    have scaled : (k.abab - 2 * k.abac + k.acac) * k.slopeB (1 - part) part = -k.weightA := by
      have parts : (k.abab - 2 * k.abac + k.acac) * k.slopeB (1 - part) part =
          (k.abab - 2 * k.abac + k.acac) * k.abbp +
            part * (k.abab - 2 * k.abac + k.acac) * (k.abab - k.abac) := by
        simp only [slopeB, abbp]
        ring
      rw [parts, partEq]
      simp only [weightA, accp, abcp, acbp, abbp]
      ring
    exact nonneg_of_mul_nonneg_right (scaled ▸ neg_nonneg.2 below) solid.bc
  have sum : (1 - part) * k.slopeB (1 - part) part + part * k.slopeB (1 - part) part =
      k.slopeB (1 - part) part := by ring
  refine ⟨⟨sub_nonneg.2 shared.2, shared.1, by simp⟩, best_of_slopes solid ?_ ?_ ?_⟩
  · rw [level, sum]
    exact outward
  · rw [level, sum]
  · rw [level, sum]

/-- The region of the inside. -/
theorem best_face (solid : k.Solid) (inner : k.Inner) :
    let den := 1 / (k.weightA + k.weightB + k.weightC)
    Within (k.weightB * den, k.weightC * den) ∧ k.Best (k.weightB * den) (k.weightC * den) := by
  intro den
  have sum := k.weights_sum
  have wholePos : 0 < k.weightA + k.weightB + k.weightC := sum ▸ solid.area
  have denPos : 0 < den := one_div_pos.2 wholePos
  have denEq : den * (k.abab * k.acac - k.abac * k.abac) = 1 := by
    rw [← sum]
    exact one_div_mul_cancel wholePos.ne'
  have flatB : k.slopeB (k.weightB * den) (k.weightC * den) = 0 := by
    have parts : k.slopeB (k.weightB * den) (k.weightC * den) =
        k.abap - k.abap * (den * (k.abab * k.acac - k.abac * k.abac)) := by
      simp only [slopeB, weightB, weightC, accp, abcp, acbp, abbp]
      ring
    rw [parts, denEq, mul_one, sub_self]
  have flatC : k.slopeC (k.weightB * den) (k.weightC * den) = 0 := by
    have parts : k.slopeC (k.weightB * den) (k.weightC * den) =
        k.acap - k.acap * (den * (k.abab * k.acac - k.abac * k.abac)) := by
      simp only [slopeC, weightB, weightC, accp, abcp, acbp, abbp]
      ring
    rw [parts, denEq, mul_one, sub_self]
  have toA : k.weightB * den + k.weightC * den ≤ 1 := by
    have parts : k.weightA * den + k.weightB * den + k.weightC * den = 1 := by
      rw [← add_mul, ← add_mul]
      exact mul_one_div_cancel wholePos.ne'
    have rest := mul_pos (inner.weightA_pos solid) denPos
    linarith
  refine ⟨⟨(mul_pos (inner.weightB_pos solid) denPos).le,
    (mul_pos (inner.weightC_pos solid) denPos).le, toA⟩, best_of_slopes solid ?_ ?_ ?_⟩ <;>
    simp only [flatB, flatC, mul_zero, add_zero, le_refl]

/-- The spot is in the triangle, and no point of the triangle is nearer. -/
theorem spot_best (solid : k.Solid) : Within k.spot ∧ k.Best k.spot.1 k.spot.2 := by
  unfold spot
  split_ifs with a b ab c ac bc
  · exact ⟨⟨le_rfl, le_rfl, by simp⟩, best_a solid a⟩
  · exact ⟨⟨zero_le_one, le_rfl, by simp⟩, best_b solid b⟩
  · exact best_ab solid ab
  · exact ⟨⟨le_rfl, zero_le_one, by simp⟩, best_c solid c⟩
  · exact best_ac solid ac
  · exact best_bc solid bc
  · exact best_face solid ⟨a, b, ab, c, ac, bc⟩

end Products

section Vectors

variable {ι α : Type*} [Fintype ι] [Field α] [LinearOrder α] [IsStrictOrderedRing α]

/-- The products of a triangle and a point. -/
def products (a b c p : ι → α) : Products α where
  abab := (b - a) ⬝ᵥ (b - a)
  abac := (b - a) ⬝ᵥ (c - a)
  acac := (c - a) ⬝ᵥ (c - a)
  abap := (b - a) ⬝ᵥ (p - a)
  acap := (c - a) ⬝ᵥ (p - a)

/-- The point of the triangle's plane with these coordinates. -/
def planePoint (a b c : ι → α) (spot : α × α) : ι → α := a + spot.1 • (b - a) + spot.2 • (c - a)

/-- The points of the triangle. -/
def Triangle (a b c : ι → α) : Set (ι → α) :=
  {q | ∃ spot, Products.Within spot ∧ q = planePoint a b c spot}

/-- The square of the distance of two points. -/
def dist2 (p q : ι → α) : α := (p - q) ⬝ᵥ (p - q)

omit [LinearOrder α] [IsStrictOrderedRing α] in
/-- The square of a way less steps along two edges. -/
theorem dot_sub_steps (ab ac ap : ι → α) (s u : α) :
    (ap - (s • ab + u • ac)) ⬝ᵥ (ap - (s • ab + u • ac)) = ap ⬝ᵥ ap +
      (⟨ab ⬝ᵥ ab, ab ⬝ᵥ ac, ac ⬝ᵥ ac, ab ⬝ᵥ ap, ac ⬝ᵥ ap⟩ : Products α).excess s u := by
  simp only [Products.excess, sub_dotProduct, dotProduct_sub, add_dotProduct, dotProduct_add,
    smul_dotProduct, dotProduct_smul, smul_eq_mul, dotProduct_comm ap, dotProduct_comm ac ab]
  ring

omit [LinearOrder α] [IsStrictOrderedRing α] in
/-- The distance to a point of the plane is that to the corner and the excess. -/
theorem dist2_planePoint (a b c p : ι → α) (spot : α × α) :
    dist2 p (planePoint a b c spot) = dist2 p a + (products a b c p).excess spot.1 spot.2 := by
  have way : p - planePoint a b c spot = (p - a) - (spot.1 • (b - a) + spot.2 • (c - a)) := by
    simp only [planePoint]
    abel
  rw [dist2, way, dot_sub_steps]
  rfl

/-- The spot's point is a nearest point of the triangle. -/
theorem spot_isLeast {a b c p : ι → α} (solid : (products a b c p).Solid) :
    planePoint a b c (products a b c p).spot ∈ Triangle a b c ∧
      ∀ q ∈ Triangle a b c, dist2 p (planePoint a b c (products a b c p).spot) ≤ dist2 p q := by
  obtain ⟨within, best⟩ := Products.spot_best solid
  refine ⟨⟨_, within, rfl⟩, ?_⟩
  rintro q ⟨spot, inside, rfl⟩
  rw [dist2_planePoint, dist2_planePoint]
  exact add_le_add_right (best spot.1 spot.2 inside.toB inside.toC inside.toA) _

end Vectors

end DressOn.TriangleRegions
