import DressOn.Avbd.Tangent
import Mathlib.Analysis.SpecialFunctions.Sqrt

/-!
# The spring kernels over the reals

`spring_force` and `spring_force_backward`. Where the ends are apart the second is
the transpose of the first one's tangent map.
-/

namespace DressOn.Avbd

open Matrix

section Kernels

/-- `len2`. -/
def lengthSq (d : Vec3 ℝ) : ℝ := d 0 * d 0 + d 1 * d 1 + d 2 * d 2

/-- The six products of a displacement with itself. -/
def square (d : Vec3 ℝ) : Sym6 ℝ :=
  ![d 0 * d 0, d 0 * d 1, d 0 * d 2, d 1 * d 1, d 1 * d 2, d 2 * d 2]

/-- `spring_force`. -/
noncomputable def springForceKernel (p1 p2 : Vec3 ℝ) (restLen k : ℝ) : Block ℝ :=
  let d : Vec3 ℝ := fun i => p1 i - p2 i
  let len := √(lengthSq d)
  let gScale := k * (len - restLen) / len
  let h := k / lengthSq d
  ⟨fun i => gScale * d i, fun i => h * square d i⟩

/-- `spring_force_backward`. -/
noncomputable def springForceBackwardKernel (p1 p2 : Vec3 ℝ) (restLen k : ℝ) (v : Block ℝ) :
    SpringCot ℝ :=
  let d : Vec3 ℝ := fun i => p1 i - p2 i
  let len2 := lengthSq d
  let len := √len2
  let gScale := k * (len - restLen) / len
  let dotVGd := v.g 0 * d 0 + v.g 1 * d 1 + v.g 2 * d 2
  let kLd := k * (restLen * dotVGd) / (len * len2)
  let S := v.h 0 * (d 0 * d 0) + v.h 1 * (d 0 * d 1) + v.h 2 * (d 0 * d 2) +
    v.h 3 * (d 1 * d 1) + v.h 4 * (d 1 * d 2) + v.h 5 * (d 2 * d 2)
  let T : Vec3 ℝ := ![v.h 0 * (2 * d 0) + v.h 1 * d 1 + v.h 2 * d 2,
    v.h 1 * d 0 + v.h 3 * (2 * d 1) + v.h 4 * d 2, v.h 2 * d 0 + v.h 4 * d 1 + v.h 5 * (2 * d 2)]
  let hs := 2 * (k * S) / (len2 * len2)
  ⟨fun i => gScale * v.g i + kLd * d i + (k / len2 * T i - hs * d i), 0 - k * dotVGd / len,
    (len - restLen) * dotVGd / len + S / len2⟩

end Kernels

section Adjoint

/-- A squared length is not negative. -/
theorem lengthSq_nonneg (d : Vec3 ℝ) : 0 ≤ lengthSq d :=
  add_nonneg (add_nonneg (mul_self_nonneg _) (mul_self_nonneg _)) (mul_self_nonneg _)

/-- The velocity of a squared length. -/
theorem lengthSq_moves {d : ℝ → Vec3 ℝ} {d' : Vec3 ℝ} (moves : HasDerivAt d d' 0) :
    HasDerivAt (fun τ => lengthSq (d τ)) (2 * (d 0 ⬝ᵥ d')) 0 := by
  have part := component moves
  apply ((((part 0).mul (part 0)).add ((part 1).mul (part 1))).add
    ((part 2).mul (part 2))).congr_deriv
  simp [dotProduct, Fin.sum_univ_succ]
  ring

/-- The velocity of the six products of a vector. -/
theorem square_moves {d : ℝ → Vec3 ℝ} {d' : Vec3 ℝ} (moves : HasDerivAt d d' 0) :
    HasDerivAt (fun τ => square (d τ)) ![2 * d 0 0 * d' 0, d' 0 * d 0 1 + d 0 0 * d' 1,
      d' 0 * d 0 2 + d 0 0 * d' 2, 2 * d 0 1 * d' 1, d' 1 * d 0 2 + d 0 1 * d' 2,
      2 * d 0 2 * d' 2] 0 := by
  have part := component moves
  apply hasDerivAt_pi.mpr
  intro i
  fin_cases i
  · apply ((part 0).mul (part 0)).congr_deriv
    simp
    ring
  · exact (part 0).mul (part 1)
  · exact (part 0).mul (part 2)
  · apply ((part 1).mul (part 1)).congr_deriv
    simp
    ring
  · exact (part 1).mul (part 2)
  · apply ((part 2).mul (part 2)).congr_deriv
    simp
    ring

/-- The spring's backward kernel is the transpose where its ends are apart. -/
theorem springKernels_adjoint (kernels : ForceKernels ℝ) (backward : BackwardKernels ℝ)
    (forward : kernels.spring = springForceKernel)
    (transposed : backward.spring = springForceBackwardKernel) {p1 p2 : Vec3 ℝ}
    (apart : lengthSq (fun i => p1 i - p2 i) ≠ 0) (restLen k : ℝ) :
    SpringAdjoint kernels backward p1 p2 restLen k := by
  rintro q1 q2 rest stiff q1' q2' rest' stiff' rfl rfl rfl rfl q1Moves q2Moves restMoves stiffMoves
  rw [forward, transposed]
  have d : HasDerivAt (fun τ i => q1 τ i - q2 τ i) (q1' - q2') 0 := q1Moves.sub q2Moves
  have len2 := lengthSq_moves d
  have len := len2.sqrt apart
  have nonneg := lengthSq_nonneg fun i => q1 0 i - q2 0 i
  have root : √(lengthSq fun i => q1 0 i - q2 0 i) * √(lengthSq fun i => q1 0 i - q2 0 i) =
      lengthSq fun i => q1 0 i - q2 0 i := Real.mul_self_sqrt nonneg
  have positive : √(lengthSq fun i => q1 0 i - q2 0 i) ≠ 0 := (Real.sqrt_ne_zero nonneg).mpr apart
  have gScale := (stiffMoves.mul (len.sub restMoves)).div len positive
  have h := stiffMoves.div len2 apart
  have gMoves := hasDerivAt_pi.mpr fun i => gScale.mul (component d i)
  have hMoves := hasDerivAt_pi.mpr fun i => h.mul (component (square_moves d) i)
  refine ⟨⟨_, _⟩, ⟨gMoves, hMoves⟩, fun c => ?_⟩
  -- The kernel divides by `len`, `len2` and their products; all are powers of one root.
  simp only [springForceBackwardKernel, Block.pair, SpringCot.data, Pi.mul_apply, Pi.div_apply,
    Pi.sub_apply]
  generalize √(lengthSq fun i => q1 0 i - q2 0 i) = s at root positive
  generalize lengthSq (fun i => q1 0 i - q2 0 i) = L at root apart
  subst root
  simp [dotProduct, Fin.sum_univ_succ, square]
  field_simp
  ring

end Adjoint

end DressOn.Avbd
