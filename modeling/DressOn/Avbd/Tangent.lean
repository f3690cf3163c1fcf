import DressOn.Avbd.Backward
import Mathlib

/-!
# Rows in motion

The inputs of an iteration move along curves; a row's velocity at time 0 is its
tangent. Each kernel of the backward pass is the transpose of its forward kernel's
tangent map: pairing what it returns with the velocities of the forward kernel's
inputs is pairing its cotangent with the velocity of the output.
-/

namespace DressOn.Avbd

open Matrix

/-- Vectors scale continuously. -/
instance continuousSMul_vec3 : ContinuousSMul ℝ (Vec3 ℝ) := inferInstance

section Pairing

/-- The components of a curve of vectors move with the components of its velocity. -/
theorem component {n : Nat} {x : ℝ → Fin n → ℝ} {x' : Fin n → ℝ} (moves : HasDerivAt x x' 0)
    (i : Fin n) : HasDerivAt (fun τ => x τ i) (x' i) 0 :=
  hasDerivAt_pi.mp moves i

/-- A row moves with velocity `row'`. -/
structure Block.Moves (row : ℝ → Block ℝ) (row' : Block ℝ) : Prop where
  g : HasDerivAt (fun τ => (row τ).g) row'.g 0
  h : HasDerivAt (fun τ => (row τ).h) row'.h 0

/-- A row with a scalar Hessian moves with velocity `row'`. -/
structure Diag.Moves (row : ℝ → Diag ℝ) (row' : Diag ℝ) : Prop where
  g : HasDerivAt (fun τ => (row τ).g) row'.g 0
  hs : HasDerivAt (fun τ => (row τ).hs) row'.hs 0

/-- A row's cotangent against its velocity; an off-diagonal entry counts once. -/
def Block.pair (c row : Block ℝ) : ℝ := c.g ⬝ᵥ row.g + c.h ⬝ᵥ row.h

def Diag.pair (c row : Diag ℝ) : ℝ := c.g ⬝ᵥ row.g + c.hs * row.hs

/-- A spring's row against the cotangent of the vertex in role `r`. -/
def springTerm (r : Nat) (c force : Block ℝ) : ℝ :=
  (1 - 2 * r) * (c.g ⬝ᵥ force.g) + c.h ⬝ᵥ force.h

/-- The pairing with a spring's turn of the gather. -/
theorem pair_addSpring (r : Nat) (c row force : Block ℝ) :
    c.pair (addSpring r row force) = c.pair row + springTerm r c force := by
  simp only [Block.pair, springTerm, addSpring, dotProduct, Fin.sum_univ_succ, Fin.sum_univ_zero]
  push_cast
  ring

/-- The pairing with an attachment's or a corner's turn of the gather. -/
theorem pair_addDiag (c row : Block ℝ) (force : Diag ℝ) :
    c.pair (addDiag row force) = c.pair row + (gatherDiagBackwardRow c).pair force := by
  simp [Block.pair, Diag.pair, addDiag, gatherDiagBackwardRow, trace, dotProduct,
    Fin.sum_univ_succ]
  ring

end Pairing

section Gathers

variable (csr : Csr) (v : Nat) (c : Block ℝ)

/-- The pairing with a gather over the springs. -/
theorem pair_gatherSpringRow (spring : Nat → Block ℝ) (row : Block ℝ) :
    c.pair (gatherSpringRow csr spring v row) =
      c.pair row + ((csr.row v).map fun e => springTerm e.2 c (spring e.1)).sum := by
  unfold gatherSpringRow
  induction csr.row v generalizing row with
  | nil => simp
  | cons e rest ih => rw [List.foldl_cons, ih, pair_addSpring, List.map_cons, List.sum_cons, add_assoc]

/-- The pairing with a gather over the attachments. -/
theorem pair_gatherAttachRow (attach : Nat → Diag ℝ) (row : Block ℝ) :
    c.pair (gatherAttachRow csr attach v row) =
      c.pair row + ((csr.row v).map fun e => (gatherDiagBackwardRow c).pair (attach e.1)).sum := by
  unfold gatherAttachRow
  induction csr.row v generalizing row with
  | nil => simp
  | cons e rest ih => rw [List.foldl_cons, ih, pair_addDiag, List.map_cons, List.sum_cons, add_assoc]

/-- The pairing with a gather over the corners. -/
theorem pair_gatherDiagRow (K : Nat) (force : Nat → Diag ℝ) (row : Block ℝ) :
    c.pair (gatherDiagRow K csr force v row) = c.pair row +
      ((csr.row v).map fun e => (gatherDiagBackwardRow c).pair (force (K * e.1 + e.2))).sum := by
  unfold gatherDiagRow
  induction csr.row v generalizing row with
  | nil => simp
  | cons e rest ih => rw [List.foldl_cons, ih, pair_addDiag, List.map_cons, List.sum_cons, add_assoc]

end Gathers

section Linear

variable {row : ℝ → Block ℝ} {row' : Block ℝ}

/-- A gather's turn is linear, so its velocity is the turn of the velocities. -/
theorem Block.Moves.addSpring (moves : Block.Moves row row') {force : ℝ → Block ℝ}
    {force' : Block ℝ} (forceMoves : Block.Moves force force') (r : Nat) :
    Block.Moves (fun τ => addSpring r (row τ) (force τ)) (addSpring r row' force') := by
  constructor
  · apply hasDerivAt_pi.mpr
    intro i
    exact (component moves.g i).add ((component forceMoves.g i).const_mul _)
  · apply hasDerivAt_pi.mpr
    intro i
    exact (component moves.h i).add (component forceMoves.h i)

/-- The velocity of an attachment's or a corner's turn of the gather. -/
theorem Block.Moves.addDiag (moves : Block.Moves row row') {force : ℝ → Diag ℝ} {force' : Diag ℝ}
    (forceMoves : Diag.Moves force force') :
    Block.Moves (fun τ => addDiag (row τ) (force τ)) (addDiag row' force') := by
  constructor
  · apply hasDerivAt_pi.mpr
    intro i
    exact (component moves.g i).add (component forceMoves.g i)
  · apply hasDerivAt_pi.mpr
    intro i
    have h := component moves.h
    fin_cases i
    · exact (h 0).add forceMoves.hs
    · exact h 1
    · exact h 2
    · exact (h 3).add forceMoves.hs
    · exact h 4
    · exact (h 5).add forceMoves.hs

variable (csr : Csr) (v : Nat)

/-- The velocity of a gather over the springs. -/
theorem Block.Moves.gatherSpring {spring : ℝ → Nat → Block ℝ} {spring' : Nat → Block ℝ}
    (forces : ∀ e ∈ csr.row v, Block.Moves (fun τ => spring τ e.1) (spring' e.1))
    (moves : Block.Moves row row') :
    Block.Moves (fun τ => gatherSpringRow csr (spring τ) v (row τ))
      (gatherSpringRow csr spring' v row') := by
  unfold gatherSpringRow
  generalize csr.row v = entries at forces ⊢
  induction entries generalizing row row' with
  | nil => exact moves
  | cons e rest ih =>
      apply ih (moves.addSpring (forces e List.mem_cons_self) e.2)
      exact fun e' member => forces e' (List.mem_cons_of_mem _ member)

/-- The velocity of a gather over the attachments. -/
theorem Block.Moves.gatherAttach {attach : ℝ → Nat → Diag ℝ} {attach' : Nat → Diag ℝ}
    (forces : ∀ e ∈ csr.row v, Diag.Moves (fun τ => attach τ e.1) (attach' e.1))
    (moves : Block.Moves row row') :
    Block.Moves (fun τ => gatherAttachRow csr (attach τ) v (row τ))
      (gatherAttachRow csr attach' v row') := by
  unfold gatherAttachRow
  generalize csr.row v = entries at forces ⊢
  induction entries generalizing row row' with
  | nil => exact moves
  | cons e rest ih =>
      apply ih (moves.addDiag (forces e List.mem_cons_self))
      exact fun e' member => forces e' (List.mem_cons_of_mem _ member)

/-- The velocity of a gather over the corners. -/
theorem Block.Moves.gatherDiag (K : Nat) {force : ℝ → Nat → Diag ℝ} {force' : Nat → Diag ℝ}
    (forces : ∀ e ∈ csr.row v,
      Diag.Moves (fun τ => force τ (K * e.1 + e.2)) (force' (K * e.1 + e.2)))
    (moves : Block.Moves row row') :
    Block.Moves (fun τ => gatherDiagRow K csr (force τ) v (row τ))
      (gatherDiagRow K csr force' v row') := by
  unfold gatherDiagRow
  generalize csr.row v = entries at forces ⊢
  induction entries generalizing row row' with
  | nil => exact moves
  | cons e rest ih =>
      apply ih (moves.addDiag (forces e List.mem_cons_self))
      exact fun e' member => forces e' (List.mem_cons_of_mem _ member)

end Linear

section Data

/-- The cotangents of a spring's own inputs against their velocities. -/
def SpringCot.data (c : SpringCot ℝ) (rest' stiff' : ℝ) : ℝ := c.restLen * rest' + c.stiffness * stiff'

/-- The same for an attachment. -/
def AttachCot.data (c : AttachCot ℝ) (fixed' lam' : Vec3 ℝ) (stiff' : ℝ) : ℝ :=
  c.fixedPos ⬝ᵥ fixed' + c.lambda ⬝ᵥ lam' + c.stiffness * stiff'

/-- The same for a triangle. -/
def TriCot.data (c : TriCot ℝ) (stiff' : ℝ) (lam0' lam1' : Vec3 ℝ) : ℝ :=
  c.stiffness * stiff' + c.lambda0 ⬝ᵥ lam0' + c.lambda1 ⬝ᵥ lam1'

/-- The same for a bending stencil. -/
def BendCot.data (c : BendCot ℝ) (target' stiff' : ℝ) (lam' : Vec3 ℝ) : ℝ :=
  c.nTarget * target' + c.stiffness * stiff' + c.lambda ⬝ᵥ lam'

/-- The same for a vertex's inertial term. -/
def InitCot.data (c : InitCot ℝ) (y' : Vec3 ℝ) (mass' : ℝ) : ℝ := c.y ⬝ᵥ y' + c.mass * mass'

end Data

section Kernels

/-- `vbd_init_backward` is the transpose of `vbd_init`'s tangent map. -/
theorem initRow_adjoint (invHSq : ℝ) {x px : ℝ → Vec3 ℝ} {x' px' : Vec3 ℝ} {m : ℝ → ℝ} {m' : ℝ}
    (xMoves : HasDerivAt x x' 0) (pxMoves : HasDerivAt px px' 0) (mMoves : HasDerivAt m m' 0) :
    ∃ row', Block.Moves (fun τ => initRow invHSq (x τ) (px τ) (m τ)) row' ∧
      ∀ c : Block ℝ,
        let out := initBackward invHSq (x 0) (px 0) (m 0) c
        c.pair row' = out.x ⬝ᵥ x' + out.data px' m' := by
  have w : HasDerivAt (fun τ => m τ * invHSq) (m' * invHSq) 0 := mMoves.mul_const invHSq
  use ⟨fun i => m' * invHSq * (x 0 i - px 0 i) + m 0 * invHSq * (x' i - px' i),
    ![m' * invHSq, 0, 0, m' * invHSq, 0, m' * invHSq]⟩
  constructor
  · constructor
    · apply hasDerivAt_pi.mpr
      intro i
      exact w.mul ((component xMoves i).sub (component pxMoves i))
    · apply hasDerivAt_pi.mpr
      intro i
      fin_cases i
      · exact w
      · exact hasDerivAt_const 0 0
      · exact hasDerivAt_const 0 0
      · exact w
      · exact hasDerivAt_const 0 0
      · exact w
  · intro c
    simp [Block.pair, InitCot.data, initBackward, trace, dotProduct, Fin.sum_univ_succ]
    ring

/-- `attachment_force_al_backward` is the transpose of `attachment_force_al`'s
tangent map. -/
theorem attachmentForce_adjoint {p fp lam : ℝ → Vec3 ℝ} {p' fp' lam' : Vec3 ℝ} {k : ℝ → ℝ} {k' : ℝ}
    (pMoves : HasDerivAt p p' 0) (fpMoves : HasDerivAt fp fp' 0) (kMoves : HasDerivAt k k' 0)
    (lamMoves : HasDerivAt lam lam' 0) :
    ∃ row', Diag.Moves (fun τ => attachmentForce (p τ) (fp τ) (k τ) (lam τ)) row' ∧
      ∀ c : Diag ℝ,
        let out := attachmentBackward (p 0) (fp 0) (k 0) c
        c.pair row' = attachmentBackwardPosition (k 0) c ⬝ᵥ p' + out.data fp' lam' k' := by
  use ⟨fun i => k' * (p 0 i - fp 0 i) + k 0 * (p' i - fp' i) + lam' i, k'⟩
  constructor
  · constructor
    · apply hasDerivAt_pi.mpr
      intro i
      exact (kMoves.mul ((component pMoves i).sub (component fpMoves i))).add (component lamMoves i)
    · exact kMoves
  · intro c
    simp [Diag.pair, AttachCot.data, attachmentBackwardPosition, attachmentBackward, dotProduct,
      Fin.sum_univ_succ]
    ring

end Kernels

section Solve

/-- A symmetric matrix is homogeneous. -/
theorem symMul_mul (h : Sym6 ℝ) (a : ℝ) (u : Vec3 ℝ) :
    (symMul h fun i => a * u i) = fun i => a * symMul h u i := by
  funext i
  fin_cases i <;> simp [symMul] <;> ring

/-- A symmetric matrix times its adjugate is its determinant. -/
theorem symMul_adjugate (h : Sym6 ℝ) (u : Vec3 ℝ) :
    symMul h (symMul (adjugate h) u) = fun i => det h * u i := by
  funext i
  fin_cases i <;> simp [symMul, det, adjugate] <;> ring

/-- A symmetric matrix moves to the other side of a product. -/
theorem dotProduct_symMul (h : Sym6 ℝ) (u w : Vec3 ℝ) : symMul h u ⬝ᵥ w = u ⬝ᵥ symMul h w := by
  simp [symMul, dotProduct, Fin.sum_univ_succ]
  ring

/-- The displacement solves the row. -/
theorem symMul_solveRow {row : Block ℝ} (invertible : det row.h ≠ 0) :
    symMul row.h (solveRow row) = fun i => -row.g i := by
  unfold solveRow
  rw [symMul_mul, symMul_adjugate]
  funext i
  field_simp
  ring

/-- The adjugate over the determinant undoes the matrix. -/
theorem symMul_inverse {h : Sym6 ℝ} (invertible : det h ≠ 0) (u : Vec3 ℝ) :
    (symMul h fun i => 1 / det h * symMul (adjugate h) u i) = u := by
  rw [symMul_mul, symMul_adjugate]
  funext i
  field_simp

/-- The velocity of a symmetric matrix times a vector. -/
theorem symMul_moves {h : ℝ → Sym6 ℝ} {h' : Sym6 ℝ} {u : ℝ → Vec3 ℝ} {u' : Vec3 ℝ}
    (hMoves : HasDerivAt h h' 0) (uMoves : HasDerivAt u u' 0) :
    HasDerivAt (fun τ => symMul (h τ) (u τ)) (symMul h' (u 0) + symMul (h 0) u') 0 := by
  have h := component hMoves
  have u := component uMoves
  apply hasDerivAt_pi.mpr
  intro i
  fin_cases i
  · apply ((((h 0).mul (u 0)).add ((h 1).mul (u 1))).add ((h 2).mul (u 2))).congr_deriv
    simp [symMul]
    ring
  · apply ((((h 1).mul (u 0)).add ((h 3).mul (u 1))).add ((h 4).mul (u 2))).congr_deriv
    simp [symMul]
    ring
  · apply ((((h 2).mul (u 0)).add ((h 4).mul (u 1))).add ((h 5).mul (u 2))).congr_deriv
    simp [symMul]
    ring

/-- The determinant of a moving block moves smoothly. -/
theorem det_differentiable {row : ℝ → Block ℝ} {row' : Block ℝ} (moves : Block.Moves row row') :
    DifferentiableAt ℝ (fun τ => det (row τ).h) 0 := by
  have h := fun i => (component moves.h i).differentiableAt
  unfold det
  simp only [adjugate]
  simp
  fun_prop

/-- The displacement moves smoothly while the matrix is invertible. -/
theorem solveRow_differentiable {row : ℝ → Block ℝ} {row' : Block ℝ} (moves : Block.Moves row row')
    (invertible : det (row 0).h ≠ 0) : DifferentiableAt ℝ (fun τ => solveRow (row τ)) 0 := by
  have g := fun i => (component moves.g i).differentiableAt
  have h := fun i => (component moves.h i).differentiableAt
  have entries : ∀ i, DifferentiableAt ℝ (fun τ => adjugate (row τ).h i) 0 := by
    intro i
    fin_cases i <;> simp only [adjugate] <;> simp <;> fun_prop
  have products : ∀ i, DifferentiableAt ℝ (fun τ => symMul (adjugate (row τ).h) (row τ).g i) 0 := by
    intro i
    fin_cases i <;> simp only [symMul] <;> simp <;> fun_prop
  unfold solveRow
  apply differentiableAt_pi.mpr
  intro i
  exact ((differentiableAt_const 0).sub ((differentiableAt_const 1).div (det_differentiable moves) invertible)).mul
    (products i)

/-- `vbd_solve_apply_backward` is the transpose of the tangent map of the solve. -/
theorem solveRow_adjoint {row : ℝ → Block ℝ} {row' : Block ℝ} (moves : Block.Moves row row')
    (invertible : det (row 0).h ≠ 0) :
    ∃ dx', HasDerivAt (fun τ => solveRow (row τ)) dx' 0 ∧ ∀ vOut : Vec3 ℝ,
      vOut ⬝ᵥ dx' = (solveBackwardRow vOut (row 0).h (solveRow (row 0))).pair row' := by
  have dx := (solveRow_differentiable moves invertible).hasDerivAt
  use deriv (fun τ => solveRow (row τ)) 0, dx
  intro vOut
  generalize deriv (fun τ => solveRow (row τ)) 0 = dx' at dx
  -- Differentiating `H dx = -g` gives `H dx'` without differentiating the inverse.
  have near : ∀ᶠ τ in nhds 0, det (row τ).h ≠ 0 :=
    (det_differentiable moves).continuousAt.eventually_ne invertible
  have solves : (fun τ => symMul (row τ).h (solveRow (row τ))) =ᶠ[nhds 0] fun τ i => -(row τ).g i :=
    near.mono fun τ => symMul_solveRow
  have velocity : symMul row'.h (solveRow (row 0)) + symMul (row 0).h dx' = -row'.g :=
    ((symMul_moves moves.h dx).congr_of_eventuallyEq solves.symm).unique moves.g.neg
  let y : Vec3 ℝ := fun i => 1 / det (row 0).h * symMul (adjugate (row 0).h) vOut i
  calc vOut ⬝ᵥ dx' = symMul (row 0).h y ⬝ᵥ dx' := by rw [symMul_inverse invertible]
    _ = y ⬝ᵥ symMul (row 0).h dx' := dotProduct_symMul _ _ _
    _ = y ⬝ᵥ (-row'.g - symMul row'.h (solveRow (row 0))) := by
        rw [← velocity, add_sub_cancel_left]
    _ = (solveBackwardRow vOut (row 0).h (solveRow (row 0))).pair row' := by
        simp [solveBackwardRow, Block.pair, symMul, dotProduct, Fin.sum_univ_succ, y]
        ring

end Solve

section Forces

/-- `spring_force_backward` is the transpose of `spring_force`'s tangent map at an
operating point. -/
def SpringAdjoint (kernels : ForceKernels ℝ) (backward : BackwardKernels ℝ) (p1 p2 : Vec3 ℝ)
    (restLen stiffness : ℝ) : Prop :=
  ∀ (q1 q2 : ℝ → Vec3 ℝ) (rest stiff : ℝ → ℝ) (q1' q2' : Vec3 ℝ) (rest' stiff' : ℝ),
    q1 0 = p1 → q2 0 = p2 → rest 0 = restLen → stiff 0 = stiffness →
    HasDerivAt q1 q1' 0 → HasDerivAt q2 q2' 0 → HasDerivAt rest rest' 0 →
    HasDerivAt stiff stiff' 0 →
    ∃ force', Block.Moves (fun τ => kernels.spring (q1 τ) (q2 τ) (rest τ) (stiff τ)) force' ∧
      ∀ c : Block ℝ, c.pair force' =
        (backward.spring p1 p2 restLen stiffness c).pd ⬝ᵥ (q1' - q2') +
          (backward.spring p1 p2 restLen stiffness c).data rest' stiff'

/-- The same for `triangle_membrane_force_al_backward`. -/
def TriangleAdjoint (kernels : ForceKernels ℝ) (backward : BackwardKernels ℝ)
    (p : Fin 3 → Vec3 ℝ) (uv : Fin 4 → ℝ) (stiffness : ℝ) (l0 l1 : Vec3 ℝ) : Prop :=
  ∀ (q : ℝ → Fin 3 → Vec3 ℝ) (stiff : ℝ → ℝ) (lam0 lam1 : ℝ → Vec3 ℝ) (q' : Fin 3 → Vec3 ℝ)
    (stiff' : ℝ) (lam0' lam1' : Vec3 ℝ),
    q 0 = p → stiff 0 = stiffness → lam0 0 = l0 → lam1 0 = l1 →
    (∀ r, HasDerivAt (fun τ => q τ r) (q' r) 0) → HasDerivAt stiff stiff' 0 →
    HasDerivAt lam0 lam0' 0 → HasDerivAt lam1 lam1' 0 →
    ∃ force' : Fin 3 → Diag ℝ,
      (∀ r, Diag.Moves (fun τ => kernels.triangle (q τ) uv (stiff τ) (lam0 τ) (lam1 τ) r)
        (force' r)) ∧
      ∀ c : Fin 3 → Diag ℝ, ∑ r, (c r).pair (force' r) =
        ∑ r, (backward.triangle p uv stiffness l0 l1 c).p r ⬝ᵥ q' r +
          (backward.triangle p uv stiffness l0 l1 c).data stiff' lam0' lam1'

/-- The same for `triangle_bending_force_al_backward`. -/
def BendingAdjoint (kernels : ForceKernels ℝ) (backward : BackwardKernels ℝ)
    (p : Fin 4 → Vec3 ℝ) (weight : Fin 4 → ℝ) (nTarget stiffness : ℝ) (lambda : Vec3 ℝ) : Prop :=
  ∀ (q : ℝ → Fin 4 → Vec3 ℝ) (target stiff : ℝ → ℝ) (lam : ℝ → Vec3 ℝ) (q' : Fin 4 → Vec3 ℝ)
    (target' stiff' : ℝ) (lam' : Vec3 ℝ),
    q 0 = p → target 0 = nTarget → stiff 0 = stiffness → lam 0 = lambda →
    (∀ r, HasDerivAt (fun τ => q τ r) (q' r) 0) → HasDerivAt target target' 0 →
    HasDerivAt stiff stiff' 0 → HasDerivAt lam lam' 0 →
    ∃ force' : Fin 4 → Diag ℝ,
      (∀ r, Diag.Moves (fun τ => kernels.bending (q τ) weight (target τ) (stiff τ) (lam τ) r)
        (force' r)) ∧
      ∀ c : Fin 4 → Diag ℝ, ∑ r, (c r).pair (force' r) =
        ∑ r, (backward.bending p weight nTarget stiffness lambda c).p r ⬝ᵥ q' r +
          (backward.bending p weight nTarget stiffness lambda c).data target' stiff' lam'

end Forces

end DressOn.Avbd
