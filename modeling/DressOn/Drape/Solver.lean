import DressOn.Avbd.Penalties
import DressOn.Drape.Scene

/-!
# The solver behind a session

What a drape session asks of `AvbdCpu` or `AvbdRd`: the uploads, the updates in
place, a run of iterations, the self-collision scan and the backward of the last
iteration. The kernels are parameters; the buffers they read are `Buffers`.
-/

namespace DressOn.Drape

open DressOn.Avbd (Vec3)
open DressOn.Avbd.Backends (load length_load)
open DressOn.Avbd.Penalties (AvbdCpu AvbdRd Constraint updateF32_of_length)

section Penalties

/-- The solver's stiffnesses and dual penalties, on one of the two back ends. -/
inductive Penalties (α : Type*) where
  | cpu (side : AvbdCpu α)
  | rd (side : AvbdRd α)

namespace Penalties

variable {α : Type*} [Field α]

/-- The penalties of a new `AvbdCpu` or `AvbdRd`. -/
def fresh (onRd : Bool) : Penalties α := if onRd then .rd .fresh else .cpu .fresh

/-- The number of constraints of a family. -/
def count : Penalties α → Constraint → Nat
  | .cpu side => side.count
  | .rd side => side.count

/-- The stiffnesses the kernels bind. -/
def stiff : Penalties α → Constraint → List α
  | .cpu side => side.stiff
  | .rd side => side.stiff

/-- The dual penalties the kernels bind. -/
def gamma : Penalties α → Constraint → List α
  | .cpu side => side.gamma
  | .rd side => side.gamma

/-- `uploadAttachments`, `uploadTriangles`, `uploadBendings`. -/
def upload (family : Constraint) (n : Nat) (stiffness : Nat → α) : Penalties α → Penalties α
  | .cpu side => .cpu (side.upload family n stiffness)
  | .rd side => .rd (side.upload family n stiffness)

/-- `updateAttachmentStiffness`, and the stiffness part of the rest updates. -/
def update (family : Constraint) (stiffness : Nat → α) : Penalties α → Penalties α
  | .cpu side => .cpu (side.update family stiffness)
  | .rd side => .rd (side.update family stiffness)

/-- `setGammaScale`. -/
def setGammaScale (scale : α) : Penalties α → Penalties α
  | .cpu side => .cpu (side.setGammaScale scale)
  | .rd side => .rd (side.setGammaScale scale)

/-- A family's stiffness buffer has a row for each constraint. -/
def Sized (penalties : Penalties α) : Prop :=
  ∀ family, (penalties.stiff family).length = penalties.count family

/-- An upload sets the count of its family. -/
@[simp] theorem count_upload (family : Constraint) (n : Nat) (stiffness : Nat → α)
    (penalties : Penalties α) :
    (penalties.upload family n stiffness).count = Function.update penalties.count family n := by
  cases penalties with
  | cpu side => rfl
  | rd side => simp only [upload, count, Avbd.Penalties.AvbdRd.upload_eq]

/-- An upload sets the stiffnesses of its family. -/
@[simp] theorem stiff_upload (family : Constraint) (n : Nat) (stiffness : Nat → α)
    (penalties : Penalties α) :
    (penalties.upload family n stiffness).stiff =
      Function.update penalties.stiff family (load n stiffness) := by
  cases penalties with
  | cpu side => rfl
  | rd side => simp only [upload, stiff, Avbd.Penalties.AvbdRd.upload_eq]

/-- A scale changes no count. -/
@[simp] theorem count_setGammaScale (scale : α) (penalties : Penalties α) :
    (penalties.setGammaScale scale).count = penalties.count := by
  cases penalties <;> rfl

/-- A scale changes no stiffness. -/
@[simp] theorem stiff_setGammaScale (scale : α) (penalties : Penalties α) :
    (penalties.setGammaScale scale).stiff = penalties.stiff := by
  cases penalties <;> rfl

/-- An update changes no count. -/
@[simp] theorem count_update (family : Constraint) (stiffness : Nat → α)
    (penalties : Penalties α) : (penalties.update family stiffness).count = penalties.count := by
  cases penalties with
  | cpu side =>
      simp only [update, count, AvbdCpu.update]
      split <;> rfl
  | rd side =>
      simp only [update, count, AvbdRd.update]
      split <;> rfl

/-- An update overwrites its family's stiffnesses. -/
theorem stiff_update {penalties : Penalties α} (sized : penalties.Sized) (family : Constraint)
    (stiffness : Nat → α) :
    (penalties.update family stiffness).stiff =
      Function.update penalties.stiff family (load (penalties.count family) stiffness) := by
  have rows := sized family
  have none : penalties.count family = 0 → Function.update penalties.stiff family
      (load (penalties.count family) stiffness) = penalties.stiff := by
    intro zero
    have empty := List.length_eq_zero_iff.mp (rows.trans zero)
    rw [zero, show load 0 stiffness = penalties.stiff family from empty.symm,
      Function.update_eq_self]
  cases penalties with
  | cpu side =>
      by_cases zero : side.count family = 0
      · rw [none zero]
        simp [update, AvbdCpu.update, zero]
      · simp [update, stiff, count, AvbdCpu.update, zero]
  | rd side =>
      by_cases zero : side.count family = 0
      · rw [none zero]
        simp [update, AvbdRd.update, zero]
      · have rows : (side.stiff family).length = side.count family := rows
        have valid : side.stiff family ≠ [] := by
          rw [← List.length_pos_iff]
          omega
        simp only [update, stiff, count, AvbdRd.update, zero, List.isEmpty_iff, valid, or_self,
          if_false]
        rw [updateF32_of_length (by simp [rows])]

/-- An update keeps a row for each constraint. -/
theorem Sized.update {penalties : Penalties α} (sized : penalties.Sized) (family : Constraint)
    (stiffness : Nat → α) : (penalties.update family stiffness).Sized := by
  intro other
  rw [stiff_update sized, count_update]
  by_cases here : other = family
  · subst here
    simp
  · simpa [here] using sized other

end Penalties

end Penalties

section Buffers

/-- The duals of the three families. -/
structure Duals (α : Type*) where
  attachLambda : List (Vec3 α)
  triLambda0 : List (Vec3 α)
  triLambda1 : List (Vec3 α)
  bendLambda : List (Vec3 α)

/-- What the kernels of a step read. -/
structure Buffers (α : Type*) where
  nVerts : Nat
  invHSq : α
  mass : List α
  positions : Nat → Vec3 α
  predicted : Nat → Vec3 α
  attachVert : List Nat
  attachFixed : List (Vec3 α)
  triIdx : List (Fin 3 → Nat)
  triInvUV : List (Fin 4 → α)
  bendIdx : List (Fin 4 → Nat)
  bendWeight : List (Fin 4 → α)
  bendNTarget : List α
  penalties : Penalties α
  duals : Duals α
  /-- `buildColoring` was called after `setupMesh`. -/
  colored : Bool
  radii : List α
  selfK : Nat

/-- The copies made before an iteration. -/
structure Pre (α : Type*) where
  positions : Nat → Vec3 α
  duals : Duals α

/-- The cotangents a backward leaves to be read. -/
structure Grads (α : Type*) where
  positions : Nat → Vec3 α
  predicted : Nat → Vec3 α
  mass : Nat → α
  triStiff : Nat → α
  bendStiff : Nat → α
  attachStiff : Nat → α

/-- The kernels: one iteration, the dual updates, the self-collision scan, the
backward of an iteration, and what a short readback leaves. -/
structure Kernels (α : Type*) where
  iteration : Buffers α → Nat → Vec3 α
  dualStep : Buffers α → Duals α
  scan : Buffers α → List (Nat × Nat)
  backward : Buffers α → Pre α → (Nat → Vec3 α) → Grads α
  shortRead : Nat → Vec3 α

/-- The solver a session holds. -/
structure Solver (α : Type*) where
  buffers : Buffers α
  pre : Pre α
  grads : Grads α

end Buffers

section Operations

variable {σ α : Type*} [Field α]

/-- No duals. -/
def Duals.empty : Duals α := ⟨[], [], [], []⟩

namespace Buffers

/-- A new solver's buffers. -/
def fresh (onRd : Bool) : Buffers α where
  nVerts := 0
  invHSq := 0
  mass := []
  positions _ := 0
  predicted _ := 0
  attachVert := []
  attachFixed := []
  triIdx := []
  triInvUV := []
  bendIdx := []
  bendWeight := []
  bendNTarget := []
  penalties := .fresh onRd
  duals := .empty
  colored := false
  radii := []
  selfK := 0

variable (buffers : Buffers α)

/-- `setupMesh`. -/
def setupMesh (nV : Nat) (positions predicted : Nat → Vec3 α) (mass : Nat → α) (invHSq : α) :
    Buffers α :=
  { buffers with
    nVerts := nV
    invHSq := invHSq
    mass := load nV mass
    positions := positions
    predicted := predicted
    colored := false
    radii := []
    selfK := 0 }

/-- `uploadAttachments`. -/
def uploadAttachments (vertIdx : List Nat) (fixedPos : Nat → Vec3 α) (stiffness : Nat → α) :
    Buffers α :=
  { buffers with
    attachVert := vertIdx
    attachFixed := load vertIdx.length fixedPos
    penalties := buffers.penalties.upload .attachments vertIdx.length stiffness
    duals := { buffers.duals with attachLambda := List.replicate vertIdx.length 0 } }

/-- `uploadTriangles`. -/
def uploadTriangles (triIdx : List (Fin 3 → Nat)) (invUV : Nat → Fin 4 → α)
    (stiffness : Nat → α) : Buffers α :=
  { buffers with
    triIdx := triIdx
    triInvUV := load triIdx.length invUV
    penalties := buffers.penalties.upload .triangles triIdx.length stiffness
    duals := { buffers.duals with
      triLambda0 := List.replicate triIdx.length 0
      triLambda1 := List.replicate triIdx.length 0 } }

/-- `uploadBendings`. -/
def uploadBendings (bendIdx : List (Fin 4 → Nat)) (weight : Nat → Fin 4 → α) (nTarget : Nat → α)
    (stiffness : Nat → α) : Buffers α :=
  { buffers with
    bendIdx := bendIdx
    bendWeight := load bendIdx.length weight
    bendNTarget := load bendIdx.length nTarget
    penalties := buffers.penalties.upload .bendings bendIdx.length stiffness
    duals := { buffers.duals with bendLambda := List.replicate bendIdx.length 0 } }

/-- `setGammaScale`. -/
def setGammaScale (scale : α) : Buffers α :=
  { buffers with penalties := buffers.penalties.setGammaScale scale }

/-- `buildColoring`. -/
def buildColoring : Buffers α := { buffers with colored := true }

/-- `uploadSelfCollisionRadii`. -/
def uploadSelfCollisionRadii (radii : Nat → α) (selfK : Nat) : Buffers α :=
  { buffers with radii := load buffers.nVerts radii, selfK := selfK }

/-- `updateState`. -/
def updateState (positions predicted : Nat → Vec3 α) : Buffers α :=
  { buffers with positions := positions, predicted := predicted }

/-- `updateAttachmentFixedPos`. -/
def updateAttachmentFixedPos (fixedPos : Nat → Vec3 α) : Buffers α :=
  if buffers.penalties.count .attachments = 0 then buffers
  else { buffers with attachFixed := load (buffers.penalties.count .attachments) fixedPos }

/-- `updateTriangleRest`. -/
def updateTriangleRest (invUV : Nat → Fin 4 → α) (stiffness : Nat → α) : Buffers α :=
  if buffers.penalties.count .triangles = 0 then buffers
  else
    { buffers with
      triInvUV := load (buffers.penalties.count .triangles) invUV
      penalties := buffers.penalties.update .triangles stiffness }

/-- `updateBendingRest`. -/
def updateBendingRest (weight : Nat → Fin 4 → α) (nTarget stiffness : Nat → α) : Buffers α :=
  if buffers.penalties.count .bendings = 0 then buffers
  else
    { buffers with
      bendWeight := load (buffers.penalties.count .bendings) weight
      bendNTarget := load (buffers.penalties.count .bendings) nTarget
      penalties := buffers.penalties.update .bendings stiffness }

/-- `updateAttachmentStiffness`. -/
def updateAttachmentStiffness (stiffness : Nat → α) : Buffers α :=
  { buffers with penalties := buffers.penalties.update .attachments stiffness }

/-- `updateSelfCollisionRadii`: only where radii were uploaded. -/
def updateSelfCollisionRadii (radii : Nat → α) : Buffers α :=
  if buffers.radii.length = buffers.nVerts then { buffers with radii := load buffers.nVerts radii }
  else buffers

end Buffers

namespace Solver

/-- A new solver. -/
def fresh (onRd : Bool) : Solver α :=
  ⟨.fresh onRd, ⟨fun _ => 0, .empty⟩, ⟨fun _ => 0, fun _ => 0, fun _ => 0, fun _ => 0, fun _ => 0,
    fun _ => 0⟩⟩

/-- The buffers are replaced. -/
def withBuffers (solver : Solver α) (buffers : Buffers α) : Solver α :=
  { solver with buffers := buffers }

/-- `step`, then with `duals` the dual updates. -/
def iterate (kernels : Kernels α) (duals : Bool) (solver : Solver α) : Solver α :=
  let moved := { solver.buffers with positions := kernels.iteration solver.buffers }
  { solver with
    buffers := if duals then { moved with duals := kernels.dualStep moved } else moved
    pre := ⟨solver.buffers.positions, solver.buffers.duals⟩ }

/-- `run(iters, duals)`. -/
def run (kernels : Kernels α) (iters : Nat) (duals : Bool) (solver : Solver α) : Solver α :=
  (iterate kernels duals)^[iters] solver

/-- `stepBackward`: the backward of the last iteration. -/
def stepBackward (kernels : Kernels α) (vOut : Nat → Vec3 α) (solver : Solver α) : Solver α :=
  { solver with grads := kernels.backward solver.buffers solver.pre vOut }

/-- `runWithBackward(iters, duals, vOut)`. -/
def runWithBackward (kernels : Kernels α) (iters : Nat) (duals : Bool) (vOut : Nat → Vec3 α)
    (solver : Solver α) : Solver α :=
  (solver.run kernels iters duals).stepBackward kernels vOut

end Solver

end Operations

end DressOn.Drape
