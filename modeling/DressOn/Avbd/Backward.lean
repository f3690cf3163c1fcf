import DressOn.Avbd.Step

/-!
# The backward pass of `AvbdCpu`

`stepBackward` runs the backward kernels in `AvbdCpu::stepBackward`'s order: the
solve, the gathers, the forces, the inertial term, then the forward gathers as
scatters and the two sums of the epilogue. The spring, triangle and bending
backward kernels are parameters, as their forward kernels are.
-/

namespace DressOn.Avbd

section Data

/-- What `spring_force_backward` writes: `v_p_d` is the cotangent of `p1 - p2`. -/
structure SpringCot (α : Type*) where
  pd : Vec3 α
  restLen : α
  stiffness : α

/-- What `attachment_force_al_backward` writes beside the positions. -/
structure AttachCot (α : Type*) where
  fixedPos : Vec3 α
  lambda : Vec3 α
  stiffness : α

/-- What `triangle_membrane_force_al_backward` writes. -/
structure TriCot (α : Type*) where
  p : Fin 3 → Vec3 α
  stiffness : α
  lambda0 : Vec3 α
  lambda1 : Vec3 α

/-- What `triangle_bending_force_al_backward` writes. -/
structure BendCot (α : Type*) where
  p : Fin 4 → Vec3 α
  nTarget : α
  stiffness : α
  lambda : Vec3 α

/-- What `vbd_init_backward` writes. -/
structure InitCot (α : Type*) where
  x : Vec3 α
  y : Vec3 α
  mass : α

/-- The backward force kernels: the arguments of the forward kernel, then the
cotangents of what it wrote. -/
structure BackwardKernels (α : Type*) where
  spring : Vec3 α → Vec3 α → α → α → Block α → SpringCot α
  triangle : (Fin 3 → Vec3 α) → (Fin 4 → α) → α → Vec3 α → Vec3 α → (Fin 3 → Diag α) → TriCot α
  bending : (Fin 4 → Vec3 α) → (Fin 4 → α) → α → α → Vec3 α → (Fin 4 → Diag α) → BendCot α

/-- The copies `step_impl` makes before it moves anything. -/
structure PreStep (α : Type*) where
  positions : Nat → Vec3 α
  triLambda0 : Nat → Vec3 α
  triLambda1 : Nat → Vec3 α
  bendLambda : Nat → Vec3 α

/-- The buffers of the backward pass. `vPosGrad_` and the gathers' unused
`hJunk_` are the rows of `posGrad`. -/
structure Cotangents (α : Type*) where
  /-- `vG_` and `vH_`. -/
  row : Nat → Block α
  spring : Nat → Block α
  attach : Nat → Diag α
  tri : Nat → Diag α
  bend : Nat → Diag α
  posGrad : Nat → Block α
  attachIn : Nat → AttachCot α
  springIn : Nat → SpringCot α
  triIn : Nat → TriCot α
  bendIn : Nat → BendCot α
  init : Nat → InitCot α

end Data

section Kernels

variable {α : Type*} [Zero α] [One α] [Add α] [Sub α] [Mul α] [Div α] [NatCast α]

/-- `saxpby`. -/
def saxpby (alpha beta : α) (x y : Nat → Vec3 α) : Nat → Vec3 α :=
  fun v i => alpha * x v i + beta * y v i

/-- `xx + yy + zz`. -/
def trace (h : Sym6 α) : α := h 0 + h 3 + h 5

/-- The row `vbd_solve_apply_backward` writes. -/
def solveBackwardRow (vOut : Vec3 α) (h : Sym6 α) (dx : Vec3 α) : Block α :=
  let y : Vec3 α := fun i => 1 / det h * symMul (adjugate h) vOut i
  ⟨fun i => 0 - y i,
    ![0 - y 0 * dx 0, 0 - (y 0 * dx 1 + y 1 * dx 0), 0 - (y 0 * dx 2 + y 2 * dx 0),
      0 - y 1 * dx 1, 0 - (y 1 * dx 2 + y 2 * dx 1), 0 - y 2 * dx 2]⟩

/-- What `vbd_init_backward` computes for a vertex. -/
def initBackward (invHSq : α) (x y : Vec3 α) (m : α) (v : Block α) : InitCot α :=
  let w := m * invHSq
  let dotDxVg := (x 0 - y 0) * v.g 0 + (x 1 - y 1) * v.g 1 + (x 2 - y 2) * v.g 2
  ⟨fun i => w * v.g i, fun i => (0 - w) * v.g i, invHSq * (dotDxVg + trace v.h)⟩

/-- What `attachment_force_al_backward` computes for the positions. -/
def attachmentBackwardPosition (k : α) (v : Diag α) : Vec3 α := fun i => k * v.g i

/-- The rest of `attachment_force_al_backward`. -/
def attachmentBackward (p fp : Vec3 α) (k : α) (v : Diag α) : AttachCot α :=
  let dotCv := (p 0 - fp 0) * v.g 0 + (p 1 - fp 1) * v.g 1 + (p 2 - fp 2) * v.g 2
  ⟨fun i => (0 - k) * v.g i, v.g, dotCv + v.hs⟩

/-- The row `vbd_gather_spring_backward` writes. -/
def gatherSpringBackwardRow (v1 v2 : Block α) : Block α :=
  ⟨fun i => v1.g i - v2.g i, fun i => v1.h i + v2.h i⟩

/-- The row the other gathers' backwards write. -/
def gatherDiagBackwardRow (v : Block α) : Diag α := ⟨v.g, trace v.h⟩

variable (backward : BackwardKernels α) (t : Topology) (inp : Inputs α) (pre : PreStep α)

/-- `vbd_solve_apply_backward`; it reads the Hessians the step left behind. -/
def vbdSolveApplyBackward (vOut deltaX : Nat → Vec3 α) (hScratch : Nat → Sym6 α) (v : Nat)
    (c : Cotangents α) : Cotangents α :=
  { c with row := Function.update c.row v (solveBackwardRow (vOut v) (hScratch v) (deltaX v)) }

/-- `vbd_gather_spring_backward`. -/
def vbdGatherSpringBackward (i : Nat) (c : Cotangents α) : Cotangents α :=
  let row := gatherSpringBackwardRow (c.row t.p1[i]!) (c.row t.p2[i]!)
  { c with spring := Function.update c.spring i row }

/-- `vbd_gather_attachment_backward`. -/
def vbdGatherAttachmentBackward (i : Nat) (c : Cotangents α) : Cotangents α :=
  let row := gatherDiagBackwardRow (c.row t.attachVert[i]!)
  { c with attach := Function.update c.attach i row }

/-- `vbd_gather_triangle_backward`: one lane for each corner. -/
def vbdGatherTriangleBackward (slot : Nat) (c : Cotangents α) : Cotangents α :=
  let row := gatherDiagBackwardRow (c.row t.triIdx[slot]!)
  { c with tri := Function.update c.tri slot row }

/-- `vbd_gather_bending_backward`: one lane for each stencil vertex. -/
def vbdGatherBendingBackward (slot : Nat) (c : Cotangents α) : Cotangents α :=
  let row := gatherDiagBackwardRow (c.row t.bendIdx[slot]!)
  { c with bend := Function.update c.bend slot row }

/-- `attachment_force_al_backward`: it overwrites its vertex's row. -/
def attachmentForceAlBackward (i : Nat) (c : Cotangents α) : Cotangents α :=
  let v := t.attachVert[i]!
  let p := attachmentBackwardPosition (inp.attachStiff i) (c.attach i)
  let out := attachmentBackward (pre.positions v) (inp.attachFixed i) (inp.attachStiff i) (c.attach i)
  { c with
    posGrad := Function.update c.posGrad v ⟨p, (c.posGrad v).h⟩
    attachIn := Function.update c.attachIn i out }

/-- `spring_force_backward`. -/
def springForceBackward (i : Nat) (c : Cotangents α) : Cotangents α :=
  let out := backward.spring (pre.positions t.p1[i]!) (pre.positions t.p2[i]!) (inp.springRest i)
    (inp.springStiff i) (c.spring i)
  { c with springIn := Function.update c.springIn i out }

/-- `triangle_membrane_force_al_backward`, on the duals the step saw. -/
def triangleMembraneForceAlBackward (i : Nat) (c : Cotangents α) : Cotangents α :=
  let out := backward.triangle (fun r => pre.positions t.triIdx[3 * i + r]!) (inp.triInvUV i)
    (inp.triStiff i) (pre.triLambda0 i) (pre.triLambda1 i) fun r => c.tri (3 * i + r)
  { c with triIn := Function.update c.triIn i out }

/-- `triangle_bending_force_al_backward`, on the duals the step saw. -/
def triangleBendingForceAlBackward (i : Nat) (c : Cotangents α) : Cotangents α :=
  let out := backward.bending (fun r => pre.positions t.bendIdx[4 * i + r]!) (inp.bendWeight i)
    (inp.bendNTarget i) (inp.bendStiff i) (pre.bendLambda i) fun r => c.bend (4 * i + r)
  { c with bendIn := Function.update c.bendIn i out }

/-- `vbd_init_backward`. -/
def vbdInitBackward (v : Nat) (c : Cotangents α) : Cotangents α :=
  let out := initBackward inp.invHSq (pre.positions v) (inp.predicted v) (inp.mass v) (c.row v)
  { c with init := Function.update c.init v out }

/-- The gathers of the scatter run over every vertex: `identPerm_`, one batch. -/
def Topology.identity : Topology :=
  { t with coloring := ⟨Array.range t.nVerts, #[0, t.nVerts]⟩ }

/-- The buffers the scatter binds to the forward gathers: a constraint's position
cotangents stand in for its gradient. -/
def scatterBuffers (c : Cotangents α) : Buffers α where
  positions := pre.positions
  scratch := c.posGrad
  spring i := ⟨(c.springIn i).pd, (c.spring i).h⟩
  attach := c.attach
  tri slot := ⟨(c.triIn (slot / 3)).p (Fin.ofNat 3 slot), (c.tri slot).hs⟩
  bend slot := ⟨(c.bendIn (slot / 4)).p (Fin.ofNat 4 slot), (c.bend slot).hs⟩

/-- The scatter: three of the forward gathers. -/
def scatterPass (c : Cotangents α) : Cotangents α :=
  let b := scatterBuffers pre c
  let b := dispatchIf t.nSprings t.nVerts (vbdGatherSpring t.identity 0) b
  let b := dispatchIf t.nTri t.nVerts (vbdGatherTriangle t.identity 0) b
  let b := dispatchIf t.nBend t.nVerts (vbdGatherBending t.identity 0) b
  { c with posGrad := b.scratch }

/-- Every accumulator starts at zero. -/
def Cotangents.zero : Cotangents α where
  row _ := ⟨0, 0⟩
  spring _ := ⟨0, 0⟩
  attach _ := ⟨0, 0⟩
  tri _ := ⟨0, 0⟩
  bend _ := ⟨0, 0⟩
  posGrad _ := ⟨0, 0⟩
  attachIn _ := ⟨0, 0, 0⟩
  springIn _ := ⟨0, 0, 0⟩
  triIn _ := ⟨0, 0, 0, 0⟩
  bendIn _ := ⟨0, 0, 0, 0⟩
  init _ := ⟨0, 0, 0⟩

/-- The backward gathers: the cotangent of each constraint's rows. -/
def gatherBackwardPass (c : Cotangents α) : Cotangents α :=
  let c := dispatchIf t.nSprings t.nSprings (vbdGatherSpringBackward t) c
  let c := dispatchIf t.nAttach t.nAttach (vbdGatherAttachmentBackward t) c
  let c := dispatchIf t.nTri (3 * t.nTri) (vbdGatherTriangleBackward t) c
  dispatchIf t.nBend (4 * t.nBend) (vbdGatherBendingBackward t) c

/-- The force backwards; the attachments' come first, since theirs do not add. -/
def forceBackwardPass (c : Cotangents α) : Cotangents α :=
  let c := dispatchIf t.nAttach t.nAttach (attachmentForceAlBackward t inp pre) c
  let c := dispatchIf t.nSprings t.nSprings (springForceBackward backward t inp pre) c
  let c := dispatchIf t.nTri t.nTri (triangleMembraneForceAlBackward backward t inp pre) c
  dispatchIf t.nBend t.nBend (triangleBendingForceAlBackward backward t inp pre) c

/-- `stepBackward` after a step that went from `pre` to `b`. -/
def stepBackward (b : Buffers α) (vOut : Nat → Vec3 α) : Cotangents α :=
  let deltaX := saxpby 1 (0 - 1) b.positions pre.positions
  let c := dispatch t.nVerts (vbdSolveApplyBackward vOut deltaX fun v => (b.scratch v).h) .zero
  let c := gatherBackwardPass t c
  let c := forceBackwardPass backward t inp pre c
  let c := dispatch t.nVerts (vbdInitBackward inp pre) c
  let c := scatterPass t pre c
  -- The inertial path and the direct path, in `AvbdRd`'s order.
  let vPosSum := saxpby 1 1 (fun v => (c.init v).x) vOut
  { c with posGrad := fun v => ⟨saxpby 1 1 (fun v => (c.posGrad v).g) vPosSum v, (c.posGrad v).h⟩ }

/-- What `step_impl` keeps for the backward pass. -/
def preStep (b : Buffers α) : PreStep α where
  positions := b.positions
  triLambda0 := inp.triLambda0
  triLambda1 := inp.triLambda1
  bendLambda := inp.bendLambda

end Kernels

end DressOn.Avbd
