import DressOn.Lib.Numerals
import DressOn.Avbd.Topology
import Mathlib.Logic.Function.Basic
import Mathlib.Data.Fin.VecNotation

/-!
# One iteration of `AvbdCpu`

`stepImpl` runs the kernels colour by colour as `AvbdCpu::step_impl` does: the
inertial term, every force kernel, the gathers, then the block solve of the
batch. The spring, triangle and bending force kernels are parameters: an
iteration only depends on which rows they read and write. Every kernel is a
lane function; `dispatch` runs the lanes.

The arithmetic is any type with the operations; nothing here uses a law.
`gScratch[v]` and `hScratch[6v .. 6v+5]` are one row, as are the two outputs of
each force kernel, since every kernel writes both or neither.
-/

namespace DressOn.Avbd

/-- `float3`. -/
abbrev Vec3 (α : Type*) := Fin 3 → α

/-- A symmetric 3×3 matrix: xx, xy, xz, yy, yz, zz. -/
abbrev Sym6 (α : Type*) := Fin 6 → α

/-- A gradient with a full Hessian block. -/
@[ext] structure Block (α : Type*) where
  g : Vec3 α
  h : Sym6 α

/-- A gradient with a scalar times the identity for a Hessian. -/
@[ext] structure Diag (α : Type*) where
  g : Vec3 α
  hs : α

/-- The force kernels as functions of what one constraint reads. -/
structure ForceKernels (α : Type*) where
  /-- `p1 p2 restLen stiffness`; the gradient is the one at `p1`. -/
  spring : Vec3 α → Vec3 α → α → α → Block α
  /-- `p inv_deltaUV stiffness lambda0 lambda1`, per corner. -/
  triangle : (Fin 3 → Vec3 α) → (Fin 4 → α) → α → Vec3 α → Vec3 α → Fin 3 → Diag α
  /-- `p weight nTarget stiffness lambda`, per stencil vertex. -/
  bending : (Fin 4 → Vec3 α) → (Fin 4 → α) → α → α → Vec3 α → Fin 4 → Diag α

/-- The index buffers of a mesh. The adjacencies are those its uploads build. -/
structure Topology extends Stencils where
  nVerts : Nat
  nAttach : Nat
  attachVert : Array Nat
  coloring : Coloring

namespace Topology

variable (t : Topology)

/-- `uploadSprings`' `ends`: both endpoints of every spring. -/
def ends : Array Nat := ((List.range t.nSprings).flatMap fun i => [t.p1[i]!, t.p2[i]!]).toArray

def vSpring : Csr := buildCsr t.nVerts t.nSprings 2 t.ends
def vAttach : Csr := buildCsr t.nVerts t.nAttach 1 t.attachVert
def vTri : Csr := buildCsr t.nVerts t.nTri 3 t.triIdx
def vBend : Csr := buildCsr t.nVerts t.nBend 4 t.bendIdx

/-- Every constraint and every attachment names vertices of the mesh. -/
structure InRange : Prop where
  stencils : t.toStencils.InRange t.nVerts
  attach : ∀ c < t.nAttach, t.attachVert[c]! < t.nVerts

end Topology

/-- The buffers an iteration reads and does not write. -/
structure Inputs (α : Type*) where
  invHSq : α
  predicted : Nat → Vec3 α
  mass : Nat → α
  springRest : Nat → α
  springStiff : Nat → α
  attachFixed : Nat → Vec3 α
  attachStiff : Nat → α
  attachLambda : Nat → Vec3 α
  triInvUV : Nat → Fin 4 → α
  triStiff : Nat → α
  triLambda0 : Nat → Vec3 α
  triLambda1 : Nat → Vec3 α
  bendWeight : Nat → Fin 4 → α
  bendNTarget : Nat → α
  bendStiff : Nat → α
  bendLambda : Nat → Vec3 α

/-- The buffers an iteration writes. Triangle and bending rows are `3c + r` and
`4c + r`. -/
structure Buffers (α : Type*) where
  positions : Nat → Vec3 α
  scratch : Nat → Block α
  spring : Nat → Block α
  attach : Nat → Diag α
  tri : Nat → Diag α
  bend : Nat → Diag α

/-- `dispatch`: lanes `0 .. count-1`, one after another. -/
def dispatch {σ : Type*} (count : Nat) (lane : Nat → σ → σ) (st : σ) : σ :=
  (List.range count).foldl (fun st i => lane i st) st

/-- A dispatch that runs only when its family has constraints. -/
def dispatchIf {σ : Type*} (n count : Nat) (lane : Nat → σ → σ) (st : σ) : σ :=
  if 0 < n then dispatch count lane st else st

/-- Write rows `K * c .. K * c + K - 1` of a buffer. -/
def writeRows {β : Type*} (K : Nat) [NeZero K] (c : Nat) (rows : Fin K → β) (buffer : Nat → β) :
    Nat → β :=
  fun slot => if slot / K = c then rows (Fin.ofNat K slot) else buffer slot

section Kernels

variable {α : Type*} [Zero α] [One α] [Add α] [Sub α] [Mul α] [Div α] [NatCast α]

/-- The row `vbd_init` writes. -/
def initRow (invHSq : α) (x px : Vec3 α) (m : α) : Block α :=
  let w := m * invHSq
  ⟨fun i => w * (x i - px i), ![w, 0, 0, w, 0, w]⟩

/-- The row `attachment_force_al` writes. -/
def attachmentForce (p fp : Vec3 α) (k : α) (lam : Vec3 α) : Diag α :=
  ⟨fun i => k * (p i - fp i) + lam i, k⟩

/-- One turn of `vbd_gather_spring`'s loop: the gradient with the role's sign,
the whole Hessian block. -/
def addSpring (r : Nat) (row : Block α) (force : Block α) : Block α :=
  let sign : α := 1 - ((2 : Nat) : α) * (r : α)
  ⟨fun i => row.g i + sign * force.g i, fun i => row.h i + force.h i⟩

/-- One turn of the other gathers' loops: the Hessian goes to the diagonal. -/
def addDiag (row : Block α) (force : Diag α) : Block α :=
  ⟨fun i => row.g i + force.g i,
    ![row.h 0 + force.hs, row.h 1, row.h 2, row.h 3 + force.hs, row.h 4, row.h 5 + force.hs]⟩

/-- The entries of the adjugate, as the solve kernels name them. -/
def adjugate (h : Sym6 α) : Sym6 α :=
  ![h 3 * h 5 - h 4 * h 4, h 2 * h 4 - h 1 * h 5, h 1 * h 4 - h 2 * h 3,
    h 0 * h 5 - h 2 * h 2, h 1 * h 2 - h 0 * h 4, h 0 * h 3 - h 1 * h 1]

/-- `det` of the solve kernels. -/
def det (h : Sym6 α) : α := h 0 * adjugate h 0 + h 1 * adjugate h 1 + h 2 * adjugate h 2

/-- A symmetric matrix applied to a vector. -/
def symMul (a : Sym6 α) (u : Vec3 α) : Vec3 α :=
  ![a 0 * u 0 + a 1 * u 1 + a 2 * u 2, a 1 * u 0 + a 3 * u 1 + a 4 * u 2,
    a 2 * u 0 + a 4 * u 1 + a 5 * u 2]

/-- The displacement `vbd_solve_apply` adds. -/
def solveRow (row : Block α) : Vec3 α :=
  fun i => (0 - 1 / det row.h) * symMul (adjugate row.h) row.g i

variable (kernels : ForceKernels α) (t : Topology) (inp : Inputs α)

/-- `vbd_init`. -/
def vbdInit (colorOffset lane : Nat) (b : Buffers α) : Buffers α :=
  let v := t.coloring.vertPerm[lane + colorOffset]!
  let row := initRow inp.invHSq (b.positions v) (inp.predicted v) (inp.mass v)
  { b with scratch := Function.update b.scratch v row }

/-- What `spring_force` computes for spring `i`. -/
def springAt (x : Nat → Vec3 α) (i : Nat) : Block α :=
  kernels.spring (x t.p1[i]!) (x t.p2[i]!) (inp.springRest i) (inp.springStiff i)

/-- What `attachment_force_al` computes for attachment `c`. -/
def attachAt (x : Nat → Vec3 α) (c : Nat) : Diag α :=
  attachmentForce (x t.attachVert[c]!) (inp.attachFixed c) (inp.attachStiff c) (inp.attachLambda c)

/-- What `triangle_membrane_force_al` computes for triangle `c`. -/
def triAt (x : Nat → Vec3 α) (c : Nat) : Fin 3 → Diag α :=
  kernels.triangle (fun r => x t.triIdx[3 * c + r]!) (inp.triInvUV c) (inp.triStiff c)
    (inp.triLambda0 c) (inp.triLambda1 c)

/-- What `triangle_bending_force_al` computes for bending stencil `c`. -/
def bendAt (x : Nat → Vec3 α) (c : Nat) : Fin 4 → Diag α :=
  kernels.bending (fun r => x t.bendIdx[4 * c + r]!) (inp.bendWeight c) (inp.bendNTarget c)
    (inp.bendStiff c) (inp.bendLambda c)

/-- `spring_force`. -/
def springForce (i : Nat) (b : Buffers α) : Buffers α :=
  { b with spring := Function.update b.spring i (springAt kernels t inp b.positions i) }

/-- `attachment_force_al`. -/
def attachmentForceAl (c : Nat) (b : Buffers α) : Buffers α :=
  { b with attach := Function.update b.attach c (attachAt t inp b.positions c) }

/-- `triangle_membrane_force_al`. -/
def triangleMembraneForceAl (c : Nat) (b : Buffers α) : Buffers α :=
  { b with tri := writeRows 3 c (triAt kernels t inp b.positions c) b.tri }

/-- `triangle_bending_force_al`. -/
def triangleBendingForceAl (c : Nat) (b : Buffers α) : Buffers α :=
  { b with bend := writeRows 4 c (bendAt kernels t inp b.positions c) b.bend }

/-- `vbd_gather_spring`'s loop over one row of the adjacency. -/
def gatherSpringRow (csr : Csr) (spring : Nat → Block α) (v : Nat) (row : Block α) : Block α :=
  (csr.row v).foldl (fun row e => addSpring e.2 row (spring e.1)) row

/-- `vbd_gather_attachment`'s loop; it reads no role. -/
def gatherAttachRow (csr : Csr) (attach : Nat → Diag α) (v : Nat) (row : Block α) : Block α :=
  (csr.row v).foldl (fun row e => addDiag row (attach e.1)) row

/-- The other gathers' loop: entry `(c, r)` reads row `K * c + r`. -/
def gatherDiagRow (K : Nat) (csr : Csr) (force : Nat → Diag α) (v : Nat) (row : Block α) : Block α :=
  (csr.row v).foldl (fun row e => addDiag row (force (K * e.1 + e.2))) row

/-- `vbd_gather_spring`. -/
def vbdGatherSpring (colorOffset lane : Nat) (b : Buffers α) : Buffers α :=
  let v := t.coloring.vertPerm[lane + colorOffset]!
  let row := gatherSpringRow t.vSpring b.spring v (b.scratch v)
  { b with scratch := Function.update b.scratch v row }

/-- `vbd_gather_attachment`. -/
def vbdGatherAttachment (colorOffset lane : Nat) (b : Buffers α) : Buffers α :=
  let v := t.coloring.vertPerm[lane + colorOffset]!
  let row := gatherAttachRow t.vAttach b.attach v (b.scratch v)
  { b with scratch := Function.update b.scratch v row }

/-- `vbd_gather_triangle`. -/
def vbdGatherTriangle (colorOffset lane : Nat) (b : Buffers α) : Buffers α :=
  let v := t.coloring.vertPerm[lane + colorOffset]!
  let row := gatherDiagRow 3 t.vTri b.tri v (b.scratch v)
  { b with scratch := Function.update b.scratch v row }

/-- `vbd_gather_bending`. -/
def vbdGatherBending (colorOffset lane : Nat) (b : Buffers α) : Buffers α :=
  let v := t.coloring.vertPerm[lane + colorOffset]!
  let row := gatherDiagRow 4 t.vBend b.bend v (b.scratch v)
  { b with scratch := Function.update b.scratch v row }

/-- `vbd_solve_apply`. -/
def vbdSolveApply (colorOffset lane : Nat) (b : Buffers α) : Buffers α :=
  let v := t.coloring.vertPerm[lane + colorOffset]!
  let dx := solveRow (b.scratch v)
  { b with positions := Function.update b.positions v fun i => b.positions v i + dx i }

/-- The force kernels of one colour pass; they run over all constraints. -/
def forcePass (b : Buffers α) : Buffers α :=
  let b := dispatchIf t.nSprings t.nSprings (springForce kernels t inp) b
  let b := dispatchIf t.nAttach t.nAttach (attachmentForceAl t inp) b
  let b := dispatchIf t.nTri t.nTri (triangleMembraneForceAl kernels t inp) b
  dispatchIf t.nBend t.nBend (triangleBendingForceAl kernels t inp) b

/-- The gathers of one colour pass; they run over the batch. -/
def gatherPass (offset count : Nat) (b : Buffers α) : Buffers α :=
  let b := dispatchIf t.nSprings count (vbdGatherSpring t offset) b
  let b := dispatchIf t.nAttach count (vbdGatherAttachment t offset) b
  let b := dispatchIf t.nTri count (vbdGatherTriangle t offset) b
  dispatchIf t.nBend count (vbdGatherBending t offset) b

/-- One colour pass of `step_impl`. -/
def stepColor (offset count : Nat) (b : Buffers α) : Buffers α :=
  let b := dispatch count (vbdInit t inp offset) b
  let b := forcePass kernels t inp b
  let b := gatherPass t offset count b
  dispatch count (vbdSolveApply t offset) b

/-- `step_impl`, all colours and all stages: an empty colour is skipped. -/
def stepImpl (b : Buffers α) : Buffers α :=
  (List.range (t.coloring.colorOffsets.size - 1)).foldl (fun b k =>
    let offset := t.coloring.colorOffsets[k]!
    let count := t.coloring.colorOffsets[k + 1]! - offset
    if count = 0 then b else stepColor kernels t inp offset count b) b

end Kernels

end DressOn.Avbd
