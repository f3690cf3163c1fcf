import DressOn.Avbd.Topology

/-!
# What the lanes of a dispatch touch

`AvbdRd` rounds a thread count up to whole groups, so lanes past the real count
run too. A kernel is modelled by the rows its lanes read and write, in the order
of its statements; a buffer by its size in bytes and, for the index buffers, its
contents. Buffers are named as `avbd_rd.h` names them.
-/

-- A kernel's binding often has the name of the buffer bound to it.
set_option linter.constructorNameAsVariable false

namespace DressOn.Avbd.Lanes

/-- The buffers of `AvbdRd` that its dispatches bind. -/
inductive Buf where
  | positions | predicted | mass | gScratch | hScratch | vertPerm
  | spP1 | spP2 | spRest | spK | spGradA | spHess | spOff | spIdx | spRole
  | atVert | atFixed | atK | atLambda | atGamma | atGradV | atHess | atOff | atIdx
  | triIdx | triK | triL0 | triL1 | triGamma | triGrad | triHess | triInvuv
  | triOff | triIdxc | triRole
  | bdIdx | bdW | bdN | bdK | bdLambda | bdGamma | bdGrad | bdHess | bdOff | bdIdxc | bdRole
  | positionsPre | triL0Pre | triL1Pre | bdLambdaPre
  | vOut | vG | vH | deltaX | vPosGrad | vPosInit | vPred | vMass | hJunk | vPosSum | vPosGradOut
  | vSpringGradA | vSpringHess | vSpringPd | vSpringRest | vSpringStiff
  | vAttachGradV | vAttachHess | vAttachFixed | vAttachStiff | vAttachLambda
  | vTriGrad | vTriHess | vTriP | vTriStiff | vTriL0 | vTriL1
  | vBendGrad | vBendHess | vBendP | vBendN | vBendStiff | vBendLambda
deriving DecidableEq

/-- The uploaded mesh; constraints name its vertices. -/
structure Mesh where
  nVerts : Nat
  nSprings : Nat
  nAttach : Nat
  nTri : Nat
  nBend : Nat
  p1Idx : Nat → Nat
  p2Idx : Nat → Nat
  vertIdx : Nat → Nat
  triIdx : Nat → Nat
  bendIdx : Nat → Nat
  spring_lt : ∀ i < nSprings, p1Idx i < nVerts ∧ p2Idx i < nVerts
  attach_lt : ∀ i < nAttach, vertIdx i < nVerts
  tri_lt : ∀ i < 3 * nTri, triIdx i < nVerts
  bend_lt : ∀ i < 4 * nBend, bendIdx i < nVerts

section Buffers

/-- `cap_for`. -/
def capFor (n : Nat) : Nat := (n + 1 + 63) / 64 * 64

/-- `make_u32_cap`: the values, then the fill. -/
def makeU32Cap (v : Nat → Nat) (n fill : Nat) : Nat → Nat := fun i => if i < n then v i else fill

/-- How a padded buffer was made: bytes in the rows of one vertex or constraint. -/
def rowBytes : Buf → Nat
  | .positions | .predicted | .gScratch | .positionsPre => 16
  | .mass | .vMass => 4
  | .hScratch | .vH | .hJunk => 24
  | .vOut | .vG | .deltaX | .vPosGrad | .vPosInit | .vPred | .vPosSum | .vPosGradOut => 16
  | .spP1 | .spP2 | .spRest | .spK | .vSpringRest | .vSpringStiff => 4
  | .spGradA | .vSpringGradA | .vSpringPd => 16
  | .spHess | .vSpringHess => 24
  | .atVert | .atK | .atGamma | .atHess | .vAttachHess | .vAttachStiff => 4
  | .atFixed | .atLambda | .atGradV | .vAttachGradV | .vAttachFixed | .vAttachLambda => 16
  | .triIdx => 4 * 3
  | .triK | .triGamma | .vTriStiff => 4
  | .triL0 | .triL1 | .triL0Pre | .triL1Pre | .vTriL0 | .vTriL1 => 16
  | .triGrad | .vTriGrad | .vTriP => 16 * 3
  | .triHess | .vTriHess => 4 * 3
  | .triInvuv => 4 * 4
  | .bdIdx | .bdW => 4 * 4
  | .bdN | .bdK | .bdGamma | .vBendN | .vBendStiff => 4
  | .bdLambda | .bdLambdaPre | .vBendLambda => 16
  | .bdGrad | .vBendGrad | .vBendP => 16 * 4
  | .bdHess | .vBendHess => 4 * 4
  | .vertPerm | .spOff | .spIdx | .spRole | .atOff | .atIdx | .triOff | .triIdxc | .triRole
  | .bdOff | .bdIdxc | .bdRole => 4

/-- How many vertices or constraints a buffer is for. -/
def Mesh.count (m : Mesh) : Buf → Nat
  | .positions | .predicted | .mass | .gScratch | .hScratch | .positionsPre | .vOut | .vG | .vH
  | .deltaX | .vPosGrad | .vPosInit | .vPred | .vMass | .hJunk | .vPosSum | .vPosGradOut
  | .vertPerm => m.nVerts
  | .spP1 | .spP2 | .spRest | .spK | .spGradA | .spHess | .vSpringGradA | .vSpringHess
  | .vSpringPd | .vSpringRest | .vSpringStiff => m.nSprings
  | .atVert | .atFixed | .atK | .atLambda | .atGamma | .atGradV | .atHess | .vAttachGradV
  | .vAttachHess | .vAttachFixed | .vAttachStiff | .vAttachLambda => m.nAttach
  | .triIdx | .triK | .triL0 | .triL1 | .triGamma | .triGrad | .triHess | .triInvuv | .triL0Pre
  | .triL1Pre | .vTriGrad | .vTriHess | .vTriP | .vTriStiff | .vTriL0 | .vTriL1 => m.nTri
  | .bdIdx | .bdW | .bdN | .bdK | .bdLambda | .bdGamma | .bdGrad | .bdHess | .bdLambdaPre
  | .vBendGrad | .vBendHess | .vBendP | .vBendN | .vBendStiff | .vBendLambda => m.nBend
  | .spOff | .atOff | .triOff | .bdOff => m.nVerts + 1
  | .spIdx | .spRole => 2 * m.nSprings
  | .atIdx => m.nAttach
  | .triIdxc | .triRole => 3 * m.nTri
  | .bdIdxc | .bdRole => 4 * m.nBend

/-- `vertPerm` and the adjacency lists are not padded. -/
def unpadded : Buf → Bool
  | .vertPerm | .spOff | .spIdx | .spRole | .atOff | .atIdx | .triOff | .triIdxc | .triRole
  | .bdOff | .bdIdxc | .bdRole => true
  | _ => false

/-- The bytes of a buffer while its family has a constraint; a family without
any has no buffers and dispatches nothing. -/
def Mesh.bytes (m : Mesh) (b : Buf) : Nat :=
  if unpadded b then rowBytes b * m.count b else rowBytes b * capFor (m.count b)

/-- The bytes of the real rows. -/
def Mesh.realBytes (m : Mesh) (b : Buf) : Nat := rowBytes b * m.count b

/-- What the index buffers hold; the padding names the dummy vertex. -/
def Mesh.content (m : Mesh) (vertPerm : Nat → Nat) : Buf → Nat → Nat
  | .vertPerm => vertPerm
  | .spP1 => makeU32Cap m.p1Idx m.nSprings m.nVerts
  | .spP2 => makeU32Cap m.p2Idx m.nSprings m.nVerts
  | .atVert => makeU32Cap m.vertIdx m.nAttach m.nVerts
  | .triIdx => makeU32Cap m.triIdx (3 * m.nTri) m.nVerts
  | .bdIdx => makeU32Cap m.bendIdx (4 * m.nBend) m.nVerts
  | .spOff => fun v => springCsr.offsets[v]!
  | .spIdx => fun k => springCsr.idxArr[k]!
  | .spRole => fun k => springCsr.roleArr[k]!
  | .atOff => fun v => attachCsr.offsets[v]!
  | .atIdx => fun k => attachCsr.idxArr[k]!
  | .triOff => fun v => triCsr.offsets[v]!
  | .triIdxc => fun k => triCsr.idxArr[k]!
  | .triRole => fun k => triCsr.roleArr[k]!
  | .bdOff => fun v => bendCsr.offsets[v]!
  | .bdIdxc => fun k => bendCsr.idxArr[k]!
  | .bdRole => fun k => bendCsr.roleArr[k]!
  | _ => fun _ => 0
where
  springCsr := buildCsr m.nVerts m.nSprings 2
    (Array.ofFn fun i : Fin (2 * m.nSprings) =>
      if i.val % 2 = 0 then m.p1Idx (i / 2) else m.p2Idx (i / 2))
  attachCsr := buildCsr m.nVerts m.nAttach 1 (Array.ofFn fun i : Fin m.nAttach => m.vertIdx i)
  triCsr := buildCsr m.nVerts m.nTri 3 (Array.ofFn fun i : Fin (3 * m.nTri) => m.triIdx i)
  bendCsr := buildCsr m.nVerts m.nBend 4 (Array.ofFn fun i : Fin (4 * m.nBend) => m.bendIdx i)

end Buffers

section Accesses

/-- The element types of the structured buffers. -/
inductive Elem where
  | uint
  | float
  | float3
deriving DecidableEq

/-- Bytes from one element to the next; a `float3` takes 16. -/
def Elem.stride : Elem → Nat
  | .uint => 4
  | .float => 4
  | .float3 => 16

/-- One indexed load or store. -/
structure Access where
  buffer : Buf
  elem : Elem
  index : Nat
  write : Bool
deriving DecidableEq

/-- A load of an index. -/
def ldU (b : Buf) (i : Nat) : Access := ⟨b, .uint, i, false⟩
/-- A load of a float. -/
def ldF (b : Buf) (i : Nat) : Access := ⟨b, .float, i, false⟩
/-- A load of a vector. -/
def ldV (b : Buf) (i : Nat) : Access := ⟨b, .float3, i, false⟩
/-- A store of a float. -/
def stF (b : Buf) (i : Nat) : Access := ⟨b, .float, i, true⟩
/-- A store of a vector. -/
def stV (b : Buf) (i : Nat) : Access := ⟨b, .float3, i, true⟩

/-- The six floats of a symmetric matrix from `h` on. -/
def six (access : Buf → Nat → Access) (b : Buf) (h : Nat) : List Access :=
  [access b h, access b (h + 1), access b (h + 2), access b (h + 3), access b (h + 4),
    access b (h + 5)]

/-- The diagonal of one. -/
def diagonal (access : Buf → Nat → Access) (b : Buf) (h : Nat) : List Access :=
  [access b h, access b (h + 3), access b (h + 5)]

end Accesses

section Kernels

variable (mem : Buf → Nat → Nat)

/-- `vbd_init` on one lane, past its guard. -/
def vbdInit (colorOffset : Nat) (positions predicted mass gScratch hScratch vertPerm : Buf)
    (lane : Nat) : List Access :=
  let v := mem vertPerm (lane + colorOffset)
  [ldU vertPerm (lane + colorOffset), ldV positions v, ldV predicted v, ldF mass v,
    stV gScratch v] ++ six stF hScratch (6 * v)

/-- `spring_force`. -/
def springForce (positions p1Idx p2Idx restLen stiffness gradA hess : Buf) (i : Nat) :
    List Access :=
  let a := mem p1Idx i
  let b := mem p2Idx i
  [ldU p1Idx i, ldU p2Idx i, ldV positions a, ldV positions b, ldF stiffness i, ldF restLen i,
    stV gradA i] ++ six stF hess (6 * i)

/-- `attachment_force_al`. -/
def attachmentForceAl (positions vertIdx fixedPos stiffness lambda gradV hessScalar : Buf)
    (c : Nat) : List Access :=
  let v := mem vertIdx c
  [ldU vertIdx c, ldV positions v, ldV fixedPos c, ldF stiffness c, ldV lambda c, stV gradV c,
    stF hessScalar c]

/-- `triangle_membrane_force_al`. -/
def triangleMembraneForceAl
    (positions idx stiffness lambda0 lambda1 grad hessScalar invDeltaUV : Buf) (c : Nat) :
    List Access :=
  let base := c * 3
  let iub := c * 4
  let gb := c * 3
  [ldU idx base, ldU idx (base + 1), ldU idx (base + 2), ldV positions (mem idx base),
    ldV positions (mem idx (base + 1)), ldV positions (mem idx (base + 2)), ldF invDeltaUV iub,
    ldF invDeltaUV (iub + 1), ldF invDeltaUV (iub + 2), ldF invDeltaUV (iub + 3),
    ldF stiffness c, ldV lambda0 c, ldV lambda1 c, stV grad gb, stV grad (gb + 1),
    stV grad (gb + 2), stF hessScalar gb, stF hessScalar (gb + 1), stF hessScalar (gb + 2)]

/-- The four vertices and positions of a bending. -/
def bendingCorners (positions idx : Buf) (base : Nat) : List Access :=
  [ldU idx base, ldU idx (base + 1), ldU idx (base + 2), ldU idx (base + 3),
    ldV positions (mem idx base), ldV positions (mem idx (base + 1)),
    ldV positions (mem idx (base + 2)), ldV positions (mem idx (base + 3))]

/-- `triangle_bending_force_al`; `curved c` is `nTarget[c] > 0.000001`. -/
def triangleBendingForceAl (curved : Nat → Bool)
    (positions idx weight nTarget stiffness lambda grad hessScalar : Buf) (c : Nat) :
    List Access :=
  let base := c * 4
  [ldF nTarget c, ldF weight base, ldF weight (base + 1), ldF weight (base + 2),
    ldF weight (base + 3)] ++
  (if curved c then
    bendingCorners mem positions idx base ++ [ldF stiffness c, ldV lambda c]
  else []) ++
  [stV grad base, stV grad (base + 1), stV grad (base + 2), stV grad (base + 3),
    stF hessScalar base, stF hessScalar (base + 1), stF hessScalar (base + 2),
    stF hessScalar (base + 3)]

/-- `vbd_gather_spring` on one lane, past its guard. -/
def vbdGatherSpring (colorOffset : Nat)
    (springGradA springHess offset idx role gScratch hScratch vertPerm : Buf) (lane : Nat) :
    List Access :=
  let v := mem vertPerm (lane + colorOffset)
  let sStart := mem offset v
  let sEnd := mem offset (v + 1)
  [ldU vertPerm (lane + colorOffset), ldU offset v, ldU offset (v + 1), ldV gScratch v] ++
  six ldF hScratch (6 * v) ++
  ((List.range' sStart (sEnd - sStart)).flatMap fun k =>
    [ldU idx k, ldU role k, ldV springGradA (mem idx k)] ++ six ldF springHess (6 * mem idx k)) ++
  [stV gScratch v] ++ six stF hScratch (6 * v)

/-- `vbd_gather_attachment` on one lane, past its guard. -/
def vbdGatherAttachment (colorOffset : Nat)
    (attachGradV attachHessScalar offset idx gScratch hScratch vertPerm : Buf) (lane : Nat) :
    List Access :=
  let v := mem vertPerm (lane + colorOffset)
  let sStart := mem offset v
  let sEnd := mem offset (v + 1)
  [ldU vertPerm (lane + colorOffset), ldU offset v, ldU offset (v + 1), ldV gScratch v] ++
  diagonal ldF hScratch (6 * v) ++
  ((List.range' sStart (sEnd - sStart)).flatMap fun k =>
    [ldU idx k, ldV attachGradV (mem idx k), ldF attachHessScalar (mem idx k)]) ++
  [stV gScratch v] ++ diagonal stF hScratch (6 * v)

/-- `vbd_gather_triangle` (`arity` 3) and `vbd_gather_bending` (`arity` 4) on one
lane, past the guard. -/
def vbdGatherCorner (arity colorOffset : Nat)
    (grad hessScalar offset idx role gScratch hScratch vertPerm : Buf) (lane : Nat) :
    List Access :=
  let v := mem vertPerm (lane + colorOffset)
  let sStart := mem offset v
  let sEnd := mem offset (v + 1)
  [ldU vertPerm (lane + colorOffset), ldU offset v, ldU offset (v + 1), ldV gScratch v] ++
  diagonal ldF hScratch (6 * v) ++
  ((List.range' sStart (sEnd - sStart)).flatMap fun k =>
    let gi := arity * mem idx k + mem role k
    [ldU idx k, ldU role k, ldV grad gi, ldF hessScalar gi]) ++
  [stV gScratch v] ++ diagonal stF hScratch (6 * v)

/-- `vbd_solve_apply` on one lane, past its guard. -/
def vbdSolveApply (colorOffset : Nat) (gScratch hScratch positions vertPerm : Buf) (lane : Nat) :
    List Access :=
  let v := mem vertPerm (lane + colorOffset)
  [ldU vertPerm (lane + colorOffset), ldV gScratch v] ++ six ldF hScratch (6 * v) ++
  [ldV positions v, stV positions v]

/-- `attachment_dual_update` on one lane, past its guard. -/
def attachmentDualUpdate (positions vertIdx fixedPos gamma lambda : Buf) (c : Nat) :
    List Access :=
  [ldU vertIdx c, ldV positions (mem vertIdx c), ldV fixedPos c, ldF gamma c, ldV lambda c,
    stV lambda c, stF gamma c]

/-- `triangle_membrane_dual_update` on one lane, past its guard. -/
def triangleMembraneDualUpdate (positions idx gamma lambda0 lambda1 invDeltaUV : Buf) (c : Nat) :
    List Access :=
  let base := c * 3
  let iub := c * 4
  [ldU idx base, ldU idx (base + 1), ldU idx (base + 2), ldV positions (mem idx base),
    ldV positions (mem idx (base + 1)), ldV positions (mem idx (base + 2)), ldF invDeltaUV iub,
    ldF invDeltaUV (iub + 1), ldF invDeltaUV (iub + 2), ldF invDeltaUV (iub + 3), ldF gamma c,
    ldV lambda0 c, ldV lambda1 c, stV lambda0 c, stV lambda1 c, stF gamma c]

/-- `triangle_bending_dual_update` on one lane, past its guard. -/
def triangleBendingDualUpdate (curved : Nat → Bool)
    (positions idx weight nTarget gamma lambda : Buf) (c : Nat) : List Access :=
  let base := c * 4
  [ldF nTarget c, ldF weight base, ldF weight (base + 1), ldF weight (base + 2),
    ldF weight (base + 3)] ++
  (if curved c then bendingCorners mem positions idx base ++ [ldF gamma c] else []) ++
  [ldV lambda c, stV lambda c, ldF gamma c, stF gamma c]

/-- `saxpby` on one lane, past its guard. -/
def saxpby (x y dst : Buf) (i : Nat) : List Access := [ldF x i, ldF y i, stF dst i]

/-- `vbd_solve_apply_backward`. -/
def vbdSolveApplyBackward (vOut hScratch deltaX vG vH : Buf) (v : Nat) : List Access :=
  [ldV vOut v] ++ six ldF hScratch (6 * v) ++ [stV vG v, ldV deltaX v] ++ six stF vH (6 * v)

/-- `vbd_gather_spring_backward`. -/
def vbdGatherSpringBackward (springP1Idx springP2Idx vG vH vSpringGradA vSpringHess : Buf)
    (c : Nat) : List Access :=
  let p1 := mem springP1Idx c
  let p2 := mem springP2Idx c
  [ldU springP1Idx c, ldU springP2Idx c, ldV vG p1, ldV vG p2, stV vSpringGradA c] ++
  six ldF vH (6 * p1) ++ six ldF vH (6 * p2) ++ six stF vSpringHess (6 * c)

/-- `vbd_gather_attachment_backward`, `vbd_gather_triangle_backward` and
`vbd_gather_bending_backward`: one lane for each corner. -/
def vbdGatherSlotBackward (idx vG vH vGrad vHessScalar : Buf) (slot : Nat) : List Access :=
  let v := mem idx slot
  [ldU idx slot, ldV vG v] ++ diagonal ldF vH (6 * v) ++ [stV vGrad slot, stF vHessScalar slot]

/-- `attachment_force_al_backward`: the positions' cotangent is written at the vertex. -/
def attachmentForceAlBackward (positions vertIdx fixedPos stiffness vGradV vHessScalar vPositions
    vFixedPos vLambda vStiffness : Buf) (c : Nat) : List Access :=
  let v := mem vertIdx c
  [ldU vertIdx c, ldV positions v, ldV fixedPos c, ldF stiffness c, ldV vGradV c,
    ldF vHessScalar c, stV vPositions v, stV vFixedPos c, stV vLambda c, stF vStiffness c]

/-- `spring_force_backward`. -/
def springForceBackward (positions p1Idx p2Idx restLen stiffness vGradA vSpringHess vPD vRestLen
    vStiffness : Buf) (i : Nat) : List Access :=
  [ldU p1Idx i, ldU p2Idx i, ldV positions (mem p1Idx i), ldV positions (mem p2Idx i),
    ldF stiffness i, ldF restLen i, ldV vGradA i] ++ six ldF vSpringHess (6 * i) ++
  [stV vPD i, stF vRestLen i, stF vStiffness i]

/-- `triangle_membrane_force_al_backward`. -/
def triangleMembraneForceAlBackward (positions idx stiffness lambda0 lambda1 invDeltaUV vGrad
    vHessScalar vP vStiffness vLambda0 vLambda1 : Buf) (c : Nat) : List Access :=
  let base := c * 3
  let iub := c * 4
  [ldU idx base, ldU idx (base + 1), ldU idx (base + 2), ldV positions (mem idx base),
    ldV positions (mem idx (base + 1)), ldV positions (mem idx (base + 2)), ldF invDeltaUV iub,
    ldF invDeltaUV (iub + 1), ldF invDeltaUV (iub + 2), ldF invDeltaUV (iub + 3),
    ldF stiffness c, ldV lambda0 c, ldV lambda1 c, ldV vGrad base, ldV vGrad (base + 1),
    ldV vGrad (base + 2), ldF vHessScalar base, ldF vHessScalar (base + 1),
    ldF vHessScalar (base + 2), stV vLambda0 c, stV vLambda1 c, stF vStiffness c, stV vP base,
    stV vP (base + 1), stV vP (base + 2)]

/-- `triangle_bending_force_al_backward`. -/
def triangleBendingForceAlBackward (curved : Nat → Bool) (positions idx weight nTarget stiffness
    lambda vGrad vHessScalar vP vNTarget vStiffness vLambda : Buf) (c : Nat) : List Access :=
  let base := c * 4
  [ldF nTarget c, ldF weight base, ldF weight (base + 1), ldF weight (base + 2),
    ldF weight (base + 3), ldV vGrad base, ldV vGrad (base + 1), ldV vGrad (base + 2),
    ldV vGrad (base + 3), ldF vHessScalar base, ldF vHessScalar (base + 1),
    ldF vHessScalar (base + 2), ldF vHessScalar (base + 3)] ++
  (if curved c then
    bendingCorners mem positions idx base ++ [ldF stiffness c, ldV lambda c]
  else []) ++
  [stV vP base, stV vP (base + 1), stV vP (base + 2), stV vP (base + 3), stV vLambda c,
    stF vStiffness c, stF vNTarget c]

/-- `vbd_init_backward`. -/
def vbdInitBackward (positions predicted mass vG vH vX vY vMass : Buf) (v : Nat) : List Access :=
  [ldV positions v, ldV predicted v, ldF mass v, ldV vG v, stV vX v, stV vY v] ++
  diagonal ldF vH (6 * v) ++ [stF vMass v]

end Kernels

section Dispatches

/-- One dispatch: its thread count, its kernel's group size and, if the kernel
begins with one, the count it guards its lanes by. -/
structure Dispatch where
  threads : Nat
  threadgroup : Nat
  guard : Option Nat
  body : Nat → List Access

/-- `groups_for`. -/
def groupsFor (threads threadgroup : Nat) : Nat := (threads + threadgroup - 1) / threadgroup

/-- How many lanes run. -/
def Dispatch.lanes (d : Dispatch) : Nat := groupsFor d.threads d.threadgroup * d.threadgroup

/-- What one lane touches. -/
def Dispatch.accesses (d : Dispatch) (lane : Nat) : List Access :=
  match d.guard with
  | some count => if lane ≥ count then [] else d.body lane
  | none => d.body lane

/-- A dispatch of a kernel without a guard. -/
def unguarded (threads : Nat) (body : Nat → List Access) : Dispatch := ⟨threads, 64, none, body⟩

/-- A dispatch of a kernel whose parameters carry the count. -/
def guarded (threads : Nat) (body : Nat → List Access) : Dispatch :=
  ⟨threads, 64, some threads, body⟩

variable (m : Mesh) (vertPerm : Nat → Nat) (curved : Nat → Bool)

/-- One colour of `record_iteration`. -/
def colorPass (offset count : Nat) : List Dispatch :=
  let mem := m.content vertPerm
  [guarded count (vbdInit mem offset .positions .predicted .mass .gScratch .hScratch .vertPerm)] ++
  (if m.nSprings ≠ 0 then
    [unguarded m.nSprings
      (springForce mem .positions .spP1 .spP2 .spRest .spK .spGradA .spHess)] else []) ++
  (if m.nAttach ≠ 0 then
    [unguarded m.nAttach
      (attachmentForceAl mem .positions .atVert .atFixed .atK .atLambda .atGradV .atHess)]
    else []) ++
  (if m.nTri ≠ 0 then
    [unguarded m.nTri (triangleMembraneForceAl mem .positions .triIdx .triK .triL0 .triL1 .triGrad
      .triHess .triInvuv)] else []) ++
  (if m.nBend ≠ 0 then
    [unguarded m.nBend (triangleBendingForceAl mem curved .positions .bdIdx .bdW .bdN .bdK
      .bdLambda .bdGrad .bdHess)] else []) ++
  (if m.nSprings ≠ 0 then
    [guarded count (vbdGatherSpring mem offset .spGradA .spHess .spOff .spIdx .spRole .gScratch
      .hScratch .vertPerm)] else []) ++
  (if m.nAttach ≠ 0 then
    [guarded count (vbdGatherAttachment mem offset .atGradV .atHess .atOff .atIdx .gScratch
      .hScratch .vertPerm)] else []) ++
  (if m.nTri ≠ 0 then
    [guarded count (vbdGatherCorner mem 3 offset .triGrad .triHess .triOff .triIdxc .triRole
      .gScratch .hScratch .vertPerm)] else []) ++
  (if m.nBend ≠ 0 then
    [guarded count (vbdGatherCorner mem 4 offset .bdGrad .bdHess .bdOff .bdIdxc .bdRole .gScratch
      .hScratch .vertPerm)] else []) ++
  [guarded count (vbdSolveApply mem offset .gScratch .hScratch .positions .vertPerm)]

/-- `record_iteration`: every colour with a vertex. -/
def recordIteration (colorOffsets : List Nat) : List Dispatch :=
  (List.range (colorOffsets.length - 1)).flatMap fun k =>
    let offset := colorOffsets[k]!
    let count := colorOffsets[k + 1]! - offset
    if count = 0 then [] else colorPass m vertPerm curved offset count

/-- `record_duals`, and with one family the `stepDual` functions. -/
def recordDuals : List Dispatch :=
  let mem := m.content vertPerm
  (if m.nAttach ≠ 0 then
    [guarded m.nAttach (attachmentDualUpdate mem .positions .atVert .atFixed .atGamma .atLambda)]
    else []) ++
  (if m.nTri ≠ 0 then
    [guarded m.nTri (triangleMembraneDualUpdate mem .positions .triIdx .triGamma .triL0 .triL1
      .triInvuv)] else []) ++
  (if m.nBend ≠ 0 then
    [guarded m.nBend (triangleBendingDualUpdate mem curved .positions .bdIdx .bdW .bdN .bdGamma
      .bdLambda)] else [])

/-- `saxpby` counts floats, four to a row, in groups of 256. -/
def saxpbyRows (x y dst : Buf) : Dispatch :=
  ⟨4 * m.nVerts, 256, some (4 * m.nVerts), saxpby x y dst⟩

/-- `record_backward`; the scatters run the forward gathers over the whole mesh. -/
def recordBackward : List Dispatch :=
  let mem := m.content vertPerm
  [saxpbyRows m .positions .positionsPre .deltaX,
    unguarded m.nVerts (vbdSolveApplyBackward .vOut .hScratch .deltaX .vG .vH)] ++
  (if m.nSprings ≠ 0 then
    [unguarded m.nSprings
      (vbdGatherSpringBackward mem .spP1 .spP2 .vG .vH .vSpringGradA .vSpringHess)] else []) ++
  (if m.nAttach ≠ 0 then
    [unguarded m.nAttach (vbdGatherSlotBackward mem .atVert .vG .vH .vAttachGradV .vAttachHess)]
    else []) ++
  (if m.nTri ≠ 0 then
    [unguarded (3 * m.nTri) (vbdGatherSlotBackward mem .triIdx .vG .vH .vTriGrad .vTriHess)]
    else []) ++
  (if m.nBend ≠ 0 then
    [unguarded (4 * m.nBend) (vbdGatherSlotBackward mem .bdIdx .vG .vH .vBendGrad .vBendHess)]
    else []) ++
  (if m.nAttach ≠ 0 then
    [unguarded m.nAttach (attachmentForceAlBackward mem .positionsPre .atVert .atFixed .atK
      .vAttachGradV .vAttachHess .vPosGrad .vAttachFixed .vAttachLambda .vAttachStiff)]
    else []) ++
  (if m.nSprings ≠ 0 then
    [unguarded m.nSprings (springForceBackward mem .positionsPre .spP1 .spP2 .spRest .spK
      .vSpringGradA .vSpringHess .vSpringPd .vSpringRest .vSpringStiff)] else []) ++
  (if m.nTri ≠ 0 then
    [unguarded m.nTri (triangleMembraneForceAlBackward mem .positionsPre .triIdx .triK .triL0Pre
      .triL1Pre .triInvuv .vTriGrad .vTriHess .vTriP .vTriStiff .vTriL0 .vTriL1)] else []) ++
  (if m.nBend ≠ 0 then
    [unguarded m.nBend (triangleBendingForceAlBackward mem curved .positionsPre .bdIdx .bdW .bdN
      .bdK .bdLambdaPre .vBendGrad .vBendHess .vBendP .vBendN .vBendStiff .vBendLambda)]
    else []) ++
  [unguarded m.nVerts
    (vbdInitBackward .positionsPre .predicted .mass .vG .vH .vPosInit .vPred .vMass),
    saxpbyRows m .vPosInit .vOut .vPosSum] ++
  (if m.nSprings ≠ 0 then
    [guarded m.nVerts (vbdGatherSpring mem 0 .vSpringPd .vSpringHess .spOff .spIdx .spRole
      .vPosGrad .hJunk .vertPerm)] else []) ++
  (if m.nTri ≠ 0 then
    [guarded m.nVerts (vbdGatherCorner mem 3 0 .vTriP .vTriHess .triOff .triIdxc .triRole .vPosGrad
      .hJunk .vertPerm)] else []) ++
  (if m.nBend ≠ 0 then
    [guarded m.nVerts (vbdGatherCorner mem 4 0 .vBendP .vBendHess .bdOff .bdIdxc .bdRole .vPosGrad
      .hJunk .vertPerm)] else []) ++
  [saxpbyRows m .vPosGrad .vPosSum .vPosGradOut]

end Dispatches

end DressOn.Avbd.Lanes
