import DressOn.Avbd.Backward
import DressOn.Avbd.Sweep

/-!
# What the backward pass leaves in its buffers

Every kernel of the backward pass fills its own rows from rows that are complete
by then, except the attachments', which overwrite the position row of their
vertex before the scatters add to it.
-/

namespace DressOn.Avbd

open Rows

section Passes

variable {α : Type*}
variable (backward : BackwardKernels α) (t : Topology) (inp : Inputs α) (pre : PreStep α)

section Slots

/-- The constraint of a slot. -/
theorem slot_div {K : Nat} (c : Nat) (r : Fin K) : (K * c + r) / K = c := by
  have bound := r.isLt
  rw [Nat.mul_add_div (by omega), Nat.div_eq_of_lt bound, Nat.add_zero]

/-- The role of a slot. -/
theorem slot_mod {K : Nat} [NeZero K] (c : Nat) (r : Fin K) : Fin.ofNat K (K * c + r) = r := by
  apply Fin.ext
  rw [Fin.val_ofNat, Nat.mul_add_mod, Nat.mod_eq_of_lt r.isLt]

variable {t} (inRange : t.InRange) {i : Nat}
include inRange

/-- The ends of a spring are vertices. -/
theorem spring_ends (inside : i < t.nSprings) : t.p1[i]! < t.nVerts ∧ t.p2[i]! < t.nVerts := by
  have named := inRange.stencils _ (spring_mem inside)
  exact ⟨named _ (by simp [Stencils.spring]), named _ (by simp [Stencils.spring])⟩

/-- The corners of a triangle are vertices. -/
theorem triangle_corner (inside : i < t.nTri) (r : Fin 3) : t.triIdx[3 * i + r]! < t.nVerts :=
  inRange.stencils _ (triangle_mem inside) _ (triIdx_mem r.isLt)

/-- The corners of a bending are vertices. -/
theorem bending_corner (inside : i < t.nBend) (r : Fin 4) : t.bendIdx[4 * i + r]! < t.nVerts :=
  inRange.stencils _ (bending_mem inside) _ (bendIdx_mem r.isLt)

end Slots

/-- A family without lanes is skipped, whatever its dispatch. -/
theorem dispatchIf_mul {σ : Type*} (K n : Nat) (lane : Nat → σ → σ) (st : σ) :
    dispatchIf n (K * n) lane st = dispatch (K * n) lane st := by
  unfold dispatchIf
  by_cases some_ : 0 < n
  · rw [if_pos some_]
  · obtain rfl : n = 0 := by omega
    rfl

section Rows

variable [Mul α]

/-- The position rows after the first `n` attachments' backwards. -/
def attachRows (attach : Nat → Diag α) (n : Nat) (rows : Nat → Block α) : Nat → Block α :=
  (List.range n).foldl (fun rows i => Function.update rows t.attachVert[i]!
    ⟨attachmentBackwardPosition (inp.attachStiff i) (attach i), (rows t.attachVert[i]!).h⟩) rows

/-- One more attachment overwrites the row of its vertex. -/
theorem attachRows_succ (attach : Nat → Diag α) (n : Nat) (rows : Nat → Block α) :
    attachRows t inp attach (n + 1) rows =
      Function.update (attachRows t inp attach n rows) t.attachVert[n]!
        ⟨attachmentBackwardPosition (inp.attachStiff n) (attach n),
          (attachRows t inp attach n rows t.attachVert[n]!).h⟩ := by
  rw [attachRows, List.range_succ, List.foldl_append]
  rfl

/-- Attachments that agree leave the same rows. -/
theorem attachRows_congr {attach other : Nat → Diag α} {n : Nat}
    (same : ∀ i < n, attach i = other i) (rows : Nat → Block α) :
    attachRows t inp attach n rows = attachRows t inp other n rows := by
  apply List.foldl_ext
  intro rows i member
  rw [same i (List.mem_range.mp member)]

end Rows

variable [Add α] [Sub α]

/-- After the backward gathers every constraint's rows hold their cotangent. -/
theorem gatherBackwardPass_eq (c : Cotangents α) :
    gatherBackwardPass t c =
      { c with
        spring := fun i => if i < t.nSprings then
          gatherSpringBackwardRow (c.row t.p1[i]!) (c.row t.p2[i]!) else c.spring i
        attach := fun i => if i < t.nAttach then
          gatherDiagBackwardRow (c.row t.attachVert[i]!) else c.attach i
        tri := fun slot => if slot < 3 * t.nTri then
          gatherDiagBackwardRow (c.row t.triIdx[slot]!) else c.tri slot
        bend := fun slot => if slot < 4 * t.nBend then
          gatherDiagBackwardRow (c.row t.bendIdx[slot]!) else c.bend slot } := by
  simp only [gatherBackwardPass, dispatchIf_self, dispatchIf_mul]
  have springs := dispatch_fill t.nSprings (fun s => { c with spring := s })
    (vbdGatherSpringBackward t)
    (fun i => gatherSpringBackwardRow (c.row t.p1[i]!) (c.row t.p2[i]!)) (fun _ _ => rfl) c.spring
  rw [show dispatch t.nSprings (vbdGatherSpringBackward t) c = _ from springs]
  have attachments := fun spring => dispatch_fill t.nAttach
    (fun s => { c with spring := spring, attach := s }) (vbdGatherAttachmentBackward t)
    (fun i => gatherDiagBackwardRow (c.row t.attachVert[i]!)) (fun _ _ => rfl) c.attach
  rw [attachments]
  have triangles := fun spring attach => dispatch_fill (3 * t.nTri)
    (fun s => { c with spring := spring, attach := attach, tri := s })
    (vbdGatherTriangleBackward t)
    (fun slot => gatherDiagBackwardRow (c.row t.triIdx[slot]!)) (fun _ _ => rfl) c.tri
  rw [triangles]
  have bendings := fun spring attach tri => dispatch_fill (4 * t.nBend)
    (fun s => { c with spring := spring, attach := attach, tri := tri, bend := s })
    (vbdGatherBendingBackward t)
    (fun slot => gatherDiagBackwardRow (c.row t.bendIdx[slot]!)) (fun _ _ => rfl) c.bend
  exact bendings _ _ _

section Scatter

variable [One α] [Mul α] [NatCast α]

/-- Over the identity the lanes are the vertices. -/
theorem laneRows_identity : laneRows t.identity 0 t.nVerts = List.range t.nVerts := by
  apply List.ext_getElem
  · simp [laneRows]
  · intro lane inside bound
    have vertex : lane < t.nVerts := by simpa [laneRows] using inside
    simp [laneRows, Topology.identity, vertex]

/-- The scatter adds to a vertex's position row what its constraints have for it. -/
theorem scatterPass_eq (inRange : t.InRange) (c : Cotangents α) :
    scatterPass t pre c =
      { c with
        posGrad := rewrite (List.range t.nVerts) (fun v =>
          gatherDiagRow 4 t.vBend (scatterBuffers pre c).bend v
            (gatherDiagRow 3 t.vTri (scatterBuffers pre c).tri v
              (gatherSpringRow t.vSpring (scatterBuffers pre c).spring v (c.posGrad v))))
          c.posGrad } := by
  have nodup : (laneRows t.identity 0 t.nVerts).Nodup := by
    rw [laneRows_identity]
    exact List.nodup_range
  have vertices : ∀ v ∈ laneRows t.identity 0 t.nVerts, v < t.nVerts := by
    rw [laneRows_identity]
    exact fun v => List.mem_range.mp
  have springs := dispatchIf_lanes t.nSprings nodup
    (fun s => { scatterBuffers pre c with scratch := s }) (vbdGatherSpring t.identity 0)
    (gatherSpringRow t.vSpring (scatterBuffers pre c).spring) (fun _ _ => rfl)
    (fun none v member => gatherSpringRow_idle inRange (vertices v member) none _)
  have triangles := dispatchIf_lanes t.nTri nodup
    (fun s => { scatterBuffers pre c with scratch := s }) (vbdGatherTriangle t.identity 0)
    (gatherDiagRow 3 t.vTri (scatterBuffers pre c).tri) (fun _ _ => rfl)
    (fun none v member => gatherTriRow_idle inRange (vertices v member) none _)
  have bendings := dispatchIf_lanes t.nBend nodup
    (fun s => { scatterBuffers pre c with scratch := s }) (vbdGatherBending t.identity 0)
    (gatherDiagRow 4 t.vBend (scatterBuffers pre c).bend) (fun _ _ => rfl)
    (fun none v member => gatherBendRow_idle inRange (vertices v member) none _)
  simp only [scatterPass]
  rw [show dispatchIf t.nSprings t.nVerts (vbdGatherSpring t.identity 0) (scatterBuffers pre c) = _
      from springs c.posGrad, triangles, rewrite_rewrite, bendings,
    rewrite_rewrite _ (fun v row => gatherDiagRow 3 t.vTri (scatterBuffers pre c).tri v
      (gatherSpringRow t.vSpring (scatterBuffers pre c).spring v row)), laneRows_identity]

end Scatter

variable [Mul α] [Zero α]

/-- The attachments' backwards, the position rows one after the other. -/
theorem attachmentsBackward_eq (n : Nat) (c : Cotangents α) :
    dispatch n (attachmentForceAlBackward t inp pre) c =
      { c with
        posGrad := attachRows t inp c.attach n c.posGrad
        attachIn := fun i => if i < n then attachmentBackward (pre.positions t.attachVert[i]!)
          (inp.attachFixed i) (inp.attachStiff i) (c.attach i) else c.attachIn i } := by
  induction n with
  | zero => rfl
  | succ n ih =>
      unfold dispatch at ih ⊢
      rw [List.range_succ, List.foldl_append, ih, attachRows_succ]
      simp only [List.foldl_cons, List.foldl_nil, attachmentForceAlBackward]
      congr 1
      funext i
      by_cases here : i = n
      · simp [here]
      · have other : i < n + 1 ↔ i < n := by omega
        simp [here, other]

/-- A dispatch over the vertices fills the cotangents of their inputs. -/
theorem initBackward_eq (c : Cotangents α) :
    dispatch t.nVerts (vbdInitBackward inp pre) c =
      { c with
        init := fun v => if v < t.nVerts then
          initBackward inp.invHSq (pre.positions v) (inp.predicted v) (inp.mass v) (c.row v)
          else c.init v } :=
  dispatch_fill t.nVerts (fun s => { c with init := s }) (vbdInitBackward inp pre)
    (fun v => initBackward inp.invHSq (pre.positions v) (inp.predicted v) (inp.mass v) (c.row v))
    (fun _ _ => rfl) c.init

/-- After the force backwards every constraint's inputs have their cotangents. -/
theorem forceBackwardPass_eq (c : Cotangents α) :
    forceBackwardPass backward t inp pre c =
      { c with
        posGrad := attachRows t inp c.attach t.nAttach c.posGrad
        attachIn := fun i => if i < t.nAttach then
          attachmentBackward (pre.positions t.attachVert[i]!) (inp.attachFixed i)
            (inp.attachStiff i) (c.attach i) else c.attachIn i
        springIn := fun i => if i < t.nSprings then
          backward.spring (pre.positions t.p1[i]!) (pre.positions t.p2[i]!) (inp.springRest i)
            (inp.springStiff i) (c.spring i) else c.springIn i
        triIn := fun i => if i < t.nTri then
          backward.triangle (fun r => pre.positions t.triIdx[3 * i + r]!) (inp.triInvUV i)
            (inp.triStiff i) (pre.triLambda0 i) (pre.triLambda1 i) (fun r => c.tri (3 * i + r))
          else c.triIn i
        bendIn := fun i => if i < t.nBend then
          backward.bending (fun r => pre.positions t.bendIdx[4 * i + r]!) (inp.bendWeight i)
            (inp.bendNTarget i) (inp.bendStiff i) (pre.bendLambda i) (fun r => c.bend (4 * i + r))
          else c.bendIn i } := by
  simp only [forceBackwardPass, dispatchIf_self]
  rw [attachmentsBackward_eq]
  have springs := fun posGrad attachIn => dispatch_fill t.nSprings
    (fun s => { c with posGrad := posGrad, attachIn := attachIn, springIn := s })
    (springForceBackward backward t inp pre)
    (fun i => backward.spring (pre.positions t.p1[i]!) (pre.positions t.p2[i]!) (inp.springRest i)
      (inp.springStiff i) (c.spring i)) (fun _ _ => rfl) c.springIn
  rw [springs]
  have triangles := fun posGrad attachIn springIn => dispatch_fill t.nTri
    (fun s => { c with
      posGrad := posGrad, attachIn := attachIn, springIn := springIn, triIn := s })
    (triangleMembraneForceAlBackward backward t inp pre)
    (fun i => backward.triangle (fun r => pre.positions t.triIdx[3 * i + r]!) (inp.triInvUV i)
      (inp.triStiff i) (pre.triLambda0 i) (pre.triLambda1 i) fun r => c.tri (3 * i + r))
    (fun _ _ => rfl) c.triIn
  rw [triangles]
  have bendings := fun posGrad attachIn springIn triIn => dispatch_fill t.nBend
    (fun s => { c with
      posGrad := posGrad, attachIn := attachIn, springIn := springIn, triIn := triIn, bendIn := s })
    (triangleBendingForceAlBackward backward t inp pre)
    (fun i => backward.bending (fun r => pre.positions t.bendIdx[4 * i + r]!) (inp.bendWeight i)
      (inp.bendNTarget i) (inp.bendStiff i) (pre.bendLambda i) fun r => c.bend (4 * i + r))
    (fun _ _ => rfl) c.bendIn
  exact bendings _ _ _ _

variable [One α] [Div α]

/-- A dispatch over the vertices fills their rows. -/
theorem solveBackward_eq (b : Buffers α) (vOut deltaX : Nat → Vec3 α) (c : Cotangents α) :
    dispatch t.nVerts (vbdSolveApplyBackward vOut deltaX fun v => (b.scratch v).h) c =
      { c with
        row := fun v => if v < t.nVerts then
          solveBackwardRow (vOut v) (b.scratch v).h (deltaX v) else c.row v } :=
  dispatch_fill t.nVerts (fun s => { c with row := s })
    (vbdSolveApplyBackward vOut deltaX fun v => (b.scratch v).h)
    (fun v => solveBackwardRow (vOut v) (b.scratch v).h (deltaX v)) (fun _ _ => rfl) c.row

variable [NatCast α]

/-- The cotangent of the row vertex `v` solved. -/
def cotRow (b : Buffers α) (vOut : Nat → Vec3 α) (v : Nat) : Block α :=
  solveBackwardRow (vOut v) (b.scratch v).h (saxpby 1 (0 - 1) b.positions pre.positions v)

/-- The cotangents of a constraint's rows, from those of the vertices it names. -/
def springCot (row : Nat → Block α) (i : Nat) : Block α :=
  gatherSpringBackwardRow (row t.p1[i]!) (row t.p2[i]!)

def attachCot (row : Nat → Block α) (i : Nat) : Diag α := gatherDiagBackwardRow (row t.attachVert[i]!)

def triCot (row : Nat → Block α) (i : Nat) (r : Fin 3) : Diag α :=
  gatherDiagBackwardRow (row t.triIdx[3 * i + r]!)

def bendCot (row : Nat → Block α) (i : Nat) (r : Fin 4) : Diag α :=
  gatherDiagBackwardRow (row t.bendIdx[4 * i + r]!)

/-- What `stepBackward` returns, in terms of the cotangents of the solved rows. -/
structure Returned (row : Nat → Block α) (vOut : Nat → Vec3 α) (out : Cotangents α) : Prop where
  attach : ∀ i < t.nAttach, out.attachIn i = attachmentBackward (pre.positions t.attachVert[i]!)
    (inp.attachFixed i) (inp.attachStiff i) (attachCot t row i)
  spring : ∀ i < t.nSprings, out.springIn i = backward.spring (pre.positions t.p1[i]!)
    (pre.positions t.p2[i]!) (inp.springRest i) (inp.springStiff i) (springCot t row i)
  tri : ∀ i < t.nTri, out.triIn i = backward.triangle (fun r => pre.positions t.triIdx[3 * i + r]!)
    (inp.triInvUV i) (inp.triStiff i) (pre.triLambda0 i) (pre.triLambda1 i) (triCot t row i)
  bend : ∀ i < t.nBend, out.bendIn i = backward.bending
    (fun r => pre.positions t.bendIdx[4 * i + r]!) (inp.bendWeight i) (inp.bendNTarget i)
    (inp.bendStiff i) (pre.bendLambda i) (bendCot t row i)
  init : ∀ v < t.nVerts, out.init v =
    initBackward inp.invHSq (pre.positions v) (inp.predicted v) (inp.mass v) (row v)
  posGrad : ∀ v < t.nVerts, (out.posGrad v).g = saxpby 1 1
    (fun v => (gatherDiagRow 4 t.vBend (scatterBuffers pre out).bend v
      (gatherDiagRow 3 t.vTri (scatterBuffers pre out).tri v
        (gatherSpringRow t.vSpring (scatterBuffers pre out).spring v
          (attachRows t inp (attachCot t row) t.nAttach (fun _ => ⟨0, 0⟩) v)))).g)
    (saxpby 1 1 (fun v => (out.init v).x) vOut) v

/-- What `stepBackward` returns is made of the cotangents of the solved rows. -/
theorem stepBackward_returned (inRange : t.InRange) (b : Buffers α) (vOut : Nat → Vec3 α) :
    Returned backward t inp pre (cotRow pre b vOut) vOut (stepBackward backward t inp pre b vOut) := by
  unfold stepBackward
  simp only [solveBackward_eq, gatherBackwardPass_eq, forceBackwardPass_eq, initBackward_eq,
    scatterPass_eq t pre inRange]
  constructor
  case attach =>
    intro i inside
    simp [inside, inRange.attach i inside, attachCot, cotRow]
  case spring =>
    intro i inside
    simp [inside, spring_ends inRange inside, springCot, cotRow]
  case tri =>
    intro i inside
    have slot : ∀ r : Fin 3, 3 * i + r.val < 3 * t.nTri := fun r => by omega
    simp only [if_pos inside, if_pos (slot _), if_pos (triangle_corner inRange inside _)]
    rfl
  case bend =>
    intro i inside
    have slot : ∀ r : Fin 4, 4 * i + r.val < 4 * t.nBend := fun r => by omega
    simp only [if_pos inside, if_pos (slot _), if_pos (bending_corner inRange inside _)]
    rfl
  case init =>
    intro v vertex
    simp [vertex, cotRow]
  case posGrad =>
    intro v vertex
    have attached : attachRows t inp (fun i => if i < t.nAttach then gatherDiagBackwardRow
        (if t.attachVert[i]! < t.nVerts then cotRow pre b vOut t.attachVert[i]! else ⟨0, 0⟩)
          else ⟨0, 0⟩) t.nAttach (fun _ => ⟨0, 0⟩) =
        attachRows t inp (attachCot t (cotRow pre b vOut)) t.nAttach fun _ => ⟨0, 0⟩ :=
      attachRows_congr t inp
        (fun i inside => by simp [inside, inRange.attach i inside, attachCot]) _
    rw [← attached]
    funext i
    simp only [saxpby, rewrite_of_mem (List.mem_range.mpr vertex)]
    rfl

end Passes

end DressOn.Avbd
