import DressOn.Lib.Rows
import DressOn.Avbd.Batches
import DressOn.Avbd.Step
import Mathlib.Tactic.IntervalCases

/-!
# A colour pass is a Gauss-Seidel sweep of its batch

`vertexRow` is the row a vertex solves after the gathers. It depends on the
positions of the vertices that share a constraint with it and no others, so the
vertices of a batch may be solved together or one after another.
-/

namespace DressOn.Avbd

open Rows CountingSort

section Pass

variable {α : Type*} (kernels : ForceKernels α) (t : Topology) (inp : Inputs α)

/-- The vertices of lanes `0 .. count-1` of a pass at `offset`. -/
def laneRows (offset count : Nat) : List Nat :=
  (List.range count).map fun lane => t.coloring.vertPerm[lane + offset]!

section Incidence

variable {t}

/-- A spring is a constraint. -/
theorem spring_mem {c : Nat} (inside : c < t.nSprings) : t.spring c ∈ t.constraints := by
  simp only [Stencils.constraints, List.mem_append]
  exact Or.inl (Or.inl (List.mem_map_of_mem (List.mem_range.mpr inside)))

/-- A triangle is a constraint. -/
theorem triangle_mem {c : Nat} (inside : c < t.nTri) : t.triangle c ∈ t.constraints := by
  simp only [Stencils.constraints, List.mem_append]
  exact Or.inl (Or.inr (List.mem_map_of_mem (List.mem_range.mpr inside)))

/-- A bending is a constraint. -/
theorem bending_mem {c : Nat} (inside : c < t.nBend) : t.bending c ∈ t.constraints := by
  simp only [Stencils.constraints, List.mem_append]
  exact Or.inr (List.mem_map_of_mem (List.mem_range.mpr inside))

/-- The flat list of the springs holds both ends of each. -/
theorem ends_eq {c r : Nat} (inside : c < t.nSprings) (role : r < 2) :
    t.ends[2 * c + r]! = (t.spring c)[r]! := by
  have flat := getElem!_flatten 2 ((List.range t.nSprings).map t.spring)
    (by simp [Stencils.spring]) (by simpa using inside) role
  rw [← List.flatMap_def] at flat
  rw [Topology.ends]
  refine flat.trans ?_
  simp [inside]

/-- The entries of a spring in the flat list are its ends. -/
theorem ends_mem {c r : Nat} (inside : c < t.nSprings) (role : r < 2) :
    t.ends[2 * c + r]! ∈ t.spring c := by
  rw [ends_eq inside role, getElem!_pos (t.spring c) r role]
  exact List.getElem_mem _

/-- The entries of a triangle in the flat list are its corners. -/
theorem triIdx_mem {c r : Nat} (role : r < 3) : t.triIdx[3 * c + r]! ∈ t.triangle c := by
  unfold Stencils.triangle
  interval_cases r <;> simp

/-- The entries of a bending in the flat list are its corners. -/
theorem bendIdx_mem {c r : Nat} (role : r < 4) : t.bendIdx[4 * c + r]! ∈ t.bending c := by
  unfold Stencils.bending
  interval_cases r <;> simp

variable (inRange : t.InRange) {v : Nat} (vertex : v < t.nVerts)
include inRange vertex

/-- The adjacency lists the springs at a vertex, in order. -/
theorem row_vSpring : t.vSpring.row v = rowOf t.nSprings 2 t.ends v :=
  row_buildCsr (fun _ inside _ role =>
    inRange.stencils _ (spring_mem inside) _ (ends_mem inside role)) vertex

/-- The adjacency lists the attachments at a vertex, in order. -/
theorem row_vAttach : t.vAttach.row v = rowOf t.nAttach 1 t.attachVert v :=
  row_buildCsr (fun c inside r role => by
    obtain rfl : r = 0 := by omega
    simpa using inRange.attach c inside) vertex

/-- The adjacency lists the triangles at a vertex, in order. -/
theorem row_vTri : t.vTri.row v = rowOf t.nTri 3 t.triIdx v :=
  row_buildCsr (fun _ inside _ role =>
    inRange.stencils _ (triangle_mem inside) _ (triIdx_mem role)) vertex

/-- The adjacency lists the bendings at a vertex, in order. -/
theorem row_vBend : t.vBend.row v = rowOf t.nBend 4 t.bendIdx v :=
  row_buildCsr (fun _ inside _ role =>
    inRange.stencils _ (bending_mem inside) _ (bendIdx_mem role)) vertex

/-- What is listed at a vertex is a spring with an end there. -/
theorem mem_row_vSpring {e : Nat × Nat} (entry : e ∈ t.vSpring.row v) :
    e.1 < t.nSprings ∧ v ∈ t.spring e.1 := by
  rw [row_vSpring inRange vertex] at entry
  obtain ⟨inside, role, here⟩ := mem_rowOf.mp entry
  exact ⟨inside, here ▸ ends_mem inside role⟩

/-- What is listed at a vertex is an attachment there. -/
theorem mem_row_vAttach {e : Nat × Nat} (entry : e ∈ t.vAttach.row v) :
    e.1 < t.nAttach ∧ t.attachVert[e.1]! = v := by
  rw [row_vAttach inRange vertex] at entry
  obtain ⟨inside, role, here⟩ := mem_rowOf.mp entry
  obtain zero : e.2 = 0 := by omega
  exact ⟨inside, by simpa [zero] using here⟩

/-- What is listed at a vertex is a triangle with a corner there. -/
theorem mem_row_vTri {e : Nat × Nat} (entry : e ∈ t.vTri.row v) :
    e.1 < t.nTri ∧ e.2 < 3 ∧ v ∈ t.triangle e.1 := by
  rw [row_vTri inRange vertex] at entry
  obtain ⟨inside, role, here⟩ := mem_rowOf.mp entry
  exact ⟨inside, role, here ▸ triIdx_mem role⟩

/-- What is listed at a vertex is a bending with a corner there. -/
theorem mem_row_vBend {e : Nat × Nat} (entry : e ∈ t.vBend.row v) :
    e.1 < t.nBend ∧ e.2 < 4 ∧ v ∈ t.bending e.1 := by
  rw [row_vBend inRange vertex] at entry
  obtain ⟨inside, role, here⟩ := mem_rowOf.mp entry
  exact ⟨inside, role, here ▸ bendIdx_mem role⟩

end Incidence

section Buffers

variable {t}

/-- Running one force kernel over its family fills that family's rows. -/
theorem dispatch_writeRows {β σ : Type*} (K n : Nat) [NeZero K] (put : (Nat → β) → σ)
    (lane : Nat → σ → σ) (force : Nat → Fin K → β)
    (step : ∀ c buffer, lane c (put buffer) = put (writeRows K c (force c) buffer))
    (buffer : Nat → β) :
    dispatch n lane (put buffer) = put fun slot =>
      if slot / K < n then force (slot / K) (Fin.ofNat K slot) else buffer slot := by
  induction n with
  | zero => rfl
  | succ n ih =>
      unfold dispatch at ih ⊢
      rw [List.range_succ, List.foldl_append, ih, List.foldl_cons, List.foldl_nil, step]
      congr 1
      funext slot
      unfold writeRows
      by_cases here : slot / K = n
      · simp [here]
      · have other : slot / K < n + 1 ↔ slot / K < n := by omega
        simp [here, other]

/-- Running one kernel of the batch rewrites the batch's rows. -/
theorem dispatch_lanes {β : Type*} {offset count : Nat} (nodup : (laneRows t offset count).Nodup)
    (put : (Nat → β) → Buffers α) (lane : Nat → Buffers α → Buffers α) (f : Nat → β → β)
    (step : ∀ i buffer, lane i (put buffer) = put (Function.update buffer
      t.coloring.vertPerm[i + offset]! (f t.coloring.vertPerm[i + offset]!
        (buffer t.coloring.vertPerm[i + offset]!))))
    (buffer : Nat → β) :
    dispatch count lane (put buffer) =
      put (rewrite (laneRows t offset count) (fun v => f v (buffer v)) buffer) :=
  foldl_lanes put lane _ f step nodup buffer

/-- A dispatch that is skipped when it has no lanes is the dispatch. -/
theorem dispatchIf_self {σ : Type*} (n : Nat) (lane : Nat → σ → σ) (st : σ) :
    dispatchIf n n lane st = dispatch n lane st := by
  unfold dispatchIf
  by_cases some_ : 0 < n
  · rw [if_pos some_]
  · obtain rfl : n = 0 := by omega
    rfl

/-- Running a kernel with one row per constraint fills those rows. -/
theorem dispatch_fill {β σ : Type*} (n : Nat) (put : (Nat → β) → σ)
    (lane : Nat → σ → σ) (force : Nat → β)
    (step : ∀ c buffer, lane c (put buffer) = put (Function.update buffer c (force c)))
    (buffer : Nat → β) :
    dispatch n lane (put buffer) = put fun c => if c < n then force c else buffer c := by
  have nodup : ((List.range n).map id).Nodup := by simpa using List.nodup_range
  refine (foldl_lanes put lane id (fun c _ => force c) step nodup buffer).trans (congrArg put (funext fun c => ?_))
  simp [rewrite]

/-- A gather rewrites the batch's rows; a family with no constraints has nothing to add. -/
theorem dispatchIf_lanes {offset count : Nat} (n : Nat) (nodup : (laneRows t offset count).Nodup)
    (put : (Nat → Block α) → Buffers α) (lane : Nat → Buffers α → Buffers α)
    (f : Nat → Block α → Block α)
    (step : ∀ i buffer, lane i (put buffer) = put (Function.update buffer
      t.coloring.vertPerm[i + offset]! (f t.coloring.vertPerm[i + offset]!
        (buffer t.coloring.vertPerm[i + offset]!))))
    (idle : n = 0 → ∀ v ∈ laneRows t offset count, ∀ row, f v row = row)
    (buffer : Nat → Block α) :
    dispatchIf n count lane (put buffer) =
      put (rewrite (laneRows t offset count) (fun v => f v (buffer v)) buffer) := by
  unfold dispatchIf
  by_cases some_ : 0 < n
  · rw [if_pos some_]
    exact dispatch_lanes nodup put lane f step buffer
  · rw [if_neg some_]
    refine congrArg put (funext fun v => ?_)
    by_cases member : v ∈ laneRows t offset count
    · rw [rewrite_of_mem member, idle (by omega) v member]
    · rw [rewrite_of_notMem member]

end Buffers

/-- Positions that agree at every vertex of a stencil give it the same force. -/
theorem triAt_congr {x y : Nat → Vec3 α} {c : Nat} (same : ∀ u ∈ t.triangle c, x u = y u) :
    triAt kernels t inp x c = triAt kernels t inp y c := by
  have corners : (fun r : Fin 3 => x t.triIdx[3 * c + r]!) = fun r : Fin 3 => y t.triIdx[3 * c + r]! :=
    funext fun r => same _ (triIdx_mem r.isLt)
  rw [triAt, triAt, corners]

/-- So for bendings. -/
theorem bendAt_congr {x y : Nat → Vec3 α} {c : Nat} (same : ∀ u ∈ t.bending c, x u = y u) :
    bendAt kernels t inp x c = bendAt kernels t inp y c := by
  have corners : (fun r : Fin 4 => x t.bendIdx[4 * c + r]!) = fun r : Fin 4 => y t.bendIdx[4 * c + r]! :=
    funext fun r => same _ (bendIdx_mem r.isLt)
  rw [bendAt, bendAt, corners]

/-- So for springs. -/
theorem springAt_congr {x y : Nat → Vec3 α} {c : Nat} (same : ∀ u ∈ t.spring c, x u = y u) :
    springAt kernels t inp x c = springAt kernels t inp y c := by
  rw [springAt, springAt, same _ (by simp [Stencils.spring]), same t.p2[c]! (by simp [Stencils.spring])]

section Gathers

/-! With no constraint in a family its rows are empty, so a skipped gather changes nothing. -/

variable {t} {v : Nat} [Add α]

/-- A gather reads the rows of the attachments at its vertex. -/
theorem gatherAttachRow_congr {csr : Csr} {attach : Nat → Diag α} (other : Nat → Diag α) {v : Nat}
    (same : ∀ e ∈ csr.row v, attach e.1 = other e.1) (row : Block α) :
    gatherAttachRow csr attach v row = gatherAttachRow csr other v row :=
  List.foldl_ext _ _ _ fun row e entry => by rw [same e entry]

/-- A gather reads the rows of the corners at its vertex. -/
theorem gatherDiagRow_congr (K : Nat) (csr : Csr) (force other : Nat → Diag α) (v : Nat)
    (same : ∀ e ∈ csr.row v, force (K * e.1 + e.2) = other (K * e.1 + e.2)) (row : Block α) :
    gatherDiagRow K csr force v row = gatherDiagRow K csr other v row :=
  List.foldl_ext _ _ _ fun row e entry => by rw [same e entry]

/-- Without attachments nothing is gathered of them. -/
theorem gatherAttachRow_idle (inRange : t.InRange) (vertex : v < t.nVerts) (none : t.nAttach = 0)
    (attach : Nat → Diag α) (row : Block α) : gatherAttachRow t.vAttach attach v row = row := by
  have empty : t.vAttach.row v = [] := List.eq_nil_iff_forall_not_mem.mpr fun e entry => by
    have inside := (mem_row_vAttach inRange vertex entry).1
    omega
  rw [gatherAttachRow, empty, List.foldl_nil]

/-- Without triangles nothing is gathered of them. -/
theorem gatherTriRow_idle (inRange : t.InRange) (vertex : v < t.nVerts) (none : t.nTri = 0)
    (tri : Nat → Diag α) (row : Block α) : gatherDiagRow 3 t.vTri tri v row = row := by
  have empty : t.vTri.row v = [] := List.eq_nil_iff_forall_not_mem.mpr fun e entry => by
    have inside := (mem_row_vTri inRange vertex entry).1
    omega
  rw [gatherDiagRow, empty, List.foldl_nil]

/-- Without bendings nothing is gathered of them. -/
theorem gatherBendRow_idle (inRange : t.InRange) (vertex : v < t.nVerts) (none : t.nBend = 0)
    (bend : Nat → Diag α) (row : Block α) : gatherDiagRow 4 t.vBend bend v row = row := by
  have empty : t.vBend.row v = [] := List.eq_nil_iff_forall_not_mem.mpr fun e entry => by
    have inside := (mem_row_vBend inRange vertex entry).1
    omega
  rw [gatherDiagRow, empty, List.foldl_nil]

variable [One α] [Sub α] [Mul α] [NatCast α]

/-- A gather reads the rows of the springs at its vertex. -/
theorem gatherSpringRow_congr {csr : Csr} {spring : Nat → Block α} (other : Nat → Block α) {v : Nat}
    (same : ∀ e ∈ csr.row v, spring e.1 = other e.1) (row : Block α) :
    gatherSpringRow csr spring v row = gatherSpringRow csr other v row :=
  List.foldl_ext _ _ _ fun row e entry => by rw [same e entry]

/-- Without springs nothing is gathered of them. -/
theorem gatherSpringRow_idle (inRange : t.InRange) (vertex : v < t.nVerts) (none : t.nSprings = 0)
    (spring : Nat → Block α) (row : Block α) : gatherSpringRow t.vSpring spring v row = row := by
  have empty : t.vSpring.row v = [] := List.eq_nil_iff_forall_not_mem.mpr fun e entry => by
    have inside := (mem_row_vSpring inRange vertex entry).1
    omega
  rw [gatherSpringRow, empty, List.foldl_nil]

/-- What the gathers leave in the scratch row of a batch vertex. -/
def gathered (t : Topology) (b : Buffers α) (v : Nat) (row : Block α) : Block α :=
  gatherDiagRow 4 t.vBend b.bend v (gatherDiagRow 3 t.vTri b.tri v
    (gatherAttachRow t.vAttach b.attach v (gatherSpringRow t.vSpring b.spring v row)))

/-- The gathers of a batch add up the rows of its vertices, one family after the other. -/
theorem gatherPass_eq (inRange : t.InRange) {offset count : Nat}
    (nodup : (laneRows t offset count).Nodup)
    (vertices : ∀ v ∈ laneRows t offset count, v < t.nVerts) (b : Buffers α) :
    gatherPass t offset count b =
      { b with scratch :=
          rewrite (laneRows t offset count) (fun v => gathered t b v (b.scratch v)) b.scratch } := by
  have springs := dispatchIf_lanes t.nSprings nodup (fun s => { b with scratch := s })
    (vbdGatherSpring t offset) (gatherSpringRow t.vSpring b.spring) (fun _ _ => rfl)
    (fun none v member => gatherSpringRow_idle inRange (vertices v member) none _)
  have attachments := dispatchIf_lanes t.nAttach nodup (fun s => { b with scratch := s })
    (vbdGatherAttachment t offset) (gatherAttachRow t.vAttach b.attach) (fun _ _ => rfl)
    (fun none v member => gatherAttachRow_idle inRange (vertices v member) none _)
  have triangles := dispatchIf_lanes t.nTri nodup (fun s => { b with scratch := s })
    (vbdGatherTriangle t offset) (gatherDiagRow 3 t.vTri b.tri) (fun _ _ => rfl)
    (fun none v member => gatherTriRow_idle inRange (vertices v member) none _)
  have bendings := dispatchIf_lanes t.nBend nodup (fun s => { b with scratch := s })
    (vbdGatherBending t offset) (gatherDiagRow 4 t.vBend b.bend) (fun _ _ => rfl)
    (fun none v member => gatherBendRow_idle inRange (vertices v member) none _)
  simp only [gatherPass]
  rw [show dispatchIf t.nSprings count (vbdGatherSpring t offset) b = _ from springs b.scratch,
    attachments, rewrite_rewrite, triangles,
    rewrite_rewrite _ (fun v row => gatherAttachRow t.vAttach b.attach v
      (gatherSpringRow t.vSpring b.spring v row)), bendings,
    rewrite_rewrite _ (fun v row => gatherDiagRow 3 t.vTri b.tri v (gatherAttachRow t.vAttach b.attach
      v (gatherSpringRow t.vSpring b.spring v row)))]
  rfl

end Gathers

section Forces

variable [Add α] [Sub α] [Mul α]

/-- After the force kernels every constraint's rows hold its force. -/
theorem forcePass_eq (b : Buffers α) :
    forcePass kernels t inp b =
      { b with
        spring := fun c => if c < t.nSprings then springAt kernels t inp b.positions c else b.spring c
        attach := fun c => if c < t.nAttach then attachAt t inp b.positions c else b.attach c
        tri := fun slot => if slot / 3 < t.nTri then
          triAt kernels t inp b.positions (slot / 3) (Fin.ofNat 3 slot) else b.tri slot
        bend := fun slot => if slot / 4 < t.nBend then
          bendAt kernels t inp b.positions (slot / 4) (Fin.ofNat 4 slot) else b.bend slot } := by
  simp only [forcePass, dispatchIf_self]
  have springs := dispatch_fill t.nSprings (fun s => { b with spring := s })
    (springForce kernels t inp) (springAt kernels t inp b.positions) (fun _ _ => rfl) b.spring
  rw [show dispatch t.nSprings (springForce kernels t inp) b = _ from springs]
  have attachments := fun spring => dispatch_fill t.nAttach
    (fun s => { b with spring := spring, attach := s }) (attachmentForceAl t inp)
    (attachAt t inp b.positions) (fun _ _ => rfl) b.attach
  rw [attachments]
  have triangles := fun spring attach => dispatch_writeRows 3 t.nTri
    (fun s => { b with spring := spring, attach := attach, tri := s })
    (triangleMembraneForceAl kernels t inp) (triAt kernels t inp b.positions) (fun _ _ => rfl) b.tri
  rw [triangles]
  have bendings := fun spring attach tri => dispatch_writeRows 4 t.nBend
    (fun s => { b with spring := spring, attach := attach, tri := tri, bend := s })
    (triangleBendingForceAl kernels t inp) (bendAt kernels t inp b.positions) (fun _ _ => rfl)
  exact bendings _ _ _ b.bend

end Forces

variable [Zero α] [One α] [Add α] [Sub α] [Mul α] [NatCast α]

/-- The row vertex `v` solves when every force is taken at positions `x`. -/
def vertexRow (x : Nat → Vec3 α) (v : Nat) : Block α :=
  let row := initRow inp.invHSq (x v) (inp.predicted v) (inp.mass v)
  let row := gatherSpringRow t.vSpring (springAt kernels t inp x) v row
  let row := gatherAttachRow t.vAttach (attachAt t inp x) v row
  let row := gatherDiagRow 3 t.vTri (fun slot => triAt kernels t inp x (slot / 3) (Fin.ofNat 3 slot))
    v row
  gatherDiagRow 4 t.vBend (fun slot => bendAt kernels t inp x (slot / 4) (Fin.ofNat 4 slot)) v row

section Locality

variable {t}

/-- A vertex's row reads its own position and those it shares a constraint with. -/
theorem vertexRow_congr (inRange : t.InRange) {x y : Nat → Vec3 α} {v : Nat}
    (vertex : v < t.nVerts) (here : x v = y v)
    (near : ∀ u, Shares t.constraints v u → x u = y u) :
    vertexRow kernels t inp x v = vertexRow kernels t inp y v := by
  have stencil : ∀ inc ∈ t.constraints, v ∈ inc → ∀ u ∈ inc, x u = y u :=
    fun inc listed inV u inU => near u ⟨inc, listed, inV, inU⟩
  have springs : ∀ e ∈ t.vSpring.row v, springAt kernels t inp x e.1 = springAt kernels t inp y e.1 := by
    intro e entry
    obtain ⟨inside, names⟩ := mem_row_vSpring inRange vertex entry
    exact springAt_congr kernels t inp (stencil _ (spring_mem inside) names)
  have attachments : ∀ e ∈ t.vAttach.row v, attachAt t inp x e.1 = attachAt t inp y e.1 := by
    intro e entry
    obtain ⟨-, names⟩ := mem_row_vAttach inRange vertex entry
    rw [attachAt, attachAt, names, here]
  have triangles : ∀ e ∈ t.vTri.row v,
      triAt kernels t inp x ((3 * e.1 + e.2) / 3) = triAt kernels t inp y ((3 * e.1 + e.2) / 3) := by
    intro e entry
    obtain ⟨inside, role, names⟩ := mem_row_vTri inRange vertex entry
    rw [show (3 * e.1 + e.2) / 3 = e.1 by omega]
    exact triAt_congr kernels t inp (stencil _ (triangle_mem inside) names)
  have bendings : ∀ e ∈ t.vBend.row v,
      bendAt kernels t inp x ((4 * e.1 + e.2) / 4) = bendAt kernels t inp y ((4 * e.1 + e.2) / 4) := by
    intro e entry
    obtain ⟨inside, role, names⟩ := mem_row_vBend inRange vertex entry
    rw [show (4 * e.1 + e.2) / 4 = e.1 by omega]
    exact bendAt_congr kernels t inp (stencil _ (bending_mem inside) names)
  have triRows := gatherDiagRow_congr 3 t.vTri
    (fun slot => triAt kernels t inp x (slot / 3) (Fin.ofNat 3 slot))
    (fun slot => triAt kernels t inp y (slot / 3) (Fin.ofNat 3 slot)) v
    fun e entry => congrFun (triangles e entry) _
  have bendRows := gatherDiagRow_congr 4 t.vBend
    (fun slot => bendAt kernels t inp x (slot / 4) (Fin.ofNat 4 slot))
    (fun slot => bendAt kernels t inp y (slot / 4) (Fin.ofNat 4 slot)) v
    fun e entry => congrFun (bendings e entry) _
  simp only [vertexRow]
  rw [here, gatherSpringRow_congr _ springs, gatherAttachRow_congr _ attachments, triRows, bendRows]

/-- After the force kernels the gathers add up the row the vertex solves. -/
theorem gathered_forcePass (inRange : t.InRange) {v : Nat} (vertex : v < t.nVerts) (b : Buffers α) :
    gathered t (forcePass kernels t inp b) v
        (initRow inp.invHSq (b.positions v) (inp.predicted v) (inp.mass v)) =
      vertexRow kernels t inp b.positions v := by
  have bends := gatherDiagRow_congr 4 t.vBend
    (fun slot => if slot / 4 < t.nBend then
      bendAt kernels t inp b.positions (slot / 4) (Fin.ofNat 4 slot) else b.bend slot)
    (fun slot => bendAt kernels t inp b.positions (slot / 4) (Fin.ofNat 4 slot)) v
    fun e entry => by
      obtain ⟨inside, role, -⟩ := mem_row_vBend inRange vertex entry
      exact if_pos (by omega)
  have tris := gatherDiagRow_congr 3 t.vTri
    (fun slot => if slot / 3 < t.nTri then
      triAt kernels t inp b.positions (slot / 3) (Fin.ofNat 3 slot) else b.tri slot)
    (fun slot => triAt kernels t inp b.positions (slot / 3) (Fin.ofNat 3 slot)) v
    fun e entry => by
      obtain ⟨inside, role, -⟩ := mem_row_vTri inRange vertex entry
      exact if_pos (by omega)
  rw [forcePass_eq]
  simp only [gathered, vertexRow]
  rw [bends, tris, gatherAttachRow_congr (attachAt t inp b.positions) fun e entry =>
      if_pos (mem_row_vAttach inRange vertex entry).1,
    gatherSpringRow_congr (springAt kernels t inp b.positions) fun e entry =>
      if_pos (mem_row_vSpring inRange vertex entry).1]

/-- Before the solve of a colour pass every vertex of the batch has its row. -/
theorem gathers_eq (inRange : t.InRange) {offset count : Nat}
    (nodup : (laneRows t offset count).Nodup)
    (vertices : ∀ v ∈ laneRows t offset count, v < t.nVerts) (b : Buffers α) :
    gatherPass t offset count
        (forcePass kernels t inp (dispatch count (vbdInit t inp offset) b)) =
      { forcePass kernels t inp b with
        scratch := rewrite (laneRows t offset count) (vertexRow kernels t inp b.positions)
          b.scratch } := by
  have init := dispatch_lanes nodup (fun s => { b with scratch := s }) (vbdInit t inp offset)
    (fun v _ => initRow inp.invHSq (b.positions v) (inp.predicted v) (inp.mass v))
    (fun _ _ => rfl) b.scratch
  rw [show dispatch count (vbdInit t inp offset) b = _ from init,
    gatherPass_eq inRange nodup vertices]
  simp only [forcePass_eq]
  congr 1
  funext v
  by_cases member : v ∈ laneRows t offset count
  · rw [rewrite_of_mem member, rewrite_of_mem member, rewrite_of_mem member,
      ← gathered_forcePass kernels inp inRange (vertices v member), forcePass_eq]
    rfl
  · rw [rewrite_of_notMem member, rewrite_of_notMem member, rewrite_of_notMem member]

end Locality

variable [Div α]

/-- The position vertex `v` moves to when it alone is solved. -/
def solved (x : Nat → Vec3 α) (v : Nat) : Vec3 α :=
  fun i => x v i + solveRow (vertexRow kernels t inp x v) i

section Batches

variable {t}

/-- Moving a vertex leaves alone what any other vertex it shares nothing with solves. -/
theorem solved_update (inRange : t.InRange) {x : Nat → Vec3 α} {u v : Nat}
    (vertex : v < t.nVerts) (distinct : u ≠ v) (apart : ¬ Shares t.constraints u v)
    (value : Vec3 α) :
    solved kernels t inp (Function.update x u value) v = solved kernels t inp x v := by
  have here : Function.update x u value v = x v := Function.update_of_ne distinct.symm _ _
  have near : ∀ w, Shares t.constraints v w → Function.update x u value w = x w := by
    intro w shares
    refine Function.update_of_ne (fun same => apart ?_) _ _
    exact same ▸ shares.symm
  unfold solved
  rw [here, vertexRow_congr kernels inp inRange vertex here near]

/-- What a colour pass leaves: its batch solved from the positions before it, and
the rows it was solved from. -/
theorem stepColor_eq (inRange : t.InRange) {offset count : Nat}
    (nodup : (laneRows t offset count).Nodup)
    (vertices : ∀ v ∈ laneRows t offset count, v < t.nVerts) (b : Buffers α) :
    stepColor kernels t inp offset count b =
      { forcePass kernels t inp b with
        positions := rewrite (laneRows t offset count) (solved kernels t inp b.positions) b.positions
        scratch := rewrite (laneRows t offset count) (vertexRow kernels t inp b.positions)
          b.scratch } := by
  have solve := fun b : Buffers α => dispatch_lanes nodup (fun x => { b with positions := x })
    (vbdSolveApply t offset) (fun v x i => x i + solveRow (b.scratch v) i) (fun _ _ => rfl)
    b.positions
  simp only [stepColor]
  rw [gathers_eq kernels inp inRange nodup vertices,
    show ∀ b : Buffers α, dispatch count (vbdSolveApply t offset) b = _ from solve]
  simp only [forcePass_eq]
  congr 1
  funext v
  by_cases member : v ∈ laneRows t offset count
  · rw [rewrite_of_mem member, rewrite_of_mem member, rewrite_of_mem member]
    rfl
  · rw [rewrite_of_notMem member, rewrite_of_notMem member]

/-- The positions that a colour pass leaves. -/
theorem stepColor_positions (inRange : t.InRange) {offset count : Nat}
    (nodup : (laneRows t offset count).Nodup)
    (vertices : ∀ v ∈ laneRows t offset count, v < t.nVerts) (b : Buffers α) :
    (stepColor kernels t inp offset count b).positions =
      rewrite (laneRows t offset count) (solved kernels t inp b.positions) b.positions := by
  rw [stepColor_eq kernels inp inRange nodup vertices]

end Batches

section Sequential

/-- Solving the listed vertices one after another, each from what is there by then. -/
def sweep (order : List Nat) (x : Nat → Vec3 α) : Nat → Vec3 α :=
  order.foldl (fun x v => Function.update x v (solved kernels t inp x v)) x

variable {t}

/-- One lane at a time, the passes sweep the vertices in lane order. -/
theorem foldl_stepColor_one (inRange : t.InRange) (lanes : List Nat)
    (vertices : ∀ p ∈ lanes, t.coloring.vertPerm[p]! < t.nVerts) (b : Buffers α) :
    (lanes.foldl (fun b p => stepColor kernels t inp p 1 b) b).positions =
      sweep kernels t inp (lanes.map (t.coloring.vertPerm[·]!)) b.positions := by
  induction lanes generalizing b with
  | nil => rfl
  | cons p rest ih =>
      have lane : laneRows t p 1 = [t.coloring.vertPerm[p]!] := by simp [laneRows]
      have pass : (stepColor kernels t inp p 1 b).positions =
          rewrite (laneRows t p 1) (solved kernels t inp b.positions) b.positions :=
        stepColor_positions kernels inp inRange (by simp [lane])
          (by simpa [lane] using vertices p List.mem_cons_self) b
      have update : rewrite (laneRows t p 1) (solved kernels t inp b.positions) b.positions =
          Function.update b.positions t.coloring.vertPerm[p]!
            (solved kernels t inp b.positions t.coloring.vertPerm[p]!) := by
        funext v
        by_cases here : v = t.coloring.vertPerm[p]!
        · subst here
          rw [rewrite_of_mem (by simp [lane]), Function.update_self]
        · rw [rewrite_of_notMem (by simpa [lane] using here), Function.update_of_ne here]
      rw [List.foldl_cons, ih (fun q member => vertices q (List.mem_cons_of_mem _ member)), pass,
        update]
      rfl

/-- A batch whose vertices share no constraint is solved as a sweep. -/
theorem stepColor_eq_sweep (inRange : t.InRange) {offset count : Nat}
    (nodup : (laneRows t offset count).Nodup)
    (vertices : ∀ v ∈ laneRows t offset count, v < t.nVerts)
    (apart : ∀ u ∈ laneRows t offset count, ∀ v ∈ laneRows t offset count, u ≠ v →
      ¬ Shares t.constraints u v) (b : Buffers α) :
    (stepColor kernels t inp offset count b).positions =
      sweep kernels t inp (laneRows t offset count) b.positions := by
  rw [stepColor_positions kernels inp inRange nodup vertices]
  refine (foldl_update nodup (solved kernels t inp) (fun u uLane v vLane distinct x value => ?_)
    b.positions).symm
  exact solved_update kernels inp inRange (vertices v vLane) distinct
    (apart u uLane v vLane distinct) value

/-- A sweep over two lists is one after the other. -/
theorem sweep_append (first second : List Nat) (x : Nat → Vec3 α) :
    sweep kernels t inp (first ++ second) x =
      sweep kernels t inp second (sweep kernels t inp first x) :=
  List.foldl_append

/-- With the greedy colouring an iteration sweeps the vertices in `vertPerm` order. -/
theorem stepImpl_eq_sweep (inRange : t.InRange) (pos : 1 ≤ t.nVerts)
    (colored : t.coloring = greedyColoring t.nVerts t.toStencils) (b : Buffers α) :
    (stepImpl kernels t inp b).positions =
      sweep kernels t inp t.coloring.vertPerm.toList b.positions := by
  have batches := greedyColoring_batches pos inRange.stencils
  rw [← colored] at batches
  have lanes : ∀ k < colorsUsed (solverColor t.nVerts t.toStencils) t.nVerts,
      laneRows t t.coloring.colorOffsets[k]!
          (t.coloring.colorOffsets[k + 1]! - t.coloring.colorOffsets[k]!) =
        bucket (solverColor t.nVerts t.toStencils) (List.range t.nVerts) k := by
    intro k inside
    rw [← batches.slice inside, laneRows, List.range'_eq_map_range, List.map_map]
    exact List.map_congr_left fun i _ => by simp [Nat.add_comm]
  have passes : ∀ n ≤ colorsUsed (solverColor t.nVerts t.toStencils) t.nVerts,
      ((List.range n).foldl (fun b k =>
        let offset := t.coloring.colorOffsets[k]!
        let count := t.coloring.colorOffsets[k + 1]! - offset
        if count = 0 then b else stepColor kernels t inp offset count b) b).positions =
      sweep kernels t inp
        ((List.range n).flatMap (bucket (solverColor t.nVerts t.toStencils) (List.range t.nVerts)))
        b.positions := by
    intro n
    induction n with
    | zero => exact fun _ => rfl
    | succ n ih =>
        intro bound
        rw [List.range_succ, List.foldl_append, List.foldl_cons, List.foldl_nil, List.flatMap_append,
          List.flatMap_singleton, sweep_append, ← ih (by omega)]
        have rows := lanes n (by omega)
        simp only
        split
        · next empty =>
          rw [empty] at rows
          rw [← rows]
          rfl
        · have member : ∀ v, v ∈ laneRows t t.coloring.colorOffsets[n]!
              (t.coloring.colorOffsets[n + 1]! - t.coloring.colorOffsets[n]!) →
              v < t.nVerts ∧ solverColor t.nVerts t.toStencils v = n := by
            intro v lane
            rw [rows] at lane
            simpa [bucket] using lane
          obtain ⟨-, -, greedy⟩ := solverColor_spec inRange.stencils
          rw [← rows]
          refine stepColor_eq_sweep kernels inp inRange ?_ (fun v lane => (member v lane).1) ?_ _
          · rw [rows]
            exact List.nodup_range.filter _
          · intro u uLane v vLane distinct shares
            obtain ⟨uBound, uColor⟩ := member u uLane
            obtain ⟨vBound, vColor⟩ := member v vLane
            exact greedy.ne_of_near (fun near => ⟨near.1.symm, near.2.symm⟩) distinct uBound vBound
              ⟨distinct, shares⟩ (uColor.trans vColor.symm)
  have whole := passes _ le_rfl
  rw [batches.vertPerm, ← whole, stepImpl, batches.size]
  rfl

end Sequential

end Pass

/-- The colouring separates the sweep: a permutation cut into consecutive batches,
no two vertices of a batch in one constraint, the same as the Lean colouring, and
an iteration by batches is the iteration one vertex at a time. -/
theorem greedyColoring_correct (nV : Nat) (pos : 1 ≤ nV) (s : Stencils) (inRange : s.InRange nV) :
    let out := greedyColoring nV s
    let lean := Cloth.Coloring.assignColors nV s.constraints
    out.vertPerm.toList.Perm (List.range nV) ∧
    (1 < out.colorOffsets.size ∧ out.colorOffsets[0]! = 0 ∧
      out.colorOffsets[out.colorOffsets.size - 1]! = nV ∧
      ∀ k, k + 1 < out.colorOffsets.size → out.colorOffsets[k]! ≤ out.colorOffsets[k + 1]!) ∧
    (∀ k i j, k + 1 < out.colorOffsets.size →
      out.colorOffsets[k]! ≤ i → i < out.colorOffsets[k + 1]! →
      out.colorOffsets[k]! ≤ j → j < out.colorOffsets[k + 1]! →
      out.vertPerm[i]! ≠ out.vertPerm[j]! →
      ¬ Shares s.constraints out.vertPerm[i]! out.vertPerm[j]!) ∧
    ((∀ v < nV, (colorPass nV (adjacencyPass nV s))[v]! = lean.vertColor[v]!) ∧
      out.vertPerm = lean.vertPerm ∧ out.colorOffsets = lean.colorOffsets) ∧
    ∀ {α : Type} [Zero α] [One α] [Add α] [Sub α] [Mul α] [Div α] [NatCast α]
      (kernels : ForceKernels α) (t : Topology) (inp : Inputs α) (b : Buffers α),
      t.toStencils = s → t.nVerts = nV → t.coloring = out → t.InRange →
      (stepImpl kernels t inp b).positions =
        ((List.range nV).foldl (fun b p => stepColor kernels t inp p 1 b) b).positions := by
  intro out lean
  have batches : Batches (solverColor nV s) nV (colorsUsed (solverColor nV s) nV) out :=
    greedyColoring_batches pos inRange
  have size := batches.size
  have some_ : 0 < colorsUsed (solverColor nV s) nV := by
    have first := lt_colorsUsed (solverColor nV s) (show 0 < nV by omega)
    omega
  obtain ⟨colors, same⟩ := assignColors_eq pos inRange
  obtain ⟨-, known, -⟩ := solverColor_spec inRange
  refine ⟨batches.perm, ⟨by omega, batches.offsets_zero, ?_, fun k inside => ?_⟩, ?_,
    ⟨fun v inside => ?_, ?_, ?_⟩, ?_⟩
  · rw [size, Nat.add_sub_cancel]
    exact batches.offsets_last
  · exact batches.offsets_mono (by omega)
  · intro k i j batch iLow iHigh jLow jHigh distinct
    exact not_shares_of_batch pos inRange batch iLow iHigh jLow jHigh distinct
  · rw [known v inside, colors v inside]
  · exact (congrArg Coloring.vertPerm same).symm
  · exact (congrArg Coloring.colorOffsets same).symm
  · intro α _ _ _ _ _ _ _ kernels t inp b stencils verts colored tRange
    subst stencils verts
    have vertices : ∀ p ∈ List.range t.nVerts, t.coloring.vertPerm[p]! < t.nVerts := by
      intro p member
      have inside : p < out.vertPerm.size := by
        rw [batches.size_vertPerm]
        exact List.mem_range.mp member
      rw [colored, getElem!_pos out.vertPerm p inside]
      exact List.mem_range.mp (batches.perm.subset (by simp))
    rw [stepImpl_eq_sweep kernels inp tRange pos colored,
      foldl_stepColor_one kernels inp tRange _ vertices]
    have listed := toList_eq_map_range t.coloring.vertPerm
    rw [colored, batches.size_vertPerm, ← colored] at listed
    rw [listed]

/-- Two triangles that share an edge: vertices 0 and 3 are one batch. -/
def twoTriangles : Stencils where
  nSprings := 0
  p1 := #[]
  p2 := #[]
  nTri := 2
  triIdx := #[0, 1, 2, 3, 2, 1]
  nBend := 0
  bendIdx := #[]

/-- Two triangles with a common edge, in batches and one vertex at a time. -/
theorem greedyColoring_correct_twoTriangles :
    let out := greedyColoring 4 twoTriangles
    let kernels : ForceKernels Int :=
      ⟨fun _ _ _ _ => ⟨0, 0⟩, fun p _ k _ _ r => ⟨fun i => k * (p r i - p (r + 1) i), k⟩,
        fun _ _ _ _ _ _ => ⟨0, 0⟩⟩
    let t : Topology :=
      { twoTriangles with nVerts := 4, nAttach := 0, attachVert := #[], coloring := out }
    out.vertPerm.toList.Perm (List.range 4) ∧
      ∀ (inp : Inputs Int) (b : Buffers Int), (stepImpl kernels t inp b).positions =
        ((List.range 4).foldl (fun b p => stepColor kernels t inp p 1 b) b).positions := by
  intro out kernels t
  have correct := greedyColoring_correct 4 (by decide) twoTriangles (by decide)
  exact ⟨correct.1, fun inp b =>
    correct.2.2.2.2 kernels t inp b rfl rfl rfl ⟨by decide, fun c low => absurd low (Nat.not_lt_zero c)⟩⟩

end DressOn.Avbd
