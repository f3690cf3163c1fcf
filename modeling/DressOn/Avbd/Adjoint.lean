import DressOn.Lib.Gathers
import DressOn.Avbd.SpringKernel
import DressOn.Avbd.Transpose

/-!
# The backward pass is the adjoint of the last step

`stepBackward_adjoint`: along any motion of the inputs the new positions move, and
pairing their velocity with the incoming cotangent is pairing the inputs'
velocities with what `stepBackward` returns. The gathers and the scatters are one
sum over the incidences, taken by vertex or by constraint.
-/

namespace DressOn.Avbd

open Finset Matrix CountingSort

section Incidences

variable {nV nCon K : Nat} {conIdx : Array Nat}

/-- A sum over the incidences is one over the constraints and their corners. -/
theorem sum_incidences (nCon K : Nat) (f : Nat → Nat → ℝ) :
    ((incidences nCon K).map fun e => f e.1 e.2).sum = ∑ c ∈ range nCon, ∑ r ∈ range K, f c r := by
  rw [incidences, sum_map_flatMap, sum_range_eq_sum_map]
  congr 1
  apply List.map_congr_left
  intro c _
  rw [sum_range_eq_sum_map, List.map_map]
  rfl

/-- Summed over the vertices and their rows, or over the constraints and their roles. -/
theorem sum_rows (inRange : ∀ c < nCon, ∀ r < K, conIdx[K * c + r]! < nV)
    (f : Nat → Nat → Nat → ℝ) :
    ∑ v ∈ range nV, ((rowOf nCon K conIdx v).map fun e => f v e.1 e.2).sum =
      ∑ c ∈ range nCon, ∑ r ∈ range K, f conIdx[K * c + r]! c r := by
  rw [sum_bucket (vertexOf_lt inRange) fun v e => f v e.1 e.2]
  exact sum_incidences nCon K fun c r => f conIdx[K * c + r]! c r

end Incidences

section Families

variable {t : Topology} (inRange : t.InRange) (c : Nat → Block ℝ)
include inRange

/-- The rows of the springs, spring by spring. -/
theorem sum_springs (force : Nat → Block ℝ) :
    ∑ v ∈ range t.nVerts, ((t.vSpring.row v).map fun e => springTerm e.2 (c v) (force e.1)).sum =
      ∑ i ∈ range t.nSprings, (springCot t c i).pair (force i) := by
  have rows : ∀ v ∈ range t.nVerts,
      ((t.vSpring.row v).map fun e => springTerm e.2 (c v) (force e.1)).sum =
      ((rowOf t.nSprings 2 t.ends v).map fun e => springTerm e.2 (c v) (force e.1)).sum :=
    fun v vertex => by rw [row_vSpring inRange (mem_range.mp vertex)]
  have bound : ∀ i < t.nSprings, ∀ r < 2, t.ends[2 * i + r]! < t.nVerts := fun _ inside _ role =>
    inRange.stencils _ (spring_mem inside) _ (ends_mem inside role)
  rw [sum_congr rfl rows, sum_rows bound fun v i r => springTerm r (c v) (force i)]
  apply sum_congr rfl
  intro i member
  have inside := mem_range.mp member
  have p1 := ends_eq inside (show 0 < 2 by omega)
  have p2 := ends_eq inside (show 1 < 2 by omega)
  rw [sum_range_succ, sum_range_one, p1, p2]
  simp only [Stencils.spring, springTerm, springCot, Block.pair, gatherSpringBackwardRow, dotProduct,
    Fin.sum_univ_succ, Fin.sum_univ_zero]
  simp
  ring

/-- The rows of the attachments, attachment by attachment. -/
theorem sum_attachments (force : Nat → Diag ℝ) :
    ∑ v ∈ range t.nVerts,
        ((t.vAttach.row v).map fun e => (gatherDiagBackwardRow (c v)).pair (force e.1)).sum =
      ∑ i ∈ range t.nAttach, (attachCot t c i).pair (force i) := by
  have rows : ∀ v ∈ range t.nVerts,
      ((t.vAttach.row v).map fun e => (gatherDiagBackwardRow (c v)).pair (force e.1)).sum =
      ((rowOf t.nAttach 1 t.attachVert v).map
        fun e => (gatherDiagBackwardRow (c v)).pair (force e.1)).sum :=
    fun v vertex => by rw [row_vAttach inRange (mem_range.mp vertex)]
  have bound : ∀ i < t.nAttach, ∀ r < 1, t.attachVert[1 * i + r]! < t.nVerts := by
    intro i inside r role
    obtain rfl : r = 0 := by omega
    simpa using inRange.attach i inside
  rw [sum_congr rfl rows, sum_rows bound fun v i r => (gatherDiagBackwardRow (c v)).pair (force i)]
  simp [attachCot]

/-- The rows of the triangles, corner by corner. -/
theorem sum_triangles (force : Nat → Diag ℝ) :
    ∑ v ∈ range t.nVerts, ((t.vTri.row v).map fun e =>
        (gatherDiagBackwardRow (c v)).pair (force (3 * e.1 + e.2))).sum =
      ∑ i ∈ range t.nTri, ∑ r : Fin 3, (triCot t c i r).pair (force (3 * i + r)) := by
  have rows : ∀ v ∈ range t.nVerts, ((t.vTri.row v).map fun e =>
        (gatherDiagBackwardRow (c v)).pair (force (3 * e.1 + e.2))).sum =
      ((rowOf t.nTri 3 t.triIdx v).map fun e =>
        (gatherDiagBackwardRow (c v)).pair (force (3 * e.1 + e.2))).sum :=
    fun v vertex => by rw [row_vTri inRange (mem_range.mp vertex)]
  have bound : ∀ i < t.nTri, ∀ r < 3, t.triIdx[3 * i + r]! < t.nVerts := fun _ inside _ role =>
    inRange.stencils _ (triangle_mem inside) _ (triIdx_mem role)
  rw [sum_congr rfl rows,
    sum_rows bound fun v i r => (gatherDiagBackwardRow (c v)).pair (force (3 * i + r))]
  apply sum_congr rfl
  intro i _
  rw [sum_range]
  rfl

/-- The rows of the bendings, corner by corner. -/
theorem sum_bendings (force : Nat → Diag ℝ) :
    ∑ v ∈ range t.nVerts, ((t.vBend.row v).map fun e =>
        (gatherDiagBackwardRow (c v)).pair (force (4 * e.1 + e.2))).sum =
      ∑ i ∈ range t.nBend, ∑ r : Fin 4, (bendCot t c i r).pair (force (4 * i + r)) := by
  have rows : ∀ v ∈ range t.nVerts, ((t.vBend.row v).map fun e =>
        (gatherDiagBackwardRow (c v)).pair (force (4 * e.1 + e.2))).sum =
      ((rowOf t.nBend 4 t.bendIdx v).map fun e =>
        (gatherDiagBackwardRow (c v)).pair (force (4 * e.1 + e.2))).sum :=
    fun v vertex => by rw [row_vBend inRange (mem_range.mp vertex)]
  have bound : ∀ i < t.nBend, ∀ r < 4, t.bendIdx[4 * i + r]! < t.nVerts := fun _ inside _ role =>
    inRange.stencils _ (bending_mem inside) _ (bendIdx_mem role)
  rw [sum_congr rfl rows,
    sum_rows bound fun v i r => (gatherDiagBackwardRow (c v)).pair (force (4 * i + r))]
  apply sum_congr rfl
  intro i _
  rw [sum_range]
  rfl

/-- What the gathers of a step add up to, constraint by constraint. -/
theorem sum_gathered (b : Buffers ℝ) (row : Nat → Block ℝ) :
    ∑ v ∈ range t.nVerts, (c v).pair (gathered t b v (row v)) =
      ∑ v ∈ range t.nVerts, (c v).pair (row v) +
        ∑ i ∈ range t.nSprings, (springCot t c i).pair (b.spring i) +
        ∑ i ∈ range t.nAttach, (attachCot t c i).pair (b.attach i) +
        ∑ i ∈ range t.nTri, ∑ r : Fin 3, (triCot t c i r).pair (b.tri (3 * i + r)) +
        ∑ i ∈ range t.nBend, ∑ r : Fin 4, (bendCot t c i r).pair (b.bend (4 * i + r)) := by
  simp only [gathered, pair_gatherDiagRow, pair_gatherAttachRow, pair_gatherSpringRow,
    sum_add_distrib, sum_springs inRange, sum_attachments inRange, sum_triangles inRange,
    sum_bendings inRange]

/-- What the scatter adds up to: the same without the attachments. -/
theorem sum_scattered (b : Buffers ℝ) (row : Nat → Block ℝ) :
    ∑ v ∈ range t.nVerts, (c v).pair (gatherDiagRow 4 t.vBend b.bend v
        (gatherDiagRow 3 t.vTri b.tri v (gatherSpringRow t.vSpring b.spring v (row v)))) =
      ∑ v ∈ range t.nVerts, (c v).pair (row v) +
        ∑ i ∈ range t.nSprings, (springCot t c i).pair (b.spring i) +
        ∑ i ∈ range t.nTri, ∑ r : Fin 3, (triCot t c i r).pair (b.tri (3 * i + r)) +
        ∑ i ∈ range t.nBend, ∑ r : Fin 4, (bendCot t c i r).pair (b.bend (4 * i + r)) := by
  simp only [pair_gatherDiagRow, pair_gatherSpringRow, sum_add_distrib, sum_springs inRange,
    sum_triangles inRange, sum_bendings inRange]

end Families

section AttachRows

variable {t : Topology}

/-- No two attachments name one vertex. -/
def DistinctAttachments (t : Topology) : Prop :=
  ∀ i < t.nAttach, ∀ j < t.nAttach, t.attachVert[i]! = t.attachVert[j]! → i = j

instance (t : Topology) : Decidable (DistinctAttachments t) :=
  inferInstanceAs (Decidable (∀ i < t.nAttach, ∀ j < t.nAttach, _ → _))

/-- A vertex none of the first `n` attachments names keeps its row. -/
theorem attachRows_of_notMem (inp : Inputs ℝ) (attach : Nat → Diag ℝ) {n v : Nat}
    (outside : ∀ i < n, t.attachVert[i]! ≠ v) (rows : Nat → Block ℝ) :
    attachRows t inp attach n rows v = rows v := by
  induction n with
  | zero => rfl
  | succ n ih =>
      rw [attachRows_succ, Function.update_of_ne (outside n (by omega)).symm]
      exact ih fun i inside => outside i (by omega)

/-- On distinct vertices overwriting is adding. -/
theorem sum_attachRows (inRange : t.InRange) (distinct : DistinctAttachments t) (inp : Inputs ℝ)
    (attach : Nat → Diag ℝ) (x' : Nat → Vec3 ℝ) :
    ∑ v ∈ range t.nVerts, x' v ⬝ᵥ (attachRows t inp attach t.nAttach (fun _ => ⟨0, 0⟩) v).g =
      ∑ i ∈ range t.nAttach,
        attachmentBackwardPosition (inp.attachStiff i) (attach i) ⬝ᵥ x' t.attachVert[i]! := by
  suffices first : ∀ n ≤ t.nAttach,
      ∑ v ∈ range t.nVerts, x' v ⬝ᵥ (attachRows t inp attach n (fun _ => ⟨0, 0⟩) v).g =
        ∑ i ∈ range n,
          attachmentBackwardPosition (inp.attachStiff i) (attach i) ⬝ᵥ x' t.attachVert[i]! from
    first _ le_rfl
  intro n
  induction n with
  | zero => simp [attachRows]
  | succ n ih =>
      intro bound
      have others : ∀ i < n, t.attachVert[i]! ≠ t.attachVert[n]! := by
        intro i inside same
        have := distinct i (by omega) n (by omega) same
        omega
      have fresh := attachRows_of_notMem inp attach others fun _ => ⟨0, 0⟩
      have terms : ∀ v ∈ range t.nVerts,
          x' v ⬝ᵥ (attachRows t inp attach (n + 1) (fun _ => ⟨0, 0⟩) v).g =
          x' v ⬝ᵥ (attachRows t inp attach n (fun _ => ⟨0, 0⟩) v).g +
            if t.attachVert[n]! = v then
              attachmentBackwardPosition (inp.attachStiff n) (attach n) ⬝ᵥ x' v else 0 := by
        intro v _
        rw [attachRows_succ]
        by_cases here : t.attachVert[n]! = v
        · subst here
          rw [Function.update_self, fresh, if_pos rfl, dotProduct_comm]
          simp
        · rw [Function.update_of_ne (Ne.symm here), if_neg here, add_zero]
      rw [sum_congr rfl terms, sum_add_distrib, ih (by omega), sum_range_succ, sum_ite_eq,
        if_pos (mem_range.mpr (inRange.attach n (by omega)))]

end AttachRows

section Motion

/-- The force backwards are transposes at every constraint of the mesh. -/
structure ForcesAdjoint (kernels : ForceKernels ℝ) (backward : BackwardKernels ℝ) (t : Topology)
    (inp : Inputs ℝ) (x : Nat → Vec3 ℝ) : Prop where
  spring : ∀ i < t.nSprings, SpringAdjoint kernels backward (x t.p1[i]!) (x t.p2[i]!)
    (inp.springRest i) (inp.springStiff i)
  triangle : ∀ i < t.nTri, TriangleAdjoint kernels backward (fun r => x t.triIdx[3 * i + r]!)
    (inp.triInvUV i) (inp.triStiff i) (inp.triLambda0 i) (inp.triLambda1 i)
  bending : ∀ i < t.nBend, BendingAdjoint kernels backward (fun r => x t.bendIdx[4 * i + r]!)
    (inp.bendWeight i) (inp.bendNTarget i) (inp.bendStiff i) (inp.bendLambda i)

/-- The inputs of a step in motion. The time step, the rest frames and the bending
weights stay. -/
structure Motion (t : Topology) (x : ℝ → Nat → Vec3 ℝ) (inp : ℝ → Inputs ℝ) (x' : Nat → Vec3 ℝ)
    (inp' : Inputs ℝ) : Prop where
  invHSq : ∀ τ, (inp τ).invHSq = (inp 0).invHSq
  triInvUV : ∀ τ, (inp τ).triInvUV = (inp 0).triInvUV
  bendWeight : ∀ τ, (inp τ).bendWeight = (inp 0).bendWeight
  positions : ∀ v < t.nVerts, HasDerivAt (fun τ => x τ v) (x' v) 0
  predicted : ∀ v < t.nVerts, HasDerivAt (fun τ => (inp τ).predicted v) (inp'.predicted v) 0
  mass : ∀ v < t.nVerts, HasDerivAt (fun τ => (inp τ).mass v) (inp'.mass v) 0
  springRest : ∀ i < t.nSprings, HasDerivAt (fun τ => (inp τ).springRest i) (inp'.springRest i) 0
  springStiff : ∀ i < t.nSprings, HasDerivAt (fun τ => (inp τ).springStiff i) (inp'.springStiff i) 0
  attachFixed : ∀ i < t.nAttach, HasDerivAt (fun τ => (inp τ).attachFixed i) (inp'.attachFixed i) 0
  attachStiff : ∀ i < t.nAttach, HasDerivAt (fun τ => (inp τ).attachStiff i) (inp'.attachStiff i) 0
  attachLambda : ∀ i < t.nAttach,
    HasDerivAt (fun τ => (inp τ).attachLambda i) (inp'.attachLambda i) 0
  triStiff : ∀ i < t.nTri, HasDerivAt (fun τ => (inp τ).triStiff i) (inp'.triStiff i) 0
  triLambda0 : ∀ i < t.nTri, HasDerivAt (fun τ => (inp τ).triLambda0 i) (inp'.triLambda0 i) 0
  triLambda1 : ∀ i < t.nTri, HasDerivAt (fun τ => (inp τ).triLambda1 i) (inp'.triLambda1 i) 0
  bendNTarget : ∀ i < t.nBend, HasDerivAt (fun τ => (inp τ).bendNTarget i) (inp'.bendNTarget i) 0
  bendStiff : ∀ i < t.nBend, HasDerivAt (fun τ => (inp τ).bendStiff i) (inp'.bendStiff i) 0
  bendLambda : ∀ i < t.nBend, HasDerivAt (fun τ => (inp τ).bendLambda i) (inp'.bendLambda i) 0

/-- The returned cotangents against the velocities of the inputs. -/
def Cotangents.pair (t : Topology) (c : Cotangents ℝ) (x' : Nat → Vec3 ℝ) (inp' : Inputs ℝ) : ℝ :=
  ∑ v ∈ range t.nVerts,
      ((c.posGrad v).g ⬝ᵥ x' v + (c.init v).data (inp'.predicted v) (inp'.mass v)) +
    ∑ i ∈ range t.nSprings, (c.springIn i).data (inp'.springRest i) (inp'.springStiff i) +
    ∑ i ∈ range t.nAttach,
      (c.attachIn i).data (inp'.attachFixed i) (inp'.attachLambda i) (inp'.attachStiff i) +
    ∑ i ∈ range t.nTri,
      (c.triIn i).data (inp'.triStiff i) (inp'.triLambda0 i) (inp'.triLambda1 i) +
    ∑ i ∈ range t.nBend,
      (c.bendIn i).data (inp'.bendNTarget i) (inp'.bendStiff i) (inp'.bendLambda i)

end Motion

section Velocity

variable (kernels : ForceKernels ℝ) (backward : BackwardKernels ℝ) (t : Topology)
  (x : ℝ → Nat → Vec3 ℝ) (inp : ℝ → Inputs ℝ) (x' : Nat → Vec3 ℝ) (inp' : Inputs ℝ)

/-- The velocities of the rows the kernels of a step write, each with the pairing
its backward kernel computes. The rows of `scratch` are those of `vbd_init`. -/
structure Velocities (b' : Buffers ℝ) : Prop where
  init : ∀ v < t.nVerts, Block.Moves (fun τ =>
      initRow (inp τ).invHSq (x τ v) ((inp τ).predicted v) ((inp τ).mass v)) (b'.scratch v) ∧
    ∀ c : Block ℝ,
      let out := initBackward (inp 0).invHSq (x 0 v) ((inp 0).predicted v) ((inp 0).mass v) c
      c.pair (b'.scratch v) = out.x ⬝ᵥ x' v + out.data (inp'.predicted v) (inp'.mass v)
  spring : ∀ i < t.nSprings,
    Block.Moves (fun τ => springAt kernels t (inp τ) (x τ) i) (b'.spring i) ∧
    ∀ c : Block ℝ,
      let out := backward.spring (x 0 t.p1[i]!) (x 0 t.p2[i]!) ((inp 0).springRest i)
        ((inp 0).springStiff i) c
      c.pair (b'.spring i) = out.pd ⬝ᵥ (x' t.p1[i]! - x' t.p2[i]!) +
        out.data (inp'.springRest i) (inp'.springStiff i)
  attach : ∀ i < t.nAttach, Diag.Moves (fun τ => attachAt t (inp τ) (x τ) i) (b'.attach i) ∧
    ∀ c : Diag ℝ,
      let out := attachmentBackward (x 0 t.attachVert[i]!) ((inp 0).attachFixed i)
        ((inp 0).attachStiff i) c
      c.pair (b'.attach i) =
        attachmentBackwardPosition ((inp 0).attachStiff i) c ⬝ᵥ x' t.attachVert[i]! +
          out.data (inp'.attachFixed i) (inp'.attachLambda i) (inp'.attachStiff i)
  tri : ∀ i < t.nTri,
    (∀ r : Fin 3, Diag.Moves (fun τ => triAt kernels t (inp τ) (x τ) i r) (b'.tri (3 * i + r))) ∧
    ∀ c : Fin 3 → Diag ℝ,
      let out := backward.triangle (fun r => x 0 t.triIdx[3 * i + r]!) ((inp 0).triInvUV i)
        ((inp 0).triStiff i) ((inp 0).triLambda0 i) ((inp 0).triLambda1 i) c
      ∑ r : Fin 3, (c r).pair (b'.tri (3 * i + r)) =
        ∑ r : Fin 3, out.p r ⬝ᵥ x' t.triIdx[3 * i + r]! +
          out.data (inp'.triStiff i) (inp'.triLambda0 i) (inp'.triLambda1 i)
  bend : ∀ i < t.nBend,
    (∀ r : Fin 4, Diag.Moves (fun τ => bendAt kernels t (inp τ) (x τ) i r) (b'.bend (4 * i + r))) ∧
    ∀ c : Fin 4 → Diag ℝ,
      let out := backward.bending (fun r => x 0 t.bendIdx[4 * i + r]!) ((inp 0).bendWeight i)
        ((inp 0).bendNTarget i) ((inp 0).bendStiff i) ((inp 0).bendLambda i) c
      ∑ r : Fin 4, (c r).pair (b'.bend (4 * i + r)) =
        ∑ r : Fin 4, out.p r ⬝ᵥ x' t.bendIdx[4 * i + r]! +
          out.data (inp'.bendNTarget i) (inp'.bendStiff i) (inp'.bendLambda i)

variable {kernels backward t x inp x' inp'}
variable (inRange : t.InRange) (motion : Motion t x inp x' inp')
include inRange motion

/-- Every kernel's rows have a velocity. -/
theorem exists_velocities (forces : ForcesAdjoint kernels backward t (inp 0) (x 0)) :
    ∃ b', Velocities kernels backward t x inp x' inp' b' := by
  have row : Nonempty (Block ℝ) := ⟨⟨0, 0⟩⟩
  have diag : Nonempty (Diag ℝ) := ⟨⟨0, 0⟩⟩
  have init := fun v vertex => initRow_adjoint (inp 0).invHSq (motion.positions v vertex)
    (motion.predicted v vertex) (motion.mass v vertex)
  choose! init' init using init
  have attach := fun i inside => attachmentForce_adjoint
    (motion.positions _ (inRange.attach i inside)) (motion.attachFixed i inside)
    (motion.attachStiff i inside) (motion.attachLambda i inside)
  choose! attach' attach using attach
  have spring := fun i inside => forces.spring i inside (fun τ => x τ t.p1[i]!)
    (fun τ => x τ t.p2[i]!) (fun τ => (inp τ).springRest i) (fun τ => (inp τ).springStiff i) _ _ _ _
    rfl rfl rfl rfl (motion.positions _ (spring_ends inRange inside).1)
    (motion.positions _ (spring_ends inRange inside).2) (motion.springRest i inside)
    (motion.springStiff i inside)
  choose! spring' spring using spring
  have tri := fun i inside => forces.triangle i inside (fun τ r => x τ t.triIdx[3 * i + r]!)
    (fun τ => (inp τ).triStiff i) (fun τ => (inp τ).triLambda0 i) (fun τ => (inp τ).triLambda1 i)
    _ _ _ _ rfl rfl rfl rfl (fun r => motion.positions _ (triangle_corner inRange inside r))
    (motion.triStiff i inside) (motion.triLambda0 i inside) (motion.triLambda1 i inside)
  choose! tri' tri using tri
  have bend := fun i inside => forces.bending i inside (fun τ r => x τ t.bendIdx[4 * i + r]!)
    (fun τ => (inp τ).bendNTarget i) (fun τ => (inp τ).bendStiff i)
    (fun τ => (inp τ).bendLambda i) _ _ _ _ rfl rfl rfl rfl
    (fun r => motion.positions _ (bending_corner inRange inside r)) (motion.bendNTarget i inside)
    (motion.bendStiff i inside) (motion.bendLambda i inside)
  choose! bend' bend using bend
  use ⟨x', init', spring', attach', fun slot => tri' (slot / 3) (Fin.ofNat 3 slot),
    fun slot => bend' (slot / 4) (Fin.ofNat 4 slot)⟩
  constructor
  case init => simpa only [motion.invHSq] using init
  case spring => exact spring
  case attach => exact attach
  case tri =>
    intro i inside
    simp only [slot_div, slot_mod, triAt, motion.triInvUV]
    exact tri i inside
  case bend =>
    intro i inside
    simp only [slot_div, slot_mod, bendAt, motion.bendWeight]
    exact bend i inside

omit motion in
/-- The row a vertex solves moves with what the gathers make of the velocities. -/
theorem vertexRow_moves {b' : Buffers ℝ}
    (velocities : Velocities kernels backward t x inp x' inp' b') {v : Nat} (vertex : v < t.nVerts) :
    Block.Moves (fun τ => vertexRow kernels t (inp τ) (x τ) v) (gathered t b' v (b'.scratch v)) := by
  simp only [vertexRow, gathered]
  apply Block.Moves.gatherDiag
  · intro e entry
    obtain ⟨inside, role, -⟩ := mem_row_vBend inRange vertex entry
    have moves := (velocities.bend e.1 inside).1 ⟨e.2, role⟩
    have block := slot_div e.1 (⟨e.2, role⟩ : Fin 4)
    have place := slot_mod e.1 (⟨e.2, role⟩ : Fin 4)
    simp only at block place
    rwa [block, place]
  · apply Block.Moves.gatherDiag
    · intro e entry
      obtain ⟨inside, role, -⟩ := mem_row_vTri inRange vertex entry
      have moves := (velocities.tri e.1 inside).1 ⟨e.2, role⟩
      have block := slot_div e.1 (⟨e.2, role⟩ : Fin 3)
      have place := slot_mod e.1 (⟨e.2, role⟩ : Fin 3)
      simp only at block place
      rwa [block, place]
    · apply Block.Moves.gatherAttach
      · intro e entry
        exact (velocities.attach e.1 (mem_row_vAttach inRange vertex entry).1).1
      · apply Block.Moves.gatherSpring
        · intro e entry
          exact (velocities.spring e.1 (mem_row_vSpring inRange vertex entry).1).1
        · exact (velocities.init v vertex).1

end Velocity

section Positions

variable {backward : BackwardKernels ℝ} {t : Topology} {inp : Inputs ℝ} {pre : PreStep ℝ}
  {row : Nat → Block ℝ} {vOut : Nat → Vec3 ℝ} {out : Cotangents ℝ}

/-- The returned position cotangents are the direct path, the inertial path and
what every constraint has for the vertices it names. -/
theorem sum_posGrad (inRange : t.InRange) (distinct : DistinctAttachments t)
    (returned : Returned backward t inp pre row vOut out) (x' : Nat → Vec3 ℝ) :
    ∑ v ∈ range t.nVerts, (out.posGrad v).g ⬝ᵥ x' v =
      ∑ v ∈ range t.nVerts, vOut v ⬝ᵥ x' v + ∑ v ∈ range t.nVerts, (out.init v).x ⬝ᵥ x' v +
        ∑ i ∈ range t.nSprings, (out.springIn i).pd ⬝ᵥ (x' t.p1[i]! - x' t.p2[i]!) +
        ∑ i ∈ range t.nAttach, attachmentBackwardPosition (inp.attachStiff i) (attachCot t row i) ⬝ᵥ
          x' t.attachVert[i]! +
        ∑ i ∈ range t.nTri, ∑ r : Fin 3, (out.triIn i).p r ⬝ᵥ x' t.triIdx[3 * i + r]! +
        ∑ i ∈ range t.nBend, ∑ r : Fin 4, (out.bendIn i).p r ⬝ᵥ x' t.bendIdx[4 * i + r]! := by
  -- The scatter is a gather of the velocities, read from the other side.
  have scattered := sum_scattered inRange (fun v => ⟨x' v, 0⟩) (scatterBuffers pre out)
    (attachRows t inp (attachCot t row) t.nAttach fun _ => ⟨0, 0⟩)
  simp only [Block.pair, zero_dotProduct, add_zero] at scattered
  have direct : ∀ v ∈ range t.nVerts, (out.posGrad v).g ⬝ᵥ x' v =
      vOut v ⬝ᵥ x' v + (out.init v).x ⬝ᵥ x' v +
        x' v ⬝ᵥ (gatherDiagRow 4 t.vBend (scatterBuffers pre out).bend v
          (gatherDiagRow 3 t.vTri (scatterBuffers pre out).tri v
            (gatherSpringRow t.vSpring (scatterBuffers pre out).spring v
              (attachRows t inp (attachCot t row) t.nAttach (fun _ => ⟨0, 0⟩) v)))).g := by
    intro v vertex
    rw [returned.posGrad v (mem_range.mp vertex)]
    simp only [saxpby, dotProduct, Fin.sum_univ_three]
    ring
  have springs : ∀ i, (springCot t (fun v => ⟨x' v, 0⟩) i).g ⬝ᵥ (scatterBuffers pre out |>.spring i).g +
      (springCot t (fun v => ⟨x' v, 0⟩) i).h ⬝ᵥ (scatterBuffers pre out |>.spring i).h =
      (out.springIn i).pd ⬝ᵥ (x' t.p1[i]! - x' t.p2[i]!) := by
    intro i
    simp [springCot, gatherSpringBackwardRow, scatterBuffers, dotProduct, Fin.sum_univ_succ]
    ring
  have tris : ∀ i, ∀ r : Fin 3, (triCot t (fun v => ⟨x' v, 0⟩) i r).pair
      ((scatterBuffers pre out).tri (3 * i + r)) = (out.triIn i).p r ⬝ᵥ x' t.triIdx[3 * i + r]! := by
    intro i r
    simp only [scatterBuffers, slot_div, slot_mod, triCot, gatherDiagBackwardRow, Diag.pair, trace]
    rw [dotProduct_comm]
    simp
  have bends : ∀ i, ∀ r : Fin 4, (bendCot t (fun v => ⟨x' v, 0⟩) i r).pair
      ((scatterBuffers pre out).bend (4 * i + r)) =
      (out.bendIn i).p r ⬝ᵥ x' t.bendIdx[4 * i + r]! := by
    intro i r
    simp only [scatterBuffers, slot_div, slot_mod, bendCot, gatherDiagBackwardRow, Diag.pair, trace]
    rw [dotProduct_comm]
    simp
  rw [sum_congr rfl direct, sum_add_distrib, sum_add_distrib, scattered,
    sum_attachRows inRange distinct]
  simp only [springs, tris, bends]
  ring

end Positions

section Step

variable {kernels : ForceKernels ℝ} {t : Topology}

/-- One colour over all the vertices. -/
structure OneBatch (t : Topology) : Prop where
  offsets : t.coloring.colorOffsets = #[0, t.nVerts]
  perm : t.coloring.vertPerm.toList.Perm (List.range t.nVerts)

/-- The one batch has the whole permutation. -/
theorem OneBatch.laneRows (oneBatch : OneBatch t) :
    laneRows t 0 t.nVerts = t.coloring.vertPerm.toList := by
  have size : t.coloring.vertPerm.size = t.nVerts := by simpa using oneBatch.perm.length_eq
  rw [toList_eq_map_range, size]
  rfl

variable (kernels) in
/-- With one colour a step solves every vertex from the positions before it. -/
theorem stepImpl_oneBatch (inRange : t.InRange) (oneBatch : OneBatch t) (inp : Inputs ℝ)
    (b : Buffers ℝ) {v : Nat} (vertex : v < t.nVerts) :
    (stepImpl kernels t inp b).positions v = solved kernels t inp b.positions v ∧
      (stepImpl kernels t inp b).scratch v = vertexRow kernels t inp b.positions v := by
  have lanes := oneBatch.laneRows
  have nodup : (laneRows t 0 t.nVerts).Nodup := by
    rw [lanes]
    exact oneBatch.perm.nodup_iff.mpr List.nodup_range
  have members : ∀ u, u ∈ laneRows t 0 t.nVerts ↔ u < t.nVerts := by
    intro u
    rw [lanes, oneBatch.perm.mem_iff, List.mem_range]
  have pass : stepImpl kernels t inp b = stepColor kernels t inp 0 t.nVerts b := by
    have some_ : t.nVerts ≠ 0 := by omega
    simp [stepImpl, oneBatch.offsets, some_]
  rw [pass, stepColor_eq kernels inp inRange nodup fun u lane => (members u).mp lane]
  exact ⟨Rows.rewrite_of_mem ((members v).mpr vertex) _ _,
    Rows.rewrite_of_mem ((members v).mpr vertex) _ _⟩

/-- The duals may have been updated since the step: the backward pass reads the
attachments' not at all and the others' from the copies. -/
def Inputs.withDuals (inp : Inputs ℝ) (attachLambda triLambda0 triLambda1 bendLambda : Nat → Vec3 ℝ) :
    Inputs ℝ :=
  { inp with
    attachLambda := attachLambda
    triLambda0 := triLambda0
    triLambda1 := triLambda1
    bendLambda := bendLambda }

/-- The direct path and the cotangents of the solved rows, against the velocities, are
what the backward pass returns. -/
theorem sum_pairs {backward : BackwardKernels ℝ} {b : ℝ → Buffers ℝ} {inp : ℝ → Inputs ℝ}
    {x' : Nat → Vec3 ℝ} {inp' : Inputs ℝ} {b' : Buffers ℝ} {row : Nat → Block ℝ}
    {vOut : Nat → Vec3 ℝ} {out : Cotangents ℝ}
    {attachLambda triLambda0 triLambda1 bendLambda : Nat → Vec3 ℝ}
    (inRange : t.InRange) (distinct : DistinctAttachments t)
    (velocities : Velocities kernels backward t (fun τ => (b τ).positions) inp x' inp' b')
    (returned : Returned backward t
      ((inp 0).withDuals attachLambda triLambda0 triLambda1 bendLambda) (preStep (inp 0) (b 0)) row
      vOut out) :
    ∑ v ∈ range t.nVerts, vOut v ⬝ᵥ x' v +
        ∑ v ∈ range t.nVerts, (row v).pair (gathered t b' v (b'.scratch v)) =
      out.pair t x' inp' := by
  have inits : ∀ v ∈ range t.nVerts, (row v).pair (b'.scratch v) =
      (out.init v).x ⬝ᵥ x' v + (out.init v).data (inp'.predicted v) (inp'.mass v) := by
    intro v member
    rw [(velocities.init v (mem_range.mp member)).2, returned.init v (mem_range.mp member)]
    rfl
  have springs : ∀ i ∈ range t.nSprings, (springCot t row i).pair (b'.spring i) =
      (out.springIn i).pd ⬝ᵥ (x' t.p1[i]! - x' t.p2[i]!) +
        (out.springIn i).data (inp'.springRest i) (inp'.springStiff i) := by
    intro i member
    rw [(velocities.spring i (mem_range.mp member)).2, returned.spring i (mem_range.mp member)]
    rfl
  have attachments : ∀ i ∈ range t.nAttach, (attachCot t row i).pair (b'.attach i) =
      attachmentBackwardPosition ((inp 0).attachStiff i) (attachCot t row i) ⬝ᵥ
          x' t.attachVert[i]! +
        (out.attachIn i).data (inp'.attachFixed i) (inp'.attachLambda i) (inp'.attachStiff i) := by
    intro i member
    rw [(velocities.attach i (mem_range.mp member)).2, returned.attach i (mem_range.mp member)]
    rfl
  have tris : ∀ i ∈ range t.nTri, ∑ r : Fin 3, (triCot t row i r).pair (b'.tri (3 * i + r)) =
      ∑ r : Fin 3, (out.triIn i).p r ⬝ᵥ x' t.triIdx[3 * i + r]! +
        (out.triIn i).data (inp'.triStiff i) (inp'.triLambda0 i) (inp'.triLambda1 i) := by
    intro i member
    rw [(velocities.tri i (mem_range.mp member)).2, returned.tri i (mem_range.mp member)]
    rfl
  have bends : ∀ i ∈ range t.nBend, ∑ r : Fin 4, (bendCot t row i r).pair (b'.bend (4 * i + r)) =
      ∑ r : Fin 4, (out.bendIn i).p r ⬝ᵥ x' t.bendIdx[4 * i + r]! +
        (out.bendIn i).data (inp'.bendNTarget i) (inp'.bendStiff i) (inp'.bendLambda i) := by
    intro i member
    rw [(velocities.bend i (mem_range.mp member)).2, returned.bend i (mem_range.mp member)]
    rfl
  simp only [Cotangents.pair, sum_add_distrib, sum_posGrad inRange distinct returned]
  rw [sum_gathered inRange, sum_congr rfl inits, sum_congr rfl springs, sum_congr rfl attachments,
    sum_congr rfl tris, sum_congr rfl bends]
  simp only [sum_add_distrib, Inputs.withDuals]
  ring

/-- The backward pass is the exact adjoint of the last step: along any motion of the
inputs the positions after the step move, and their velocity against an incoming
cotangent is what `stepBackward` returns against the velocities of the inputs. -/
theorem stepBackward_adjoint (kernels : ForceKernels ℝ) (backward : BackwardKernels ℝ) (t : Topology)
    (inRange : t.InRange) (oneBatch : OneBatch t) (distinct : DistinctAttachments t)
    (inp : ℝ → Inputs ℝ) (b : ℝ → Buffers ℝ) (x' : Nat → Vec3 ℝ) (inp' : Inputs ℝ)
    (motion : Motion t (fun τ => (b τ).positions) inp x' inp')
    (forces : ForcesAdjoint kernels backward t (inp 0) (b 0).positions)
    (invertible : ∀ v < t.nVerts, det ((stepImpl kernels t (inp 0) (b 0)).scratch v).h ≠ 0)
    (attachLambda triLambda0 triLambda1 bendLambda : Nat → Vec3 ℝ) :
    ∃ out' : Nat → Vec3 ℝ,
      (∀ v < t.nVerts,
        HasDerivAt (fun τ => (stepImpl kernels t (inp τ) (b τ)).positions v) (out' v) 0) ∧
      ∀ vOut : Nat → Vec3 ℝ, ∑ v ∈ range t.nVerts, vOut v ⬝ᵥ out' v =
        (stepBackward backward t
          ((inp 0).withDuals attachLambda triLambda0 triLambda1 bendLambda) (preStep (inp 0) (b 0))
          (stepImpl kernels t (inp 0) (b 0)) vOut).pair t x' inp' := by
  obtain ⟨b', velocities⟩ := exists_velocities inRange motion forces
  have step : ∀ τ, ∀ v < t.nVerts, _ := fun τ v vertex =>
    stepImpl_oneBatch kernels inRange oneBatch (inp τ) (b τ) vertex
  have solves : ∀ v < t.nVerts, _ := fun v vertex =>
    solveRow_adjoint (vertexRow_moves inRange velocities vertex)
      (by rw [← (step 0 v vertex).2]; exact invertible v vertex)
  choose! dx' moves pairs using solves
  use fun v => x' v + dx' v
  constructor
  · intro v vertex
    simp only [(step _ v vertex).1]
    exact (motion.positions v vertex).add (moves v vertex)
  intro vOut
  have returned := stepBackward_returned backward t
    ((inp 0).withDuals attachLambda triLambda0 triLambda1 bendLambda) (preStep (inp 0) (b 0)) inRange
    (stepImpl kernels t (inp 0) (b 0)) vOut
  generalize stepBackward backward t
    ((inp 0).withDuals attachLambda triLambda0 triLambda1 bendLambda) (preStep (inp 0) (b 0))
    (stepImpl kernels t (inp 0) (b 0)) vOut = out at returned ⊢
  have cot : ∀ v ∈ range t.nVerts, vOut v ⬝ᵥ dx' v =
      (cotRow (preStep (inp 0) (b 0)) (stepImpl kernels t (inp 0) (b 0)) vOut v).pair
        (gathered t b' v (b'.scratch v)) := by
    intro v member
    have vertex := mem_range.mp member
    have displacement : saxpby 1 (0 - 1) (stepImpl kernels t (inp 0) (b 0)).positions
        (b 0).positions v = solveRow (vertexRow kernels t (inp 0) (b 0).positions v) := by
      funext i
      rw [saxpby, (step 0 v vertex).1, solved]
      ring
    rw [pairs v vertex (vOut v), cotRow, (step 0 v vertex).2, preStep, displacement]
  generalize cotRow (preStep (inp 0) (b 0)) (stepImpl kernels t (inp 0) (b 0)) vOut = row
    at returned cot
  simp only [dotProduct_add, sum_add_distrib]
  rw [sum_congr rfl cot]
  exact sum_pairs inRange distinct velocities returned

/-- One spring, one of its ends attached. -/
def tethered : Topology where
  nSprings := 1
  p1 := #[0]
  p2 := #[1]
  nTri := 0
  triIdx := #[]
  nBend := 0
  bendIdx := #[]
  nVerts := 2
  nAttach := 1
  attachVert := #[0]
  coloring := ⟨#[0, 1], #[0, 2]⟩

/-- The spring's kernels; the mesh has no other constraint. -/
noncomputable def tetheredKernels : ForceKernels ℝ × BackwardKernels ℝ :=
  (⟨springForceKernel, fun _ _ _ _ _ _ => ⟨0, 0⟩, fun _ _ _ _ _ _ => ⟨0, 0⟩⟩,
    ⟨springForceBackwardKernel, fun _ _ _ _ _ _ => ⟨0, 0, 0, 0⟩, fun _ _ _ _ _ _ => ⟨0, 0, 0, 0⟩⟩)

/-- The spring stiffens while its free end moves. -/
noncomputable def tetheredInputs (τ : ℝ) : Inputs ℝ :=
  ⟨1, fun v => ![v, 0, 0], fun _ => 1, fun _ => 1 / 2, fun _ => 1 + τ, fun _ => 0, fun _ => 1,
    fun _ => 0, fun _ => 0, fun _ => 0, fun _ => 0, fun _ => 0, fun _ => 0, fun _ => 0, fun _ => 0,
    fun _ => 0⟩

/-- The free end starts on the axis and moves off it. -/
noncomputable def tetheredBuffers (τ : ℝ) : Buffers ℝ :=
  ⟨fun v => ![v, τ * v, 0], fun _ => ⟨0, 0⟩, fun _ => ⟨0, 0⟩, fun _ => ⟨0, 0⟩, fun _ => ⟨0, 0⟩,
    fun _ => ⟨0, 0⟩⟩

/-- The velocities of the moving inputs. -/
noncomputable def tetheredVelocity : Inputs ℝ :=
  ⟨0, fun _ => 0, fun _ => 0, fun _ => 0, fun _ => 1, fun _ => 0, fun _ => 0, fun _ => 0, fun _ => 0,
    fun _ => 0, fun _ => 0, fun _ => 0, fun _ => 0, fun _ => 0, fun _ => 0, fun _ => 0⟩

/-- The second point moves at its own speed. -/
theorem tethered_motion : Motion tethered (fun τ => (tetheredBuffers τ).positions) tetheredInputs
    (fun v => ![0, v, 0]) tetheredVelocity := by
  constructor
  case positions =>
    intro v _
    apply hasDerivAt_pi.mpr
    intro i
    fin_cases i
    · exact hasDerivAt_const 0 _
    · exact ((hasDerivAt_id (0 : ℝ)).mul_const (v : ℝ)).congr_deriv (one_mul _)
    · exact hasDerivAt_const 0 _
  case springStiff => exact fun _ _ => (hasDerivAt_id (0 : ℝ)).const_add 1
  all_goals intros
  all_goals first | rfl | exact hasDerivAt_const 0 _

/-- The indices of the tether are in range. -/
theorem tethered_inRange : tethered.InRange := ⟨by decide, by decide⟩

/-- The tether's backward is the adjoint of its force. -/
theorem tethered_forces : ForcesAdjoint tetheredKernels.1 tetheredKernels.2 tethered
    (tetheredInputs 0) (tetheredBuffers 0).positions := by
  constructor
  · intro i inside
    obtain rfl : i = 0 := by simpa [tethered] using inside
    apply springKernels_adjoint _ _ rfl rfl
    simp [lengthSq, tethered, tetheredBuffers]
  · exact fun i inside => absurd inside (Nat.not_lt_zero i)
  · exact fun i inside => absurd inside (Nat.not_lt_zero i)

/-- Both blocks of the tethered mesh are invertible. -/
theorem tethered_invertible {v : Nat} (vertex : v < tethered.nVerts) :
    det (vertexRow tetheredKernels.1 tethered (tetheredInputs 0) (tetheredBuffers 0).positions v).h
      ≠ 0 := by
  have springs : ∀ v < 2, rowOf tethered.nSprings 2 tethered.ends v = [(0, v)] := by decide
  have attachments : ∀ v < 2, rowOf tethered.nAttach 1 tethered.attachVert v =
      if v = 0 then [(0, 0)] else [] := by decide
  have tris : ∀ v < 2, rowOf tethered.nTri 3 tethered.triIdx v = [] := by decide
  have bends : ∀ v < 2, rowOf tethered.nBend 4 tethered.bendIdx v = [] := by decide
  have inRange := tethered_inRange
  simp only [vertexRow, gatherDiagRow, gatherAttachRow, gatherSpringRow, row_vSpring inRange vertex,
    row_vAttach inRange vertex, row_vTri inRange vertex, row_vBend inRange vertex,
    springs v vertex, attachments v vertex, tris v vertex, bends v vertex]
  obtain rfl | rfl : v = 0 ∨ v = 1 := by
    have : v < 2 := vertex
    omega
  · simp [springAt, tethered, tetheredKernels, tetheredInputs, tetheredBuffers, springForceKernel,
      attachAt, attachmentForce, addSpring, addDiag, initRow, det, adjugate, square, lengthSq]
    norm_num
  · simp [springAt, tethered, tetheredKernels, tetheredInputs, tetheredBuffers, springForceKernel,
      attachAt, attachmentForce, addSpring, addDiag, initRow, det, adjugate, square, lengthSq]

/-- A step with one spring, whose stiffness changes while its end moves. -/
theorem stepBackward_adjoint_tethered :
    ∃ out' : Nat → Vec3 ℝ,
      (∀ v < tethered.nVerts, HasDerivAt (fun τ => (stepImpl tetheredKernels.1 tethered
        (tetheredInputs τ) (tetheredBuffers τ)).positions v) (out' v) 0) ∧
      ∀ vOut : Nat → Vec3 ℝ, ∑ v ∈ range tethered.nVerts, vOut v ⬝ᵥ out' v =
        (stepBackward tetheredKernels.2 tethered ((tetheredInputs 0).withDuals 0 0 0 0)
          (preStep (tetheredInputs 0) (tetheredBuffers 0))
          (stepImpl tetheredKernels.1 tethered (tetheredInputs 0) (tetheredBuffers 0)) vOut).pair
          tethered (fun v => ![0, v, 0]) tetheredVelocity := by
  have oneBatch : OneBatch tethered := ⟨rfl, List.Perm.refl _⟩
  apply stepBackward_adjoint tetheredKernels.1 tetheredKernels.2 tethered tethered_inRange oneBatch
    (by decide) _ _ _ _ tethered_motion tethered_forces
  intro v vertex
  rw [(stepImpl_oneBatch _ tethered_inRange oneBatch _ _ vertex).2]
  exact tethered_invertible vertex

end Step

end DressOn.Avbd
