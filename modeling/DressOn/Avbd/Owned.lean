import DressOn.Avbd.Adjoint

/-!
# A step over the owned vertices

`restrictToOwned` shortens the sweep of `AvbdCpu` to a prefix of the vertices. The backward pass
still solves the block of every vertex, and behind the prefix it finds what earlier steps left in
`hScratch_`. So what it returns is the adjoint of the shorter step just where those blocks are
invertible and no gradient behind the prefix moves.
-/

namespace DressOn.Avbd

open Finset Matrix Rows

/-- `AvbdCpu::restrictToOwned`: one batch of the first vertices. -/
def Topology.restrictToOwned (t : Topology) (nOwned : Nat) : Topology :=
  let nOwned := if t.nVerts < nOwned then t.nVerts else nOwned
  { t with coloring := ⟨Array.range nOwned, #[0, nOwned]⟩ }

section Sweep

variable {t : Topology} {nOwned : Nat}

theorem laneRows_restrictToOwned (owned : nOwned ≤ t.nVerts) :
    laneRows (t.restrictToOwned nOwned) 0 nOwned = List.range nOwned := by
  apply List.ext_getElem
  · simp [laneRows]
  · intro lane inside bound
    have vertex : lane < nOwned := by simpa [laneRows] using inside
    simp [laneRows, Topology.restrictToOwned, Nat.not_lt.mpr owned, vertex]

variable (kernels : ForceKernels ℝ) (inp : Inputs ℝ) (inRange : t.InRange)
  (owned : nOwned ≤ t.nVerts) (b : Buffers ℝ)
include inRange owned

/-- A restricted step solves the owned vertices from the positions before it. -/
theorem stepImpl_restrictToOwned :
    (stepImpl kernels (t.restrictToOwned nOwned) inp b).positions =
        rewrite (List.range nOwned) (solved kernels t inp b.positions) b.positions ∧
      (stepImpl kernels (t.restrictToOwned nOwned) inp b).scratch =
        rewrite (List.range nOwned) (vertexRow kernels t inp b.positions) b.scratch := by
  have offsets : (t.restrictToOwned nOwned).coloring.colorOffsets = #[0, nOwned] := by
    simp [Topology.restrictToOwned, Nat.not_lt.mpr owned]
  by_cases none_owned : nOwned = 0
  · subst none_owned
    have pass : stepImpl kernels (t.restrictToOwned 0) inp b = b := by simp [stepImpl, offsets]
    rw [pass]
    exact ⟨funext fun _ => (rewrite_of_notMem List.not_mem_nil _ _).symm,
      funext fun _ => (rewrite_of_notMem List.not_mem_nil _ _).symm⟩
  have inRange' : (t.restrictToOwned nOwned).InRange := ⟨inRange.stencils, inRange.attach⟩
  have lanes := laneRows_restrictToOwned owned
  have pass : stepImpl kernels (t.restrictToOwned nOwned) inp b =
      stepColor kernels (t.restrictToOwned nOwned) inp 0 nOwned b := by
    simp [stepImpl, offsets, none_owned]
  rw [pass, stepColor_eq kernels inp inRange' (lanes ▸ List.nodup_range) fun v lane => ?_, lanes]
  · exact ⟨rfl, rfl⟩
  · rw [lanes, List.mem_range] at lane
    exact lane.trans_le owned

/-- An owned vertex is solved. -/
theorem step_owned {v : Nat} (inside : v < nOwned) :
    (stepImpl kernels (t.restrictToOwned nOwned) inp b).positions v =
        solved kernels t inp b.positions v ∧
      (stepImpl kernels (t.restrictToOwned nOwned) inp b).scratch v =
        vertexRow kernels t inp b.positions v := by
  obtain ⟨positions, scratch⟩ := stepImpl_restrictToOwned kernels inp inRange owned b
  rw [positions, scratch]
  exact ⟨rewrite_of_mem (List.mem_range.mpr inside) _ _,
    rewrite_of_mem (List.mem_range.mpr inside) _ _⟩

/-- Any other vertex stays where it is, and so does its block. -/
theorem step_other {v : Nat} (outside : nOwned ≤ v) :
    (stepImpl kernels (t.restrictToOwned nOwned) inp b).positions v = b.positions v ∧
      (stepImpl kernels (t.restrictToOwned nOwned) inp b).scratch v = b.scratch v := by
  have other : v ∉ List.range nOwned := fun member =>
    Nat.not_lt.mpr outside (List.mem_range.mp member)
  obtain ⟨positions, scratch⟩ := stepImpl_restrictToOwned kernels inp inRange owned b
  rw [positions, scratch]
  exact ⟨rewrite_of_notMem other _ _, rewrite_of_notMem other _ _⟩

end Sweep

section Solve

theorem symMul_adjugate_symMul (h : Sym6 ℝ) (u : Vec3 ℝ) :
    symMul (adjugate h) (symMul h u) = fun i => det h * u i := by
  funext i
  fin_cases i <;> simp [symMul, det, adjugate] <;> ring

/-- The cotangent of the row of a vertex that did not move, by its gradient alone. -/
theorem pair_solveBackwardRow_still (vOut : Vec3 ℝ) (h : Sym6 ℝ) (row : Block ℝ) :
    (solveBackwardRow vOut h 0).pair row =
      -((fun i => 1 / det h * symMul (adjugate h) vOut i) ⬝ᵥ row.g) := by
  simp [solveBackwardRow, Block.pair, dotProduct, Fin.sum_univ_succ]

/-- Some incoming cotangent of a vertex with an invertible block has its gradient for an answer. -/
theorem pair_solveBackwardRow_symMul {h : Sym6 ℝ} (invertible : det h ≠ 0) (row : Block ℝ) :
    (solveBackwardRow (symMul h row.g) h 0).pair row = -(row.g ⬝ᵥ row.g) := by
  rw [pair_solveBackwardRow_still, symMul_adjugate_symMul]
  have solved : (fun i => 1 / det h * (det h * row.g i)) = row.g := by
    funext i
    field_simp
  rw [solved]

/-- Where nothing comes in, nothing is handed on. -/
theorem pair_solveBackwardRow_zero (h : Sym6 ℝ) (row : Block ℝ) :
    (solveBackwardRow 0 h 0).pair row = 0 := by
  rw [pair_solveBackwardRow_still]
  simp [symMul, dotProduct, Fin.sum_univ_succ]

end Solve

section Restricted

variable (kernels : ForceKernels ℝ) (backward : BackwardKernels ℝ) (t : Topology) (inp : Inputs ℝ)

/-- The gradient that the kernels make for a vertex does not move with any position. -/
def Unmoved (x : Nat → Vec3 ℝ) (v : Nat) : Prop :=
  ∀ (y : ℝ → Nat → Vec3 ℝ) (y' : Nat → Vec3 ℝ), y 0 = x →
    (∀ u < t.nVerts, HasDerivAt (fun τ => y τ u) (y' u) 0) →
      HasDerivAt (fun τ => (vertexRow kernels t inp (y τ) v).g) 0 0

variable (b : Buffers ℝ) (nOwned : Nat)

/-- After a step over the owned vertices, the backward pass divides by no zero determinant and
returns the transpose of the step's tangent map, in which the other vertices stay. -/
structure RestrictedAdjoint : Prop where
  determinants : ∀ v < t.nVerts,
    det ((stepImpl kernels (t.restrictToOwned nOwned) inp b).scratch v).h ≠ 0
  transpose : ∀ (x : ℝ → Nat → Vec3 ℝ) (x' : Nat → Vec3 ℝ), x 0 = b.positions →
    (∀ v < t.nVerts, HasDerivAt (fun τ => x τ v) (x' v) 0) →
    ∃ y' : Nat → Vec3 ℝ,
      (∀ v < t.nVerts, HasDerivAt (fun τ =>
        (stepImpl kernels (t.restrictToOwned nOwned) inp { b with positions := x τ }).positions v)
        (y' v) 0) ∧
      (∀ v, nOwned ≤ v → v < t.nVerts → y' v = x' v) ∧
      ∀ vOut : Nat → Vec3 ℝ, ∑ v ∈ range t.nVerts, vOut v ⬝ᵥ y' v =
        ∑ v ∈ range t.nVerts, ((stepBackward backward (t.restrictToOwned nOwned) inp (preStep inp b)
          (stepImpl kernels (t.restrictToOwned nOwned) inp b) vOut).posGrad v).g ⬝ᵥ x' v

variable {kernels backward t inp b nOwned}

/-- The other inputs of a step stay while its positions move. -/
theorem motion_of_positions {x : ℝ → Nat → Vec3 ℝ} {x' : Nat → Vec3 ℝ}
    (moves : ∀ v < t.nVerts, HasDerivAt (fun τ => x τ v) (x' v) 0) :
    Motion t x (fun _ => inp) x' ⟨0, 0, 0, 0, 0, 0, 0, 0, 0, 0, 0, 0, 0, 0, 0, 0⟩ := by
  constructor
  case positions => exact moves
  all_goals intros
  all_goals first | rfl | exact hasDerivAt_const 0 _

variable (kernels backward t inp b nOwned) in
/-- What a motion of the positions makes of a restricted step, and of its backward pass: the
vertices behind the prefix add what they should not. -/
structure Excess (x : ℝ → Nat → Vec3 ℝ) (x' : Nat → Vec3 ℝ) (row' : Nat → Block ℝ)
    (y' : Nat → Vec3 ℝ) : Prop where
  rows : ∀ v < t.nVerts, Block.Moves (fun τ => vertexRow kernels t inp (x τ) v) (row' v)
  positions : ∀ v < t.nVerts, HasDerivAt (fun τ =>
    (stepImpl kernels (t.restrictToOwned nOwned) inp { b with positions := x τ }).positions v)
    (y' v) 0
  stay : ∀ v, nOwned ≤ v → v < t.nVerts → y' v = x' v
  pairs : ∀ vOut : Nat → Vec3 ℝ,
    ∑ v ∈ range t.nVerts, ((stepBackward backward (t.restrictToOwned nOwned) inp (preStep inp b)
        (stepImpl kernels (t.restrictToOwned nOwned) inp b) vOut).posGrad v).g ⬝ᵥ x' v =
      ∑ v ∈ range t.nVerts, vOut v ⬝ᵥ y' v +
        ∑ v ∈ Ico nOwned t.nVerts, (solveBackwardRow (vOut v) (b.scratch v).h 0).pair (row' v)

omit b in
/-- Only the positions move, so only their cotangents pair. -/
theorem Cotangents.pair_of_positions (c : Cotangents ℝ) (x' : Nat → Vec3 ℝ) :
    c.pair t x' ⟨0, 0, 0, 0, 0, 0, 0, 0, 0, 0, 0, 0, 0, 0, 0, 0⟩ =
      ∑ v ∈ range t.nVerts, (c.posGrad v).g ⬝ᵥ x' v := by
  simp [Cotangents.pair, InitCot.data, SpringCot.data, AttachCot.data, TriCot.data, BendCot.data]

/-- The cotangent of the row of an owned vertex. -/
theorem cotRow_owned (inRange : t.InRange) (owned : nOwned ≤ t.nVerts) {v : Nat}
    (inside : v < nOwned) (vOut : Nat → Vec3 ℝ) :
    cotRow (preStep inp b) (stepImpl kernels (t.restrictToOwned nOwned) inp b) vOut v =
      solveBackwardRow (vOut v) (vertexRow kernels t inp b.positions v).h
        (solveRow (vertexRow kernels t inp b.positions v)) := by
  obtain ⟨position, row⟩ := step_owned kernels inp inRange owned b inside
  have displacement : saxpby 1 (0 - 1)
      (stepImpl kernels (t.restrictToOwned nOwned) inp b).positions b.positions v =
      solveRow (vertexRow kernels t inp b.positions v) := by
    funext i
    rw [saxpby, position, solved]
    ring
  rw [cotRow, row, preStep, displacement]

/-- The cotangent of the row of any other vertex: nothing moved, over the block left there. -/
theorem cotRow_other (inRange : t.InRange) (owned : nOwned ≤ t.nVerts) {v : Nat}
    (outside : nOwned ≤ v) (vOut : Nat → Vec3 ℝ) :
    cotRow (preStep inp b) (stepImpl kernels (t.restrictToOwned nOwned) inp b) vOut v =
      solveBackwardRow (vOut v) (b.scratch v).h 0 := by
  obtain ⟨position, row⟩ := step_other kernels inp inRange owned b outside
  have displacement : saxpby 1 (0 - 1)
      (stepImpl kernels (t.restrictToOwned nOwned) inp b).positions b.positions v = 0 := by
    funext i
    rw [saxpby, position, Pi.zero_apply]
    ring
  rw [cotRow, row, preStep, displacement]

theorem exists_excess (inRange : t.InRange) (owned : nOwned ≤ t.nVerts)
    (distinct : DistinctAttachments t) (forces : ForcesAdjoint kernels backward t inp b.positions)
    (invertible : ∀ v < nOwned, det (vertexRow kernels t inp b.positions v).h ≠ 0)
    {x : ℝ → Nat → Vec3 ℝ} {x' : Nat → Vec3 ℝ} (start : x 0 = b.positions)
    (moves : ∀ v < t.nVerts, HasDerivAt (fun τ => x τ v) (x' v) 0) :
    ∃ row' y', Excess kernels backward t inp b nOwned x x' row' y' := by
  have inRange' : (t.restrictToOwned nOwned).InRange := ⟨inRange.stencils, inRange.attach⟩
  have forces' : ForcesAdjoint kernels backward (t.restrictToOwned nOwned) inp (x 0) := by
    rw [start]
    exact ⟨forces.spring, forces.triangle, forces.bending⟩
  have motion : Motion (t.restrictToOwned nOwned) x (fun _ => inp) x' _ := motion_of_positions moves
  obtain ⟨b', velocities⟩ := exists_velocities inRange' motion forces'
  have rows : ∀ v < t.nVerts, Block.Moves (fun τ => vertexRow kernels t inp (x τ) v)
      (gathered (t.restrictToOwned nOwned) b' v (b'.scratch v)) :=
    fun v vertex => vertexRow_moves inRange' velocities vertex
  have solves : ∀ v < nOwned, _ := fun v inside =>
    solveRow_adjoint (rows v (inside.trans_le owned)) (by rw [start]; exact invertible v inside)
  choose! dx' solution pairs using solves
  use fun v => gathered (t.restrictToOwned nOwned) b' v (b'.scratch v),
    fun v => if v < nOwned then x' v + dx' v else x' v
  have back : { b with positions := x 0 } = b := by rw [start]
  constructor
  case rows => exact rows
  case positions =>
    intro v vertex
    by_cases inside : v < nOwned
    · simp only [if_pos inside, (step_owned kernels inp inRange owned _ inside).1]
      exact (moves v vertex).add (solution v inside)
    · simp only [if_neg inside, (step_other kernels inp inRange owned _ (Nat.not_lt.mp inside)).1]
      exact moves v vertex
  case stay =>
    intro v outside _
    exact if_neg (Nat.not_lt.mpr outside)
  case pairs =>
    intro vOut
    have returned := stepBackward_returned backward (t.restrictToOwned nOwned) inp (preStep inp b)
      inRange' (stepImpl kernels (t.restrictToOwned nOwned) inp b) vOut
    generalize stepBackward backward (t.restrictToOwned nOwned) inp (preStep inp b)
      (stepImpl kernels (t.restrictToOwned nOwned) inp b) vOut = out at returned ⊢
    have same : preStep inp { b with positions := x 0 } = preStep inp b := by rw [back]
    rw [← same] at returned
    have total : ∑ v ∈ range t.nVerts, vOut v ⬝ᵥ x' v +
        ∑ v ∈ range t.nVerts, (cotRow (preStep inp b)
          (stepImpl kernels (t.restrictToOwned nOwned) inp b) vOut v).pair
            (gathered (t.restrictToOwned nOwned) b' v (b'.scratch v)) =
        ∑ v ∈ range t.nVerts, (out.posGrad v).g ⬝ᵥ x' v := by
      rw [← same, ← @Cotangents.pair_of_positions t out x']
      exact @sum_pairs kernels (t.restrictToOwned nOwned) _ (fun τ => { b with positions := x τ })
        _ _ _ _ _ _ _ _ _ _ _ inRange' distinct velocities returned
    have owns : ∀ v ∈ range nOwned, (cotRow (preStep inp b)
        (stepImpl kernels (t.restrictToOwned nOwned) inp b) vOut v).pair
          (gathered (t.restrictToOwned nOwned) b' v (b'.scratch v)) = vOut v ⬝ᵥ dx' v := by
      intro v member
      have inside := mem_range.mp member
      rw [cotRow_owned inRange owned inside, pairs v inside, start]
    have others : ∀ v ∈ Ico nOwned t.nVerts, (cotRow (preStep inp b)
        (stepImpl kernels (t.restrictToOwned nOwned) inp b) vOut v).pair
          (gathered (t.restrictToOwned nOwned) b' v (b'.scratch v)) =
        (solveBackwardRow (vOut v) (b.scratch v).h 0).pair
          (gathered (t.restrictToOwned nOwned) b' v (b'.scratch v)) := by
      intro v member
      rw [cotRow_other inRange owned (mem_Ico.mp member).1]
    have splits : ∀ f : Nat → ℝ, ∑ v ∈ range t.nVerts, f v =
        ∑ v ∈ range nOwned, f v + ∑ v ∈ Ico nOwned t.nVerts, f v :=
      fun f => (sum_range_add_sum_Ico f owned).symm
    have ownMoved : ∀ v ∈ range nOwned, vOut v ⬝ᵥ (if v < nOwned then x' v + dx' v else x' v) =
        vOut v ⬝ᵥ x' v + vOut v ⬝ᵥ dx' v := by
      intro v member
      rw [if_pos (mem_range.mp member), dotProduct_add]
    have otherMoved : ∀ v ∈ Ico nOwned t.nVerts,
        vOut v ⬝ᵥ (if v < nOwned then x' v + dx' v else x' v) = vOut v ⬝ᵥ x' v := by
      intro v member
      rw [if_neg (Nat.not_lt.mpr (mem_Ico.mp member).1)]
    rw [splits (fun v => (cotRow _ _ _ v).pair _), sum_congr rfl owns, sum_congr rfl others,
      splits fun v => vOut v ⬝ᵥ x' v] at total
    rw [← total, splits, sum_congr rfl ownMoved, sum_congr rfl otherMoved, sum_add_distrib]
    ring

/-- The answers of the vertices behind the prefix vanish for every incoming cotangent just where
their gradients stay. -/
theorem excess_zero_iff {row' : Nat → Block ℝ}
    (invertible : ∀ v, nOwned ≤ v → v < t.nVerts → det (b.scratch v).h ≠ 0) :
    (∀ vOut : Nat → Vec3 ℝ, ∑ v ∈ Ico nOwned t.nVerts,
        (solveBackwardRow (vOut v) (b.scratch v).h 0).pair (row' v) = 0) ↔
      ∀ v, nOwned ≤ v → v < t.nVerts → (row' v).g = 0 := by
  constructor
  · intro vanishes v outside vertex
    have member : v ∈ Ico nOwned t.nVerts := mem_Ico.mpr ⟨outside, vertex⟩
    have answer := vanishes (Function.update 0 v (symMul (b.scratch v).h (row' v).g))
    rw [sum_eq_single_of_mem v member, Function.update_self,
      pair_solveBackwardRow_symMul (invertible v outside vertex)] at answer
    · exact dotProduct_self_eq_zero.mp (neg_eq_zero.mp answer)
    · intro u _ other
      rw [Function.update_of_ne other]
      exact pair_solveBackwardRow_zero _ _
  · intro still vOut
    apply sum_eq_zero
    intro v member
    obtain ⟨outside, vertex⟩ := mem_Ico.mp member
    rw [pair_solveBackwardRow_still, still v outside vertex, dotProduct_zero, neg_zero]

/-- After `restrictToOwned` and a step, the backward pass divides by no zero and is the adjoint of
that step exactly where the owned blocks and the blocks left behind the prefix are invertible and
no position moves a gradient behind the prefix. -/
theorem restrictedAdjoint_iff (kernels : ForceKernels ℝ) (backward : BackwardKernels ℝ)
    (t : Topology) (inRange : t.InRange) (distinct : DistinctAttachments t) (nOwned : Nat)
    (owned : nOwned ≤ t.nVerts) (inp : Inputs ℝ) (b : Buffers ℝ)
    (forces : ForcesAdjoint kernels backward t inp b.positions) :
    RestrictedAdjoint kernels backward t inp b nOwned ↔
      (∀ v < nOwned, det (vertexRow kernels t inp b.positions v).h ≠ 0) ∧
        ∀ v, nOwned ≤ v → v < t.nVerts →
          det (b.scratch v).h ≠ 0 ∧ Unmoved kernels t inp b.positions v := by
  constructor
  · intro adjoint
    have own : ∀ v < nOwned, det (vertexRow kernels t inp b.positions v).h ≠ 0 := by
      intro v inside
      rw [← (step_owned kernels inp inRange owned b inside).2]
      exact adjoint.determinants v (inside.trans_le owned)
    have other : ∀ v, nOwned ≤ v → v < t.nVerts → det (b.scratch v).h ≠ 0 := by
      intro v outside vertex
      rw [← (step_other kernels inp inRange owned b outside).2]
      exact adjoint.determinants v vertex
    refine ⟨own, fun v outside vertex => ⟨other v outside vertex, ?_⟩⟩
    intro x x' start moves
    obtain ⟨row', y', excess⟩ := exists_excess inRange owned distinct forces own start moves
    obtain ⟨velocity, solution, -, pairs⟩ := adjoint.transpose x x' start moves
    have same : ∀ u ∈ range t.nVerts, velocity u = y' u := fun u member =>
      (solution u (mem_range.mp member)).unique (excess.positions u (mem_range.mp member))
    have vanishes : ∀ vOut : Nat → Vec3 ℝ, ∑ u ∈ Ico nOwned t.nVerts,
        (solveBackwardRow (vOut u) (b.scratch u).h 0).pair (row' u) = 0 := by
      intro vOut
      have total := excess.pairs vOut
      rw [← pairs vOut, sum_congr rfl fun u member => by rw [same u member]] at total
      exact left_eq_add.mp total
    have still := (excess_zero_iff other).mp vanishes v outside vertex
    rw [← still]
    exact (excess.rows v vertex).1
  · rintro ⟨own, behind⟩
    constructor
    case determinants =>
      intro v vertex
      by_cases inside : v < nOwned
      · rw [(step_owned kernels inp inRange owned b inside).2]
        exact own v inside
      · rw [(step_other kernels inp inRange owned b (Nat.not_lt.mp inside)).2]
        exact (behind v (Nat.not_lt.mp inside) vertex).1
    case transpose =>
      intro x x' start moves
      obtain ⟨row', y', excess⟩ := exists_excess inRange owned distinct forces own start moves
      refine ⟨y', excess.positions, excess.stay, fun vOut => ?_⟩
      have still : ∀ v, nOwned ≤ v → v < t.nVerts → (row' v).g = 0 := fun v outside vertex =>
        (excess.rows v vertex).1.unique ((behind v outside vertex).2 x x' start moves)
      have blocks : ∀ v, nOwned ≤ v → v < t.nVerts → det (b.scratch v).h ≠ 0 :=
        fun v outside vertex => (behind v outside vertex).1
      rw [excess.pairs vOut, (excess_zero_iff blocks).mpr still vOut, add_zero]

/-- A tethered spring and a vertex behind it that no constraint names. -/
def trailing : Topology := { tethered with nVerts := 3, coloring := ⟨#[0, 1, 2], #[0, 3]⟩ }

/-- The vertex behind has no mass. -/
noncomputable def trailingInputs : Inputs ℝ :=
  { tetheredInputs 0 with mass := fun v => if v < 2 then 1 else 0 }

/-- An earlier step has left the identity as every block. -/
noncomputable def trailingBuffers : Buffers ℝ :=
  { tetheredBuffers 0 with scratch := fun _ => ⟨0, ![1, 0, 0, 1, 0, 1]⟩ }

theorem trailing_inRange : trailing.InRange := ⟨by decide, by decide⟩

/-- The rows of the three vertices. -/
theorem trailing_rows {v : Nat} (vertex : v < trailing.nVerts) :
    trailing.vSpring.row v = (if v < 2 then [(0, v)] else []) ∧
      trailing.vAttach.row v = (if v = 0 then [(0, 0)] else []) ∧
      trailing.vTri.row v = [] ∧ trailing.vBend.row v = [] := by
  have inRange := trailing_inRange
  rw [row_vSpring inRange vertex, row_vAttach inRange vertex, row_vTri inRange vertex,
    row_vBend inRange vertex]
  revert v
  show ∀ v < 3, _
  decide

/-- The blocks of the owned vertices are invertible. -/
theorem trailing_invertible {v : Nat} (inside : v < 2) :
    det (vertexRow tetheredKernels.1 trailing trailingInputs trailingBuffers.positions v).h ≠ 0 := by
  obtain ⟨springs, attachments, tris, bends⟩ :=
    trailing_rows (inside.trans (by decide : 2 < trailing.nVerts))
  simp only [vertexRow, gatherDiagRow, gatherAttachRow, gatherSpringRow, springs, attachments, tris,
    bends]
  obtain rfl | rfl : v = 0 ∨ v = 1 := by omega
  · simp [springAt, trailing, tethered, tetheredKernels, trailingInputs, tetheredInputs,
      trailingBuffers, tetheredBuffers, springForceKernel, attachAt, attachmentForce, addSpring,
      addDiag, initRow, det, adjugate, square, lengthSq]
    norm_num
  · simp [springAt, trailing, tethered, tetheredKernels, trailingInputs, tetheredInputs,
      trailingBuffers, tetheredBuffers, springForceKernel, addSpring, initRow, det, adjugate, square,
      lengthSq]

/-- Nothing pulls at the vertex behind. -/
theorem trailing_still (x : Nat → Vec3 ℝ) :
    (vertexRow tetheredKernels.1 trailing trailingInputs x 2).g = 0 := by
  obtain ⟨springs, attachments, tris, bends⟩ := trailing_rows (v := 2) (by decide)
  simp only [vertexRow, gatherDiagRow, gatherAttachRow, gatherSpringRow, springs, attachments, tris,
    bends]
  funext i
  simp [initRow, trailingInputs]

/-- The first two vertices are owned, and the one behind them has an old block and no mass: the
backward pass is the adjoint. -/
theorem restrictedAdjoint_trailing :
    RestrictedAdjoint tetheredKernels.1 tetheredKernels.2 trailing trailingInputs trailingBuffers 2 := by
  have forces : ForcesAdjoint tetheredKernels.1 tetheredKernels.2 trailing trailingInputs
      trailingBuffers.positions :=
    ⟨tethered_forces.spring, tethered_forces.triangle, tethered_forces.bending⟩
  apply (restrictedAdjoint_iff tetheredKernels.1 tetheredKernels.2 trailing trailing_inRange
    (by decide) 2 (by decide) trailingInputs trailingBuffers forces).mpr
  refine ⟨fun v inside => trailing_invertible inside, fun v outside vertex => ?_⟩
  obtain rfl : v = 2 := Nat.le_antisymm (Nat.le_of_lt_succ vertex) outside
  constructor
  · simp [trailingBuffers, det, adjugate]
  · intro y y' _ _
    simp only [trailing_still]
    exact hasDerivAt_const 0 0

/-- On a new mesh of two vertices of which one is owned the backward pass divides by the zero
determinant of the other. -/
theorem tethered_not_restrictedAdjoint :
    tethered.InRange ∧ DistinctAttachments tethered ∧ 1 ≤ tethered.nVerts ∧
      ForcesAdjoint tetheredKernels.1 tetheredKernels.2 tethered (tetheredInputs 0)
        (tetheredBuffers 0).positions ∧
      ¬ RestrictedAdjoint tetheredKernels.1 tetheredKernels.2 tethered (tetheredInputs 0)
        (tetheredBuffers 0) 1 := by
  refine ⟨tethered_inRange, by decide, by decide, tethered_forces, fun adjoint => ?_⟩
  apply adjoint.determinants 1 (by decide)
  rw [(step_other tetheredKernels.1 (tetheredInputs 0) tethered_inRange (by decide) _ le_rfl).2]
  simp [tetheredBuffers, det, adjugate]

end Restricted

end DressOn.Avbd
