import DressOn.Avbd.Lanes

/-!
# Lanes past the count are harmless

Every lane of an unguarded kernel stays inside the padded buffers, and a lane
past the real count writes only padded rows or the dummy vertex.
-/

namespace DressOn.Avbd.Lanes

variable {m : Mesh} {vertPerm : Nat → Nat} {curved : Nat → Bool}

section Capacity

/-- The padding leaves room for the dummy vertex. -/
theorem lt_capFor (n : Nat) : n < capFor n := by
  unfold capFor
  omega

/-- Whole groups of one, three or four lanes for each element fit the capacity. -/
theorem lane_lt {k n lane : Nat} (arity : k = 1 ∨ k = 3 ∨ k = 4)
    (runs : lane < groupsFor (k * n) 64 * 64) : lane < k * capFor n := by
  unfold groupsFor at runs
  unfold capFor
  rcases arity with rfl | rfl | rfl <;> omega

/-- Whole groups of one lane for each element fit the capacity. -/
theorem lane_lt_one {n lane : Nat} (runs : lane < groupsFor n 64 * 64) : lane < capFor n := by
  rw [← Nat.one_mul n] at runs
  rw [← Nat.one_mul (capFor n)]
  exact lane_lt (Or.inl rfl) runs

/-- A padded index names a vertex or the dummy. -/
theorem makeU32Cap_le {v : Nat → Nat} {n fill : Nat} (inside : ∀ i < n, v i < fill) (i : Nat) :
    makeU32Cap v n fill i ≤ fill := by
  unfold makeU32Cap
  split
  case isTrue real => exact Nat.le_of_lt (inside i real)
  case isFalse => exact Nat.le_refl fill

/-- Past the count an index names the dummy. -/
theorem makeU32Cap_past (v : Nat → Nat) {n i : Nat} (fill : Nat) (past : n ≤ i) :
    makeU32Cap v n fill i = fill := if_neg (Nat.not_lt.mpr past)

end Capacity

section Contents

variable (m vertPerm)

/-- Every entry of an index buffer lies inside the vertex buffers. -/
theorem content_lt (i : Nat) :
    m.content vertPerm .spP1 i < capFor m.nVerts ∧ m.content vertPerm .spP2 i < capFor m.nVerts ∧
      m.content vertPerm .atVert i < capFor m.nVerts ∧
      m.content vertPerm .triIdx i < capFor m.nVerts ∧
      m.content vertPerm .bdIdx i < capFor m.nVerts := by
  have dummy := lt_capFor m.nVerts
  have p1 := makeU32Cap_le (fun i real => (m.spring_lt i real).1) i
  have p2 := makeU32Cap_le (fun i real => (m.spring_lt i real).2) i
  have attach := makeU32Cap_le m.attach_lt i
  have tri := makeU32Cap_le m.tri_lt i
  have bend := makeU32Cap_le m.bend_lt i
  exact ⟨Nat.lt_of_le_of_lt p1 dummy, Nat.lt_of_le_of_lt p2 dummy, Nat.lt_of_le_of_lt attach dummy,
    Nat.lt_of_le_of_lt tri dummy, Nat.lt_of_le_of_lt bend dummy⟩

end Contents

section Harmless

/-- The access lies inside its buffer. -/
def Access.InBounds (m : Mesh) (a : Access) : Prop :=
  (a.index + 1) * a.elem.stride ≤ m.bytes a.buffer

/-- The access writes no real row. -/
def Access.Spares (m : Mesh) (a : Access) : Prop :=
  a.write = true → m.realBytes a.buffer ≤ a.index * a.elem.stride

section Loads

variable (b : Buf) (i : Nat)

@[simp] theorem inBounds_ldU : (ldU b i).InBounds m ↔ (i + 1) * 4 ≤ m.bytes b := Iff.rfl
@[simp] theorem inBounds_ldF : (ldF b i).InBounds m ↔ (i + 1) * 4 ≤ m.bytes b := Iff.rfl
@[simp] theorem inBounds_ldV : (ldV b i).InBounds m ↔ (i + 1) * 16 ≤ m.bytes b := Iff.rfl
@[simp] theorem inBounds_stF : (stF b i).InBounds m ↔ (i + 1) * 4 ≤ m.bytes b := Iff.rfl
@[simp] theorem inBounds_stV : (stV b i).InBounds m ↔ (i + 1) * 16 ≤ m.bytes b := Iff.rfl

@[simp] theorem spares_ldU : (ldU b i).Spares m := nofun
@[simp] theorem spares_ldF : (ldF b i).Spares m := nofun
@[simp] theorem spares_ldV : (ldV b i).Spares m := nofun
@[simp] theorem spares_stF : (stF b i).Spares m ↔ m.realBytes b ≤ i * 4 :=
  ⟨fun spares => spares rfl, fun spares _ => spares⟩
@[simp] theorem spares_stV : (stV b i).Spares m ↔ m.realBytes b ≤ i * 16 :=
  ⟨fun spares => spares rfl, fun spares _ => spares⟩

end Loads

/-- What a dispatch's lanes may do. -/
structure Dispatch.Harmless (m : Mesh) (d : Dispatch) : Prop where
  inside : d.guard = none → ∀ lane < d.lanes, ∀ a ∈ d.accesses lane, a.InBounds m
  past : ∀ lane < d.lanes, d.threads ≤ lane → ∀ a ∈ d.accesses lane, a.Spares m

variable (m) in
/-- A guard at the thread count leaves the lanes past it idle. -/
theorem harmless_guarded (threads threadgroup : Nat) (body : Nat → List Access) :
    (Dispatch.mk threads threadgroup (some threads) body).Harmless m where
  inside := nofun
  past := by
    intro lane _ past a member
    rw [Dispatch.accesses] at member
    simp only [ge_iff_le, past, if_true, List.not_mem_nil] at member

/-- Without a guard every lane has to stay in bounds and spare the real rows. -/
theorem harmless_unguarded {threads : Nat} {body : Nat → List Access}
    (lanes : ∀ lane < groupsFor threads 64 * 64, ∀ a ∈ body lane,
      a.InBounds m ∧ (threads ≤ lane → a.Spares m)) :
    (unguarded threads body).Harmless m where
  inside := fun _ lane runs a member => (lanes lane runs a member).1
  past := fun lane runs past a member => (lanes lane runs a member).2 past

end Harmless

section Kernels

attribute [local simp] Mesh.bytes Mesh.realBytes unpadded rowBytes Mesh.count

/-- A lane past the springs reads the ends of a padded spring and writes its padded rows. -/
theorem springForce_harmless :
    (unguarded m.nSprings (springForce (m.content vertPerm) .positions .spP1 .spP2 .spRest .spK
      .spGradA .spHess)).Harmless m := by
  apply harmless_unguarded
  intro lane runs
  have inside := lane_lt_one runs
  have contents := content_lt m vertPerm lane
  simp [springForce, six]
  omega

/-- A lane past the attachments reads the dummy vertex and writes padded rows. -/
theorem attachmentForceAl_harmless :
    (unguarded m.nAttach (attachmentForceAl (m.content vertPerm) .positions .atVert .atFixed
      .atK .atLambda .atGradV .atHess)).Harmless m := by
  apply harmless_unguarded
  intro lane runs
  have inside := lane_lt_one runs
  have contents := content_lt m vertPerm lane
  simp [attachmentForceAl]
  omega

/-- A lane past the triangles reads the dummy vertex and writes padded rows. -/
theorem triangleMembraneForceAl_harmless :
    (unguarded m.nTri (triangleMembraneForceAl (m.content vertPerm) .positions .triIdx .triK
      .triL0 .triL1 .triGrad .triHess .triInvuv)).Harmless m := by
  apply harmless_unguarded
  intro lane runs
  have inside := lane_lt_one runs
  have contents := content_lt m vertPerm (lane * 3)
  have contents1 := content_lt m vertPerm (lane * 3 + 1)
  have contents2 := content_lt m vertPerm (lane * 3 + 2)
  simp [triangleMembraneForceAl]
  omega

/-- A lane past the bendings reads the dummy vertex and writes padded rows. -/
theorem triangleBendingForceAl_harmless :
    (unguarded m.nBend (triangleBendingForceAl (m.content vertPerm) curved .positions .bdIdx
      .bdW .bdN .bdK .bdLambda .bdGrad .bdHess)).Harmless m := by
  apply harmless_unguarded
  intro lane runs
  have inside := lane_lt_one runs
  have contents := content_lt m vertPerm (lane * 4)
  have contents1 := content_lt m vertPerm (lane * 4 + 1)
  have contents2 := content_lt m vertPerm (lane * 4 + 2)
  have contents3 := content_lt m vertPerm (lane * 4 + 3)
  cases bent : curved lane
  all_goals
    simp [triangleBendingForceAl, bendingCorners, bent]
    omega

/-- A lane past the vertices solves the block of a padded row. -/
theorem vbdSolveApplyBackward_harmless :
    (unguarded m.nVerts (vbdSolveApplyBackward .vOut .hScratch .deltaX .vG .vH)).Harmless m := by
  apply harmless_unguarded
  intro lane runs
  have inside := lane_lt_one runs
  simp [vbdSolveApplyBackward, six]
  omega

/-- A lane past the springs gathers from the dummy vertex. -/
theorem vbdGatherSpringBackward_harmless :
    (unguarded m.nSprings (vbdGatherSpringBackward (m.content vertPerm) .spP1 .spP2 .vG .vH
      .vSpringGradA .vSpringHess)).Harmless m := by
  apply harmless_unguarded
  intro lane runs
  have inside := lane_lt_one runs
  have contents := content_lt m vertPerm lane
  simp [vbdGatherSpringBackward, six]
  omega

/-- A lane past the attachments gathers from the dummy vertex. -/
theorem gatherAttachmentBackward_harmless :
    (unguarded m.nAttach (vbdGatherSlotBackward (m.content vertPerm) .atVert .vG .vH
      .vAttachGradV .vAttachHess)).Harmless m := by
  apply harmless_unguarded
  intro lane runs
  have inside := lane_lt_one runs
  have contents := content_lt m vertPerm lane
  simp [vbdGatherSlotBackward, diagonal]
  omega

/-- A lane past the corners of the triangles gathers from the dummy vertex. -/
theorem gatherTriangleBackward_harmless :
    (unguarded (3 * m.nTri) (vbdGatherSlotBackward (m.content vertPerm) .triIdx .vG .vH
      .vTriGrad .vTriHess)).Harmless m := by
  apply harmless_unguarded
  intro lane runs
  have inside := lane_lt (Or.inr (Or.inl rfl)) runs
  have contents := content_lt m vertPerm lane
  simp [vbdGatherSlotBackward, diagonal]
  omega

/-- A lane past the corners of the bendings gathers from the dummy vertex. -/
theorem gatherBendingBackward_harmless :
    (unguarded (4 * m.nBend) (vbdGatherSlotBackward (m.content vertPerm) .bdIdx .vG .vH
      .vBendGrad .vBendHess)).Harmless m := by
  apply harmless_unguarded
  intro lane runs
  have inside := lane_lt (Or.inr (Or.inr rfl)) runs
  have contents := content_lt m vertPerm lane
  simp [vbdGatherSlotBackward, diagonal]
  omega

/-- A lane past the attachments writes the row of the dummy vertex and padded rows. -/
theorem attachmentForceAlBackward_harmless :
    (unguarded m.nAttach (attachmentForceAlBackward (m.content vertPerm) .positionsPre .atVert
      .atFixed .atK .vAttachGradV .vAttachHess .vPosGrad .vAttachFixed .vAttachLambda
      .vAttachStiff)).Harmless m := by
  apply harmless_unguarded
  intro lane runs
  have inside := lane_lt_one runs
  have contents := content_lt m vertPerm lane
  have dummy : m.nAttach ≤ lane → m.content vertPerm .atVert lane = m.nVerts :=
    makeU32Cap_past m.vertIdx m.nVerts
  simp [attachmentForceAlBackward]
  omega

/-- A lane past the springs writes padded rows. -/
theorem springForceBackward_harmless :
    (unguarded m.nSprings (springForceBackward (m.content vertPerm) .positionsPre .spP1 .spP2
      .spRest .spK .vSpringGradA .vSpringHess .vSpringPd .vSpringRest .vSpringStiff)).Harmless m := by
  apply harmless_unguarded
  intro lane runs
  have inside := lane_lt_one runs
  have contents := content_lt m vertPerm lane
  simp [springForceBackward, six]
  omega

/-- A lane past the triangles writes padded rows. -/
theorem triangleMembraneForceAlBackward_harmless :
    (unguarded m.nTri (triangleMembraneForceAlBackward (m.content vertPerm) .positionsPre
      .triIdx .triK .triL0Pre .triL1Pre .triInvuv .vTriGrad .vTriHess .vTriP .vTriStiff .vTriL0
      .vTriL1)).Harmless m := by
  apply harmless_unguarded
  intro lane runs
  have inside := lane_lt_one runs
  have contents := content_lt m vertPerm (lane * 3)
  have contents1 := content_lt m vertPerm (lane * 3 + 1)
  have contents2 := content_lt m vertPerm (lane * 3 + 2)
  simp [triangleMembraneForceAlBackward]
  omega

/-- A lane past the bendings writes padded rows. -/
theorem triangleBendingForceAlBackward_harmless :
    (unguarded m.nBend (triangleBendingForceAlBackward (m.content vertPerm) curved .positionsPre
      .bdIdx .bdW .bdN .bdK .bdLambdaPre .vBendGrad .vBendHess .vBendP .vBendN .vBendStiff
      .vBendLambda)).Harmless m := by
  apply harmless_unguarded
  intro lane runs
  have inside := lane_lt_one runs
  have contents := content_lt m vertPerm (lane * 4)
  have contents1 := content_lt m vertPerm (lane * 4 + 1)
  have contents2 := content_lt m vertPerm (lane * 4 + 2)
  have contents3 := content_lt m vertPerm (lane * 4 + 3)
  cases bent : curved lane
  all_goals
    simp [triangleBendingForceAlBackward, bendingCorners, bent]
    omega

/-- A lane past the vertices writes padded rows. -/
theorem vbdInitBackward_harmless :
    (unguarded m.nVerts (vbdInitBackward .positionsPre .predicted .mass .vG .vH .vPosInit .vPred
      .vMass)).Harmless m := by
  apply harmless_unguarded
  intro lane runs
  have inside := lane_lt_one runs
  simp [vbdInitBackward, diagonal]
  omega

end Kernels

section Passes

/-- A family's dispatch, recorded or not. -/
theorem harmless_when {recorded : Prop} [Decidable recorded] {d : Dispatch}
    (harmless : d.Harmless m) : ∀ d' ∈ (if recorded then [d] else []), d'.Harmless m := by
  intro d' member
  split at member
  case isTrue =>
    obtain rfl := List.mem_singleton.mp member
    exact harmless
  case isFalse => exact absurd member List.not_mem_nil

/-- A pass of one dispatch. -/
theorem harmless_one {d : Dispatch} (harmless : d.Harmless m) : ∀ d' ∈ [d], d'.Harmless m := by
  intro d' member
  obtain rfl := List.mem_singleton.mp member
  exact harmless

/-- The kernels of a colour pass, each over its family or over the batch. -/
theorem colorPass_harmless (offset count : Nat) :
    ∀ d ∈ colorPass m vertPerm curved offset count, d.Harmless m := by
  have idle := fun body => harmless_guarded m count 64 body
  simp only [colorPass, List.forall_mem_append, and_assoc]
  exact ⟨harmless_one (idle _), harmless_when springForce_harmless,
    harmless_when attachmentForceAl_harmless, harmless_when triangleMembraneForceAl_harmless,
    harmless_when triangleBendingForceAl_harmless, harmless_when (idle _), harmless_when (idle _),
    harmless_when (idle _), harmless_when (idle _), harmless_one (idle _)⟩

/-- The colour passes of an iteration. -/
theorem recordIteration_harmless (colorOffsets : List Nat) :
    ∀ d ∈ recordIteration m vertPerm curved colorOffsets, d.Harmless m := by
  intro d member
  obtain ⟨k, _, inColor⟩ := List.mem_flatMap.mp member
  dsimp only at inColor
  split at inColor
  case isTrue => exact absurd inColor List.not_mem_nil
  case isFalse => exact colorPass_harmless _ _ d inColor

/-- The dual step of every family. -/
theorem recordDuals_harmless : ∀ d ∈ recordDuals m vertPerm curved, d.Harmless m := by
  simp only [recordDuals, List.forall_mem_append, and_assoc]
  exact ⟨harmless_when (harmless_guarded _ _ _ _), harmless_when (harmless_guarded _ _ _ _),
    harmless_when (harmless_guarded _ _ _ _)⟩

/-- The backward pass, from the solve to the scatter. -/
theorem recordBackward_harmless : ∀ d ∈ recordBackward m vertPerm curved, d.Harmless m := by
  have idle := fun body => harmless_guarded m m.nVerts 64 body
  have sums := fun x y dst => harmless_guarded m (4 * m.nVerts) 256 (saxpby x y dst)
  simp only [recordBackward, List.forall_mem_append, List.forall_mem_cons, and_assoc]
  exact ⟨sums _ _ _, vbdSolveApplyBackward_harmless, nofun,
    harmless_when vbdGatherSpringBackward_harmless, harmless_when gatherAttachmentBackward_harmless,
    harmless_when gatherTriangleBackward_harmless, harmless_when gatherBendingBackward_harmless,
    harmless_when attachmentForceAlBackward_harmless, harmless_when springForceBackward_harmless,
    harmless_when triangleMembraneForceAlBackward_harmless,
    harmless_when triangleBendingForceAlBackward_harmless, vbdInitBackward_harmless, sums _ _ _,
    nofun, harmless_when (idle _), harmless_when (idle _), harmless_when (idle _), sums _ _ _,
    nofun⟩

variable (m vertPerm curved)

/-- In every pass over every mesh and colouring, the lanes of an unguarded kernel
stay inside the buffers, and lanes past the count write no real row. -/
theorem ragged_tails_harmless (colorOffsets : List Nat) :
    ∀ d ∈ recordIteration m vertPerm curved colorOffsets ++ recordDuals m vertPerm curved ++
      recordBackward m vertPerm curved, d.Harmless m := by
  simp only [List.forall_mem_append]
  exact ⟨⟨recordIteration_harmless colorOffsets, recordDuals_harmless⟩, recordBackward_harmless⟩

/-- One spring between two vertices; 63 of its 64 lanes are past the count. -/
def oneSpring : Mesh where
  nVerts := 2
  nSprings := 1
  nAttach := 0
  nTri := 0
  nBend := 0
  p1Idx := fun _ => 0
  p2Idx := fun _ => 1
  vertIdx := fun _ => 0
  triIdx := fun _ => 0
  bendIdx := fun _ => 0
  spring_lt := fun _ _ => ⟨by decide, by decide⟩
  attach_lt := nofun
  tri_lt := nofun
  bend_lt := nofun

/-- The backward pass of one spring. -/
theorem ragged_tails_harmless_oneSpring :
    (unguarded 1 (vbdGatherSpringBackward (oneSpring.content id) .spP1 .spP2 .vG .vH
      .vSpringGradA .vSpringHess)).Harmless oneSpring :=
  ragged_tails_harmless oneSpring id (fun _ => false) [] _ (by
    simp [recordBackward, oneSpring])

end Passes

end DressOn.Avbd.Lanes
