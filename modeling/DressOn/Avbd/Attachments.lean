import Mathlib.Algebra.Ring.CharZero
import Mathlib.Algebra.Field.Basic
import Mathlib.Algebra.Field.Rat
import Mathlib.Algebra.BigOperators.Pi
import Mathlib.Tactic.FinCases
import Mathlib.Tactic.NormNum
import Mathlib.Tactic.Ring
import DressOn.Avbd.Transpose
import DressOn.Lib.Overwrites

/-!
# Several attachments on one vertex

`attachment_force_al_backward` overwrites the position row of its vertex, so the
last lane on a vertex decides what stays there. The lanes run in any order.
-/

namespace DressOn.Avbd

open Overwrites Rows

section Lanes

variable {α : Type*} [Zero α] [Add α] [Sub α] [Mul α]
variable (backward : BackwardKernels α) (t : Topology) (inp : Inputs α) (pre : PreStep α)

/-- The vertex of an attachment. -/
def attachedTo (c : Nat) : Nat := t.attachVert[c]!

/-- The attachments on vertex `v`. -/
def attachmentsOn (v : Nat) : List Nat := writers (attachedTo t) (List.range t.nAttach) v

/-- What attachment `c` has for the position of its vertex. -/
def attachmentPart (out : Cotangents α) (c : Nat) : Vec3 α :=
  attachmentBackwardPosition (inp.attachStiff c) (out.attach c)

/-- A dispatch keeps what its lanes keep. -/
theorem dispatch_kept {σ β : Type*} (n : Nat) (lane : Nat → σ → σ) (view : σ → β)
    (kept : ∀ i st, view (lane i st) = view st) (st : σ) : view (dispatch n lane st) = view st := by
  unfold dispatch
  induction List.range n generalizing st with
  | nil => rfl
  | cons i rest ih => rw [List.foldl_cons, ih, kept]

/-- After the attachments' lanes a position row holds what the last lane on it wrote. -/
theorem foldl_attachments (order : List Nat) (c : Cotangents α) :
    (order.foldl (fun c i => attachmentForceAlBackward t inp pre i c) c).attach = c.attach ∧
      ∀ v, ((order.foldl (fun c i => attachmentForceAlBackward t inp pre i c) c).posGrad v).g =
        overwrite (attachedTo t) (attachmentPart inp c) order (fun v => (c.posGrad v).g) v := by
  induction order using List.reverseRecOn with
  | nil => exact ⟨rfl, fun _ => rfl⟩
  | append_singleton order i ih =>
      rw [List.foldl_append, List.foldl_cons, List.foldl_nil]
      generalize order.foldl (fun c i => attachmentForceAlBackward t inp pre i c) c = before at ih
      obtain ⟨attach, rows⟩ := ih
      constructor
      · exact attach
      · intro v
        rw [overwrite, List.foldl_append, List.foldl_cons, List.foldl_nil]
        by_cases here : v = attachedTo t i
        · subst here
          simp [attachmentForceAlBackward, attachedTo, attachmentPart, attach]
        · have other : v ≠ t.attachVert[i]! := here
          rw [Function.update_of_ne here]
          exact (by simp [attachmentForceAlBackward, other] :
            ((attachmentForceAlBackward t inp pre i before).posGrad v).g = _).trans (rows v)

/-- The force backwards after the attachments'. -/
def otherForcesBackward (c : Cotangents α) : Cotangents α :=
  let c := dispatchIf t.nSprings t.nSprings (springForceBackward backward t inp pre) c
  let c := dispatchIf t.nTri t.nTri (triangleMembraneForceAlBackward backward t inp pre) c
  dispatchIf t.nBend t.nBend (triangleBendingForceAlBackward backward t inp pre) c

/-- The later passes leave the attachments' cotangents and the position rows alone. -/
theorem later_kept {β : Type*} (view : Cotangents α → β)
    (spring : ∀ i c, view (springForceBackward backward t inp pre i c) = view c)
    (tri : ∀ i c, view (triangleMembraneForceAlBackward backward t inp pre i c) = view c)
    (bend : ∀ i c, view (triangleBendingForceAlBackward backward t inp pre i c) = view c)
    (init : ∀ v c, view (vbdInitBackward inp pre v c) = view c) (c : Cotangents α) :
    view (dispatch t.nVerts (vbdInitBackward inp pre) (otherForcesBackward backward t inp pre c)) =
      view c := by
  simp only [otherForcesBackward, dispatchIf_self]
  rw [dispatch_kept _ _ view init, dispatch_kept _ _ view bend, dispatch_kept _ _ view tri,
    dispatch_kept _ _ view spring]

variable [One α] [Div α] [NatCast α]

/-- The passes of `stepBackward` before the scatter, with the lanes of
`attachment_force_al_backward` in the given order. -/
def beforeScatterIn (order : List Nat) (b : Buffers α) (vOut : Nat → Vec3 α) : Cotangents α :=
  let deltaX := saxpby 1 (0 - 1) b.positions pre.positions
  let c := dispatch t.nVerts (vbdSolveApplyBackward vOut deltaX fun v => (b.scratch v).h) .zero
  let c := gatherBackwardPass t c
  let c := order.foldl (fun c i => attachmentForceAlBackward t inp pre i c) c
  let c := otherForcesBackward backward t inp pre c
  dispatch t.nVerts (vbdInitBackward inp pre) c

/-- `stepBackward` with the lanes of `attachment_force_al_backward` in the given order. -/
def stepBackwardIn (order : List Nat) (b : Buffers α) (vOut : Nat → Vec3 α) : Cotangents α :=
  let c := scatterPass t pre (beforeScatterIn backward t inp pre order b vOut)
  let vPosSum := saxpby 1 1 (fun v => (c.init v).x) vOut
  { c with posGrad := fun v => ⟨saxpby 1 1 (fun v => (c.posGrad v).g) vPosSum v, (c.posGrad v).h⟩ }

/-- No vertex has a singular block. -/
def Regular (b : Buffers α) : Prop := ∀ v < t.nVerts, det (b.scratch v).h ≠ 0

instance [DecidableEq α] (b : Buffers α) : Decidable (Regular t b) :=
  inferInstanceAs (Decidable (∀ v < t.nVerts, det (b.scratch v).h ≠ 0))

/-- What `stepBackward` answers. `vbd_solve_apply_backward` divides by the determinant of every
vertex's block without a look at it: by a zero no number is answered. -/
def answerIn [DecidableEq α] (order : List Nat) (b : Buffers α) (vOut : Nat → Vec3 α) :
    Option (Cotangents α) :=
  if Regular t b then some (stepBackwardIn backward t inp pre order b vOut) else none

/-- The source's order is one of them. -/
theorem stepBackwardIn_range (b : Buffers α) (vOut : Nat → Vec3 α) :
    stepBackwardIn backward t inp pre (List.range t.nAttach) b vOut =
      stepBackward backward t inp pre b vOut := by
  simp only [stepBackward, stepBackwardIn, beforeScatterIn, forceBackwardPass,
    otherForcesBackward, dispatchIf_self]
  rfl

/-- What the scatters and the epilogue have for the position of vertex `v`. -/
def otherParts (out : Cotangents α) (vOut : Nat → Vec3 α) (v : Nat) : Vec3 α :=
  (gatherDiagRow 4 t.vBend (scatterBuffers pre out).bend v
    (gatherDiagRow 3 t.vTri (scatterBuffers pre out).tri v
      (gatherSpringRow t.vSpring (scatterBuffers pre out).spring v ⟨0, 0⟩))).g +
    ((out.init v).x + vOut v)

end Lanes

section Field

variable {α : Type*} [Field α]
variable (backward : BackwardKernels α) (t : Topology) (inp : Inputs α) (pre : PreStep α)

/-- A loop whose turns add to the gradient. -/
theorem g_foldl {ι : Type*} (turn : Block α → ι → Block α) (part : ι → Vec3 α)
    (adds : ∀ row e, (turn row e).g = row.g + part e) (items : List ι) (row : Block α) :
    (items.foldl turn row).g = row.g + (items.map part).sum := by
  induction items generalizing row with
  | nil => simp
  | cons e rest ih => rw [List.foldl_cons, ih, adds, List.map_cons, List.sum_cons, add_assoc]

/-- A gather adds to the row it finds. -/
theorem g_gatherSpringRow (csr : Csr) (spring : Nat → Block α) (v : Nat) (row : Block α) :
    (gatherSpringRow csr spring v row).g =
      row.g + (gatherSpringRow csr spring v ⟨0, 0⟩).g := by
  have parts := g_foldl (fun row e => addSpring e.2 row (spring e.1))
    (fun e : Nat × Nat => fun i => (1 - ((2 : Nat) : α) * (e.2 : α)) * (spring e.1).g i)
    (fun _ _ => rfl) (csr.row v)
  simp only [gatherSpringRow, parts, zero_add]

theorem g_gatherDiagRow (K : Nat) (csr : Csr) (force : Nat → Diag α) (v : Nat) (row : Block α) :
    (gatherDiagRow K csr force v row).g =
      row.g + (gatherDiagRow K csr force v ⟨0, 0⟩).g := by
  have parts := g_foldl (fun row e => addDiag row (force (K * e.1 + e.2)))
    (fun e : Nat × Nat => (force (K * e.1 + e.2)).g) (fun _ _ => rfl) (csr.row v)
  simp only [gatherDiagRow, parts, zero_add]

/-- The rows the scatter starts from. -/
theorem beforeScatterIn_posGrad (order : List Nat) (b : Buffers α) (vOut : Nat → Vec3 α) (v : Nat) :
    let before := beforeScatterIn backward t inp pre order b vOut
    (before.posGrad v).g =
      overwrite (attachedTo t) (attachmentPart inp before) order (fun _ => 0) v := by
  intro before
  let deltaX := saxpby 1 (0 - 1) b.positions pre.positions
  let gathered := gatherBackwardPass t
    (dispatch t.nVerts (vbdSolveApplyBackward vOut deltaX fun v => (b.scratch v).h) .zero)
  obtain ⟨attach, rows⟩ := foldl_attachments t inp pre order gathered
  have empty : ∀ v, (gathered.posGrad v).g = 0 := by
    intro v
    simp only [gathered, gatherBackwardPass_eq, solveBackward_eq]
    rfl
  have keptAttach : before.attach = gathered.attach :=
    (later_kept backward t inp pre (fun c => c.attach) (fun _ _ => rfl) (fun _ _ => rfl)
      (fun _ _ => rfl) (fun _ _ => rfl) _).trans attach
  have keptRows : before.posGrad =
      (order.foldl (fun c i => attachmentForceAlBackward t inp pre i c) gathered).posGrad :=
    later_kept backward t inp pre (fun c => c.posGrad) (fun _ _ => rfl) (fun _ _ => rfl)
      (fun _ _ => rfl) (fun _ _ => rfl) _
  have parts : attachmentPart inp before = attachmentPart inp gathered := by
    funext c
    rw [attachmentPart, attachmentPart, keptAttach]
  rw [keptRows, rows, parts]
  simp only [empty]

/-- The returned position cotangent: what the last attachment lane on the vertex
left, and the other parts. -/
theorem stepBackwardIn_posGrad (inRange : t.InRange) (order : List Nat) (b : Buffers α)
    (vOut : Nat → Vec3 α) {v : Nat} (vertex : v < t.nVerts) :
    let out := stepBackwardIn backward t inp pre order b vOut
    (out.posGrad v).g =
      overwrite (attachedTo t) (attachmentPart inp out) order (fun _ => 0) v +
        otherParts t pre out vOut v := by
  have rows := beforeScatterIn_posGrad backward t inp pre order b vOut v
  simp only [stepBackwardIn, scatterPass_eq t pre inRange] at rows ⊢
  generalize beforeScatterIn backward t inp pre order b vOut = before at rows ⊢
  ext i
  -- the scatter and the epilogue change nothing but the position rows
  change _ = overwrite (attachedTo t) (attachmentPart inp before) order (fun _ => 0) v i +
    otherParts t pre before vOut v i
  simp only [saxpby, rewrite_of_mem (List.mem_range.mpr vertex), otherParts]
  rw [g_gatherDiagRow 4 _ _ _ (gatherDiagRow _ _ _ _ _),
    g_gatherDiagRow 3 _ _ _ (gatherSpringRow _ _ _ _), g_gatherSpringRow, rows,
    g_gatherDiagRow 4 _ _ _ (gatherDiagRow _ _ _ _ _),
    g_gatherDiagRow 3 _ _ _ (gatherSpringRow _ _ _ ⟨0, 0⟩)]
  simp only [Pi.add_apply]
  ring

/-- What every attachment of a vertex sees: the cotangent of the row it solved. -/
theorem stepBackwardIn_attach (inRange : t.InRange) (order : List Nat) (b : Buffers α)
    (vOut : Nat → Vec3 α) {c : Nat} (inside : c < t.nAttach) :
    (stepBackwardIn backward t inp pre order b vOut).attach c =
      attachCot t (cotRow pre b vOut) c := by
  simp only [stepBackwardIn, scatterPass_eq t pre inRange, beforeScatterIn]
  rw [later_kept backward t inp pre (fun c => c.attach) (fun _ _ => rfl) (fun _ _ => rfl)
    (fun _ _ => rfl) (fun _ _ => rfl), (foldl_attachments t inp pre order _).1,
    gatherBackwardPass_eq, solveBackward_eq]
  simp only [if_pos inside, if_pos (inRange.attach c inside)]
  rfl

/-- A regular block sends only the zero cotangent to zero. -/
theorem symMul_adjugate_eq_zero_iff {h : Sym6 α} (regular : det h ≠ 0) (u : Vec3 α) :
    symMul (adjugate h) u = 0 ↔ u = 0 := by
  constructor
  · intro zero
    have back : ∀ i, det h * u i = symMul h (symMul (adjugate h) u) i := by
      intro i
      fin_cases i <;> simp [symMul, adjugate, det] <;> ring
    ext i
    have product := back i
    rw [zero] at product
    have none : symMul h (0 : Vec3 α) i = 0 := by
      fin_cases i <;> simp [symMul]
    exact (mul_eq_zero.mp (product.trans none)).resolve_left regular
  · rintro rfl
    ext i
    fin_cases i <;> simp [symMul]

/-- The solve of a regular block hands no gradient on exactly when none comes in. -/
theorem g_cotRow_eq_zero_iff (b : Buffers α) (vOut : Nat → Vec3 α) {v : Nat}
    (regular : det (b.scratch v).h ≠ 0) : (cotRow pre b vOut v).g = 0 ↔ vOut v = 0 := by
  rw [← symMul_adjugate_eq_zero_iff regular (vOut v)]
  simp only [funext_iff, cotRow, solveBackwardRow, Pi.zero_apply, zero_sub, neg_eq_zero,
    mul_eq_zero, one_div, inv_eq_zero, regular, false_or]

variable {t}

theorem mem_attachmentsOn {v c : Nat} :
    c ∈ attachmentsOn t v ↔ c < t.nAttach ∧ t.attachVert[c]! = v := by
  rw [attachmentsOn, writers, List.mem_filter, List.mem_range, decide_eq_true_iff]
  rfl

variable (t)

/-- The returned cotangent of a vertex contains the sum over its attachments. -/
def AddsUp (out : Cotangents α) (vOut : Nat → Vec3 α) (v : Nat) : Prop :=
  (out.posGrad v).g =
    ((attachmentsOn t v).map (attachmentPart inp out)).sum + otherParts t pre out vOut v

/-- What attachment `c` has for its vertex, whatever the order of the lanes. -/
def attachmentValue (b : Buffers α) (vOut : Nat → Vec3 α) (c : Nat) : Vec3 α :=
  attachmentBackwardPosition (inp.attachStiff c) (attachCot t (cotRow pre b vOut) c)

theorem addsUp_iff (inRange : t.InRange) {order : List Nat}
    (lanes : order.Perm (List.range t.nAttach)) (b : Buffers α) (vOut : Nat → Vec3 α) {v : Nat}
    (vertex : v < t.nVerts) :
    AddsUp t inp pre (stepBackwardIn backward t inp pre order b vOut) vOut v ↔
      overwrite (attachedTo t) (attachmentValue t inp pre b vOut) order (fun _ => 0) v =
        ((attachmentsOn t v).map (attachmentValue t inp pre b vOut)).sum := by
  have part : ∀ c < t.nAttach, attachmentPart inp
      (stepBackwardIn backward t inp pre order b vOut) c = attachmentValue t inp pre b vOut c := by
    intro c inside
    rw [attachmentPart, attachmentValue,
      stepBackwardIn_attach backward t inp pre inRange order b vOut inside]
  have terms : (attachmentsOn t v).map
      (attachmentPart inp (stepBackwardIn backward t inp pre order b vOut)) =
        (attachmentsOn t v).map (attachmentValue t inp pre b vOut) :=
    List.map_congr_left fun c member => part c (mem_attachmentsOn.mp member).1
  have parts : ∀ c ∈ order, attachmentPart inp
      (stepBackwardIn backward t inp pre order b vOut) c = attachmentValue t inp pre b vOut c :=
    fun c member => part c (List.mem_range.mp (lanes.mem_iff.mp member))
  have rows := overwrite_congr (attachedTo t)
    (attachmentPart inp (stepBackwardIn backward t inp pre order b vOut)) parts
    fun _ => (0 : Vec3 α)
  rw [AddsUp, stepBackwardIn_posGrad backward t inp pre inRange order b vOut vertex, rows, terms]
  exact add_left_inj _

/-- The attachments of a vertex contribute nothing exactly when they are slack or
the vertex's solve hands nothing on. -/
theorem attachmentValue_eq_zero_iff (b : Buffers α) (vOut : Nat → Vec3 α) (v : Nat) :
    (∀ c ∈ attachmentsOn t v, attachmentValue t inp pre b vOut c = 0) ↔
      (∀ c ∈ attachmentsOn t v, inp.attachStiff c = 0) ∨ (cotRow pre b vOut v).g = 0 := by
  have value : ∀ c ∈ attachmentsOn t v, attachmentValue t inp pre b vOut c = 0 ↔
      inp.attachStiff c = 0 ∨ (cotRow pre b vOut v).g = 0 := by
    intro c member
    simp only [attachmentValue, attachmentBackwardPosition, attachCot, gatherDiagBackwardRow,
      (mem_attachmentsOn.mp member).2, funext_iff, Pi.zero_apply, mul_eq_zero, forall_or_left]
  constructor
  · intro zero
    by_cases none : (cotRow pre b vOut v).g = 0
    · exact Or.inr none
    · exact Or.inl fun c member => ((value c member).mp (zero c member)).resolve_right none
  · rintro (slack | none) c member
    · exact (value c member).mpr (Or.inl (slack c member))
    · exact (value c member).mpr (Or.inr none)

/-- A vertex's attachments do no harm: its block is regular, and there is at most one, or only
slack ones, or no cotangent to hand on. -/
def Harmless (b : Buffers α) (vOut : Nat → Vec3 α) (v : Nat) : Prop :=
  det (b.scratch v).h ≠ 0 ∧
    ((attachmentsOn t v).length ≤ 1 ∨ (∀ c ∈ attachmentsOn t v, inp.attachStiff c = 0) ∨ vOut v = 0)

variable [CharZero α]

/-- Over a regular block, in every order of the lanes the last attachment's part is the sum of all
exactly when the attachments do no harm. -/
theorem addsUp_vertex_iff (inRange : t.InRange) (b : Buffers α) (vOut : Nat → Vec3 α) {v : Nat}
    (vertex : v < t.nVerts) (regular : det (b.scratch v).h ≠ 0) :
    (∀ order : List Nat, order.Perm (List.range t.nAttach) →
        AddsUp t inp pre (stepBackwardIn backward t inp pre order b vOut) vOut v) ↔
      Harmless t inp b vOut v := by
  have overwritten := overwrite_eq_sum_iff (attachedTo t) (attachmentValue t inp pre b vOut)
    (List.range t.nAttach) v
  rw [show writers (attachedTo t) (List.range t.nAttach) v = attachmentsOn t v from rfl,
    attachmentValue_eq_zero_iff, g_cotRow_eq_zero_iff pre b vOut regular] at overwritten
  rw [Harmless, and_iff_right regular, ← overwritten]
  constructor
  · intro adds order lanes
    exact (addsUp_iff backward t inp pre inRange lanes b vOut vertex).mp (adds order lanes)
  · intro last order lanes
    exact (addsUp_iff backward t inp pre inRange lanes b vOut vertex).mpr (last order lanes)

/-- In every order of the attachment lanes `stepBackward` answers, and every vertex's cotangent
contains the sum over its attachments, exactly when no vertex's attachments do harm. -/
theorem attachments_add_up_iff [DecidableEq α] (inRange : t.InRange) (b : Buffers α)
    (vOut : Nat → Vec3 α) :
    (∀ order : List Nat, order.Perm (List.range t.nAttach) →
        ∃ out, answerIn backward t inp pre order b vOut = some out ∧
          ∀ v < t.nVerts, AddsUp t inp pre out vOut v) ↔
      ∀ v < t.nVerts, Harmless t inp b vOut v := by
  constructor
  · intro answers v vertex
    have regular : Regular t b := by
      obtain ⟨out, answer, -⟩ := answers _ (List.Perm.refl _)
      by_contra singular
      rw [answerIn, if_neg singular] at answer
      cases answer
    refine (addsUp_vertex_iff backward t inp pre inRange b vOut vertex (regular v vertex)).mp
      fun order lanes => ?_
    obtain ⟨out, answer, adds⟩ := answers order lanes
    rw [answerIn, if_pos regular] at answer
    exact Option.some.inj answer ▸ adds v vertex
  · intro harmless order lanes
    have regular : Regular t b := fun v vertex => (harmless v vertex).1
    refine ⟨_, if_pos regular, fun v vertex => ?_⟩
    exact (addsUp_vertex_iff backward t inp pre inRange b vOut vertex (regular v vertex)).mpr
      (harmless v vertex) order lanes

end Field

section Fit

/-- A vertex with the two attachments `scene_fit_set` gives a vertex of the anchor loop. -/
def fitAndAnchor : Topology where
  nSprings := 0
  p1 := #[]
  p2 := #[]
  nTri := 0
  triIdx := #[]
  nBend := 0
  bendIdx := #[]
  nVerts := 1
  nAttach := 2
  attachVert := #[0, 0]
  coloring := ⟨#[0], #[0, 1]⟩

/-- Both attachments have stiffness one. -/
def fitAndAnchorInputs : Inputs ℚ :=
  ⟨1, fun _ => 0, fun _ => 1, fun _ => 0, fun _ => 0, fun _ => 0, fun _ => 1, fun _ => 0, fun _ => 0,
    fun _ => 0, fun _ => 0, fun _ => 0, fun _ => 0, fun _ => 0, fun _ => 0, fun _ => 0⟩

/-- The vertex's block is the identity. -/
def fitAndAnchorBuffers : Buffers ℚ :=
  ⟨fun _ => 0, fun _ => ⟨0, ![1, 0, 0, 1, 0, 1]⟩, fun _ => ⟨0, 0⟩, fun _ => ⟨0, 0⟩, fun _ => ⟨0, 0⟩,
    fun _ => ⟨0, 0⟩⟩

/-- There is no other constraint. -/
def attachmentsOnly : BackwardKernels ℚ :=
  ⟨fun _ _ _ _ _ => ⟨0, 0, 0⟩, fun _ _ _ _ _ _ => ⟨0, 0, 0, 0⟩, fun _ _ _ _ _ _ => ⟨0, 0, 0, 0⟩⟩

theorem fitAndAnchor_inRange : fitAndAnchor.InRange := ⟨by decide, by decide⟩

theorem fitAndAnchor_regular : Regular fitAndAnchor fitAndAnchorBuffers := by
  intro v _
  change (1 : ℚ) * (1 * 1 - 0 * 0) + 0 * (0 * 0 - 0 * 1) + 0 * (0 * 0 - 0 * 1) ≠ 0
  norm_num

/-- Without a cotangent the two attachments do no harm. -/
theorem attachments_add_up_iff_fitAndAnchor :
    fitAndAnchor.InRange ∧ ∀ order : List Nat, order.Perm (List.range 2) →
      ∃ out, answerIn attachmentsOnly fitAndAnchor fitAndAnchorInputs
          (preStep fitAndAnchorInputs fitAndAnchorBuffers) order fitAndAnchorBuffers
          (fun _ => 0) = some out ∧
        ∀ v < 1, AddsUp fitAndAnchor fitAndAnchorInputs
          (preStep fitAndAnchorInputs fitAndAnchorBuffers) out (fun _ => 0) v := by
  refine ⟨fitAndAnchor_inRange, ?_⟩
  exact (attachments_add_up_iff attachmentsOnly fitAndAnchor fitAndAnchorInputs
    (preStep fitAndAnchorInputs fitAndAnchorBuffers) fitAndAnchor_inRange fitAndAnchorBuffers
    fun _ => 0).mpr fun v vertex => ⟨fitAndAnchor_regular v vertex, .inr (.inr rfl)⟩

/-- The second lane overwrites what the first wrote. -/
theorem attachment_overwritten :
    ¬∀ order : List Nat, order.Perm (List.range 2) →
      ∃ out, answerIn attachmentsOnly fitAndAnchor fitAndAnchorInputs
          (preStep fitAndAnchorInputs fitAndAnchorBuffers) order fitAndAnchorBuffers
          (fun _ => ![1, 0, 0]) = some out ∧
        ∀ v < 1, AddsUp fitAndAnchor fitAndAnchorInputs
          (preStep fitAndAnchorInputs fitAndAnchorBuffers) out (fun _ => ![1, 0, 0]) v := by
  intro answers
  have harmless := (addsUp_vertex_iff attachmentsOnly fitAndAnchor fitAndAnchorInputs
    (preStep fitAndAnchorInputs fitAndAnchorBuffers) fitAndAnchor_inRange fitAndAnchorBuffers
    (fun _ => ![1, 0, 0]) (v := 0) (by decide)
    (fitAndAnchor_regular 0 (by decide))).mp fun order lanes => by
      obtain ⟨out, answer, adds⟩ := answers order lanes
      rw [answerIn, if_pos fitAndAnchor_regular] at answer
      exact Option.some.inj answer ▸ adds 0 (by decide)
  rcases harmless.2 with few | slack | none
  · exact absurd few (by decide)
  · exact absurd (slack 0 (by decide)) one_ne_zero
  · exact absurd (congrFun none 0) one_ne_zero

end Fit

end DressOn.Avbd
