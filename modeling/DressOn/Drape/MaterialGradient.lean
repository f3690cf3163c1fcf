import DressOn.Drape.Backward
import DressOn.Drape.RestShape
import Mathlib.Algebra.BigOperators.Intervals

/-!
# The gradient of the material

`applyMaterial` makes the masses and the stiffnesses from four numbers, and `accumulateParams` adds
up what the solver's cotangents say about these. A change of the numbers paired with what is added
is the change of the uploaded data paired with the cotangents, as long as every attachment is a pin:
the stiffnesses of the fit set and of the anchor loop are not made from `kAttach`, and the sum for
`kAttach` runs through them too.
-/

namespace DressOn.Drape

universe u

section Pairing

variable {σ α : Type*} [Field α]

/-- The numbers a material is made from. -/
structure Params (α : Type*) where
  kTri : α
  kBend : α
  kAttach : α
  density : α

/-- The settings with these numbers. -/
def Upload.withParams (cfg : Upload α) (params : Params α) : Upload α :=
  { cfg with
    kTri := params.kTri
    kBend := params.kBend
    kAttach := params.kAttach
    density := params.density }

/-- The solver's cotangents paired with the data that `setup` uploads of a material. -/
def uploadedPairing (scene : Scene σ α) (cfg : Upload α) (grads : Grads α) (material : Material α) :
    α :=
  Backward.total scene.nV (fun i => grads.mass i * material.mass i) +
    Backward.total (Sim.uploadedTri cfg scene).length
      (fun t => grads.triStiff t * material.triK t) +
    Backward.total (Sim.uploadedBend cfg scene).length
      (fun q => grads.bendStiff q * material.bendK q) +
    Backward.total scene.nAttach (fun a => grads.attachStiff a * material.attachK a)

/-- What `accumulateParams` adds. -/
def addedParams (sim : Sim σ α) (bwd : Backward α) : Params α where
  kTri := (bwd.accumulateParams sim).grad.dkTri - bwd.grad.dkTri
  kBend := (bwd.accumulateParams sim).grad.dkBend - bwd.grad.dkBend
  kAttach := (bwd.accumulateParams sim).grad.dkAttach - bwd.grad.dkAttach
  density := (bwd.accumulateParams sim).grad.ddensity - bwd.grad.ddensity

/-- A change of the numbers paired with amounts. -/
def Params.pairing (amounts before after : Params α) : α :=
  (after.density - before.density) * amounts.density +
    (after.kTri - before.kTri) * amounts.kTri +
    (after.kBend - before.kBend) * amounts.kBend +
    (after.kAttach - before.kAttach) * amounts.kAttach

end Pairing

section Sums

variable {α : Type*} [Field α]

theorem total_eq_sum (n : Nat) (term : Nat → α) :
    Backward.total n term = ∑ i ∈ Finset.range n, term i := rfl

/-- A change in the terms is that of the total. -/
theorem total_sub_total {n : Nat} {one two : Nat → α} {k : α} {term : Nat → α}
    (each : ∀ i < n, two i - one i = k * term i) :
    Backward.total n two - Backward.total n one = k * Backward.total n term := by
  rw [total_eq_sum, total_eq_sum, total_eq_sum, ← Finset.sum_sub_distrib, Finset.mul_sum]
  exact Finset.sum_congr rfl fun i member => each i (Finset.mem_range.1 member)

end Sums

section Adjoint

variable {σ α : Type*}

/-- The pins are the first attachments. -/
theorem nAttach_eq (scene : Scene σ α) :
    scene.nAttach = scene.nPin + (scene.fitVerts.length + scene.fitAnchor.length) := by
  simp only [Scene.nAttach, Scene.attachVert, Scene.nPin, List.length_append]
  omega

variable [Field α]

variable {geometry : Geometry σ α} {sim : Sim σ α} {before after : Params α}

section Added

variable (sim : Sim σ α) (bwd : Backward α)

theorem addedParams_density : (addedParams sim bwd).density =
    Backward.total sim.scene.nV fun i =>
      sim.solver.grads.mass i * sim.scene.restData.vertArea i :=
  add_sub_cancel_left _ _

theorem addedParams_kTri : (addedParams sim bwd).kTri =
    if sim.cfg.membrane then
      Backward.total sim.scene.nTri fun t => sim.solver.grads.triStiff t *
        (if sim.cfg.rawStiffness then 1 else sim.scene.restData.triArea t)
    else 0 :=
  add_sub_cancel_left _ _

theorem addedParams_kBend : (addedParams sim bwd).kBend =
    if sim.cfg.bending then
      Backward.total sim.scene.nBend fun q => sim.solver.grads.bendStiff q *
        (if sim.cfg.rawStiffness then 1 else 3 / sim.scene.restData.bendAreaSum q)
    else 0 :=
  add_sub_cancel_left _ _

/-- Every attachment is counted. -/
theorem addedParams_kAttach : (addedParams sim bwd).kAttach =
    Backward.total sim.scene.nAttach fun a => sim.solver.grads.attachStiff a :=
  add_sub_cancel_left _ _

end Added

/-- The stiffness of a pin follows `kAttach`, that of another attachment does not. -/
theorem attachK_sub {scene : Scene σ α} {cfg : Upload α} (a : Nat) :
    (scene.applyMaterial geometry (cfg.withParams after)).material.attachK a -
        (scene.applyMaterial geometry (cfg.withParams before)).material.attachK a =
      if a < scene.nPin then after.kAttach - before.kAttach else 0 := by
  simp only [Scene.applyMaterial, Upload.withParams]
  split
  · rfl
  · exact sub_self _

/-- A sum over the attachments that only the pins enter. -/
theorem total_pins (scene : Scene σ α) (term : Nat → α) :
    Backward.total scene.nAttach (fun a => if a < scene.nPin then term a else 0) =
      Backward.total scene.nPin term := by
  rw [total_eq_sum, total_eq_sum, nAttach_eq, Finset.sum_range_add]
  have pins : ∀ a ∈ Finset.range scene.nPin, (if a < scene.nPin then term a else 0) = term a :=
    fun a member => if_pos (Finset.mem_range.1 member)
  have others : ∀ a ∈ Finset.range (scene.fitVerts.length + scene.fitAnchor.length),
      (if scene.nPin + a < scene.nPin then term (scene.nPin + a) else 0) = 0 :=
    fun a _ => if_neg (by omega)
  rw [Finset.sum_congr rfl pins, Finset.sum_congr rfl others, Finset.sum_const_zero, add_zero]

/-- A cotangent of one attachment alone. -/
def Grads.single (q : Nat) : Grads α where
  positions _ := 0
  predicted _ := 0
  mass _ := 0
  triStiff _ := 0
  bendStiff _ := 0
  attachStiff a := if a = q then 1 else 0

theorem total_single (n q : Nat) :
    Backward.total n (.single q : Grads α).attachStiff = if q < n then 1 else 0 := by
  rw [total_eq_sum]
  simp only [Grads.single, Finset.sum_ite_eq', Finset.mem_range]

variable [LinearOrder α]

/-- The areas of a rest shape are not negative. -/
structure RestData.Nonneg (rest : RestData α) (nTri nBend : Nat) : Prop where
  triArea : ∀ t < nTri, 0 ≤ rest.triArea t
  bendAreaSum : ∀ q < nBend, 0 ≤ rest.bendAreaSum q

/-- The two stiffnesses whose roots are taken are not negative. -/
structure Params.Nonneg (params : Params α) : Prop where
  kTri : 0 ≤ params.kTri
  kBend : 0 ≤ params.kBend

variable [IsStrictOrderedRing α]

/-- The stiffness of a triangle follows `kTri`. -/
theorem triK_sub (roots : ∀ x, 0 ≤ x → geometry.sqrt x * geometry.sqrt x = x) {scene : Scene σ α}
    {cfg : Upload α} (nonneg : before.Nonneg) (nonneg' : after.Nonneg) {t : Nat}
    (area : 0 ≤ scene.restData.triArea t) :
    (scene.applyMaterial geometry (cfg.withParams after)).material.triK t -
        (scene.applyMaterial geometry (cfg.withParams before)).material.triK t =
      (after.kTri - before.kTri) * (if cfg.rawStiffness then 1 else scene.restData.triArea t) := by
  have one := roots _ (mul_nonneg area nonneg.kTri)
  have two := roots _ (mul_nonneg area nonneg'.kTri)
  simp only [Scene.applyMaterial, Upload.withParams, one, two]
  split
  · rw [mul_one]
  · ring

/-- The stiffness of a stencil follows `kBend`. -/
theorem bendK_sub (roots : ∀ x, 0 ≤ x → geometry.sqrt x * geometry.sqrt x = x) {scene : Scene σ α}
    {cfg : Upload α} (nonneg : before.Nonneg) (nonneg' : after.Nonneg) {q : Nat}
    (areaSum : 0 ≤ scene.restData.bendAreaSum q) :
    (scene.applyMaterial geometry (cfg.withParams after)).material.bendK q -
        (scene.applyMaterial geometry (cfg.withParams before)).material.bendK q =
      (after.kBend - before.kBend) *
        (if cfg.rawStiffness then 1 else 3 / scene.restData.bendAreaSum q) := by
  have one := roots _ (div_nonneg (mul_nonneg nonneg.kBend three_pos.le) areaSum)
  have two := roots _ (div_nonneg (mul_nonneg nonneg'.kBend three_pos.le) areaSum)
  simp only [Scene.applyMaterial, Upload.withParams, one, two]
  split
  · rw [mul_one]
  · ring

/-- The change of the uploaded data, paired with the cotangents: only the pins follow `kAttach`. -/
theorem uploadedPairing_sub (roots : ∀ x, 0 ≤ x → geometry.sqrt x * geometry.sqrt x = x)
    (rest : sim.scene.restData.Nonneg sim.scene.nTri sim.scene.nBend) (nonneg : before.Nonneg)
    (nonneg' : after.Nonneg) (bwd : Backward α) :
    uploadedPairing sim.scene sim.cfg.toUpload sim.solver.grads
        (sim.scene.applyMaterial geometry (sim.cfg.toUpload.withParams after)).material -
      uploadedPairing sim.scene sim.cfg.toUpload sim.solver.grads
        (sim.scene.applyMaterial geometry (sim.cfg.toUpload.withParams before)).material =
    Params.pairing
      { addedParams sim bwd with
        kAttach := Backward.total sim.scene.nPin fun a => sim.solver.grads.attachStiff a }
      before after := by
  unfold uploadedPairing
  rw [add_sub_add_comm, add_sub_add_comm, add_sub_add_comm]
  refine congrArg₂ _ (congrArg₂ _ (congrArg₂ _ ?_ ?_) ?_) ?_
  · rw [addedParams_density]
    refine total_sub_total fun i _ => ?_
    simp only [Scene.applyMaterial, Upload.withParams]
    ring
  · rw [addedParams_kTri]
    unfold Sim.uploadedTri
    split
    · refine total_sub_total fun t inside => ?_
      rw [← mul_sub, triK_sub roots nonneg nonneg' (rest.triArea t inside)]
      ring
    · rw [mul_zero]
      exact sub_self _
  · rw [addedParams_kBend]
    unfold Sim.uploadedBend
    split
    · refine total_sub_total fun q inside => ?_
      rw [← mul_sub, bendK_sub roots nonneg nonneg' (rest.bendAreaSum q inside)]
      ring
    · rw [mul_zero]
      exact sub_self _
  · rw [← total_pins]
    refine total_sub_total fun a _ => ?_
    rw [← mul_sub, attachK_sub]
    split
    · rw [mul_comm]
    · rw [mul_zero, mul_zero]

/-- The forward with other cotangents in its solver. -/
def Sim.withGrads (sim : Sim σ α) (grads : Grads α) : Sim σ α :=
  { sim with solver := { sim.solver with grads := grads } }

/-- The change of the numbers paired with what is added is the change of the uploaded data paired
with the cotangents, for all of these. -/
def Transposed (geometry : Geometry σ α) (sim : Sim σ α) : Prop :=
  ∀ (grads : Grads α) (bwd : Backward α) (before after : Params α), before.Nonneg → after.Nonneg →
    uploadedPairing sim.scene sim.cfg.toUpload grads
        (sim.scene.applyMaterial geometry (sim.cfg.toUpload.withParams after)).material -
      uploadedPairing sim.scene sim.cfg.toUpload grads
        (sim.scene.applyMaterial geometry (sim.cfg.toUpload.withParams before)).material =
    (addedParams (sim.withGrads grads) bwd).pairing before after

/-- Where the change of a pairing is the one with the amounts added, the pins and all attachments
have the same cotangents. -/
theorem pairing_eq_iff {amounts : Params α} {pins : α} :
    Params.pairing { amounts with kAttach := pins } before after = amounts.pairing before after ↔
      (after.kAttach - before.kAttach) * pins =
        (after.kAttach - before.kAttach) * amounts.kAttach :=
  add_right_inj _

/-- A cotangent of the first attachment that is no pin tells the two apart. -/
theorem pins_of_transposed (roots : ∀ x, 0 ≤ x → geometry.sqrt x * geometry.sqrt x = x)
    (rest : sim.scene.restData.Nonneg sim.scene.nTri sim.scene.nBend)
    (transposed : Transposed geometry sim) :
    sim.scene.fitVerts = [] ∧ sim.scene.fitAnchor = [] := by
  by_contra others
  have more : sim.scene.nPin < sim.scene.nAttach := by
    rw [nAttach_eq]
    by_contra none
    exact others ⟨List.length_eq_zero_iff.1 (by omega), List.length_eq_zero_iff.1 (by omega)⟩
  let alone : Grads α := .single sim.scene.nPin
  let start : Backward α := .make ⟨[], 0, [], [], none⟩ .targetPoints .step
  have zero : (⟨0, 0, 0, 0⟩ : Params α).Nonneg := ⟨le_rfl, le_rfl⟩
  have one : (⟨0, 0, 1, 0⟩ : Params α).Nonneg := ⟨le_rfl, le_rfl⟩
  have change := @uploadedPairing_sub _ _ _ geometry (sim.withGrads alone) _ _ _ _ roots rest zero
    one start
  have equal := change.symm.trans (transposed alone start _ _ zero one)
  rw [pairing_eq_iff, addedParams_kAttach] at equal
  have equal : (1 - 0) * Backward.total sim.scene.nPin alone.attachStiff =
      (1 - 0) * Backward.total sim.scene.nAttach alone.attachStiff := equal
  rw [total_single, total_single, if_neg (lt_irrefl _), if_pos more] at equal
  simp at equal

/-- Where all attachments are pins all are counted rightly. -/
theorem transposed_of_pins (roots : ∀ x, 0 ≤ x → geometry.sqrt x * geometry.sqrt x = x)
    (rest : sim.scene.restData.Nonneg sim.scene.nTri sim.scene.nBend)
    (pins : sim.scene.fitVerts = [] ∧ sim.scene.fitAnchor = []) : Transposed geometry sim := by
  intro grads bwd before after nonneg nonneg'
  have change := @uploadedPairing_sub _ _ _ geometry (sim.withGrads grads) before after _ _ roots
    rest nonneg nonneg' bwd
  refine change.trans (pairing_eq_iff.2 ?_)
  have all : sim.scene.nAttach = sim.scene.nPin := by
    rw [nAttach_eq, pins.1, pins.2]
    rfl
  rw [addedParams_kAttach]
  exact congrArg _ (congrArg (Backward.total · _) all.symm)

/-- The gradient is the transpose just where all attachments are pins. -/
theorem accumulateParams_transposed_iff
    (roots : ∀ x, 0 ≤ x → geometry.sqrt x * geometry.sqrt x = x)
    (rest : sim.scene.restData.Nonneg sim.scene.nTri sim.scene.nBend) :
    Transposed geometry sim ↔ sim.scene.fitVerts = [] ∧ sim.scene.fitAnchor = [] :=
  ⟨pins_of_transposed roots rest, transposed_of_pins roots rest⟩

end Adjoint

section Finished

variable {σ α : Type u} [Field α] [LinearOrder α]

/-- The rest shape of a scene by index. -/
def DrapeScene.restData (s : DrapeScene σ α) : RestData α where
  triInvUV t := s.triInvUV.getD t fun _ => 0
  triArea t := s.triArea.getD t 0
  vertArea i := s.vertArea.getD i 0
  bendW q := s.bendW.getD q fun _ => 0
  bendN q := s.bendN.getD q 0
  bendAreaSum q := s.bendAreaSum.getD q 0
  radii i := s.radii.getD i 0

theorem getD_nonneg {numbers : List α} (positive : ∀ number ∈ numbers, 0 < number) (i : Nat) :
    0 ≤ numbers.getD i 0 := by
  rw [List.getD_eq_getElem?_getD]
  cases found : numbers[i]? with
  | none => exact le_rfl
  | some number => exact (positive number (List.mem_of_getElem? found)).le

variable [IsStrictOrderedRing α]

/-- The areas that `scene_finish` finds are not negative. -/
theorem DrapeScene.nonneg_of_sceneFinish {root : Checked.SquareRoot α} {s finished : DrapeScene σ α}
    (finish : sceneFinish root s = some finished) (nTri nBend : Nat) :
    finished.restData.Nonneg nTri nBend := by
  have spans : s.AllSpan := by
    by_contra flat
    rw [sceneFinish_of_not_allSpan root flat] at finish
    exact nomatch finish
  obtain ⟨out, same, measured, -, -⟩ := sceneFinish_of_allSpan root spans
  obtain rfl := Option.some.inj (finish.symm.trans same)
  exact ⟨fun t _ => getD_nonneg measured.areas t, fun q _ => getD_nonneg measured.areaSums q⟩

end Finished

section Reals

open DrapeScene (realRoot untouched defaults)

/-- A triangle with its first corner pinned, and a fit set and an anchor loop of the others. -/
noncomputable def fitTriangle (fitVerts fitAnchor : List Nat) : Scene Unit ℝ where
  nV := 3
  tri := [![0, 1, 2]]
  bendIdx := []
  rest i := if i = 0 then 0 else if i = 1 then ![1, 0, 0] else ![0, 1, 0]
  x0 i := if i = 0 then 0 else if i = 1 then ![1, 0, 0] else ![0, 1, 0]
  v0 _ := 0
  restData := ⟨fun _ => ![1, 0, 0, 1], fun _ => 1 / 2, fun _ => 1 / 6, fun _ _ => 0, fun _ => 0,
    fun _ => 0, fun _ => 49 / 100⟩
  pins := [0]
  fitVerts := fitVerts
  fitAnchor := fitAnchor
  attachFixed _ := 0
  fitK := 1
  fitGap := 0
  anchorK := 100
  fitRefresh := 1
  fitRestEvery := 4
  fitSettle := 0
  fitSimilarity := false
  prims := []
  material := ⟨fun _ => 0, fun _ => 0, fun _ => 0, fun _ => 0, fun _ => 0⟩
  nonempty := by decide

/-- A forward of it. -/
noncomputable def fitForward (fitVerts fitAnchor : List Nat) : Sim Unit ℝ :=
  .make (.fresh false) (fitTriangle fitVerts fitAnchor) defaults

theorem fitForward_nonneg (fitVerts fitAnchor : List Nat) :
    (fitForward fitVerts fitAnchor).scene.restData.Nonneg
      (fitForward fitVerts fitAnchor).scene.nTri (fitForward fitVerts fitAnchor).scene.nBend :=
  ⟨fun _ _ => by show (0 : ℝ) ≤ 1 / 2; norm_num, fun _ _ => le_rfl⟩

theorem untouched_sqrt (x : ℝ) (nonneg : 0 ≤ x) :
    untouched.sqrt x * untouched.sqrt x = x :=
  realRoot.square x nonneg

/-- With pins alone the gradient is the transpose. -/
theorem accumulateParams_transposed_pins : Transposed untouched (fitForward [] []) :=
  (accumulateParams_transposed_iff untouched_sqrt (fitForward_nonneg [] [])).2 ⟨rfl, rfl⟩

/-- With one vertex fitted it is not. -/
theorem fit_counted : ¬ ∀ sim : Sim Unit ℝ,
    sim.scene.restData.Nonneg sim.scene.nTri sim.scene.nBend → Transposed untouched sim := by
  intro transposed
  have nonneg := fitForward_nonneg [1] []
  have none := (pins_of_transposed untouched_sqrt nonneg (transposed _ nonneg)).1
  exact nomatch none

end Reals

end DressOn.Drape
