import DressOn.Drape.Reload
import DressOn.Drape.Stages

/-!
# Scene and solver in step

The scene is recomputed whole when a fit phase refreshes the rest shape; the solver
is patched family by family. What the patches cover stays in step in every run. The
masses are not among them.
-/

namespace DressOn.Drape

open DressOn.Avbd (Vec3)
open DressOn.Avbd.Backends (load length_load)
open DressOn.Avbd.Penalties (AvbdCpu AvbdRd Constraint)
open DressOn.Runs (Along kept_of_moves)

section Data

variable {σ α : Type*} [Field α]

/-- The solver holds a family's constraints at the scene's stiffnesses, the fit pull of
a settle apart. -/
structure Matched (sim : Sim σ α) (family : Constraint) : Prop where
  count : sim.solver.buffers.penalties.count family =
    uploadedCount sim.cfg.toUpload sim.scene family
  stiff : (family = .attachments → sim.fitSettling = false) →
    sim.solver.buffers.penalties.stiff family = uploadedStiff sim.cfg.toUpload sim.scene family

/-- The solver's rest data and stiffnesses are the scene's. -/
structure Synced (sim : Sim σ α) : Prop where
  sized : sim.solver.buffers.penalties.Sized
  matched : ∀ family, Matched sim family
  nVerts : sim.solver.buffers.nVerts = sim.scene.nV
  triIdx : sim.solver.buffers.triIdx = Sim.uploadedTri sim.cfg.toUpload sim.scene
  triInvUV : sim.solver.buffers.triInvUV =
    load (uploadedCount sim.cfg.toUpload sim.scene .triangles) sim.scene.restData.triInvUV
  bendIdx : sim.solver.buffers.bendIdx = Sim.uploadedBend sim.cfg.toUpload sim.scene
  bendWeight : sim.solver.buffers.bendWeight =
    load (uploadedCount sim.cfg.toUpload sim.scene .bendings) sim.scene.restData.bendW
  bendNTarget : sim.solver.buffers.bendNTarget =
    load (uploadedCount sim.cfg.toUpload sim.scene .bendings) sim.scene.restData.bendN
  radii : sim.solver.buffers.radii = load sim.scene.nV sim.scene.restData.radii

/-- The masses of the inertia term are those the predictor divides by. -/
def MassSynced (sim : Sim σ α) : Prop :=
  sim.solver.buffers.mass = load sim.scene.nV sim.scene.material.massD

/-- The masses are those of the scene's areas. -/
def Weighed (sim : Sim σ α) : Prop :=
  ∀ i, sim.scene.material.massD i = sim.scene.restData.vertArea i * sim.cfg.density

/-- A rest refresh that is due finds every vertex the area it has, or the density is zero. -/
def AreasKept (geometry : Geometry σ α) (sim : Sim σ α) : Prop :=
  sim.phase = .idle → sim.refreshDue = true → sim.restDue = true →
    ∀ rest0 transform, sim.fitRest0 = some rest0 → sim.similarity geometry rest0 = some transform →
      ∀ i < sim.scene.nV,
        (geometry.sceneFinish sim.scene.nV sim.scene.tri fun i => transform (rest0 i)).vertArea i =
            sim.scene.restData.vertArea i ∨ sim.cfg.density = 0

instance [DecidableEq α] (geometry : Geometry σ α) (sim : Sim σ α) :
    Decidable (AreasKept geometry sim) :=
  decidable_of_iff (sim.phase = .idle → sim.refreshDue = true → sim.restDue = true →
    ∀ rest0 ∈ sim.fitRest0, ∀ transform ∈ sim.similarity geometry rest0, ∀ i < sim.scene.nV,
      (geometry.sceneFinish sim.scene.nV sim.scene.tri fun i => transform (rest0 i)).vertArea i =
          sim.scene.restData.vertArea i ∨ sim.cfg.density = 0)
    ⟨fun kept idle due rest rest0 transform started similar =>
      kept idle due rest rest0 started transform similar,
    fun kept idle due rest rest0 started transform similar =>
      kept idle due rest rest0 transform started similar⟩

end Data

section Patches

variable {α : Type*}

theorem penalties_updateSelfCollisionRadii (buffers : Buffers α) (radii : Nat → α) :
    (buffers.updateSelfCollisionRadii radii).penalties = buffers.penalties := by
  unfold Buffers.updateSelfCollisionRadii
  split <;> rfl

variable [Field α]

namespace Penalties

/-- An update of a family without constraints does nothing. -/
theorem update_of_count_eq_zero {family : Constraint} {penalties : Penalties α}
    (zero : penalties.count family = 0) (stiffness : Nat → α) :
    penalties.update family stiffness = penalties := by
  cases penalties with
  | cpu side =>
      have zero : side.count family = 0 := zero
      simp [update, AvbdCpu.update, zero]
  | rd side =>
      have zero : side.count family = 0 := zero
      simp [update, AvbdRd.update, zero]

/-- An update where it is due. -/
def patch (due : Prop) [Decidable due] (family : Constraint) (stiffness : Nat → α)
    (penalties : Penalties α) : Penalties α :=
  if due then penalties.update family stiffness else penalties

variable {due : Prop} [Decidable due] {family : Constraint} {penalties : Penalties α}

@[simp] theorem count_patch (stiffness : Nat → α) :
    (penalties.patch due family stiffness).count = penalties.count := by
  unfold patch
  split <;> simp

theorem Sized.patch (sized : penalties.Sized) (stiffness : Nat → α) :
    (penalties.patch due family stiffness).Sized := by
  unfold Penalties.patch
  split
  · exact sized.update family stiffness
  · exact sized

/-- A patch that is due whenever the family has constraints sets its stiffnesses. -/
theorem stiff_patch (sized : penalties.Sized) (stiffness : Nat → α)
    (covers : ¬due → penalties.count family = 0) :
    (penalties.patch due family stiffness).stiff family =
      load (penalties.count family) stiffness := by
  unfold patch
  split
  next => rw [stiff_update sized, Function.update_self]
  next undue =>
    have zero := covers undue
    rw [zero]
    exact List.length_eq_zero_iff.mp ((sized family).trans zero)

theorem stiff_patch_other (sized : penalties.Sized) (stiffness : Nat → α) {other : Constraint}
    (distinct : other ≠ family) :
    (penalties.patch due family stiffness).stiff other = penalties.stiff other := by
  unfold patch
  split
  · rw [stiff_update sized, Function.update_of_ne distinct]
  · rfl

end Penalties

variable {σ : Type*} (cfg : Upload α) (scene : Scene σ α) (buffers : Buffers α)

theorem penalties_updateTriangleRest (invUV : Nat → Fin 4 → α) (stiffness : Nat → α) :
    (buffers.updateTriangleRest invUV stiffness).penalties =
      buffers.penalties.update .triangles stiffness := by
  unfold Buffers.updateTriangleRest
  split
  next zero => exact (Penalties.update_of_count_eq_zero zero _).symm
  next => rfl

theorem penalties_updateBendingRest (weight : Nat → Fin 4 → α) (nTarget stiffness : Nat → α) :
    (buffers.updateBendingRest weight nTarget stiffness).penalties =
      buffers.penalties.update .bendings stiffness := by
  unfold Buffers.updateBendingRest
  split
  next zero => exact (Penalties.update_of_count_eq_zero zero _).symm
  next => rfl

/-- What a rest refresh does to the stiffnesses. -/
theorem penalties_restUploads : (Sim.restUploads cfg scene buffers).penalties =
    ((buffers.penalties.patch (cfg.membrane ∧ 0 < scene.nTri) .triangles scene.material.triK).patch
      (cfg.bending ∧ 0 < scene.nBend) .bendings scene.material.bendK).patch
        (0 < scene.nAttach) .attachments scene.material.attachK := by
  have patched (due : Prop) [Decidable due] (family : Constraint) (stiffness : Nat → α)
      {updated before : Buffers α}
      (update : updated.penalties = before.penalties.update family stiffness) :
      (if due then updated else before).penalties =
        before.penalties.patch due family stiffness := by
    unfold Penalties.patch
    split
    · exact update
    · rfl
  unfold Sim.restUploads
  dsimp only
  rw [patched _ .attachments scene.material.attachK rfl, penalties_updateSelfCollisionRadii,
    patched _ .bendings _ (penalties_updateBendingRest _ _ _ _),
    patched _ .triangles _ (penalties_updateTriangleRest _ _ _)]

end Patches

section Refresh

variable {σ α : Type*} (cfg : Upload α) (scene : Scene σ α) {buffers : Buffers α}

theorem length_uploaded {τ : Type*} (on : Bool) (items : List τ) :
    (if on then items else []).length = if on ∧ 0 < items.length then items.length else 0 := by
  cases on with
  | false => simp
  | true =>
      cases items <;> simp

theorem uploadedCount_triangles : uploadedCount cfg scene .triangles =
    if cfg.membrane ∧ 0 < scene.nTri then scene.nTri else 0 := length_uploaded _ _

theorem uploadedCount_bendings : uploadedCount cfg scene .bendings =
    if cfg.bending ∧ 0 < scene.nBend then scene.nBend else 0 := length_uploaded _ _

variable [Field α]

theorem triangleRest_eq
    (count : buffers.penalties.count .triangles = uploadedCount cfg scene .triangles)
    (rows : buffers.triInvUV.length = uploadedCount cfg scene .triangles)
    (invUV : Nat → Fin 4 → α) (stiffness : Nat → α) :
    (if cfg.membrane ∧ 0 < scene.nTri then buffers.updateTriangleRest invUV stiffness
      else buffers) =
      { buffers with
        triInvUV := load (uploadedCount cfg scene .triangles) invUV
        penalties :=
          buffers.penalties.patch (cfg.membrane ∧ 0 < scene.nTri) .triangles stiffness } := by
  unfold Penalties.patch
  split
  next due =>
    have some : buffers.penalties.count .triangles ≠ 0 := by
      rw [count, uploadedCount_triangles, if_pos due]
      exact due.2.ne'
    rw [Buffers.updateTriangleRest, if_neg some, count]
  next undue =>
    have zero := (uploadedCount_triangles cfg scene).trans (if_neg undue)
    have empty : buffers.triInvUV = [] := List.length_eq_zero_iff.mp (rows.trans zero)
    rw [zero]
    cases buffers
    simp only at empty
    subst empty
    rfl

theorem bendingRest_eq
    (count : buffers.penalties.count .bendings = uploadedCount cfg scene .bendings)
    (weights : buffers.bendWeight.length = uploadedCount cfg scene .bendings)
    (targets : buffers.bendNTarget.length = uploadedCount cfg scene .bendings)
    (weight : Nat → Fin 4 → α) (nTarget stiffness : Nat → α) :
    (if cfg.bending ∧ 0 < scene.nBend then buffers.updateBendingRest weight nTarget stiffness
      else buffers) =
      { buffers with
        bendWeight := load (uploadedCount cfg scene .bendings) weight
        bendNTarget := load (uploadedCount cfg scene .bendings) nTarget
        penalties :=
          buffers.penalties.patch (cfg.bending ∧ 0 < scene.nBend) .bendings stiffness } := by
  unfold Penalties.patch
  split
  next due =>
    have some : buffers.penalties.count .bendings ≠ 0 := by
      rw [count, uploadedCount_bendings, if_pos due]
      exact due.2.ne'
    rw [Buffers.updateBendingRest, if_neg some, count]
  next undue =>
    have zero := (uploadedCount_bendings cfg scene).trans (if_neg undue)
    have noWeight : buffers.bendWeight = [] := List.length_eq_zero_iff.mp (weights.trans zero)
    have noTarget : buffers.bendNTarget = [] := List.length_eq_zero_iff.mp (targets.trans zero)
    rw [zero]
    cases buffers
    simp only at noWeight noTarget
    subst noWeight noTarget
    rfl

/-- A rest refresh writes every buffer of rest data. -/
theorem restUploads_eq
    (count : ∀ family, buffers.penalties.count family = uploadedCount cfg scene family)
    (rows : buffers.triInvUV.length = uploadedCount cfg scene .triangles)
    (weights : buffers.bendWeight.length = uploadedCount cfg scene .bendings)
    (targets : buffers.bendNTarget.length = uploadedCount cfg scene .bendings)
    (radii : buffers.radii.length = buffers.nVerts) :
    Sim.restUploads cfg scene buffers =
      { buffers with
        triInvUV := load (uploadedCount cfg scene .triangles) scene.restData.triInvUV
        bendWeight := load (uploadedCount cfg scene .bendings) scene.restData.bendW
        bendNTarget := load (uploadedCount cfg scene .bendings) scene.restData.bendN
        radii := load buffers.nVerts scene.restData.radii
        penalties := (Sim.restUploads cfg scene buffers).penalties } := by
  rw [penalties_restUploads]
  unfold Sim.restUploads
  dsimp only
  rw [triangleRest_eq cfg scene (count _) rows, @bendingRest_eq σ α cfg scene
    { buffers with
      triInvUV := load (uploadedCount cfg scene .triangles) scene.restData.triInvUV
      penalties := buffers.penalties.patch (cfg.membrane ∧ 0 < scene.nTri) .triangles
        scene.material.triK } _ (by simp [count]) weights targets]
  simp only [Buffers.updateSelfCollisionRadii, if_pos radii]
  split
  next some => simp only [Buffers.updateAttachmentStiffness, Penalties.patch, if_pos some]
  next none => simp only [Penalties.patch, if_neg none]

/-- A rest refresh writes the stiffnesses of every family that has its constraints. -/
theorem stiff_restUploads (sized : buffers.penalties.Sized) {family : Constraint}
    (count : buffers.penalties.count family = uploadedCount cfg scene family) :
    (Sim.restUploads cfg scene buffers).penalties.stiff family =
      uploadedStiff cfg scene family := by
  rw [penalties_restUploads]
  have sizedTri : (buffers.penalties.patch (cfg.membrane ∧ 0 < scene.nTri) .triangles
      scene.material.triK).Sized := sized.patch _
  have sizedBend : ((buffers.penalties.patch (cfg.membrane ∧ 0 < scene.nTri) .triangles
      scene.material.triK).patch (cfg.bending ∧ 0 < scene.nBend) .bendings
        scene.material.bendK).Sized := sizedTri.patch _
  cases family with
  | attachments =>
      rw [Penalties.stiff_patch sizedBend, Penalties.count_patch, Penalties.count_patch, count]
      · rfl
      · intro none
        rw [Penalties.count_patch, Penalties.count_patch, count]
        exact Nat.eq_zero_of_not_pos none
  | triangles =>
      rw [Penalties.stiff_patch_other sizedBend _ (by decide),
        Penalties.stiff_patch_other sizedTri _ (by decide), Penalties.stiff_patch sized, count]
      · rfl
      · intro undue
        rw [count, uploadedCount_triangles, if_neg undue]
  | bendings =>
      rw [Penalties.stiff_patch_other sizedBend _ (by decide), Penalties.stiff_patch sizedTri,
        Penalties.count_patch, count]
      · rfl
      · intro undue
        rw [Penalties.count_patch, count, uploadedCount_bendings, if_neg undue]

end Refresh

section Kept

variable {σ α : Type*}

/-- A family's match is about its count, the material and the penalties. -/
theorem Matched.congr {before after : Sim σ α} {family : Constraint}
    (matched : Matched before family)
    (count : uploadedCount after.cfg.toUpload after.scene family =
      uploadedCount before.cfg.toUpload before.scene family)
    (material : after.scene.material = before.scene.material)
    (penalties : after.solver.buffers.penalties = before.solver.buffers.penalties)
    (settling : after.fitSettling = false → before.fitSettling = false) : Matched after family := by
  have same : uploadedStiff after.cfg.toUpload after.scene family =
      uploadedStiff before.cfg.toUpload before.scene family := by
    unfold uploadedStiff
    rw [count]
    cases family <;> simp only [stiffness, material]
  constructor
  · rw [penalties, count]
    exact matched.count
  · intro off
    rw [penalties, same]
    exact matched.stiff fun attached => settling (off attached)

variable [Field α] {geometry : Geometry σ α}

/-- A change of the state a step starts from keeps the penalties. -/
theorem penalties_of_data {before after : Buffers α} (data : after.data = before.data) :
    after.penalties = before.penalties := by
  have same : after.data.penalties = before.data.penalties := by rw [data]
  exact same

/-- The new rest shape changes no family's count. -/
theorem uploadedCount_reshaped (cfg : Upload α) {scene : Scene σ α}
    (finished : scene.Finished geometry) (rest : Nat → Vec3 α) (family : Constraint) :
    uploadedCount cfg (Sim.reshaped geometry cfg scene rest) family =
      uploadedCount cfg scene family := by
  cases family with
  | attachments => rfl
  | triangles => rfl
  | bendings =>
      show (Sim.uploadedBend cfg (Sim.reshaped geometry cfg scene rest)).length = _
      have same : (Sim.reshaped geometry cfg scene rest).bendIdx = scene.bendIdx := finished.symm
      rw [Sim.uploadedBend, same]
      rfl

/-- A rest refresh does nothing, or the scene is reshaped and the solver patched. -/
theorem refreshRest_cases (sim : Sim σ α) : sim.refreshRest geometry = sim ∨
    ∃ rest0 transform, sim.fitRest0 = some rest0 ∧ sim.similarity geometry rest0 = some transform ∧
      ∃ scene, scene = Sim.reshaped geometry sim.cfg.toUpload sim.scene (fun i => transform (rest0 i)) ∧
        sim.refreshRest geometry =
          { sim with
            scene := scene
            solver := sim.solver.withBuffers
              (Sim.restUploads sim.cfg.toUpload scene sim.solver.buffers) } := by
  unfold Sim.refreshRest
  split
  · exact Or.inl rfl
  next rest0 started =>
    split
    · exact Or.inl rfl
    next transform similar => exact Or.inr ⟨rest0, transform, started, similar, _, rfl, rfl⟩

/-- A rest refresh keeps a family in step whose count the new rest shape keeps. -/
theorem Matched.refreshRest {sim : Sim σ α} {family : Constraint}
    (sized : sim.solver.buffers.penalties.Sized) (matched : Matched sim family)
    (same : ∀ rest, uploadedCount sim.cfg.toUpload
      (Sim.reshaped geometry sim.cfg.toUpload sim.scene rest) family =
        uploadedCount sim.cfg.toUpload sim.scene family) :
    Matched (sim.refreshRest geometry) family := by
  obtain still | ⟨rest0, transform, -, -, scene, rfl, refreshed⟩ := refreshRest_cases sim
  · rw [still]
    exact matched
  · rw [refreshed]
    have count := matched.count.trans (same fun i => transform (rest0 i)).symm
    constructor
    · show (Sim.restUploads _ _ _).penalties.count family = _
      simp only [penalties_restUploads, Penalties.count_patch]
      exact count
    · exact fun _ => stiff_restUploads _ _ sized count

theorem Sized.refreshRest {sim : Sim σ α} (sized : sim.solver.buffers.penalties.Sized) :
    (sim.refreshRest geometry).solver.buffers.penalties.Sized := by
  obtain still | ⟨rest0, transform, -, -, scene, -, refreshed⟩ := refreshRest_cases sim
  · rw [still]
    exact sized
  · rw [refreshed]
    show (Sim.restUploads _ _ _).penalties.Sized
    rw [penalties_restUploads]
    exact ((sized.patch _).patch _).patch _

/-- The pull on: every attachment has the scene's stiffness. -/
theorem stiff_setFitPull {sim : Sim σ α} (sized : sim.solver.buffers.penalties.Sized)
    (count : sim.solver.buffers.penalties.count .attachments = sim.scene.nAttach) :
    (sim.setFitPull true).solver.buffers.penalties.stiff .attachments =
      load sim.scene.nAttach sim.scene.material.attachK := by
  unfold Sim.setFitPull
  split
  next none =>
    have rows := (sized .attachments).trans (count.trans none)
    rw [none]
    exact List.length_eq_zero_iff.mp rows
  next some =>
    simp [Solver.withBuffers, Buffers.updateAttachmentStiffness, Penalties.stiff_update sized, count]

/-- `setFitPull` writes the stiffnesses of the attachments only. -/
theorem setFitPull_eq (on : Bool) (sim : Sim σ α) : ∃ stiffness,
    sim.setFitPull on = { sim with
      solver := sim.solver.withBuffers { sim.solver.buffers with
        penalties :=
          sim.solver.buffers.penalties.patch (sim.scene.nAttach ≠ 0) .attachments stiffness } } := by
  unfold Sim.setFitPull Penalties.patch
  split
  next none => exact ⟨fun _ => 0, by rw [if_neg (not_not.mpr none)]; rfl⟩
  next some => exact ⟨_, rfl⟩

end Kept

section Attachments

variable {σ α : Type*} [Field α] (geometry : Geometry σ α) (kernels : Kernels α)

/-- The attachments are in step, outside the settle. -/
structure Attached (sim : Sim σ α) : Prop where
  sized : sim.solver.buffers.penalties.Sized
  matched : Matched sim .attachments

theorem Attached.begun {sim : Sim σ α} (attached : Attached sim) :
    Attached (sim.begun geometry) := by
  have rested : Attached (sim.refreshRest geometry) :=
    ⟨Sized.refreshRest attached.sized, attached.matched.refreshRest attached.sized fun _ => rfl⟩
  unfold Sim.begun Sim.refresh
  split
  · split
    · split
      · exact ⟨rested.sized, rested.matched.congr rfl rfl rfl id⟩
      · exact ⟨attached.sized, attached.matched.congr rfl rfl rfl id⟩
    · exact attached
  · exact attached

variable [LinearOrder α]

/-- Every move keeps the attachments in step. -/
theorem Attached.move {allowed : Sim σ α → Prop} {before after : Sim σ α}
    (move : Sim.Move geometry kernels allowed before after) (attached : Attached before) :
    Attached after := by
  cases move with
  | advance fault running may =>
      have stepped := advance_stepped geometry kernels fault before
      have begun := attached.begun geometry
      have penalties := penalties_of_data stepped.data
      refine ⟨penalties ▸ begun.sized, begun.matched.congr ?_ ?_ penalties ?_⟩
      · rw [stepped.cfg, stepped.scene]
      · rw [stepped.scene]
      · rw [stepped.fitSettling]
        exact id
  | beginFit off => exact ⟨attached.sized, attached.matched.congr rfl rfl rfl fun _ => off⟩
  | beginSettle running active off =>
      obtain ⟨stiffness, pulled⟩ := setFitPull_eq false { before with fitSettling := true }
      rw [Sim.beginSettle, pulled]
      refine ⟨attached.sized.patch _, ?_, ?_⟩
      · show (Penalties.patch _ _ _ _).count _ = _
        rw [Penalties.count_patch]
        exact attached.matched.count
      · intro off
        cases off rfl
  | endSettle on =>
      have stiff := stiff_setFitPull attached.sized attached.matched.count
      obtain ⟨stiffness, pulled⟩ := setFitPull_eq true before
      rw [pulled] at stiff
      rw [Sim.endSettle, pulled]
      refine ⟨attached.sized.patch _, ?_, fun _ => stiff⟩
      show (Penalties.patch _ _ _ _).count _ = _
      rw [Penalties.count_patch]
      exact attached.matched.count
  | finishFit gravity damp => exact ⟨attached.sized, attached.matched.congr rfl rfl rfl id⟩
  | restaged staged =>
      have penalties := staged.buffers.penalties
      refine ⟨penalties ▸ attached.sized, attached.matched.congr ?_ ?_ penalties ?_⟩
      · rw [staged.sim]
      · rw [staged.sim]
      · rw [staged.sim]
        exact id

end Attachments

section Moves

variable {σ α : Type*} [Field α] (geometry : Geometry σ α)

/-- The scene is a finished one and the solver in step with it, the masses included. -/
structure InStep (sim : Sim σ α) : Prop where
  finished : sim.scene.Finished geometry
  synced : Synced sim
  weighed : Weighed sim
  mass : MassSynced sim

variable {geometry}

/-- What is in step is about the solver's data, the settings a load uploads, and the
scene's shape and material. -/
theorem InStep.congr {before after : Sim σ α} (inStep : InStep geometry before)
    (data : after.solver.buffers.data = before.solver.buffers.data)
    (cfg : after.cfg.toUpload = before.cfg.toUpload)
    (scene : ∃ fixed prims, after.scene = { before.scene with attachFixed := fixed, prims := prims })
    (settling : after.fitSettling = false → before.fitSettling = false) :
    InStep geometry after := by
  obtain ⟨finished, synced, weighed, mass⟩ := inStep
  have penalties := penalties_of_data data
  simp only [Buffers.data, Buffers.mk.injEq] at data
  obtain ⟨nVerts, -, masses, -, -, -, -, triIdx, triInvUV, bendIdx, bendWeight, bendNTarget, -, -, -,
    radii, -⟩ := data
  obtain ⟨fixed, prims, scene⟩ := scene
  have density : after.cfg.density = before.cfg.density := by rw [cfg]
  have same (family : Constraint) : uploadedCount after.cfg.toUpload after.scene family =
      uploadedCount before.cfg.toUpload before.scene family := by
    rw [cfg, scene]
    cases family <;> rfl
  refine ⟨?_, ⟨penalties ▸ synced.sized, fun family =>
    (synced.matched family).congr (same family) (by rw [scene]) penalties settling,
    ?_, ?_, ?_, ?_, ?_, ?_, ?_⟩, ?_, ?_⟩
  · rw [Scene.Finished, scene]
    exact finished
  · rw [nVerts, scene]
    exact synced.nVerts
  · rw [triIdx, cfg, scene]
    exact synced.triIdx
  · rw [triInvUV, same, scene]
    exact synced.triInvUV
  · rw [bendIdx, cfg, scene]
    exact synced.bendIdx
  · rw [bendWeight, same, scene]
    exact synced.bendWeight
  · rw [bendNTarget, same, scene]
    exact synced.bendNTarget
  · rw [radii, scene]
    exact synced.radii
  · rw [Weighed, density, scene]
    exact weighed
  · rw [MassSynced, masses, scene]
    exact mass

/-- A rest refresh keeps scene and solver in step when it keeps the areas. -/
theorem InStep.refreshRest {sim : Sim σ α} (inStep : InStep geometry sim)
    (areas : ∀ rest0 transform, sim.fitRest0 = some rest0 →
      sim.similarity geometry rest0 = some transform → ∀ i < sim.scene.nV,
        (geometry.sceneFinish sim.scene.nV sim.scene.tri fun i => transform (rest0 i)).vertArea i =
            sim.scene.restData.vertArea i ∨ sim.cfg.density = 0) :
    InStep geometry (sim.refreshRest geometry) := by
  obtain ⟨finished, synced, weighed, mass⟩ := inStep
  have sized : (sim.refreshRest geometry).solver.buffers.penalties.Sized :=
    Sized.refreshRest synced.sized
  have matched (family : Constraint) : Matched (sim.refreshRest geometry) family :=
    (synced.matched family).refreshRest synced.sized fun rest =>
      uploadedCount_reshaped _ finished rest family
  obtain still | ⟨rest0, transform, started, similar, scene, reshaped, refreshed⟩ :=
    refreshRest_cases sim
  · rw [still]
    exact ⟨finished, synced, weighed, mass⟩
  · have areas := areas rest0 transform started similar
    have same (family : Constraint) : uploadedCount sim.cfg.toUpload scene family =
        uploadedCount sim.cfg.toUpload sim.scene family := by
      rw [reshaped]
      exact uploadedCount_reshaped _ finished _ family
    have rows (τ : Type _) {rows : List τ} {family : Constraint} {values : Nat → τ}
        (loaded : rows = load (uploadedCount sim.cfg.toUpload sim.scene family) values) :
        rows.length = uploadedCount sim.cfg.toUpload scene family := by
      rw [loaded, length_load, same]
    have patched := restUploads_eq sim.cfg.toUpload scene
      (fun family => ((synced.matched family).count.trans (same family).symm))
      (rows _ synced.triInvUV) (rows _ synced.bendWeight) (rows _ synced.bendNTarget)
      (by rw [synced.radii, length_load, synced.nVerts])
    rw [refreshed] at sized matched ⊢
    have tri : scene.tri = sim.scene.tri := by
      rw [reshaped]
      rfl
    have nV : scene.nV = sim.scene.nV := by
      rw [reshaped]
      rfl
    have bend : scene.bendIdx = sim.scene.bendIdx := by
      rw [reshaped]
      exact finished.symm
    refine ⟨?_, ⟨sized, matched, ?_, ?_, ?_, ?_, ?_, ?_, ?_⟩, ?_, ?_⟩
    · show scene.bendIdx = geometry.bendIdx scene.tri
      rw [bend, tri]
      exact finished
    · show (Sim.restUploads _ _ _).nVerts = scene.nV
      rw [patched, nV]
      exact synced.nVerts
    · show (Sim.restUploads _ _ _).triIdx = Sim.uploadedTri _ scene
      rw [patched, Sim.uploadedTri, tri]
      exact synced.triIdx
    · show (Sim.restUploads _ _ _).triInvUV = _
      rw [patched]
    · show (Sim.restUploads _ _ _).bendIdx = Sim.uploadedBend _ scene
      rw [patched, Sim.uploadedBend, bend]
      exact synced.bendIdx
    · show (Sim.restUploads _ _ _).bendWeight = _
      rw [patched]
    · show (Sim.restUploads _ _ _).bendNTarget = _
      rw [patched]
    · show (Sim.restUploads _ _ _).radii = _
      rw [patched, synced.nVerts, ← nV]
    · intro i
      show scene.material.massD i = scene.restData.vertArea i * sim.cfg.density
      rw [reshaped]
      rfl
    · show (Sim.restUploads _ _ _).mass = load scene.nV scene.material.massD
      rw [patched, nV]
      refine Eq.trans mass (List.map_congr_left fun i member => ?_)
      have massD : scene.material.massD i = scene.restData.vertArea i * sim.cfg.density := by
        rw [reshaped]
        rfl
      rw [weighed i, massD]
      rcases areas i (List.mem_range.mp member) with kept | weightless
      · rw [reshaped]
        exact congrArg (· * sim.cfg.density) kept.symm
      · rw [weightless, mul_zero, mul_zero]

end Moves

section Run

variable {σ α : Type*} [Field α] {geometry : Geometry σ α} {kernels : Kernels α}

theorem InStep.begun {sim : Sim σ α} (inStep : InStep geometry sim)
    (areas : AreasKept geometry sim) : InStep geometry (sim.begun geometry) := by
  unfold Sim.begun Sim.refresh
  split
  next idle =>
    split
    next due =>
      split
      next rest =>
        exact (inStep.refreshRest (areas idle due rest)).congr rfl rfl ⟨_, _, rfl⟩ id
      next => exact inStep.congr rfl rfl ⟨_, _, rfl⟩ id
    next => exact inStep
  next => exact inStep

/-- The fit pull touches the attachments only. -/
theorem InStep.pulled {sim : Sim σ α} (inStep : InStep geometry sim) (settling : Bool)
    (stiffness : Nat → α) :
    let pulled : Sim σ α := { sim with
      fitSettling := settling
      solver := sim.solver.withBuffers { sim.solver.buffers with
        penalties := sim.solver.buffers.penalties.patch (sim.scene.nAttach ≠ 0) .attachments
          stiffness } }
    Attached pulled → InStep geometry pulled := by
  intro pulled attached
  obtain ⟨finished, synced, weighed, mass⟩ := inStep
  refine ⟨finished, ⟨attached.sized, fun family => ?_, synced.nVerts, synced.triIdx,
    synced.triInvUV, synced.bendIdx, synced.bendWeight, synced.bendNTarget, synced.radii⟩,
    weighed, mass⟩
  by_cases attachments : family = .attachments
  · rw [attachments]
    exact attached.matched
  · obtain ⟨count, stiff⟩ := synced.matched family
    constructor
    · show (Penalties.patch _ _ _ _).count family = _
      rw [Penalties.count_patch]
      exact count
    · intro _
      show (Penalties.patch _ _ _ _).stiff family = _
      rw [Penalties.stiff_patch_other synced.sized _ attachments]
      exact stiff fun same => absurd same attachments

/-- A load uploads the scene's stiffnesses. -/
theorem loaded_matched (solver : Solver α) (scene : Scene σ α) (cfg : Config α) :
    (Sim.load geometry solver scene cfg).solver.buffers.penalties.Sized ∧
      ∀ family, Matched (Sim.load geometry solver scene cfg) family := by
  have penalties : (Sim.load geometry solver scene cfg).solver.buffers.penalties =
      setupPenalties cfg.toUpload (scene.applyMaterial geometry cfg.toUpload)
        solver.buffers.penalties := penalties_uploads _ _ _
  have count := congrArg Penalties.count penalties
  have stiff := congrArg Penalties.stiff penalties
  rw [count_setupPenalties] at count
  rw [stiff_setupPenalties] at stiff
  constructor
  · intro family
    rw [count, stiff, uploadedStiff, length_load]
  · exact fun family => ⟨congrFun count family, fun _ => congrFun stiff family⟩

/-- A load puts scene and solver in step. -/
theorem loaded_inStep (solver : Solver α) {scene : Scene σ α} (cfg : Config α)
    (finished : scene.Finished geometry) : InStep geometry (Sim.load geometry solver scene cfg) := by
  obtain ⟨sized, matched⟩ := loaded_matched solver scene cfg
  have buffers : (Sim.load geometry solver scene cfg).solver.buffers =
      Sim.uploads cfg.toUpload (scene.applyMaterial geometry cfg.toUpload) solver.buffers := rfl
  simp only [Sim.uploads, Buffers.uploadSelfCollisionRadii, Buffers.buildColoring,
    Buffers.setGammaScale] at buffers
  refine ⟨finished, ⟨sized, matched, ?_, ?_, ?_, ?_, ?_, ?_, ?_⟩, fun _ => rfl, ?_⟩
  all_goals
    show _ = _
    simp only [buffers]
    cases cfg.alGamma <;> cases cfg.colors <;> rfl

variable [LinearOrder α]

/-- Every move keeps scene and solver in step. -/
theorem InStep.move {before after : Sim σ α}
    (move : Sim.Move geometry kernels (AreasKept geometry) before after)
    (inStep : InStep geometry before) : InStep geometry after := by
  have attached : Attached after :=
    Attached.move geometry kernels move ⟨inStep.synced.sized, inStep.synced.matched _⟩
  cases move with
  | advance fault running areas =>
      have stepped := advance_stepped geometry kernels fault before
      refine (inStep.begun areas).congr stepped.data (by rw [stepped.cfg]) ?_ ?_
      · exact ⟨_, _, stepped.scene⟩
      · rw [stepped.fitSettling]
        exact id
  | beginFit off => exact inStep.congr rfl rfl ⟨_, _, rfl⟩ fun _ => off
  | beginSettle running active off =>
      obtain ⟨stiffness, pulled⟩ := setFitPull_eq false { before with fitSettling := true }
      rw [Sim.beginSettle, pulled] at attached ⊢
      exact inStep.pulled true stiffness attached
  | endSettle on =>
      obtain ⟨stiffness, pulled⟩ := setFitPull_eq true before
      rw [Sim.endSettle, pulled] at attached ⊢
      exact inStep.pulled false stiffness attached
  | finishFit gravity damp => exact inStep.congr rfl rfl ⟨_, _, rfl⟩ id
  | restaged staged =>
      refine inStep.congr staged.buffers.data (by rw [staged.sim]) ⟨_, _, staged.scene⟩ ?_
      rw [staged.sim]
      exact id

/-- What keeps a call from taking the masses out of step: the scenes loaded are finished
ones, and a rest refresh that a tick begins with keeps the areas. -/
def Steady (geometry : Geometry σ α) (session : Session σ α) : Op σ α → Prop
  | .load scene _ => scene.Finished geometry
  | .tick _ => ∀ sim, session.advancing = some sim → AreasKept geometry sim
  | _ => True

instance (geometry : Geometry σ α) (session : Session σ α) :
    ∀ op, Decidable (Steady geometry session op)
  | .load _ _ => inferInstanceAs (Decidable (_ = _))
  | .tick _ => inferInstanceAs (Decidable (∀ sim ∈ session.advancing, AreasKept geometry sim))
  | .setLive _ | .setPrims _ | .rewind | .enqueueForward _ | .enqueueFit _ _
  | .enqueueBackward _ _ _ => isTrue trivial

/-- A steady call keeps scene and solver in step. -/
theorem step_inStep (session : Session σ α) (op : Op σ α)
    (kept : session.Flagged ∧ InStep geometry session.sim) (steady : Steady geometry session op) :
    (session.step geometry kernels op).Flagged ∧
      InStep geometry (session.step geometry kernels op).sim := by
  obtain ⟨flagged, inStep⟩ := kept
  refine ⟨Session.step_flagged session op flagged, ?_⟩
  cases op with
  | load scene cfg =>
      dsimp only [Session.step]
      split
      · exact loaded_inStep session.sim.solver cfg steady
      · exact inStep
  | setLive live => exact inStep.congr rfl rfl ⟨_, _, rfl⟩ id
  | setPrims prims => exact inStep.congr rfl rfl ⟨_, _, rfl⟩ id
  | rewind =>
      dsimp only [Session.step]
      split
      · exact inStep.congr rfl rfl ⟨_, _, rfl⟩ id
      · exact inStep
  | enqueueForward steps =>
      dsimp only [Session.step]
      split <;> exact inStep
  | enqueueFit maxSteps tol =>
      dsimp only [Session.step]
      split <;> exact inStep
  | enqueueBackward target loss mode => exact inStep
  | tick fault =>
      have ticked : Session.Ticked geometry kernels (AreasKept geometry) session
          (session.tick geometry kernels fault) :=
        Session.tick_ticked fault flagged fun sim advancing _ => steady sim advancing
      exact kept_of_moves (fun _ _ move kept => kept.move move) (ticked.moves flagged) inStep

/-- In a run in which no rest refresh changes an area, the solver's constraints and the
masses of its inertia term are those of the session's scene at every point. -/
theorem solver_follows_scene (geometry : Geometry σ α) (kernels : Kernels α) (solver : Solver α)
    (scene : Scene σ α) (cfg : Config α) (finished : scene.Finished geometry) (ops : List (Op σ α))
    (steady : Along (Session.step geometry kernels) (Steady geometry)
      (Session.opened geometry solver scene cfg) ops) :
    Synced ((Session.opened geometry solver scene cfg).run geometry kernels ops).sim ∧
      MassSynced ((Session.opened geometry solver scene cfg).run geometry kernels ops).sim := by
  have start : (Session.opened geometry solver scene cfg).Flagged ∧
      InStep geometry (Session.opened geometry solver scene cfg).sim :=
    ⟨Session.opened_flagged solver scene cfg, loaded_inStep solver cfg finished⟩
  obtain ⟨-, inStep⟩ := steady.invariant step_inStep start
  exact ⟨inStep.synced, inStep.mass⟩

end Run

section Doubled

/-- Rest data of triangles in the plane, and the similarity of a garment onto its double. -/
def planar : Geometry Unit ℚ :=
  { still with
    similarityFit := fun _ _ _ _ => some fun p => (2 : ℚ) • p
    sceneFinish := fun nV tri rest =>
      let area (t : Fin 3 → Nat) : ℚ :=
        let u := rest (t 1) - rest (t 0)
        let v := rest (t 2) - rest (t 0)
        |u 0 * v 1 - u 1 * v 0| / 2
      { still.sceneFinish nV tri rest with
        triArea := fun t => (tri[t]?.map area).getD 0
        vertArea := fun i => (tri.map fun t =>
          (if t 0 = i ∨ t 1 = i ∨ t 2 = i then area t / 3 else 0)).sum } }

/-- A triangle in the plane. -/
def triangle (i : Nat) : Vec3 ℚ := if i = 0 then 0 else if i = 1 then ![1, 0, 0] else ![0, 1, 0]

/-- A triangle whose vertices are all fitted, its rest refreshed after every step. -/
def fitted : Scene Unit ℚ :=
  { pinned with
    nV := 3
    tri := [![0, 1, 2]]
    rest := triangle
    x0 := triangle
    restData := planar.sceneFinish 3 [![0, 1, 2]] triangle
    pins := []
    fitVerts := [0, 1, 2]
    fitRestEvery := 1
    fitSimilarity := true
    nonempty := Numerals.zero_lt_three }

/-- A solver that doubles the garment. -/
def doubling : Kernels ℚ where
  iteration _ i := (2 : ℚ) • triangle i
  dualStep buffers := buffers.duals
  scan _ := []
  backward _ _ _ := ⟨fun _ => 0, fun _ => 0, fun _ => 0, fun _ => 0, fun _ => 0, fun _ => 0⟩
  shortRead _ := 0

/-- Gravity on, and half of the velocity carried. -/
def falling : Config ℚ := { plain with gravity := ![0, -1, 0], damp := 1 / 2 }

/-- No call of the solver reports an error. -/
def sound : Fault := ⟨false, false⟩

/-- The similarity of a garment onto one beside it. -/
def aside : Geometry Unit ℚ :=
  { planar with similarityFit := fun _ _ _ _ => some fun p => p + ![1, 0, 0] }

/-- A solver that moves the garment aside. -/
def moving : Kernels ℚ := { doubling with iteration := fun _ i => triangle i + ![1, 0, 0] }

/-- A fit phase that moves the garment aside refreshes the rest shape and no area changes. -/
theorem solver_follows_scene_aside :
    let session := (Session.opened aside (.fresh false) fitted plain).run aside moving
      [.enqueueFit 3 0, .tick sound, .tick sound, .tick sound, .tick sound, .tick sound]
    Synced session.sim ∧ MassSynced session.sim ∧
      session.sim.scene.rest 0 = ![1, 0, 0] ∧ fitted.rest 0 = 0 := by
  intro session
  have follows := solver_follows_scene aside moving (.fresh false) fitted plain rfl
    [.enqueueFit 3 0, .tick sound, .tick sound, .tick sound, .tick sound, .tick sound]
    (by decide +kernel)
  exact ⟨follows.1, follows.2, by decide +kernel, rfl⟩

/-- A fit step that doubles the garment leaves the solver with a quarter of the masses. -/
theorem masses_drift : ¬∀ (solver : Solver ℚ) (scene : Scene Unit ℚ) (cfg : Config ℚ),
    scene.Finished planar → ∀ ops : List (Op Unit ℚ),
      Synced ((Session.opened planar solver scene cfg).run planar doubling ops).sim ∧
        MassSynced ((Session.opened planar solver scene cfg).run planar doubling ops).sim := by
  intro follows
  have mass := (follows (.fresh false) fitted plain rfl
    [.enqueueFit 3 0, .tick sound, .tick sound, .tick sound]).2
  revert mass
  show ¬(_ : List ℚ) = load _ _
  decide +kernel

end Doubled

end DressOn.Drape
