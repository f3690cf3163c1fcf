import Mathlib.Tactic.NormNum
import Mathlib.Logic.Function.Iterate
import DressOn.Drape.Sim

/-!
# Loading again

`setup` uploads every buffer whole, then multiplies the penalties by the
configured scale. The solver keeps the product of the scales across setups; on
`AvbdRd` the next setup's uploads start from it.
-/

namespace DressOn.Drape

open DressOn.Avbd (Vec3)
open DressOn.Avbd.Backends (load length_load)
open DressOn.Avbd.Penalties (AvbdCpu AvbdRd Constraint updateF32_of_length)

section Penalties

variable {α : Type*} [Field α]

namespace Penalties

/-- The scale an upload applies. -/
def carried : Penalties α → α
  | .cpu _ => 1
  | .rd side => side.gammaScale

/-- A family is uploaded at the scale its back end carries. -/
theorem gamma_upload (family : Constraint) (n : Nat) (stiffness : Nat → α)
    (penalties : Penalties α) :
    (penalties.upload family n stiffness).gamma =
      Function.update penalties.gamma family ((load n stiffness).map (· * penalties.carried)) := by
  cases penalties with
  | cpu side => simp [upload, gamma, carried, AvbdCpu.upload]
  | rd side => simp only [upload, gamma, carried, Avbd.Penalties.AvbdRd.upload_eq]

/-- An upload leaves the scale. -/
@[simp] theorem carried_upload (family : Constraint) (n : Nat) (stiffness : Nat → α)
    (penalties : Penalties α) :
    (penalties.upload family n stiffness).carried = penalties.carried := by
  cases penalties with
  | cpu side => rfl
  | rd side => simp only [upload, carried, Avbd.Penalties.AvbdRd.upload_eq]

/-- Which back end it is. -/
def onRd : Penalties α → Bool
  | .cpu _ => false
  | .rd _ => true

/-- `AvbdRd` keeps the product of the scales, `AvbdCpu` none. -/
theorem carried_setGammaScale (scale : α) (penalties : Penalties α) :
    (penalties.setGammaScale scale).carried =
      if penalties.onRd then penalties.carried * scale else 1 := by
  cases penalties <;> rfl

/-- An upload leaves the back end. -/
@[simp] theorem onRd_upload (family : Constraint) (n : Nat) (stiffness : Nat → α)
    (penalties : Penalties α) : (penalties.upload family n stiffness).onRd = penalties.onRd := by
  cases penalties <;> rfl

/-- A scale leaves the back end. -/
@[simp] theorem onRd_setGammaScale (scale : α) (penalties : Penalties α) :
    (penalties.setGammaScale scale).onRd = penalties.onRd := by
  cases penalties <;> rfl

/-- `AvbdCpu` carries no scale. -/
theorem carried_cpu {penalties : Penalties α} (cpu : penalties.onRd = false) :
    penalties.carried = 1 := by
  cases penalties with
  | cpu side => rfl
  | rd side => cases cpu

/-- The device's penalties are the host's. -/
def Mirrored : Penalties α → Prop
  | .cpu _ => True
  | .rd side => side.gamma = side.hostGamma

/-- Where the device mirrors the host, a scale multiplies every penalty. -/
theorem gamma_setGammaScale {penalties : Penalties α} (mirrored : penalties.Mirrored) (scale : α) :
    (penalties.setGammaScale scale).gamma = fun family =>
      (penalties.gamma family).map (· * scale) := by
  cases penalties with
  | cpu side => rfl
  | rd side =>
      have same : side.gamma = side.hostGamma := mirrored
      funext family
      simp only [setGammaScale, gamma, AvbdRd.setGammaScale, same]
      exact updateF32_of_length (by simp)

/-- The three families are uploaded. -/
def uploadAll (counts : Constraint → Nat) (stiffness : Constraint → Nat → α)
    (penalties : Penalties α) : Penalties α :=
  ((penalties.upload .attachments (counts .attachments) (stiffness .attachments)).upload
    .triangles (counts .triangles) (stiffness .triangles)).upload
    .bendings (counts .bendings) (stiffness .bendings)

variable (counts : Constraint → Nat) (stiffness : Constraint → Nat → α) (penalties : Penalties α)

/-- The counts are those of the last uploads. -/
theorem count_uploadAll : (penalties.uploadAll counts stiffness).count = counts := by
  funext family
  cases family <;> simp [uploadAll]

/-- The stiffnesses are those of the last uploads. -/
theorem stiff_uploadAll : (penalties.uploadAll counts stiffness).stiff = fun family =>
    load (counts family) (stiffness family) := by
  funext family
  cases family <;> simp [uploadAll]

/-- The penalties are those of the last uploads, at the scale that was carried. -/
theorem gamma_uploadAll : (penalties.uploadAll counts stiffness).gamma = fun family =>
    (load (counts family) (stiffness family)).map (· * penalties.carried) := by
  funext family
  cases family <;> simp [uploadAll, gamma_upload]

/-- Uploads leave the scale. -/
theorem carried_uploadAll : (penalties.uploadAll counts stiffness).carried = penalties.carried := by
  simp [uploadAll]

/-- The uploads write the device and the host alike. -/
theorem mirrored_uploadAll : (penalties.uploadAll counts stiffness).Mirrored := by
  cases penalties with
  | cpu side => trivial
  | rd side =>
      simp only [uploadAll, upload, Mirrored, Avbd.Penalties.AvbdRd.upload_eq]
      funext family
      cases family <;> simp

end Penalties

end Penalties

section Setup

variable {σ α : Type*} [Field α] (geometry : Geometry σ α)

/-- How many constraints of a family `setup` uploads. -/
def uploadedCount (cfg : Upload α) (scene : Scene σ α) : Constraint → Nat
  | .attachments => scene.attachVert.length
  | .triangles => (Sim.uploadedTri cfg scene).length
  | .bendings => (Sim.uploadedBend cfg scene).length

/-- The stiffnesses `setup` uploads, by index. -/
def stiffness (scene : Scene σ α) : Constraint → Nat → α
  | .attachments => scene.material.attachK
  | .triangles => scene.material.triK
  | .bendings => scene.material.bendK

/-- The stiffnesses `setup` uploads. -/
def uploadedStiff (cfg : Upload α) (scene : Scene σ α) (family : Constraint) : List α :=
  load (uploadedCount cfg scene family) (stiffness scene family)

/-- The configured scale; one when unset. -/
def scaleSet (cfg : Upload α) : α := cfg.alGamma.getD 1

/-- What `setup` does to the penalties. -/
def setupPenalties (cfg : Upload α) (scene : Scene σ α) (penalties : Penalties α) : Penalties α :=
  let uploaded := penalties.uploadAll (uploadedCount cfg scene) (stiffness scene)
  match cfg.alGamma with
  | none => uploaded
  | some alGamma => uploaded.setGammaScale alGamma

variable (cfg : Upload α) (scene : Scene σ α)

/-- Of all that `setup` uploads, the penalties take the families and the scale. -/
theorem penalties_uploads (buffers : Buffers α) :
    (Sim.uploads cfg scene buffers).penalties = setupPenalties cfg scene buffers.penalties := by
  simp only [Sim.uploads, setupPenalties, Buffers.uploadSelfCollisionRadii, Buffers.buildColoring]
  cases cfg.alGamma <;> cases cfg.colors <;> rfl

/-- Every buffer but the penalties is overwritten whole. -/
theorem uploads_overwrite (buffers other : Buffers α) :
    { Sim.uploads cfg scene buffers with penalties := (Sim.uploads cfg scene other).penalties } =
      Sim.uploads cfg scene other := by
  simp only [Sim.uploads, Buffers.uploadSelfCollisionRadii, Buffers.buildColoring,
    Buffers.setGammaScale]
  cases cfg.alGamma <;> cases cfg.colors <;> rfl

/-- A setup leaves its own counts. -/
theorem count_setupPenalties (penalties : Penalties α) :
    (setupPenalties cfg scene penalties).count = uploadedCount cfg scene := by
  simp only [setupPenalties]
  cases cfg.alGamma <;> simp [Penalties.count_uploadAll]

/-- A setup leaves its own stiffnesses. -/
theorem stiff_setupPenalties (penalties : Penalties α) :
    (setupPenalties cfg scene penalties).stiff = uploadedStiff cfg scene := by
  simp only [setupPenalties]
  cases cfg.alGamma <;> simp [Penalties.stiff_uploadAll, uploadedStiff, funext_iff]

/-- A setup leaves its stiffnesses at the scale carried before it times its own. -/
theorem gamma_setupPenalties (penalties : Penalties α) :
    (setupPenalties cfg scene penalties).gamma = fun family =>
      (uploadedStiff cfg scene family).map (· * (penalties.carried * scaleSet cfg)) := by
  simp only [setupPenalties, scaleSet]
  cases cfg.alGamma with
  | none => simp [Penalties.gamma_uploadAll, uploadedStiff]
  | some alGamma =>
      simp only [Penalties.gamma_setGammaScale (Penalties.mirrored_uploadAll _ _ _),
        Penalties.gamma_uploadAll, List.map_map, Option.getD_some, uploadedStiff]
      funext family
      apply List.map_congr_left
      intro k _
      simp [mul_assoc]

/-- A setup leaves the back end. -/
@[simp] theorem onRd_setupPenalties (penalties : Penalties α) :
    (setupPenalties cfg scene penalties).onRd = penalties.onRd := by
  simp only [setupPenalties]
  cases cfg.alGamma <;> simp [Penalties.uploadAll]

/-- On `AvbdRd` the scale a setup leaves is what the next one's uploads apply. -/
theorem carried_setupPenalties {penalties : Penalties α} (rd : penalties.onRd = true) :
    (setupPenalties cfg scene penalties).carried = penalties.carried * scaleSet cfg := by
  simp only [setupPenalties, scaleSet]
  cases cfg.alGamma with
  | none => simp [Penalties.carried_uploadAll]
  | some alGamma =>
      simp [Penalties.carried_setGammaScale, Penalties.uploadAll, rd]

/-- So do many. -/
theorem onRd_iterate (n : Nat) (penalties : Penalties α) :
    ((setupPenalties cfg scene)^[n] penalties).onRd = penalties.onRd := by
  induction n with
  | zero => rfl
  | succ n ih => rw [Function.iterate_succ_apply', onRd_setupPenalties, ih]

/-- On `AvbdRd` every setup multiplies the scale that the next uploads apply. -/
theorem carried_iterate {penalties : Penalties α} (rd : penalties.onRd = true) (n : Nat) :
    ((setupPenalties cfg scene)^[n] penalties).carried = penalties.carried * scaleSet cfg ^ n := by
  induction n with
  | zero => simp
  | succ n ih =>
      rw [Function.iterate_succ_apply', carried_setupPenalties cfg scene
        ((onRd_iterate cfg scene n penalties).trans rd), ih, pow_succ, mul_assoc]

end Setup

section Reload

variable {σ α : Type*} [Field α] (geometry : Geometry σ α)

/-- Applying the material again changes nothing. -/
theorem applyMaterial_again (scene : Scene σ α) (cfg : Upload α) :
    (scene.applyMaterial geometry cfg).applyMaterial geometry cfg =
      scene.applyMaterial geometry cfg := rfl

/-- After `n + 1` setups the solver holds the uploads of the scene, made on the
penalties `n` setups left. -/
theorem iterate_setup (sim : Sim σ α) (n : Nat) :
    let scene := sim.scene.applyMaterial geometry sim.cfg.toUpload
    let loaded := (Sim.setup geometry)^[n + 1] sim
    loaded.cfg = sim.cfg ∧ loaded.scene = scene ∧ ∃ buffers,
      loaded.solver.buffers = Sim.uploads sim.cfg.toUpload scene buffers ∧
        buffers.penalties =
          (setupPenalties sim.cfg.toUpload scene)^[n] sim.solver.buffers.penalties := by
  intro scene loaded
  induction n with
  | zero => exact ⟨rfl, rfl, sim.solver.buffers, rfl, rfl⟩
  | succ n ih =>
      have again : loaded = Sim.setup geometry ((Sim.setup geometry)^[n + 1] sim) :=
        Function.iterate_succ_apply' _ _ _
      generalize (Sim.setup geometry)^[n + 1] sim = before at ih again
      obtain ⟨cfg, sceneKept, buffers, uploaded, penalties⟩ := ih
      have applied : before.scene.applyMaterial geometry before.cfg.toUpload = scene := by
        rw [cfg, sceneKept]
        exact applyMaterial_again geometry _ _
      rw [again]
      refine ⟨cfg, applied, before.solver.buffers, ?_, ?_⟩
      · rw [← applied, ← cfg]
        rfl
      · rw [uploaded, penalties_uploads, penalties, Function.iterate_succ_apply']

/-- Two solvers hold the same constraint data: everything but the penalties. -/
structure SameConstraints (left right : Buffers α) : Prop where
  buffers : { left with penalties := right.penalties } = right
  count : left.penalties.count = right.penalties.count
  stiff : left.penalties.stiff = right.penalties.stiff

/-- A new solver, set up `n` times with a scene and a configuration. -/
def reloaded (onRd : Bool) (scene : Scene σ α) (cfg : Config α) (n : Nat) : Buffers α :=
  ((Sim.setup geometry)^[n] (Sim.make (.fresh onRd) scene cfg)).solver.buffers

/-- The solver after `n` setups is the solver after one. -/
structure ReloadedAlike (onRd : Bool) (scene : Scene σ α) (cfg : Config α) (n : Nat) : Prop where
  constraints : SameConstraints (reloaded geometry onRd scene cfg n)
    (reloaded geometry onRd scene cfg 1)
  gamma : ∀ family, (reloaded geometry onRd scene cfg n).penalties.gamma family =
    ((reloaded geometry onRd scene cfg 1).penalties.stiff family).map (· * scaleSet cfg.toUpload)

variable (onRd : Bool) (scene : Scene σ α) (cfg : Config α)

/-- The stiffnesses a setup uploads for a scene. -/
def sceneStiff : Constraint → List α :=
  uploadedStiff cfg.toUpload (scene.applyMaterial geometry cfg.toUpload)

/-- All but the penalties is after any setups what it is after one. -/
theorem reloaded_constraints (n : Nat) :
    SameConstraints (reloaded geometry onRd scene cfg (n + 1))
      (reloaded geometry onRd scene cfg 1) := by
  obtain ⟨-, -, buffers, uploaded, -⟩ := iterate_setup geometry (Sim.make (.fresh onRd) scene cfg) n
  obtain ⟨-, -, first, once, -⟩ := iterate_setup geometry (Sim.make (.fresh onRd) scene cfg) 0
  rw [reloaded, reloaded, uploaded, once]
  constructor
  · exact uploads_overwrite _ _ _ _
  · simp only [penalties_uploads, count_setupPenalties]
  · simp only [penalties_uploads, stiff_setupPenalties]

/-- The stiffnesses are those of the scene after any setups. -/
theorem reloaded_stiff (n : Nat) :
    (reloaded geometry onRd scene cfg (n + 1)).penalties.stiff = sceneStiff geometry scene cfg := by
  obtain ⟨-, -, buffers, uploaded, -⟩ := iterate_setup geometry (Sim.make (.fresh onRd) scene cfg) n
  rw [reloaded, uploaded, penalties_uploads, stiff_setupPenalties]
  rfl

/-- The penalties after `n + 1` setups. -/
theorem reloaded_gamma (n : Nat) (family : Constraint) :
    (reloaded geometry onRd scene cfg (n + 1)).penalties.gamma family =
      (sceneStiff geometry scene cfg family).map
        (· * ((if onRd then scaleSet cfg.toUpload ^ n else 1) * scaleSet cfg.toUpload)) := by
  obtain ⟨-, -, buffers, uploaded, penalties⟩ :=
    iterate_setup geometry (Sim.make (.fresh onRd) scene cfg) n
  rw [reloaded, uploaded, penalties_uploads, gamma_setupPenalties, penalties]
  cases onRd with
  | false =>
      rw [Penalties.carried_cpu (onRd_iterate _ _ _ _)]
      rfl
  | true =>
      rw [carried_iterate _ _ rfl]
      simp only [Sim.make, Solver.fresh, Buffers.fresh, Penalties.fresh, Penalties.carried,
        AvbdRd.fresh, if_true, one_mul]
      rfl

/-- A scale that leaves a list alone after another. -/
theorem map_mul_eq_map_iff (values : List α) (scale factor : α) :
    values.map (· * (factor * scale)) = values.map (· * scale) ↔
      factor * scale = scale ∨ ∀ k ∈ values, k = 0 := by
  rw [List.map_inj_left]
  constructor
  · intro same
    by_cases equal : factor * scale = scale
    · exact Or.inl equal
    · right
      intro k member
      by_contra nonzero
      exact equal (mul_left_cancel₀ nonzero (same k member))
  · rintro (equal | zero) k member
    · rw [equal]
    · simp [zero k member]

/-- Setting up any number of times leaves the solver as once does exactly when it
is `AvbdCpu`, or no scale is configured, or the scale is zero or one, or no
stiffness is uploaded but zero. -/
theorem reload_idempotent_iff :
    (∀ n, 1 ≤ n → ReloadedAlike geometry onRd scene cfg n) ↔
      onRd = false ∨ cfg.alGamma = none ∨ cfg.alGamma = some 0 ∨ cfg.alGamma = some 1 ∨
        ∀ family, ∀ k ∈ sceneStiff geometry scene cfg family, k = 0 := by
  have alike : (∀ n, 1 ≤ n → ReloadedAlike geometry onRd scene cfg n) ↔
      ∀ n family, (if onRd then scaleSet cfg.toUpload ^ n else 1) * scaleSet cfg.toUpload =
        scaleSet cfg.toUpload ∨ ∀ k ∈ sceneStiff geometry scene cfg family, k = 0 := by
    constructor
    · intro same n family
      have gamma := (same (n + 1) (by omega)).gamma family
      rw [reloaded_gamma, reloaded_stiff] at gamma
      exact (map_mul_eq_map_iff _ _ _).mp gamma
    · intro same n atLeastOne
      obtain ⟨n, rfl⟩ := Nat.exists_eq_add_of_le' atLeastOne
      refine ⟨reloaded_constraints geometry onRd scene cfg n, fun family => ?_⟩
      rw [reloaded_gamma, reloaded_stiff]
      exact (map_mul_eq_map_iff _ _ _).mpr (same n family)
  rw [alike]
  cases onRd with
  | false => simp
  | true =>
      cases set : cfg.alGamma with
      | none => simp [scaleSet, set]
      | some alGamma =>
          simp only [scaleSet, set, Option.getD_some, if_true, Bool.true_eq_false, false_or,
            reduceCtorEq, Option.some.injEq]
          constructor
          · intro same
            by_cases slack : ∀ family, ∀ k ∈ sceneStiff geometry scene cfg family, k = 0
            · exact Or.inr (Or.inr slack)
            · obtain ⟨family, stiff⟩ := not_forall.mp slack
              have squared := (same 1 family).resolve_right stiff
              rw [pow_one, mul_left_eq_self₀] at squared
              rcases squared with one | zero
              · exact Or.inr (Or.inl one)
              · exact Or.inl zero
          · rintro (rfl | rfl | slack) n family
            · exact Or.inl (mul_zero _)
            · exact Or.inl (by simp)
            · exact Or.inr (slack family)

/-- With the scale 2 the second setup on `AvbdRd` doubles the penalty of a pin again. -/
theorem reload_drifts :
    ¬∀ (onRd : Bool) (scene : Scene Unit ℚ) (cfg : Config ℚ) (n : Nat), 1 ≤ n →
      ReloadedAlike still onRd scene cfg n := by
  intro alike
  have twice := (alike true pinned { plain with alGamma := some 2 } 2 (by decide)).gamma .attachments
  rw [reloaded_gamma, reloaded_stiff] at twice
  have doubled : [(1 : ℚ) * ((2 : ℚ) ^ 1 * 2)] = [1 * 2] := twice
  norm_num at doubled

end Reload

end DressOn.Drape
