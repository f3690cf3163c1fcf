import DressOn.Host.Guest

/-!
# Refused meshes

`drape_fit_set` looks at its arguments before it touches the scene. `drape_scene_mesh` sets the
material before it looks at the mesh, and puts the mesh in the scene before it looks for a solver.
-/

namespace DressOn.Host.Guest

open DressOn.Texts

variable {R : Type} {floats : Floats R} {below : Outside R} {g : Guest R}

/-- The configuration, the scene and the session are as they were. -/
structure Unchanged (before after : Guest R) : Prop where
  cfg : after.cfg = before.cfg
  scene : after.scene = before.scene
  sceneSet : after.sceneSet = before.sceneSet
  session : after.session = before.session

/-- Nothing done changes nothing. -/
theorem Unchanged.refl (g : Guest R) : Unchanged g g := ⟨rfl, rfl, rfl, rfl⟩

/-- A call that answers FAIL has changed nothing. -/
def Kept (g : Guest R) (answered : Guest R × Text) : Prop :=
  beginsWith answered.2 "FAIL".toList = true → Unchanged g answered.1

/-- A refusal begins with FAIL. -/
theorem fails_of_refusal (error : Text) :
    beginsWith ("FAIL: ".toList ++ error) "FAIL".toList = true := rfl

/-- A call that answers something else has nothing to keep. -/
theorem kept_of_not_fail {answered : Guest R × Text}
    (no : beginsWith answered.2 "FAIL".toList = false) : Kept g answered :=
  fun fail => absurd (no.symm.trans fail) nofun

/-- `drape_fit_set` keeps everything it refuses. -/
theorem drapeFitSet_kept (g : Guest R) (verts : List Int) (params : List R) (anchor : List Int) :
    Kept g (g.drapeFitSet floats verts params anchor) := by
  unfold drapeFitSet
  dsimp only
  split
  · exact fun _ => .refl g
  · split
    · exact kept_of_not_fail rfl
    · split
      · exact fun _ => .refl g
      · exact kept_of_not_fail rfl

/-! ### The material -/

/-- The configuration holds a material already. -/
def Holds (cfg : Config R) (material : List R) : Prop :=
  ∀ entry ∈ materialKeys.zip material, cfg entry.1 = some (.number entry.2)

/-- The density of a material is taken. -/
def DensityTaken (floats : Floats R) (material : List R) : Prop :=
  ∀ density ∈ material.head?, floats.less (floats.ofRat 0) density = true

/-- A setting that is there already changes nothing. -/
theorem put_eq_self {cfg : Config R} {key : Text} {setting : Setting R} :
    cfg.put key setting = cfg ↔ cfg key = some setting := by
  constructor
  · intro same
    rw [← same]
    exact if_pos rfl
  · intro holds
    funext other
    unfold Config.put
    split
    next same => rw [same, holds]
    next => rfl

/-- The density has to be positive. -/
theorem taking_density : taking "density".toList = some .positive := by decide

/-- A stiffness may be any number. -/
theorem taking_stiffness :
    ∀ key ∈ ["kTri".toList, "kBend".toList, "kAttach".toList], taking key = some .number := by
  decide

/-- Where every value is taken, the settings end as they were only if they held the values. -/
theorem setMaterial_eq_self {entries : List (Text × R)} (distinct : (entries.map Prod.fst).Nodup)
    (takes : ∀ entry ∈ entries, ∀ cfg : Config R,
      cfg.set floats entry.1 entry.2 = some (cfg.put entry.1 (.number entry.2)))
    (cfg : Config R) :
    (setMaterial floats entries cfg).2 = none ∧
      (∀ key, key ∉ entries.map Prod.fst → (setMaterial floats entries cfg).1 key = cfg key) ∧
      ((setMaterial floats entries cfg).1 = cfg ↔
        ∀ entry ∈ entries, cfg entry.1 = some (.number entry.2)) := by
  induction entries generalizing cfg with
  | nil => exact ⟨rfl, fun _ _ => rfl, fun _ => nofun, fun _ => rfl⟩
  | cons entry later inductionHypothesis =>
    obtain ⟨key, value⟩ := entry
    obtain ⟨absent, distinct⟩ := List.nodup_cons.1 distinct
    obtain ⟨whole, others, same⟩ := inductionHypothesis distinct
      (fun entry member => takes entry (List.mem_cons_of_mem _ member))
      (cfg.put key (.number value))
    rw [setMaterial, takes (key, value) List.mem_cons_self cfg]
    refine ⟨whole, fun other outside => ?_, fun ends => ?_, fun holds => ?_⟩
    · obtain ⟨ne, outside⟩ := not_or.1 (List.mem_cons.not.1 outside)
      exact (others other outside).trans (Config.put_of_ne cfg _ ne)
    · have here : cfg key = some (.number value) := by
        rw [← ends]
        exact (others key absent).trans (if_pos rfl)
      have unchanged : cfg.put key (.number value) = cfg := put_eq_self.2 here
      rw [unchanged] at ends same
      exact List.forall_mem_cons.2 ⟨here, same.1 ends⟩
    · obtain ⟨here, holds⟩ := List.forall_mem_cons.1 holds
      have unchanged : cfg.put key (.number value) = cfg := put_eq_self.2 here
      rw [unchanged] at same ⊢
      exact same.2 holds

/-- The keys that are set are among those that are listed. -/
theorem keys_of_zip (keys : List Text) (values : List R) :
    ((keys.zip values).map Prod.fst).Sublist keys := by
  induction keys generalizing values with
  | nil => exact List.Sublist.slnil
  | cons key keys inductionHypothesis =>
    cases values with
    | nil => exact List.nil_sublist _
    | cons value values => exact (inductionHypothesis values).cons_cons key

/-- A material whose density is taken is taken whole. -/
theorem setMaterial_of_taken {material : List R} (taken : DensityTaken floats material)
    (cfg : Config R) :
    (setMaterial floats (materialKeys.zip material) cfg).2 = none ∧
      ((setMaterial floats (materialKeys.zip material) cfg).1 = cfg ↔ Holds cfg material) := by
  have distinct : ((materialKeys.zip material).map Prod.fst).Nodup :=
    (keys_of_zip materialKeys material).nodup (by decide)
  obtain ⟨whole, -, same⟩ := @setMaterial_eq_self R floats _ distinct (fun entry member cfg => by
    cases material with
    | nil => cases member
    | cons density material =>
      rcases List.mem_cons.1 member with rfl | member
      · unfold Config.set
        rw [taking_density]
        exact if_pos (taken density rfl)
      · exact Config.set_number cfg entry.2 (taking_stiffness entry.1
          ((keys_of_zip _ material).subset (List.mem_map_of_mem member)))) cfg
  exact ⟨whole, same⟩

/-- A material whose density is refused sets nothing. -/
theorem setMaterial_of_refused {material : List R} (refused : ¬ DensityTaken floats material)
    (cfg : Config R) :
    setMaterial floats (materialKeys.zip material) cfg = (cfg, some "density".toList) := by
  cases material with
  | nil => exact absurd nofun refused
  | cons density material =>
    have less : ¬ floats.less (floats.ofRat 0) density = true :=
      fun less => refused fun other same => by cases same; exact less
    show setMaterial floats (("density".toList, density) :: _) cfg = _
    rw [setMaterial, Config.set, taking_density]
    dsimp only
    rw [if_neg less]

/-! ### The mesh -/

/-- The device makes no solver for the back end that so many vertices ask for. -/
structure NoSolver (below : Outside R) (g : Guest R) (nV : Nat) : Prop where
  device : below.device ≠ none
  backend : pickBackend g.want nV ≠ "cpu".toList
  session : ∀ s ∈ g.session, s.backend ≠ pickBackend g.want nV

/-- Where `drape_scene_mesh` refuses, what it has set by then is what there was. -/
structure MayRefuse (floats : Floats R) (below : Outside R) (g : Guest R) (pos : List R)
    (tris pins : List Int) (material : List R) : Prop where
  /-- A mesh is refused behind a material that the configuration holds. -/
  mesh : g.busy = false → DensityTaken floats material →
    ∀ error, g.scene.mesh floats pos tris pins = .error error → Holds g.cfg material
  /-- A load fails behind the very scene, without a session. -/
  solver : g.busy = false → DensityTaken floats material →
    ∀ scene, g.scene.mesh floats pos tris pins = .ok scene → NoSolver below g scene.nV →
      Holds g.cfg material ∧ scene = g.scene ∧ g.sceneSet = true ∧ g.session = none

/-- A session is refused where the device makes no solver and the back end is not the CPU. -/
theorem makeDrapeSession_error_iff (backend : Text) :
    (∃ error, makeDrapeSession floats below backend = .error error) ↔
      below.device ≠ none ∧ backend ≠ "cpu".toList := by
  unfold makeDrapeSession
  cases below.device with
  | none => exact ⟨nofun, fun no => absurd rfl no.1⟩
  | some error =>
    dsimp only
    split
    next cpu => exact ⟨nofun, fun no => absurd cpu no.2⟩
    next other => exact ⟨fun _ => ⟨nofun, other⟩, fun _ => ⟨error, rfl⟩⟩

/-- A session is refused where none of the back end is there and none can be made. -/
theorem sessionFor_error_iff (backend : Text) :
    (∃ error, g.sessionFor floats below backend = .error error) ↔
      below.device ≠ none ∧ backend ≠ "cpu".toList ∧ ∀ s ∈ g.session, s.backend ≠ backend := by
  have made := @makeDrapeSession_error_iff R floats below backend
  unfold sessionFor
  cases g.session with
  | none =>
    refine made.trans ⟨fun no => ⟨no.1, no.2, fun s member => ?_⟩, fun no => ⟨no.1, no.2.1⟩⟩
    cases member
  | some s =>
    dsimp only
    split
    next same => exact ⟨nofun, fun no => absurd same (no.2.2 s rfl)⟩
    next other =>
      refine made.trans ⟨fun no => ⟨no.1, no.2, fun s' same => ?_⟩, fun no => ⟨no.1, no.2.1⟩⟩
      cases same
      exact other

/-- A scene with vertices is loaded, unless there is no solver for it. -/
theorem loadScene_of_pos (vertices : 0 < g.scene.nV) :
    (NoSolver below g g.scene.nV ∧
      (g.loadScene floats below).1 = { g with session := none } ∧
      beginsWith (g.loadScene floats below).2 "FAIL".toList = true) ∨
    (¬ NoSolver below g g.scene.nV ∧
      beginsWith (g.loadScene floats below).2 "FAIL".toList = false) := by
  have solver := @sessionFor_error_iff R floats below g (pickBackend g.want g.scene.nV)
  unfold loadScene
  dsimp only
  cases made : g.sessionFor floats below (pickBackend g.want g.scene.nV) with
  | error error =>
    obtain ⟨device, backend, session⟩ := solver.1 ⟨error, made⟩
    exact Or.inl ⟨⟨device, backend, session⟩, rfl, rfl⟩
  | ok s =>
    refine Or.inr ⟨fun no => ?_, ?_⟩
    · obtain ⟨error, failed⟩ := solver.2 ⟨no.device, no.backend, no.session⟩
      cases made.symm.trans failed
    · dsimp only [Session.load]
      rw [if_neg (Nat.ne_of_gt vertices)]
      rfl

/-- `drape_scene_mesh` keeps everything it refuses exactly where there is nothing to undo. -/
theorem drapeSceneMesh_kept_iff (g : Guest R) (pos : List R) (tris pins : List Int)
    (material : List R) :
    Kept g (g.drapeSceneMesh floats below pos tris pins material) ↔
      MayRefuse floats below g pos tris pins material := by
  unfold drapeSceneMesh
  cases busy : g.busy with
  | true =>
    have not_idle (idle : g.busy = false) : False := absurd (busy.symm.trans idle) nofun
    exact ⟨fun _ => ⟨fun idle => (not_idle idle).elim, fun idle => (not_idle idle).elim⟩,
      fun _ => kept_of_not_fail rfl⟩
  | false =>
    rw [if_neg nofun]
    by_cases taken : DensityTaken floats material
    · obtain ⟨whole, same⟩ := setMaterial_of_taken taken g.cfg
      generalize setMaterial floats (materialKeys.zip material) g.cfg = set at whole same ⊢
      obtain ⟨cfg, stopped⟩ := set
      cases whole
      dsimp only at same ⊢
      cases mesh : g.scene.mesh floats pos tris pins with
      | error error =>
        refine ⟨fun kept => ⟨fun _ _ _ _ => same.1 (kept (fails_of_refusal error)).cfg, fun _ _ _ made => ?_⟩,
          fun may _ => ⟨same.2 (may.mesh busy taken error mesh), rfl, rfl, rfl⟩⟩
        cases mesh.symm.trans made
      | ok scene =>
        have no_error (error : Text) (made : g.scene.mesh floats pos tris pins = .error error) :
            Holds g.cfg material := by
          cases mesh.symm.trans made
        rcases @loadScene_of_pos R floats below
          { g with cfg := cfg, scene := scene, sceneSet := true } (mesh_taken mesh).1 with
          ⟨no, after, fails⟩ | ⟨solver, loaded⟩
        · constructor
          · intro kept
            have unchanged := kept fails
            rw [after] at unchanged
            refine ⟨fun _ _ => no_error, fun _ _ other made _ => ?_⟩
            cases mesh.symm.trans made
            exact ⟨same.1 unchanged.cfg, unchanged.scene, unchanged.sceneSet.symm,
              unchanged.session.symm⟩
          · intro may _
            obtain ⟨holds, there, set, none⟩ :=
              may.solver busy taken scene mesh ⟨no.device, no.backend, no.session⟩
            rw [after]
            exact ⟨same.2 holds, there, set.symm, none.symm⟩
        · refine ⟨fun _ => ⟨fun _ _ => no_error, fun _ _ other made no => ?_⟩,
            fun _ => kept_of_not_fail loaded⟩
          cases mesh.symm.trans made
          exact absurd ⟨no.device, no.backend, no.session⟩ solver
    · rw [setMaterial_of_refused taken g.cfg]
      exact ⟨fun _ => ⟨fun _ yes => absurd yes taken, fun _ yes => absurd yes taken⟩,
        fun _ _ => ⟨rfl, rfl, rfl, rfl⟩⟩

/-- Refused meshes and refused fit sets change nothing exactly where a mesh is refused behind
nothing new. -/
theorem refused_unchanged_iff (floats : Floats R) (below : Outside R) (g : Guest R) (pos : List R)
    (tris pins : List Int) (material : List R) (verts : List Int) (params : List R)
    (anchor : List Int) :
    (Kept g (g.drapeSceneMesh floats below pos tris pins material) ∧
        Kept g (g.drapeFitSet floats verts params anchor)) ↔
      MayRefuse floats below g pos tris pins material :=
  ⟨fun kept => (drapeSceneMesh_kept_iff g pos tris pins material).1 kept.1,
    fun may => ⟨(drapeSceneMesh_kept_iff g pos tris pins material).2 may,
      drapeFitSet_kept g verts params anchor⟩⟩

/-- No mesh behind a density is refused with the density set. -/
theorem refused_mesh_sets_density :
    ¬ ∀ (g : Guest (Option ℚ)) (pos : List (Option ℚ)) (tris pins : List Int)
        (material : List (Option ℚ)) (verts : List Int) (params : List (Option ℚ))
        (anchor : List Int),
      Kept g (g.drapeSceneMesh numbers bare pos tris pins material) ∧
        Kept g (g.drapeFitSet numbers verts params anchor) := by
  intro kept
  have unchanged := (kept (booted numbers) [] [] [] [some 2] [] [] []).1 (by decide +kernel)
  have density := congrFun unchanged.cfg "density".toList
  revert density
  decide +kernel

end DressOn.Host.Guest
