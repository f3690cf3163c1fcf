import Mathlib.Logic.Relation
import DressOn.Drape.Session

/-!
# What a stage may change

A stage of the queue moves the simulation by a few named moves: a phase of a
step, the beginning and the end of a fit phase and of its settle, and whatever a
backward leaves in the solver. Each move says once what it keeps.
-/

namespace DressOn.Drape

open DressOn.Avbd (Vec3)
open DressOn.Avbd.Backends (load)

section Frames

variable {σ α : Type*} [Field α]

/-- The buffers without the state an iteration moves and the targets of the attachments. -/
def Buffers.data (buffers : Buffers α) : Buffers α :=
  { buffers with
    positions := fun _ => 0, predicted := fun _ => 0, attachFixed := [], duals := .empty }

/-- Buffers that differ in the state a step starts from only. -/
structure Restaged (scene : Scene σ α) (before after : Buffers α) : Prop where
  data : after.data = before.data
  duals : after.duals = before.duals
  attachFixed : after.attachFixed = before.attachFixed ∨
    after.attachFixed = load (before.penalties.count .attachments) scene.attachFixed

namespace Restaged

variable {scene : Scene σ α} {first second third : Buffers α}

/-- Buffers are their own restaging. -/
theorem refl (scene : Scene σ α) (buffers : Buffers α) : Restaged scene buffers buffers :=
  ⟨rfl, rfl, Or.inl rfl⟩

/-- The penalties are data. -/
theorem penalties (staged : Restaged scene first second) : second.penalties = first.penalties := by
  have same : second.data.penalties = first.data.penalties := by rw [staged.data]
  exact same

/-- Targets written twice are the scene's, as the second write has them. -/
theorem trans (one : Restaged scene first second) (two : Restaged scene second third) :
    Restaged scene first third := by
  refine ⟨two.data.trans one.data, two.duals.trans one.duals, ?_⟩
  rcases two.attachFixed with same | written
  · rw [same]
    exact one.attachFixed
  · right
    rw [written, one.penalties]

/-- A new start state is a restaging. -/
theorem updateState (scene : Scene σ α) (buffers : Buffers α) (positions predicted : Nat → Vec3 α) :
    Restaged scene buffers (buffers.updateState positions predicted) := ⟨rfl, rfl, Or.inl rfl⟩

/-- Writing the targets of the scene is a restaging, with attachments or without. -/
theorem updateAttachmentFixedPos (scene : Scene σ α) (buffers : Buffers α) :
    Restaged scene buffers (buffers.updateAttachmentFixedPos scene.attachFixed) := by
  unfold Buffers.updateAttachmentFixedPos
  split
  · exact refl scene buffers
  · exact ⟨rfl, rfl, Or.inr rfl⟩

end Restaged

variable (kernels : Kernels α)

/-- A run moves the positions, and with `duals` the duals. -/
theorem Solver.run_kept (iters : Nat) (duals : Bool) (solver : Solver α) :
    let after := (solver.run kernels iters duals).buffers
    after.data = solver.buffers.data ∧ after.attachFixed = solver.buffers.attachFixed ∧
      (duals = false → after.duals = solver.buffers.duals) := by
  unfold Solver.run
  induction iters generalizing solver with
  | zero => exact ⟨rfl, rfl, fun _ => rfl⟩
  | succ iters ih =>
      rw [Function.iterate_succ_apply]
      obtain ⟨data, attachFixed, kept⟩ := ih (solver.iterate kernels duals)
      cases duals with
      | false => exact ⟨data, attachFixed, fun _ => kept rfl⟩
      | true => exact ⟨data, attachFixed, fun off => absurd off Bool.true_eq_false.mp⟩

/-- A run without duals moves the positions only. -/
theorem Solver.run_restaged (scene : Scene σ α) (iters : Nat) (solver : Solver α) :
    Restaged scene solver.buffers (solver.run kernels iters false).buffers := by
  obtain ⟨data, attachFixed, duals⟩ := Solver.run_kept kernels iters false solver
  exact ⟨data, duals rfl, Or.inl attachFixed⟩

end Frames

section Backward

variable {σ α : Type*} [Field α] (geometry : Geometry σ α) (kernels : Kernels α)

/-- A simulation in which at most the state a step starts from has changed in the solver. -/
structure Sim.Restaged (before after : Sim σ α) : Prop where
  sim : after = { before with solver := after.solver }
  buffers : Drape.Restaged before.scene before.solver.buffers after.solver.buffers

namespace Sim.Restaged

variable {first second third : Sim σ α}

/-- A simulation is its own restaging. -/
theorem refl (sim : Sim σ α) : Sim.Restaged sim sim := ⟨rfl, .refl _ _⟩

/-- The scene is not part of the solver. -/
theorem scene (staged : Sim.Restaged first second) : second.scene = first.scene := by
  rw [staged.sim]

/-- Restagings compose over one scene. -/
theorem trans (one : Sim.Restaged first second) (two : Sim.Restaged second third) :
    Sim.Restaged first third := by
  constructor
  · rw [two.sim, one.sim]
  · have buffers := two.buffers
    rw [one.scene] at buffers
    exact one.buffers.trans buffers

/-- The solver's buffers restaged. -/
theorem ofBuffers (sim : Sim σ α) {solver : Solver α}
    (buffers : Drape.Restaged sim.scene sim.solver.buffers solver.buffers) :
    Sim.Restaged sim { sim with solver := solver } := ⟨rfl, buffers⟩

end Sim.Restaged

namespace Backward

open Sim

variable (fault : Fault) (sim : Sim σ α) (bwd : Backward α)

/-- The replay of an iteration sets the state and runs the solver without its duals. -/
theorem submitIteration_restaged :
    Sim.Restaged sim (submitIteration kernels fault sim bwd).1 := by
  unfold submitIteration
  have staged : ∀ x, Sim.Restaged sim { sim with
      solver := sim.solver.withBuffers (sim.solver.buffers.updateState (bwd.snaps bwd.it) x) } :=
    fun x => .ofBuffers sim (.updateState _ _ _ _)
  split
  · exact staged _
  · exact (staged _).trans (.ofBuffers _ (Solver.run_restaged kernels _ 1 _))

/-- The restart of a recomputed step writes its start state and its targets. -/
theorem restart_restaged : Sim.Restaged sim (restart sim bwd) := by
  unfold restart
  apply Sim.Restaged.ofBuffers
  split
  · exact (Drape.Restaged.updateState _ _ _ _).trans (.updateAttachmentFixedPos _ _)
  · exact .updateState _ _ _ _

/-- The snapshot of a replayed iteration is read, and the next iteration is submitted. -/
theorem rcSnap_restaged : Sim.Restaged sim (rcSnap kernels fault sim bwd).1 := by
  unfold rcSnap
  split
  · exact .refl sim
  · dsimp only
    split
    · split
      · exact .refl sim
      · exact .ofBuffers _ (Solver.run_restaged kernels _ 1 _)
    · exact submitIteration_restaged kernels fault _ _

variable [LinearOrder α]

/-- A native backward is submitted on the buffers as they are. -/
theorem nativeSubmit_restaged :
    Sim.Restaged sim (nativeSubmit geometry kernels fault sim bwd).1 := by
  unfold nativeSubmit
  split
  · exact .refl sim
  · split
    · exact .refl sim
    · exact .ofBuffers sim (.refl _ _)

/-- The recomputation of a step restarts it and submits its first iteration or all of them. -/
theorem rcBegin_restaged : Sim.Restaged sim (rcBegin geometry kernels fault sim bwd).1 := by
  unfold rcBegin
  split
  · exact .refl sim
  · apply (restart_restaged sim _).trans
    dsimp only
    split
    · split
      · split
        · exact .refl _
        · exact .ofBuffers _ (Solver.run_restaged kernels _ 1 _)
      · exact submitIteration_restaged kernels fault _ _
    · split
      · exact .refl _
      · exact .ofBuffers _ (Solver.run_restaged kernels _ _ _)

/-- After a backward is read comes the iteration before it, or the step before. -/
theorem rcBwdRead_restaged : Sim.Restaged sim (rcBwdRead geometry kernels fault sim bwd).1 := by
  unfold rcBwdRead
  split
  · exact .refl sim
  · dsimp only
    split
    · exact submitIteration_restaged kernels fault _ _
    · exact rcBegin_restaged geometry kernels fault _ _

/-- After a native backward is read comes the one of the step before. -/
theorem nativeRead_restaged : Sim.Restaged sim (nativeRead geometry kernels fault sim bwd).1 := by
  unfold nativeRead
  split
  · exact .refl sim
  · exact nativeSubmit_restaged geometry kernels fault _ _

/-- The first stage submits a native backward or begins a recomputation. -/
theorem init_restaged : Sim.Restaged sim (init geometry kernels fault sim bwd).1 := by
  unfold init
  dsimp only
  split
  · exact .refl sim
  · split
    · exact nativeSubmit_restaged geometry kernels fault _ _
    · exact rcBegin_restaged geometry kernels fault _ _

/-- A stage of a backward leaves the simulation as it was, the solver's state apart. -/
theorem advance_restaged : Sim.Restaged sim (bwd.advance geometry kernels fault sim).1 := by
  unfold advance
  split
  · exact init_restaged geometry kernels fault sim bwd
  · exact nativeRead_restaged geometry kernels fault sim bwd
  · exact rcSnap_restaged kernels fault sim bwd
  · exact rcBwdRead_restaged geometry kernels fault sim bwd
  · exact .refl sim

end Backward

end Backward

section Step

variable {σ α : Type*} [Field α] (geometry : Geometry σ α) (kernels : Kernels α)

/-- What a phase of a step keeps, after its refresh. -/
structure Stepped (before after : Sim σ α) : Prop where
  cfg : after.cfg = before.cfg
  scene : after.scene = before.scene
  fitActive : after.fitActive = before.fitActive
  fitSettling : after.fitSettling = before.fitSettling
  data : after.solver.buffers.data = before.solver.buffers.data
  attachFixed : after.solver.buffers.attachFixed = before.solver.buffers.attachFixed ∨
    after.solver.buffers.attachFixed =
      load (before.solver.buffers.penalties.count .attachments) before.scene.attachFixed
  duals : (before.phase = .idle → before.cfg.al = false) →
    after.solver.buffers.duals = before.solver.buffers.duals

/-- What `advance` starts from. -/
def Sim.begun (sim : Sim σ α) : Sim σ α := if sim.phase = .idle then sim.refresh geometry else sim

variable (fault : Fault) (sim : Sim σ α)

/-- Nothing happens in a phase that fails. -/
theorem Stepped.refl : Stepped sim sim := ⟨rfl, rfl, rfl, rfl, rfl, Or.inl rfl, fun _ => rfl⟩

/-- A refresh of the rest shape is within a phase. -/
theorem refreshRest_phase : (sim.refreshRest geometry).phase = sim.phase := by
  unfold Sim.refreshRest
  split
  · rfl
  · split <;> rfl

/-- A refresh is within a phase. -/
theorem refresh_phase : (sim.refresh geometry).phase = sim.phase := by
  unfold Sim.refresh
  split
  · split
    · exact refreshRest_phase geometry sim
    · rfl
  · rfl

/-- A scan is submitted without a change of the buffers. -/
theorem submitScan_stepped : Stepped sim (sim.submitScan fault) := by
  unfold Sim.submitScan
  dsimp only
  split <;> exact ⟨rfl, rfl, rfl, rfl, rfl, Or.inl rfl, fun _ => rfl⟩

/-- A refresh of the rest shape leaves the settings and the fit phase alone. -/
theorem refreshRest_flags : (sim.refreshRest geometry).cfg = sim.cfg ∧
    (sim.refreshRest geometry).fitActive = sim.fitActive ∧
      (sim.refreshRest geometry).fitSettling = sim.fitSettling := by
  unfold Sim.refreshRest
  split
  · exact ⟨rfl, rfl, rfl⟩
  · split <;> exact ⟨rfl, rfl, rfl⟩

/-- What a refresh cannot change. -/
theorem begun_flags : (sim.begun geometry).cfg = sim.cfg ∧
    (sim.begun geometry).fitActive = sim.fitActive ∧
      (sim.begun geometry).fitSettling = sim.fitSettling := by
  unfold Sim.begun Sim.refresh
  split
  · split
    · dsimp only [Sim.refreshFitTargets]
      split
      · exact refreshRest_flags geometry sim
      · exact ⟨rfl, rfl, rfl⟩
    · exact ⟨rfl, rfl, rfl⟩
  · exact ⟨rfl, rfl, rfl⟩

variable [LinearOrder α]

/-- A step's beginning restages the solver, then runs it. -/
theorem start_stepped (idle : sim.phase = .idle) :
    Stepped (sim.refresh geometry) (sim.start geometry kernels fault) := by
  have idle := (refresh_phase geometry sim).trans idle
  unfold Sim.start
  dsimp only
  generalize sim.refresh geometry = begun at idle ⊢
  have staged : Restaged begun.scene begun.solver.buffers
      (if 0 < begun.scene.nAttach then
        (begun.solver.buffers.updateState begun.x (begun.predict geometry .empty).sBlend)
          |>.updateAttachmentFixedPos begun.scene.attachFixed
      else begun.solver.buffers.updateState begun.x (begun.predict geometry .empty).sBlend) := by
    split
    · exact (Restaged.updateState _ _ _ _).trans (.updateAttachmentFixedPos _ _)
    · exact .updateState _ _ _ _
  generalize (if 0 < begun.scene.nAttach then _ else _) = buffers at staged ⊢
  split
  · exact ⟨rfl, rfl, rfl, rfl, staged.data, staged.attachFixed, fun _ => staged.duals⟩
  · obtain ⟨data, attachFixed, duals⟩ := Solver.run_kept kernels begun.cfg.iters begun.cfg.al
      (begun.solver.withBuffers buffers)
    refine ⟨rfl, rfl, rfl, rfl, data.trans staged.data, ?_, fun off => ?_⟩
    · rcases staged.attachFixed with same | written
      · exact Or.inl (attachFixed.trans same)
      · exact Or.inr (attachFixed.trans written)
    · exact (duals (off idle)).trans staged.duals

/-- What the solver answers goes to the positions and the record of the step. -/
theorem solved_stepped : Stepped sim (sim.solved geometry kernels fault).1 := by
  unfold Sim.solved
  dsimp only
  split
  · obtain ⟨cfg, scene, active, settling, data, attachFixed, duals⟩ := submitScan_stepped fault
      { sim.respond geometry kernels fault with pass := 0 }
    exact ⟨cfg, scene, active, settling, data, attachFixed, duals⟩
  · exact ⟨rfl, rfl, rfl, rfl, rfl, Or.inl rfl, fun _ => rfl⟩

/-- What the scan answers goes to the positions and the record of the step. -/
theorem scanned_stepped : Stepped sim (sim.scanned geometry kernels fault).1 := by
  unfold Sim.scanned
  dsimp only
  generalize (kernels.scan sim.solver.buffers).foldl _ _ = pushed
  split
  · obtain ⟨cfg, scene, active, settling, data, attachFixed, duals⟩ := submitScan_stepped fault
      { sim with
        pos := pushed.1
        pass := sim.pass + 1
        cur := { sim.cur with
          pushes := pushed.2, passEnd := sim.cur.passEnd ++ [pushed.2.length] } }
    exact ⟨cfg, scene, active, settling, data, attachFixed, duals⟩
  · exact ⟨rfl, rfl, rfl, rfl, rfl, Or.inl rfl, fun _ => rfl⟩

/-- A phase of a step keeps the scene, the settings and the uploads, its refresh apart. -/
theorem advance_stepped : Stepped (sim.begun geometry) (sim.advance geometry kernels fault).1 := by
  unfold Sim.advance Sim.begun
  cases phase : sim.phase with
  | idle => exact start_stepped geometry kernels fault sim phase
  | solved => exact solved_stepped geometry kernels fault sim
  | scanned => exact scanned_stepped geometry kernels fault sim

/-- The settings and the flags of the fit phase outlast a phase, refresh and all. -/
theorem advance_flags : (sim.advance geometry kernels fault).1.cfg = sim.cfg ∧
    (sim.advance geometry kernels fault).1.fitActive = sim.fitActive ∧
      (sim.advance geometry kernels fault).1.fitSettling = sim.fitSettling := by
  have stepped := advance_stepped geometry kernels fault sim
  obtain ⟨cfg, active, settling⟩ := begun_flags geometry sim
  exact ⟨stepped.cfg.trans cfg, stepped.fitActive.trans active,
    stepped.fitSettling.trans settling⟩

end Step

end DressOn.Drape
