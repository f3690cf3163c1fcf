import DressOn.Drape.Consistency

/-!
# Rewinding a session

`rewind` puts the garment back and keeps the uploads. What else a run may have left
behind is the duals of the solver, and the targets and the rest shape of a fit phase.
Where no step left any, a forward after it takes the states of one after a fresh load.
-/

namespace DressOn.Drape

open DressOn.Avbd (Vec3)
open DressOn.Avbd.Backends (load)
open DressOn.Runs (Along kept_of_moves)

section Data

variable {σ α : Type*} [Field α] [LinearOrder α] (geometry : Geometry σ α) (kernels : Kernels α)

/-- A load of a scene. -/
def Op.loads : Op σ α → Bool
  | .load _ _ => true
  | _ => false

/-- A step advances outside a fit phase, and begins without the duals. -/
def Sim.Plain (sim : Sim σ α) : Prop :=
  sim.fitActive = false ∧ (sim.phase = .idle → sim.cfg.al = false)

/-- A tick takes no step with the duals or in a fit phase. -/
def Session.PlainTicks (session : Session σ α) : Op σ α → Prop
  | .tick _ => ∀ sim, session.advancing = some sim → sim.failed = false → sim.Plain
  | _ => True

/-- A forward is queued, then ticked. -/
def Session.forward (session : Session σ α) (steps : Nat) (faults : List Fault) : Session σ α :=
  (session.step geometry kernels (.enqueueForward steps)).run geometry kernels (faults.map .tick)

/-- Two simulations in one state. -/
structure Sim.SameState (sim other : Sim σ α) : Prop where
  x : sim.x = other.x
  v : sim.v = other.v
  recs : sim.recs = other.recs
  failed : sim.failed = other.failed

end Data

section Uploaded

variable {σ α : Type*} [Field α] (geometry : Geometry σ α) (kernels : Kernels α)

/-- The simulation has what a load left in the scene and the solver, the primitives and
the state of the garment apart. -/
structure Uploaded (loaded sim : Sim σ α) : Prop where
  scene : ∃ prims, sim.scene = { loaded.scene with prims := prims }
  upload : sim.cfg.toUpload = loaded.cfg.toUpload
  data : sim.solver.buffers.data = loaded.solver.buffers.data
  duals : sim.solver.buffers.duals = loaded.solver.buffers.duals
  attachFixed : sim.solver.buffers.attachFixed = loaded.solver.buffers.attachFixed
  fitting : sim.fitActive = true → sim.failed = true
  fitSettling : sim.fitSettling = false

variable {geometry kernels}

theorem begun_of_not_fitting {sim : Sim σ α} (off : sim.fitActive = false) :
    sim.begun geometry = sim := by
  have due : sim.refreshDue = false := by
    unfold Sim.refreshDue
    rw [off]
    rfl
  unfold Sim.begun Sim.refresh
  rw [due]
  simp

/-- The targets of the attachments a load uploads. -/
def Targeted (loaded : Sim σ α) : Prop :=
  loaded.solver.buffers.attachFixed =
    load (loaded.solver.buffers.penalties.count .attachments) loaded.scene.attachFixed

/-- Writing the targets of the scene changes nothing. -/
theorem Uploaded.targets {loaded sim : Sim σ α} (uploaded : Uploaded loaded sim)
    (targeted : Targeted loaded) {attachFixed : List (Vec3 α)}
    (written : attachFixed = sim.solver.buffers.attachFixed ∨ attachFixed =
      load (sim.solver.buffers.penalties.count .attachments) sim.scene.attachFixed) :
    attachFixed = loaded.solver.buffers.attachFixed := by
  obtain ⟨prims, scene⟩ := uploaded.scene
  rcases written with same | written
  · exact same.trans uploaded.attachFixed
  · rw [written, penalties_of_data uploaded.data, scene]
    exact targeted.symm

/-- A load uploads the targets of the scene. -/
theorem loaded_targeted (solver : Solver α) (scene : Scene σ α) (cfg : Config α) :
    Targeted (Sim.load geometry solver scene cfg) := by
  have count := ((@loaded_matched σ α _ geometry solver scene cfg).2 .attachments).count
  unfold Targeted
  rw [count]
  have buffers : (Sim.load geometry solver scene cfg).solver.buffers =
      Sim.uploads cfg.toUpload (scene.applyMaterial geometry cfg.toUpload) solver.buffers := rfl
  simp only [Sim.uploads, Buffers.uploadSelfCollisionRadii, Buffers.buildColoring,
    Buffers.setGammaScale] at buffers
  rw [buffers]
  cases cfg.alGamma <;> cases cfg.colors <;> rfl

theorem opened_uploaded (solver : Solver α) (scene : Scene σ α) (cfg : Config α) :
    Uploaded (Sim.load geometry solver scene cfg) (Sim.load geometry solver scene cfg) :=
  ⟨⟨_, rfl⟩, rfl, rfl, rfl, rfl, by rintro ⟨⟩, rfl⟩

variable [LinearOrder α]

/-- Plain moves keep what a load left. -/
theorem Uploaded.move {loaded before after : Sim σ α} (targeted : Targeted loaded)
    (uploaded : Uploaded loaded before)
    (move : Sim.Move geometry kernels Sim.Plain before after) : Uploaded loaded after := by
  obtain ⟨scene, upload, data, duals, attachFixed, fitting, settling⟩ := uploaded
  cases move with
  | advance fault running plain =>
      have stepped := advance_stepped geometry kernels fault before
      rw [begun_of_not_fitting plain.1] at stepped
      refine ⟨?_, ?_, stepped.data.trans data, (stepped.duals plain.2).trans duals, ?_, ?_, ?_⟩
      · rw [stepped.scene]
        exact scene
      · rw [stepped.cfg]
        exact upload
      · exact Uploaded.targets ⟨scene, upload, data, duals, attachFixed, fitting, settling⟩ targeted
          stepped.attachFixed
      · rw [stepped.fitActive, plain.1]
        rintro ⟨⟩
      · rw [stepped.fitSettling]
        exact settling
  | beginFit off plain =>
      refine ⟨scene, upload, data, duals, attachFixed, fun _ => ?_, rfl⟩
      cases running : before.failed with
      | false => exact absurd (plain running).1 (by simp [Sim.beginFit])
      | true => exact running
  | beginSettle running active off =>
      exact absurd (running.symm.trans (fitting active)) Bool.false_ne_true
  | endSettle on => exact absurd (settling.symm.trans on) Bool.false_ne_true
  | finishFit gravity damp =>
      exact ⟨scene, upload, data, duals, attachFixed, by rintro ⟨⟩, settling⟩
  | restaged staged =>
      have same := staged.sim
      refine ⟨?_, ?_, staged.buffers.data.trans data, staged.buffers.duals.trans duals, ?_, ?_, ?_⟩
      · rw [staged.scene]
        exact scene
      · rw [same]
        exact upload
      · exact Uploaded.targets ⟨scene, upload, data, duals, attachFixed, fitting, settling⟩ targeted
          staged.buffers.attachFixed
      · rw [same]
        exact fitting
      · rw [same]
        exact settling

/-- Plain calls keep what a load left. -/
theorem step_uploaded {loaded : Sim σ α} (targeted : Targeted loaded) (session : Session σ α)
    (op : Op σ α) (kept : session.Flagged ∧ Uploaded loaded session.sim)
    (plain : session.PlainTicks op ∧ op.loads = false) :
    (session.step geometry kernels op).Flagged ∧
      Uploaded loaded (session.step geometry kernels op).sim := by
  obtain ⟨flagged, uploaded⟩ := kept
  refine ⟨Session.step_flagged session op flagged, ?_⟩
  obtain ⟨scene, upload, data, duals, attachFixed, fitting, settling⟩ := uploaded
  cases op with
  | load scene cfg => cases plain.2
  | setLive live => exact ⟨scene, upload, data, duals, attachFixed, fitting, settling⟩
  | setPrims prims =>
      obtain ⟨old, scene⟩ := scene
      refine ⟨⟨prims, ?_⟩, upload, data, duals, attachFixed, fitting, settling⟩
      dsimp only [Session.step]
      rw [scene]
  | rewind =>
      dsimp only [Session.step]
      split
      next idle =>
        have off : session.sim.fitActive = false := by
          apply (flagged.off _).1
          revert idle
          cases session.active <;> simp [Active.idle, Active.fitting]
        exact ⟨scene, upload, data, duals, attachFixed,
          fun active => absurd (off.symm.trans active) Bool.false_ne_true, settling⟩
      next => exact ⟨scene, upload, data, duals, attachFixed, fitting, settling⟩
  | enqueueForward steps =>
      dsimp only [Session.step]
      split <;> exact ⟨scene, upload, data, duals, attachFixed, fitting, settling⟩
  | enqueueFit maxSteps tol =>
      dsimp only [Session.step]
      split <;> exact ⟨scene, upload, data, duals, attachFixed, fitting, settling⟩
  | enqueueBackward target loss mode =>
      exact ⟨scene, upload, data, duals, attachFixed, fitting, settling⟩
  | tick fault =>
      have ticked : Session.Ticked geometry kernels Sim.Plain session
          (session.tick geometry kernels fault) := Session.tick_ticked fault flagged plain.1
      exact kept_of_moves (fun _ _ move kept => kept.move targeted move) (ticked.moves flagged)
        ⟨scene, upload, data, duals, attachFixed, fitting, settling⟩

end Uploaded

section Alike

variable {σ α : Type*} {geometry : Geometry σ α} {kernels : Kernels α}

theorem submitScan_phase (sim : Sim σ α) (fault : Fault) :
    (sim.submitScan fault).phase = sim.phase := by
  unfold Sim.submitScan
  dsimp only
  split <;> rfl

/-- What a run does to the buffers depends on the buffers. -/
theorem Solver.run_congr (iters : Nat) (duals : Bool) {solver other : Solver α}
    (same : solver.buffers = other.buffers) :
    (solver.run kernels iters duals).buffers = (other.run kernels iters duals).buffers := by
  unfold Solver.run
  induction iters generalizing solver other with
  | zero => exact same
  | succ iters ih =>
      rw [Function.iterate_succ_apply, Function.iterate_succ_apply]
      apply ih
      unfold Solver.iterate
      rw [same]

variable [Field α]

/-- Two simulations outside a fit phase that a step does not tell apart: they differ in
what the next phase overwrites. -/
structure Alike (sim other : Sim σ α) : Prop extends Sim.SameState sim other where
  scene : sim.scene = other.scene
  cfg : sim.cfg = other.cfg
  err : sim.err = other.err
  phase : sim.phase = other.phase
  fitActive : sim.fitActive = false ∧ other.fitActive = false
  data : sim.solver.buffers.data = other.solver.buffers.data
  duals : sim.solver.buffers.duals = other.solver.buffers.duals
  attachFixed : sim.solver.buffers.attachFixed = other.solver.buffers.attachFixed
  busy : sim.phase ≠ .idle → sim.solver.buffers = other.solver.buffers ∧ sim.cur = other.cur
  scanned : sim.phase = .scanned →
    sim.pos = other.pos ∧ sim.vel = other.vel ∧ sim.pass = other.pass

/-- A new state makes up for the state buffers may differ in. -/
theorem updateState_alike {buffers other : Buffers α} (data : buffers.data = other.data)
    (duals : buffers.duals = other.duals) (attachFixed : buffers.attachFixed = other.attachFixed)
    (positions predicted : Nat → Vec3 α) :
    buffers.updateState positions predicted = other.updateState positions predicted := by
  cases buffers
  cases other
  simp only [Buffers.data, Buffers.mk.injEq, true_and] at data
  simp only at duals attachFixed
  simp only [Buffers.updateState, Buffers.mk.injEq, true_and]
  simp_all

/-- Outside a fit phase nothing is refreshed. -/
theorem refresh_of_not_fitting {sim : Sim σ α} (off : sim.fitActive = false) :
    sim.refresh geometry = sim := by
  have due : sim.refreshDue = false := by
    unfold Sim.refreshDue
    rw [off]
    rfl
  unfold Sim.refresh
  rw [due]
  rfl

variable {sim other : Sim σ α}

/-- Where the buffers agree whole. -/
theorem Alike.ofBuffers (state : Sim.SameState sim other) (scene : sim.scene = other.scene)
    (cfg : sim.cfg = other.cfg) (err : sim.err = other.err) (phase : sim.phase = other.phase)
    (fitActive : sim.fitActive = false ∧ other.fitActive = false)
    (buffers : sim.solver.buffers = other.solver.buffers)
    (cur : sim.phase ≠ .idle → sim.cur = other.cur)
    (scanned : sim.phase = .scanned →
      sim.pos = other.pos ∧ sim.vel = other.vel ∧ sim.pass = other.pass) : Alike sim other :=
  ⟨state, scene, cfg, err, phase, fitActive, by rw [buffers], by rw [buffers], by rw [buffers],
    fun busy => ⟨buffers, cur busy⟩, scanned⟩

/-- Rewound, the simulation is one freshly loaded with the primitives and settings it has. -/
theorem rewound_alike {solver : Solver α} {scene : Scene σ α} {cfg : Config α} {sim : Sim σ α}
    (uploaded : Uploaded (Sim.load geometry solver scene cfg) sim) (off : sim.fitActive = false) :
    Alike sim.rewind
      (Sim.load geometry solver { scene with prims := sim.scene.prims } sim.cfg) := by
  obtain ⟨⟨prims, same⟩, upload, data, duals, attachFixed, -, -⟩ := uploaded
  have upload : sim.cfg.toUpload = cfg.toUpload := upload
  have shown : sim.scene = { scene with prims := sim.scene.prims }.applyMaterial geometry
      sim.cfg.toUpload := by
    rw [upload]
    nth_rewrite 1 [same]
    have kept : sim.scene.prims = prims := by rw [same]
    rw [kept]
    rfl
  have buffers : (Sim.load geometry solver { scene with prims := sim.scene.prims }
      sim.cfg).solver.buffers = (Sim.load geometry solver scene cfg).solver.buffers := by
    show Sim.uploads sim.cfg.toUpload ({ scene with prims := sim.scene.prims }.applyMaterial
      geometry sim.cfg.toUpload) solver.buffers = _
    rw [upload]
    rfl
  refine ⟨⟨?_, ?_, rfl, rfl⟩, shown, rfl, rfl, rfl, ⟨off, rfl⟩, ?_, ?_, ?_,
    fun busy => absurd rfl busy, by rintro ⟨⟩⟩
  · exact congrArg Scene.x0 shown
  · exact congrArg Scene.v0 shown
  · rw [buffers]
    exact data
  · rw [buffers]
    exact duals
  · rw [buffers]
    exact attachFixed

/-- A scan sees the garment only. -/
theorem Alike.submitScan (alike : Alike sim other) (cur : sim.cur = other.cur)
    (pos : sim.pos = other.pos) (vel : sim.vel = other.vel) (pass : sim.pass = other.pass)
    (fault : Fault) {phase phase' : Phase} (same : phase = phase') :
    Alike { sim.submitScan fault with phase := phase }
      { other.submitScan fault with phase := phase' } := by
  have staged := updateState_alike alike.data alike.duals alike.attachFixed sim.pos sim.pos
  have buffers : sim.solver.buffers.updateState sim.pos sim.pos =
      other.solver.buffers.updateState other.pos other.pos := by
    rw [staged, pos]
  unfold Sim.submitScan
  dsimp only
  split
  · exact .ofBuffers ⟨alike.x, alike.v, alike.recs, rfl⟩ alike.scene alike.cfg rfl same
      alike.fitActive buffers (fun _ => cur) fun _ => ⟨pos, vel, pass⟩
  · exact .ofBuffers ⟨alike.x, alike.v, alike.recs, alike.failed⟩ alike.scene alike.cfg alike.err
      same alike.fitActive buffers (fun _ => cur) fun _ => ⟨pos, vel, pass⟩

variable [LinearOrder α]

theorem Alike.predict (alike : Alike sim other) :
    sim.predict geometry .empty = other.predict geometry .empty := by
  unfold Sim.predict Sim.predictor Sim.fext
  rw [alike.cfg, alike.scene, alike.x, alike.v]

theorem Alike.start (alike : Alike sim other) (fault : Fault) :
    Alike (sim.start geometry kernels fault) (other.start geometry kernels fault) := by
  have predict : sim.predict geometry .empty = other.predict geometry .empty := alike.predict
  have staged := updateState_alike alike.data alike.duals alike.attachFixed sim.x
    (sim.predict geometry .empty).sBlend
  have buffers : (if 0 < sim.scene.nAttach then
        (sim.solver.buffers.updateState sim.x (sim.predict geometry .empty).sBlend)
          |>.updateAttachmentFixedPos sim.scene.attachFixed
      else sim.solver.buffers.updateState sim.x (sim.predict geometry .empty).sBlend) =
      if 0 < other.scene.nAttach then
        (other.solver.buffers.updateState other.x (other.predict geometry .empty).sBlend)
          |>.updateAttachmentFixedPos other.scene.attachFixed
      else other.solver.buffers.updateState other.x (other.predict geometry .empty).sBlend := by
    rw [staged, predict, alike.x, alike.scene]
  unfold Sim.start
  rw [refresh_of_not_fitting alike.fitActive.1, refresh_of_not_fitting alike.fitActive.2]
  dsimp only
  split
  · exact .ofBuffers ⟨alike.x, alike.v, alike.recs, rfl⟩ alike.scene alike.cfg rfl rfl
      alike.fitActive buffers (fun _ => predict) (by rintro ⟨⟩)
  · refine .ofBuffers ⟨alike.x, alike.v, alike.recs, alike.failed⟩ alike.scene alike.cfg alike.err rfl
      alike.fitActive ?_ (fun _ => predict) (by rintro ⟨⟩)
    dsimp only
    rw [alike.cfg]
    exact Solver.run_congr _ _ buffers

/-- A completed step leaves the same garment and the same record. -/
theorem Alike.finishStep (alike : Alike sim other) (cur : sim.cur = other.cur)
    (pos : sim.pos = other.pos) (vel : sim.vel = other.vel) :
    Alike (sim.finishStep geometry) (other.finishStep geometry) := by
  refine ⟨⟨pos, vel, ?_, alike.failed⟩, alike.scene, alike.cfg, alike.err, rfl, alike.fitActive,
    alike.data, alike.duals, alike.attachFixed, fun busy => absurd rfl busy, by rintro ⟨⟩⟩
  simp only [Sim.finishStep, alike.recs, cur, pos, vel]

/-- The contacts after the solve see the same buffers. -/
theorem Alike.respond (alike : Alike sim other) (solved : sim.phase = .solved) (fault : Fault) :
    Alike (sim.respond geometry kernels fault) (other.respond geometry kernels fault) ∧
      (sim.respond geometry kernels fault).cur = (other.respond geometry kernels fault).cur ∧
      (sim.respond geometry kernels fault).pos = (other.respond geometry kernels fault).pos ∧
      (sim.respond geometry kernels fault).vel = (other.respond geometry kernels fault).vel := by
  obtain ⟨buffers, same⟩ := alike.busy (by rw [solved]; rintro ⟨⟩)
  have cur : (sim.respond geometry kernels fault).cur =
      (other.respond geometry kernels fault).cur := by
    simp only [Sim.respond, buffers, alike.cfg, alike.scene, alike.x, same]
  refine ⟨?_, cur, ?_, ?_⟩
  · refine .ofBuffers ⟨alike.x, alike.v, alike.recs, ?_⟩ alike.scene alike.cfg ?_ alike.phase
      alike.fitActive buffers (fun _ => cur) fun scanned => ?_
    · simp only [Sim.respond, alike.failed]
    · simp only [Sim.respond, alike.err]
    · cases solved.symm.trans scanned
  all_goals simp only [Sim.respond, buffers, alike.cfg, alike.scene, alike.x]

theorem Alike.afterSolve (alike : Alike sim other) (phase : sim.phase = .solved) (fault : Fault) :
    Alike (sim.solved geometry kernels fault).1 (other.solved geometry kernels fault).1 ∧
      (sim.solved geometry kernels fault).2 = (other.solved geometry kernels fault).2 := by
  obtain ⟨responded, cur, pos, vel⟩ :=
    @Alike.respond σ α geometry kernels _ sim other _ alike phase fault
  have begun : Alike { sim.respond geometry kernels fault with pass := 0 }
      { other.respond geometry kernels fault with pass := 0 } :=
    ⟨⟨responded.x, responded.v, responded.recs, responded.failed⟩, responded.scene,
      responded.cfg, responded.err, responded.phase, responded.fitActive, responded.data,
      responded.duals, responded.attachFixed, responded.busy,
      fun scanned => by cases phase.symm.trans scanned⟩
  have same := congrArg (fun cfg => cfg.selfCollision) responded.cfg
  unfold Sim.solved
  dsimp only
  cases on : (sim.respond geometry kernels fault).cfg.selfCollision with
  | true =>
      rw [← same, on]
      exact ⟨begun.submitScan cur pos vel rfl fault rfl, rfl⟩
  | false =>
      rw [← same, on]
      exact ⟨responded.finishStep cur pos vel, rfl⟩

theorem Alike.afterScan (alike : Alike sim other) (phase : sim.phase = .scanned) (fault : Fault) :
    Alike (sim.scanned geometry kernels fault).1 (other.scanned geometry kernels fault).1 ∧
      (sim.scanned geometry kernels fault).2 = (other.scanned geometry kernels fault).2 := by
  obtain ⟨buffers, cur⟩ := alike.busy (by rw [phase]; rintro ⟨⟩)
  obtain ⟨pos, vel, pass⟩ := alike.scanned phase
  have pushes : (kernels.scan sim.solver.buffers).foldl
      (pushTurn geometry sim.scene.restData.radii) (sim.pos, sim.cur.pushes) =
      (kernels.scan other.solver.buffers).foldl
        (pushTurn geometry other.scene.restData.radii) (other.pos, other.cur.pushes) := by
    rw [buffers, pos, cur, alike.scene]
  have goesOn (pushed : (Nat → Vec3 α) × List (Push α)) :
      sim.cur.pushes.length < pushed.2.length ∧ sim.pass + 1 < sim.cfg.selfPasses ↔
        other.cur.pushes.length < pushed.2.length ∧ other.pass + 1 < other.cfg.selfPasses := by
    rw [cur, pass, alike.cfg]
  unfold Sim.scanned
  dsimp only
  rw [← pushes]
  generalize (kernels.scan sim.solver.buffers).foldl _ _ = pushed
  have alike : Alike
      { sim with
        pos := pushed.1
        pass := sim.pass + 1
        cur := { sim.cur with
          pushes := pushed.2, passEnd := sim.cur.passEnd ++ [pushed.2.length] } }
      { other with
        pos := pushed.1
        pass := other.pass + 1
        cur := { other.cur with
          pushes := pushed.2, passEnd := other.cur.passEnd ++ [pushed.2.length] } } :=
    .ofBuffers ⟨alike.x, alike.v, alike.recs, alike.failed⟩ alike.scene alike.cfg alike.err
      alike.phase alike.fitActive buffers (fun _ => by rw [cur])
      fun _ => ⟨rfl, vel, congrArg (· + 1) pass⟩
  split
  next on =>
    rw [if_pos ((goesOn pushed).mp on)]
    refine ⟨?_, rfl⟩
    have phases := alike.phase
    rw [← submitScan_phase _ fault, ← submitScan_phase { other with
        pos := pushed.1
        pass := other.pass + 1
        cur := { other.cur with
          pushes := pushed.2, passEnd := other.cur.passEnd ++ [pushed.2.length] } } fault] at phases
    exact alike.submitScan (by rw [cur]) rfl vel (congrArg (· + 1) pass) fault phases
  next off =>
    rw [if_neg fun on => off ((goesOn pushed).mpr on)]
    exact ⟨alike.finishStep (by rw [cur]) rfl vel, rfl⟩

/-- A phase of a step keeps two simulations alike. -/
theorem Alike.advance (alike : Alike sim other) (fault : Fault) :
    Alike (sim.advance geometry kernels fault).1 (other.advance geometry kernels fault).1 ∧
      (sim.advance geometry kernels fault).2 = (other.advance geometry kernels fault).2 := by
  unfold Sim.advance
  rw [← alike.phase]
  cases phase : sim.phase with
  | idle => exact ⟨alike.start fault, rfl⟩
  | solved => exact alike.afterSolve phase fault
  | scanned => exact alike.afterScan phase fault

end Alike

section Forward

variable {σ α : Type*} [Field α] [LinearOrder α] {geometry : Geometry σ α} {kernels : Kernels α}

/-- Two sessions with the same forwards to run on simulations that are alike. -/
structure InLockstep (session other : Session σ α) : Prop where
  sim : Alike session.sim other.sim
  active : session.active = .none ∧ other.active = .none ∨
    (session.active = .forward ∧ other.active = .forward) ∧
      session.fwdRemaining = other.fwdRemaining
  queue : session.queue = other.queue
  forwards : ∀ job ∈ session.queue, ∃ steps, job = .forward steps

variable {session other : Session σ α}

/-- A forward's stage advances both by the same phase. -/
theorem forwardStage_lockstep (sims : Alike session.sim other.sim)
    (remaining : session.fwdRemaining = other.fwdRemaining) (queue : session.queue = other.queue)
    (forwards : ∀ job ∈ session.queue, ∃ steps, job = .forward steps) (fault : Fault) :
    InLockstep (session.forwardStage geometry kernels fault)
      (other.forwardStage geometry kernels fault) := by
  have advanced : Alike (session.advanced geometry kernels fault).1.sim
        (other.advanced geometry kernels fault).1.sim ∧
      (session.advanced geometry kernels fault).1.fwdRemaining =
        (other.advanced geometry kernels fault).1.fwdRemaining ∧
      (session.advanced geometry kernels fault).1.queue = session.queue ∧
      (other.advanced geometry kernels fault).1.queue = other.queue := by
    obtain ⟨next, done⟩ := @Alike.advance σ α geometry kernels _ _ _ _ sims fault
    unfold Session.advanced
    rw [← remaining, ← sims.failed]
    split
    · refine ⟨next, ?_, rfl, rfl⟩
      dsimp only
      rw [done]
    · exact ⟨sims, remaining, rfl, rfl⟩
  obtain ⟨sims, remaining, same, same'⟩ := advanced
  unfold Session.forwardStage
  dsimp only
  rw [← remaining, ← sims.failed]
  split
  · exact ⟨sims, Or.inr ⟨⟨rfl, rfl⟩, rfl⟩, same.trans (queue.trans same'.symm),
      fun job member => forwards job (same ▸ member)⟩
  · exact ⟨sims, Or.inl ⟨rfl, rfl⟩, same.trans (queue.trans same'.symm),
      fun job member => forwards job (same ▸ member)⟩

theorem tick_lockstep (lockstep : InLockstep session other) (fault : Fault) :
    InLockstep (session.tick geometry kernels fault) (other.tick geometry kernels fault) := by
  obtain ⟨sims, active, queue, forwards⟩ := lockstep
  unfold Session.tick
  rcases active with ⟨idle, idle'⟩ | ⟨⟨running, running'⟩, remaining⟩
  · rw [idle, idle', ← queue]
    cases queued : session.queue with
    | nil => exact ⟨sims, Or.inl ⟨idle, idle'⟩, queue, forwards⟩
    | cons job rest =>
        rw [queued] at forwards
        obtain ⟨steps, rfl⟩ := forwards job List.mem_cons_self
        apply forwardStage_lockstep
        · exact sims
        · rfl
        · rfl
        · exact fun job member => forwards job (List.mem_cons_of_mem _ member)
  · rw [running, running']
    exact forwardStage_lockstep sims remaining queue forwards fault

/-- Ticked alike, two sessions stay in lockstep. -/
theorem ticks_lockstep (lockstep : InLockstep session other) (faults : List Fault) :
    InLockstep (session.run geometry kernels (faults.map .tick))
      (other.run geometry kernels (faults.map .tick)) := by
  unfold Session.run
  induction faults generalizing session other with
  | nil => exact lockstep
  | cons fault rest ih => exact ih (tick_lockstep lockstep fault)

/-- So do two that are given the same forward. -/
theorem forward_lockstep (lockstep : InLockstep session other) (steps : Nat)
    (faults : List Fault) :
    InLockstep (session.forward geometry kernels steps faults)
      (other.forward geometry kernels steps faults) := by
  apply ticks_lockstep
  obtain ⟨sims, active, queue, forwards⟩ := lockstep
  dsimp only [Session.step]
  split
  · exact ⟨sims, active, queue, forwards⟩
  · refine ⟨sims, active, congrArg (· ++ [.forward steps]) queue, fun job member => ?_⟩
    rcases List.mem_append.mp member with old | new
    · exact forwards job old
    · exact ⟨steps, List.mem_singleton.mp new⟩

/-- A session that has taken no step with the duals or in a fit phase since its load
starts over when it is rewound: a forward then takes the states, phase by phase, of one
after a fresh load of the same scene and configuration. -/
theorem rewind_starts_over (geometry : Geometry σ α) (kernels : Kernels α) (solver : Solver α)
    (scene : Scene σ α) (cfg : Config α) (history : List (Op σ α))
    (sinceLoad : ∀ op ∈ history, op.loads = false)
    (plain : Along (Session.step geometry kernels) Session.PlainTicks
      (Session.opened geometry solver scene cfg) history)
    (idle : ((Session.opened geometry solver scene cfg).run geometry kernels history).active.idle)
    (empty : ((Session.opened geometry solver scene cfg).run geometry kernels history).queue = [])
    (steps : Nat) (faults : List Fault) :
    let session := (Session.opened geometry solver scene cfg).run geometry kernels history
    let fresh := Session.opened geometry solver { scene with prims := session.sim.scene.prims }
      session.sim.cfg
    Sim.SameState ((session.step geometry kernels .rewind).forward geometry kernels steps faults).sim
      (fresh.forward geometry kernels steps faults).sim := by
  intro session fresh
  have kept : session.Flagged ∧ Uploaded (Sim.load geometry solver scene cfg) session.sim :=
    (plain.and_forall sinceLoad).invariant (step_uploaded (loaded_targeted solver scene cfg))
      ⟨Session.opened_flagged solver scene cfg, opened_uploaded solver scene cfg⟩
  obtain ⟨flagged, uploaded⟩ := kept
  have active : session.active = .none := by
    have idle : session.active.idle = true := idle
    revert idle
    cases session.active <;> simp [Active.idle]
  have off := (flagged.off (by rw [active]; rfl)).1
  have lockstep : InLockstep (session.step geometry kernels .rewind) fresh := by
    have rewound : session.step geometry kernels .rewind =
        { session with sim := session.sim.rewind } := if_pos idle
    rw [rewound]
    refine ⟨rewound_alike uploaded off, Or.inl ⟨active, rfl⟩, empty, fun job member => ?_⟩
    have member : job ∈ session.queue := member
    rw [show session.queue = [] from empty] at member
    cases member
  exact (forward_lockstep lockstep steps faults).sim.toSameState

end Forward

section Hanging

/-- A vertex that follows its predictor, held back by the dual of its pin. -/
def hanging : Kernels ℚ :=
  { doubling with
    iteration := fun buffers i => buffers.predicted i - buffers.duals.attachLambda.headD 0
    dualStep := fun buffers => { buffers.duals with
      attachLambda := buffers.duals.attachLambda.map
        (· + (buffers.positions 0 - buffers.attachFixed.headD 0)) } }

/-- A forward and a change of the iterations, then a rewind. -/
theorem rewind_starts_over_hanging : Sim.SameState
    ((((Session.opened still (.fresh false) pinned falling).run still hanging
        [.enqueueForward 1, .tick sound, .tick sound,
          .setLive { falling.toLive with iters := 2, one_le_iters := by decide }]).step still hanging
        .rewind).forward still hanging 1 [sound, sound]).sim
    ((Session.opened still (.fresh false) { pinned with prims := [] }
        { falling with iters := 2, one_le_iters := by decide }).forward still hanging 1
          [sound, sound]).sim := by
  have forward (sim : Sim Unit ℚ) (off : sim.fitActive = false) (al : sim.cfg.al = false) :
      sim.Plain := ⟨off, fun _ => al⟩
  exact rewind_starts_over still hanging (.fresh false) pinned falling
    [.enqueueForward 1, .tick sound, .tick sound,
      .setLive { falling.toLive with iters := 2, one_le_iters := by decide }]
    (by simp [Op.loads])
    ⟨trivial, by rintro sim ⟨⟩ -; exact forward _ rfl rfl, by rintro sim ⟨⟩ -; exact forward _ rfl rfl,
      trivial, trivial⟩ rfl rfl 1 [sound, sound]

/-- With the duals on, the pin still pulls after the rewind. -/
theorem rewind_remembers : ¬∀ (solver : Solver ℚ) (scene : Scene Unit ℚ) (cfg : Config ℚ)
    (history : List (Op Unit ℚ)), (∀ op ∈ history, op.loads = false) →
    ((Session.opened still solver scene cfg).run still hanging history).active.idle →
    ((Session.opened still solver scene cfg).run still hanging history).queue = [] →
    ∀ (steps : Nat) (faults : List Fault),
      Sim.SameState
        ((((Session.opened still solver scene cfg).run still hanging history).step still hanging
          .rewind).forward still hanging steps faults).sim
        ((Session.opened still solver
            { scene with prims :=
              ((Session.opened still solver scene cfg).run still hanging history).sim.scene.prims }
            ((Session.opened still solver scene cfg).run still hanging history).sim.cfg).forward
          still hanging steps faults).sim := by
  intro same
  have x := (same (.fresh false) pinned { falling with al := true }
    [.enqueueForward 1, .tick sound, .tick sound] (by simp [Op.loads]) rfl rfl 1
    [sound, sound]).x
  have height := congrFun (congrFun x 0) 1
  revert height
  decide +kernel

end Hanging

end DressOn.Drape
