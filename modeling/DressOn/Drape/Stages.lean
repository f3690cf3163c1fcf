import DressOn.Drape.Moves
import DressOn.Lib.Runs

/-!
# The stages of a session as moves

A tick moves the simulation by phases of a step, by the beginning and the end of a
fit phase and of its settle, and by what a backward leaves in the solver. Where a
fit phase does not run, no flag of it is set.
-/

namespace DressOn.Drape

open Relation (ReflTransGen)
open DressOn.Avbd (Vec3)

section Data

/-- A fit phase is running. -/
def Active.fitting {α : Type*} : Active α → Bool
  | .fit => true
  | _ => false

variable {σ α : Type*} [Field α] [LinearOrder α] (geometry : Geometry σ α) (kernels : Kernels α)

/-- One move of a simulation. A phase of a step is taken where it is allowed. -/
inductive Sim.Move (allowed : Sim σ α → Prop) : Sim σ α → Sim σ α → Prop
  | advance {sim : Sim σ α} (fault : Fault) (running : sim.failed = false) (may : allowed sim) :
      Move allowed sim (sim.advance geometry kernels fault).1
  | beginFit {sim : Sim σ α} (off : sim.fitSettling = false)
      (may : sim.failed = false → allowed sim.beginFit) : Move allowed sim sim.beginFit
  | beginSettle {sim : Sim σ α} (running : sim.failed = false) (active : sim.fitActive = true)
      (off : sim.fitSettling = false) : Move allowed sim sim.beginSettle
  | endSettle {sim : Sim σ α} (on : sim.fitSettling = true) : Move allowed sim sim.endSettle
  | finishFit {sim : Sim σ α} (gravity : Vec3 α) (damp : α) :
      Move allowed sim (sim.finishFit gravity damp)
  | restaged {before after : Sim σ α} (staged : Sim.Restaged before after) :
      Move allowed before after

/-- The flags of a fit phase are set while one runs only. -/
structure Session.Flagged (session : Session σ α) : Prop where
  off : session.active.fitting = false →
    session.sim.fitActive = false ∧ session.sim.fitSettling = false
  on : session.active.fitting = true → session.sim.fitActive = true

/-- The simulation whose step a tick takes further. -/
def Session.advancing (session : Session σ α) : Option (Sim σ α) :=
  match session.active, session.queue with
  | .forward, _ => some session.sim
  | .fit, _ => some session.sim
  | .backward _, _ => none
  | .none, .forward _ :: _ => some session.sim
  | .none, .fit _ _ :: _ => if session.sim.scene.nFit = 0 then none else some session.sim.beginFit
  | .none, _ => none

end Data

namespace Session

/-- What a stage leaves alone in the session. -/
structure Saved {σ α : Type*} (before after : Session σ α) : Prop where
  queue : after.queue = before.queue
  fitGravity : after.fitGravity = before.fitGravity
  fitDamp : after.fitDamp = before.fitDamp

/-- What every stage leaves alone stays over two. -/
theorem Saved.trans {σ α : Type*} {first second third : Session σ α} (one : Saved first second)
    (two : Saved second third) : Saved first third :=
  ⟨two.queue.trans one.queue, two.fitGravity.trans one.fitGravity, two.fitDamp.trans one.fitDamp⟩

section Stages

variable {σ α : Type*} [Field α]

/-- The fit pull is a matter of the solver. -/
theorem setFitPull_flags (on : Bool) (sim : Sim σ α) :
    (sim.setFitPull on).cfg = sim.cfg ∧ (sim.setFitPull on).fitActive = sim.fitActive ∧
      (sim.setFitPull on).fitSettling = sim.fitSettling := by
  unfold Sim.setFitPull
  split <;> exact ⟨rfl, rfl, rfl⟩

/-- After the end of a settle none runs. -/
theorem endSettle_settling (session : Session σ α) :
    session.endSettle.sim.fitSettling = false := by
  unfold endSettle
  split
  · rfl
  next off => simpa using off

variable [LinearOrder α] (geometry : Geometry σ α) (kernels : Kernels α)
  (allowed : Sim σ α → Prop)

/-- Any number of moves of the simulation that end no fit phase. -/
structure Advanced (before after : Session σ α) : Prop extends Saved before after where
  moves : ReflTransGen (Sim.Move geometry kernels allowed) before.sim after.sim
  cfg : after.sim.cfg = before.sim.cfg
  fitActive : after.sim.fitActive = before.sim.fitActive

/-- What a forward's stage leaves: the job runs on, or none does. -/
structure Forwarded (before after : Session σ α) : Prop
    extends Advanced geometry kernels allowed before after where
  fitSettling : after.sim.fitSettling = before.sim.fitSettling
  active : after.active = .forward ∨ after.active = .none

/-- What a fit's stage leaves: the phase runs on, or it has given back what it took. -/
inductive Fitted (before after : Session σ α) : Prop
  | running (advanced : Advanced geometry kernels allowed before after) (active : after.active = .fit)
  | finished (saved : Saved before after)
      (moves : ReflTransGen (Sim.Move geometry kernels allowed) before.sim after.sim)
      (cfg : after.sim.cfg =
        { before.sim.cfg with gravity := before.fitGravity, damp := before.fitDamp })
      (fitActive : after.sim.fitActive = false) (fitSettling : after.sim.fitSettling = false)
      (active : after.active = .none)

variable {geometry kernels allowed}

/-- No move is a move that ends no phase. -/
theorem Advanced.refl (session : Session σ α) :
    Advanced geometry kernels allowed session session := ⟨⟨rfl, rfl, rfl⟩, .refl, rfl, rfl⟩

/-- Moves follow each other. -/
theorem Advanced.trans {first second third : Session σ α}
    (one : Advanced geometry kernels allowed first second)
    (two : Advanced geometry kernels allowed second third) :
    Advanced geometry kernels allowed first third :=
  ⟨one.toSaved.trans two.toSaved, one.moves.trans two.moves, two.cfg.trans one.cfg,
    two.fitActive.trans one.fitActive⟩

variable (geometry kernels) (fault : Fault) (session : Session σ α)

/-- A phase of a step is one move, and none where the simulation has failed. -/
theorem advanced_advanced (may : session.sim.failed = false → allowed session.sim) :
    Advanced geometry kernels allowed session (session.advanced geometry kernels fault).1 := by
  unfold advanced
  split
  next running =>
    have running : session.sim.failed = false := by simpa using running.2
    obtain ⟨cfg, active, -⟩ := advance_flags geometry kernels fault session.sim
    exact ⟨⟨rfl, rfl, rfl⟩, .single (.advance fault running (may running)), cfg, active⟩
  next => exact .refl session

/-- A phase of a step neither begins nor ends a settle. -/
theorem advanced_settling : (session.advanced geometry kernels fault).1.sim.fitSettling =
    session.sim.fitSettling := by
  unfold advanced
  split
  · exact (advance_flags geometry kernels fault session.sim).2.2
  · rfl

/-- A forward's stage is a phase of a step; the job goes on or is over. -/
theorem forwardStage_forwarded (may : session.sim.failed = false → allowed session.sim) :
    Forwarded geometry kernels allowed session (session.forwardStage geometry kernels fault) := by
  obtain ⟨saved, moves, cfg, active⟩ := advanced_advanced geometry kernels fault session may
  have settling := advanced_settling geometry kernels fault session
  unfold forwardStage
  dsimp only
  split
  · exact ⟨⟨⟨saved.queue, saved.fitGravity, saved.fitDamp⟩, moves, cfg, active⟩, settling, Or.inl rfl⟩
  · exact ⟨⟨⟨saved.queue, saved.fitGravity, saved.fitDamp⟩, moves, cfg, active⟩, settling, Or.inr rfl⟩

/-- The stop test writes the session alone. -/
theorem stopTest_advanced : Advanced geometry kernels allowed session session.stopTest := by
  unfold stopTest
  split <;> exact ⟨⟨rfl, rfl, rfl⟩, .refl, rfl, rfl⟩

/-- A settle that is due begins by one move. -/
theorem beginSettle_advanced (active : session.sim.fitActive = true) :
    Advanced geometry kernels allowed session session.beginSettle := by
  unfold beginSettle
  split
  next due =>
    obtain ⟨-, off, running, -⟩ := due
    have off : session.sim.fitSettling = false := by simpa using off
    have running : session.sim.failed = false := by simpa using running
    obtain ⟨cfg, same, -⟩ := setFitPull_flags false { session.sim with fitSettling := true }
    exact ⟨⟨rfl, rfl, rfl⟩, .single (.beginSettle running active off), cfg, same⟩
  next => exact .refl session

/-- A settle that runs ends by one move. -/
theorem endSettle_advanced : Advanced geometry kernels allowed session session.endSettle := by
  unfold endSettle
  split
  next on =>
    obtain ⟨cfg, same, -⟩ := setFitPull_flags true session.sim
    exact ⟨⟨rfl, rfl, rfl⟩, .single (.endSettle on), cfg, same⟩
  next => exact .refl session

/-- A fit's stage: a phase of a step, then the settle or the end where they are due. -/
theorem fitStage_fitted (active : session.sim.fitActive = true)
    (may : session.sim.failed = false → allowed session.sim) :
    Fitted geometry kernels allowed session (session.fitStage geometry kernels fault) := by
  have stepped : Advanced geometry kernels allowed session
      ((if (session.advanced geometry kernels fault).2 then
        (session.advanced geometry kernels fault).1.stopTest
      else (session.advanced geometry kernels fault).1).beginSettle) := by
    have advanced := advanced_advanced geometry kernels fault session may
    have tested : Advanced geometry kernels allowed session
        (if (session.advanced geometry kernels fault).2 then
          (session.advanced geometry kernels fault).1.stopTest
        else (session.advanced geometry kernels fault).1) := by
      split
      · exact advanced.trans (stopTest_advanced geometry kernels _)
      · exact advanced
    exact tested.trans (beginSettle_advanced geometry kernels _ (tested.fitActive.trans active))
  have ends (last : Session σ α) (advanced : Advanced geometry kernels allowed session last) :
      Fitted geometry kernels allowed session
        (if 0 < last.fwdRemaining ∧ !last.sim.failed then { last with active := .fit }
        else last.endSettle.finishFit) := by
    split
    · exact .running ⟨⟨advanced.queue, advanced.fitGravity, advanced.fitDamp⟩, advanced.moves,
        advanced.cfg, advanced.fitActive⟩ rfl
    · have ended := advanced.trans (endSettle_advanced geometry kernels last)
      refine .finished ⟨ended.queue, ended.fitGravity, ended.fitDamp⟩
        (ended.moves.tail (.finishFit _ _)) ?_ rfl (endSettle_settling last) rfl
      simp only [finishFit, Sim.finishFit, ended.cfg, ended.fitGravity, ended.fitDamp]
  exact ends _ stepped

end Stages

section Tick

variable {σ α : Type*} [Field α] [LinearOrder α] (geometry : Geometry σ α) (kernels : Kernels α)
  (allowed : Sim σ α → Prop)

/-- What a tick does: a stage of a fit phase that runs or is begun, or a stage that
touches neither the flags nor the settings. -/
inductive Ticked (before after : Session σ α) : Prop
  | fit (running : before.active = .fit) (fitted : Fitted geometry kernels allowed before after)
  | begun (first : Session σ α) (idle : before.active = .none)
      (sim : first.sim = before.sim.beginFit) (gravity : first.fitGravity = before.sim.cfg.gravity)
      (damp : first.fitDamp = before.sim.cfg.damp)
      (may : before.sim.failed = false → allowed before.sim.beginFit)
      (fitted : Fitted geometry kernels allowed first after)
  | other (off : before.active.fitting = false)
      (moves : ReflTransGen (Sim.Move geometry kernels allowed) before.sim after.sim)
      (cfg : after.sim.cfg = before.sim.cfg) (fitActive : after.sim.fitActive = before.sim.fitActive)
      (fitSettling : after.sim.fitSettling = before.sim.fitSettling)
      (still : after.active.fitting = false)

variable {geometry kernels allowed} {session : Session σ α} (fault : Fault)

/-- A forward's stage, just begun or running, leaves the flags and the settings. -/
theorem forwardStage_ticked {begun : Session σ α} (same : begun.sim = session.sim)
    (off : session.active.fitting = false)
    (may : session.sim.failed = false → allowed session.sim) :
    Ticked geometry kernels allowed session (begun.forwardStage geometry kernels fault) := by
  rw [← same] at may
  obtain ⟨⟨-, moves, cfg, active⟩, settling, running⟩ :=
    forwardStage_forwarded geometry kernels fault begun may
  rw [same] at moves cfg active settling
  refine .other off moves cfg active settling ?_
  rcases running with running | running <;> rw [running] <;> rfl

/-- A backward's stage, just begun or running, is one restaging. -/
theorem backwardStage_ticked {begun : Session σ α} (same : begun.sim = session.sim)
    (off : session.active.fitting = false) (bwd : Backward α) :
    Ticked geometry kernels allowed session (begun.backwardStage geometry kernels fault bwd) := by
  have staged := Backward.advance_restaged geometry kernels fault begun.sim bwd
  rw [same] at staged
  have last : (begun.backwardStage geometry kernels fault bwd).sim =
      (bwd.advance geometry kernels fault session.sim).1 := by
    rw [← same]
    rfl
  refine .other off ?_ ?_ ?_ ?_ ?_
  · rw [last]
    exact .single (.restaged staged)
  · rw [last, staged.sim]
  · rw [last, staged.sim]
  · rw [last, staged.sim]
  · unfold backwardStage
    dsimp only
    split <;> rfl

/-- A tick is one stage. -/
theorem tick_ticked (flagged : session.Flagged)
    (may : ∀ sim, session.advancing = some sim → sim.failed = false → allowed sim) :
    Ticked geometry kernels allowed session (session.tick geometry kernels fault) := by
  unfold tick
  cases running : session.active with
  | forward =>
      exact forwardStage_ticked fault rfl (by rw [running]; rfl)
        (may _ (by simp [advancing, running]))
  | fit =>
      exact .fit running (fitStage_fitted geometry kernels fault session
        (flagged.on (by rw [running]; rfl)) (may _ (by simp [advancing, running])))
  | backward bwd => exact backwardStage_ticked fault rfl (by rw [running]; rfl) bwd
  | none =>
      have off : session.active.fitting = false := by rw [running]; rfl
      have nothing (after : Session σ α) (same : after.sim = session.sim)
          (active : after.active = .none) : Ticked geometry kernels allowed session after :=
        .other off (by rw [same]) (by rw [same]) (by rw [same]) (by rw [same]) (by rw [active]; rfl)
      cases queued : session.queue with
      | nil => exact nothing session rfl running
      | cons job rest =>
          cases job with
          | forward steps =>
              exact forwardStage_ticked fault rfl off (may _ (by simp [advancing, running, queued]))
          | fit maxSteps tol =>
              dsimp only [begin_]
              split
              · exact nothing _ rfl rfl
              next fitted =>
                have may := may session.sim.beginFit (by simp [advancing, running, queued, fitted])
                exact .begun _ running rfl rfl rfl may
                  (fitStage_fitted geometry kernels fault _ rfl may)
          | backward target loss mode =>
              dsimp only [begin_]
              split
              · exact nothing _ rfl rfl
              · apply backwardStage_ticked fault _ off
                rfl

/-- The simulation moves by `Sim.Move` in a tick. -/
theorem Ticked.moves {after : Session σ α} (flagged : session.Flagged)
    (ticked : Ticked geometry kernels allowed session after) :
    ReflTransGen (Sim.Move geometry kernels allowed) session.sim after.sim := by
  cases ticked with
  | fit running fitted =>
      cases fitted with
      | running advanced active => exact advanced.moves
      | finished saved moves => exact moves
  | begun started idle sim gravity damp may fitted =>
      have first : Sim.Move geometry kernels allowed session.sim started.sim := by
        rw [sim]
        exact .beginFit (flagged.off (by rw [idle]; rfl)).2 may
      cases fitted with
      | running advanced active => exact .head first advanced.moves
      | finished saved moves => exact .head first moves
  | other off moves => exact moves

/-- After a tick the flags of a fit phase are set while one runs only. -/
theorem Ticked.flagged {after : Session σ α} (flagged : session.Flagged)
    (ticked : Ticked geometry kernels allowed session after) : after.Flagged := by
  have fits {before : Session σ α} (active : before.sim.fitActive = true)
      (fitted : Fitted geometry kernels allowed before after) : after.Flagged := by
    cases fitted with
    | running advanced running =>
        exact ⟨by rw [running]; rintro ⟨⟩, fun _ => advanced.fitActive.trans active⟩
    | finished saved moves cfg active settling ended =>
        exact ⟨fun _ => ⟨active, settling⟩, by rw [ended]; rintro ⟨⟩⟩
  cases ticked with
  | fit running fitted => exact fits (flagged.on (by rw [running]; rfl)) fitted
  | begun started idle sim gravity damp may fitted => exact fits (by rw [sim]; rfl) fitted
  | other off moves cfg active settling still =>
      obtain ⟨inactive, unsettled⟩ := flagged.off off
      exact ⟨fun _ => ⟨active.trans inactive, settling.trans unsettled⟩,
        fun on => absurd (still.symm.trans on) Bool.false_ne_true⟩

end Tick

section Run

variable {σ α : Type*} [Field α] {geometry : Geometry σ α} {kernels : Kernels α}

/-- A new session has no fit phase and no settle. -/
theorem opened_flagged (solver : Solver α) (scene : Scene σ α) (cfg : Config α) :
    (opened geometry solver scene cfg).Flagged := ⟨fun _ => ⟨rfl, rfl⟩, by rintro ⟨⟩⟩

variable [LinearOrder α]

/-- Every call keeps the flags in step with the running job. -/
theorem step_flagged (session : Session σ α) (op : Op σ α) (flagged : session.Flagged) :
    (session.step geometry kernels op).Flagged := by
  obtain ⟨off, on⟩ := flagged
  cases op with
  | load scene cfg =>
      dsimp only [step]
      split
      next idle =>
        refine ⟨fun _ => ⟨rfl, rfl⟩, fun fitting => ?_⟩
        exact absurd fitting (by revert idle; cases session.active <;> simp [Active.idle, Active.fitting])
      next => exact ⟨off, on⟩
  | setLive live => exact ⟨off, on⟩
  | setPrims prims => exact ⟨off, on⟩
  | rewind =>
      dsimp only [step]
      split <;> exact ⟨off, on⟩
  | enqueueForward steps =>
      dsimp only [step]
      split <;> exact ⟨off, on⟩
  | enqueueFit maxSteps tol =>
      dsimp only [step]
      split <;> exact ⟨off, on⟩
  | enqueueBackward target loss mode => exact ⟨off, on⟩
  | tick fault =>
      have ticked : Ticked geometry kernels (fun _ => True) session
          (session.tick geometry kernels fault) := tick_ticked fault ⟨off, on⟩ fun _ _ _ => trivial
      exact ticked.flagged ⟨off, on⟩

end Run

end Session

end DressOn.Drape
