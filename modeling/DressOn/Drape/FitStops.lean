import Mathlib.Tactic.Linarith
import DressOn.Drape.Consistency
import DressOn.Drape.Stages

/-!
# When a fit phase stops

A fit phase is to end with the step at which the fit has converged, but for the steps of its
settle. A settle that was asked for begins there and runs to its end. Without one nothing ends the
phase: its steps run on to the last that was asked for.
-/

namespace DressOn.Drape

section Advance

variable {σ α : Type*} (geometry : Geometry σ α) (kernels : Kernels α)

/-- The stages that a step has left, at most. -/
def Sim.stagesLeft (sim : Sim σ α) : Nat :=
  match sim.phase with
  | .idle => sim.cfg.selfPasses + 2
  | .solved => sim.cfg.selfPasses + 1
  | .scanned => sim.cfg.selfPasses - sim.pass

theorem Sim.stagesLeft_idle {sim : Sim σ α} (here : sim.phase = .idle) :
    sim.stagesLeft = sim.cfg.selfPasses + 2 := by
  rw [stagesLeft, here]

theorem Sim.stagesLeft_solved {sim : Sim σ α} (here : sim.phase = .solved) :
    sim.stagesLeft = sim.cfg.selfPasses + 1 := by
  rw [stagesLeft, here]

theorem Sim.stagesLeft_scanned {sim : Sim σ α} (here : sim.phase = .scanned) :
    sim.stagesLeft = sim.cfg.selfPasses - sim.pass := by
  rw [stagesLeft, here]

/-- What a stage does to the steps: it completes one, or it is one stage less to go. -/
inductive Paced (before after : Sim σ α) : Bool → Prop
  | complete (recs : after.recs.length = before.recs.length + 1)
      (fitSteps : after.fitSteps =
        if before.fitActive then before.fitSteps + 1 else before.fitSteps)
      (idle : after.phase = .idle) : Paced before after true
  | pending (recs : after.recs.length = before.recs.length)
      (fitSteps : after.fitSteps = before.fitSteps)
      (less : after.stagesLeft < before.stagesLeft) : Paced before after false

variable (fault : Fault) (sim : Sim σ α)

theorem submitScan_paced : (sim.submitScan fault).recs = sim.recs ∧
    (sim.submitScan fault).fitSteps = sim.fitSteps ∧ (sim.submitScan fault).cfg = sim.cfg ∧
    (sim.submitScan fault).phase = sim.phase ∧ (sim.submitScan fault).pass = sim.pass ∧
    (sim.failed = true → (sim.submitScan fault).failed = true) := by
  unfold Sim.submitScan
  dsimp only
  split
  · exact ⟨rfl, rfl, rfl, rfl, rfl, fun _ => rfl⟩
  · exact ⟨rfl, rfl, rfl, rfl, rfl, id⟩

variable [Field α]

theorem refresh_paced : (sim.refresh geometry).recs = sim.recs ∧
    (sim.refresh geometry).fitSteps = sim.fitSteps ∧
    (sim.refresh geometry).failed = sim.failed ∧
    (sim.refresh geometry).scene.fitSettle = sim.scene.fitSettle ∧
    (sim.refresh geometry).scene.fitRefresh = sim.scene.fitRefresh := by
  have rest : (sim.refreshRest geometry).recs = sim.recs ∧
      (sim.refreshRest geometry).fitSteps = sim.fitSteps ∧
      (sim.refreshRest geometry).failed = sim.failed ∧
      (sim.refreshRest geometry).scene.fitSettle = sim.scene.fitSettle ∧
      (sim.refreshRest geometry).scene.fitRefresh = sim.scene.fitRefresh := by
    unfold Sim.refreshRest
    split
    · exact ⟨rfl, rfl, rfl, rfl, rfl⟩
    · split <;> exact ⟨rfl, rfl, rfl, rfl, rfl⟩
  unfold Sim.refresh
  split
  · split
    · exact rest
    · exact ⟨rfl, rfl, rfl, rfl, rfl⟩
  · exact ⟨rfl, rfl, rfl, rfl, rfl⟩

variable [LinearOrder α]

theorem start_paced (idle : sim.phase = .idle) :
    Paced sim (sim.start geometry kernels fault) false ∧
      (sim.failed = true → (sim.start geometry kernels fault).failed = true) := by
  obtain ⟨recs, fitSteps, failed, -, -⟩ := refresh_paced geometry sim
  have cfg : (sim.refresh geometry).cfg = sim.cfg := by
    have begun := (begun_flags geometry sim).1
    rwa [Sim.begun, if_pos idle] at begun
  have more := Sim.stagesLeft_idle idle
  unfold Sim.start
  dsimp only
  split
  · refine ⟨.pending (congrArg List.length recs) fitSteps ?_, fun _ => rfl⟩
    rw [more, ← cfg]
    exact Nat.lt_succ_self _
  · refine ⟨.pending (congrArg List.length recs) fitSteps ?_, fun off => failed.trans off⟩
    rw [more, ← cfg]
    exact Nat.lt_succ_self _

theorem finishStep_paced : Paced sim (sim.finishStep geometry) true :=
  .complete (by simp [Sim.finishStep]) rfl rfl

/-- The first stage behind the solve. -/
theorem solved_paced (here : sim.phase = .solved) :
    Paced sim (sim.solved geometry kernels fault).1 (sim.solved geometry kernels fault).2 ∧
      (sim.failed = true → (sim.solved geometry kernels fault).1.failed = true) := by
  have more := Sim.stagesLeft_solved here
  unfold Sim.solved
  dsimp only
  split
  · obtain ⟨recs, fitSteps, cfg, -, pass, failed⟩ := submitScan_paced fault
      { sim.respond geometry kernels fault with pass := 0 }
    refine ⟨.pending (congrArg List.length recs) fitSteps ?_, fun off => failed ?_⟩
    · rw [more]
      show (Sim.submitScan fault _).cfg.selfPasses - (Sim.submitScan fault _).pass < _
      rw [cfg, pass]
      exact Nat.lt_succ_self _
    · show (sim.failed || fault.read) = true
      rw [off, Bool.true_or]
  · refine ⟨?_, fun off => ?_⟩
    · obtain ⟨recs, fitSteps, idle⟩ := finishStep_paced geometry
        (sim.respond geometry kernels fault)
      exact .complete recs fitSteps idle
    · show (sim.failed || fault.read) = true
      rw [off, Bool.true_or]

/-- A pass of the self-collision. -/
theorem scanned_paced (here : sim.phase = .scanned) :
    Paced sim (sim.scanned geometry kernels fault).1 (sim.scanned geometry kernels fault).2 ∧
      (sim.failed = true → (sim.scanned geometry kernels fault).1.failed = true) := by
  unfold Sim.scanned
  dsimp only
  generalize (kernels.scan sim.solver.buffers).foldl _ _ = pushed
  split
  next again =>
    obtain ⟨recs, fitSteps, cfg, phase, pass, failed⟩ := submitScan_paced fault
      { sim with
        pos := pushed.1
        pass := sim.pass + 1
        cur := { sim.cur with
          pushes := pushed.2, passEnd := sim.cur.passEnd ++ [pushed.2.length] } }
    refine ⟨.pending (congrArg List.length recs) fitSteps ?_, failed⟩
    show (Sim.submitScan fault _).stagesLeft < _
    rw [Sim.stagesLeft_scanned (phase.trans here), Sim.stagesLeft_scanned here, pass, cfg]
    exact Nat.sub_succ_lt_self _ _ (Nat.lt_of_succ_lt again.2)
  next => exact ⟨.complete (by simp [Sim.finishStep]) rfl rfl, id⟩

/-- A stage of a step. -/
theorem advance_paced :
    Paced sim (sim.advance geometry kernels fault).1 (sim.advance geometry kernels fault).2 ∧
      (sim.failed = true → (sim.advance geometry kernels fault).1.failed = true) := by
  unfold Sim.advance
  cases phase : sim.phase with
  | idle => exact start_paced geometry kernels fault sim phase
  | solved => exact solved_paced geometry kernels fault sim phase
  | scanned => exact scanned_paced geometry kernels fault sim phase

/-- A stage leaves alone how a fit is refreshed and settled. -/
theorem advance_fit : (sim.advance geometry kernels fault).1.scene.fitSettle = sim.scene.fitSettle ∧
    (sim.advance geometry kernels fault).1.scene.fitRefresh = sim.scene.fitRefresh := by
  have stepped := advance_stepped geometry kernels fault sim
  obtain ⟨-, -, -, settle, refresh⟩ := refresh_paced geometry sim
  have begun : (sim.begun geometry).scene.fitSettle = sim.scene.fitSettle ∧
      (sim.begun geometry).scene.fitRefresh = sim.scene.fitRefresh := by
    unfold Sim.begun
    split
    · exact ⟨settle, refresh⟩
    · exact ⟨rfl, rfl⟩
  rw [stepped.scene]
  exact begun

end Advance

section Phase

variable {σ α : Type*}

/-- The steps of a session so far. -/
def Session.steps (session : Session σ α) : Nat := session.sim.recs.length

theorem Session.stopTest_eq [LinearOrder α] (session : Session σ α) : session.stopTest =
    { session with
      fitConverged := session.fitConverged || decide (session.sim.fitSettling = false ∧
        session.sim.fitSteps % max 1 session.sim.scene.fitRefresh = 0 ∧
          session.sim.lastMaxDisp < session.fitTol) } := by
  unfold stopTest
  split
  next stop =>
    simp only [Bool.not_eq_true'] at stop
    rw [decide_eq_true stop, Bool.or_true]
  next on =>
    simp only [Bool.not_eq_true'] at on
    rw [decide_eq_false on, Bool.or_false]

variable [Field α]

/-- The end of a phase keeps the steps and the verdicts. -/
theorem Session.finished_kept (session : Session σ α) :
    session.endSettle.finishFit.steps = session.steps ∧
    session.endSettle.finishFit.sim.failed = session.sim.failed ∧
    session.endSettle.finishFit.fitConverged = session.fitConverged := by
  unfold endSettle
  split
  · refine ⟨?_, ?_, rfl⟩
    · show (Sim.setFitPull true session.sim).recs.length = session.sim.recs.length
      unfold Sim.setFitPull
      split <;> rfl
    · show (Sim.setFitPull true session.sim).failed = session.sim.failed
      unfold Sim.setFitPull
      split <;> rfl
  · exact ⟨rfl, rfl, rfl⟩

/-- The beginning of a settle keeps the steps and the verdict. -/
theorem Session.beginSettle_kept (sim : Sim σ α) : sim.beginSettle.recs = sim.recs ∧
    sim.beginSettle.failed = sim.failed ∧ sim.beginSettle.fitSettling = true := by
  unfold Sim.beginSettle Sim.setFitPull
  split <;> exact ⟨rfl, rfl, rfl⟩

variable [LinearOrder α] (geometry : Geometry σ α) (kernels : Kernels α)
  (faults : Nat → Fault)

namespace Session

/-- A session after some ticks. -/
def after (session : Session σ α) : Nat → Session σ α
  | 0 => session
  | n + 1 => (after session n).tick geometry kernels (faults n)

/-- The next job is a fit phase, and the scene has a fit set. -/
structure FitQueued (session : Session σ α) (maxSteps : Nat) (tol : α) : Prop where
  idle : session.active = .none
  next : ∃ rest, session.queue = .fit maxSteps tol :: rest
  fitSet : session.sim.scene.nFit ≠ 0

/-- A phase that has run its stages up to a tick ends after some more, as it should. -/
structure StopsFrom (session : Session σ α) (maxSteps start last : Nat) : Prop where
  later : start < last
  runs : ∀ n, start < n → n < last → (session.after geometry kernels faults n).active.fitting = true
  ended : (session.after geometry kernels faults last).active.fitting = false
  /-- No more fit steps than were asked for. -/
  fitSteps : ∀ n, start ≤ n → n < last →
    (n = start ∨ (session.after geometry kernels faults n).sim.fitSettling = false) →
    (session.after geometry kernels faults (n + 1)).steps ≤ session.steps + maxSteps
  /-- What still runs once the fit has converged is the settle. -/
  stops : ∀ n, start < n → n < last →
    (session.after geometry kernels faults n).fitConverged = true →
    (session.after geometry kernels faults n).sim.fitSettling = true
  /-- Behind the step at which it converges there are the steps of the settle, all of them unless
  the solver fails. -/
  settles : ∀ n, start < n → n ≤ last →
    (session.after geometry kernels faults n).fitConverged = true →
    (∀ m, start < m → m < n → (session.after geometry kernels faults m).fitConverged = false) →
    (session.after geometry kernels faults last).steps
        ≤ (session.after geometry kernels faults n).steps + session.sim.scene.fitSettle ∧
      ((session.after geometry kernels faults last).sim.failed = false →
        (session.after geometry kernels faults last).steps
          = (session.after geometry kernels faults n).steps + session.sim.scene.fitSettle)

/-- The fit phase that begins with the next tick stops early. -/
def StopsEarly (session : Session σ α) (maxSteps : Nat) : Prop :=
  ∃ last, session.StopsFrom geometry kernels faults maxSteps 0 last

end Session

/-- The simulation of a fit phase by itself, stage after stage. -/
def Sim.alone (sim : Sim σ α) : Nat → Sim σ α
  | 0 => sim.beginFit
  | n + 1 => ((Sim.alone sim n).advance geometry kernels (faults n)).1

/-- No step of the simulation before the last that was asked for closes a refresh cycle with all
moves under the tolerance. -/
def Sim.NeverUnder (sim : Sim σ α) (maxSteps : Nat) (tol : α) : Prop :=
  ∀ n, ((sim.alone geometry kernels faults n).advance geometry kernels (faults n)).2 = true →
    (sim.alone geometry kernels faults (n + 1)).failed = false →
    (sim.alone geometry kernels faults (n + 1)).fitSteps < maxSteps →
    (sim.alone geometry kernels faults (n + 1)).fitSteps % max 1 sim.scene.fitRefresh = 0 →
    tol ≤ (sim.alone geometry kernels faults (n + 1)).lastMaxDisp

variable {geometry kernels faults}

/-- What the stages of the simulation keep. -/
theorem Sim.alone_kept (sim : Sim σ α) (n : Nat) :
    (sim.alone geometry kernels faults n).scene.fitSettle = sim.scene.fitSettle ∧
    (sim.alone geometry kernels faults n).scene.fitRefresh = sim.scene.fitRefresh ∧
    (sim.alone geometry kernels faults n).fitActive = true ∧
    (sim.alone geometry kernels faults n).fitSettling = false ∧
    (sim.alone geometry kernels faults n).cfg.selfPasses = sim.cfg.selfPasses := by
  induction n with
  | zero => exact ⟨rfl, rfl, rfl, rfl, rfl⟩
  | succ n ih =>
      obtain ⟨settle, refresh, active, settling, passes⟩ := ih
      obtain ⟨cfg, active', settling'⟩ := advance_flags geometry kernels (faults n)
        (sim.alone geometry kernels faults n)
      obtain ⟨settle', refresh'⟩ := advance_fit geometry kernels (faults n)
        (sim.alone geometry kernels faults n)
      exact ⟨settle'.trans settle, refresh'.trans refresh, active'.trans active,
        settling'.trans settling, (congrArg (fun cfg => cfg.selfPasses) cfg).trans passes⟩

/-- What one more stage cannot take back. -/
theorem Sim.alone_grows (sim : Sim σ α) (n : Nat) :
    (sim.alone geometry kernels faults n).fitSteps
        ≤ (sim.alone geometry kernels faults (n + 1)).fitSteps ∧
      ((sim.alone geometry kernels faults (n + 1)).failed = false →
        (sim.alone geometry kernels faults n).failed = false) := by
  obtain ⟨-, -, active, -, -⟩ := @Sim.alone_kept σ α _ _ geometry kernels faults sim n
  obtain ⟨paced, sticks⟩ := advance_paced geometry kernels (faults n)
    (sim.alone geometry kernels faults n)
  constructor
  · show _ ≤ ((sim.alone geometry kernels faults n).advance geometry kernels (faults n)).1.fitSteps
    generalize (sim.alone geometry kernels faults n).advance geometry kernels (faults n)
      = next at paced
    obtain ⟨after, complete⟩ := next
    cases paced with
    | complete _ fitSteps _ =>
        rw [fitSteps, if_pos active]
        exact Nat.le_succ _
    | pending _ fitSteps _ => exact fitSteps.ge
  · intro running
    cases failed : (sim.alone geometry kernels faults n).failed with
    | false => rfl
    | true => exact absurd ((sticks failed).symm.trans running) Bool.true_eq_false.mp

namespace Session

variable (geometry kernels) in
/-- The step and its stop test. -/
def tested (fault : Fault) (session : Session σ α) : Session σ α :=
  let next := session.advanced geometry kernels fault
  if next.2 then next.1.stopTest else next.1

/-- What a stage of the phase does behind the stop test. -/
inductive Staged (tested : Session σ α) : Session σ α → Prop
  | on (left : 0 < tested.fwdRemaining) (running : tested.sim.failed = false)
      (may : tested.sim.fitSettling = true ∨ tested.fitConverged = false ∨
        tested.sim.scene.fitSettle = 0) : Staged tested { tested with active := .fit }
  | settle (running : tested.sim.failed = false) (off : tested.sim.fitSettling = false)
      (ends : tested.fitConverged = true ∨ tested.fwdRemaining = 0)
      (asked : 0 < tested.sim.scene.fitSettle) :
      Staged tested { tested with
        sim := tested.sim.beginSettle
        fwdRemaining := tested.sim.scene.fitSettle
        active := .fit }
  | finish (ends : tested.sim.failed = true ∨ tested.fwdRemaining = 0 ∧
        (tested.sim.fitSettling = true ∨ tested.sim.scene.fitSettle = 0)) :
      Staged tested tested.endSettle.finishFit

theorem fitStage_staged (fault : Fault) (session : Session σ α) :
    Staged (session.tested geometry kernels fault) (session.fitStage geometry kernels fault) := by
  have whole : session.fitStage geometry kernels fault =
      let last := (session.tested geometry kernels fault).beginSettle
      if 0 < last.fwdRemaining ∧ !last.sim.failed then { last with active := .fit }
      else last.endSettle.finishFit := rfl
  rw [whole]
  generalize session.tested geometry kernels fault = tested
  dsimp only
  by_cases due : tested.fitOver ∧ !tested.sim.fitSettling ∧ !tested.sim.failed ∧
      0 < tested.sim.scene.fitSettle
  · have begun : tested.beginSettle = { tested with
        sim := tested.sim.beginSettle, fwdRemaining := tested.sim.scene.fitSettle } := by
      rw [beginSettle, if_pos due]
    have failed : tested.sim.beginSettle.failed = tested.sim.failed := by
      unfold Sim.beginSettle Sim.setFitPull
      split <;> rfl
    obtain ⟨ends, off, running, asked⟩ := due
    simp only [Bool.not_eq_true'] at off running
    rw [begun, if_pos (by simp [asked, failed, running])]
    refine .settle running off ?_ asked
    simpa [fitOver, running] using ends
  · have same : tested.beginSettle = tested := by rw [beginSettle, if_neg due]
    rw [same]
    split
    next more =>
      obtain ⟨left, running⟩ := more
      simp only [Bool.not_eq_true'] at running
      refine .on left running ?_
      cases settling : tested.sim.fitSettling with
      | true => exact Or.inl rfl
      | false =>
          have settle : tested.fitConverged = true ∨ tested.fwdRemaining = 0 →
              tested.sim.scene.fitSettle = 0 := by
            simpa [fitOver, settling, running] using due
          cases converged : tested.fitConverged with
          | true => exact Or.inr (Or.inr (settle (Or.inl converged)))
          | false => exact Or.inr (Or.inl rfl)
    next ends =>
      cases failed : tested.sim.failed with
      | true => exact .finish (Or.inl failed)
      | false =>
          have last : tested.fwdRemaining = 0 := by simpa [failed] using ends
          have settle : tested.sim.fitSettling = false → tested.sim.scene.fitSettle = 0 := by
            simpa [fitOver, failed, last] using due
          cases settling : tested.sim.fitSettling with
          | true => exact .finish (Or.inr ⟨last, Or.inl settling⟩)
          | false => exact .finish (Or.inr ⟨last, Or.inr (settle settling)⟩)

/-- The stages that the steps of a session have left, at most. -/
def cost (session : Session σ α) : Nat :=
  session.sim.stagesLeft + (session.sim.cfg.selfPasses + 3) * session.fwdRemaining

/-- What a stage with steps to go leaves at its stop test. -/
structure Tested (geometry : Geometry σ α) (kernels : Kernels α) (fault : Fault)
    (before tested : Session σ α) : Prop where
  sim : tested.sim = (before.sim.advance geometry kernels fault).1
  tol : tested.fitTol = before.fitTol
  cost : tested.cost < before.cost
  steps : tested.steps + tested.fwdRemaining = before.steps + before.fwdRemaining
  fitSteps : before.sim.fitActive = true →
    tested.sim.fitSteps + tested.fwdRemaining = before.sim.fitSteps + before.fwdRemaining
  converged : tested.fitConverged = true ↔ before.fitConverged = true ∨
    (before.sim.advance geometry kernels fault).2 = true ∧ tested.sim.fitSettling = false ∧
      tested.sim.fitSteps % max 1 tested.sim.scene.fitRefresh = 0 ∧
      tested.sim.lastMaxDisp < before.fitTol

/-- With steps to go, a stage takes one of them further. -/
theorem tested_tested (fault : Fault) (session : Session σ α) (left : 0 < session.fwdRemaining)
    (running : session.sim.failed = false) :
    Tested geometry kernels fault session (session.tested geometry kernels fault) := by
  have taken : session.advanced geometry kernels fault =
      ({ session with
          sim := (session.sim.advance geometry kernels fault).1
          fwdRemaining := if (session.sim.advance geometry kernels fault).2 then
            session.fwdRemaining - 1 else session.fwdRemaining },
        (session.sim.advance geometry kernels fault).2) := by
    rw [advanced, if_pos ⟨left, by rw [running]; rfl⟩]
  have passes : (session.sim.advance geometry kernels fault).1.cfg.selfPasses
      = session.sim.cfg.selfPasses :=
    congrArg (fun cfg => cfg.selfPasses) (advance_flags geometry kernels fault session.sim).1
  have paced := (advance_paced geometry kernels fault session.sim).1
  unfold tested
  rw [taken]
  dsimp only
  generalize taken : session.sim.advance geometry kernels fault = next at paced passes ⊢
  obtain ⟨sim, complete⟩ := next
  dsimp only at paced passes ⊢
  cases paced with
  | complete recs fitSteps idle =>
      rw [if_pos rfl, if_pos rfl, stopTest_eq]
      refine ⟨by rw [taken], rfl, ?_, ?_, fun active => ?_, ?_⟩
      · show sim.stagesLeft + (sim.cfg.selfPasses + 3) * (session.fwdRemaining - 1) <
          session.sim.stagesLeft + (session.sim.cfg.selfPasses + 3) * session.fwdRemaining
        rw [Sim.stagesLeft_idle idle, passes]
        obtain ⟨later, some_left⟩ := Nat.exists_eq_add_one.mpr left
        rw [some_left, Nat.add_sub_cancel, Nat.mul_add_one]
        omega
      · show sim.recs.length + (session.fwdRemaining - 1) =
          session.sim.recs.length + session.fwdRemaining
        omega
      · rw [if_pos active] at fitSteps
        show sim.fitSteps + (session.fwdRemaining - 1) =
          session.sim.fitSteps + session.fwdRemaining
        omega
      · rw [taken]
        simp
  | pending recs fitSteps less =>
      rw [if_neg Bool.false_ne_true, if_neg Bool.false_ne_true]
      refine ⟨by rw [taken], rfl, ?_, ?_, fun active => ?_, ?_⟩
      · show sim.stagesLeft + (sim.cfg.selfPasses + 3) * session.fwdRemaining <
          session.sim.stagesLeft + (session.sim.cfg.selfPasses + 3) * session.fwdRemaining
        rw [passes]
        exact Nat.add_lt_add_right less _
      · exact congrArg (· + session.fwdRemaining) recs
      · exact congrArg (· + session.fwdRemaining) fitSteps
      · rw [taken]
        simp

theorem tick_of_fit {session : Session σ α} (active : session.active = .fit) (fault : Fault) :
    session.tick geometry kernels fault = session.fitStage geometry kernels fault := by
  rw [tick, active]

/-- A phase in its settle. -/
structure Settling (session : Session σ α) : Prop where
  active : session.active = .fit
  left : 0 < session.fwdRemaining
  running : session.sim.failed = false
  settling : session.sim.fitSettling = true

variable {first : Session σ α}

/-- A settle runs to its end. -/
theorem settling_runs (n : Nat) (settling : Settling (first.after geometry kernels faults n)) :
    ∃ last, n < last ∧
      (∀ m, n ≤ m → m < last → (first.after geometry kernels faults m).active.fitting = true ∧
        (first.after geometry kernels faults m).sim.fitSettling = true) ∧
      (first.after geometry kernels faults last).active.fitting = false ∧
      (∀ m, n ≤ m → m ≤ last → (first.after geometry kernels faults m).fitConverged
        = (first.after geometry kernels faults n).fitConverged) ∧
      (first.after geometry kernels faults last).steps
        ≤ (first.after geometry kernels faults n).steps
          + (first.after geometry kernels faults n).fwdRemaining ∧
      ((first.after geometry kernels faults last).sim.failed = false →
        (first.after geometry kernels faults last).steps
          = (first.after geometry kernels faults n).steps
            + (first.after geometry kernels faults n).fwdRemaining) := by
  induction work : (first.after geometry kernels faults n).cost using Nat.strongRecOn
    generalizing n with
  | ind work ih =>
  obtain ⟨active, left, running, on⟩ := settling
  have next : first.after geometry kernels faults (n + 1) =
      (first.after geometry kernels faults n).fitStage geometry kernels (faults n) :=
    tick_of_fit active (faults n)
  have here : (first.after geometry kernels faults n).active.fitting = true := by rw [active]; rfl
  have staged := @fitStage_staged σ α _ _ geometry kernels (faults n)
    (first.after geometry kernels faults n)
  obtain ⟨sim, -, cost, steps, -, converged⟩ := @tested_tested σ α _ _ geometry kernels (faults n)
    (first.after geometry kernels faults n) left running
  rw [← next] at staged
  have still : ((first.after geometry kernels faults n).tested geometry kernels
      (faults n)).sim.fitSettling = true := by
    rw [sim]
    exact (advance_flags geometry kernels (faults n) _).2.2.trans on
  have same : ((first.after geometry kernels faults n).tested geometry kernels
      (faults n)).fitConverged = (first.after geometry kernels faults n).fitConverged := by
    rw [Bool.eq_iff_iff, converged, still]
    simp
  generalize (first.after geometry kernels faults n).tested geometry kernels (faults n) = tested
    at staged cost steps still same
  generalize reached : first.after geometry kernels faults (n + 1) = after at staged
  cases staged with
  | on more running _ =>
      obtain ⟨last, later, runs, ended, kept, bound, whole⟩ :=
        ih tested.cost (work ▸ cost) (n + 1) (by rw [reached]; exact ⟨rfl, more, running, still⟩)
          (by rw [reached]; rfl)
      rw [reached] at kept bound whole
      have total : tested.steps + tested.fwdRemaining =
          (first.after geometry kernels faults n).steps +
            (first.after geometry kernels faults n).fwdRemaining := steps
      refine ⟨last, by omega, fun m from_ before => ?_, ended, fun m from_ upto => ?_, ?_,
        fun fine => ?_⟩
      · rcases Nat.eq_or_lt_of_le from_ with rfl | further
        · exact ⟨here, on⟩
        · exact runs m further before
      · rcases Nat.eq_or_lt_of_le from_ with rfl | further
        · rfl
        · exact (kept m further upto).trans same
      · exact total ▸ bound
      · exact total ▸ whole fine
  | settle _ off => exact absurd (still.symm.trans off) Bool.true_eq_false.mp
  | finish ends =>
      obtain ⟨recs, failed, converged⟩ := finished_kept tested
      refine ⟨n + 1, Nat.lt_succ_self n, fun m from_ before => ?_, ?_, fun m from_ upto => ?_, ?_,
        fun fine => ?_⟩
      · obtain rfl : m = n := by omega
        exact ⟨here, on⟩
      · rw [reached]
        rfl
      · rcases Nat.eq_or_lt_of_le from_ with rfl | further
        · rfl
        · obtain rfl : m = n + 1 := by omega
          rw [reached, converged]
          exact same
      · rw [reached, recs]
        omega
      · rw [reached] at fine ⊢
        rw [recs]
        rcases ends with off | ⟨none, -⟩
        · exact absurd ((failed.trans off).symm.trans fine) Bool.true_eq_false.mp
        · omega

/-- A phase whose settle begins stops behind it. -/
theorem stopsFrom_of_settle {maxSteps n : Nat} {tested : Session σ α}
    (reached : first.after geometry kernels faults (n + 1) = { tested with
      sim := tested.sim.beginSettle
      fwdRemaining := tested.sim.scene.fitSettle
      active := .fit })
    (running : tested.sim.failed = false) (asked : 0 < tested.sim.scene.fitSettle)
    (settle : tested.sim.scene.fitSettle = first.sim.scene.fitSettle)
    (bound : tested.steps ≤ first.steps + maxSteps) :
    ∃ last, first.StopsFrom geometry kernels faults maxSteps n last := by
  obtain ⟨recs, failed, on⟩ := beginSettle_kept tested.sim
  obtain ⟨last, later, runs, ended, kept, most, whole⟩ :=
    settling_runs (n + 1) (by rw [reached]; exact ⟨rfl, asked, failed.trans running, on⟩)
  have steps : (first.after geometry kernels faults (n + 1)).steps = tested.steps := by
    rw [reached]
    exact congrArg List.length recs
  have left : (first.after geometry kernels faults (n + 1)).fwdRemaining
      = first.sim.scene.fitSettle := by
    rw [reached]
    exact settle
  rw [left] at most whole
  refine ⟨last, by omega, fun m from_ before => (runs m from_ before).1, ended,
    fun m from_ before fit => ?_, fun m from_ before _ => (runs m from_ before).2,
    fun m from_ upto converged none => ?_⟩
  · rcases fit with rfl | off
    · rw [steps]
      exact bound
    · rcases Nat.eq_or_lt_of_le from_ with rfl | further
      · rw [steps]
        exact bound
      · exact absurd ((runs m further before).2.symm.trans off) Bool.true_eq_false.mp
  · have already : (first.after geometry kernels faults (n + 1)).fitConverged = true :=
      (kept m from_ upto).symm.trans converged
    have here : m = n + 1 := by
      by_contra other
      exact absurd (already.symm.trans (none (n + 1) (Nat.lt_succ_self n) (by omega)))
        Bool.true_eq_false.mp
    subst here
    exact ⟨most, whole⟩

/-- A phase that ends stops there. -/
theorem stopsFrom_of_finish {maxSteps n : Nat} {tested : Session σ α}
    (reached : first.after geometry kernels faults (n + 1) = tested.endSettle.finishFit)
    (ends : tested.sim.failed = true ∨ first.sim.scene.fitSettle = 0)
    (bound : tested.steps ≤ first.steps + maxSteps) :
    ∃ last, first.StopsFrom geometry kernels faults maxSteps n last := by
  obtain ⟨recs, failed, -⟩ := finished_kept tested
  refine ⟨n + 1, Nat.lt_succ_self n, fun m from_ before => by omega, ?_, fun m from_ before _ => ?_,
    fun m from_ before => by omega, fun m from_ upto _ _ => ?_⟩
  · rw [reached]
    rfl
  · obtain rfl : m = n := by omega
    rw [reached, recs]
    exact bound
  · obtain rfl : m = n + 1 := by omega
    refine ⟨Nat.le_add_right _ _, fun fine => ?_⟩
    rw [reached] at fine
    rcases ends with off | none
    · exact absurd ((failed.trans off).symm.trans fine) Bool.true_eq_false.mp
    · omega

/-- A stage before which nothing has converged puts the end off. -/
theorem stopsFrom_of_later {maxSteps n last : Nat}
    (stops : first.StopsFrom geometry kernels faults maxSteps (n + 1) last)
    (active : (first.after geometry kernels faults (n + 1)).active.fitting = true)
    (unconverged : (first.after geometry kernels faults (n + 1)).fitConverged = false)
    (bound : (first.after geometry kernels faults (n + 1)).steps ≤ first.steps + maxSteps) :
    first.StopsFrom geometry kernels faults maxSteps n last where
  later := Nat.lt_of_succ_lt stops.later
  runs m from_ before := by
    rcases Nat.eq_or_lt_of_le from_ with rfl | further
    · exact active
    · exact stops.runs m further before
  ended := stops.ended
  fitSteps m from_ before fit := by
    rcases Nat.eq_or_lt_of_le from_ with rfl | further
    · exact bound
    · refine stops.fitSteps m further before ?_
      rcases fit with rfl | off
      · exact absurd further (Nat.lt_irrefl _)
      · exact Or.inr off
  stops m from_ before converged := by
    rcases Nat.eq_or_lt_of_le from_ with rfl | further
    · exact absurd (converged.symm.trans unconverged) Bool.true_eq_false.mp
    · exact stops.stops m further before converged
  settles m from_ upto converged none := by
    rcases Nat.eq_or_lt_of_le from_ with rfl | further
    · exact absurd (converged.symm.trans unconverged) Bool.true_eq_false.mp
    · exact stops.settles m further upto converged fun k later before =>
        none k (Nat.lt_of_succ_lt later) before

/-- A phase that counts its fit steps. -/
structure Counting (geometry : Geometry σ α) (kernels : Kernels α) (faults : Nat → Fault)
    (first : Session σ α) (maxSteps : Nat) (tol : α) (n : Nat) (session : Session σ α) : Prop where
  sim : session.sim = first.sim.alone geometry kernels faults n
  tol : session.fitTol = tol
  count : session.sim.fitSteps + session.fwdRemaining = maxSteps

/-- A phase that takes its fit steps, none of which has converged. -/
structure Fitting (geometry : Geometry σ α) (kernels : Kernels α) (faults : Nat → Fault)
    (first : Session σ α) (maxSteps : Nat) (tol : α) (n : Nat) (session : Session σ α) : Prop
    extends Counting geometry kernels faults first maxSteps tol n session where
  converged : session.fitConverged = false
  steps : session.steps = first.steps + session.sim.fitSteps

/-- The phase runs on to its settle or its end, where a settle is asked for or nothing converges
too early. -/
theorem fitting_runs {maxSteps : Nat} {tol : α}
    (spared : 0 < first.sim.scene.fitSettle ∨
      first.sim.NeverUnder geometry kernels faults maxSteps tol)
    (n : Nat) (session : Session σ α)
    (fitting : Fitting geometry kernels faults first maxSteps tol n session)
    (next : first.after geometry kernels faults (n + 1) =
      session.fitStage geometry kernels (faults n)) :
    ∃ last, first.StopsFrom geometry kernels faults maxSteps n last := by
  induction work : session.cost using Nat.strongRecOn generalizing n session with
  | ind work ih =>
  obtain ⟨⟨sim, tolerance, count⟩, unconverged, steps⟩ := fitting
  have staged := @fitStage_staged σ α _ _ geometry kernels (faults n) session
  rw [← next] at staged
  by_cases go : 0 < session.fwdRemaining ∧ session.sim.failed = false
  · obtain ⟨sim', tol', cost, total, fitTotal, converged⟩ :=
      @tested_tested σ α _ _ geometry kernels (faults n) session go.1 go.2
    obtain ⟨settle, refresh, active, settling, -⟩ :=
      @Sim.alone_kept σ α _ _ geometry kernels faults first.sim (n + 1)
    have active_now : session.sim.fitActive = true := by
      rw [sim]
      exact (@Sim.alone_kept σ α _ _ geometry kernels faults first.sim n).2.2.1
    have alone : (session.tested geometry kernels (faults n)).sim =
        first.sim.alone geometry kernels faults (n + 1) := by
      rw [sim', sim]
      rfl
    have fit_count := fitTotal active_now
    rw [sim] at converged
    generalize session.tested geometry kernels (faults n) = tested
      at staged tol' cost total fit_count converged alone
    rw [← alone] at settle refresh settling
    have bound : tested.steps = first.steps + tested.sim.fitSteps := by omega
    generalize reached : first.after geometry kernels faults (n + 1) = after at staged
    cases staged with
    | on left running may =>
        have still : tested.fitConverged = false := by
          rcases may with on | still | none
          · exact absurd (on.symm.trans settling) Bool.true_eq_false.mp
          · exact still
          · have never := spared.resolve_left (by omega)
            cases early : tested.fitConverged with
            | false => rfl
            | true =>
                obtain before | ⟨complete, -, cycle, under⟩ := converged.mp early
                · exact absurd (before.symm.trans unconverged) Bool.true_eq_false.mp
                · have far := never n complete (alone ▸ running) (alone ▸ by omega)
                    (by rw [← alone, ← refresh]; exact cycle)
                  rw [← alone, ← tolerance] at far
                  exact absurd under (not_lt.mpr far)
        have counted : tested.sim.fitSteps + tested.fwdRemaining = maxSteps := by omega
        have onward := ih tested.cost (work ▸ cost) (n + 1) { tested with active := .fit }
          ⟨⟨alone, tol'.trans tolerance, counted⟩, still, bound⟩
          (by
            rw [← reached]
            exact tick_of_fit (by rw [reached]) (faults (n + 1)))
          rfl
        obtain ⟨last, stops⟩ := onward
        refine ⟨last, stopsFrom_of_later stops ?_ ?_ ?_⟩
        · rw [reached]
          rfl
        · rw [reached]
          exact still
        · rw [reached]
          show tested.steps ≤ _
          omega
    | settle running off ends asked =>
        exact stopsFrom_of_settle reached running asked settle (by omega)
    | finish ends =>
        refine stopsFrom_of_finish reached ?_ (by omega)
        rcases ends with off | ⟨-, on | none⟩
        · exact Or.inl off
        · exact absurd (on.symm.trans settling) Bool.true_eq_false.mp
        · exact Or.inr (settle ▸ none)
  · have untaken : session.tested geometry kernels (faults n) = session := by
      have stays : session.advanced geometry kernels (faults n) = (session, false) := by
        rw [advanced, if_neg]
        intro both
        exact go ⟨both.1, by simpa using both.2⟩
      rw [tested, stays]
      rfl
    obtain ⟨settle, -, -, settling, -⟩ :=
      @Sim.alone_kept σ α _ _ geometry kernels faults first.sim n
    rw [← sim] at settle settling
    rw [untaken] at staged
    generalize reached : first.after geometry kernels faults (n + 1) = after at staged
    cases staged with
    | on left running _ => exact absurd ⟨left, running⟩ go
    | settle running off ends asked =>
        exact stopsFrom_of_settle reached running asked settle (by omega)
    | finish ends =>
        refine stopsFrom_of_finish reached ?_ (by omega)
        rcases ends with off | ⟨-, on | none⟩
        · exact Or.inl off
        · exact absurd (on.symm.trans settling) Bool.true_eq_false.mp
        · exact Or.inr (settle ▸ none)

/-- The first stage of a queued fit phase. -/
theorem tick_of_queued {maxSteps : Nat} {tol : α} (queued : first.FitQueued maxSteps tol)
    (fault : Fault) : ∃ session : Session σ α, session = { first with
        queue := session.queue
        fitGravity := first.sim.cfg.gravity
        fitDamp := first.sim.cfg.damp
        sim := first.sim.beginFit
        fitTol := tol
        fitConverged := false
        fwdRemaining := maxSteps } ∧
      first.tick geometry kernels fault = session.fitStage geometry kernels fault := by
  obtain ⟨idle, ⟨rest, next⟩, fitSet⟩ := queued
  refine ⟨beginFit maxSteps tol { first with queue := rest }, rfl, ?_⟩
  rw [tick, idle, next]
  exact if_neg fitSet

/-- Without a settle a stage that neither fails nor takes the last step leaves the phase running,
converged or not. -/
theorem fitStage_unsettled {maxSteps n : Nat} {tol : α} {session : Session σ α}
    (counting : Counting geometry kernels faults first maxSteps tol n session)
    (none : first.sim.scene.fitSettle = 0)
    (running : (first.sim.alone geometry kernels faults (n + 1)).failed = false)
    (left : (first.sim.alone geometry kernels faults (n + 1)).fitSteps < maxSteps) :
    (session.fitStage geometry kernels (faults n)).active = .fit ∧
      Counting geometry kernels faults first maxSteps tol (n + 1)
        (session.fitStage geometry kernels (faults n)) ∧
      (((first.sim.alone geometry kernels faults n).advance geometry kernels (faults n)).2 = true →
        (first.sim.alone geometry kernels faults (n + 1)).fitSteps
          % max 1 first.sim.scene.fitRefresh = 0 →
        (first.sim.alone geometry kernels faults (n + 1)).lastMaxDisp < tol →
        (session.fitStage geometry kernels (faults n)).fitConverged = true) := by
  obtain ⟨sim, tolerance, count⟩ := counting
  obtain ⟨-, -, active, -, -⟩ := @Sim.alone_kept σ α _ _ geometry kernels faults first.sim n
  obtain ⟨settle, refresh, -, settling, -⟩ :=
    @Sim.alone_kept σ α _ _ geometry kernels faults first.sim (n + 1)
  obtain ⟨grows, sticks⟩ := @Sim.alone_grows σ α _ _ geometry kernels faults first.sim n
  have some_left : 0 < session.fwdRemaining := by
    rw [sim] at count
    omega
  have fine : session.sim.failed = false := by
    rw [sim]
    exact sticks running
  have staged := @fitStage_staged σ α _ _ geometry kernels (faults n) session
  obtain ⟨sim', tol', -, -, total, converged⟩ :=
    @tested_tested σ α _ _ geometry kernels (faults n) session some_left fine
  have fit_count := total (by rw [sim]; exact active)
  have alone : (session.tested geometry kernels (faults n)).sim =
      first.sim.alone geometry kernels faults (n + 1) := by
    rw [sim', sim]
    rfl
  rw [sim, tolerance] at converged
  generalize session.tested geometry kernels (faults n) = tested
    at staged tol' fit_count converged alone
  generalize session.fitStage geometry kernels (faults n) = after at staged
  rw [← alone] at settle refresh settling running left ⊢
  have counted : tested.sim.fitSteps + tested.fwdRemaining = maxSteps := by omega
  cases staged with
  | on more _ _ =>
      refine ⟨rfl, ⟨alone, tol'.trans tolerance, counted⟩, fun complete cycle under => ?_⟩
      exact converged.mpr (Or.inr ⟨complete, settling, refresh ▸ cycle, under⟩)
  | settle _ _ _ asked => omega
  | finish ends =>
      rcases ends with failed | ⟨last, -⟩
      · exact absurd (failed.symm.trans running) Bool.true_eq_false.mp
      · omega

/-- Without a settle the phase takes its steps, one after the other. -/
theorem fitting_unsettled {maxSteps : Nat} {tol : α} {session : Session σ α}
    (counting : Counting geometry kernels faults first maxSteps tol 0 session)
    (next : first.after geometry kernels faults 1 = session.fitStage geometry kernels (faults 0))
    (none : first.sim.scene.fitSettle = 0) (n : Nat)
    (running : (first.sim.alone geometry kernels faults (n + 1)).failed = false)
    (left : (first.sim.alone geometry kernels faults (n + 1)).fitSteps < maxSteps) :
    ∃ stage : Session σ α, Counting geometry kernels faults first maxSteps tol n stage ∧
      first.after geometry kernels faults (n + 1) = stage.fitStage geometry kernels (faults n) ∧
      ∀ m, 0 < m → m ≤ n → (first.after geometry kernels faults m).active = .fit := by
  induction n with
  | zero => exact ⟨session, counting, next, fun m some_m none => by omega⟩
  | succ n ih =>
      obtain ⟨grows, sticks⟩ := @Sim.alone_grows σ α _ _ geometry kernels faults first.sim (n + 1)
      obtain ⟨stage, counting, reached, runs⟩ := ih (sticks running) (by omega)
      obtain ⟨active, counted, -⟩ :=
        fitStage_unsettled counting none (sticks running) (by omega)
      rw [← reached] at active counted
      refine ⟨_, counted, tick_of_fit active (faults (n + 1)), fun m some_m upto => ?_⟩
      rcases Nat.eq_or_lt_of_le upto with rfl | before
      · exact active
      · exact runs m some_m (by omega)

/-- Without a settle, a phase that stops early had nothing converge before its last step. -/
theorem neverUnder_of_stopsEarly {maxSteps : Nat} {tol : α} (queued : first.FitQueued maxSteps tol)
    (none : first.sim.scene.fitSettle = 0)
    (early : first.StopsEarly geometry kernels faults maxSteps) :
    first.sim.NeverUnder geometry kernels faults maxSteps tol := by
  obtain ⟨session, begun, tick⟩ := @tick_of_queued σ α _ _ geometry kernels first maxSteps tol
    queued (faults 0)
  have counting : Counting geometry kernels faults first maxSteps tol 0 session := by
    rw [begun]
    exact ⟨rfl, rfl, Nat.zero_add _⟩
  obtain ⟨last, stops⟩ := early
  intro n complete running left cycle
  refine not_lt.mp fun under => ?_
  obtain ⟨stage, counted, reached, runs⟩ := fitting_unsettled counting tick none n running left
  obtain ⟨active, onward, converged⟩ := fitStage_unsettled counted none running left
  have converged := converged complete cycle under
  rw [← reached] at active onward converged
  -- the phase is still running there, and not in a settle
  have before : n + 1 < last := by
    by_contra upto
    have ended := stops.ended
    have some_last := stops.later
    have here : (first.after geometry kernels faults last).active = .fit := by
      rcases Nat.eq_or_lt_of_le (not_lt.mp upto) with rfl | earlier
      · exact active
      · exact runs last some_last (by omega)
    rw [here] at ended
    cases ended
  have settling := stops.stops (n + 1) (Nat.succ_pos n) before converged
  rw [onward.sim] at settling
  exact absurd (settling.symm.trans (Sim.alone_kept first.sim (n + 1)).2.2.2.1)
    Bool.true_eq_false.mp

/-- The phase stops early just where a settle is asked for, or no step before the last closes a
refresh cycle with all moves under the tolerance. -/
theorem stopsEarly_iff {maxSteps : Nat} {tol : α} (queued : first.FitQueued maxSteps tol) :
    first.StopsEarly geometry kernels faults maxSteps ↔
      0 < first.sim.scene.fitSettle ∨
        first.sim.NeverUnder geometry kernels faults maxSteps tol := by
  constructor
  · intro early
    exact (Nat.eq_zero_or_pos _).symm.imp_right
      fun none => neverUnder_of_stopsEarly queued none early
  · intro spared
    obtain ⟨session, begun, tick⟩ := @tick_of_queued σ α _ _ geometry kernels first maxSteps tol
      queued (faults 0)
    refine fitting_runs spared 0 session ⟨?_, ?_, ?_⟩ tick
    · rw [begun]
      exact ⟨rfl, rfl, Nat.zero_add _⟩
    · rw [begun]
    · rw [begun]
      rfl

end Session

end Phase

section Doubled

/-- A fit phase of two steps is queued, with a settle of some steps behind it. -/
def doubledQueued (settle : Nat) : Session Unit ℚ :=
  { Session.opened still (.fresh false) { fitted with fitSettle := settle } plain with
    queue := [.fit 2 2] }

theorem fitQueued_doubled (settle : Nat) : (doubledQueued settle).FitQueued 2 2 :=
  ⟨rfl, ⟨[], rfl⟩, Nat.succ_ne_zero 2⟩

/-- With a settle of one step, and without. -/
theorem stopsEarly_iff_doubled :
    ((doubledQueued 1).StopsEarly still doubling (fun _ => sound) 2 ↔
      0 < (doubledQueued 1).sim.scene.fitSettle ∨
        (doubledQueued 1).sim.NeverUnder still doubling (fun _ => sound) 2 2) ∧
    ((doubledQueued 0).StopsEarly still doubling (fun _ => sound) 2 ↔
      0 < (doubledQueued 0).sim.scene.fitSettle ∨
        (doubledQueued 0).sim.NeverUnder still doubling (fun _ => sound) 2 2) :=
  ⟨Session.stopsEarly_iff (fitQueued_doubled 1), Session.stopsEarly_iff (fitQueued_doubled 0)⟩

/-- The first of two steps moves under the tolerance, and without a settle the second is run. -/
theorem fit_runs_on : ¬∀ (faults : Nat → Fault) (session : Session Unit ℚ) (maxSteps : Nat)
    (tol : ℚ), session.FitQueued maxSteps tol →
      session.StopsEarly still doubling faults maxSteps := by
  intro stops
  have never := Session.neverUnder_of_stopsEarly (fitQueued_doubled 0) rfl
    (stops (fun _ => sound) (doubledQueued 0) 2 2 (fitQueued_doubled 0))
  have far := never 1 rfl rfl (by decide) rfl
  revert far
  decide +kernel

end Doubled

end DressOn.Drape
