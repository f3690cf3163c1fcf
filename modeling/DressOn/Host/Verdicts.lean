import DressOn.Host.World
import DressOn.Host.Records
import DressOn.Lib.Runs

/-!
# The verdict of the drape

A forward ends with DONE or FAIL. The pipeline sees the verdict behind IDLE and looks at the
positions instead: a run follows the verdict as long as no stage fails over finite positions.
-/

namespace DressOn.Host

open DressOn.Texts DressOn.Runs

variable {R : Type}

namespace Session

variable (floats : Floats R)

/-- A stage of a step reports an error and keeps the positions. -/
def refuses (o : Outcome R) (s : Session R) : Bool :=
  match s.phase with
  | .idle => !o.runs
  | .solved =>
    s.cfg.flag "selfCollision".toList
      && (decide (o.readback.length ≠ 3 * s.scene.nV) || !o.scans)
  | .scanned =>
    !o.pushes.isEmpty && decide (s.pass + 1 < s.cfg.count "selfPasses".toList) && !o.scans

/-- A stage of a forward. -/
def ofForward : Queued R → Bool
  | .forward _ => true
  | .forwardStage => true
  | .fit _ _ => false
  | .fitStage => false

/-- In a tick, no stage of a forward reports an error over finite positions. -/
def Spared : List (Outcome R) → Session R → Prop
  | [], _ => True
  | o :: later, s =>
    match s.queue with
    | [] => True
    | next :: rest =>
      (ofForward next = true → s.refuses o = true → s.finite floats = false) ∧
        (o.pending = false → Spared later (s.ran floats o next rest))

instance Spared.decidable : ∀ (outcomes : List (Outcome R)) (s : Session R),
    Decidable (Spared floats outcomes s)
  | [], _ => isTrue trivial
  | o :: later, s =>
    match queue : s.queue with
    | [] => isTrue (by rw [Spared, queue]; trivial)
    | next :: rest =>
      have := Spared.decidable later (s.ran floats o next rest)
      decidable_of_iff
        ((ofForward next = true → s.refuses o = true → s.finite floats = false) ∧
          (o.pending = false → Spared floats later (s.ran floats o next rest)))
        (by rw [Spared, queue])

variable {floats} {s : Session R} {o : Outcome R} {n : Nat}

/-! ### A forward -/

/-- What a phase of a step leaves alone. -/
structure Saved (s after : Session R) : Prop where
  queue : after.queue = s.queue
  scene : after.scene = s.scene
  cfg : after.cfg = s.cfg
  fwdRemaining : after.fwdRemaining = s.fwdRemaining
  fwdAsked : after.fwdAsked = s.fwdAsked
  fwdFrom : after.fwdFrom = s.fwdFrom

/-- A step goes on, or is complete, without an error over finite positions. -/
structure Advanced (floats : Floats R) (s after : Session R) (complete : Bool) : Prop
    extends Saved s after where
  steps : after.steps = if complete then s.steps + 1 else s.steps
  spared : after.failed = true → after.finite floats = false

/-- What is no number stays none, whatever is taken from it. -/
theorem taken_nan (size : Nat) (contacts : List (Nat × R)) :
    taken floats contacts (List.replicate size floats.nan) = List.replicate size floats.nan := by
  unfold taken
  induction contacts with
  | nil => rfl
  | cons contact later inductionHypothesis =>
    obtain ⟨a, amount⟩ := contact
    have same : (List.replicate size floats.nan).modify a (floats.minus · amount)
        = List.replicate size floats.nan := by
      refine List.ext_getElem? fun i => ?_
      rw [List.getElem?_modify, List.getElem?_replicate]
      split <;> split <;> simp [floats.nan_minus]
    dsimp only [List.foldl_cons]
    rw [same]
    exact inductionHypothesis

/-- Positions without numbers are not finite. -/
theorem finite_nan {size : Nat} (positive : 0 < size) :
    (List.replicate size floats.nan).all floats.finite = false := by
  obtain ⟨size, rfl⟩ : ∃ k, size = k + 1 := ⟨size - 1, by omega⟩
  rw [List.replicate_succ, List.all_cons, floats.nan_not_finite]
  rfl

/-- The readback and the contacts keep the last step; an error leaves no numbers. -/
theorem respond_readPositions (running : s.failed = false) :
    Saved s ((s.readPositions floats o).respond floats o) ∧
      ((s.readPositions floats o).respond floats o).x = s.x ∧
      ((s.readPositions floats o).respond floats o).steps = s.steps ∧
      (((s.readPositions floats o).respond floats o).failed = true →
        o.readback.length ≠ 3 * s.scene.nV ∧
        ((s.readPositions floats o).respond floats o).pos
          = List.replicate (3 * s.scene.nV) floats.nan) := by
  unfold readPositions respond
  dsimp only
  split
  · split <;> exact ⟨⟨rfl, rfl, rfl, rfl, rfl, rfl⟩, rfl, rfl, fun failed =>
      absurd (running.symm.trans failed) nofun⟩
  next short =>
    split
    · exact ⟨⟨rfl, rfl, rfl, rfl, rfl, rfl⟩, rfl, rfl, fun _ => ⟨short, taken_nan _ _⟩⟩
    · exact ⟨⟨rfl, rfl, rfl, rfl, rfl, rfl⟩, rfl, rfl, fun _ => ⟨short, rfl⟩⟩

/-- A scan that is submitted, over positions that stay. -/
theorem submitScan_advanced (running : s.failed = true → s.finite floats = false)
    (spared : o.scans = false → s.finite floats = false) :
    Advanced floats s (s.submitScan o) false := by
  unfold submitScan
  dsimp only
  split
  · exact ⟨⟨rfl, rfl, rfl, rfl, rfl, rfl⟩, rfl, running⟩
  next fails => exact ⟨⟨rfl, rfl, rfl, rfl, rfl, rfl⟩, rfl, fun _ => spared (by simpa using fails)⟩

theorem solved_advanced (at_phase : s.phase = .solved) (running : s.failed = false)
    (vertices : 0 < s.scene.nV) (spared : s.refuses o = true → s.finite floats = false) :
    Advanced floats s (s.solved floats o).1 (s.solved floats o).2 := by
  obtain ⟨saved, x, steps, failed⟩ := @respond_readPositions R floats s o running
  unfold refuses at spared
  rw [at_phase] at spared
  dsimp only at spared
  unfold solved
  dsimp only
  generalize (s.readPositions floats o).respond floats o = after at saved x steps failed ⊢
  split
  next selfCollision =>
    rw [saved.cfg] at selfCollision
    rw [selfCollision, Bool.true_and] at spared
    have kept : after.finite floats = s.finite floats := congrArg (·.all floats.finite) x
    obtain ⟨scan, steps', spared'⟩ := @submitScan_advanced R floats { after with pass := 0 } o
      (fun fails => kept.trans (spared (by simp [(failed fails).1])))
      (fun fails => kept.trans (spared (by simp [fails])))
    refine ⟨⟨scan.queue.trans saved.queue, scan.scene.trans saved.scene, scan.cfg.trans saved.cfg,
      scan.fwdRemaining.trans saved.fwdRemaining, scan.fwdAsked.trans saved.fwdAsked,
      scan.fwdFrom.trans saved.fwdFrom⟩, steps'.trans steps, spared'⟩
  · refine ⟨⟨saved.queue, saved.scene, saved.cfg, saved.fwdRemaining, saved.fwdAsked,
      saved.fwdFrom⟩, congrArg (· + 1) steps, fun fails => ?_⟩
    obtain ⟨-, pos⟩ := failed fails
    show after.pos.all floats.finite = false
    rw [pos]
    exact finite_nan (by omega)

theorem scanned_advanced (at_phase : s.phase = .scanned) (running : s.failed = false)
    (spared : s.refuses o = true → s.finite floats = false) :
    Advanced floats s (s.scanned floats o).1 (s.scanned floats o).2 := by
  unfold refuses at spared
  rw [at_phase] at spared
  unfold scanned
  dsimp only at spared ⊢
  generalize s.cfg.count "selfPasses".toList = passes at spared ⊢
  split
  next again =>
    obtain ⟨scan, steps, spared⟩ := @submitScan_advanced R floats
      { s with
        pos := o.pushes.foldl
          (fun pos (a, b, push) =>
            (pos.modify a (floats.plus · push)).modify b (floats.minus · push)) s.pos
        pass := s.pass + 1 } o
      (fun fails => absurd (running.symm.trans fails) nofun)
      (fun fails => spared (by simp [again.1, again.2, fails]))
    exact ⟨⟨scan.queue, scan.scene, scan.cfg, scan.fwdRemaining, scan.fwdAsked, scan.fwdFrom⟩,
      steps, spared⟩
  · exact ⟨⟨rfl, rfl, rfl, rfl, rfl, rfl⟩, rfl, fun fails =>
      absurd (running.symm.trans fails) nofun⟩

/-- A phase of a step, spared an error over finite positions. -/
theorem advance_advanced (running : s.failed = false) (vertices : 0 < s.scene.nV)
    (spared : s.refuses o = true → s.finite floats = false) :
    Advanced floats s (s.advance floats o).1 (s.advance floats o).2 := by
  unfold advance
  split
  next at_phase =>
    unfold refuses at spared
    rw [at_phase] at spared
    unfold begin_
    dsimp only at spared ⊢
    split
    · exact ⟨⟨rfl, rfl, rfl, rfl, rfl, rfl⟩, rfl, fun fails =>
        absurd (running.symm.trans fails) nofun⟩
    next fails => exact ⟨⟨rfl, rfl, rfl, rfl, rfl, rfl⟩, rfl, fun _ => spared (by simpa using fails)⟩
  next at_phase => exact solved_advanced at_phase running vertices spared
  next at_phase => exact scanned_advanced at_phase running spared

/-- A forward of so many steps, with some of them to go. -/
structure Going (n : Nat) (s : Session R) : Prop where
  asked : s.fwdAsked = n
  failed : s.failed = false
  vertices : 0 < s.scene.nV
  fwdFrom : s.fwdFrom ≤ s.steps
  count : s.steps - s.fwdFrom + s.fwdRemaining = n

/-- The verdict of a forward: DONE behind all of its steps with finite positions, or FAIL. -/
inductive Verdict (floats : Floats R) (n : Nat) (s : Session R) : Prop
  | done (res : beginsWith s.res "DONE".toList = true) (asked : s.fwdAsked = n)
      (steps : s.steps - s.fwdFrom = n) (finite : s.finite floats = true)
  | fail (res : beginsWith s.res "FAIL".toList = true) (finite : s.finite floats = false)

/-- A forward on its way from the queue to its verdict. -/
inductive Forwarding (floats : Floats R) (n : Nat) (s : Session R) : Prop
  | queued (queue : s.queue = [.forward n]) (failed : s.failed = false)
      (vertices : 0 < s.scene.nV)
  | going (queue : s.queue = [.forwardStage]) (going : Going n s)
  | ended (queue : s.queue = []) (verdict : Verdict floats n s)

/-- The verdict is FAIL behind an error, and behind positions that are not finite. -/
theorem finishForward_ended (queue : s.queue = []) (asked : s.fwdAsked = n)
    (spared : s.failed = true → s.finite floats = false)
    (whole : s.failed = false → s.steps - s.fwdFrom = n) :
    Forwarding floats n (s.finishForward floats o) := by
  refine .ended queue ?_
  have finite : (s.finishForward floats o).finite floats = s.finite floats := rfl
  cases failed : s.failed with
  | true =>
    refine .fail ?_ (finite.trans (spared failed))
    unfold finishForward
    dsimp only
    rw [failed]
    exact beginsWith_append _ _
  | false =>
    have steps := whole failed
    cases still : s.finite floats with
    | true =>
      refine .done ?_ asked steps (finite.trans still)
      unfold finishForward
      dsimp only
      rw [failed, still, decide_eq_true (steps.trans asked.symm)]
      exact beginsWith_append _ _
    | false =>
      refine .fail ?_ (finite.trans still)
      unfold finishForward
      dsimp only
      rw [failed, still]
      exact beginsWith_append _ _

theorem forwardStage_forwarding (queue : s.queue = []) (going : Going n s)
    (spared : s.refuses o = true → s.finite floats = false) :
    Forwarding floats n (s.forwardStage floats o) := by
  obtain ⟨asked, failed, vertices, fwdFrom, count⟩ := going
  unfold forwardStage
  -- behind the phase of the step, the forward goes on or ends
  have ends (s : Session R) (queue : s.queue = []) (asked : s.fwdAsked = n)
      (vertices : 0 < s.scene.nV) (fwdFrom : s.fwdFrom ≤ s.steps)
      (count : s.steps - s.fwdFrom + s.fwdRemaining = n)
      (spared : s.failed = true → s.finite floats = false) :
      Forwarding floats n
        (if 0 < s.fwdRemaining ∧ s.failed = false then
          { s with queue := .forwardStage :: s.queue, total := s.total + 1 }
        else s.finishForward floats o) := by
    split
    next more => exact .going (congrArg _ queue) ⟨asked, more.2, vertices, fwdFrom, count⟩
    next ended =>
      refine finishForward_ended queue asked spared fun failed => ?_
      have : ¬ 0 < s.fwdRemaining := fun more => ended ⟨more, failed⟩
      omega
  split
  next more =>
    have advanced := @advance_advanced R floats s o failed vertices spared
    generalize s.advance floats o = step at advanced ⊢
    obtain ⟨after, complete⟩ := step
    obtain ⟨⟨queue', scene, cfg, remaining, asked', from'⟩, steps, spared⟩ := advanced
    dsimp only at queue' scene remaining asked' from' steps
    cases complete with
    | true =>
      have steps : after.steps = s.steps + 1 := steps
      refine ends _ (queue'.trans queue) (asked'.trans asked) (by rw [scene]; exact vertices) ?_ ?_
        spared
      · show after.fwdFrom ≤ after.steps
        omega
      · show after.steps - after.fwdFrom + (after.fwdRemaining - 1) = n
        omega
    | false =>
      have steps : after.steps = s.steps := steps
      refine ends after (queue'.trans queue) (asked'.trans asked) (by rw [scene]; exact vertices)
        (by omega) (by omega) spared
  · exact ends s queue asked vertices fwdFrom count fun fails =>
      absurd (failed.symm.trans fails) nofun

/-- A stage of a tick takes the forward further. -/
theorem ran_forwarding {next : Queued R} {rest : List (Queued R)}
    (forwarding : Forwarding floats n s) (queue : s.queue = next :: rest)
    (spared : ofForward next = true → s.refuses o = true → s.finite floats = false) :
    Forwarding floats n (s.ran floats o next rest) := by
  have counted {s : Session R} (forwarding : Forwarding floats n s) :
      Forwarding floats n { s with done := s.done + 1, pending := o.pending } := by
    cases forwarding with
    | queued queue failed vertices => exact .queued queue failed vertices
    | going queue going =>
      exact .going queue ⟨going.asked, going.failed, going.vertices, going.fwdFrom, going.count⟩
    | ended queue verdict =>
      refine .ended queue ?_
      cases verdict with
      | done res asked steps finite => exact .done res asked steps finite
      | fail res finite => exact .fail res finite
  unfold ran
  refine counted ?_
  cases forwarding with
  | queued only failed vertices =>
    obtain ⟨rfl, rfl⟩ := List.cons.inj (queue.symm.trans only)
    exact forwardStage_forwarding rfl
      ⟨rfl, failed, vertices, Nat.le_refl _, by simp⟩ (spared rfl)
  | going only going =>
    obtain ⟨rfl, rfl⟩ := List.cons.inj (queue.symm.trans only)
    exact forwardStage_forwarding rfl
      ⟨going.asked, going.failed, going.vertices, going.fwdFrom, going.count⟩ (spared rfl)
  | ended none _ => cases queue.symm.trans none

/-- A tick takes the forward further. -/
theorem tick_forwarding {outcomes : List (Outcome R)} (forwarding : Forwarding floats n s)
    (spared : Spared floats outcomes s) : Forwarding floats n (s.tick floats outcomes) := by
  induction outcomes generalizing s with
  | nil => exact forwarding
  | cons o later inductionHypothesis =>
    unfold tick
    unfold Spared at spared
    split
    · exact forwarding
    next next rest queue =>
      rw [queue] at spared
      have further := ran_forwarding forwarding queue spared.1
      split
      · exact further
      next on => exact inductionHypothesis further (spared.2 (by simpa using on))

end Session

namespace World

open Pipeline (QueuedDrape CollectKept)

variable (shapes : Shapes R)

/-- In the stage's frame, no stage of a forward reports an error over finite positions. -/
def Spared (w : World R) : Happening R → Prop
  | .host _ _ => True
  | .stage outcomes =>
    match w.stage.guest.session with
    | none => True
    | some s => beginsWith w.stage.status "RUNNING".toList = true → s.Spared shapes.floats outcomes

instance Spared.decidable (w : World R) : ∀ happening, Decidable (w.Spared shapes happening)
  | .host _ _ => isTrue trivial
  | .stage outcomes =>
    match session : w.stage.guest.session with
    | none => isTrue (by rw [Spared, session]; trivial)
    | some s =>
      decidable_of_iff
        (beginsWith w.stage.status "RUNNING".toList = true → s.Spared shapes.floats outcomes)
        (by rw [Spared, session])

/-- The steps of the drape that the options ask for. -/
def drapeSteps (opts : Options) : Nat :=
  (DrapeStage.toInt (opts.number "drape_steps".toList)).toNat

/-- A run follows the verdict of its drape. -/
structure FollowsVerdict (w : World R) : Prop where
  /-- It is done behind DONE, that is behind all of the steps with finite positions. -/
  done (happening : Happening R) : w.pipeline.state = .drapeCollect →
    (w.step shapes happening).pipeline.state = .done →
    ∃ s, w.stage.guest.session = some s ∧ s.queue = [] ∧
      beginsWith s.res "DONE".toList = true ∧
      s.steps - s.fwdFrom = drapeSteps w.pipeline.opts ∧ s.finite shapes.floats = true
  /-- It fails in the first frame behind FAIL. -/
  failed (a : Answers R) (below : Outside R) (s : Session R) :
    w.pipeline.state = .drapeCollect → w.stage.guest.session = some s →
    beginsWith w.stage.status "IDLE".toList = true → beginsWith s.res "FAIL".toList = true →
    (w.step shapes (.host (.frame a) below)).pipeline.state = .failed

variable {shapes} {w : World R}

/-- A run in `DRAPE_COLLECT` has a forward on its way, and the stage's status is its own. -/
structure Collecting (shapes : Shapes R) (w : World R) : Prop where
  garment : ∃ garment, w.pipeline.data.garment = some garment
  session : ∃ s, w.stage.guest.session = some s ∧
    s.Forwarding shapes.floats (drapeSteps w.pipeline.opts) ∧
    (beginsWith w.stage.status "RUNNING".toList = true ∨
      s.queue = [] ∧ ∃ rest, w.stage.status = "IDLE ".toList ++ rest)

/-- What everything that happens keeps. -/
structure Sound (shapes : Shapes R) (w : World R) : Prop where
  good : w.pipeline.Good
  collecting : w.pipeline.state = .drapeCollect → Collecting shapes w

theorem sound_booted : Sound shapes (booted shapes) := ⟨Pipeline.good_fresh, nofun⟩

/-- A text that begins with one word does not begin with another. -/
theorem not_idle_of_running {status : Text} (running : beginsWith status "RUNNING".toList = true) :
    beginsWith status "IDLE".toList = false ∧ beginsWith status "FAIL".toList = false := by
  obtain ⟨rest, rfl⟩ := List.isPrefixOf_iff_prefix.1 running
  exact ⟨rfl, rfl⟩

theorem not_running_of_idle {status : Text} (idle : beginsWith status "IDLE".toList = true) :
    beginsWith status "RUNNING".toList = false := by
  obtain ⟨rest, rfl⟩ := List.isPrefixOf_iff_prefix.1 idle
  rfl

/-- A frame of the stage takes the forward further. -/
theorem Sound.stage (sound : Sound shapes w) {outcomes : List (Outcome R)}
    (spared : w.Spared shapes (.stage outcomes)) :
    Sound shapes (w.step shapes (.stage outcomes)) where
  good := sound.good
  collecting at_state := by
    obtain ⟨garment, s, session, forwarding, status⟩ := sound.collecting at_state
    refine ⟨garment, ?_⟩
    dsimp only [step]
    unfold DrapeStage.process
    rcases status with running | ⟨ended, rest, idle⟩
    · obtain ⟨not_idle, not_fail⟩ := not_idle_of_running running
      rw [not_idle, not_fail, if_neg nofun]
      unfold Guest.drapeTick
      unfold World.Spared at spared
      rw [session] at spared ⊢
      dsimp only at spared ⊢
      have further := Session.tick_forwarding forwarding (spared running)
      refine ⟨_, rfl, further, ?_⟩
      split
      · exact Or.inl rfl
      next empty =>
        refine Or.inr ⟨?_, _, rfl⟩
        have empty := (Bool.or_eq_false_iff.1 (Bool.not_eq_true _ ▸ empty)).1
        simpa using empty
    · have idle_status : beginsWith w.stage.status "IDLE".toList = true := by
        rw [idle]
        rfl
      rw [idle_status, Bool.true_or, if_pos rfl]
      exact ⟨s, session, forwarding, Or.inr ⟨ended, rest, idle⟩⟩

/-- A run that stays in `DRAPE_COLLECT` keeps its forward. -/
theorem Collecting.stays (collecting : Collecting shapes w) {event : Pipeline.Event R}
    {below : Outside R}
    (collected : CollectKept w.pipeline (w.pipeline.step shapes (w.heard shapes below event))) :
    Collecting shapes (w.step shapes (.host event below)) := by
  obtain ⟨⟨garment, found⟩, session⟩ := collecting
  refine ⟨⟨garment, collected.garment.trans found⟩, ?_⟩
  rw [step_stage_of_draped collected.draped]
  have opts : (w.step shapes (.host event below)).pipeline.opts = w.pipeline.opts := collected.opts
  rw [opts]
  exact session

/-- A run that enters `DRAPE_COLLECT` has queued its forward. -/
theorem collecting_of_queued {a : Answers R} {below : Outside R} {garment : Garment R}
    (queued : QueuedDrape shapes w.pipeline (w.answered shapes below a) garment
      (w.pipeline.process shapes (w.answered shapes below a))) :
    Collecting shapes (w.step shapes (.host (.frame a) below)) := by
  obtain ⟨s, loaded, stage⟩ := step_stage_of_queued queued
  refine ⟨⟨garment, (congrArg Collected.garment queued.data).trans queued.found⟩, ?_⟩
  have opts : (w.step shapes (.host (.frame a) below)).pipeline.opts = w.pipeline.opts :=
    queued.opts
  rw [stage, opts]
  refine ⟨_, rfl, .queued rfl loaded.failed ?_, Or.inl rfl⟩
  show 0 < s.scene.nV
  rw [loaded.scene]
  exact loaded.vertices

/-- Whatever happens in the pipeline keeps the forward. -/
theorem Sound.host (sound : Sound shapes w) (event : Pipeline.Event R) (below : Outside R) :
    Sound shapes (w.step shapes (.host event below)) where
  good := sound.good.step _
  collecting at_state := by
    have found (at_state : w.pipeline.state = .drapeCollect) :=
      (sound.collecting at_state).garment
    rcases collect_of_step sound.good found at_state with ⟨before, kept⟩ | ⟨a, garment, rfl, queued⟩
    · exact (sound.collecting before).stays kept
    · exact collecting_of_queued queued

/-- A forward that the stage no longer runs has its verdict. -/
theorem Collecting.verdict (collecting : Collecting shapes w)
    (idle : beginsWith w.stage.status "RUNNING".toList = false) :
    ∃ s, w.stage.guest.session = some s ∧ s.queue = [] ∧
      s.Verdict shapes.floats (drapeSteps w.pipeline.opts) := by
  obtain ⟨-, s, session, forwarding, running | ⟨ended, -⟩⟩ := collecting
  · cases idle.symm.trans running
  · refine ⟨s, session, ended, ?_⟩
    cases forwarding with
    | queued queue _ _ => cases ended.symm.trans queue
    | going queue _ => cases ended.symm.trans queue
    | ended _ verdict => exact verdict

/-- The positions that the pipeline reads are the session's. -/
theorem positions_of_session {s : Session R} (session : w.stage.guest.session = some s)
    (a : Answers R) (below : Outside R) :
    (w.answered shapes below a).drape.positions.all shapes.floats.finite
      = s.finite shapes.floats := by
  show w.stage.guest.drapePositions.all _ = _
  unfold Guest.drapePositions
  rw [session]
  rfl

theorem Sound.follows (sound : Sound shapes w) : FollowsVerdict shapes w where
  done happening at_state done := by
    have collecting := sound.collecting at_state
    have stays {state : State} (same : state = w.pipeline.state) (done : state = .done) : False := by
      cases (same.trans at_state).symm.trans done
    cases happening with
    | stage outcomes => exact (stays rfl done).elim
    | host event below =>
      cases event with
      | start clock workerBusy given =>
        rcases @Pipeline.start_goes R w.pipeline clock workerBusy given with same | ⟨q, goes⟩
        · exact (stays same done).elim
        · have busy : w.pipeline.start clock workerBusy given = (w.pipeline, .busy) := by
            unfold Pipeline.start
            rw [at_state]
            exact if_pos rfl
          exact (stays (congrArg (·.1.state) busy) done).elim
      | penEvent event => exact (stays rfl done).elim
      | penFinish => exact (stays rfl done).elim
      | frame a =>
        obtain ⟨garment, found⟩ := collecting.garment
        have done : (w.pipeline.process shapes (w.answered shapes below a)).state = .done := done
        rcases (Pipeline.collect_cases (a := w.answered shapes below a) at_state found).2 with
          ⟨-, stayed⟩ | ⟨-, failed⟩ | ⟨idle, finite, -⟩
        · cases stayed.symm.trans done
        · cases failed.symm.trans done
        · obtain ⟨s, session, ended, verdict⟩ := collecting.verdict idle
          rw [positions_of_session session] at finite
          cases verdict with
          | done res _ steps still => exact ⟨s, session, ended, res, steps, still⟩
          | fail _ infinite => cases infinite.symm.trans finite
  failed a below s at_state session idle fails := by
    have collecting := sound.collecting at_state
    have idle := not_running_of_idle idle
    obtain ⟨garment, found⟩ := collecting.garment
    obtain ⟨s', session', -, verdict⟩ := collecting.verdict idle
    cases session.symm.trans session'
    show (w.pipeline.process shapes (w.answered shapes below a)).state = .failed
    rcases (Pipeline.collect_cases (a := w.answered shapes below a) at_state found).2 with
      ⟨running, -⟩ | ⟨-, failed⟩ | ⟨-, finite, -⟩
    · cases idle.symm.trans running
    · exact failed
    · rw [positions_of_session session] at finite
      cases verdict with
      | done res _ _ _ =>
        obtain ⟨rest, same⟩ := List.isPrefixOf_iff_prefix.1 res
        rw [← same] at fails
        cases fails
      | fail _ infinite => cases infinite.symm.trans finite

/-- A run in which no stage of a forward reports an error over finite positions follows the verdict
of its drape, in whatever frames the stages run. -/
theorem follows_verdict (shapes : Shapes R) (happenings : List (Happening R))
    (spared : Along (World.step shapes) (World.Spared shapes) (World.booted shapes) happenings) :
    FollowsVerdict shapes (happenings.foldl (World.step shapes) (World.booted shapes)) := by
  refine Sound.follows (spared.invariant ?_ sound_booted)
  intro w happening sound spared
  cases happening with
  | host event below => exact sound.host event below
  | stage outcomes => exact sound.stage spared

/-- A stage whose solver run is what it is asked for, with these positions. -/
def solves (runs : Bool) : Outcome (Option ℚ) where
  runs := runs
  readback := corner
  contacts := []
  scans := true
  pushes := []
  pending := false
  fitted := none
  figures := []

/-- A drape whose steps complete. -/
theorem follows_verdict_complete :
    FollowsVerdict plain ((toDrapeCollect ++ [.stage (List.replicate 6 (solves true)),
      quietFrame]).foldl (World.step plain) (World.booted plain)) :=
  follows_verdict plain _ (by decide +kernel)

/-- The first solver run fails, over the positions of the mesh: the forward's verdict is FAIL, and
the run is done. -/
theorem done_behind_fail :
    ¬ ∀ happenings : List (Happening (Option ℚ)),
      FollowsVerdict plain (happenings.foldl (World.step plain) (World.booted plain)) := by
  intro follows
  have collect := (follows (toDrapeCollect ++ [.stage [solves false]])).done quietFrame
    (by decide +kernel) (by decide +kernel)
  obtain ⟨s, session, -, done, -⟩ := collect
  have res : ((toDrapeCollect ++ [Happening.stage [solves false]]).foldl (World.step plain)
      (World.booted plain)).stage.guest.session.map
        (fun s : Session (Option ℚ) => beginsWith s.res "DONE".toList) = some false := by
    decide +kernel
  rw [session] at res
  cases done.symm.trans (Option.some.inj res)

end World

end DressOn.Host
