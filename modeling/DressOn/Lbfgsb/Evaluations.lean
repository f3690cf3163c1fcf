import DressOn.Lbfgsb.Phases

/-!
# The point, the value and the gradient

A session is the driver with its caller: every evaluation the caller makes is recorded with
the step it is made at. Every state of a session falls under one kind, each with what holds
of the buffers there; a call leads from one kind to another.
-/

namespace DressOn.Stepwise

open Lib.BinaryFloats Lbfgsb.Vec

/-! ## Sessions -/

/-- One evaluation of the objective. -/
structure Evaluation where
  iteration : ℕ
  step : Double
  point : List Single
  value : Double
  gradient : List Single
deriving DecidableEq

/-- The driver, what it last returned, the evaluations made since `start`, and the point and
gradient the current iteration started from. -/
structure Session where
  driver : Lbfgsb
  status : Status
  evaluations : List Evaluation
  origin : List Single × List Single

/-- What a caller does; it evaluates when it is asked to and goes on otherwise. -/
inductive Input where
  | start (n : ℕ) (x0 : ℕ → Single) (lb ub : ℕ → Bound) (p : LbfgsbParams)
  | next (value : Double) (gradient : ℕ → Single)

namespace Session

variable (outside : Kernels Single) (s : Session)

/-- A driver that was never started. -/
def fresh (v : VecCpu Single) : Session := ⟨{ v := v }, .busy, [], ([], [])⟩

/-- The caller evaluates at `X`, uploads the gradient and passes the value on. -/
def evaluate (value : Double) (gradient : ℕ → Single) : Session :=
  match s.driver.setGradient outside gradient with
  | none => s
  | some d =>
      let e : Evaluation := {
        iteration := d.k
        step := if s.status = .needEval then 0 else d.step
        point := d.vector .X
        value := value
        gradient := d.vector .G }
      let called := d.next outside value
      { driver := called.1
        status := called.2
        evaluations := e :: s.evaluations
        origin := if s.status = .needEval then (e.point, e.gradient) else s.origin }

/-- The caller goes on without an evaluation. -/
def resume : Session :=
  let called := s.driver.next outside 0
  { driver := called.1
    status := called.2
    evaluations := s.evaluations
    origin :=
      if s.status = .accept then (s.driver.vector .X, s.driver.vector .G) else s.origin }

/-- One call. -/
def advance : Input → Session
  | .start n x0 lb ub p =>
      let called := s.driver.start outside n x0 lb ub p
      ⟨called.1, called.2, [], ([], [])⟩
  | .next value gradient =>
      match s.status with
      | .needEval | .try => s.evaluate outside value gradient
      | _ => s.resume outside

end Session

/-! ## What belongs together -/

/-- The buffer of the low point. -/
def lowPoint : LoAt → Buf
  | .start => .XP
  | .current => .X
  | .buf => .XLO

/-- The buffer of the low point's gradient. -/
def lowGradient : LoAt → Buf
  | .start => .GP
  | .current => .G
  | .buf => .GLO

/-- The location recorded for the low point holds the point and the gradient of the step it
is recorded with: the start of the iteration at step zero, or one of its evaluations. -/
structure LowHeld (d : Lbfgsb) (evals : List Evaluation) (origin : List Single × List Single) :
    Prop where
  start : d.lo = .start →
    d.iLo = 0 ∧ d.vector .XP = origin.1 ∧ d.vector .GP = origin.2
  tried : d.lo ≠ .start → ∃ e ∈ evals,
    e.iteration = d.k ∧ e.step = d.iLo ∧ e.value = d.fxLo ∧
      d.vector (lowPoint d.lo) = e.point ∧ d.vector (lowGradient d.lo) = e.gradient

/-- The search left at its largest step for a low point elsewhere: the trial there was worse
than the low point and failed the Wolfe conditions, and its value is kept. -/
def LeftAtStepMax (d : Lbfgsb) (evals : List Evaluation) : Prop :=
  d.lo ≠ .current ∧ d.step.eq d.stepMax = true ∧ d.fiLo.lt d.ft = true ∧ d.wolfeTest = false ∧
    d.vector .X = d.vector (lowPoint d.lo) ∧ d.vector .G = d.vector (lowGradient d.lo) ∧
    ∃ e ∈ evals, e.iteration = d.k ∧ e.step = d.step ∧ e.value = d.fx

/-- `X` and `G` are the point and the gradient of one evaluation, and `fx` is its value unless
the search left at its largest step. -/
def Reported (d : Lbfgsb) (evals : List Evaluation) : Prop :=
  ∃ e ∈ evals, d.vector .X = e.point ∧ d.vector .G = e.gradient ∧
    (e.value = d.fx ∨ LeftAtStepMax d evals)

/-- A line search is on, or has just ended. -/
def Searching (d : Lbfgsb) : Prop :=
  d.phase = .trial ∨ d.phase = .post ∨ d.phase = .restore ∨ d.await = .trial

/-! ## Kinds of states -/

/-- What holds from a successful start on. -/
structure Grounded (d : Lbfgsb) (evals : List Evaluation) : Prop where
  size : d.v.n = d.n
  lower : LowerFinite d.n d.v.bufs
  inBox : ∀ e ∈ evals, Projected d.n d.v.bufs e.point
  clean : d.err = ""

/-- The iteration started from an evaluation. -/
def Evaluated (evals : List Evaluation) (origin : List Single × List Single) : Prop :=
  ∃ e ∈ evals, origin = (e.point, e.gradient)

/-- The kinds of states of a session. -/
inductive Sound (d : Lbfgsb) (status : Status) (evals : List Evaluation)
    (origin : List Single × List Single) : Prop where
  | idle (busy : status = .busy) (phase : d.phase = .none) (await : d.await = .none)
  | failed (failure : status = .fail) (phase : d.phase = .none) (await : d.await = .done)
      (reason : d.err ≠ "")
  | asking (ground : Grounded d evals)
      (control : status = .busy ∧ d.phase = .init ∧ d.await = .none ∨
        status = .needEval ∧ d.phase = .none ∧ d.await = .eval0)
      (inBox : Projected d.n d.v.bufs (d.vector .X))
  | started (ground : Grounded d evals) (busy : status = .busy) (phase : d.phase = .x0)
      (await : d.await = .none)
      (first : ∃ e ∈ evals, d.vector .X = e.point ∧ d.vector .G = e.gradient ∧ e.value = d.fx)
      (here : (d.vector .X, d.vector .G) = origin)
  | heading (ground : Grounded d evals) (busy : status = .busy)
      (phase : d.phase = .prep ∨ d.phase = .dir ∨ d.phase = .dirReset ∨ d.phase = .patho)
      (await : d.await = .none) (evaluated : Evaluated evals origin)
      (here : (d.vector .X, d.vector .G) = origin)
      (start : (d.vector .XP, d.vector .GP) = origin)
  | trying (ground : Grounded d evals)
      (control : status = .busy ∧ d.phase = .trial ∧ d.await = .none ∨
        status = .try ∧ d.phase = .none ∧ d.await = .trial)
      (evaluated : Evaluated evals origin) (low : LowHeld d evals origin)
      (elsewhere : d.lo ≠ .current) (inBox : Projected d.n d.v.bufs (d.vector .X))
  | tried (ground : Grounded d evals) (busy : status = .busy) (phase : d.phase = .post)
      (await : d.await = .none) (evaluated : Evaluated evals origin)
      (low : LowHeld d evals origin) (elsewhere : d.lo ≠ .current)
      (current : ∃ e ∈ evals, e.iteration = d.k ∧ e.step = d.step ∧ e.value = d.fx ∧
        d.vector .X = e.point ∧ d.vector .G = e.gradient)
  | restoring (ground : Grounded d evals) (busy : status = .busy) (phase : d.phase = .restore)
      (await : d.await = .none) (low : LowHeld d evals origin) (reported : Reported d evals)
  | accepted (ground : Grounded d evals) (accept : status = .accept)
      (phase : d.phase = .post ∨ d.phase = .restore) (await : d.await = .accept)
      (low : LowHeld d evals origin) (reported : Reported d evals)
  | converged (clean : d.err = "") (done : status = .converged) (await : d.await = .done)
      (low : Searching d → LowHeld d evals origin) (reported : Reported d evals)

/-! ## Submitted phases -/

variable (outside : Kernels Single) {d : Lbfgsb} {evals : List Evaluation}
  {origin : List Single × List Single}

/-- The driver with a phase submitted. -/
def submitted (phase : Phase) (ops : List (Op Single)) (d : Lbfgsb) : Lbfgsb :=
  { d with v := { d.v with bufs := ops.foldl (d.v.exec (kernels outside)) d.v.bufs }
           phase := phase }

theorem submit_eq (phase : Phase) (ops : List (Op Single)) (d : Lbfgsb) :
    d.submit outside phase ops = (submitted outside phase ops d, .busy) := rfl

/-- A submitted phase leaves alone every vector it does not write. -/
theorem vector_submitted (phase : Phase) {ops : List (Op Single)} (d : Lbfgsb) {b : Buf}
    (apart : ∀ o ∈ ops, b ∉ writes o) :
    (submitted outside phase ops d).vector b = d.vector b := by
  simp only [Lbfgsb.vector, submitted, foldl_frame outside d.v ops d.v.bufs apart]

/-- A phase that leaves the bounds alone keeps the ground. -/
theorem Grounded.submitted (ground : Grounded d evals) (phase : Phase) {ops : List (Op Single)}
    (lower : ∀ o ∈ ops, Buf.LB ∉ writes o) (upper : ∀ o ∈ ops, Buf.UB ∉ writes o) :
    Grounded (submitted outside phase ops d) evals where
  size := ground.size
  lower := by
    have kept := ground.lower
    rw [← ground.size] at kept
    have later := kept.foldl outside d.v ops lower
    rw [ground.size] at later
    exact later
  inBox := fun e made => (ground.inBox e made).congr
    (foldl_frame outside d.v ops d.v.bufs lower) (foldl_frame outside d.v ops d.v.bufs upper)
  clean := ground.clean

/-- Driver states with the same backend and no error share the ground. -/
theorem Grounded.congr {d' : Lbfgsb} (ground : Grounded d evals) (v : d'.v = d.v) (n : d'.n = d.n)
    (clean : d'.err = d.err) : Grounded d' evals where
  size := by rw [v, n, ground.size]
  lower := by rw [v, n]; exact ground.lower
  inBox := by rw [v, n]; exact ground.inBox
  clean := by rw [clean, ground.clean]

/-- A failure ends the session. -/
theorem fail_sound {why : String} (d : Lbfgsb) (evals : List Evaluation)
    (origin : List Single × List Single) (text : why ≠ "") :
    Sound (d.fail why).1 (d.fail why).2 evals origin :=
  .failed rfl rfl rfl text

/-! ## Accepting -/

/-- An accepted point ends the line search. -/
theorem accept_sound (ground : Grounded d evals) (phase : d.phase = .post ∨ d.phase = .restore)
    (low : LowHeld d evals origin) (reported : Reported d evals) :
    Sound d.accept.1 d.accept.2 evals origin := by
  unfold Lbfgsb.accept
  dsimp only
  split
  · exact .converged ground.clean rfl rfl (fun _ => ⟨low.start, low.tried⟩) reported
  · split
    · exact .converged ground.clean rfl rfl (fun _ => ⟨low.start, low.tried⟩) reported
    · split
      · exact .converged ground.clean rfl rfl (fun _ => ⟨low.start, low.tried⟩) reported
      · exact .accepted (ground.congr rfl rfl rfl) rfl phase rfl ⟨low.start, low.tried⟩ reported

/-! ## The line search -/

/-- A trial leaves the low point in the start's buffers or its own. -/
theorem trial_low (ground : Grounded d evals) (low : LowHeld d evals origin) :
    LowHeld (d.trial outside).1 evals origin := by
  have lower := ground.lower
  rw [← ground.size] at lower
  by_cases saving : d.lo = .current
  · obtain ⟨point, gradient⟩ :=
      ran_trial_saving outside d.v lower saving d.step.convert
    obtain ⟨e, made, iteration, step, value, atPoint, atGradient⟩ :=
      low.tried (by simp [saving])
    refine ⟨fun atStart => by simp [Lbfgsb.trial, submit_eq, submitted, saving] at atStart, ?_⟩
    rw [ground.size] at point gradient
    rw [saving] at atPoint atGradient
    refine fun _ => ⟨e, made, iteration, step, value, ?_, ?_⟩
    · have moved : (d.trial outside).1.lo = .buf := by
        simp [Lbfgsb.trial, submit_eq, submitted, saving]
      rw [moved]
      exact point.trans atPoint
    · have moved : (d.trial outside).1.lo = .buf := by
        simp [Lbfgsb.trial, submit_eq, submitted, saving]
      rw [moved]
      exact gradient.trans atGradient
  · have kept : (d.trial outside).1.lo = d.lo := by
      simp [Lbfgsb.trial, submit_eq, submitted, saving]
    have same : ∀ b ≠ Buf.X, (d.trial outside).1.vector b = d.vector b := fun b other =>
      vector_submitted outside .trial { d with lo := if d.lo = .current then .buf else d.lo }
        (trialOps_apart other fun current => absurd current saving)
    refine ⟨fun atStart => ?_, fun tried => ?_⟩
    · rw [same .XP (by simp), same .GP (by simp)]
      exact low.start (kept ▸ atStart)
    · rw [kept] at tried ⊢
      obtain ⟨e, made, iteration, step, value, atPoint, atGradient⟩ := low.tried tried
      refine ⟨e, made, iteration, step, value, ?_, ?_⟩
      · rw [same _ (by cases at' : d.lo <;> simp_all [lowPoint])]
        exact atPoint
      · rw [same _ (by cases at' : d.lo <;> simp_all [lowGradient])]
        exact atGradient

/-- A trial goes on with the line search. -/
theorem trial_sound (ground : Grounded d evals) (await : d.await = .none)
    (evaluated : Evaluated evals origin) (low : LowHeld d evals origin) :
    Sound (d.trial outside).1 (d.trial outside).2 evals origin := by
  have grounded : Grounded { d with lo := if d.lo = .current then .buf else d.lo } evals :=
    ground.congr rfl rfl rfl
  have inBox := ran_trial_projected outside d.v d.v.bufs (d.lo = .current) d.step.convert
  rw [ground.size] at inBox
  refine .trying (grounded.submitted outside .trial ?_ ?_) (.inl ⟨rfl, rfl, await⟩) evaluated
    (trial_low outside ground low) ?_ inBox
  · exact trialOps_apart (by simp) (by simp)
  · exact trialOps_apart (by simp) (by simp)
  · by_cases saving : d.lo = .current <;>
      simp [Lbfgsb.trial, submit_eq, submitted, saving]

/-- The value reported with a restored point: the low point's own, or the one the search left
with at its largest step. -/
def RestoreCause (d : Lbfgsb) (evals : List Evaluation) : Prop :=
  d.lo ≠ .start ∧ d.fx = d.fxLo ∨
    d.step.eq d.stepMax = true ∧ d.fiLo.lt d.ft = true ∧ d.wolfeTest = false ∧
      ∃ e ∈ evals, e.iteration = d.k ∧ e.step = d.step ∧ e.value = d.fx

/-- Restoring the low point ends the line search there. -/
theorem restoreLo_sound (ground : Grounded d evals) (await : d.await = .none)
    (evaluated : Evaluated evals origin) (low : LowHeld d evals origin) (away : d.lo ≠ .current)
    (cause : RestoreCause d evals) :
    Sound (d.restoreLo outside).1 (d.restoreLo outside).2 evals origin := by
  have lower := ground.lower
  rw [← ground.size] at lower
  have buffers : (if d.lo = .start then Buf.XP else .XLO) = lowPoint d.lo ∧
      (if d.lo = .start then Buf.GP else .GLO) = lowGradient d.lo := by
    cases at' : d.lo <;> simp_all [lowPoint, lowGradient]
  have restored : d.restoreLo outside =
      (submitted outside .restore
        ([copy .X (lowPoint d.lo), copy .G (lowGradient d.lo)] ++ Lbfgsb.appendPost d.v.mc)
        { d with restores := d.restores + 1 }, .busy) := by
    rw [Lbfgsb.restoreLo, if_neg away, ← buffers.1, ← buffers.2]
    rfl
  obtain ⟨point, gradient⟩ := ran_restore outside d.v lower d.v.mc
    (lowPoint d.lo) (lowGradient d.lo)
    (by cases at' : d.lo <;> simp_all [lowPoint])
    (by cases at' : d.lo <;> simp_all [lowGradient])
  rw [ground.size] at point gradient
  rw [restored]
  generalize opsEq : [copy .X (lowPoint d.lo), copy .G (lowGradient d.lo)] ++
    Lbfgsb.appendPost d.v.mc = ops at point gradient ⊢
  have apart : ∀ b ∉ [Buf.X, .G, .SC, .SV, .YV, .DOTS], ∀ o ∈ ops, b ∉ writes o := by
    intro b other
    simp only [List.mem_cons, List.not_mem_nil, or_false, not_or] at other
    rw [← opsEq, List.forall_mem_append]
    exact ⟨by simp [other], appendPost_apart _ (by simp [other])⟩
  have same : ∀ b ∉ [Buf.X, .G, .SC, .SV, .YV, .DOTS],
      (submitted outside .restore ops { d with restores := d.restores + 1 }).vector b =
        d.vector b := fun b other =>
    vector_submitted outside .restore { d with restores := d.restores + 1 } (apart b other)
  have samePoint := same (lowPoint d.lo) (by cases at' : d.lo <;> simp_all [lowPoint])
  have sameGradient := same (lowGradient d.lo) (by cases at' : d.lo <;> simp_all [lowGradient])
  have grounded : Grounded { d with restores := d.restores + 1 } evals :=
    ground.congr rfl rfl rfl
  refine .restoring (grounded.submitted outside .restore (apart _ (by simp)) (apart _ (by simp)))
    rfl rfl await ⟨fun atStart => ?_, fun tried => ?_⟩ ?_
  · rw [same .XP (by simp), same .GP (by simp)]
    exact low.start atStart
  · obtain ⟨e, made, iteration, step, value, atPoint, atGradient⟩ := low.tried tried
    exact ⟨e, made, iteration, step, value, samePoint.trans atPoint,
      sameGradient.trans atGradient⟩
  · -- the evaluation the low point is from
    obtain ⟨e, made, atPoint, atGradient, value⟩ : ∃ e ∈ evals,
        d.vector (lowPoint d.lo) = e.point ∧ d.vector (lowGradient d.lo) = e.gradient ∧
          (d.lo ≠ .start → e.value = d.fxLo) := by
      by_cases atStart : d.lo = .start
      · obtain ⟨e, made, rfl⟩ := evaluated
        obtain ⟨-, point, gradient⟩ := low.start atStart
        exact ⟨e, made, by rw [atStart]; exact point, by rw [atStart]; exact gradient,
          fun tried => absurd atStart tried⟩
      · obtain ⟨e, made, -, -, value, atPoint, atGradient⟩ := low.tried atStart
        exact ⟨e, made, atPoint, atGradient, fun _ => value⟩
    refine ⟨e, made, point.trans atPoint, gradient.trans atGradient, ?_⟩
    obtain ⟨tried, same⟩ | ⟨largest, above, failed, trial⟩ := cause
    · exact .inl ((value tried).trans same.symm)
    · exact .inr ⟨away, largest, above, failed, point.trans samePoint.symm,
        gradient.trans sameGradient.symm, trial⟩

end DressOn.Stepwise
