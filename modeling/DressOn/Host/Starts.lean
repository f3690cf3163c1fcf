import DressOn.Host.Pipeline

/-!
# Refused starts

A start that finds the pipeline or a worker busy leaves the pipeline alone. One that is refused for
its `fit_mode` has cleared the run before by then.
-/

namespace DressOn.Host.Pipeline

open DressOn.Texts

variable {R : Type} {p q : Pipeline R} {clock : Clock} {workerBusy : Bool} {given opts : Options}

/-- The options of a call, once both lists of fixtures are there, or nothing where one of them is
no list of names. -/
def listed (given : Options) : Option Options :=
  match namesOf (defaults.merge given "allow_fixture".toList) with
  | none => none
  | some allowed =>
    let opts := (defaults.merge given).set "allow_fixture".toList (.names allowed)
    match namesOf (opts "force_fixture".toList) with
    | none => none
    | some forced => some (opts.set "force_fixture".toList (.names forced))

/-- The pipeline after what `start` clears. -/
def cleared (p : Pipeline R) (clock : Clock) (opts : Options) : Pipeline R :=
  { p with
    opts := opts
    records := []
    fixtures := []
    data := .empty R
    penQueue := []
    penFinished := false
    reason := []
    strokeIds := fun _ => none
    runT0 := clock.now
    entered := [] }

/-- The fields of the source are the same. -/
structure SameFields (p q : Pipeline R) : Prop where
  opts : q.opts = p.opts
  state : q.state = p.state
  reason : q.reason = p.reason
  records : q.records = p.records
  fixtures : q.fixtures = p.fixtures
  data : q.data = p.data
  penQueue : q.penQueue = p.penQueue
  penExternal : q.penExternal = p.penExternal
  penFinished : q.penFinished = p.penFinished
  enterMs : q.enterMs = p.enterMs
  frames : q.frames = p.frames
  runT0 : q.runT0 = p.runT0
  first : q.first = p.first
  strokeIds : q.strokeIds = p.strokeIds
  note : q.note = p.note

/-- The call gets as far as its `fit_mode`, which is neither `polyfem` nor `avbd`. -/
structure RefusedMode (p : Pipeline R) (workerBusy : Bool) (given opts : Options) : Prop where
  idle : p.state.terminal = true
  noWorker : workerBusy = false
  lists : listed given = some opts
  polyfem : opts.text "fit_mode".toList ≠ "polyfem".toList
  avbd : opts.text "fit_mode".toList ≠ "avbd".toList

/-- The pipeline was cleared before, at this very time and with these very options. -/
structure Cleared (p : Pipeline R) (clock : Clock) (opts : Options) : Prop where
  opts : p.opts = opts
  records : p.records = []
  fixtures : p.fixtures = []
  data : p.data = .empty R
  penQueue : p.penQueue = []
  penFinished : p.penFinished = false
  reason : p.reason = []
  strokeIds : p.strokeIds = fun _ => none
  runT0 : p.runT0 = clock.now

/-- A start that is let in clears the run before, then looks at its `fit_mode`. -/
theorem start_of_listed (idle : p.state.terminal = true) (noWorker : workerBusy = false)
    (lists : listed given = some opts) :
    p.start clock workerBusy given =
      if opts.text "fit_mode".toList ≠ "polyfem".toList ∧
          opts.text "fit_mode".toList ≠ "avbd".toList then (p.cleared clock opts, .fail)
      else ((p.cleared clock opts).goto clock .infer [], .started) := by
  unfold listed at lists
  split at lists
  · cases lists
  next allowed allow =>
    dsimp only at lists
    split at lists
    · cases lists
    next forced force =>
      cases lists
      unfold Pipeline.start
      rw [if_neg (by simp [idle]), if_neg (by simp [noWorker])]
      dsimp only
      rw [allow]
      dsimp only
      rw [force]
      rfl

/-- Without its lists of fixtures, a start is a script error. -/
theorem start_of_not_listed (idle : p.state.terminal = true) (noWorker : workerBusy = false)
    (lists : listed given = none) : (p.start clock workerBusy given).2 = .error := by
  unfold listed at lists
  unfold Pipeline.start
  rw [if_neg (by simp [idle]), if_neg (by simp [noWorker])]
  dsimp only
  revert lists
  cases namesOf (defaults.merge given "allow_fixture".toList) with
  | none => exact fun _ => rfl
  | some allowed =>
    dsimp only
    cases namesOf ((defaults.merge given).set "allow_fixture".toList (.names allowed)
      "force_fixture".toList) with
    | none => exact fun _ => rfl
    | some forced => exact nofun

/-- A start that is neither busy nor a script error gets as far as its `fit_mode`. -/
theorem listed_of_start (idle : (p.start clock workerBusy given).2 ≠ .busy)
    (right : (p.start clock workerBusy given).2 ≠ .error) :
    p.state.terminal = true ∧ workerBusy = false ∧ ∃ opts, listed given = some opts := by
  cases ended : p.state.terminal with
  | false =>
    unfold Pipeline.start at idle
    rw [if_pos ended] at idle
    exact absurd rfl idle
  | true =>
    cases noWorker : workerBusy with
    | true =>
      unfold Pipeline.start at idle
      rw [if_neg (by simp [ended]), if_pos noWorker] at idle
      exact absurd rfl idle
    | false =>
      cases lists : listed given with
      | none => exact absurd (start_of_not_listed ended noWorker lists) right
      | some opts => exact ⟨rfl, rfl, opts, rfl⟩

/-- A start is refused only when it gets as far as its `fit_mode`. -/
theorem refused_of_start_fail (fails : (p.start clock workerBusy given).2 = .fail) :
    ∃ opts, RefusedMode p workerBusy given opts := by
  obtain ⟨idle, noWorker, opts, lists⟩ :=
    listed_of_start (by rw [fails]; nofun) (by rw [fails]; nofun)
  rw [start_of_listed idle noWorker lists] at fails
  split at fails
  next modes => exact ⟨opts, idle, noWorker, lists, modes.1, modes.2⟩
  next => cases fails

/-- A start that is let in goes to the first state of a run, with the options of the call. -/
theorem goes_of_started (started : (p.start clock workerBusy given).2 = .started) :
    ∃ opts, listed given = some opts ∧
      (p.start clock workerBusy given).1 = (p.cleared clock opts).goto clock .infer [] := by
  obtain ⟨idle, noWorker, opts, lists⟩ :=
    listed_of_start (by rw [started]; nofun) (by rw [started]; nofun)
  rw [start_of_listed idle noWorker lists] at started ⊢
  split at started
  next => cases started
  next modes => exact ⟨opts, lists, by rw [if_neg modes]⟩

/-- A start that is not let in leaves the pipeline alone, or changes the options, or clears it. -/
theorem start_of_not_started (refused : (p.start clock workerBusy given).2 ≠ .started) :
    (p.start clock workerBusy given).1 = p ∨ p.state.terminal = true ∧
      ∃ opts, (p.start clock workerBusy given).1 = { p with opts := opts } ∨
        (p.start clock workerBusy given).1 = p.cleared clock opts := by
  unfold Pipeline.start at refused ⊢
  split
  · exact Or.inl rfl
  next idle =>
    rw [if_neg idle] at refused
    have ended : p.state.terminal = true := by simpa using idle
    split
    · exact Or.inl rfl
    next free =>
      rw [if_neg free] at refused
      dsimp only at refused ⊢
      split
      · exact Or.inr ⟨ended, _, Or.inl rfl⟩
      next allow =>
        rw [allow] at refused
        dsimp only at refused
        split
        · exact Or.inr ⟨ended, _, Or.inl rfl⟩
        next force =>
          rw [force] at refused
          dsimp only at refused
          split
          · exact Or.inr ⟨ended, _, Or.inr rfl⟩
          next modes =>
            rw [if_neg modes] at refused
            exact absurd rfl refused

theorem start_of_refused (refused : RefusedMode p workerBusy given opts) :
    p.start clock workerBusy given = (p.cleared clock opts, .fail) := by
  rw [start_of_listed refused.idle refused.noWorker refused.lists,
    if_pos ⟨refused.polyfem, refused.avbd⟩]

/-- What `start` clears stays the same exactly where it was clear. -/
theorem sameFields_cleared : SameFields p (p.cleared clock opts) ↔ Cleared p clock opts := by
  constructor
  · intro same
    exact ⟨same.opts.symm, same.records.symm, same.fixtures.symm, same.data.symm,
      same.penQueue.symm, same.penFinished.symm, same.reason.symm, same.strokeIds.symm,
      same.runT0.symm⟩
  · intro clear
    exact ⟨clear.opts.symm, rfl, clear.reason.symm, clear.records.symm, clear.fixtures.symm,
      clear.data.symm, clear.penQueue.symm, rfl, clear.penFinished.symm, rfl, rfl,
      clear.runT0.symm, rfl, clear.strokeIds.symm, rfl⟩

/-- A refused start changes nothing exactly where there is nothing to clear. -/
theorem start_unchanged_iff (p : Pipeline R) (clock : Clock) (workerBusy : Bool)
    (given : Options) :
    ((p.start clock workerBusy given).2 = .fail →
        SameFields p (p.start clock workerBusy given).1) ↔
      ∀ opts, RefusedMode p workerBusy given opts → Cleared p clock opts := by
  constructor
  · intro unchanged opts refused
    have same := unchanged (by rw [start_of_refused refused])
    rw [start_of_refused refused] at same
    exact sameFields_cleared.1 same
  · intro clear fails
    obtain ⟨opts, refused⟩ := refused_of_start_fail fails
    rw [start_of_refused refused]
    exact sameFields_cleared.2 (clear opts refused)

/-- A run that `stop_after` cut behind `INFER`. -/
def cutRun : Pipeline R :=
  { fresh with
    opts := defaults.set "stop_after".toList (.text "INFER".toList)
    state := .done
    records := [⟨.infer, 12, 1, 0, 0, false, []⟩]
    first := true
    entered := [.infer, .done] }

/-- A `fit_mode` that no pipeline knows. -/
def cloth : Options := fun key =>
  if key = "fit_mode".toList then some (.text "cloth".toList) else none

/-- A start with such a `fit_mode` is refused, and the records are gone. -/
theorem start_refused_loses_records :
    ¬ ∀ (p : Pipeline Unit) (clock : Clock) (workerBusy : Bool) (given : Options),
      (p.start clock workerBusy given).2 = .fail →
        SameFields p (p.start clock workerBusy given).1 := by
  intro unchanged
  have fails : ((cutRun : Pipeline Unit).start ⟨100, 0, 0⟩ false cloth).2 = .fail := by
    decide +kernel
  have records := (unchanged cutRun ⟨100, 0, 0⟩ false cloth fails).records
  have none : ((cutRun : Pipeline Unit).start ⟨100, 0, 0⟩ false cloth).1.records = [] := by
    decide +kernel
  rw [none] at records
  cases records

end DressOn.Host.Pipeline
