import DressOn.Lib.Runs

/-!
# The stage's worker

How a stage node runs calls of its sandbox on a worker thread and answers for them, and what
replacing the sandbox does to an answer that nobody has taken yet.
-/

namespace DressOn.Host.Worker

open DressOn.Runs

/-- The result of a worker's call, with the sandbox it ran in and the `start` that made it. -/
structure Result (α : Type) where
  /-- The sandbox. -/
  sandbox : Nat
  /-- The start. -/
  start : Nat
  /-- What the vmcall answered. -/
  value : α
  deriving DecidableEq

/-- The worker's thread. -/
structure Thread (α : Type) where
  /-- The sandbox of its vmcall. -/
  sandbox : Nat
  /-- The start that made it. -/
  start : Nat
  /-- What the vmcall answered, once it has ended; an answer may be null. -/
  ended : Option (Option α)
  deriving DecidableEq

/-- A stage. Sandboxes and starts are numbered in the order of their making. -/
structure Stage (α : Type) where
  /-- `sandbox`, by its number. -/
  sandbox : Option Nat
  /-- `_thread`. -/
  thread : Option (Thread α)
  /-- `_call`. -/
  call : String
  /-- `_result`. -/
  result : Option (Result α)
  /-- The function that the main thread is calling in the sandbox. -/
  calling : Option String
  /-- The sandboxes made so far. -/
  sandboxes : Nat
  /-- The starts made so far. -/
  starts : Nat
  /-- The last start made on the sandbox. -/
  lastStart : Option Nat

/-- What `poll` answers. -/
structure Poll (α : Type) where
  /-- `done`. -/
  done : Bool
  /-- `result`. -/
  result : Option (Result α)
  /-- `call`. -/
  call : String

variable {α : Type}

/-- A stage whose sandbox has just been made. -/
def Stage.loaded : Stage α := ⟨some 0, none, "", none, none, 1, 0, none⟩

/-- `busy`: the thread is alive. -/
def Stage.busy (stage : Stage α) : Bool := stage.thread.any fun thread => thread.ended.isNone

/-- `_reap`. -/
def Stage.reap (stage : Stage α) : Stage α :=
  match stage.thread with
  | none => stage
  | some thread =>
    match thread.ended with
    | none => stage
    | some value =>
      { stage with
        thread := none
        result := value.map fun value => ⟨thread.sandbox, thread.start, value⟩ }

/-- `start`. -/
def Stage.start (stage : Stage α) (fn : String) : Stage α :=
  match stage.sandbox with
  | none => stage
  | some sandbox =>
    if stage.busy then stage
    else
      { stage.reap with
        thread := some ⟨sandbox, stage.starts, none⟩
        call := fn
        result := none
        starts := stage.starts + 1
        lastStart := some stage.starts }

/-- `call_now` up to its vmcall. -/
def Stage.callNow (stage : Stage α) (fn : String) : Stage α :=
  match stage.sandbox with
  | none => stage
  | some _ => if stage.busy then stage else { stage.reap with calling := some fn }

/-- `poll`: the stage that it leaves, and its answer. -/
def Stage.poll (stage : Stage α) : Stage α × Poll α :=
  if stage.busy then (stage, ⟨false, none, stage.call⟩)
  else (stage.reap, ⟨true, stage.reap.result, stage.reap.call⟩)

/-- `fit_configure`, whose new sandbox may fail to load. A thread that has ended stays. -/
def Stage.fitConfigure (stage : Stage α) (loads : Bool) : Stage α :=
  if stage.busy then stage
  else
    { stage with
      sandbox := if loads then some stage.sandboxes else none
      result := none
      sandboxes := stage.sandboxes + 1
      lastStart := none }

/-- What can happen to a stage. -/
inductive Event (α : Type) where
  /-- `start` of a function. -/
  | start (fn : String)
  /-- The worker's vmcall answers. -/
  | threadEnds (value : Option α)
  /-- `call_now` of a function. -/
  | callNow (fn : String)
  /-- The vmcall of `call_now` answers. -/
  | callReturns
  /-- `poll`. -/
  | poll
  /-- `fit_configure`. -/
  | fitConfigure (loads : Bool)

/-- The stage after an event. The main thread does nothing else while it is in a vmcall. -/
def Stage.step (stage : Stage α) : Event α → Stage α
  | .threadEnds value =>
    { stage with
      thread := stage.thread.map fun thread =>
        if thread.ended.isNone then { thread with ended := some value } else thread }
  | .callReturns => { stage with calling := none }
  | .start fn => if stage.calling.isSome then stage else stage.start fn
  | .callNow fn => if stage.calling.isSome then stage else stage.callNow fn
  | .poll => if stage.calling.isSome then stage else stage.poll.1
  | .fitConfigure loads => if stage.calling.isSome then stage else stage.fitConfigure loads

/-- The vmcalls that run in the sandbox. -/
def Stage.running (stage : Stage α) : Nat :=
  (if stage.calling.isSome then 1 else 0) + if stage.busy then 1 else 0

/-- A result that `poll` answers now is that of the last start on the sandbox that is there. -/
def Stage.AnswersLastStart (stage : Stage α) : Prop :=
  ∀ result, stage.poll.2.result = some result →
    stage.sandbox = some result.sandbox ∧ stage.lastStart = some result.start

/-- The result that a thread has ended with and nobody has taken yet. -/
def Stage.unreaped (stage : Stage α) : Option α :=
  stage.thread.bind fun thread => thread.ended.join

/-- The sandbox is not replaced while a thread that has ended keeps its result. -/
def Stage.Collected (stage : Stage α) : Event α → Prop
  | .fitConfigure _ => stage.unreaped.isNone = true
  | _ => True

instance (stage : Stage α) (event : Event α) : Decidable (stage.Collected event) :=
  match event with
  | .fitConfigure _ => inferInstanceAs (Decidable (stage.unreaped.isNone = true))
  | .start _ | .threadEnds _ | .callNow _ | .callReturns | .poll => isTrue trivial

/-- What every stage keeps: no two vmcalls run at a time. -/
def Stage.Exclusive (stage : Stage α) : Prop := stage.calling.isSome → stage.busy = false

/-- What a stage keeps as long as no result is left behind: its thread and its result are of the
last start on its sandbox. -/
structure Stage.Current (stage : Stage α) : Prop where
  /-- The thread is, unless it has answered null. -/
  thread : ∀ thread ∈ stage.thread, thread.ended ≠ some none →
    stage.sandbox = some thread.sandbox ∧ stage.lastStart = some thread.start
  /-- The result is. -/
  result : ∀ result ∈ stage.result,
    stage.sandbox = some result.sandbox ∧ stage.lastStart = some result.start

/-- Reaping leaves no thread that has ended. -/
theorem busy_reap (stage : Stage α) : stage.reap.busy = stage.busy := by
  unfold Stage.reap
  cases thread_eq : stage.thread with
  | none => simp
  | some thread =>
    cases ended : thread.ended with
    | none => simp [ended]
    | some value => simp [Stage.busy, thread_eq, ended]

/-- Reaping changes neither the sandbox nor the starts. -/
theorem reap_same (stage : Stage α) : stage.reap.sandbox = stage.sandbox ∧
    stage.reap.lastStart = stage.lastStart ∧ stage.reap.calling = stage.calling := by
  unfold Stage.reap
  split
  · simp
  · split <;> simp

/-- A reaped result is still of the last start. -/
theorem Stage.Current.reap {stage : Stage α} (current : stage.Current) : stage.reap.Current := by
  unfold Stage.reap
  cases thread_eq : stage.thread with
  | none => exact current
  | some thread =>
    cases ended : thread.ended with
    | none =>
      simp only [ended]
      exact current
    | some value =>
      simp only [ended]
      refine ⟨nofun, fun result member => ?_⟩
      cases value with
      | none => cases member
      | some value =>
        cases member
        exact current.thread thread thread_eq (by simp [ended])

/-- One event keeps vmcalls apart. -/
theorem Stage.Exclusive.step {stage : Stage α} (exclusive : stage.Exclusive) (event : Event α) :
    (stage.step event).Exclusive := by
  cases event with
  | start fn =>
    simp only [Stage.step]
    split
    · exact exclusive
    next not_calling =>
      unfold Stage.start
      split
      · exact exclusive
      · split
        · exact exclusive
        · intro calling
          exact absurd ((reap_same stage).2.2 ▸ calling) not_calling
  | threadEnds value =>
    intro calling
    have idle := exclusive calling
    simp only [Stage.step, Stage.busy] at idle ⊢
    cases thread_eq : stage.thread with
    | none => simp
    | some thread =>
      rw [thread_eq] at idle
      have ended : ¬ thread.ended.isNone = true := by
        rw [Option.any_some] at idle
        exact Bool.not_eq_true _ ▸ idle
      rw [Option.map_some, if_neg ended]
      simpa using idle
  | callNow fn =>
    simp only [Stage.step]
    split
    · exact exclusive
    · unfold Stage.callNow
      split
      · exact exclusive
      · split
        · exact exclusive
        next idle =>
          intro _
          have reaped := busy_reap stage
          simp only [Stage.busy] at idle reaped ⊢
          rw [reaped]
          simpa using idle
  | callReturns =>
    intro calling
    cases calling
  | poll =>
    simp only [Stage.step]
    split
    · exact exclusive
    · unfold Stage.poll
      split
      · exact exclusive
      · intro calling
        rw [(reap_same stage).2.2] at calling
        rw [busy_reap]
        exact exclusive calling
  | fitConfigure loads =>
    simp only [Stage.step]
    split
    · exact exclusive
    · unfold Stage.fitConfigure
      split
      · exact exclusive
      · exact exclusive

/-- One event that leaves no result behind keeps thread and result current. -/
theorem Stage.Current.step {stage : Stage α} (current : stage.Current) {event : Event α}
    (collected : stage.Collected event) : (stage.step event).Current := by
  cases event with
  | start fn =>
    simp only [Stage.step]
    split
    · exact current
    · unfold Stage.start
      split
      · exact current
      next sandbox sandbox_eq =>
        split
        · exact current
        · refine ⟨fun thread member _ => ?_, nofun⟩
          cases member
          exact ⟨(reap_same stage).1.trans sandbox_eq, rfl⟩
  | threadEnds value =>
    refine ⟨fun thread member not_null => ?_, current.result⟩
    simp only [Stage.step, Option.mem_def, Option.map_eq_some_iff] at member
    obtain ⟨before, before_eq, rfl⟩ := member
    by_cases alive : before.ended.isNone = true
    · rw [if_pos alive]
      exact current.thread before before_eq (by simp [Option.isNone_iff_eq_none.mp alive])
    · rw [if_neg alive] at not_null ⊢
      exact current.thread before before_eq not_null
  | callNow fn =>
    simp only [Stage.step]
    split
    · exact current
    · unfold Stage.callNow
      split
      · exact current
      · split
        · exact current
        · exact ⟨current.reap.thread, current.reap.result⟩
  | callReturns => exact ⟨current.thread, current.result⟩
  | poll =>
    simp only [Stage.step]
    split
    · exact current
    · unfold Stage.poll
      split
      · exact current
      · exact current.reap
  | fitConfigure loads =>
    simp only [Stage.step]
    split
    · exact current
    · unfold Stage.fitConfigure
      split
      · exact current
      next idle =>
        refine ⟨fun thread member not_null => ?_, nofun⟩
        -- an idle thread that keeps no result has answered null
        have thread_eq : stage.thread = some thread := member
        have nothing : thread.ended.join = none := by
          simpa [Stage.Collected, Stage.unreaped, thread_eq] using collected
        cases value_eq : thread.ended with
        | none => exact absurd (by simp [Stage.busy, thread_eq, value_eq]) idle
        | some value =>
          rw [value_eq, Option.join_some] at nothing
          exact absurd (value_eq.trans (congrArg some nothing)) not_null

/-- At most one vmcall runs at a time. -/
theorem Stage.Exclusive.running_le {stage : Stage α} (exclusive : stage.Exclusive) :
    stage.running ≤ 1 := by
  unfold Stage.running
  split
  · next calling => simp [exclusive calling]
  · split <;> omega

/-- What is current is answered. -/
theorem Stage.Current.answers {stage : Stage α} (current : stage.Current) :
    stage.AnswersLastStart := by
  intro result polled
  unfold Stage.poll at polled
  split at polled
  · cases polled
  · have kept := current.reap.result result polled
    rwa [(reap_same stage).1, (reap_same stage).2.1] at kept

/-- In every run no two vmcalls run at a time. -/
theorem running_le_one (events : List (Event α)) :
    (events.foldl Stage.step Stage.loaded).running ≤ 1 := by
  have always : Along Stage.step (fun (_ : Stage α) _ => True) Stage.loaded events := by
    generalize (Stage.loaded : Stage α) = stage
    induction events generalizing stage with
    | nil => trivial
    | cons event events inductionHypothesis => exact ⟨trivial, inductionHypothesis _⟩
  have start : (Stage.loaded : Stage α).Exclusive := nofun
  have exclusive : (events.foldl Stage.step (Stage.loaded : Stage α)).Exclusive :=
    always.invariant (fun _ event kept _ => kept.step event) start
  exact exclusive.running_le

/-- In every run that leaves no result behind at a replaced sandbox, one vmcall runs at a time, and
what `poll` answers is the result of the last start. -/
theorem answers_last_start (events : List (Event α))
    (collected : Along Stage.step Stage.Collected Stage.loaded events) :
    (events.foldl Stage.step Stage.loaded).running ≤ 1 ∧
      (events.foldl Stage.step Stage.loaded).AnswersLastStart := by
  have start : (Stage.loaded : Stage α).Current := ⟨nofun, nofun⟩
  have current : (events.foldl Stage.step (Stage.loaded : Stage α)).Current :=
    collected.invariant (fun _ _ kept allowed => kept.step allowed) start
  exact ⟨running_le_one events, current.answers⟩

/-- A run that polls between a worker's end and a new sandbox. -/
theorem answers_last_start_polled :
    ([.start "fit_begin", .threadEnds (some 7), .poll, .fitConfigure true, .start "fit_step",
        .threadEnds (some 8)].foldl Stage.step (Stage.loaded : Stage Nat)).running ≤ 1 ∧
      ([.start "fit_begin", .threadEnds (some 7), .poll, .fitConfigure true, .start "fit_step",
        .threadEnds (some 8)].foldl Stage.step (Stage.loaded : Stage Nat)).AnswersLastStart :=
  answers_last_start _ (by decide)

/-- Leaving a result behind is answered for at once: the replaced sandbox's result is polled. -/
theorem polled_of_not_collected {stage : Stage α} {loads : Bool} (free : stage.calling = none)
    (left_behind : ¬ stage.Collected (.fitConfigure loads)) :
    ¬ (stage.step (.fitConfigure loads)).AnswersLastStart := by
  have kept_some : stage.unreaped ≠ none := fun none_left =>
    left_behind (Option.isNone_iff_eq_none.mpr none_left)
  obtain ⟨value, value_eq⟩ := Option.ne_none_iff_exists'.mp kept_some
  obtain ⟨thread, thread_eq, kept⟩ := Option.bind_eq_some_iff.mp value_eq
  have ended : thread.ended = some (some value) := Option.join_eq_some_iff.mp kept
  have idle : stage.busy = false := by simp [Stage.busy, thread_eq, ended]
  intro answers
  have last := (answers ⟨thread.sandbox, thread.start, value⟩ (by
    simp [Stage.step, free, Stage.fitConfigure, Stage.poll, Stage.busy, Stage.reap,
      thread_eq, ended])).2
  simp [Stage.step, free, Stage.fitConfigure, idle] at last

/-- A worker that ends right before `fit_configure` is answered for by the new sandbox. -/
theorem stale_result_polled :
    ¬ ([.start "fit_begin", .threadEnds (some 7), .fitConfigure true].foldl Stage.step
      (Stage.loaded : Stage Nat)).AnswersLastStart :=
  fun answers => absurd (answers ⟨0, 0, 7⟩ (by decide)).2 (by decide)

end DressOn.Host.Worker
