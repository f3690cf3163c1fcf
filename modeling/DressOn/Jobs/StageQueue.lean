import DressOn.Lib.DepthFirst

/-!
# The stage queue of a job

`jobs.cpp`: a queue of stages that the host advances one tick at a time. A stage may queue more
stages while it runs; a tick ends on an empty queue, at its budget, after a yielding stage, or
when `stop` says so. However the ticks cut the run, the stages run in depth-first order.
-/

namespace DressOn.Jobs

/-- A queued stage: its closure, and whether the tick ends after it. -/
structure Stage (Fn : Type) where
  fn : Fn
  yield : Bool

/-- A call on the queue, from a stage that runs or from outside. -/
inductive Call (Fn : Type) where
  | push (stage : Stage Fn)
  | next (stage : Stage Fn)

/-- What the closures do: the job's members before and after under the clock of the tick, and the
calls on the queue in their order. -/
abbrev Closures (Fn Own : Type) := Fn → Int → Own → Own × List (Call Fn)

/-- `StageQueue`. -/
structure StageQueue (Fn : Type) where
  q : List (Stage Fn) := []
  inserts : List (Stage Fn) := []
  running : Bool := false
  done : Nat := 0
  total : Nat := 0

namespace StageQueue

variable {Fn Own : Type}

/-- `StageQueue::push`. -/
def push (queue : StageQueue Fn) (stage : Stage Fn) : StageQueue Fn :=
  { queue with q := queue.q ++ [stage], total := queue.total + 1 }

/-- `StageQueue::next`: the front of the queue, unless a stage runs. -/
def next (queue : StageQueue Fn) (stage : Stage Fn) : StageQueue Fn :=
  if queue.running then
    { queue with inserts := queue.inserts ++ [stage], total := queue.total + 1 }
  else { queue with q := stage :: queue.q, total := queue.total + 1 }

/-- One call on the queue. -/
def call (queue : StageQueue Fn) : Call Fn → StageQueue Fn
  | .push stage => queue.push stage
  | .next stage => queue.next stage

/-- What `tick` does after a stage: the inserts go to the front, and the stage counts as done. -/
def splice (queue : StageQueue Fn) : StageQueue Fn :=
  { queue with
    q := queue.inserts ++ queue.q, inserts := [], running := false, done := queue.done + 1 }

/-- What a tick gets: the host's clock, the predicate that ends it, and its budget. -/
structure Tick (Own : Type) where
  now : Int
  stop : Own → Bool
  maxStages : Int

/-- A stage that ran: under which clock, which calls it made, and whether `stop` held after it. -/
structure Ran (Fn : Type) where
  stage : Stage Fn
  now : Int
  calls : List (Call Fn)
  stopped : Bool

/-- The loop of `tick` with `left` stages of its budget to go. -/
def tickFrom (run : Closures Fn Own) (host : Tick Own) :
    Nat → StageQueue Fn → Own → List (Ran Fn) × StageQueue Fn × Own
  | 0, queue, own => ([], queue, own)
  | left + 1, queue, own =>
    match queue.q with
    | [] => ([], queue, own)
    | stage :: rest =>
      let (own, calls) := run stage.fn host.now own
      let queue := (calls.foldl call { queue with q := rest, running := true }).splice
      let ran : Ran Fn := ⟨stage, host.now, calls, host.stop own⟩
      if stage.yield || host.stop own then ([ran], queue, own)
      else
        let (more, queue, own) := tickFrom run host left queue own
        (ran :: more, queue, own)

/-- `StageQueue::tick`: the stages it ran (the source returns their number), the queue and the
members that it leaves. -/
def tick (run : Closures Fn Own) (queue : StageQueue Fn) (own : Own) (host : Tick Own) :
    List (Ran Fn) × StageQueue Fn × Own :=
  tickFrom run host host.maxStages.toNat queue own

/-- One tick after another: what each of them ran, and what they leave. -/
def ticks (run : Closures Fn Own) :
    List (Tick Own) → StageQueue Fn → Own → List (List (Ran Fn)) × StageQueue Fn × Own
  | [], queue, own => ([], queue, own)
  | host :: hosts, queue, own =>
    let (ran, queue, own) := tick run queue own host
    let (more, queue, own) := ticks run hosts queue own
    (ran :: more, queue, own)

/-- A queue filled from outside, before any stage runs. -/
def filled (setup : List (Call Fn)) : StageQueue Fn := setup.foldl call {}

end StageQueue

/-! ## Stages as a depth-first worker -/

section Worker

variable {Fn Own : Type}

/-- The stages that a list of calls queues directly after the caller. -/
def nexts (calls : List (Call Fn)) : List (Stage Fn) :=
  calls.filterMap fun
    | .next stage => some stage
    | .push _ => none

/-- The stages that a list of calls queues at the end. -/
def pushes (calls : List (Call Fn)) : List (Stage Fn) :=
  calls.filterMap fun
    | .push stage => some stage
    | .next _ => none

/-- The worker behind the queue: a visit is one run of a stage's closure. -/
def stages (run : Closures Fn Own) : DepthFirst.Worker Own (Stage Fn) (StageQueue.Ran Fn) where
  Visits own stage ran after := ran.stage = stage ∧ run stage.fn ran.now own = (after, ran.calls)
  below ran := nexts ran.calls
  behind ran := pushes ran.calls

/-- Closures that do not read the clock. -/
def Untimed (run : Closures Fn Own) : Prop :=
  ∀ fn now now' own, run fn now own = run fn now' own

end Worker

namespace StageQueue

variable {Fn Own : Type}

/-- Between ticks no stage runs and nothing waits to be inserted; `total` counts what ran and what
is queued. -/
structure Idle (queue : StageQueue Fn) : Prop where
  inserts : queue.inserts = []
  running : queue.running = false
  counted : queue.total = queue.done + queue.q.length

/-- The calls of a running stage collect its inserts and extend the queue. -/
theorem foldl_call_running {queue : StageQueue Fn} (calls : List (Call Fn))
    (running : queue.running = true) :
    calls.foldl call queue =
      { queue with
        q := queue.q ++ pushes calls
        inserts := queue.inserts ++ nexts calls
        total := queue.total + (nexts calls).length + (pushes calls).length } := by
  induction calls generalizing queue with
  | nil => simp [pushes, nexts]
  | cons head calls inductionHypothesis =>
    cases head with
    | push stage =>
      rw [List.foldl_cons, call, push, inductionHypothesis (by exact running)]
      simp [pushes, nexts]
      omega
    | next stage =>
      rw [List.foldl_cons, call, next, if_pos running, inductionHypothesis (by exact running)]
      simp [pushes, nexts]
      omega

/-- A stage's run splices what it queued next in front of the rest, and appends what it pushed. -/
theorem splice_foldl_call {queue : StageQueue Fn} (idle : queue.Idle) {stage : Stage Fn}
    {rest : List (Stage Fn)} (front : queue.q = stage :: rest) (calls : List (Call Fn)) :
    let after := (calls.foldl call { queue with q := rest, running := true }).splice
    after.q = nexts calls ++ rest ++ pushes calls ∧ after.done = queue.done + 1 ∧ after.Idle := by
  have counted := idle.counted
  rw [front, List.length_cons] at counted
  intro after
  have shape : after = { queue with
      q := nexts calls ++ rest ++ pushes calls
      total := queue.total + (nexts calls).length + (pushes calls).length
      done := queue.done + 1
      inserts := []
      running := false } := by
    simp only [after]
    rw [foldl_call_running calls rfl]
    simp [splice, idle.inserts]
  rw [shape]
  refine ⟨rfl, rfl, ⟨rfl, rfl, ?_⟩⟩
  simp only [List.length_append]
  omega

/-- What a stretch of the run does: the stages it ran are worked off the queue, and the queue is
idle again. -/
structure Worked (run : Closures Fn Own) (queue : StageQueue Fn) (own : Own)
    (ran : List (Ran Fn)) (after : StageQueue Fn) (own' : Own) : Prop where
  works : DepthFirst.Works (stages run) own queue.q ran own' after.q
  done : after.done = queue.done + ran.length
  idle : after.Idle

/-- Nothing ran. -/
theorem Worked.refl (run : Closures Fn Own) {queue : StageQueue Fn} (idle : queue.Idle)
    (own : Own) : Worked run queue own [] queue own :=
  ⟨.idle, rfl, idle⟩

/-- Stretches of a run compose. -/
theorem Worked.trans {run : Closures Fn Own} {first middle last : StageQueue Fn}
    {own own' own'' : Own} {early late : List (Ran Fn)}
    (before : Worked run first own early middle own')
    (after : Worked run middle own' late last own'') :
    Worked run first own (early ++ late) last own'' where
  works := before.works.trans after.works
  done := by
    rw [after.done, before.done, List.length_append]
    omega
  idle := after.idle

/-- One stage is one visit. -/
theorem Worked.stage (run : Closures Fn Own) {queue : StageQueue Fn} (idle : queue.Idle)
    {stage : Stage Fn} {rest : List (Stage Fn)} (front : queue.q = stage :: rest) (own : Own)
    (now : Int) (stopped : Bool) :
    Worked run queue own [⟨stage, now, (run stage.fn now own).2, stopped⟩]
      ((run stage.fn now own).2.foldl call { queue with q := rest, running := true }).splice
      (run stage.fn now own).1 := by
  obtain ⟨spliced, done, after_idle⟩ := splice_foldl_call idle front (run stage.fn now own).2
  refine ⟨?_, done, after_idle⟩
  rw [spliced, front]
  exact .visit ⟨rfl, rfl⟩ .idle

/-- What stands before the last entry is the head or stands before the last entry of the tail. -/
theorem mem_dropLast_cons {α : Type} {entry head : α} {tail : List α}
    (member : entry ∈ (head :: tail).dropLast) : entry = head ∨ entry ∈ tail.dropLast := by
  cases tail with
  | nil => simp at member
  | cons second tail => simpa using member

/-- A tick works stages off, and only its last stage yields or is followed by a stop. -/
theorem tickFrom_spec (run : Closures Fn Own) (host : Tick Own) (left : Nat)
    {queue : StageQueue Fn} (idle : queue.Idle) (own : Own) :
    Worked run queue own (tickFrom run host left queue own).1 (tickFrom run host left queue own).2.1
        (tickFrom run host left queue own).2.2 ∧
      (tickFrom run host left queue own).1.length ≤ left ∧
      ∀ ran ∈ (tickFrom run host left queue own).1.dropLast,
        ran.stage.yield = false ∧ ran.stopped = false := by
  induction left generalizing queue own with
  | zero => exact ⟨Worked.refl run idle own, by simp [tickFrom], by simp [tickFrom]⟩
  | succ left inductionHypothesis =>
    cases front : queue.q with
    | nil => simpa [tickFrom, front] using Worked.refl run idle own
    | cons stage rest =>
      have first := Worked.stage run idle front own host.now
        (host.stop (run stage.fn host.now own).1)
      simp only [tickFrom, front]
      split
      next ends => exact ⟨first, by simp, by simp⟩
      next goes_on =>
        obtain ⟨more, within, quiet⟩ := inductionHypothesis first.idle (run stage.fn host.now own).1
        refine ⟨first.trans more, by simpa using within, ?_⟩
        simp only [Bool.not_eq_true, Bool.or_eq_false_iff] at goes_on
        intro ran member
        rcases mem_dropLast_cons member with rfl | later
        · exact goes_on
        · exact quiet ran later

/-- Ticks, one after another, work stages off, and every stage that yields or is followed by a stop
is the last of its tick. -/
theorem ticks_spec (run : Closures Fn Own) (hosts : List (Tick Own)) {queue : StageQueue Fn}
    (idle : queue.Idle) (own : Own) :
    Worked run queue own (ticks run hosts queue own).1.flatten (ticks run hosts queue own).2.1
        (ticks run hosts queue own).2.2 ∧
      ∀ tick ∈ (ticks run hosts queue own).1, ∀ ran ∈ tick.dropLast,
        ran.stage.yield = false ∧ ran.stopped = false := by
  induction hosts generalizing queue own with
  | nil => exact ⟨Worked.refl run idle own, by simp [ticks]⟩
  | cons host hosts inductionHypothesis =>
    obtain ⟨first, -, quiet⟩ := tickFrom_spec run host host.maxStages.toNat idle own
    obtain ⟨more, later⟩ := inductionHypothesis first.idle
      (tickFrom run host host.maxStages.toNat queue own).2.2
    refine ⟨first.trans more, fun tick member => ?_⟩
    rcases List.mem_cons.mp member with rfl | member
    · exact quiet
    · exact later tick member

/-- A queue filled from outside is idle. -/
theorem idle_filled (setup : List (Call Fn)) : (filled setup).Idle ∧ (filled setup).done = 0 := by
  suffices all : ∀ queue : StageQueue Fn, queue.Idle ∧ queue.done = 0 →
      (setup.foldl call queue).Idle ∧ (setup.foldl call queue).done = 0 from
    all {} ⟨⟨rfl, rfl, rfl⟩, rfl⟩
  induction setup with
  | nil => exact fun _ idle => idle
  | cons head setup inductionHypothesis =>
    rintro queue ⟨⟨inserts, running, counted⟩, done⟩
    apply inductionHypothesis
    cases head with
    | push stage =>
      refine ⟨⟨inserts, running, ?_⟩, done⟩
      simp only [call, push, List.length_append, List.length_singleton]
      omega
    | next stage =>
      have outside : ¬ queue.running = true := by simp [running]
      simp only [call, next, if_neg outside]
      refine ⟨⟨inserts, running, ?_⟩, done⟩
      simp only [List.length_cons]
      omega

/-- However a queue is ticked until it is empty, its stages run in the depth-first order that the
calls of the stages define; every stage that was ever queued runs exactly once; nothing runs in a
tick after a stage that yields or that `stop` follows; and where the closures do not read the
clock, any other ticks that empty the queue run the same stages in the same order. -/
theorem depth_first_however_ticked (run : Closures Fn Own) (setup : List (Call Fn)) (own : Own)
    (hosts : List (Tick Own)) (drained : (ticks run hosts (filled setup) own).2.1.q = []) :
    let ran := (ticks run hosts (filled setup) own).1
    let after := (ticks run hosts (filled setup) own).2
    DepthFirst.Expansion (stages run) own (filled setup).q ran.flatten after.2 ∧
      (ran.flatten.map Ran.stage).Perm
        ((filled setup).q ++ ran.flatten.flatMap fun visit =>
          nexts visit.calls ++ pushes visit.calls) ∧
      after.1.done = ran.flatten.length ∧ after.1.total = ran.flatten.length ∧
      (∀ tick ∈ ran, ∀ visit ∈ tick.dropLast,
        visit.stage.yield = false ∧ visit.stopped = false) ∧
      (Untimed run → ∀ hosts' : List (Tick Own),
        (ticks run hosts' (filled setup) own).2.1.q = [] →
          (ticks run hosts' (filled setup) own).1.flatten.map Ran.stage
            = ran.flatten.map Ran.stage) := by
  intro ran after
  obtain ⟨idle, fresh⟩ := idle_filled setup
  obtain ⟨worked, cut⟩ := ticks_spec run hosts idle own
  have works := worked.works
  have done := worked.done
  have counted := worked.idle.counted
  rw [drained] at works
  rw [drained, List.length_nil] at counted
  refine ⟨works.expansion, ?_, by simpa [fresh] using done, by simp only [after, ran]; omega, cut,
    ?_⟩
  · have perm := works.perm Ran.stage fun visited => And.left visited
    rwa [List.append_nil] at perm
  · intro untimed hosts' drained'
    have works' := (ticks_spec run hosts' idle own).1.works
    rw [drained'] at works'
    refine (works'.deterministic Ran.stage ?_ works).1
    rintro _ _ ran' _ ran'' _ ⟨rfl, once⟩ ⟨same, again⟩
    rw [untimed _ _ ran''.now, again] at once
    obtain ⟨rfl, calls⟩ := Prod.mk.inj once
    simp [stages, same, calls]

/-- Closures that queue two stages next, the second one yielding, and one at the end. -/
def threeFollowers : Closures Nat Unit := fun fn _ own =>
  (own, if fn = 0 then [.push ⟨3, false⟩, .next ⟨1, false⟩, .next ⟨2, true⟩] else [])

/-- Three ticks, the last two with a budget of one stage, work off what the first stage queued. -/
theorem three_followers_depth_first :
    let ran := ticks threeFollowers
      [⟨0, fun _ => false, 256⟩, ⟨1, fun _ => false, 1⟩, ⟨2, fun _ => false, 1⟩]
      (filled [.push ⟨0, false⟩, .push ⟨4, false⟩]) ()
    DepthFirst.Expansion (stages threeFollowers) () [⟨0, false⟩, ⟨4, false⟩] ran.1.flatten () ∧
      ran.1.map (List.map fun visit => visit.stage.fn) = [[0, 1, 2], [4], [3]] :=
  ⟨(depth_first_however_ticked threeFollowers [.push ⟨0, false⟩, .push ⟨4, false⟩] ()
    [⟨0, fun _ => false, 256⟩, ⟨1, fun _ => false, 1⟩, ⟨2, fun _ => false, 1⟩] (by rfl)).1,
    by decide⟩

end StageQueue

end DressOn.Jobs
