import DressOn.Jobs.StageQueue

/-!
# Jobs

`jobs::Job`: a stage queue, whether its GPU work is in flight, and the verdict. A tick runs stages
until work is in flight or the verdict is in; the verdict is reported only when nothing is in
flight.
-/

namespace DressOn.Jobs

/-- What the closures of a job act on: its own members, and the verdict of `Job`. -/
structure Members (Own : Type) where
  own : Own
  finished : Bool := false
  result : String := ""

/-- `Job::finish`: the verdict and its detail lines, without the last line break. -/
def Members.finish {Own : Type} (members : Members Own) (pass : Bool) (head detail : String) :
    Members Own :=
  let verdict := (if pass then "PASS " else "FAIL ") ++ head
  let lines := (verdict ++ "\n" ++ detail).toList
  { members with
    finished := true
    result :=
      if detail.isEmpty then verdict
      else if lines.getLast? = some '\n' then String.ofList lines.dropLast
      else String.ofList lines }

/-- A kind of job: what its closures do, when its GPU work is in flight, and how it waits that
out. -/
structure Kind (Fn Own : Type) where
  run : Closures Fn (Members Own)
  pending : Own → Bool
  drain : Own → Own

/-- `Job`. -/
structure Job (Fn Own : Type) where
  q : StageQueue Fn := {}
  members : Members Own
  maxStagesPerTick : Int := 256

namespace Job

variable {Fn Own : Type} (kind : Kind Fn Own)

/-- What a job's tick hands to its queue: the tick ends once work is in flight or the verdict is
in. -/
def host (job : Job Fn Own) (hostUs : Int) : StageQueue.Tick (Members Own) where
  now := hostUs
  stop members := kind.pending members.own || members.finished
  maxStages := job.maxStagesPerTick

/-- A job with its verdict in: work still in flight is waited out, a frame later. -/
def waitOut (job : Job Fn Own) : Job Fn Own :=
  if kind.pending job.members.own then
    { job with members := { job.members with own := kind.drain job.members.own } }
  else job

/-- A queue run empty with nothing in flight and no verdict is a failure of the job. -/
def close (job : Job Fn Own) : Job Fn Own :=
  if !job.members.finished && job.q.q.isEmpty && !kind.pending job.members.own then
    { job with members := job.members.finish false "job drained its queue without a verdict" "" }
  else job

/-- What a tick does: the stages it ran, and the job it leaves. -/
def advance (job : Job Fn Own) (hostUs : Int) : List (StageQueue.Ran Fn) × Job Fn Own :=
  if job.members.finished then ([], job.waitOut kind)
  else
    let (ran, q, members) := job.q.tick kind.run job.members (job.host kind hostUs)
    (ran, { job with q, members }.close kind)

/-- The line that a tick reports. -/
def report (job : Job Fn Own) : String :=
  if job.members.finished && !kind.pending job.members.own then job.members.result
  else "RUNNING " ++ toString job.q.done ++ "/" ++ toString job.q.total

/-- `Job::tick`. -/
def tick (job : Job Fn Own) (hostUs : Int) : String × Job Fn Own :=
  ((job.advance kind hostUs).2.report kind, (job.advance kind hostUs).2)

/-- One tick after another: what each of them ran, and the job they leave. -/
def ticks : List Int → Job Fn Own → List (List (StageQueue.Ran Fn)) × Job Fn Own
  | [], job => ([], job)
  | hostUs :: clock, job =>
    let (more, last) := ticks clock (job.tick kind hostUs).2
    ((job.advance kind hostUs).1 :: more, last)

/-- Waiting out touches neither the queue nor the verdict. -/
theorem waitOut_keeps (job : Job Fn Own) :
    (job.waitOut kind).q = job.q ∧ (job.waitOut kind).members.finished = job.members.finished := by
  unfold waitOut
  split <;> exact ⟨rfl, rfl⟩

/-- Closing leaves the queue alone, and the members where it gives no verdict. -/
theorem close_keeps (job : Job Fn Own) :
    (job.close kind).q = job.q ∧
      ((job.close kind).members.finished = false → (job.close kind).members = job.members) := by
  unfold close
  split
  next => exact ⟨rfl, fun unfinished => absurd unfinished (by simp [Members.finish])⟩
  next => exact ⟨rfl, fun _ => rfl⟩

/-- Once a job is finished its ticks run nothing. -/
theorem ticks_of_finished (clock : List Int) {job : Job Fn Own}
    (finished : job.members.finished = true) :
    (∀ tick ∈ (ticks kind clock job).1, tick = []) ∧ (ticks kind clock job).2.q = job.q := by
  induction clock generalizing job with
  | nil => exact ⟨by simp [ticks], rfl⟩
  | cons hostUs clock inductionHypothesis =>
    have waits : job.advance kind hostUs = ([], job.waitOut kind) := if_pos finished
    obtain ⟨same, still⟩ := waitOut_keeps kind job
    obtain ⟨nothing, same_later⟩ := inductionHypothesis (still.trans finished)
    simp only [ticks, tick, waits]
    exact ⟨by simpa using nothing, same_later.trans same⟩

/-- The ticks of a job work stages off its queue, and no stage runs in a tick after one that
yields, that leaves work in flight or that gives the verdict. -/
theorem ticks_spec (clock : List Int) {job : Job Fn Own} (idle : job.q.Idle) :
    (∃ members, StageQueue.Worked kind.run job.q job.members (ticks kind clock job).1.flatten
        (ticks kind clock job).2.q members) ∧
      ∀ tick ∈ (ticks kind clock job).1, ∀ ran ∈ tick.dropLast,
        ran.stage.yield = false ∧ ran.stopped = false := by
  induction clock generalizing job with
  | nil => exact ⟨⟨_, .refl kind.run idle job.members⟩, by simp [ticks]⟩
  | cons hostUs clock inductionHypothesis =>
    cases verdict : job.members.finished with
    | true =>
      obtain ⟨nothing, same⟩ := ticks_of_finished kind (hostUs :: clock) verdict
      have nothing_ran : (ticks kind (hostUs :: clock) job).1.flatten = [] :=
        List.flatten_eq_nil_iff.mpr nothing
      rw [nothing_ran, same]
      refine ⟨⟨_, .refl kind.run idle job.members⟩, fun tick member => ?_⟩
      simp [nothing tick member]
    | false =>
      obtain ⟨first, -, quiet⟩ := StageQueue.tickFrom_spec kind.run (job.host kind hostUs)
        (job.host kind hostUs).maxStages.toNat idle job.members
      generalize stepped : StageQueue.tickFrom kind.run (job.host kind hostUs)
        (job.host kind hostUs).maxStages.toNat job.q job.members = ticked at first quiet
      have advanced : job.advance kind hostUs =
          (ticked.1, { job with q := ticked.2.1, members := ticked.2.2 }.close kind) := by
        simp [advance, verdict, StageQueue.tick, stepped]
      obtain ⟨same, same_members⟩ :=
        close_keeps kind { job with q := ticked.2.1, members := ticked.2.2 }
      simp only [ticks, tick, advanced]
      generalize { job with q := ticked.2.1, members := ticked.2.2 }.close kind = closed at *
      dsimp only at same same_members
      rw [← same] at first
      obtain ⟨⟨members, more⟩, quiet_later⟩ := inductionHypothesis first.idle
      constructor
      · cases closing : closed.members.finished with
        | true =>
          obtain ⟨nothing, same_later⟩ := ticks_of_finished kind clock closing
          rw [List.flatten_cons, List.flatten_eq_nil_iff.mpr nothing, List.append_nil, same_later]
          exact ⟨ticked.2.2, first⟩
        | false =>
          rw [same_members closing] at more
          exact ⟨members, first.trans more⟩
      · intro tick member
        rcases List.mem_cons.mp member with rfl | member
        · exact quiet
        · exact quiet_later tick member

/-- A job whose queue its ticks empty ran its stages in depth-first order. -/
theorem depth_first (clock : List Int) {job : Job Fn Own} (idle : job.q.Idle)
    (drained : (ticks kind clock job).2.q.q = []) :
    ∃ members, DepthFirst.Expansion (stages kind.run) job.members job.q.q
      (ticks kind clock job).1.flatten members := by
  obtain ⟨⟨members, worked⟩, -⟩ := ticks_spec kind clock idle
  have works := worked.works
  rw [drained] at works
  exact ⟨members, works.expansion⟩

end Job

end DressOn.Jobs
