import Mathlib.Data.List.Basic
import Mathlib.Logic.Function.Basic
import Mathlib.Data.Fintype.Defs
import Mathlib.Data.Finset.Insert

/-!
# One device under three queues

`main.cpp` holds one `Device` for every job, session and optimiser on the rd
backend. Each solver waits for its own submit before it touches the device; none
asks whether another's is still in flight. A call is given the stages that come
up, so the queues may hold any jobs, left at any yield.
-/

namespace DressOn.Drape.SharedDevice

section Device

/-- What must not happen between a submit and its sync. -/
inductive Touch where
  | listBegin
  | write
  | read
  | submit
deriving DecidableEq

/-- The device: its `submitted_` flag, and every touch with the flag's value at the time. -/
structure Device where
  submitted : Bool
  log : List (Touch × Bool)
deriving DecidableEq

namespace Device

/-- Record a touch. -/
def touch (d : Device) (t : Touch) : Device := { d with log := d.log ++ [(t, d.submitted)] }

/-- `list_begin`. -/
def listBegin (d : Device) : Device := d.touch .listBegin

/-- `submit`. -/
def submit (d : Device) : Device := { d.touch .submit with submitted := true }

/-- `sync`. -/
def sync (d : Device) : Device := { d with submitted := false }

/-- No touch fell between a submit and its sync. -/
def Clean (d : Device) : Prop := ∀ entry ∈ d.log, entry.2 = false

instance (d : Device) : Decidable d.Clean := inferInstanceAs (Decidable (∀ entry ∈ d.log, _))

end Device

/-- What a stage asks of `AvbdRd` or `VecRd`. -/
inductive SolverOp where
  /-- Uploads: buffers created or updated. -/
  | upload (writes : Nat)
  /-- Readbacks. -/
  | read (reads : Nat)
  /-- A recorded submit: transfers and earlier lists, the last list, the submit. -/
  | record (before : List Touch)
  | sync
deriving DecidableEq

/-- Only a recorded list leaves a submit in flight. -/
def SolverOp.submits : SolverOp → Bool
  | .record _ => true
  | _ => false

/-- A solver waits for its own submit. -/
def settle (pending : Bool) (d : Device) : Device := if pending then d.sync else d

/-- One operation of a solver: its `pending_` flag and the device after it. -/
def perform (pending : Bool) (d : Device) : SolverOp → Bool × Device
  | .upload writes => (false, (List.replicate writes Touch.write).foldl Device.touch (settle pending d))
  | .read reads => (false, (List.replicate reads Touch.read).foldl Device.touch (settle pending d))
  | .record before => (true, ((before.foldl Device.touch (settle pending d)).listBegin).submit)
  | .sync => (false, settle pending d)

end Device

section Calls

/-- The queues: `g_job`'s, `g_q` and `g_djob`'s. -/
inductive Queue where
  | avbd
  | drape
  | djob
deriving DecidableEq

instance : Fintype Queue := ⟨{.avbd, .drape, .djob}, fun q => by cases q <;> decide⟩

/-- The solvers of a queue: its job's or session's, and its optimiser's vectors. -/
inductive Role where
  | solver
  | vec
deriving DecidableEq

instance : Fintype Role := ⟨{.solver, .vec}, fun role => by cases role <;> decide⟩

/-- One stage: what it does, and whether it ends the tick. -/
structure Stage where
  ops : List (Role × SolverOp)
  yields : Bool

/-- The guest: the device, the host's process frame, the flags of the current
solvers, and the replaced jobs still waiting to be freed. -/
structure World where
  dev : Device
  frame : Nat
  pending : Queue → Role → Bool
  parked : Queue → List Bool
  parkedFrame : Queue → Option Nat

/-- The operations of one queue's stages, in order. -/
def runOps (s : (Role → Bool) × Device) (ops : List (Role × SolverOp)) : (Role → Bool) × Device :=
  ops.foldl (fun s op =>
    let out := perform (s.1 op.1) s.2 op.2
    (Function.update s.1 op.1 out.1, out.2)) s

/-- A job's `pending`. -/
def inFlight (flags : Role → Bool) : Bool := flags .solver || flags .vec

/-- `StageQueue::tick`: stages until one yields or leaves a submit in flight. -/
def runStages (s : (Role → Bool) × Device) : List Stage → (Role → Bool) × Device
  | [] => s
  | stage :: rest =>
      let s := runOps s stage.ops
      if stage.yields || inFlight s.1 then s else runStages s rest

namespace World

/-- The state of one queue's solvers. -/
def solvers (w : World) (q : Queue) : (Role → Bool) × Device := (w.pending q, w.dev)

/-- Put it back. -/
def withSolvers (w : World) (q : Queue) (s : (Role → Bool) × Device) : World :=
  { w with pending := Function.update w.pending q s.1, dev := s.2 }

/-- The next call frees what was parked in an earlier frame; a destructor waits
for its solver's submit. -/
def freeParked (w : World) (q : Queue) : World :=
  if w.parked q ≠ [] ∧ w.parkedFrame q ≠ some w.frame then
    { w with
      dev := (w.parked q).foldl (fun d pending => settle pending d) w.dev
      parked := Function.update w.parked q [] }
  else w

/-- A job replaced while in flight is parked. -/
def park (w : World) (q : Queue) : World :=
  let idle := { w with pending := Function.update w.pending q fun _ => false }
  if inFlight (w.pending q) then
    { idle with
      parked := Function.update w.parked q (w.parked q ++ [w.pending q .solver, w.pending q .vec])
      parkedFrame := Function.update w.parkedFrame q (some w.frame) }
  else idle

end World

/-- The calls of `main.cpp` that reach the device. -/
inductive Call where
  /-- The host's next process frame. -/
  | nextFrame
  /-- `avbd_job_start` and `drape_job_start`. -/
  | start (q : Queue) (jobs : q ≠ .drape) (build : List (Role × SolverOp))
  /-- The drape calls that refuse while busy: scene loads and `drape_queue_optimize`. -/
  | drape (ops : List (Role × SolverOp))
  /-- `avbd_job_tick`, `drape_tick`, `drape_job_tick`. -/
  | tick (q : Queue) (stages : List Stage)

/-- One call. -/
def World.call (w : World) : Call → World
  | .nextFrame => { w with frame := w.frame + 1 }
  | .start q _ build =>
      let w := (w.freeParked q).park q
      w.withSolvers q (runOps (w.solvers q) build)
  | .drape ops =>
      let w := w.freeParked .drape
      if inFlight (w.pending .drape) then w
      else w.withSolvers .drape (runOps (w.solvers .drape) ops)
  | .tick q stages =>
      let w := w.freeParked q
      w.withSolvers q (runStages (w.solvers q) stages)

/-- Nothing started. -/
def World.init : World :=
  ⟨⟨false, []⟩, 0, fun _ _ => false, fun _ => [], fun _ => none⟩

/-- The guest after a list of calls. -/
def World.run (w : World) (calls : List Call) : World := calls.foldl World.call w

end Calls

section Condition

/-- A queue turns to its other solver only after the one in flight has been
waited for. -/
def HandsOver : (Role → Bool) → List (Role × SolverOp) → Prop
  | _, [] => True
  | flags, (role, op) :: rest =>
      (∀ other, other ≠ role → flags other = false) ∧
        HandsOver (Function.update flags role op.submits) rest

instance decidableHandsOver :
    (flags : Role → Bool) → (ops : List (Role × SolverOp)) → Decidable (HandsOver flags ops)
  | _, [] => inferInstanceAs (Decidable True)
  | flags, (role, op) :: rest =>
      have := decidableHandsOver (Function.update flags role op.submits) rest
      inferInstanceAs (Decidable ((∀ other, other ≠ role → flags other = false) ∧ HandsOver _ rest))

/-- Nothing is in flight outside a queue, and what the queue parked is idle or
about to be freed. -/
def Undisturbed (w : World) (q : Queue) : Prop :=
  (∀ q' ≠ q, ∀ role, w.pending q' role = false) ∧
    (∀ q' ≠ q, ∀ pending ∈ w.parked q', pending = false) ∧
    ((∀ pending ∈ w.parked q, pending = false) ∨ w.parkedFrame q ≠ some w.frame)

instance (w : World) (q : Queue) : Decidable (Undisturbed w q) := inferInstanceAs (Decidable (_ ∧ _))

/-- The call does nothing, or finds no submit in flight but its own queue's. -/
def Alone (w : World) : Call → Prop
  | .nextFrame => True
  | .start q _ build =>
      build = [] ∨ (Undisturbed w q ∧ (∀ role, w.pending q role = false) ∧
        HandsOver (fun _ => false) build)
  | .drape ops =>
      ops = [] ∨ inFlight (w.pending .drape) = true ∨
        (Undisturbed w .drape ∧ HandsOver (fun _ => false) ops)
  | .tick q stages =>
      stages.flatMap Stage.ops = [] ∨
        (Undisturbed w q ∧ HandsOver (w.pending q) (stages.flatMap Stage.ops))

instance (w : World) : (c : Call) → Decidable (Alone w c)
  | .nextFrame => inferInstanceAs (Decidable True)
  | .start _ _ _ => inferInstanceAs (Decidable (_ ∨ _))
  | .drape _ => inferInstanceAs (Decidable (_ ∨ _))
  | .tick _ _ => inferInstanceAs (Decidable (_ ∨ _))

/-- Every call of a run is alone in the state it finds. -/
def AllAlone : World → List Call → Prop
  | _, [] => True
  | w, c :: rest => Alone w c ∧ AllAlone (w.call c) rest

instance decidableAllAlone :
    (w : World) → (calls : List Call) → Decidable (AllAlone w calls)
  | _, [] => inferInstanceAs (Decidable True)
  | w, c :: rest =>
      have := decidableAllAlone (w.call c) rest
      inferInstanceAs (Decidable (Alone w c ∧ AllAlone (w.call c) rest))

end Condition

section Solvers

/-- A submit in flight is one of these solvers'. -/
def Owned (s : (Role → Bool) × Device) : Prop := s.2.submitted = true → ∃ role, s.1 role = true

/-- After the prologue nothing of the role's own is submitted. -/
theorem settle_submitted {pending : Bool} {d : Device} (owned : d.submitted = true → pending = true) :
    (settle pending d).submitted = false := by
  cases pending with
  | true => rfl
  | false =>
      apply Bool.eq_false_iff.mpr
      exact fun submitted => Bool.noConfusion (owned submitted)

/-- The prologue leaves the log alone. -/
theorem settle_log (pending : Bool) (d : Device) : (settle pending d).log = d.log := by
  cases pending <;> rfl

/-- Touches of an idle device are clean. -/
theorem touches_clean {d : Device} (idle : d.submitted = false) (clean : d.Clean)
    (touches : List Touch) :
    (touches.foldl Device.touch d).submitted = false ∧ (touches.foldl Device.touch d).Clean := by
  induction touches generalizing d with
  | nil => exact ⟨idle, clean⟩
  | cons t rest ih =>
      apply ih
      · exact idle
      · intro entry member
        rcases List.mem_append.mp member with earlier | now
        · exact clean entry earlier
        · rw [List.mem_singleton.mp now, idle]

/-- A solver is pending after an operation exactly if the operation submits. -/
theorem perform_pending (pending : Bool) (d : Device) (op : SolverOp) :
    (perform pending d op).1 = op.submits := by
  cases op <;> rfl

/-- A solver that may only find its own submit in flight leaves the log clean. -/
theorem perform_clean {pending : Bool} {d : Device} (owned : d.submitted = true → pending = true)
    (clean : d.Clean) (op : SolverOp) :
    (perform pending d op).2.Clean ∧
      ((perform pending d op).2.submitted = true → (perform pending d op).1 = true) := by
  have idle := settle_submitted owned
  have settled : (settle pending d).Clean := by
    intro entry member
    rw [settle_log] at member
    exact clean entry member
  cases op with
  | upload writes =>
      obtain ⟨off, kept⟩ := touches_clean idle settled (List.replicate writes Touch.write)
      exact ⟨kept, fun on => absurd (off.symm.trans on) Bool.noConfusion⟩
  | read reads =>
      obtain ⟨off, kept⟩ := touches_clean idle settled (List.replicate reads Touch.read)
      exact ⟨kept, fun on => absurd (off.symm.trans on) Bool.noConfusion⟩
  | record before =>
      obtain ⟨off, kept⟩ := touches_clean idle settled before
      exact ⟨(touches_clean off kept [.listBegin, .submit]).2, fun _ => rfl⟩
  | sync => exact ⟨settled, fun on => absurd (idle.symm.trans on) Bool.noConfusion⟩

/-- Operations that hand over leave the log clean and the submit owned. -/
theorem runOps_clean {s : (Role → Bool) × Device} (owned : Owned s) (clean : s.2.Clean)
    {ops : List (Role × SolverOp)} (hands : HandsOver s.1 ops) :
    Owned (runOps s ops) ∧ (runOps s ops).2.Clean := by
  induction ops generalizing s with
  | nil => exact ⟨owned, clean⟩
  | cons op rest ih =>
      obtain ⟨role, op⟩ := op
      obtain ⟨others, later⟩ := hands
      have own : s.2.submitted = true → s.1 role = true := by
        intro submitted
        obtain ⟨owner, flag⟩ := owned submitted
        by_cases same : owner = role
        · rwa [← same]
        · exact absurd ((others owner same).symm.trans flag) Bool.noConfusion
      obtain ⟨kept, next⟩ := perform_clean own clean op
      apply ih
      · intro submitted
        exact ⟨role, by simpa using next submitted⟩
      · exact kept
      · rwa [← perform_pending (s.1 role) s.2 op] at later

/-- Operations that hand over do so in both parts. -/
theorem handsOver_append {first second : List (Role × SolverOp)} {s : (Role → Bool) × Device}
    (hands : HandsOver s.1 (first ++ second)) :
    HandsOver s.1 first ∧ HandsOver (runOps s first).1 second := by
  induction first generalizing s with
  | nil => exact ⟨trivial, hands⟩
  | cons op rest ih =>
      obtain ⟨role, op⟩ := op
      obtain ⟨others, later⟩ := hands
      rw [← perform_pending (s.1 role) s.2 op] at later
      obtain ⟨here, after⟩ := @ih (Function.update s.1 role (perform (s.1 role) s.2 op).1,
        (perform (s.1 role) s.2 op).2) later
      rw [perform_pending] at here
      exact ⟨⟨others, here⟩, after⟩

/-- A tick runs some of the stages, so it is clean if all of them together would be. -/
theorem runStages_clean {s : (Role → Bool) × Device} (owned : Owned s) (clean : s.2.Clean)
    {stages : List Stage} (hands : HandsOver s.1 (stages.flatMap Stage.ops)) :
    Owned (runStages s stages) ∧ (runStages s stages).2.Clean := by
  induction stages generalizing s with
  | nil => exact ⟨owned, clean⟩
  | cons stage rest ih =>
      rw [List.flatMap_cons] at hands
      obtain ⟨here, later⟩ := handsOver_append hands
      obtain ⟨next, kept⟩ := runOps_clean owned clean here
      rw [runStages]
      split
      case isTrue => exact ⟨next, kept⟩
      case isFalse => exact ih next kept later

/-- Stages without operations change nothing. -/
theorem runStages_idle {stages : List Stage} (none : stages.flatMap Stage.ops = [])
    (s : (Role → Bool) × Device) : runStages s stages = s := by
  induction stages with
  | nil => rfl
  | cons stage rest ih =>
      rw [List.flatMap_cons, List.append_eq_nil_iff] at none
      rw [runStages, none.1, runOps, List.foldl_nil, ih none.2]
      exact ite_self s

/-- What is parked is waited for as it is freed. -/
theorem settleAll_submitted (parked : List Bool) (d : Device) :
    (parked.foldl (fun d pending => settle pending d) d).log = d.log ∧
      ((parked.foldl (fun d pending => settle pending d) d).submitted = true →
        d.submitted = true ∧ ∀ pending ∈ parked, pending = false) := by
  induction parked generalizing d with
  | nil =>
      constructor
      · rfl
      · intro on
        exact ⟨on, fun pending member => absurd member List.not_mem_nil⟩
  | cons first rest ih =>
      obtain ⟨log, owned⟩ := ih (settle first d)
      constructor
      · exact log.trans (settle_log first d)
      · intro on
        obtain ⟨before, none⟩ := owned on
        cases first with
        | true => exact absurd before Bool.noConfusion
        | false => exact ⟨before, List.forall_mem_cons.mpr ⟨rfl, none⟩⟩

end Solvers

section Run

/-- The submit in flight has an owner: a current solver or one parked. -/
def OwnedSomewhere (w : World) : Prop :=
  w.dev.submitted = true →
    (∃ q role, w.pending q role = true) ∨ ∃ q, true ∈ w.parked q

/-- What a run keeps. -/
structure Sound (w : World) : Prop where
  clean : w.dev.Clean
  owned : OwnedSomewhere w

/-- The first state is sound. -/
theorem sound_init : Sound World.init :=
  ⟨fun _ member => absurd member List.not_mem_nil, fun on => absurd on Bool.noConfusion⟩

/-- Freeing the parked solvers keeps the state sound. -/
theorem freeParked_sound {w : World} (sound : Sound w) (q : Queue) : Sound (w.freeParked q) := by
  rw [World.freeParked]
  split
  case isFalse => exact sound
  case isTrue =>
    obtain ⟨log, submitted⟩ := settleAll_submitted (w.parked q) w.dev
    constructor
    · intro entry member
      exact sound.clean entry (log ▸ member)
    · intro on
      obtain ⟨before, none⟩ := submitted on
      rcases sound.owned before with current | ⟨owner, member⟩
      · exact Or.inl current
      · apply Or.inr
        use owner
        have other : owner ≠ q := by
          rintro rfl
          exact absurd (none true member) Bool.noConfusion
        simpa [other] using member

/-- Parking a solver keeps the state sound. -/
theorem park_sound {w : World} (sound : Sound w) (q : Queue) : Sound (w.park q) := by
  rw [World.park]
  split
  case isTrue =>
    constructor
    · exact sound.clean
    · intro on
      rcases sound.owned on with ⟨owner, role, flag⟩ | ⟨owner, member⟩
      · by_cases same : owner = q
        · subst same
          apply Or.inr
          use owner
          cases role <;> simp [flag]
        · apply Or.inl
          use owner, role
          simpa [same] using flag
      · apply Or.inr
        use owner
        by_cases same : owner = q
        · subst same
          simp [member]
        · simpa [same] using member
  case isFalse idle =>
    constructor
    · exact sound.clean
    · intro on
      rcases sound.owned on with ⟨owner, role, flag⟩ | parked
      · apply Or.inl
        use owner, role
        have other : owner ≠ q := by
          rintro rfl
          apply idle
          cases role <;> simp [inFlight, flag]
        simpa [other] using flag
      · exact Or.inr parked

/-- In an undisturbed world, what is in flight once the parked are freed is the
queue's own. -/
theorem freeParked_owned {w : World} (sound : Sound w) {q : Queue} (undisturbed : Undisturbed w q) :
    Owned ((w.freeParked q).solvers q) := by
  obtain ⟨others, othersParked, ownParked⟩ := undisturbed
  have pending : (w.freeParked q).pending = w.pending := by
    rw [World.freeParked]
    split <;> rfl
  have parked (q' : Queue) : true ∉ (w.freeParked q).parked q' := by
    intro member
    rw [World.freeParked] at member
    split at member
    case isTrue =>
      by_cases same : q' = q
      · simp [same] at member
      · exact absurd (othersParked q' same true (by simpa [same] using member)) Bool.noConfusion
    case isFalse kept =>
      by_cases same : q' = q
      · subst same
        rcases ownParked with idle | earlier
        · exact absurd (idle true member) Bool.noConfusion
        · exact kept ⟨List.ne_nil_of_mem member, earlier⟩
      · exact absurd (othersParked q' same true member) Bool.noConfusion
  intro on
  rcases (freeParked_sound sound q).owned on with ⟨owner, role, flag⟩ | ⟨owner, member⟩
  · rw [pending] at flag
    by_cases same : owner = q
    · use role
      rwa [World.solvers, pending, ← same]
    · exact absurd ((others owner same role).symm.trans flag) Bool.noConfusion
  · exact absurd member (parked owner)

/-- Putting a queue's solvers back keeps the log clean and the submit owned. -/
theorem withSolvers_sound {w : World} {q : Queue} {s : (Role → Bool) × Device} (owned : Owned s)
    (clean : s.2.Clean) : Sound (w.withSolvers q s) := by
  constructor
  · exact clean
  · intro on
    obtain ⟨role, flag⟩ := owned on
    apply Or.inl
    use q, role
    simpa [World.withSolvers] using flag

/-- A queue's own solvers put back change nothing. -/
theorem withSolvers_self (w : World) (q : Queue) : w.withSolvers q (w.solvers q) = w := by
  simp [World.withSolvers, World.solvers]

/-- Freeing the parked solvers leaves what is pending alone. -/
theorem freeParked_pending (w : World) (q : Queue) : (w.freeParked q).pending = w.pending := by
  rw [World.freeParked]
  split <;> rfl

/-- A parked queue starts over on the same device. -/
theorem park_solvers (w : World) (q : Queue) :
    (w.park q).solvers q = (fun _ => false, w.dev) := by
  rw [World.park]
  split <;> simp [World.solvers]

/-- A call alone with its queue's submit keeps the device sound. -/
theorem call_sound {w : World} (sound : Sound w) {c : Call} (alone : Alone w c) :
    Sound (w.call c) := by
  cases c with
  | nextFrame => exact ⟨sound.clean, sound.owned⟩
  | start q jobs build =>
      have parked := park_sound (freeParked_sound sound q) q
      rcases alone with rfl | ⟨undisturbed, idle, hands⟩
      · rw [World.call, runOps, List.foldl_nil, withSolvers_self]
        exact parked
      · have owned : Owned ((((w.freeParked q).park q)).solvers q) := by
          rw [park_solvers]
          intro on
          obtain ⟨role, flag⟩ := freeParked_owned sound undisturbed on
          rw [World.solvers, freeParked_pending] at flag
          exact absurd ((idle role).symm.trans flag) Bool.noConfusion
        obtain ⟨next, kept⟩ := runOps_clean owned parked.clean (by rwa [park_solvers])
        exact withSolvers_sound next kept
  | drape ops =>
      have freed := freeParked_sound sound .drape
      rw [World.call]
      split
      case isTrue => exact freed
      case isFalse busy =>
        rcases alone with rfl | refused | ⟨undisturbed, hands⟩
        · rw [runOps, List.foldl_nil, withSolvers_self]
          exact freed
        · rw [freeParked_pending] at busy
          exact absurd refused busy
        · have idle : ((w.freeParked .drape).solvers .drape).1 = fun _ => false := by
            funext role
            have both : (w.freeParked .drape).pending .drape .solver = false ∧
                (w.freeParked .drape).pending .drape .vec = false := by
              simpa [inFlight] using busy
            cases role with
            | solver => exact both.1
            | vec => exact both.2
          have hands : HandsOver ((w.freeParked .drape).solvers .drape).1 ops := by
            rwa [idle]
          obtain ⟨next, kept⟩ :=
            runOps_clean (freeParked_owned sound undisturbed) freed.clean hands
          exact withSolvers_sound next kept
  | tick q stages =>
      have freed := freeParked_sound sound q
      rw [World.call]
      rcases alone with none | ⟨undisturbed, hands⟩
      · rw [runStages_idle none, withSolvers_self]
        exact freed
      · have hands : HandsOver ((w.freeParked q).solvers q).1 (stages.flatMap Stage.ops) := by
          rwa [World.solvers, freeParked_pending]
        obtain ⟨next, kept⟩ := runStages_clean (freeParked_owned sound undisturbed) freed.clean hands
        exact withSolvers_sound next kept

/-- A run of calls, each alone on the device, keeps the state sound. -/
theorem run_sound {w : World} (sound : Sound w) {calls : List Call} (alone : AllAlone w calls) :
    Sound (w.run calls) := by
  induction calls generalizing w with
  | nil => exact sound
  | cons c rest ih => exact ih (call_sound sound alone.1) alone.2

/-- The law of the shared device: in a run whose every call is alone with its
queue's submit, nothing touches the device between a submit and its sync. -/
theorem shared_device_clean (calls : List Call) (alone : AllAlone World.init calls) :
    (World.init.run calls).dev.Clean :=
  (run_sound sound_init alone).clean

/-- A stage that records a list and submits it. -/
def recordStage : Stage := ⟨[(.solver, .record [.write])], false⟩

/-- A stage that reads the result back. -/
def readStage : Stage := ⟨[(.solver, .read 1)], false⟩

/-- A session's tick in the frame between a job's ticks works on the job's submit:
two jobs, ticked each frame, break the law. -/
theorem shared_device_touched :
    ¬ ∀ calls : List Call, (World.init.run calls).dev.Clean := by
  intro clean
  have touched := clean [.start .avbd (by decide) [], .tick .avbd [recordStage, readStage],
    .tick .drape [recordStage, readStage]]
  exact absurd touched (by decide)

/-- One job after the other has been waited for keeps it. -/
theorem shared_device_clean_inTurn :
    (World.init.run [.start .avbd (by decide) [], .tick .avbd [recordStage, readStage], .nextFrame,
      .tick .avbd [readStage], .tick .drape [recordStage, readStage]]).dev.Clean := by
  exact shared_device_clean _ (by decide)

end Run

end DressOn.Drape.SharedDevice
