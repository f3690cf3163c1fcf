import DressOn.Host.Pipeline
import Mathlib.Data.List.Infix

/-!
# The records of a run

Every run of the pipeline walks its states in order, with one record for each state that it has
left, whatever the stages answer.
-/

namespace DressOn.Host.Pipeline

open DressOn.Texts

variable {R : Type} {shapes : Shapes R} {p q r : Pipeline R} {a : Answers R} {clock : Clock}

/-- The states of a whole run, with those that a fixture skips left out. -/
def phases (fitSkipped drapeSkipped : Bool) : List State :=
  [.infer, .rig, .author, .mesh, .fitBegin] ++ (if fitSkipped then [] else [.fitRun])
    ++ [.fitRead, .check, .drape] ++ (if drapeSkipped then [] else [.drapeCollect])

/-- The fit stage runs as its fixture. -/
def FitFixture (p : Pipeline R) : Prop := "fit".toList ∈ p.fixtures

/-- The drape stage runs as its fixture. -/
def DrapeFixture (p : Pipeline R) : Prop := "drape".toList ∈ p.fixtures

/-- The check answered OK. -/
def CheckOk (p : Pipeline R) : Prop :=
  ∃ answer, p.data.check = some answer ∧ beginsWith answer "OK none".toList = true

/-- The records of a run follow its states. -/
structure Ran (shapes : Shapes R) (p : Pipeline R) : Prop where
  /-- One record for each state that was entered and left, in order. -/
  records : p.entered.filter (fun state => !state.terminal)
    = p.records.map Record.state ++ if p.state.terminal then [] else [p.state]
  /-- The last state entered is the present one. -/
  current : p.entered = [] ∨ p.entered.getLast? = some p.state
  /-- The states are the first ones of a run, then `DONE` or `FAILED`. -/
  path : ∃ fitSkipped walked, walked <+: phases fitSkipped false ∧
    (fitSkipped = true → p.FitFixture) ∧
    (p.entered = walked ∨ p.entered = walked ++ [.done] ∨ p.entered = walked ++ [.failed])
  /-- The drape is entered behind a check that answered OK, or a fixture. -/
  drape : State.drape ∈ p.entered → p.CheckOk ∨ p.FitFixture
  /-- Without `stop_after`, the run gets to `DONE` through all of its states. -/
  done (event : Event R) : (step shapes p event).opts.stopAfter = [] → p.state ≠ .done →
    (step shapes p event).state = .done →
    ∃ fitSkipped drapeSkipped,
      (step shapes p event).entered = phases fitSkipped drapeSkipped ++ [.done] ∧
      (fitSkipped = true → (step shapes p event).FitFixture) ∧
      (drapeSkipped = true → (step shapes p event).DrapeFixture)

/-! ### One frame -/

/-- The states whose handlers call the drape stage. -/
def calling : State → Bool
  | .fitBegin | .fitRead | .drape => true
  | _ => false

/-- What the pens have brought: the queue and its end, and what the curvenet stage has of it. -/
def pens (p : Pipeline R) : List (PenEvent R) × Bool × List (PenEvent R) × Bool :=
  (p.penQueue, p.penFinished, p.received, p.built)

/-- What a handler keeps up to its last step: the run so far, the fixtures, what stands for the
check, outside of `CHECK` its answer, where no handler calls the drape stage the calls, and outside
of `AUTHOR` what the pens have brought. -/
structure Kept (p q : Pipeline R) : Prop where
  opts : q.opts = p.opts
  state : q.state = p.state
  records : q.records = p.records
  entered : q.entered = p.entered
  fixtures : p.fixtures ⊆ q.fixtures
  stands : q.data.fitFixture = true ∨ q.data.fitCheckFixture = true →
    p.data.fitFixture = true ∨ p.data.fitCheckFixture = true ∨ q.FitFixture
  check : p.state = .check ∨ q.data.check = p.data.check
  draped : calling p.state = true ∨ q.draped = p.draped
  pens : p.state = .author ∨ q.pens = p.pens
  external : q.penExternal = p.penExternal

/-- A pipeline is kept by itself. -/
theorem Kept.refl (p : Pipeline R) : Kept p p where
  opts := rfl
  state := rfl
  records := rfl
  entered := rfl
  fixtures := List.Subset.refl _
  stands flags := flags.imp_right Or.inl
  check := Or.inr rfl
  draped := Or.inr rfl
  pens := Or.inr rfl
  external := rfl

/-- What is kept twice is kept. -/
theorem Kept.trans (first : Kept p q) (second : Kept q r) : Kept p r where
  opts := second.opts.trans first.opts
  state := second.state.trans first.state
  records := second.records.trans first.records
  entered := second.entered.trans first.entered
  fixtures := List.Subset.trans first.fixtures second.fixtures
  stands flags := by
    rcases second.stands flags with fit | check | fixture
    · exact (first.stands (Or.inl fit)).imp_right (Or.imp_right fun fixture => second.fixtures fixture)
    · exact (first.stands (Or.inr check)).imp_right (Or.imp_right fun fixture => second.fixtures fixture)
    · exact Or.inr (Or.inr fixture)
  check := by
    rcases second.check with check | check
    · exact Or.inl (first.state ▸ check)
    · exact first.check.imp_right check.trans
  draped := by
    rcases second.draped with calls | draped
    · exact Or.inl (first.state ▸ calls)
    · exact first.draped.imp_right draped.trans
  pens := by
    rcases second.pens with author | pens
    · exact Or.inl (first.state ▸ author)
    · exact first.pens.imp_right pens.trans
  external := second.external.trans first.external

/-- What a handler may not change before its last step. -/
def walk (p : Pipeline R) :
    Options × State × List Record × List State × List Text × Bool × Bool × Bool :=
  (p.opts, p.state, p.records, p.entered, p.fixtures, p.data.fitFixture, p.data.fitCheckFixture,
    p.penExternal)

/-- A frame that writes only what its phase may keeps the rest. -/
theorem Kept.of_walk (walk : q.walk = p.walk)
    (check : p.state = .check ∨ q.data.check = p.data.check)
    (draped : calling p.state = true ∨ q.draped = p.draped)
    (pens : p.state = .author ∨ q.pens = p.pens) : Kept p q := by
  simp only [Pipeline.walk, Prod.mk.injEq] at walk
  obtain ⟨opts, state, records, entered, fixtures, fitFixture, fitCheckFixture, external⟩ := walk
  refine ⟨opts, state, records, entered, fixtures ▸ List.Subset.refl _, fun flags => ?_, check,
    draped, pens, external⟩
  rw [fitFixture, fitCheckFixture] at flags
  exact flags.imp_right Or.inl

/-- Changes of other fields keep everything. -/
theorem Kept.of_eq (same : (q.walk, q.data.check, q.draped, q.pens)
    = (p.walk, p.data.check, p.draped, p.pens)) : Kept p q := by
  simp only [Prod.mk.injEq] at same
  exact .of_walk same.1 (Or.inr same.2.1) (Or.inr same.2.2.1) (Or.inr same.2.2.2)

/-- Where a handler calls the drape stage, changes of other fields keep everything. -/
theorem Kept.of_eq_calls (calls : calling p.state = true)
    (same : (q.walk, q.data.check, q.pens) = (p.walk, p.data.check, p.pens)) : Kept p q := by
  simp only [Prod.mk.injEq] at same
  exact .of_walk same.1 (Or.inr same.2.1) (Or.inl calls) (Or.inr same.2.2)

/-- In `AUTHOR`, changes of other fields than the run's keep everything. -/
theorem Kept.of_eq_author (author : p.state = .author)
    (same : (q.walk, q.data.check, q.draped) = (p.walk, p.data.check, p.draped)) : Kept p q := by
  simp only [Prod.mk.injEq] at same
  exact .of_walk same.1 (Or.inr same.2.1) (Or.inr same.2.2) (Or.inl author)

/-- One more fixture keeps everything, and is one of them. -/
theorem Kept.addFixture (p : Pipeline R) (key : Text) :
    Kept p (p.addFixture key) ∧ key ∈ (p.addFixture key).fixtures := by
  unfold Pipeline.addFixture
  split
  · next member => exact ⟨.refl p, member⟩
  · exact ⟨⟨rfl, rfl, rfl, rfl, List.subset_append_left _ _, fun flags => flags.imp_right Or.inl,
      Or.inr rfl, Or.inr rfl, Or.inr rfl, rfl⟩, by simp⟩

/-- Where a handler may go to from its state. -/
inductive Next (q : Pipeline R) : State → State → Prop where
  | rig : Next q .infer .rig
  | author : Next q .rig .author
  | mesh : Next q .author .mesh
  | fitBegin : Next q .mesh .fitBegin
  | fitRun : Next q .fitBegin .fitRun
  | fitSkipped (fixture : q.FitFixture) : Next q .fitBegin .fitRead
  | fitRead : Next q .fitRun .fitRead
  | check : Next q .fitRead .check
  | drape (checked : q.CheckOk ∨ q.FitFixture) : Next q .check .drape
  | drapeCollect : Next q .drape .drapeCollect
  | drapeSkipped (fixture : q.DrapeFixture) : Next q .drape .done
  | done : Next q .drapeCollect .done

/-- What a handler does: it stays in its state, it fails, or it goes on. -/
inductive Turn (p : Pipeline R) : Pipeline R → Prop where
  | stays (q : Pipeline R) (kept : Kept p q) : Turn p q
  | fails (q : Pipeline R) (kept : Kept p q) (clock : Clock) (why : Text) :
      Turn p (q.fail clock why)
  | goes (q : Pipeline R) (kept : Kept p q) (clock : Clock) (here next : State) (note : Text)
      (at_state : p.state = here) (may : Next q here next) : Turn p (q.goto clock next note)

/-- A turn may follow what is kept. -/
theorem Turn.of_kept (kept : Kept p q) (turn : Turn q r) : Turn p r := by
  cases turn with
  | stays _ later => exact .stays _ (kept.trans later)
  | fails before later clock why => exact .fails before (kept.trans later) clock why
  | goes before later clock here next note at_state may =>
    exact .goes before (kept.trans later) clock here next note (kept.state.symm.trans at_state) may

/-- How a stage runs: as it is, as a fixture that is noted, or not at all. -/
theorem mode_turn (p : Pipeline R) (clock : Clock) (key missing : Text) :
    p.mode clock key missing = (p, .real) ∨
      p.mode clock key missing = (p.addFixture key, .fixture) ∨
      ∃ why, p.mode clock key missing = (p.fail clock why, .stopped) := by
  unfold Pipeline.mode
  split
  · exact Or.inr (Or.inl rfl)
  · split
    · exact Or.inl rfl
    · split
      · exact Or.inr (Or.inl rfl)
      · exact Or.inr (Or.inr ⟨_, rfl⟩)

/-- A frame in `INFER` stays, fails or goes on. -/
theorem infer_turn (at_state : p.state = .infer) : Turn p (p.infer a) := by
  unfold Pipeline.infer
  dsimp only
  generalize (if a.infer.missing ≠ [] then a.infer.missing
    else "infer.elf has no pipeline path yet".toList) = missing
  rcases mode_turn p a.clock "infer".toList missing with mode | mode | ⟨why, mode⟩ <;>
    rw [mode] <;> dsimp only
  · split
    · exact .fails p (.refl p) _ _
    · exact .goes _ (.of_eq (by rfl)) _ _ _ _ at_state .rig
  · have kept := (Kept.addFixture p "infer".toList).1
    refine .of_kept kept ?_
    split
    · exact .fails _ (.refl _) _ _
    · exact .goes _ (.of_eq (by rfl)) _ _ _ _ (kept.state.trans at_state) .rig
  · exact .fails p (.refl p) _ _

/-- A frame in `RIG` stays, fails or goes on. -/
theorem rig_turn (at_state : p.state = .rig) : Turn p (p.rig a) := by
  unfold Pipeline.rig
  dsimp only
  generalize (if a.infer.missing ≠ [] then a.infer.missing
    else "infer.elf has no rig path yet".toList) = missing
  rcases mode_turn p a.clock "rig".toList missing with mode | mode | ⟨why, mode⟩ <;>
    rw [mode] <;> dsimp only
  · split
    · exact .fails p (.refl p) _ _
    · exact .goes _ (.of_eq (by rfl)) _ _ _ _ at_state .author
  · have kept := (Kept.addFixture p "rig".toList).1
    refine .of_kept kept ?_
    split
    · exact .fails _ (.refl _) _ _
    · exact .goes _ (.of_eq (by rfl)) _ _ _ _ (kept.state.trans at_state)
        .author
  · exact .fails p (.refl p) _ _

/-- The first frame in `AUTHOR` stays, fails or goes on. -/
theorem authorFirst_turn (at_state : p.state = .author) : Turn p (p.authorFirst shapes a) := by
  unfold Pipeline.authorFirst
  rcases mode_turn p a.clock "curvenet".toList a.curvenet.missing with mode | mode | ⟨why, mode⟩ <;>
    rw [mode] <;> dsimp only
  · split
    · exact .fails p (.refl p) _ _
    · split
      · exact .fails _ (.of_eq_author (by exact at_state) (by rfl)) _ _
      · split
        · exact .stays _ (.of_eq_author (by exact at_state) (by rfl))
        · exact .stays _ (.of_eq_author (by exact at_state) (by rfl))
  · have kept := (Kept.addFixture p "curvenet".toList).1
    refine .of_kept kept ?_
    split
    · exact .fails _ (.refl _) _ _
    · exact .goes _ (.of_eq (by rfl)) _ _ _ _ (kept.state.trans at_state)
        .mesh
  · exact .fails p (.refl p) _ _

/-- The loop over the pen events keeps the run, or fails it. -/
theorem authorEvents_turn (left n : Nat) (p : Pipeline R) (at_state : p.state = .author) :
    ((authorEvents a left n p).2 = true → Kept p (authorEvents a left n p).1) ∧
      ((authorEvents a left n p).2 = false → Turn p (authorEvents a left n p).1) := by
  induction left generalizing n p with
  | zero => exact ⟨fun _ => .refl p, nofun⟩
  | succ left inductionHypothesis =>
    have again {q : Pipeline R} (kept : Kept p q) :
        ((authorEvents a left (n + 1) q).2 = true → Kept p (authorEvents a left (n + 1) q).1) ∧
          ((authorEvents a left (n + 1) q).2 = false →
            Turn p (authorEvents a left (n + 1) q).1) := by
      have later := inductionHypothesis (n + 1) q (kept.state.trans at_state)
      exact ⟨fun on => kept.trans (later.1 on), fun off => .of_kept kept (later.2 off)⟩
    rw [authorEvents]
    split
    · exact ⟨fun _ => .refl p, nofun⟩
    next event later _ =>
      dsimp only
      split
      · split
        · exact ⟨nofun, fun _ => .fails _ (.of_eq_author (by exact at_state) (by rfl)) _ _⟩
        · split
          · exact ⟨nofun, fun _ => .fails _ (.of_eq_author (by exact at_state) (by rfl)) _ _⟩
          · exact again (.of_eq_author (by exact at_state) (by rfl))
      · exact again (.of_eq_author (by exact at_state) (by rfl))
      · split
        · exact ⟨nofun, fun _ => .fails _ (.of_eq_author (by exact at_state) (by rfl)) _ _⟩
        · exact ⟨fun _ => .of_eq_author (by exact at_state) (by rfl), nofun⟩

/-- A frame in `AUTHOR` stays, fails or goes on. -/
theorem author_turn (at_state : p.state = .author) (first : Bool) :
    Turn p (p.author shapes a first) := by
  unfold Pipeline.author
  split
  · exact authorFirst_turn at_state
  · obtain ⟨on, off⟩ := @authorEvents_turn R a penEventsPerFrame 0 p at_state
    split
    next q events => exact (events ▸ off) rfl
    next q events =>
      have kept : Kept p q := (events ▸ on) rfl
      split
      · exact .stays _ kept
      · have at_state := kept.state.trans at_state
        exact .of_kept kept (.goes _ (.of_eq_author (by exact at_state) (by rfl)) _ _ _ _ at_state .mesh)

/-- With a garment that is meshed `MESH` fails or goes on. -/
theorem meshDone_turn (at_state : p.state = .mesh) (garment : Garment R) (note : Text) :
    Turn p (p.meshDone shapes a garment note) := by
  unfold Pipeline.meshDone
  dsimp only
  split
  · exact .fails _ (.of_eq (by rfl)) _ _
  · exact .goes _ (.of_eq (by rfl)) _ _ _ _ at_state .fitBegin

/-- A frame in `MESH` stays, fails or goes on. -/
theorem mesh_turn (at_state : p.state = .mesh) (first : Bool) :
    Turn p (p.mesh shapes a first) := by
  unfold Pipeline.mesh
  split
  · exact meshDone_turn at_state _ _
  · split
    · split
      · exact .stays p (.refl p)
      · exact .fails p (.refl p) _ _
    · split
      · exact .stays p (.refl p)
      · split
        · exact .fails p (.refl p) _ _
        · split
          · exact .fails p (.refl p) _ _
          · exact meshDone_turn at_state _ _

/-- The avbd fit begins, or fails; its own record of the check's fixture stands for the fit's. -/
theorem fitBeginAvbd_turn (at_state : p.state = .fitBegin) (garment : Garment R) (fitElf : Mode)
    (noted : fitElf = .fixture → p.FitFixture) :
    Turn p (p.fitBeginAvbd shapes a garment fitElf) := by
  unfold Pipeline.fitBeginAvbd
  dsimp only
  generalize (if a.drape.missing ≠ [] then a.drape.missing
    else a.drape.fitApiMissing) = missing
  split
  · exact .fails p (.refl p) _ _
  · have kept : Kept p
        { p with data := { p.data with fitCheckFixture := fitElf == Mode.fixture } } :=
      ⟨rfl, rfl, rfl, rfl, List.Subset.refl _, fun flags => flags.imp_right fun check =>
        Or.inr (noted (by simpa using check)), Or.inr rfl, Or.inr rfl, Or.inr rfl, rfl⟩
    refine .of_kept kept ?_
    have calls : calling p.state = true := by
      rw [at_state]
      rfl
    unfold callDrape
    dsimp only
    split
    · exact .fails _ (.of_eq_calls (by exact calls) (by rfl)) _ _
    · split
      · exact .fails _ (.of_eq_calls (by exact calls) (by rfl)) _ _
      · split
        · exact .fails _ (.of_eq_calls (by exact calls) (by rfl)) _ _
        · exact .goes _ (.of_eq_calls (by exact calls) (by rfl)) _ _ _ _ at_state .fitRun

/-- A frame in `FIT_BEGIN` stays, fails or goes on. -/
theorem fitBegin_turn (at_state : p.state = .fitBegin) (first : Bool) :
    Turn p (p.fitBegin shapes a first) := by
  unfold Pipeline.fitBegin
  split
  · exact .stays p (.refl p)
  next garment _ =>
    split
    · rcases mode_turn p a.clock "fit".toList a.fit.missing with mode | mode | ⟨why, mode⟩ <;>
        rw [mode] <;> dsimp only
      · split
        · exact fitBeginAvbd_turn at_state garment _ nofun
        · rw [if_neg nofun]
          split
          · exact .fails p (.refl p) _ _
          · exact .stays p (.refl p)
      · obtain ⟨kept, noted⟩ := Kept.addFixture p "fit".toList
        have noted : (p.addFixture "fit".toList).FitFixture := noted
        refine .of_kept kept ?_
        have at_state := kept.state.trans at_state
        split
        · exact fitBeginAvbd_turn at_state garment _ fun _ => noted
        · rw [if_pos rfl]
          have skipped : Kept (p.addFixture "fit".toList)
              { p.addFixture "fit".toList with
                data := { (p.addFixture "fit".toList).data with fitFixture := true } } :=
            ⟨rfl, rfl, rfl, rfl, List.Subset.refl _, fun _ => Or.inr (Or.inr noted), Or.inr rfl,
              Or.inr rfl, Or.inr rfl, rfl⟩
          refine .of_kept skipped ?_
          split
          · split
            · exact .fails _ (.of_eq (by rfl)) _ _
            · split
              · exact .fails _ (.of_eq (by rfl)) _ _
              · exact .goes _ (.of_eq (by rfl)) _ _ _ _ at_state (.fitSkipped noted)
          · exact .goes _ (.of_eq (by rfl)) _ _ _ _ at_state (.fitSkipped noted)
      · exact .fails p (.refl p) _ _
    · split
      · exact .stays p (.refl p)
      · split
        · exact .fails _ (.of_eq (by rfl)) _ _
        · exact .goes _ (.of_eq (by rfl)) _ _ _ _ at_state .fitRun

/-- A frame in `FIT_RUN` stays, fails or goes on. -/
theorem fitRun_turn (at_state : p.state = .fitRun) (first : Bool) : Turn p (p.fitRun a first) := by
  unfold Pipeline.fitRun
  split
  · dsimp only
    split
    · exact .stays p (.refl p)
    · split
      · exact .fails p (.refl p) _ _
      · exact .goes p (.refl p) _ _ _ _ at_state .fitRead
  · split
    · exact .stays p (.refl p)
    · dsimp only
      have kept : Kept p (if first = true then p else { p with
          data := { p.data with fitPhases := p.data.fitPhases ++ [a.fit.poll.result] } }) := by
        split
        · exact .refl p
        · exact .of_eq (by rfl)
      generalize (if first = true then p else { p with
        data := { p.data with fitPhases := p.data.fitPhases ++ [a.fit.poll.result] } }) = q at kept ⊢
      split
      · exact .fails q kept _ _
      · split
        · exact .fails q kept _ _
        · split
          · exact .goes q kept _ _ _ _ at_state .fitRead
          · split
            · exact .stays q kept
            · exact .fails q kept _ _

/-- With a fit that is read `FIT_READ` fails or goes on. -/
theorem fitReadDone_turn (at_state : p.state = .fitRead) : Turn p (p.fitReadDone shapes a) := by
  unfold Pipeline.fitReadDone
  split
  · exact .stays p (.refl p)
  · split
    · exact .fails p (.refl p) _ _
    · split
      · exact .fails p (.refl p) _ _
      · exact .goes p (.refl p) _ _ _ _ at_state .check

/-- A frame in `FIT_READ` stays, fails or goes on. -/
theorem fitRead_turn (at_state : p.state = .fitRead) : Turn p (p.fitRead shapes a) := by
  unfold Pipeline.fitRead
  split
  · have calls : calling p.state = true := by
      rw [at_state]
      rfl
    exact .of_kept (.of_eq_calls (by exact calls) (by rfl)) (fitReadDone_turn at_state)
  · split
    · exact fitReadDone_turn at_state
    · split
      · exact .fails p (.refl p) _ _
      · exact .of_kept (.of_eq (by rfl)) (fitReadDone_turn at_state)

/-- In `CHECK`, changes of other fields than the run's keep everything. -/
theorem Kept.of_eq_check (at_state : p.state = .check) (opts : q.opts = p.opts := by rfl)
    (state : q.state = p.state := by rfl) (records : q.records = p.records := by rfl)
    (entered : q.entered = p.entered := by rfl) (fixtures : q.fixtures = p.fixtures := by rfl)
    (fitFixture : q.data.fitFixture = p.data.fitFixture := by rfl)
    (fitCheckFixture : q.data.fitCheckFixture = p.data.fitCheckFixture := by rfl)
    (draped : q.draped = p.draped := by rfl) (pens : q.pens = p.pens := by rfl)
    (external : q.penExternal = p.penExternal := by rfl) : Kept p q where
  opts := opts
  state := state
  records := records
  entered := entered
  fixtures := fixtures ▸ List.Subset.refl _
  stands flags := by
    rw [fitFixture, fitCheckFixture] at flags
    exact flags.imp_right Or.inl
  check := Or.inl at_state
  draped := Or.inr draped
  pens := Or.inr pens
  external := external

/-- With a garment to check `CHECK` fails or goes on. -/
theorem checkWith_turn (at_state : p.state = .check) (garment : List R) :
    Turn p (p.checkWith shapes a garment) := by
  unfold Pipeline.checkWith
  dsimp only
  generalize a.fit.check (if p.opts.flag "push_vertex".toList = true then
    shapes.pushVertex p.data.fitted p.data.joints else garment) = answer
  split
  · next ok =>
    exact .goes _ (.of_eq_check at_state) _ _ _ _ at_state (.drape (Or.inl ⟨_, rfl, ok⟩))
  · split
    · exact .fails _ (.of_eq_check at_state) _ _
    · exact .fails _ (.of_eq_check at_state) _ _

/-- The check goes on behind an answer, or behind a fixture that was noted. -/
theorem check_turn (at_state : p.state = .check)
    (noted : p.data.fitFixture = true ∨ p.data.fitCheckFixture = true → p.FitFixture) :
    Turn p (p.check shapes a) := by
  unfold Pipeline.check
  split
  · next flags =>
    exact .goes _ (.of_eq_check at_state) _ _ _ _ at_state
      (.drape (Or.inr (noted (by simpa using flags))))
  · split
    · exact checkWith_turn at_state _
    · split
      · exact .stays p (.refl p)
      · split
        · exact checkWith_turn at_state _
        · dsimp only
          split
          · exact .fails _ (.of_eq (by rfl)) _ _
          · refine .of_kept ?_ (checkWith_turn ?_ _)
            · exact .of_eq (by rfl)
            · exact at_state

/-- A frame in `DRAPE` stays, fails or goes on. -/
theorem drape_turn (at_state : p.state = .drape) : Turn p (p.drape shapes a) := by
  unfold Pipeline.drape
  dsimp only
  generalize (if a.drape.missing ≠ [] then a.drape.missing else a.drape.apiMissing) = missing
  rcases mode_turn p a.clock "drape".toList missing with mode | mode | ⟨why, mode⟩ <;>
    rw [mode] <;> dsimp only
  · split
    · exact .stays p (.refl p)
    · rw [if_neg nofun]
      have calls : calling p.state = true := by
        rw [at_state]
        rfl
      unfold callDrape
      dsimp only
      split
      · exact .fails _ (.of_eq_calls (by exact calls) (by rfl)) _ _
      · split
        · exact .fails _ (.of_eq_calls (by exact calls) (by rfl)) _ _
        · exact .goes _ (.of_eq_calls (by exact calls) (by rfl)) _ _ _ _ at_state .drapeCollect
  · obtain ⟨kept, noted⟩ := Kept.addFixture p "drape".toList
    refine .of_kept kept ?_
    split
    · exact .stays _ (.refl _)
    · rw [if_pos rfl]
      exact .goes _ (.refl _) _ _ _ _ (kept.state.trans at_state) (.drapeSkipped noted)
  · exact .fails p (.refl p) _ _

/-- A frame in `DRAPE_COLLECT` stays, fails or goes on. -/
theorem drapeCollect_turn (at_state : p.state = .drapeCollect) :
    Turn p (p.drapeCollect shapes a) := by
  unfold Pipeline.drapeCollect
  dsimp only
  split
  · exact .stays _ (.of_eq (by rfl))
  · split
    · exact .fails p (.refl p) _ _
    · split
      · exact .stays p (.refl p)
      · split
        · exact .fails p (.refl p) _ _
        · exact .goes _ (.of_eq (by rfl)) _ _ _ _ at_state .done

/-- A frame of a run takes a turn from the state it meets. -/
theorem process_turn (p : Pipeline R) (a : Answers R)
    (noted : p.data.fitFixture = true ∨ p.data.fitCheckFixture = true → p.FitFixture) :
    Turn p (p.process shapes a) := by
  unfold Pipeline.process
  split
  · exact .stays p (.refl p)
  · dsimp only
    refine .of_kept (q := { p with frames := p.frames + 1, first := false }) (.of_eq (by rfl)) ?_
    split
    · next at_state => exact infer_turn (by exact at_state)
    · next at_state => exact rig_turn (by exact at_state)
    · next at_state => exact author_turn (by exact at_state) p.first
    · next at_state => exact mesh_turn (by exact at_state) p.first
    · next at_state => exact fitBegin_turn (by exact at_state) p.first
    · next at_state => exact fitRun_turn (by exact at_state) p.first
    · next at_state => exact fitRead_turn (by exact at_state)
    · next at_state => exact check_turn (by exact at_state) noted
    · next at_state => exact drape_turn (by exact at_state)
    · next at_state => exact drapeCollect_turn (by exact at_state)
    all_goals exact .stays _ (.refl _)

/-! ### Whole runs -/

/-- The states that may follow one, before the end. -/
def after : State → List State
  | .infer => [.rig]
  | .rig => [.author]
  | .author => [.mesh]
  | .mesh => [.fitBegin]
  | .fitBegin => [.fitRun, .fitRead]
  | .fitRun => [.fitRead]
  | .fitRead => [.check]
  | .check => [.drape]
  | .drape => [.drapeCollect]
  | _ => []

/-- A walk along the states of a run goes on along them. Only the step over `FIT_RUN` makes it one
that skips the fit. -/
theorem walk_on : ∀ fitSkipped, ∀ walk ∈ (phases fitSkipped false).inits,
    ∀ here ∈ walk.getLast?, ∀ next ∈ after here,
      ∃ skipped, walk ++ [next] <+: phases skipped false ∧
        (skipped = true → fitSkipped = true ∨ here = .fitBegin ∧ next = .fitRead) := by
  decide

/-- A walk to the drape, and one to its end, are whole, and one to the check is before them. -/
theorem walk_whole : ∀ fitSkipped, ∀ walk ∈ (phases fitSkipped false).inits,
    (walk.getLast? = some .drape → walk = phases fitSkipped true) ∧
      (walk.getLast? = some .drapeCollect → walk = phases fitSkipped false) ∧
      (walk.getLast? = some .check → .drape ∉ walk) := by
  decide

/-- No state of a run is terminal. -/
theorem not_terminal_of_phases : ∀ fitSkipped, ∀ state ∈ phases fitSkipped false,
    state.terminal = false := by
  decide

/-- The states that were entered are those of the records and the present one. -/
structure Walked (p : Pipeline R) (fitSkipped : Bool) : Prop where
  entered : p.entered = p.records.map Record.state ++ [p.state]
  left : p.records.map Record.state <+: phases fitSkipped false
  present : p.state = .done ∨ p.state = .failed ∨
    p.records.map Record.state ++ [p.state] <+: phases fitSkipped false
  fixture : fitSkipped = true → p.FitFixture

/-- What every event keeps. -/
structure Good (p : Pipeline R) : Prop where
  walked : (p.state.terminal = true ∧ p.entered = [] ∧ p.records = []) ∨
    ∃ fitSkipped, Walked p fitSkipped
  noted : p.data.fitFixture = true ∨ p.data.fitCheckFixture = true → p.FitFixture
  drape : State.drape ∈ p.entered → p.CheckOk ∨ p.FitFixture

/-- `_goto` enters the phase that is asked for, or stops after the one that is cut at. -/
theorem goto_state (next : State) (note : Text) : (p.goto clock next note).state =
    if p.opts.stopAfter ≠ [] ∧ p.state.name = p.opts.stopAfter ∧ next ≠ .failed then .done
    else next := by
  unfold goto closeRecord
  dsimp only
  split <;> split <;> rfl

/-- Where nothing is cut `_goto` enters the phase that is asked for. -/
theorem goto_state_of_uncut (uncut : p.opts.stopAfter = []) (next : State) (note : Text) :
    (p.goto clock next note).state = next := by
  rw [goto_state, if_neg fun cut => cut.1 uncut]

/-- `_goto` notes the phase it enters. -/
theorem goto_entered (next : State) (note : Text) :
    (p.goto clock next note).entered = p.entered ++ [(p.goto clock next note).state] := by
  unfold goto closeRecord
  dsimp only
  split <;> split <;> rfl

/-- `_goto` keeps the options. -/
theorem goto_opts (next : State) (note : Text) : (p.goto clock next note).opts = p.opts := by
  unfold goto closeRecord
  dsimp only
  split <;> split <;> rfl

/-- `_goto` keeps the fixtures. -/
theorem goto_fixtures (next : State) (note : Text) :
    (p.goto clock next note).fixtures = p.fixtures := by
  unfold goto closeRecord
  dsimp only
  split <;> split <;> rfl

/-- `_goto` keeps the data. -/
theorem goto_data (next : State) (note : Text) : (p.goto clock next note).data = p.data := by
  unfold goto closeRecord
  dsimp only
  split <;> split <;> rfl

/-- A state that a run leaves has its record. -/
theorem goto_records (running : p.state.terminal = false) (next : State) (note : Text) :
    (p.goto clock next note).records.map Record.state
      = p.records.map Record.state ++ [p.state] := by
  unfold goto closeRecord
  dsimp only
  split <;> simp [running]

/-- A terminal state that a run leaves has none. -/
theorem goto_records_of_terminal (ended : p.state.terminal = true) (next : State) (note : Text) :
    (p.goto clock next note).records = p.records := by
  unfold goto
  dsimp only
  have same : (if note ≠ [] then { p with note := note } else p).state = p.state ∧
      (if note ≠ [] then { p with note := note } else p).records = p.records := by
    split <;> exact ⟨rfl, rfl⟩
  unfold closeRecord
  rw [if_pos (by rw [same.1]; exact ended)]
  exact same.2

/-- A handler's state that may be left goes on along the states of a run, or is its last one. -/
theorem Next.after {here next : State} (may : Next q here next) :
    next = .done ∨ next ∈ after here := by
  cases may <;> decide

/-- Only the fixture skips the fit. -/
theorem Next.fixture {here next : State} (may : Next q here next)
    (skips : here = .fitBegin ∧ next = .fitRead) : q.FitFixture := by
  obtain ⟨rfl, rfl⟩ := skips
  cases may with
  | fitSkipped fixture => exact fixture

/-- Only a check or a fixture leads to the drape. -/
theorem Next.checked {here : State} (may : Next q here .drape) : q.CheckOk ∨ q.FitFixture := by
  cases may with
  | drape checked => exact checked

/-- What is kept stays good. -/
theorem Good.of_kept (good : Good p) (kept : Kept p q) : Good q where
  walked := by
    rw [kept.state, kept.entered, kept.records]
    refine good.walked.imp_right fun ⟨fitSkipped, walked⟩ => ⟨fitSkipped, ?_⟩
    constructor
    · rw [kept.entered, kept.records, kept.state]
      exact walked.entered
    · rw [kept.records]
      exact walked.left
    · rw [kept.state, kept.records]
      exact walked.present
    · exact fun skipped => kept.fixtures (walked.fixture skipped)
  noted flags := by
    rcases kept.stands flags with fit | check | noted
    · exact kept.fixtures (good.noted (Or.inl fit))
    · exact kept.fixtures (good.noted (Or.inr check))
    · exact noted
  drape entered := by
    rw [kept.entered] at entered
    rcases kept.check with here | same
    · -- no run in `CHECK` has entered the drape
      rcases good.walked with ⟨ended, _, _⟩ | ⟨fitSkipped, walked⟩
      · rw [here] at ended
        cases ended
      · rcases walked.present with done | failed | walk
        · cases here.symm.trans done
        · cases here.symm.trans failed
        · rw [walked.entered] at entered
          refine absurd entered ((walk_whole fitSkipped _ ((List.mem_inits _ _).2 walk)).2.2 ?_)
          rw [List.getLast?_concat, here]
    · refine (good.drape entered).imp ?_ fun noted => kept.fixtures noted
      rintro ⟨answer, found, ok⟩
      exact ⟨answer, same.trans found, ok⟩

/-- A run that goes where it may goes on well. -/
theorem Good.goto (good : Good p) (running : p.state.terminal = false) {next : State}
    (may : next = .failed ∨ Next p p.state next) (note : Text) :
    Good (p.goto clock next note) where
  walked := by
    obtain ⟨ended, _, _⟩ | ⟨fitSkipped, walked⟩ := good.walked
    · rw [running] at ended
      cases ended
    have walk : p.records.map Record.state ++ [p.state] <+: phases fitSkipped false := by
      rcases walked.present with done | failed | walk
      · rw [done] at running
        cases running
      · rw [failed] at running
        cases running
      · exact walk
    have entered : (p.goto clock next note).entered =
        (p.goto clock next note).records.map Record.state
          ++ [(p.goto clock next note).state] := by
      rw [goto_entered, goto_records running, walked.entered]
    have ends (final : (p.goto clock next note).state = .done ∨
        (p.goto clock next note).state = .failed) : Walked (p.goto clock next note) fitSkipped :=
      ⟨entered, by rw [goto_records running]; exact walk, final.imp_right Or.inl, fun skipped => by
        rw [FitFixture, goto_fixtures]; exact walked.fixture skipped⟩
    right
    rw [goto_state] at ends
    split at ends
    · exact ⟨fitSkipped, ends (Or.inl rfl)⟩
    next uncut =>
      rcases may with failed | may
      · exact ⟨fitSkipped, ends (Or.inr failed)⟩
      · rcases may.after with done | on
        · exact ⟨fitSkipped, ends (Or.inl done)⟩
        · obtain ⟨skipped, goes_on, why⟩ := walk_on fitSkipped _ ((List.mem_inits _ _).2 walk) p.state
            List.getLast?_concat next on
          refine ⟨skipped, entered, ?_, ?_, fun skips => ?_⟩
          · rw [goto_records running]
            exact (List.prefix_append _ _).trans goes_on
          · rw [goto_records running, goto_state, if_neg uncut]
            exact Or.inr (Or.inr goes_on)
          · rw [FitFixture, goto_fixtures]
            exact (why skips).elim walked.fixture may.fixture
  noted flags := by
    rw [goto_data] at flags
    rw [FitFixture, goto_fixtures]
    exact good.noted flags
  drape entered := by
    have same : (p.goto clock next note).CheckOk ∨ (p.goto clock next note).FitFixture ↔
        p.CheckOk ∨ p.FitFixture := by
      rw [CheckOk, FitFixture, goto_data, goto_fixtures]
      rfl
    rw [same]
    rw [goto_entered, goto_state] at entered
    rcases List.mem_append.1 entered with before | now
    · exact good.drape before
    · split at now
      · cases List.mem_singleton.1 now
      · cases List.mem_singleton.1 now
        exact may.elim nofun Next.checked

/-- A failure is a good end. -/
theorem Good.fail (good : Good p) (running : p.state.terminal = false) (why : Text) :
    Good (p.fail clock why) := by
  unfold Pipeline.fail
  refine Good.goto ?_ ?_ (Or.inl rfl) _
  · exact good.of_kept (.of_eq (by rfl))
  · exact running

/-- A turn keeps the records in step with the phases. -/
theorem Good.turn (good : Good p) (running : p.state.terminal = false) (turn : Turn p q) :
    Good q := by
  cases turn with
  | stays _ kept => exact good.of_kept kept
  | fails before kept clock why => exact (good.of_kept kept).fail (by rwa [kept.state]) why
  | goes before kept clock here next note at_state may =>
    refine (good.of_kept kept).goto (by rwa [kept.state]) (Or.inr ?_) note
    rw [kept.state, at_state]
    exact may

/-- An ended pipeline does nothing in a frame. -/
theorem process_of_terminal (ended : p.state.terminal = true) : p.process shapes a = p :=
  if_pos ended

/-- A frame keeps the records in step with the phases. -/
theorem Good.process (good : Good p) : Good (p.process shapes a) := by
  cases ended : p.state.terminal with
  | true => rwa [process_of_terminal ended]
  | false => exact good.turn ended (process_turn p a good.noted)

/-- The options alone decide nothing. -/
theorem Good.set_opts (good : Good p) (opts : Options) : Good { p with opts := opts } where
  walked := good.walked.imp_right fun ⟨fitSkipped, walked⟩ =>
    ⟨fitSkipped, walked.entered, walked.left, walked.present, walked.fixture⟩
  noted := good.noted
  drape := good.drape

/-- What the pens bring decides nothing. -/
theorem Good.set_pens (good : Good p) (queue : List (PenEvent R)) (finished : Bool) :
    Good { p with penQueue := queue, penFinished := finished } where
  walked := good.walked.imp_right fun ⟨fitSkipped, walked⟩ =>
    ⟨fitSkipped, walked.entered, walked.left, walked.present, walked.fixture⟩
  noted := good.noted
  drape := good.drape

/-- Who feeds the pens decides nothing. -/
theorem Good.of_external (good : Good p) (external : Bool) :
    Good { p with penExternal := external } where
  walked := good.walked.imp_right fun ⟨fitSkipped, walked⟩ =>
    ⟨fitSkipped, walked.entered, walked.left, walked.present, walked.fixture⟩
  noted := good.noted
  drape := good.drape

/-- A run begins well from nothing. -/
theorem good_of_infer (ended : p.state.terminal = true) (records : p.records = [])
    (entered : p.entered = []) (fitFixture : p.data.fitFixture = false)
    (fitCheckFixture : p.data.fitCheckFixture = false) : Good (p.goto clock .infer []) where
  walked := by
    refine Or.inr ⟨false, ?_, ?_, ?_, nofun⟩
    · rw [goto_entered, goto_records_of_terminal ended, records, entered]
      rfl
    · rw [goto_records_of_terminal ended, records]
      exact List.nil_prefix
    · rw [goto_records_of_terminal ended, records, goto_state]
      split
      · exact Or.inl rfl
      · exact Or.inr (Or.inr (by decide))
  noted flags := by
    rw [goto_data, fitFixture, fitCheckFixture] at flags
    exact absurd flags (by decide)
  drape drape := by
    rw [goto_entered, goto_state, entered] at drape
    split at drape <;> exact absurd drape (by decide)

/-- A start that is let in forgets the run before. -/
theorem Good.start (good : Good p) (workerBusy : Bool) (given : Options) :
    Good (p.start clock workerBusy given).1 := by
  unfold Pipeline.start
  split
  · exact good
  next idle =>
    have idle : p.state.terminal = true := by simpa using idle
    split
    · exact good
    · dsimp only
      split
      · exact good.set_opts _
      · split
        · exact good.set_opts _
        · split
          · exact ⟨Or.inl ⟨idle, rfl, rfl⟩, nofun, nofun⟩
          · exact good_of_infer idle rfl rfl rfl rfl

/-- A fresh pipeline is good. -/
theorem good_fresh : Good (fresh : Pipeline R) :=
  ⟨Or.inl ⟨rfl, rfl, rfl⟩, nofun, nofun⟩

/-- An event keeps the records in step with the phases. -/
theorem Good.step (good : Good p) (event : Event R) : Good (step shapes p event) := by
  cases event with
  | start clock workerBusy given => exact good.start workerBusy given
  | frame answers => exact good.process
  | penEvent event => exact good.set_pens _ _
  | penFinish => exact good.set_pens _ _

/-- After any events the records are in step with the phases. -/
theorem good_of_events (shapes : Shapes R) (events : List (Event R)) :
    Good (events.foldl (Pipeline.step shapes) fresh) := by
  suffices run : ∀ p : Pipeline R, Good p → Good (events.foldl (Pipeline.step shapes) p) from
    run fresh good_fresh
  induction events with
  | nil => exact fun p good => good
  | cons event rest inductionHypothesis =>
    exact fun p good => inductionHypothesis _ (good.step event)

/-- Only the drape leads to `DONE`, where no `stop_after` does. -/
theorem done_of_process (good : Good p) (uncut : (p.process shapes a).opts.stopAfter = [])
    (before : p.state ≠ .done) (done : (p.process shapes a).state = .done) :
    ∃ fitSkipped drapeSkipped,
      (p.process shapes a).entered = phases fitSkipped drapeSkipped ++ [.done] ∧
      (fitSkipped = true → (p.process shapes a).FitFixture) ∧
      (drapeSkipped = true → (p.process shapes a).DrapeFixture) := by
  cases ended : p.state.terminal with
  | true =>
    rw [process_of_terminal ended] at done
    exact absurd done before
  | false =>
    have turn : Turn p (p.process shapes a) := process_turn p a good.noted
    generalize p.process shapes a = q at uncut done turn ⊢
    cases turn with
    | stays _ kept => exact absurd (kept.state.symm.trans done) before
    | fails q kept clock why =>
      unfold Pipeline.fail at done
      rw [goto_state, if_neg fun cut => cut.2.2 rfl] at done
      cases done
    | goes q kept clock here next note at_state may =>
      rw [goto_opts] at uncut
      have lands := @goto_state_of_uncut R q clock uncut next note
      rw [lands] at done
      subst done
      obtain ⟨gone, _, _⟩ | ⟨fitSkipped, walked⟩ := (good.of_kept kept).walked
      · rw [kept.state, ended] at gone
        cases gone
      have state : q.state = here := kept.state.trans at_state
      have walk : q.records.map Record.state ++ [here] <+: phases fitSkipped false := by
        rcases walked.present with done | failed | walk
        · rw [← kept.state, done] at ended
          cases ended
        · rw [← kept.state, failed] at ended
          cases ended
        · rwa [state] at walk
      obtain ⟨to_drape, to_collect, _⟩ :=
        walk_whole fitSkipped _ ((List.mem_inits _ _).2 walk)
      rw [goto_entered, lands, walked.entered, state, FitFixture, DrapeFixture, goto_fixtures]
      cases may with
      | drapeSkipped noted =>
        exact ⟨fitSkipped, true, by rw [to_drape List.getLast?_concat], walked.fixture,
          fun _ => noted⟩
      | done =>
        exact ⟨fitSkipped, false, by rw [to_collect List.getLast?_concat], walked.fixture, nofun⟩

/-- A start stays in its state, or goes to the first one of a run. -/
theorem start_goes (workerBusy : Bool) (given : Options) :
    (p.start clock workerBusy given).1.state = p.state ∨
      ∃ q : Pipeline R, (p.start clock workerBusy given).1 = q.goto clock .infer [] := by
  unfold Pipeline.start
  split
  · exact Or.inl rfl
  · split
    · exact Or.inl rfl
    · dsimp only
      split
      · exact Or.inl rfl
      · split
        · exact Or.inl rfl
        · split
          · exact Or.inl rfl
          · exact Or.inr ⟨_, rfl⟩

/-- A start without `stop_after` does not get to `DONE`. -/
theorem start_not_done (workerBusy : Bool) (given : Options)
    (uncut : (p.start clock workerBusy given).1.opts.stopAfter = [])
    (before : p.state ≠ .done) : (p.start clock workerBusy given).1.state ≠ .done := by
  rcases @start_goes R p clock workerBusy given with same | ⟨q, goes⟩
  · rwa [same]
  · rw [goes, goto_opts] at uncut
    rw [goes, goto_state_of_uncut uncut]
    nofun

/-- The states that are recorded are those that were entered and left. -/
theorem Walked.records {fitSkipped : Bool} (walked : Walked p fitSkipped) :
    p.entered.filter (fun state => !state.terminal)
      = p.records.map Record.state ++ if p.state.terminal then [] else [p.state] := by
  have recorded : (p.records.map Record.state).filter (fun state => !state.terminal)
      = p.records.map Record.state := by
    refine List.filter_eq_self.2 fun state member => ?_
    simp [not_terminal_of_phases fitSkipped state (walked.left.subset member)]
  rw [walked.entered, List.filter_append, recorded]
  cases ended : p.state.terminal <;> simp [ended]

/-- The states that were entered are the first ones of a run, then its end. -/
theorem Walked.path {fitSkipped : Bool} (walked : Walked p fitSkipped) :
    ∃ walk, walk <+: phases fitSkipped false ∧
      (p.entered = walk ∨ p.entered = walk ++ [.done] ∨ p.entered = walk ++ [.failed]) := by
  have entered := walked.entered
  rcases walked.present with done | failed | walk
  · rw [done] at entered
    exact ⟨_, walked.left, Or.inr (Or.inl entered)⟩
  · rw [failed] at entered
    exact ⟨_, walked.left, Or.inr (Or.inr entered)⟩
  · exact ⟨_, walk, Or.inl entered⟩

/-- In every run of the pipeline, with any answers of its stages, the records follow the states. -/
theorem records_follow (shapes : Shapes R) (events : List (Event R)) :
    Ran shapes (events.foldl (Pipeline.step shapes) fresh) := by
  have good := good_of_events shapes events
  generalize events.foldl (Pipeline.step shapes) fresh = p at good ⊢
  constructor
  · rcases good.walked with ⟨ended, entered, records⟩ | ⟨_, walked⟩
    · rw [entered, records, ended]
      rfl
    · exact walked.records
  · rcases good.walked with ⟨_, entered, _⟩ | ⟨_, walked⟩
    · exact Or.inl entered
    · rw [walked.entered]
      exact Or.inr List.getLast?_concat
  · rcases good.walked with ⟨_, entered, _⟩ | ⟨fitSkipped, walked⟩
    · exact ⟨false, [], List.nil_prefix, nofun, Or.inl entered⟩
    · obtain ⟨walk, along, path⟩ := walked.path
      exact ⟨fitSkipped, walk, along, walked.fixture, path⟩
  · exact good.drape
  · intro event uncut before done
    cases event with
    | start clock workerBusy given => exact absurd done (start_not_done workerBusy given uncut before)
    | frame answers => exact done_of_process good uncut before done
    | penEvent event => exact absurd done before
    | penFinish => exact absurd done before

end DressOn.Host.Pipeline
