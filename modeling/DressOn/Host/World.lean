import DressOn.Host.Guest
import DressOn.Host.Records

/-!
# The pipeline with its drape stage

The pipeline, the drape stage and the guest in the stage's sandbox as one machine. The pipeline's
frames and the stage's frames come in any order.
-/

namespace DressOn.Host

open DressOn.Texts

variable {R : Type} (shapes : Shapes R) (below : Outside R)

/-- The drape stage. -/
structure DrapeStage (R : Type) where
  /-- `_drape_status`. -/
  status : Text
  guest : Guest R

namespace DrapeStage

/-- The stage with its sandbox just loaded. -/
def booted : DrapeStage R := ⟨"IDLE no session".toList, .booted shapes.floats⟩

/-- The parameters of a capsule. -/
def capsuleParams (shape : Capsule R) (scale mu : ℚ) : List R :=
  let (bx, by_, bz) := shape.bottom
  let (ax, ay, az) := shape.axis
  shapes.scaled [bx, by_, bz] scale ++ [ax, ay, az]
    ++ shapes.scaled [shape.radius, shape.length] scale ++ [shapes.floats.ofRat mu]

/-- A number as a whole number, cut towards zero. -/
def toInt (value : ℚ) : Int := value.num.tdiv value.den

/-- A call on the guest. -/
def guestCall (g : Guest R) : DrapeCall R → Guest R × Text
  | .open backend => g.drapeOpen backend
  | .clear => g.drapePrimitive shapes.floats below "clear".toList []
  | .mesh positions triangles skin mu band depth =>
    g.drapePrimitiveMesh shapes.floats below positions triangles
      ([skin, mu, band, depth].map shapes.floats.ofRat)
  | .capsule shape scale mu =>
    g.drapePrimitive shapes.floats below "capsule".toList (capsuleParams shapes shape scale mu)
  | .config key value => g.drapeConfig shapes.floats below key (shapes.floats.ofRat value)
  | .sceneMesh positions triangles pins =>
    g.drapeSceneMesh shapes.floats below positions triangles pins []
  | .fitSet verts params anchor =>
    g.drapeFitSet shapes.floats verts (params.map shapes.floats.ofRat) anchor
  | .queueFit steps tol =>
    g.drapeQueueFit shapes.floats below (toInt steps) (shapes.floats.ofRat tol)
  | .queueForward steps => g.drapeQueueForward shapes.floats below (toInt steps)

/-- A call on the stage: a queued operation sets it running. -/
def call (stage : DrapeStage R) (made : DrapeCall R) : DrapeStage R × Text :=
  match guestCall shapes below stage.guest made with
  | (g, answer) =>
    (⟨if beginsWith answer "QUEUED".toList then "RUNNING".toList else stage.status, g⟩, answer)

/-- The stage after some calls. -/
def after (stage : DrapeStage R) (calls : List (DrapeCall R)) : DrapeStage R :=
  calls.foldl (fun stage made => (stage.call shapes below made).1) stage

/-- The answer to the last of some calls. -/
def answer (stage : DrapeStage R) (calls : List (DrapeCall R)) : Text :=
  match calls.getLast? with
  | none => []
  | some made => ((stage.after shapes below calls.dropLast).call shapes below made).2

/-- `_process`. -/
def process (stage : DrapeStage R) (outcomes : List (Outcome R)) : DrapeStage R :=
  if beginsWith stage.status "IDLE".toList || beginsWith stage.status "FAIL".toList then stage
  else
    match stage.guest.drapeTick shapes.floats outcomes with
    | (g, status) => ⟨status, g⟩

end DrapeStage

/-- The pipeline and its drape stage. -/
structure World (R : Type) where
  pipeline : Pipeline R
  stage : DrapeStage R

/-- What happens in the host. -/
inductive Happening (R : Type) where
  /-- An event of the pipeline, with what its calls on the stage meet. -/
  | host (event : Pipeline.Event R) (below : Outside R)
  /-- A frame of the stage, with what its stages meet. -/
  | stage (outcomes : List (Outcome R))

namespace World

/-- The host as it starts. -/
def booted : World R := ⟨.fresh, .booted shapes⟩

/-- A frame's answers, with those of the stage. -/
def answered (w : World R) (a : Answers R) : Answers R :=
  { a with
    drape := { a.drape with
      call := w.stage.answer shapes below
      status := w.stage.status
      positions := w.stage.guest.drapePositions } }

/-- An event of the pipeline, with the stage's answers in it. -/
def heard (w : World R) : Pipeline.Event R → Pipeline.Event R
  | .frame a => .frame (w.answered shapes below a)
  | event => event

/-- The world after something happened. -/
def step (w : World R) : Happening R → World R
  | .host event below =>
    let p := w.pipeline.step shapes (w.heard shapes below event)
    ⟨p, w.stage.after shapes below (p.draped.drop w.pipeline.draped.length)⟩
  | .stage outcomes => ⟨w.pipeline, w.stage.process shapes outcomes⟩

end World

/-! ### Into the drape -/

namespace Pipeline

variable {p : Pipeline R} {a : Answers R} {clock : Clock} {shapes}

/-- `_goto` makes no drape call. -/
theorem goto_draped (next : State) (note : Text) :
    (p.goto clock next note).draped = p.draped := by
  unfold goto closeRecord
  dsimp only
  split <;> split <;> rfl

/-- Only a failure goes to `FAILED`, whatever `stop_after` says. -/
theorem fail_state (why : Text) : (p.fail clock why).state = .failed := by
  unfold fail
  rw [goto_state, if_neg fun cut => cut.2.2 rfl]

/-- A failure makes no drape call. -/
theorem fail_draped (why : Text) : (p.fail clock why).draped = p.draped := by
  unfold fail
  rw [goto_draped]

/-- A frame that moves a run on moves it where its state may go. -/
theorem next_of_process (good : Good p) {next : State} (running : next.terminal = false)
    (before : p.state ≠ next) (now : (p.process shapes a).state = next) :
    ∃ q : Pipeline R, Next q p.state next := by
  cases ended : p.state.terminal with
  | true =>
    rw [process_of_terminal ended] at now
    exact absurd now before
  | false =>
    have turn : Turn p (p.process shapes a) := process_turn p a good.noted
    generalize p.process shapes a = q at now turn
    cases turn with
    | stays _ kept => exact absurd (kept.state.symm.trans now) before
    | fails q kept clock why =>
      cases (fail_state why).symm.trans now
      cases running
    | goes q kept clock here next' note at_state may =>
      rw [goto_state] at now
      split at now
      · cases now
        cases running
      · subst now at_state
        exact ⟨q, may⟩

/-- Only `DRAPE` leads to `DRAPE_COLLECT`. -/
theorem drape_of_collect (good : Good p) (before : p.state ≠ .drapeCollect)
    (now : (p.process shapes a).state = .drapeCollect) : p.state = .drape := by
  obtain ⟨q, may⟩ := next_of_process good rfl before now
  generalize p.state = here at may ⊢
  cases may with
  | drapeCollect => rfl

/-- No frame changes the options. -/
theorem process_opts (good : Good p) : (p.process shapes a).opts = p.opts := by
  have turn : Turn p (p.process shapes a) := process_turn p a good.noted
  generalize p.process shapes a = q at turn
  cases turn with
  | stays _ kept => exact kept.opts
  | fails q kept clock why => exact (goto_opts _ _).trans kept.opts
  | goes q kept clock here next note at_state may => exact (goto_opts _ _).trans kept.opts

/-- Outside of the fit's ends and the drape, no frame calls the drape stage. -/
theorem process_draped (good : Good p) (silent : calling p.state = false) :
    (p.process shapes a).draped = p.draped := by
  have turn : Turn p (p.process shapes a) := process_turn p a good.noted
  generalize p.process shapes a = q at turn
  have draped {q : Pipeline R} (kept : Kept p q) : q.draped = p.draped :=
    kept.draped.resolve_left fun calls => absurd (silent.symm.trans calls) nofun
  cases turn with
  | stays _ kept => exact draped kept
  | fails q kept clock why => exact (fail_draped why).trans (draped kept)
  | goes q kept clock here next note at_state may => exact (goto_draped _ _).trans (draped kept)

/-- What `_drape` did where it went to `DRAPE_COLLECT`. -/
structure QueuedDrape (shapes : Shapes R) (p : Pipeline R) (a : Answers R) (garment : Garment R)
    (q : Pipeline R) : Prop where
  found : p.data.garment = some garment
  taken : refused ((List.range (drapeSetup shapes p.opts p.data garment).length).map fun n =>
    a.drape.call ((drapeSetup shapes p.opts p.data garment).take (n + 1))) = none
  queued : beginsWith (a.drape.call (drapeSetup shapes p.opts p.data garment
    ++ [.queueForward (p.opts.number "drape_steps".toList)])) "QUEUED".toList = true
  draped : q.draped = p.draped ++ (drapeSetup shapes p.opts p.data garment
    ++ [.queueForward (p.opts.number "drape_steps".toList)])
  opts : q.opts = p.opts
  data : q.data = p.data

/-- Where `DRAPE` turns to its collection the drape has been queued. -/
theorem queued_of_drape (now : (p.drape shapes a).state = .drapeCollect)
    (at_state : p.state = .drape) : ∃ garment, QueuedDrape shapes p a garment (p.drape shapes a) := by
  unfold Pipeline.drape at now ⊢
  dsimp only at now ⊢
  generalize (if a.drape.missing ≠ [] then a.drape.missing else a.drape.apiMissing) = missing
    at now ⊢
  rcases mode_turn p a.clock "drape".toList missing with mode | mode | ⟨why, mode⟩ <;>
    rw [mode] at now ⊢ <;> dsimp only at now ⊢
  · cases garment : p.data.garment with
    | none =>
      rw [garment] at now
      cases at_state.symm.trans now
    | some made =>
      rw [garment] at now
      dsimp only at now ⊢
      rw [if_neg nofun] at now ⊢
      unfold callDrape at now ⊢
      dsimp only at now ⊢
      split at now
      · cases (fail_state _).symm.trans now
      next taken =>
        split at now
        · cases (fail_state _).symm.trans now
        next queued =>
          rw [if_neg queued]
          refine ⟨made, garment, taken, by simpa using queued, ?_, goto_opts _ _, goto_data _ _⟩
          rw [goto_draped]
          exact List.append_assoc _ _ _
  · split at now
    · have kept := (Kept.addFixture p "drape".toList).1
      cases (kept.state.trans at_state).symm.trans now
    · rw [if_pos rfl, goto_state] at now
      split at now <;> cases now
  · cases (fail_state why).symm.trans now

/-- A frame in `DRAPE` is that phase's. -/
theorem process_of_drape (at_state : p.state = .drape) : p.process shapes a
    = Pipeline.drape shapes { p with frames := p.frames + 1, first := false } a := by
  unfold Pipeline.process
  rw [if_neg (by rw [at_state]; nofun)]
  dsimp only
  rw [at_state]

/-- A frame that turns from `DRAPE` to its collection has queued the drape. -/
theorem queued_of_process (at_state : p.state = .drape)
    (now : (p.process shapes a).state = .drapeCollect) :
    ∃ garment, QueuedDrape shapes p a garment (p.process shapes a) := by
  rw [process_of_drape at_state] at now ⊢
  obtain ⟨garment, queued⟩ := queued_of_drape now at_state
  exact ⟨garment, queued.found, queued.taken, queued.queued, queued.draped, queued.opts,
    queued.data⟩

/-- A frame in `DRAPE_COLLECT` is that phase's. -/
theorem process_of_collect (at_state : p.state = .drapeCollect) : p.process shapes a
    = Pipeline.drapeCollect shapes { p with frames := p.frames + 1, first := false } a := by
  unfold Pipeline.process
  rw [if_neg (by rw [at_state]; nofun)]
  dsimp only
  rw [at_state]

/-- What a frame of `DRAPE_COLLECT` leaves alone. -/
structure CollectKept (p q : Pipeline R) : Prop where
  opts : q.opts = p.opts
  garment : q.data.garment = p.data.garment
  draped : q.draped = p.draped
  bodies (shapes : Shapes R) :
    drapeBodies shapes q.opts q.data = drapeBodies shapes p.opts p.data

/-- `_goto` keeps what is collected. -/
theorem CollectKept.goto {q : Pipeline R} (collected : CollectKept p q) (next : State) (note : Text) :
    CollectKept p (q.goto clock next note) where
  opts := (goto_opts next note).trans collected.opts
  garment := (congrArg _ (goto_data next note)).trans collected.garment
  draped := (goto_draped next note).trans collected.draped
  bodies shapes := by
    rw [goto_opts, goto_data]
    exact collected.bodies shapes

/-- A failure keeps what is collected. -/
theorem CollectKept.fail {q : Pipeline R} (collected : CollectKept p q) (why : Text) :
    CollectKept p (q.fail clock why) := by
  unfold Pipeline.fail
  refine CollectKept.goto ?_ _ _
  exact ⟨collected.opts, collected.garment, collected.draped, collected.bodies⟩

/-- A frame of `DRAPE_COLLECT`: it waits, it fails, or it is done with the positions. -/
theorem collect_cases (at_state : p.state = .drapeCollect) {garment : Garment R}
    (found : p.data.garment = some garment) :
    CollectKept p (p.process shapes a) ∧
      ((beginsWith a.drape.status "RUNNING".toList = true ∧
          (p.process shapes a).state = .drapeCollect) ∨
        (beginsWith a.drape.status "RUNNING".toList = false ∧
          (p.process shapes a).state = .failed) ∨
        (beginsWith a.drape.status "RUNNING".toList = false ∧
          a.drape.positions.all shapes.floats.finite = true ∧
          (p.process shapes a).state = .done)) := by
  rw [process_of_collect at_state]
  unfold Pipeline.drapeCollect
  dsimp only
  split
  next running => exact ⟨⟨rfl, rfl, rfl, fun _ => rfl⟩, Or.inl ⟨running, at_state⟩⟩
  next idle =>
    have idle : beginsWith a.drape.status "RUNNING".toList = false := by simpa using idle
    split
    · exact ⟨.fail (by exact ⟨rfl, rfl, rfl, fun _ => rfl⟩) _, Or.inr (Or.inl ⟨idle, fail_state _⟩)⟩
    · rw [found]
      dsimp only
      split
      · exact ⟨.fail (by exact ⟨rfl, rfl, rfl, fun _ => rfl⟩) _, Or.inr (Or.inl ⟨idle, fail_state _⟩)⟩
      next whole =>
        refine ⟨.goto (by exact ⟨rfl, found.symm, rfl, fun _ => rfl⟩) _ _,
          Or.inr (Or.inr ⟨idle, by simpa using (not_or.1 whole).2, ?_⟩)⟩
        rw [goto_state]
        split <;> rfl

end Pipeline

/-! ### The answers of the stage -/

namespace DrapeStage

variable {shapes below} {stage : DrapeStage R}

/-- Two lists of calls are made one after the other. -/
theorem after_append (calls later : List (DrapeCall R)) :
    stage.after shapes below (calls ++ later)
      = (stage.after shapes below calls).after shapes below later :=
  List.foldl_append

/-- The answer is that of the last call. -/
theorem answer_concat (calls : List (DrapeCall R)) (made : DrapeCall R) :
    stage.answer shapes below (calls ++ [made])
      = ((stage.after shapes below calls).call shapes below made).2 := by
  unfold answer
  rw [List.getLast?_concat, List.dropLast_concat]

/-- Of a setup that is not refused, no answer begins with FAIL or BUSY. -/
theorem taken_of_not_refused {answers : List Text} (taken : Pipeline.refused answers = none)
    {answer : Text} (member : answer ∈ answers) :
    beginsWith answer "FAIL".toList = false ∧ beginsWith answer "BUSY".toList = false := by
  have not_refused := List.find?_eq_none.1 taken answer member
  simpa only [Bool.not_eq_true, Bool.or_eq_false_iff] using not_refused

/-- The drape's setup up to its scene. -/
def drapeFront (shapes : Shapes R) (opts : Options) (data : Collected R) : List (DrapeCall R) :=
  [.open (opts.text "drape_backend".toList), .clear] ++ Pipeline.drapeBodies shapes opts data
    ++ [.config "gravityY".toList (-(98 / 10) * opts.number "drape_scale".toList)]

/-- The drape's scene. -/
def drapeScene (shapes : Shapes R) (opts : Options) (data : Collected R) (garment : Garment R) :
    DrapeCall R :=
  .sceneMesh (shapes.scaled data.fitted (opts.number "drape_scale".toList)) garment.triangles
    (Pipeline.waistLoop shapes data.fitted garment.triangles)

/-- The set-up of a drape is its front and then the scene. -/
theorem drapeSetup_eq (opts : Options) (data : Collected R) (garment : Garment R) :
    Pipeline.drapeSetup shapes opts data garment
      = drapeFront shapes opts data ++ [drapeScene shapes opts data garment] :=
  (List.append_assoc ([.open (opts.text "drape_backend".toList), .clear]
    ++ Pipeline.drapeBodies shapes opts data) [_] [_]).symm

/-- The scene of a setup that is not refused is loaded, with the settings and the primitives from
before it. -/
theorem loaded_of_setup {opts : Options} {data : Collected R} {garment : Garment R}
    (taken : Pipeline.refused ((List.range (Pipeline.drapeSetup shapes opts data garment).length).map
      fun n => stage.answer shapes below
        ((Pipeline.drapeSetup shapes opts data garment).take (n + 1))) = none) :
    ∃ s, (stage.after shapes below (Pipeline.drapeSetup shapes opts data garment)).guest.Loaded s ∧
      (stage.after shapes below (Pipeline.drapeSetup shapes opts data garment)).guest.cfg
        = (stage.after shapes below (drapeFront shapes opts data)).guest.cfg ∧
      (stage.after shapes below (Pipeline.drapeSetup shapes opts data garment)).guest.scene.prims
        = (stage.after shapes below (drapeFront shapes opts data)).guest.scene.prims ∧
      (stage.after shapes below (Pipeline.drapeSetup shapes opts data garment)).guest.sceneSet
        = true := by
  rw [drapeSetup_eq] at taken ⊢
  have last := taken_of_not_refused taken (List.mem_map.2
    ⟨(drapeFront shapes opts data).length, List.mem_range.2 (by simp), rfl⟩)
  rw [List.take_of_length_le (by simp), answer_concat] at last
  rw [after_append]
  exact Guest.drapeSceneMesh_taken last.1 last.2

/-- A forward that is queued behind a load sets the stage running. -/
theorem call_queueForward {s : Session R} {steps : ℚ} (loaded : stage.guest.Loaded s)
    (set : stage.guest.sceneSet = true)
    (queued : beginsWith (stage.call shapes below (.queueForward steps)).2 "QUEUED".toList = true) :
    (stage.call shapes below (.queueForward steps)).1 = ⟨"RUNNING".toList,
      { stage.guest with
        session := some { s with
          queue := [.forward (toInt steps).toNat], total := s.total + 1 } }⟩ := by
  obtain ⟨-, after⟩ := Guest.drapeQueueForward_queued loaded set queued
  unfold call at queued ⊢
  dsimp only at queued ⊢
  rw [if_pos queued]
  exact congrArg _ after

end DrapeStage

namespace World

variable {shapes below} {w : World R}

/-- The stage after an event is the one after the event's calls. -/
theorem step_stage {event : Pipeline.Event R} {calls : List (DrapeCall R)}
    (made : (w.pipeline.step shapes (w.heard shapes below event)).draped
      = w.pipeline.draped ++ calls) :
    (w.step shapes (.host event below)).stage = w.stage.after shapes below calls := by
  unfold step
  dsimp only
  rw [made, List.drop_left]

/-- An event that makes no call leaves the stage alone. -/
theorem step_stage_of_draped {event : Pipeline.Event R}
    (same : (w.pipeline.step shapes (w.heard shapes below event)).draped = w.pipeline.draped) :
    (w.step shapes (.host event below)).stage = w.stage :=
  @step_stage R shapes below w event [] (same.trans (List.append_nil _).symm)

/-- A run is in `DRAPE_COLLECT` behind an event: it was there and has kept its drape, or it has
queued it in a frame of `DRAPE`. -/
theorem collect_of_step (good : w.pipeline.Good)
    (found : w.pipeline.state = .drapeCollect → ∃ garment, w.pipeline.data.garment = some garment)
    {event : Pipeline.Event R}
    (now : (w.pipeline.step shapes (w.heard shapes below event)).state = .drapeCollect) :
    (w.pipeline.state = .drapeCollect ∧ Pipeline.CollectKept w.pipeline
        (w.pipeline.step shapes (w.heard shapes below event))) ∨
      ∃ a garment, event = .frame a ∧ Pipeline.QueuedDrape shapes w.pipeline
        (w.answered shapes below a) garment
        (w.pipeline.process shapes (w.answered shapes below a)) := by
  by_cases before : w.pipeline.state = .drapeCollect
  · refine Or.inl ⟨before, ?_⟩
    cases event with
    | start clock workerBusy given =>
      have busy : w.pipeline.start clock workerBusy given = (w.pipeline, .busy) := by
        unfold Pipeline.start
        rw [before]
        exact if_pos rfl
      show Pipeline.CollectKept w.pipeline (w.pipeline.start clock workerBusy given).1
      rw [busy]
      exact ⟨rfl, rfl, rfl, fun _ => rfl⟩
    | frame a =>
      obtain ⟨garment, found⟩ := found before
      exact (Pipeline.collect_cases before found).1
    | penEvent event => exact ⟨rfl, rfl, rfl, fun _ => rfl⟩
    | penFinish => exact ⟨rfl, rfl, rfl, fun _ => rfl⟩
  · cases event with
    | start clock workerBusy given =>
      rcases @Pipeline.start_goes R w.pipeline clock workerBusy given with same | ⟨q, goes⟩
      · exact absurd (same.symm.trans now) before
      · have now : (w.pipeline.start clock workerBusy given).1.state = .drapeCollect := now
        rw [goes, Pipeline.goto_state] at now
        split at now <;> cases now
    | frame a =>
      have drape := Pipeline.drape_of_collect good before now
      obtain ⟨garment, queued⟩ := Pipeline.queued_of_process drape now
      exact Or.inr ⟨a, garment, rfl, queued⟩
    | penEvent event => exact absurd now before
    | penFinish => exact absurd now before

/-- Where a run enters `DRAPE_COLLECT`, its setup is loaded and its forward alone on the queue. -/
theorem step_stage_of_queued {a : Answers R} {garment : Garment R}
    (queued : Pipeline.QueuedDrape shapes w.pipeline (w.answered shapes below a) garment
      (w.pipeline.process shapes (w.answered shapes below a))) :
    ∃ s, (w.stage.after shapes below
        (Pipeline.drapeSetup shapes w.pipeline.opts w.pipeline.data garment)).guest.Loaded s ∧
      (w.step shapes (.host (.frame a) below)).stage = ⟨"RUNNING".toList,
        { (w.stage.after shapes below
            (Pipeline.drapeSetup shapes w.pipeline.opts w.pipeline.data garment)).guest with
          session := some { s with
            queue := [.forward
              (DrapeStage.toInt (w.pipeline.opts.number "drape_steps".toList)).toNat]
            total := s.total + 1 } }⟩ := by
  obtain ⟨s, loaded, -, -, set⟩ := DrapeStage.loaded_of_setup queued.taken
  have queue : beginsWith (w.stage.answer shapes below
      (Pipeline.drapeSetup shapes w.pipeline.opts w.pipeline.data garment
        ++ [.queueForward (w.pipeline.opts.number "drape_steps".toList)])) "QUEUED".toList = true :=
    queued.queued
  rw [DrapeStage.answer_concat] at queue
  refine ⟨s, loaded, (@step_stage R shapes below w (.frame a) _ queued.draped).trans ?_⟩
  rw [DrapeStage.after_append]
  exact DrapeStage.call_queueForward loaded set queue

end World

/-! ### A small host -/

/-- The geometry of a host that leaves every shape alone. -/
def plain : Shapes (Option ℚ) where
  floats := numbers
  components _ _ := 1
  boundaryLoops _ := [[0, 1], [2, 0]]
  highestLoop _ _ := some 0
  scaled values _ := values
  similarityRetarget vertices _ _ := vertices
  pushVertex vertices _ := vertices
  capsules _ _ _ _ := []

/-- Three vertices. -/
def corner : List (Option ℚ) :=
  [some 0, some 0, some 0, some 1, some 0, some 0, some 0, some 1, some 0]

/-- The answers of a host that has its fixtures and the drape. -/
def quiet : Answers (Option ℚ) where
  clock := ⟨0, 0, 0⟩
  infer :=
    { missing := "no infer.elf".toList
      body := .ok (corner, [0, 1, 2], "body.usd".toList)
      rig := .ok (corner, [0, 1], "rig.usd".toList)
      garment := .ok (⟨corner, [0, 1, 2], [], [], []⟩, "garment.usd".toList)
      fitConfig := [] }
  curvenet :=
    { missing := "no curvenet.elf".toList
      source := .ok ([], [])
      reset := []
      setBody := []
      setParam := fun _ => []
      penBegin := fun _ => 0
      penEnd := fun _ => []
      counts := []
      startMeshBuild := []
      poll := ⟨true, [], 0⟩
      meshArrays := .error [] }
  fit :=
    { missing := "no fit.elf".toList
      busy := false
      saved := .error []
      budget := .ok []
      setup := []
      startBegin := []
      poll := ⟨true, [], 0⟩
      status := []
      startStep := []
      resultVertices := .error []
      check := fun _ => [] }
  drape := ⟨[], [], [], fun _ => [], [], [], 0⟩

/-- The options of a run with every fixture but the drape's, and two steps of the drape. -/
def fixtures (fitMode : Text) : Options := fun key =>
  if key = "fit_mode".toList then some (.text fitMode)
  else if key = "allow_fixture".toList then
    some (.names ["infer".toList, "rig".toList, "curvenet".toList, "fit".toList])
  else if key = "drape_steps".toList then some (.number 2)
  else none

/-- A frame of the pipeline. -/
def quietFrame : Happening (Option ℚ) := .host (.frame quiet) bare

/-- A start with these options. -/
def quietStart (fitMode : Text) : Happening (Option ℚ) :=
  .host (.start ⟨0, 0, 0⟩ false (fixtures fitMode)) bare

/-- A run with the solver's own fit fixture, as far as its drape. -/
def toDrapeCollect : List (Happening (Option ℚ)) :=
  quietStart "polyfem".toList :: List.replicate 8 quietFrame

end DressOn.Host
