import DressOn.Lib.Texts
import Mathlib.Data.Rat.Defs
import Mathlib.Algebra.GroupWithZero.Nat

/-!
# The pipeline

The host's loop as one state machine: a run is started with its options and advanced once a frame,
each state by its handler, on what the stages answer in that frame.
-/

namespace DressOn.Host

open DressOn.Texts

/-- The states of the machine. -/
inductive State where
  | idle | infer | rig | author | mesh | fitBegin | fitRun | fitRead | check | drape
  | drapeCollect | done | failed
  deriving DecidableEq

namespace State

/-- A state's name. -/
def name : State → Text
  | idle => "IDLE".toList
  | infer => "INFER".toList
  | rig => "RIG".toList
  | author => "AUTHOR".toList
  | mesh => "MESH".toList
  | fitBegin => "FIT_BEGIN".toList
  | fitRun => "FIT_RUN".toList
  | fitRead => "FIT_READ".toList
  | check => "CHECK".toList
  | drape => "DRAPE".toList
  | drapeCollect => "DRAPE_COLLECT".toList
  | done => "DONE".toList
  | failed => "FAILED".toList

/-- `TERMINAL`. -/
def terminal : State → Bool
  | idle | done | failed => true
  | _ => false

end State

/-- A value of the options. -/
inductive Value where
  | text (letters : Text)
  | flag (on : Bool)
  | number (value : ℚ)
  | names (list : List Text)
  deriving DecidableEq

/-- A dictionary of options. -/
abbrev Options := Text → Option Value

/-- `DEFAULTS`. -/
def defaults : Options := fun key =>
  if key = "allow_fixture".toList then some (.names [])
  else if key = "force_fixture".toList then some (.names [])
  else if key = "pen".toList then some (.text "scripted".toList)
  else if key = "drop_seam".toList then some (.flag false)
  else if key = "push_vertex".toList then some (.flag false)
  else if key = "closed_rings".toList then some (.flag false)
  else if key = "no_boundary".toList then some (.flag false)
  else if key = "mesh_edge".toList then some (.number (3 / 100))
  else if key = "weld_eps".toList then some (.number (1 / 100000))
  else if key = "fit_incremental_steps".toList then some (.number 1)
  else if key = "fit_max_iterations".toList then some (.number (-1))
  else if key = "fit_force_psd".toList then some (.flag true)
  else if key = "fit_grad_norm".toList then some (.number (-1))
  else if key = "drape_steps".toList then some (.number 100)
  else if key = "drape_backend".toList then some (.text "auto".toList)
  else if key = "drape_scale".toList then some (.number 10)
  else if key = "drape_mu".toList then some (.number (3 / 10))
  else if key = "drape_capsules".toList then some (.flag true)
  else if key = "drape_body".toList then some (.text "mesh".toList)
  else if key = "fit_from".toList then some (.text [])
  else if key = "fit_mode".toList then some (.text "avbd".toList)
  else if key = "stop_after".toList then some (.text [])
  else if key = "strokes_from".toList then some (.text [])
  else none

namespace Options

variable (opts : Options)

/-- The options with one of them set. -/
def set (key : Text) (value : Value) : Options :=
  fun other => if other = key then some value else opts other

/-- `for k in o: opts[k] = o[k]`. -/
def merge (given : Options) : Options := fun key => given key <|> opts key

/-- An option that is a text. -/
def text (key : Text) : Text :=
  match opts key with
  | some (.text letters) => letters
  | _ => []

/-- An option that is a flag. -/
def flag (key : Text) : Bool :=
  match opts key with
  | some (.flag on) => on
  | _ => false

/-- An option that is a number. -/
def number (key : Text) : ℚ :=
  match opts key with
  | some (.number value) => value
  | _ => 0

/-- An option that is a list of names. -/
def names (key : Text) : List Text :=
  match opts key with
  | some (.names list) => list
  | _ => []

/-- `opts.stop_after`. -/
def stopAfter : Text := opts.text "stop_after".toList

/-- `_avbd`. -/
def avbd : Bool := opts.text "fit_mode".toList == "avbd".toList

end Options

/-- `PackedStringArray` of an option, whose text is split at its commas first. Of anything else
the conversion is a script error. -/
def namesOf : Option Value → Option (List Text)
  | some (.names list) => some list
  | some (.text letters) => some ((letters.splitOn ',').filter (· ≠ []))
  | _ => none

/-- What happens at a pen. -/
inductive PenKind where
  | begin
  | point
  | end
  deriving DecidableEq

section Data

variable (R : Type)

/-- A pen event. -/
structure PenEvent where
  /-- What happens. -/
  kind : PenKind
  /-- The stroke, by the number its source gave it. -/
  stroke : Int
  /-- Where. -/
  pos : R × R × R
  /-- How hard. -/
  pressure : R
  /-- The stroke is drawn in boundary mode. -/
  boundary : Bool
  deriving DecidableEq

/-- A stroke as its source hands it over. -/
structure PenStroke where
  /-- Drawn in boundary mode. -/
  boundary : Bool
  /-- Its points. -/
  points : List (R × R × R)
  deriving DecidableEq

/-- A garment. -/
structure Garment where
  /-- Three floats a vertex. -/
  vertices : List R
  /-- Three vertices a triangle. -/
  triangles : List Int
  /-- The joints it was made for. -/
  sourceJoints : List R
  /-- Vertices that are not fitted. -/
  nofit : List Int
  /-- Its boundary loops. -/
  loops : List (List Int)
  deriving DecidableEq

/-- A capsule along a bone. -/
structure Capsule where
  /-- One end, the axis, the length and the radius, by name in the source. -/
  bottom : R × R × R
  axis : R × R × R
  length : R
  radius : R
  deriving DecidableEq

/-- `data`, as far as a handler reads it again. -/
structure Collected where
  bodyV : List R
  bodyF : List Int
  joints : List R
  bones : List Int
  garment : Option (Garment R)
  penEnds : List Text
  fitFixture : Bool
  fitCheckFixture : Bool
  fitBegin : Option Text
  fitPhases : List Text
  fitted : List R
  check : Option Text
  drapeLastRunning : Text
  draped : Option (List R)
  deriving DecidableEq

/-- `{}`. -/
def Collected.empty : Collected R :=
  ⟨[], [], [], [], none, [], false, false, none, [], [], none, [], none⟩

/-- A call on the drape stage's sandbox. -/
inductive DrapeCall where
  | open (backend : Text)
  | clear
  | mesh (positions : List R) (triangles : List Int) (skin mu band depth : ℚ)
  | capsule (shape : Capsule R) (scale mu : ℚ)
  | config (key : Text) (value : ℚ)
  | sceneMesh (positions : List R) (triangles pins : List Int)
  | fitSet (verts : List Int) (params : List ℚ) (anchor : List Int)
  | queueFit (steps : ℚ) (tol : ℚ)
  | queueForward (steps : ℚ)
  deriving DecidableEq

end Data

/-- The record of a state that was left. -/
structure Record where
  state : State
  ms : Int
  frames : Nat
  vmUs : Int
  heap : Int
  fixture : Bool
  note : Text
  deriving DecidableEq

/-- What a stage answers when its worker is polled. -/
structure Polled where
  done : Bool
  result : Text
  hostMs : Nat

/-- The clock, and the readings of the state's stage. -/
structure Clock where
  now : Int
  vmUs : Int
  heap : Int

section Answers

variable (R : Type)

/-- What the infer stage answers in a frame. -/
structure InferAnswers where
  /-- `_missing`: why the stage cannot run, or nothing. -/
  missing : Text
  body : Except Text (List R × List Int × Text)
  rig : Except Text (List R × List Int × Text)
  garment : Except Text (Garment R × Text)
  fitConfig : Text

/-- What the curvenet stage answers in a frame; the calls of one kind are counted from 0. -/
structure CurvenetAnswers where
  missing : Text
  /-- The events and the strokes of the saved or the scripted source, or its error. -/
  source : Except Text (List (PenEvent R) × List (PenStroke R))
  reset : Text
  setBody : Text
  setParam : Nat → Text
  penBegin : Nat → Int
  penEnd : Nat → Text
  /-- The counts of the net that was built. -/
  counts : Text
  startMeshBuild : Text
  poll : Polled
  meshArrays : Except Text (List R × List Int × List (List Int))

/-- What the fit stage answers in a frame. -/
structure FitAnswers where
  missing : Text
  busy : Bool
  /-- `ObjIO.read` of the saved fit. -/
  saved : Except Text (List R)
  /-- `_fit_budget` of the setup's text. -/
  budget : Except Text Text
  setup : Text
  startBegin : Text
  poll : Polled
  status : Text
  startStep : Text
  resultVertices : Except Text (List R)
  check : List R → Text

/-- What the drape stage answers in a frame. -/
structure DrapeAnswers where
  missing : Text
  apiMissing : Text
  fitApiMissing : Text
  /-- The answer to the last of the frame's calls. -/
  call : List (DrapeCall R) → Text
  status : Text
  positions : List R
  ticks : Nat

/-- What all the stages answer in a frame. -/
structure Answers where
  clock : Clock
  infer : InferAnswers R
  curvenet : CurvenetAnswers R
  fit : FitAnswers R
  drape : DrapeAnswers R

/-- The floats of the host and of its guests, as far as the code relies on them. -/
structure Floats where
  /-- The float nearest to a number. -/
  ofRat : ℚ → R
  less : R → R → Bool
  equal : R → R → Bool
  plus : R → R → R
  minus : R → R → R
  divided : R → R → R
  /-- The whole part. -/
  whole : R → Int
  finite : R → Bool
  nan : R
  nan_not_finite : finite nan = false
  nan_minus (value : R) : minus nan value = nan
  /-- The nearest floats keep the order of the numbers. -/
  not_less_ofRat (one other : ℚ) (le : other ≤ one) : less (ofRat one) (ofRat other) = false
  /-- A number that is not tiny has a float above zero. -/
  zero_less_ofRat (value : ℚ) (above : 1 / 1000 ≤ value) : less (ofRat 0) (ofRat value) = true
  /-- A small whole number is its own float. -/
  whole_ofRat (value : Int) (small : value.natAbs ≤ 2 ^ 24) : whole (ofRat value) = value

/-- The host's own geometry, which the handlers apply to what they were answered. -/
structure Shapes where
  floats : Floats R
  /-- The connected components of so many vertices and some triangles. -/
  components : Nat → List Int → Int
  boundaryLoops : List Int → List (List Int)
  highestLoop : List R → List (List Int) → Option Nat
  scaled : List R → ℚ → List R
  similarityRetarget : List R → List R → List R → List R
  pushVertex : List R → List R → List R
  capsules : List R → List R → List Int → ℚ → List (Capsule R)

end Answers

/-- The pipeline. -/
structure Pipeline (R : Type) where
  opts : Options
  state : State
  reason : Text
  records : List Record
  fixtures : List Text
  data : Collected R
  penQueue : List (PenEvent R)
  penExternal : Bool
  penFinished : Bool
  enterMs : Int
  frames : Nat
  runT0 : Int
  first : Bool
  strokeIds : Int → Option Int
  note : Text
  /-- The states entered since the last start. -/
  entered : List State
  /-- The pen events that the curvenet stage got since its last reset. -/
  received : List (PenEvent R)
  /-- The curvenet stage was told to build since then. -/
  built : Bool
  /-- The calls on the drape stage, from first to last. -/
  draped : List (DrapeCall R)

namespace Pipeline

variable {R : Type}

/-- The pipeline before its first run. -/
def fresh : Pipeline R where
  opts := fun _ => none
  state := .idle
  reason := []
  records := []
  fixtures := []
  data := .empty R
  penQueue := []
  penExternal := false
  penFinished := false
  enterMs := 0
  frames := 0
  runT0 := 0
  first := true
  strokeIds := fun _ => none
  note := []
  entered := []
  received := []
  built := false
  draped := []

/-- `_close_record`. -/
def closeRecord (p : Pipeline R) (clock : Clock) : Pipeline R :=
  if p.state.terminal then p
  else
    { p with
      records := p.records ++
        [{ state := p.state
           ms := clock.now - p.enterMs
           frames := p.frames
           vmUs := clock.vmUs
           heap := clock.heap
           fixture := beginsWith p.note "FIXTURE".toList
           note := p.note }] }

/-- `_goto`. -/
def goto (p : Pipeline R) (clock : Clock) (next : State) (note : Text) : Pipeline R :=
  let p := if note ≠ [] then { p with note := note } else p
  let p := p.closeRecord clock
  let next :=
    if p.opts.stopAfter ≠ [] ∧ p.state.name = p.opts.stopAfter ∧ next ≠ .failed then .done
    else next
  { p with
    state := next
    enterMs := clock.now
    frames := 0
    first := true
    note := []
    entered := p.entered ++ [next] }

/-- `_fail`. -/
def fail (p : Pipeline R) (clock : Clock) (why : Text) : Pipeline R :=
  { p with
    reason := p.state.name ++ ": ".toList ++ why
    note := "FAILED ".toList ++ why }.goto clock .failed []

/-- How a stage runs in this run. -/
inductive Mode where
  | real
  | fixture
  /-- The run has failed. -/
  | stopped
  deriving DecidableEq

/-- `fixtures` with one more of them. -/
def addFixture (p : Pipeline R) (key : Text) : Pipeline R :=
  if key ∈ p.fixtures then p else { p with fixtures := p.fixtures ++ [key] }

/-- `_mode`. -/
def mode (p : Pipeline R) (clock : Clock) (key missing : Text) : Pipeline R × Mode :=
  if key ∈ p.opts.names "force_fixture".toList then (p.addFixture key, .fixture)
  else if missing = [] then (p, .real)
  else if key ∈ p.opts.names "allow_fixture".toList then (p.addFixture key, .fixture)
  else (p.fail clock (key ++ " missing (".toList ++ missing ++ ")".toList), .stopped)

variable (shapes : Shapes R)

/-- `_infer`. -/
def infer (p : Pipeline R) (a : Answers R) : Pipeline R :=
  let missing :=
    if a.infer.missing ≠ [] then a.infer.missing
    else "infer.elf has no pipeline path yet".toList
  match p.mode a.clock "infer".toList missing with
  | (p, .stopped) => p
  | (p, _) =>
    match a.infer.body with
    | .error error => p.fail a.clock error
    | .ok (vertices, triangles, source) =>
      { p with data := { p.data with bodyV := vertices, bodyF := triangles } }.goto a.clock .rig
        (source ++ ": ".toList ++ decimal (vertices.length / 3) ++ " v, ".toList
          ++ decimal (triangles.length / 3) ++ " f".toList)

/-- `_rig`. -/
def rig (p : Pipeline R) (a : Answers R) : Pipeline R :=
  let missing :=
    if a.infer.missing ≠ [] then a.infer.missing else "infer.elf has no rig path yet".toList
  match p.mode a.clock "rig".toList missing with
  | (p, .stopped) => p
  | (p, _) =>
    match a.infer.rig with
    | .error error => p.fail a.clock error
    | .ok (joints, bones, source) =>
      { p with data := { p.data with joints := joints, bones := bones } }.goto a.clock .author
        (source ++ ": 15 joints".toList)

/-- The first frame of `_author`. -/
def authorFirst (p : Pipeline R) (a : Answers R) : Pipeline R :=
  match p.mode a.clock "curvenet".toList a.curvenet.missing with
  | (p, .stopped) => p
  | (p, .fixture) =>
    match a.infer.garment with
    | .error error => p.fail a.clock error
    | .ok (garment, source) =>
      { p with
        data := { p.data with
          garment := some { garment with loops := shapes.boundaryLoops garment.triangles } } }.goto
        a.clock .mesh source
  | (p, .real) =>
    match a.curvenet.source with
    | .error error => p.fail a.clock error
    | .ok (events, _) =>
      let p := { p with received := [], built := false }
      if beginsWith a.curvenet.reset "FAIL".toList
          || beginsWith a.curvenet.setBody "FAIL".toList then
        p.fail a.clock ("curvenet setup: ".toList ++ a.curvenet.reset ++ " | ".toList
          ++ a.curvenet.setBody)
      else
        let p := { p with data := { p.data with penEnds := [] } }
        if p.opts.text "pen".toList = "scripted".toList ∧ p.penExternal = false then
          { p with penQueue := events, penFinished := true }
        else p

/-- `PEN_EVENTS_PER_FRAME`. -/
def penEventsPerFrame : Nat := 64

/-- The loop of `_author` over the queued events, with so many to go and so many handled. It
answers whether the run goes on. -/
def authorEvents (a : Answers R) : Nat → Nat → Pipeline R → Pipeline R × Bool
  | 0, _, p => (p, true)
  | left + 1, n, p =>
    match p.penQueue with
    | [] => (p, true)
    | event :: later =>
      let p := { p with penQueue := later }
      match event.kind with
      | .begin =>
        if beginsWith (a.curvenet.setParam n) "FAIL".toList then
          (p.fail a.clock ("set_param boundary: ".toList ++ a.curvenet.setParam n), false)
        else
          let p := { p with received := p.received ++ [event] }
          if a.curvenet.penBegin n < 0 then
            (p.fail a.clock "pen_begin refused stroke".toList, false)
          else
            authorEvents a left (n + 1)
              { p with
                strokeIds := fun stroke =>
                  if stroke = event.stroke then some (a.curvenet.penBegin n)
                  else p.strokeIds stroke }
      | .point => authorEvents a left (n + 1) { p with received := p.received ++ [event] }
      | .end =>
        let p := { p with
          received := p.received ++ [event]
          data := { p.data with penEnds := p.data.penEnds ++ [a.curvenet.penEnd n] } }
        if beginsWith (a.curvenet.penEnd n) "FAIL".toList then
          (p.fail a.clock ("pen_end stroke: ".toList ++ a.curvenet.penEnd n), false)
        else (p, true) -- at most one stroke ends per frame

/-- `_author`. -/
def author (p : Pipeline R) (a : Answers R) (first : Bool) : Pipeline R :=
  if first then p.authorFirst shapes a
  else
    match authorEvents a penEventsPerFrame 0 p with
    | (p, false) => p
    | (p, true) =>
      if p.penQueue ≠ [] ∨ p.penFinished = false then p
      else
        { p with built := true }.goto a.clock .mesh
          ("strokes ".toList ++ decimal p.data.penEnds.length ++ a.curvenet.counts)

/-- `_mesh_done`. -/
def meshDone (p : Pipeline R) (a : Answers R) (garment : Garment R) (note : Text) : Pipeline R :=
  let nv := garment.vertices.length / 3
  let nf := garment.triangles.length / 3
  let p := { p with data := { p.data with garment := some garment } }
  if nf = 0 ∨ shapes.components nv garment.triangles ≠ 1 ∨ garment.loops.length ≠ 2 ∨
      garment.vertices.all shapes.floats.finite = false then
    p.fail a.clock ("not a skirt tube: ".toList ++ decimal nf ++ " triangles".toList)
  else
    p.goto a.clock .fitBegin (note ++ " | ".toList ++ decimal nv ++ " v ".toList ++ decimal nf
      ++ " f 2 loops".toList)

/-- `_mesh`. -/
def mesh (p : Pipeline R) (a : Answers R) (first : Bool) : Pipeline R :=
  match p.data.garment with
  | some garment => p.meshDone shapes a garment "FIXTURE garment".toList
  | none =>
    if first then
      if beginsWith a.curvenet.startMeshBuild "STARTED".toList then p
      else p.fail a.clock ("mesh_build: ".toList ++ a.curvenet.startMeshBuild)
    else if a.curvenet.poll.done = false then p
    else if beginsWith a.curvenet.poll.result "ok".toList = false then
      p.fail a.clock ("mesh_build: ".toList ++ a.curvenet.poll.result)
    else
      match a.curvenet.meshArrays with
      | .error error => p.fail a.clock error
      | .ok (vertices, triangles, loops) =>
        p.meshDone shapes a ⟨vertices, triangles, p.data.joints, [], loops⟩
          a.curvenet.poll.result

/-- The calls on the drape stage, logged, with what they are answered. -/
def callDrape (p : Pipeline R) (a : Answers R) (calls : List (DrapeCall R)) :
    Pipeline R × List Text :=
  ({ p with draped := p.draped ++ calls },
    (List.range calls.length).map fun n => a.drape.call (calls.take (n + 1)))

/-- The first answer that a setup fails on. -/
def refused (answers : List Text) : Option Text :=
  answers.find? fun answer => beginsWith answer "FAIL".toList || beginsWith answer "BUSY".toList

/-- `_fit_elf_begin`: the failure, or nothing. -/
def fitElfBegin (a : Answers R) : Text :=
  if a.infer.fitConfig = [] then "fixtures/foxgirl/fit_config.json unreadable".toList
  else
    match a.fit.budget with
    | .error error => error
    | .ok _ =>
      if a.fit.setup ≠ [] then a.fit.setup
      else if beginsWith a.fit.startBegin "STARTED".toList then []
      else a.fit.startBegin

/-- `_waist_loop`. -/
def waistLoop (vertices : List R) (triangles : List Int) : List Int :=
  let loops := shapes.boundaryLoops triangles
  match shapes.highestLoop vertices loops with
  | some place => loops.getD place []
  | none => []

/-- `_fit_vertices`. -/
def fitVertices (count : Nat) (nofit : List Int) : List Int :=
  ((List.range count).map Int.ofNat).filter (· ∉ nofit)

/-- `fit_avbd_start` with the setting `FIT_AVBD`: the setup calls. -/
def fitAvbdStart (opts : Options) (garmentV : List R) (triangles fitVerts anchor : List Int)
    (bodyV : List R) (bodyF : List Int) : List (DrapeCall R) :=
  let scale := opts.number "drape_scale".toList
  let mu := opts.number "drape_mu".toList
  [.open (opts.text "drape_backend".toList), .clear,
    .mesh (shapes.scaled bodyV scale) bodyF (1 / 10) mu (1 / 10) 1,
    .config "iters".toList 32, .config "kBend".toList (1 / 100000),
    .config "h".toList (1 / 60), .config "gravityY".toList (-(98 / 10) * scale),
    .sceneMesh (shapes.scaled garmentV scale) triangles [],
    .fitSet fitVerts [60, 0, 1, 1, 4, 0, 100] anchor]

/-- `fit_avbd_restore`. -/
def fitAvbdRestore : List (DrapeCall R) :=
  [.config "iters".toList 16, .config "kBend".toList (1 / 100000), .config "h".toList (1 / 180)]

/-- `_fit_begin_avbd`. -/
def fitBeginAvbd (p : Pipeline R) (a : Answers R) (garment : Garment R) (fitElf : Mode) :
    Pipeline R :=
  let missing := if a.drape.missing ≠ [] then a.drape.missing else a.drape.fitApiMissing
  if missing ≠ [] then p.fail a.clock ("fit_mode avbd: drape ".toList ++ missing)
  else
    let p := { p with data := { p.data with fitCheckFixture := fitElf == Mode.fixture } }
    let start := shapes.similarityRetarget garment.vertices garment.sourceJoints p.data.joints
    let setup := fitAvbdStart shapes p.opts start garment.triangles
      (fitVertices (garment.vertices.length / 3) garment.nofit)
      (waistLoop shapes start garment.triangles) p.data.bodyV p.data.bodyF
    -- the fit is queued whatever the setup calls answered
    match p.callDrape a (setup ++ [DrapeCall.queueFit 300 (5 / 10000)]) with
    | (p, answers) =>
      match refused (answers.take setup.length) with
      | some answer => p.fail a.clock ("fit(avbd) setup: ".toList ++ answer)
      | none =>
        let queued := answers.getD setup.length []
        if beginsWith queued "QUEUED".toList = false then
          p.fail a.clock ("fit(avbd): ".toList ++ queued)
        else if fitElf = Mode.real ∧ fitElfBegin a ≠ [] then
          p.fail a.clock ("fit.elf for CHECK: ".toList ++ fitElfBegin a)
        else p.goto a.clock .fitRun ("FIT(avbd): ".toList ++ queued)

/-- `_fit_begin`. -/
def fitBegin (p : Pipeline R) (a : Answers R) (first : Bool) : Pipeline R :=
  match p.data.garment with
  | none => p -- a script error
  | some garment =>
    if first then
      match p.mode a.clock "fit".toList a.fit.missing with
      | (p, .stopped) => p
      | (p, fitMode) =>
        if p.opts.avbd then p.fitBeginAvbd shapes a garment fitMode
        else if fitMode = Mode.fixture then
          let p := { p with data := { p.data with fitFixture := true } }
          if p.opts.text "fit_from".toList ≠ [] then
            match a.fit.saved with
            | .error error => p.fail a.clock ("fit_from: ".toList ++ error)
            | .ok vertices =>
              if vertices.length ≠ garment.vertices.length then
                p.fail a.clock ("fit_from: ".toList ++ decimal vertices.length
                  ++ " floats, the garment ".toList ++ decimal garment.vertices.length)
              else
                { p with data := { p.data with fitted := vertices } }.goto a.clock .fitRead
                  "FIXTURE fit: vertices from a file".toList
          else
            { p with
              data := { p.data with
                fitted := shapes.similarityRetarget garment.vertices garment.sourceJoints
                  p.data.joints } }.goto a.clock .fitRead
              "FIXTURE fit: similarity from the garment skeleton to the body skeleton".toList
        else if fitElfBegin a ≠ [] then p.fail a.clock (fitElfBegin a)
        else p
    else if a.fit.poll.done = false then p
    else
      let p := { p with data := { p.data with fitBegin := some a.fit.poll.result } }
      if beginsWith a.fit.poll.result "OK begin".toList = false then
        p.fail a.clock a.fit.poll.result
      else
        { p with data := { p.data with fitPhases := [] } }.goto a.clock .fitRun a.fit.poll.result

/-- `_fit_run`. -/
def fitRun (p : Pipeline R) (a : Answers R) (first : Bool) : Pipeline R :=
  if p.opts.avbd then
    let status := a.drape.status
    if beginsWith status "RUNNING".toList then p
    else if beginsWith status "FAIL".toList || !holds status "DONE fit".toList then
      p.fail a.clock ("fit(avbd): ".toList ++ status)
    else p.goto a.clock .fitRead status
  else if first = false ∧ a.fit.poll.done = false then p
  else
    let p := if first then p else
      { p with data := { p.data with fitPhases := p.data.fitPhases ++ [a.fit.poll.result] } }
    if first = false ∧ beginsWith a.fit.poll.result "FAIL".toList then
      p.fail a.clock a.fit.poll.result
    else if holds a.fit.status " FAILED".toList then p.fail a.clock a.fit.status
    else if holds a.fit.status " done".toList then
      p.goto a.clock .fitRead (decimal p.data.fitPhases.length ++ " phases | ".toList
        ++ a.fit.status)
    else if beginsWith a.fit.startStep "STARTED".toList then p
    else p.fail a.clock a.fit.startStep

/-- The second half of `_fit_read`, once the fitted vertices are there. -/
def fitReadDone (p : Pipeline R) (a : Answers R) : Pipeline R :=
  match p.data.garment with
  | none => p -- a script error
  | some garment =>
    if p.data.fitted.length ≠ garment.vertices.length then
      p.fail a.clock ("fitted garment has ".toList ++ decimal (p.data.fitted.length / 3)
        ++ " vertices, the mesh ".toList ++ decimal (garment.vertices.length / 3))
    else if p.data.fitted.all shapes.floats.finite = false then
      p.fail a.clock "fitted garment has non-finite vertices".toList
    else
      p.goto a.clock .check
        (if p.data.fitFixture then "FIXTURE fit".toList
        else decimal (p.data.fitted.length / 3) ++ " v".toList)

/-- `_fit_read`. -/
def fitRead (p : Pipeline R) (a : Answers R) : Pipeline R :=
  if p.opts.avbd then
    let p := { p with
      data := { p.data with
        fitted := shapes.scaled a.drape.positions (1 / p.opts.number "drape_scale".toList) } }
    (p.callDrape a fitAvbdRestore).1.fitReadDone shapes a
  else if p.data.fitFixture then p.fitReadDone shapes a
  else
    match a.fit.resultVertices with
    | .error error => p.fail a.clock ("fit_result_vertices: ".toList ++ error)
    | .ok vertices =>
      { p with data := { p.data with fitted := vertices } }.fitReadDone shapes a

/-- The second half of `_check`, with the garment that is checked (the solver's own where it is
empty). -/
def checkWith (p : Pipeline R) (a : Answers R) (checked : List R) : Pipeline R :=
  let pushed := shapes.pushVertex p.data.fitted p.data.joints
  let answer := a.fit.check (if p.opts.flag "push_vertex".toList then pushed else checked)
  let p := { p with data := { p.data with check := some answer } }
  if beginsWith answer "OK none".toList then
    p.goto a.clock .drape (answer ++ " | control (one vertex pushed inside): ".toList
      ++ a.fit.check pushed)
  else if holds answer "INTERSECTS".toList then
    p.fail a.clock ("INTERSECTS ".toList ++ answer)
  else p.fail a.clock answer

/-- `_check`. -/
def check (p : Pipeline R) (a : Answers R) : Pipeline R :=
  if p.data.fitFixture || p.data.fitCheckFixture then
    { p with
      data := { p.data with
        check := some "not run (fit FIXTURE: fit_check_intersections needs fit.elf)".toList } }.goto
      a.clock .drape "FIXTURE check skipped".toList
  else if p.opts.avbd = false then p.checkWith shapes a []
  else if a.fit.busy then p
  else
    match p.data.fitBegin with
    | some _ => p.checkWith shapes a p.data.fitted
    | none =>
      let p := { p with data := { p.data with fitBegin := some a.fit.poll.result } }
      if beginsWith a.fit.poll.result "OK begin".toList = false then
        p.fail a.clock ("fit.elf begin for CHECK: ".toList ++ a.fit.poll.result)
      else p.checkWith shapes a p.data.fitted

/-- The collider calls of `_drape`. -/
def drapeBodies (opts : Options) (data : Collected R) : List (DrapeCall R) :=
  let scale := opts.number "drape_scale".toList
  let mu := opts.number "drape_mu".toList
  let body :=
    if opts.flag "drape_capsules".toList then opts.text "drape_body".toList else "none".toList
  (if body = "mesh".toList then
      [.mesh (shapes.scaled data.bodyV scale) data.bodyF (1 / 10) mu (1 / 10) 1] else [])
    ++ (if body = "capsules".toList then
        (shapes.capsules data.bodyV data.joints data.bones scale).map (.capsule · scale mu)
      else [])

/-- The setup calls of `_drape`. -/
def drapeSetup (opts : Options) (data : Collected R) (garment : Garment R) :
    List (DrapeCall R) :=
  let scale := opts.number "drape_scale".toList
  [.open (opts.text "drape_backend".toList), .clear] ++ drapeBodies shapes opts data
    ++ [.config "gravityY".toList (-(98 / 10) * scale),
      .sceneMesh (shapes.scaled data.fitted scale) garment.triangles
        (waistLoop shapes data.fitted garment.triangles)]

/-- `_drape`. -/
def drape (p : Pipeline R) (a : Answers R) : Pipeline R :=
  let missing := if a.drape.missing ≠ [] then a.drape.missing else a.drape.apiMissing
  match p.mode a.clock "drape".toList missing with
  | (p, .stopped) => p
  | (p, drapeMode) =>
    match p.data.garment with
    | none => p -- a script error
    | some garment =>
      if drapeMode = Mode.fixture then
        p.goto a.clock .done
          "FIXTURE drape skipped; the fitted garment is shown undraped".toList
      else
        let setup := drapeSetup shapes p.opts p.data garment
        match p.callDrape a setup with
        | (p, answers) =>
          match refused answers with
          | some answer => p.fail a.clock ("drape setup: ".toList ++ answer)
          | none =>
            let forward := DrapeCall.queueForward (p.opts.number "drape_steps".toList)
            let p := { p with draped := p.draped ++ [forward] }
            let queued := a.drape.call (setup ++ [forward])
            if beginsWith queued "QUEUED".toList = false then p.fail a.clock queued
            else p.goto a.clock .drapeCollect queued

/-- `_drape_collect`. -/
def drapeCollect (p : Pipeline R) (a : Answers R) : Pipeline R :=
  let status := a.drape.status
  if beginsWith status "RUNNING".toList then
    { p with data := { p.data with drapeLastRunning := status } }
  else if beginsWith status "FAIL".toList then p.fail a.clock status
  else
    match p.data.garment with
    | none => p -- a script error
    | some garment =>
      let positions := a.drape.positions
      if positions.length ≠ garment.vertices.length ∨ positions.all shapes.floats.finite = false then
        p.fail a.clock ("drape positions: ".toList ++ decimal positions.length ++ " of ".toList
          ++ decimal garment.vertices.length ++ " floats (".toList ++ status ++ ")".toList)
      else
        { p with
          data := { p.data with
            draped := some
              (shapes.scaled positions (1 / p.opts.number "drape_scale".toList)) } }.goto
          a.clock .done (status ++ " | ".toList ++ decimal (positions.length / 3)
            ++ " finite vertices after ".toList ++ p.data.drapeLastRunning)

/-- `_process`: one frame. -/
def process (p : Pipeline R) (a : Answers R) : Pipeline R :=
  if p.state.terminal then p
  else
    let first := p.first
    let p := { p with frames := p.frames + 1, first := false }
    match p.state with
    | .infer => p.infer a
    | .rig => p.rig a
    | .author => p.author shapes a first
    | .mesh => p.mesh shapes a first
    | .fitBegin => p.fitBegin shapes a first
    | .fitRun => p.fitRun a first
    | .fitRead => p.fitRead shapes a
    | .check => p.check shapes a
    | .drape => p.drape shapes a
    | .drapeCollect => p.drapeCollect shapes a
    | .idle | .done | .failed => p

/-- What `start` answers. -/
inductive Started where
  /-- `BUSY ..`. -/
  | busy
  /-- `FAIL fit_mode must be ..`. -/
  | fail
  /-- `STARTED ..`. -/
  | started
  /-- A script error. -/
  | error
  deriving DecidableEq

/-- `start`, with whether a stage's worker is busy. -/
def start (p : Pipeline R) (clock : Clock) (workerBusy : Bool) (given : Options) :
    Pipeline R × Started :=
  if p.state.terminal = false then (p, .busy)
  else if workerBusy then (p, .busy)
  else
    let opts := defaults.merge given
    match namesOf (opts "allow_fixture".toList) with
    | none => ({ p with opts := opts }, .error)
    | some allowed =>
      let opts := opts.set "allow_fixture".toList (.names allowed)
      match namesOf (opts "force_fixture".toList) with
      | none => ({ p with opts := opts }, .error)
      | some forced =>
        let p := { p with
          opts := opts.set "force_fixture".toList (.names forced)
          records := []
          fixtures := []
          data := .empty R
          penQueue := []
          penFinished := false
          reason := []
          strokeIds := fun _ => none
          runT0 := clock.now
          entered := [] }
        if p.opts.text "fit_mode".toList ≠ "polyfem".toList ∧
            p.opts.text "fit_mode".toList ≠ "avbd".toList then (p, .fail)
        else (p.goto clock .infer [], .started)

/-- `pen_event`. -/
def penEvent (p : Pipeline R) (event : PenEvent R) : Pipeline R :=
  { p with penQueue := p.penQueue ++ [event] }

/-- `pen_finish`. -/
def penFinish (p : Pipeline R) : Pipeline R := { p with penFinished := true }

/-- What the host does with a pipeline. -/
inductive Event (R : Type) where
  /-- `start`. -/
  | start (clock : Clock) (workerBusy : Bool) (given : Options)
  /-- One frame. -/
  | frame (answers : Answers R)
  /-- `pen_event`. -/
  | penEvent (event : PenEvent R)
  /-- `pen_finish`. -/
  | penFinish

/-- The pipeline after an event. -/
def step (p : Pipeline R) : Event R → Pipeline R
  | .start clock workerBusy given => (p.start clock workerBusy given).1
  | .frame answers => p.process shapes answers
  | .penEvent event => p.penEvent event
  | .penFinish => p.penFinish

end Pipeline

end DressOn.Host
