import DressOn.Host.Pipeline
import Mathlib.Algebra.Order.Ring.Rat
import Mathlib.Tactic.NormNum

/-!
# The drape guest

`drape.elf` behind its calls: the global configuration, the scene and the session, with the stages
of a queued forward. A call answers with a text. What a solver, a device and a collider do is given
from outside, stage by stage and call by call.
-/

namespace DressOn.Host

open DressOn.Texts

section Settings

/-- A setting as it is kept. -/
inductive Setting (R : Type) where
  | count (value : Int)
  | flag (on : Bool)
  | number (value : R)
  deriving DecidableEq

/-- How a key takes its value. -/
inductive Taking where
  /-- A whole number, refused under a bound. -/
  | count (least : ℚ)
  | flag
  | number
  | positive
  /-- One value alone is taken, and nothing is kept. -/
  | one
  | on
  | off
  deriving DecidableEq

/-- The keys of `DrapeConfig::set`. -/
def taking (key : Text) : Option Taking :=
  if key = "iters".toList then some (.count 1)
  else if key = "damp".toList then some .number
  else if key = "relax".toList then some .one
  else if key = "colors".toList then some .flag
  else if key = "membrane".toList then some .flag
  else if key = "bending".toList then some .flag
  else if key = "rawStiffness".toList then some .flag
  else if key = "al".toList then some .flag
  else if key = "alGamma".toList then some .number
  else if key = "contact".toList then some .flag
  else if key = "frictionPred".toList then some .flag
  else if key = "selfCollision".toList then some .flag
  else if key = "selfPasses".toList then some (.count 1)
  else if key = "gpuSelf".toList then some .on
  else if key = "selfK".toList then some (.count 1)
  else if key = "bwdTruncateK".toList then some (.count 0)
  else if key = "bwdIft".toList then some .off
  else if key = "gradientClipping".toList then some .flag
  else if key = "gradientClippingThreshold".toList then some .number
  else if key = "nativeMuDoubleCarry".toList then some .flag
  else if key = "h".toList then some .positive
  else if key = "gravityX".toList then some .number
  else if key = "gravityY".toList then some .number
  else if key = "gravityZ".toList then some .number
  else if key = "windX".toList then some .number
  else if key = "windY".toList then some .number
  else if key = "windZ".toList then some .number
  else if key = "density".toList then some .positive
  else if key = "kTri".toList then some .number
  else if key = "kBend".toList then some .number
  else if key = "kAttach".toList then some .number
  else if key = "mu".toList then some .number
  else none

/-- `DrapeConfig`, by its keys. -/
abbrev Config (R : Type) := Text → Option (Setting R)

namespace Config

variable {R : Type} (floats : Floats R)

/-- The configuration as it starts. -/
def initial : Config R := fun key =>
  let number (value : ℚ) := some (Setting.number (floats.ofRat value))
  if key = "iters".toList then some (.count 16)
  else if key = "damp".toList then number 1
  else if key = "colors".toList then some (.flag true)
  else if key = "membrane".toList then some (.flag true)
  else if key = "bending".toList then some (.flag true)
  else if key = "rawStiffness".toList then some (.flag false)
  else if key = "al".toList then some (.flag false)
  else if key = "contact".toList then some (.flag true)
  else if key = "frictionPred".toList then some (.flag true)
  else if key = "selfCollision".toList then some (.flag true)
  else if key = "selfPasses".toList then some (.count 2)
  else if key = "selfK".toList then some (.count 16)
  else if key = "bwdTruncateK".toList then some (.count 20)
  else if key = "gradientClipping".toList then some (.flag true)
  else if key = "gradientClippingThreshold".toList then number 16
  else if key = "nativeMuDoubleCarry".toList then some (.flag true)
  else if key = "h".toList then number (1 / 180)
  else if key = "gravityX".toList then number 0
  else if key = "gravityY".toList then number (-(98 / 10))
  else if key = "gravityZ".toList then number 0
  else if key = "windX".toList then number 0
  else if key = "windY".toList then number 0
  else if key = "windZ".toList then number 0
  else if key = "density".toList then number (3 / 10)
  else if key = "kTri".toList then number 150
  else if key = "kBend".toList then number (1 / 100000)
  else if key = "kAttach".toList then number 10000
  else if key = "mu".toList then number (3 / 10)
  else none -- `alGamma` is not set

variable (cfg : Config R)

/-- A setting that is a flag. -/
def flag (key : Text) : Bool :=
  match cfg key with
  | some (.flag on) => on
  | _ => false

/-- A setting that is a whole number. -/
def count (key : Text) : Int :=
  match cfg key with
  | some (.count value) => value
  | _ => 0

/-- The configuration with one setting replaced. -/
def put (key : Text) (setting : Setting R) : Config R :=
  fun other => if other = key then some setting else cfg other

/-- `DrapeConfig::set`, or nothing where the key is unknown or the value refused. -/
def set (key : Text) (value : R) : Option (Config R) :=
  let on := !floats.equal value (floats.ofRat 0)
  match taking key with
  | none => none
  | some (.count least) =>
    if floats.less value (floats.ofRat least) then none
    else some (cfg.put key (.count (floats.whole value)))
  | some .flag => some (cfg.put key (.flag on))
  | some .number => some (cfg.put key (.number value))
  | some .positive =>
    if floats.less (floats.ofRat 0) value then some (cfg.put key (.number value)) else none
  | some .one => if floats.equal value (floats.ofRat 1) then some cfg else none
  | some .on => if on then some cfg else none
  | some .off => if on then none else some cfg

/-- The keys that wait for an upload. -/
def uploads : List Text :=
  ["h".toList, "density".toList, "kTri".toList, "kBend".toList, "kAttach".toList,
    "rawStiffness".toList, "membrane".toList, "bending".toList, "colors".toList, "selfK".toList,
    "alGamma".toList]

/-- The keys that `setLive` copies. -/
def lives : List Text :=
  ["iters".toList, "damp".toList, "al".toList, "contact".toList, "frictionPred".toList,
    "selfCollision".toList, "selfPasses".toList, "bwdTruncateK".toList,
    "gradientClipping".toList, "gradientClippingThreshold".toList,
    "nativeMuDoubleCarry".toList, "gravityX".toList, "gravityY".toList, "gravityZ".toList,
    "windX".toList, "windY".toList, "windZ".toList, "mu".toList]

/-- `setLive`. -/
def setLive (live : Config R) : Config R :=
  fun key => if key ∈ lives then live key else cfg key

variable {floats}

/-- A setting that is put is there. -/
theorem put_self (setting : Setting R) (key : Text) : cfg.put key setting key = some setting :=
  if_pos rfl

/-- Every setting but the one that is put stays. -/
theorem put_of_ne (setting : Setting R) {key other : Text} (ne : other ≠ key) :
    cfg.put key setting other = cfg other :=
  if_neg ne

/-- A number is kept under its key whatever it is. -/
theorem set_number (value : R) {key : Text} (takes : taking key = some .number) :
    cfg.set floats key value = some (cfg.put key (.number value)) := by
  unfold Config.set
  rw [takes]

end Config

end Settings

section Scene

variable (R : Type)

/-- The shape of a primitive. -/
inductive Shape where
  /-- `sphere`, `plane` or `capsule`, with its parameters before the friction. -/
  | made (kind : Text) (params : List R)
  | mesh (positions : List R) (triangles : List Int) (skin band depth : R)
  deriving DecidableEq

/-- A primitive. -/
structure Primitive where
  shape : Shape R
  mu : R
  deriving DecidableEq

/-- `DrapeScene`, without what follows from the rest positions, the triangles and the
configuration. -/
structure Scene where
  name : Text
  nV : Nat
  rest : List R
  x0 : List R
  v0 : List R
  tri : List Nat
  attachVert : List Nat
  attachFixed : List R
  prims : List (Primitive R)
  nFit : Nat
  fitK : R
  fitGap : R
  fitRefresh : Int
  fitSimilarity : Bool
  fitAnchor : List Nat
  nAnchorAtt : Nat
  anchorK : R
  fitRestEvery : Int
  fitSettle : Int
  deriving DecidableEq

namespace Scene

variable {R} (floats : Floats R)

/-- A scene as it is made. -/
def empty : Scene R where
  name := []
  nV := 0
  rest := []
  x0 := []
  v0 := []
  tri := []
  attachVert := []
  attachFixed := []
  prims := []
  nFit := 0
  fitK := floats.ofRat 0
  fitGap := floats.ofRat 0
  fitRefresh := 1
  fitSimilarity := false
  fitAnchor := []
  nAnchorAtt := 0
  anchorK := floats.ofRat 100
  fitRestEvery := 4
  fitSettle := 0

/-- An index that names no vertex. -/
def outside (nV : Nat) (index : Int) : Bool := decide (index < 0) || decide ((nV : Int) ≤ index)

/-- The rest positions of some vertices. -/
def restOf (rest : List R) (verts : List Int) : List R :=
  verts.flatMap fun vert => (rest.drop (3 * vert.toNat)).take 3

/-- `scene_mesh`. -/
def mesh (scene : Scene R) (pos : List R) (tris pins : List Int) : Except Text (Scene R) :=
  let nV := pos.length / 3
  if pos.length < 9 ∨ pos.length % 3 ≠ 0 then
    .error "positions must be 3 floats per vertex, at least 3 vertices".toList
  else if tris = [] ∨ tris.length % 3 ≠ 0 then
    .error "triangles must be 3 indices each".toList
  else if tris.any (outside nV) then .error "triangle index out of range".toList
  else if pins.any (outside nV) then .error "pin index out of range".toList
  else if pos.all floats.finite = false then .error "non-finite position".toList
  else
    .ok { empty floats with
      name := "mesh".toList
      prims := scene.prims
      nV := nV
      rest := pos
      x0 := pos
      v0 := pos.map fun _ => floats.ofRat 0
      tri := tris.map Int.toNat
      attachVert := pins.map Int.toNat
      attachFixed := restOf pos pins }

/-- `nPin()`. -/
def nPin (scene : Scene R) : Nat := scene.attachVert.length - scene.nFit - scene.nAnchorAtt

/-- `scene_fit_set`. -/
def fitSet (scene : Scene R) (verts : List Int) (k gap : R) (refresh : Int) (similarity : Bool)
    (anchor : List Int) (restEvery settle : Int) (anchorK : R) : Except Text (Scene R) :=
  if scene.nV = 0 then .error "no scene".toList
  else if refresh < 1 ∨ restEvery < 1 ∨ settle < 0 then
    .error "refresh and restEvery must be >= 1, settle >= 0".toList
  else if verts.any (outside scene.nV) then .error "fit vertex index out of range".toList
  else if anchor.any (outside scene.nV) then .error "anchor vertex index out of range".toList
  else
    .ok { scene with
      fitAnchor := anchor.map Int.toNat
      attachVert := scene.attachVert.take scene.nPin ++ verts.map Int.toNat
        ++ anchor.map Int.toNat
      attachFixed := scene.attachFixed.take (3 * scene.nPin) ++ restOf scene.rest verts
        ++ restOf scene.rest anchor
      nFit := verts.length
      nAnchorAtt := anchor.length
      anchorK := anchorK
      fitK := k
      fitGap := gap
      fitRefresh := refresh
      fitSimilarity := similarity
      fitRestEvery := restEvery
      fitSettle := settle }

end Scene

end Scene

section Session

variable (R : Type)

/-- A stage on the queue. -/
inductive Queued where
  /-- The first stage of a forward. -/
  | forward (steps : Nat)
  | forwardStage
  /-- The first stage of a fit. -/
  | fit (maxSteps : Nat) (tol : R)
  | fitStage
  deriving DecidableEq

/-- The phases of a step. -/
inductive Phase where
  | idle
  | solved
  | scanned
  deriving DecidableEq

/-- `DrapeSessionT` with its simulation, and the queue of its stages. -/
structure Session where
  backend : Text
  cfg : Config R
  scene : Scene R
  /-- `sim->x`, three floats a vertex. -/
  x : List R
  /-- The completed steps. -/
  steps : Nat
  phase : Phase
  pos : List R
  pass : Int
  failed : Bool
  err : Text
  fwdRemaining : Nat
  fwdAsked : Nat
  fwdFrom : Nat
  res : Text
  okFlag : Bool
  queue : List (Queued R)
  done : Nat
  total : Nat
  /-- A submit is in flight. -/
  pending : Bool

/-- What a stage meets outside of the session. -/
structure Outcome where
  /-- `solver.run` reports no error. -/
  runs : Bool
  /-- What `readPositions` reads. -/
  readback : List R
  /-- The projections of the contacts: a coordinate, and what is taken from it. -/
  contacts : List (Nat × R)
  /-- `submitSelfCollisionScan` reports no error. -/
  scans : Bool
  /-- The pushes of the pairs that the scan found: a coordinate of each vertex, and the push. -/
  pushes : List (Nat × Nat × R)
  /-- A submit is in flight after the stage. -/
  pending : Bool
  /-- A stage of a fit ends it, with this verdict and these positions. -/
  fitted : Option (Text × List R)
  /-- The figures of a verdict. -/
  figures : Text

/-- What a call meets outside of the guest. -/
structure Outside where
  /-- Why `BodyMesh::build` refuses a mesh, or nothing. -/
  body : List R → List Int → Option Text
  /-- Why the device makes no solver, or nothing. -/
  device : Option Text
  describe : Scene R → Text
  dump : Config R → Text

namespace Session

variable {R} (floats : Floats R)

/-- `sim->finite()`. -/
def finite (s : Session R) : Bool := s.x.all floats.finite

/-- `submitScan`. -/
def submitScan (o : Outcome R) (s : Session R) : Session R :=
  let s := { s with phase := .scanned }
  if o.scans then s
  else { s with failed := true, err := "self-collision scan failed".toList }

/-- `finishStep`. -/
def finishStep (s : Session R) : Session R :=
  { s with x := s.pos, steps := s.steps + 1, phase := .idle }

/-- `begin`. -/
def begin_ (o : Outcome R) (s : Session R) : Session R :=
  let s := { s with phase := .solved }
  if o.runs then s else { s with failed := true, err := "solver run failed".toList }

/-- The readback of `solved`; a short one leaves no numbers. -/
def readPositions (o : Outcome R) (s : Session R) : Session R :=
  let size := 3 * s.scene.nV
  if o.readback.length = size then { s with pos := o.readback }
  else
    { s with
      failed := true, err := "short readback".toList, pos := List.replicate size floats.nan }

/-- What is taken from the positions. -/
def taken (contacts : List (Nat × R)) (pos : List R) : List R :=
  contacts.foldl (fun pos (a, taken) => pos.modify a (floats.minus · taken)) pos

/-- The contacts of `solved`. -/
def respond (o : Outcome R) (s : Session R) : Session R :=
  if s.cfg.flag "contact".toList then { s with pos := taken floats o.contacts s.pos } else s

/-- `solved`, with whether the step is complete. -/
def solved (o : Outcome R) (s : Session R) : Session R × Bool :=
  let s := (s.readPositions floats o).respond floats o
  if s.cfg.flag "selfCollision".toList then ({ s with pass := 0 }.submitScan o, false)
  else (s.finishStep, true)

/-- `scanned`, with whether the step is complete. -/
def scanned (o : Outcome R) (s : Session R) : Session R × Bool :=
  let s := { s with
    pos := o.pushes.foldl
      (fun pos (a, b, push) => (pos.modify a (floats.plus · push)).modify b (floats.minus · push))
      s.pos
    pass := s.pass + 1 }
  if o.pushes ≠ [] ∧ s.pass < s.cfg.count "selfPasses".toList then (s.submitScan o, false)
  else (s.finishStep, true)

/-- `advance`: one phase of the step, with whether the step is complete. -/
def advance (o : Outcome R) (s : Session R) : Session R × Bool :=
  match s.phase with
  | .idle => (s.begin_ o, false)
  | .solved => s.solved floats o
  | .scanned => s.scanned floats o

/-- `finishForward`. -/
def finishForward (o : Outcome R) (s : Session R) : Session R :=
  let ok := !s.failed && s.finite floats && decide (s.steps - s.fwdFrom = s.fwdAsked)
  { s with
    okFlag := ok
    res := (if ok then "DONE".toList else "FAIL".toList) ++ " forward ".toList ++ s.backend
      ++ o.figures ++ (if s.failed then " error=".toList ++ s.err else []) }

/-- `forwardStage`. -/
def forwardStage (o : Outcome R) (s : Session R) : Session R :=
  let s :=
    if 0 < s.fwdRemaining ∧ s.failed = false then
      match s.advance floats o with
      | (s, true) => { s with fwdRemaining := s.fwdRemaining - 1 }
      | (s, false) => s
    else s
  if 0 < s.fwdRemaining ∧ s.failed = false then
    { s with queue := .forwardStage :: s.queue, total := s.total + 1 }
  else s.finishForward floats o

/-- `fitStage`, as far as it is seen from outside. -/
def fitStage (o : Outcome R) (s : Session R) : Session R :=
  match o.fitted with
  | none => { s with queue := .fitStage :: s.queue, total := s.total + 1 }
  | some (verdict, positions) => { s with res := verdict, x := positions }

/-- A stage that was taken from the queue. -/
def stage (o : Outcome R) (s : Session R) : Queued R → Session R
  | .forward steps =>
    { s with fwdRemaining := steps, fwdAsked := steps, fwdFrom := s.steps }.forwardStage floats o
  | .forwardStage => s.forwardStage floats o
  | .fit _ _ =>
    if s.scene.nFit = 0 then
      { s with res := "FAIL fit: no fit set (drape_fit_set first)".toList, okFlag := false }
    else s.fitStage o
  | .fitStage => s.fitStage o

/-- A stage ran, and counts as done. -/
def ran (o : Outcome R) (s : Session R) (next : Queued R) (rest : List (Queued R)) : Session R :=
  let s := { s with queue := rest }.stage floats o next
  { s with done := s.done + 1, pending := o.pending }

/-- `StageQueue::tick`, with what each of its stages meets. -/
def tick : List (Outcome R) → Session R → Session R
  | [], s => s
  | o :: later, s =>
    match s.queue with
    | [] => s
    | next :: rest =>
      if o.pending then s.ran floats o next rest else tick later (s.ran floats o next rest)

/-- `load`. -/
def load (below : Outside R) (scene : Scene R) (cfg : Config R) (s : Session R) :
    Session R × Option Text :=
  let s := { s with
    cfg := cfg, scene := scene, steps := 0, phase := .idle, pass := 0, pos := [] }
  if scene.nV = 0 then
    ({ s with x := [], failed := true, err := "no scene".toList, okFlag := false },
      some "no scene".toList)
  else
    ({ s with
        x := scene.x0
        failed := false
        err := []
        okFlag := true
        res := "LOADED ".toList ++ s.backend ++ " ".toList ++ below.describe scene ++ ['\n']
          ++ below.dump cfg }, none)

/-- A session on a new solver, before its first load. -/
def make (floats : Floats R) (backend : Text) : Session R where
  backend := backend
  cfg := Config.initial floats
  scene := Scene.empty floats
  x := []
  steps := 0
  phase := .idle
  pos := []
  pass := 0
  failed := false
  err := []
  fwdRemaining := 0
  fwdAsked := 0
  fwdFrom := 0
  res := []
  okFlag := true
  queue := []
  done := 0
  total := 0
  pending := false

end Session

end Session

/-- The globals of `drape.elf`. -/
structure Guest (R : Type) where
  want : Text
  cfg : Config R
  scene : Scene R
  sceneSet : Bool
  dirty : Bool
  session : Option (Session R)

namespace Guest

variable {R : Type} (floats : Floats R) (below : Outside R)

/-- The guest as it is loaded. -/
def booted : Guest R where
  want := "auto".toList
  cfg := Config.initial floats
  scene := Scene.empty floats
  sceneSet := false
  dirty := false
  session := none

/-- `session_busy`. -/
def busy (g : Guest R) : Bool :=
  match g.session with
  | none => false
  | some s => !s.queue.isEmpty || s.pending

/-- `BUSY: tick the queue empty first`. -/
def busyText : Text := "BUSY: tick the queue empty first".toList

/-- `kDrapeAutoRdVerts`. -/
def autoRdVerts : Nat := 160

/-- `drape_pick_backend`. -/
def pickBackend (want : Text) (nV : Nat) : Text :=
  if want = "auto".toList then
    if autoRdVerts ≤ nV then "rd".toList else "cpu".toList
  else want

/-- `make_drape_session`, or the device's error. -/
def makeDrapeSession (backend : Text) : Except Text (Session R) :=
  match below.device with
  | none => .ok (.make floats backend)
  | some error => if backend = "cpu".toList then .ok (.make floats backend) else .error error

/-- The session that `load_scene` loads: the present one where its backend is right, or a new
one. -/
def sessionFor (g : Guest R) (backend : Text) : Except Text (Session R) :=
  match g.session with
  | some s => if s.backend = backend then .ok s else makeDrapeSession floats below backend
  | none => makeDrapeSession floats below backend

/-- `load_scene`. -/
def loadScene (g : Guest R) : Guest R × Text :=
  let backend := pickBackend g.want g.scene.nV
  match g.sessionFor floats below backend with
  | .error error =>
    ({ g with session := none }, "FAIL ".toList ++ backend ++ ": ".toList ++ error)
  | .ok s =>
    match s.load below g.scene g.cfg with
    | (s, some error) => ({ g with session := some s }, "FAIL load: ".toList ++ error)
    | (s, none) => ({ g with session := some s, dirty := false }, s.res)

/-- `drape_open`. -/
def drapeOpen (g : Guest R) (backend : Text) : Guest R × Text :=
  if backend ≠ "cpu".toList ∧ backend ≠ "rd".toList ∧ backend ≠ "auto".toList then
    (g, "FAIL: backend must be cpu, rd or auto".toList)
  else if g.busy then (g, busyText)
  else ({ g with session := none, want := backend, sceneSet := false }, "OPENED ".toList ++ backend)

/-- The keys of a material. -/
def materialKeys : List Text :=
  ["density".toList, "kTri".toList, "kBend".toList, "kAttach".toList]

/-- The loop of `drape_scene_mesh` over its material: the configuration that it leaves, and the
key it stops at. -/
def setMaterial : List (Text × R) → Config R → Config R × Option Text
  | [], cfg => (cfg, none)
  | (key, value) :: later, cfg =>
    match cfg.set floats key value with
    | none => (cfg, some key)
    | some cfg => setMaterial later cfg

/-- `drape_scene_mesh`. -/
def drapeSceneMesh (g : Guest R) (pos : List R) (tris pins : List Int) (material : List R) :
    Guest R × Text :=
  if g.busy then (g, busyText)
  else
    match setMaterial floats (materialKeys.zip material) g.cfg with
    | (cfg, some key) => ({ g with cfg := cfg }, "FAIL: bad material ".toList ++ key)
    | (cfg, none) =>
      let g := { g with cfg := cfg }
      match g.scene.mesh floats pos tris pins with
      | .error error => (g, "FAIL: ".toList ++ error)
      | .ok scene => { g with scene := scene, sceneSet := true }.loadScene floats below

/-- `setPrims` after a change of the primitives. -/
def setPrims (g : Guest R) (prims : List (Primitive R)) : Guest R :=
  { g with
    scene := { g.scene with prims := prims }
    session := g.session.map fun s => { s with scene := { s.scene with prims := prims } } }

/-- The number of parameters of a kind of primitive, the friction among them. -/
def primitiveSize (kind : Text) : Option Nat :=
  if kind = "sphere".toList then some 5
  else if kind = "plane".toList then some 10
  else if kind = "capsule".toList then some 9
  else none

/-- `drape_primitive`. -/
def drapePrimitive (g : Guest R) (kind : Text) (params : List R) : Guest R × Text :=
  if kind = "clear".toList then
    let g := g.setPrims []
    (g, below.describe g.scene)
  else
    match primitiveSize kind with
    | none =>
      (g, "FAIL: kind sphere(5) | plane(10) | capsule(9) | clear, with that many params".toList)
    | some size =>
      if params.length < size then
        (g, "FAIL: kind sphere(5) | plane(10) | capsule(9) | clear, with that many params".toList)
      else
        let g := g.setPrims
          (g.scene.prims
            ++ [⟨.made kind (params.take (size - 1)), params.getD (size - 1) floats.nan⟩])
        (g, below.describe g.scene)

/-- `drape_primitive_mesh`. -/
def drapePrimitiveMesh (g : Guest R) (pos : List R) (tris : List Int) (params : List R) :
    Guest R × Text :=
  let param (n : Nat) (value : ℚ) := params.getD n (floats.ofRat value)
  match below.body pos tris with
  | some error => (g, "FAIL: ".toList ++ error)
  | none =>
    let g := g.setPrims
      (g.scene.prims
        ++ [⟨.mesh pos tris (param 0 (1 / 10)) (param 2 (1 / 10)) (param 3 1),
          param 1 (3 / 10)⟩])
    (g, below.describe g.scene)

/-- `drape_config`. -/
def drapeConfig (g : Guest R) (key : Text) (value : R) : Guest R × Text :=
  match g.cfg.set floats key value with
  | none => (g, "FAIL: unknown or refused key ".toList ++ key)
  | some cfg =>
    let g := { g with cfg := cfg }
    let g :=
      if key ∈ Config.uploads then { g with dirty := true }
      else
        { g with session := g.session.map fun s => { s with cfg := s.cfg.setLive cfg } }
    let g :=
      match g.scene.prims with
      | first :: later =>
        if key = "mu".toList then g.setPrims ({ first with mu := value } :: later) else g
      | [] => g
    (g, "SET ".toList
      ++ (if key ∈ Config.uploads then "(re-uploads and rewinds on the next forward) ".toList
        else [])
      ++ below.dump cfg)

/-- The upload of a changed knob before a queued operation: the refusal, or nothing. -/
def refresh (g : Guest R) : Guest R × Option Text :=
  if g.dirty then
    if g.busy then
      (g, some "BUSY: a changed knob needs a re-upload; tick the queue empty first".toList)
    else
      match g.loadScene floats below with
      | (g, answer) => (g, if beginsWith answer "FAIL".toList then some answer else none)
  else (g, none)

/-- `drape_queue_forward`. -/
def drapeQueueForward (g : Guest R) (steps : Int) : Guest R × Text :=
  match g.session, g.sceneSet with
  | some _, true =>
    match g.refresh floats below with
    | (g, some answer) => (g, answer)
    | (g, none) =>
      match g.session with
      | none => (g, []) -- a loaded guest has a session
      | some s =>
        if steps ≤ 0 then
          if g.busy then (g, busyText)
          else
            ({ g with
                session := some { s with
                  x := s.scene.x0, steps := 0, phase := .idle, failed := false, err := [] } },
              "REWOUND".toList)
        else
          ({ g with
              session := some { s with
                queue := s.queue ++ [.forward steps.toNat], total := s.total + 1 } },
            "QUEUED forward ".toList ++ decimal steps.toNat ++ " on ".toList ++ s.backend)
  | _, _ =>
    (g, "FAIL: no scene (drape_scene_sphere_demo or drape_scene_mesh)".toList)

/-- `drape_fit_set`. -/
def drapeFitSet (g : Guest R) (verts : List Int) (params : List R) (anchor : List Int) :
    Guest R × Text :=
  let param (n : Nat) (value : ℚ) := params.getD n (floats.ofRat value)
  let whole (n : Nat) (value : Int) :=
    match params[n]? with
    | some param => floats.whole param
    | none => value
  let similarity :=
    match params[3]? with
    | some param => !floats.equal param (floats.ofRat 0)
    | none => false
  if g.sceneSet = false ∨ g.scene.name ≠ "mesh".toList then
    (g, "FAIL: no scene_mesh scene (drape_scene_mesh first)".toList)
  else if g.busy then (g, busyText)
  else
    match g.scene.fitSet verts (param 0 600) (param 1 0) (whole 2 1) similarity anchor (whole 4 4)
        (whole 5 0) (param 6 100) with
    | .error error => (g, "FAIL: ".toList ++ error)
    | .ok scene =>
      ({ g with scene := scene, dirty := true },
        "FIT SET fit=".toList ++ decimal scene.nFit ++ " pins=".toList ++ decimal scene.nPin)

/-- `drape_queue_fit`. -/
def drapeQueueFit (g : Guest R) (maxSteps : Int) (tol : R) : Guest R × Text :=
  match g.session, g.sceneSet with
  | some _, true =>
    if maxSteps < 1 ∨ !(floats.less (floats.ofRat 0) tol || floats.equal (floats.ofRat 0) tol) then
      (g, "FAIL: max_steps >= 1 and tol >= 0".toList)
    else if g.scene.nFit = 0 then (g, "FAIL: no fit set (drape_fit_set first)".toList)
    else
      match g.refresh floats below with
      | (g, some answer) => (g, answer)
      | (g, none) =>
        match g.session with
        | none => (g, []) -- a loaded guest has a session
        | some s =>
          ({ g with
              session := some { s with
                queue := s.queue ++ [.fit maxSteps.toNat tol], total := s.total + 1 } },
            "QUEUED fit ".toList ++ decimal maxSteps.toNat ++ " on ".toList ++ s.backend)
  | _, _ => (g, "FAIL: no scene (drape_scene_mesh)".toList)

/-- `drape_tick`, with what each of its stages meets. -/
def drapeTick (g : Guest R) (outcomes : List (Outcome R)) : Guest R × Text :=
  match g.session with
  | none => (g, "IDLE no session".toList)
  | some s =>
    let s := s.tick floats outcomes
    ({ g with session := some s },
      if !s.queue.isEmpty || s.pending then
        "RUNNING ".toList ++ decimal s.done ++ "/".toList ++ decimal s.total
      else "IDLE ".toList ++ s.res.takeWhile (· ≠ '\n'))

/-- `drape_positions`. -/
def drapePositions (g : Guest R) : List R :=
  match g.session with
  | none => []
  | some s => s.x

/-! ### A loaded scene -/

variable {floats below} {g : Guest R} {s : Session R}

/-- The session runs the guest's scene with its configuration, and nothing is queued. -/
structure Loaded (g : Guest R) (s : Session R) : Prop where
  session : g.session = some s
  queue : s.queue = []
  pending : s.pending = false
  failed : s.failed = false
  cfg : s.cfg = g.cfg
  scene : s.scene = g.scene
  vertices : 0 < g.scene.nV
  clean : g.dirty = false

/-- The session of an idle guest is idle. -/
theorem sessionFor_idle {backend : Text} (idle : g.busy = false)
    (made : g.sessionFor floats below backend = .ok s) : s.queue = [] ∧ s.pending = false := by
  have fresh (made : makeDrapeSession floats below backend = .ok s) :
      s.queue = [] ∧ s.pending = false := by
    unfold makeDrapeSession at made
    split at made
    · cases made
      exact ⟨rfl, rfl⟩
    · split at made
      · cases made
        exact ⟨rfl, rfl⟩
      · cases made
  unfold sessionFor at made
  split at made
  next present session =>
    split at made
    · cases made
      unfold busy at idle
      rw [session] at idle
      simpa using idle
    · exact fresh made
  · exact fresh made

/-- A load that does not fail leaves the scene loaded. -/
theorem loadScene_taken (idle : g.busy = false) (vertices : 0 < g.scene.nV)
    (taken : beginsWith (g.loadScene floats below).2 "FAIL".toList = false) :
    ∃ s, Loaded (g.loadScene floats below).1 s ∧ (g.loadScene floats below).1.cfg = g.cfg ∧
      (g.loadScene floats below).1.scene = g.scene ∧
      (g.loadScene floats below).1.sceneSet = g.sceneSet := by
  unfold loadScene at taken ⊢
  dsimp only at taken ⊢
  cases made : g.sessionFor floats below (pickBackend g.want g.scene.nV) with
  | error error =>
    rw [made] at taken
    cases taken
  | ok s =>
    obtain ⟨queue, pending⟩ := sessionFor_idle idle made
    dsimp only [Session.load]
    rw [if_neg (Nat.ne_of_gt vertices)]
    exact ⟨_, ⟨rfl, queue, pending, rfl, rfl, rfl, vertices, rfl⟩, rfl, rfl, rfl⟩

/-- A mesh that is taken has vertices, and the primitives stay. -/
theorem mesh_taken {scene made : Scene R} {pos : List R} {tris pins : List Int}
    (taken : scene.mesh floats pos tris pins = .ok made) :
    0 < made.nV ∧ made.prims = scene.prims := by
  unfold Scene.mesh at taken
  dsimp only at taken
  split at taken
  · cases taken
  next sized =>
    split at taken
    · cases taken
    · split at taken
      · cases taken
      · split at taken
        · cases taken
        · split at taken
          · cases taken
          · cases taken
            have : ¬ pos.length < 9 := fun short => sized (Or.inl short)
            refine ⟨?_, rfl⟩
            show 0 < pos.length / 3
            omega

/-- A mesh without a material that is neither refused nor too early is loaded. -/
theorem drapeSceneMesh_taken {pos : List R} {tris pins : List Int}
    (taken : beginsWith (g.drapeSceneMesh floats below pos tris pins []).2 "FAIL".toList = false)
    (idle : beginsWith (g.drapeSceneMesh floats below pos tris pins []).2 "BUSY".toList = false) :
    ∃ s, Loaded (g.drapeSceneMesh floats below pos tris pins []).1 s ∧
      (g.drapeSceneMesh floats below pos tris pins []).1.cfg = g.cfg ∧
      (g.drapeSceneMesh floats below pos tris pins []).1.scene.prims = g.scene.prims ∧
      (g.drapeSceneMesh floats below pos tris pins []).1.sceneSet = true := by
  unfold drapeSceneMesh at taken idle ⊢
  split at idle
  · cases idle
  next free =>
    have free : g.busy = false := by simpa using free
    rw [if_neg (by simp [free])] at taken ⊢
    have none_set : setMaterial floats (materialKeys.zip ([] : List R)) g.cfg = (g.cfg, none) := by
      rw [List.zip_nil_right]
      rfl
    rw [none_set] at taken ⊢
    dsimp only at taken ⊢
    cases mesh : g.scene.mesh floats pos tris pins with
    | error error =>
      rw [mesh] at taken
      cases taken
    | ok scene =>
      rw [mesh] at taken
      obtain ⟨vertices, prims⟩ := mesh_taken mesh
      obtain ⟨s, loaded, cfg, same, set⟩ :=
        loadScene_taken (g := { g with scene := scene, sceneSet := true }) free vertices taken
      exact ⟨s, loaded, cfg, (congrArg Scene.prims same).trans prims, set⟩

/-- A clean guest is not refreshed. -/
theorem refresh_of_clean (clean : g.dirty = false) : g.refresh floats below = (g, none) := by
  unfold refresh
  rw [if_neg (by simp [clean])]

/-- A loaded guest is idle. -/
theorem Loaded.idle (loaded : Loaded g s) : g.busy = false := by
  unfold busy
  rw [loaded.session]
  simp [loaded.queue, loaded.pending]

/-- A forward that is queued on a loaded scene is alone on the queue. -/
theorem drapeQueueForward_queued {steps : Int} (loaded : Loaded g s) (set : g.sceneSet = true)
    (queued : beginsWith (g.drapeQueueForward floats below steps).2 "QUEUED".toList = true) :
    0 < steps ∧ (g.drapeQueueForward floats below steps).1 = { g with
      session := some { s with queue := [.forward steps.toNat], total := s.total + 1 } } := by
  unfold drapeQueueForward at queued ⊢
  simp only [loaded.session, set, refresh_of_clean loaded.clean, loaded.idle] at queued ⊢
  split at queued
  · cases queued
  next positive =>
    rw [if_neg positive, loaded.queue]
    exact ⟨Int.not_le.1 positive, rfl⟩

end Guest

/-! ### A small host -/

/-- The numbers themselves, with `none` for what is no number. -/
def numbers : Floats (Option ℚ) where
  ofRat := some
  less
    | some one, some other => decide (one < other)
    | _, _ => false
  equal
    | some one, some other => decide (one = other)
    | _, _ => false
  plus one other := do return (← one) + (← other)
  minus one other := do return (← one) - (← other)
  divided one other := do return (← one) / (← other)
  whole
    | some value => value.num.tdiv value.den
    | none => 0
  finite := Option.isSome
  nan := none
  nan_not_finite := rfl
  nan_minus _ := rfl
  not_less_ofRat _ _ le := decide_eq_false (not_lt.2 le)
  zero_less_ofRat _ above := decide_eq_true (lt_of_lt_of_le (by norm_num) above)
  whole_ofRat value _ := by
    show ((value : ℚ).num).tdiv ((value : ℚ).den) = value
    rw [Rat.num_intCast, Rat.den_intCast]
    exact Int.tdiv_one value

/-- A host without a device, where every body is one. -/
def bare : Outside (Option ℚ) where
  body _ _ := none
  device := some "no device".toList
  describe _ := "[drape-scene]".toList
  dump _ := "[drape-config]".toList

end DressOn.Host
