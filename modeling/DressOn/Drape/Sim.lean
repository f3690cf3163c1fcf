import DressOn.Drape.Solver

/-!
# A simulated step

`DrapeSimT`: the setup of a scene on a solver, the refresh of the fit targets and
of the rest shape, and a step in three phases: predictor and solve, contacts,
self-collision. A call of the solver that reports an error is a `Fault`, chosen
by whoever advances the step.
-/

namespace DressOn.Drape

open DressOn.Avbd (Vec3)

section Data

/-- A contact of the predictor. -/
structure PredContact (α : Type*) where
  vert : Nat
  prim : Nat
  normal : Vec3 α
  dsT : Vec3 α
  muClip : α

/-- A contact after the solve. -/
structure Contact (α : Type*) where
  vert : Nat
  prim : Nat
  normal : Vec3 α
  dist : α
  penetrating : Bool
  posBefore : Vec3 α
  vn : α
  muClip : α
  vTan : Vec3 α

/-- A velocity response that depends on the friction coefficient. -/
structure Friction (α : Type*) where
  prim : Nat
  vert : Nat
  vTan : Vec3 α

/-- A self-collision push. -/
structure Push (α : Type*) where
  a : Nat
  b : Nat
  diff : Vec3 α
  dist : α
  thresh : α

/-- `DrapeStepRecord`. The two lists of primitives are not in the source: they
keep what the contacts were made with. -/
structure Record (σ α : Type*) where
  s : Nat → Vec3 α
  sBlend : Nat → Vec3 α
  xAvbd : Nat → Vec3 α
  x : Nat → Vec3 α
  v : Nat → Vec3 α
  pred : List (PredContact α)
  contacts : List (Contact α)
  fric : List (Friction α)
  pushes : List (Push α)
  passEnd : List Nat
  predPrims : List (Primitive σ α)
  contactPrims : List (Primitive σ α)

/-- The phases of a step. -/
inductive Phase where
  | idle
  | solved
  | scanned
deriving DecidableEq

/-- Which calls of the solver report an error in a stage. -/
structure Fault where
  submit : Bool
  read : Bool
deriving DecidableEq

/-- `DrapeSimT`. -/
structure Sim (σ α : Type*) where
  solver : Solver α
  cfg : Config α
  scene : Scene σ α
  x : Nat → Vec3 α
  v : Nat → Vec3 α
  recs : List (Record σ α)
  err : String
  failed : Bool
  fitActive : Bool
  fitSettling : Bool
  fitSteps : Nat
  lastMaxDisp : α
  /-- `fitRest0`; empty before the first fit. -/
  fitRest0 : Option (Nat → Vec3 α)
  phase : Phase
  cur : Record σ α
  pos : Nat → Vec3 α
  vel : Nat → Vec3 α
  pass : Nat

end Data

section Turns

variable {σ α : Type*}

/-- `for` every vertex, `for` every primitive. -/
def forContacts {τ : Type*} (nV : Nat) (prims : List (Primitive σ α))
    (turn : Nat → Nat → Primitive σ α → τ → τ) (st : τ) : τ :=
  (List.range nV).foldl (fun st i => prims.zipIdx.foldl (fun st e => turn i e.2 e.1 st) st) st

/-- An empty record. -/
def Record.empty [Zero α] : Record σ α where
  s _ := 0
  sBlend _ := 0
  xAvbd _ := 0
  x _ := 0
  v _ := 0
  pred := []
  contacts := []
  fric := []
  pushes := []
  passEnd := []
  predPrims := []
  contactPrims := []

variable [Field α] [LinearOrder α] (geometry : Geometry σ α)

/-- `clamp(mu, 0, 1)`. -/
def muClip (mu : α) : α := min 1 (max 0 mu)

/-- One turn of the friction blend: the tangent part of the predicted move is scaled. -/
def blendTurn (x v : Nat → Vec3 α) (i p : Nat) (pr : Primitive σ α)
    (st : (Nat → Vec3 α) × List (PredContact α)) : (Nat → Vec3 α) × List (PredContact α) :=
  match geometry.isInContact pr.shape (x i) (v i) with
  | none => st
  | some touching =>
      if pr.mu ≤ 0 then st
      else
        let muc := muClip pr.mu
        let ds := st.1 i - x i
        let dsN := (ds ⬝ᵥ touching.normal) • touching.normal
        let dsT := ds - dsN
        (Function.update st.1 i (x i + (dsN + (1 - muc) • dsT)),
          st.2 ++ [⟨i, p, touching.normal, dsT, muc⟩])

/-- What the contacts after the solve write. -/
structure Response (α : Type*) where
  pos : Nat → Vec3 α
  vel : Nat → Vec3 α
  contacts : List (Contact α)
  fric : List (Friction α)

/-- One turn of the contacts after the solve: the projection and the velocity response. -/
def contactTurn (i p : Nat) (pr : Primitive σ α) (st : Response α) : Response α :=
  match geometry.isInContact pr.shape (st.pos i) (st.vel i) with
  | none => st
  | some touching =>
      let pb := st.pos i
      let pen := decide (touching.dist < 0)
      let vrel := st.vel i - touching.vOut
      let vn := vrel ⬝ᵥ touching.normal
      let vtan := vrel - vn • touching.normal
      let clip := muClip pr.mu
      let vnA := if vn < 0 then 0 else vn
      let after := (1 - clip) • vtan + vnA • touching.normal
      { pos := if pen then Function.update st.pos i (pb - touching.dist • touching.normal) else st.pos
        vel := Function.update st.vel i (after + touching.vOut)
        contacts := st.contacts ++ [⟨i, p, touching.normal, touching.dist, pen, pb, vn, clip, vtan⟩]
        fric := if 0 < pr.mu ∧ pr.mu < 1 then st.fric ++ [⟨p, i, vtan⟩] else st.fric }

/-- One pair of the self-collision scan: vertices closer than their radii are pushed apart. -/
def pushTurn (radii : Nat → α) (st : (Nat → Vec3 α) × List (Push α)) (pair : Nat × Nat) :
    (Nat → Vec3 α) × List (Push α) :=
  let (a, b) := pair
  let diff := st.1 a - st.1 b
  let dist := norm geometry diff
  let thresh := radii a + radii b
  if dist < thresh ∧ 1 / 10 ^ 10 < dist then
    let push := ((thresh - dist) * (1 / 2)) • (1 / dist) • diff
    let moved := Function.update st.1 a (st.1 a + push)
    (Function.update moved b (moved b - push), st.2 ++ [⟨a, b, diff, dist, thresh⟩])
  else st

end Turns

namespace Sim

section Setup

variable {σ α : Type*} [Field α] (geometry : Geometry σ α)

/-- The triangles `setup` uploads: none without the membrane. -/
def uploadedTri (cfg : Upload α) (scene : Scene σ α) : List (Fin 3 → Nat) :=
  if cfg.membrane then scene.tri else []

/-- The stencils `setup` uploads: none without the bending. -/
def uploadedBend (cfg : Upload α) (scene : Scene σ α) : List (Fin 4 → Nat) :=
  if cfg.bending then scene.bendIdx else []

/-- The uploads of `setup`. -/
def uploads (cfg : Upload α) (scene : Scene σ α) (buffers : Buffers α) : Buffers α :=
  let invHSq := 1 / (cfg.h * cfg.h)
  let buffers := buffers.setupMesh scene.nV scene.x0 scene.x0 scene.material.mass invHSq
  let buffers :=
    buffers.uploadAttachments scene.attachVert scene.attachFixed scene.material.attachK
  let buffers :=
    buffers.uploadTriangles (uploadedTri cfg scene) scene.restData.triInvUV scene.material.triK
  let buffers := buffers.uploadBendings (uploadedBend cfg scene) scene.restData.bendW
    scene.restData.bendN scene.material.bendK
  let buffers :=
    match cfg.alGamma with
    | none => buffers
    | some alGamma => buffers.setGammaScale alGamma
  let buffers := if cfg.colors then buffers.buildColoring else buffers
  buffers.uploadSelfCollisionRadii scene.restData.radii cfg.selfK

/-- `setup`: upload the scene and material; reset the state and the records. -/
def setup (sim : Sim σ α) : Sim σ α :=
  let scene := sim.scene.applyMaterial geometry sim.cfg.toUpload
  { sim with
    scene := scene
    solver := sim.solver.withBuffers (uploads sim.cfg.toUpload scene sim.solver.buffers)
    err := ""
    failed := false
    x := scene.x0
    v := scene.v0
    recs := []
    phase := .idle }

/-- A new `DrapeSimT` on a solver, with the scene and the configuration `load` gives it. -/
def make (solver : Solver α) (scene : Scene σ α) (cfg : Config α) : Sim σ α where
  solver := solver
  cfg := cfg
  scene := scene
  x _ := 0
  v _ := 0
  recs := []
  err := ""
  failed := false
  fitActive := false
  fitSettling := false
  fitSteps := 0
  lastMaxDisp := 0
  fitRest0 := none
  phase := .idle
  cur := .empty
  pos _ := 0
  vel _ := 0
  pass := 0

/-- A new simulation, set up. -/
def load (solver : Solver α) (scene : Scene σ α) (cfg : Config α) : Sim σ α :=
  setup geometry (make solver scene cfg)

/-- `rewind`. -/
def rewind (sim : Sim σ α) : Sim σ α :=
  { sim with
    x := sim.scene.x0
    v := sim.scene.v0
    recs := []
    phase := .idle
    failed := false
    err := "" }

/-- `setFitPull`: off, the fit attachments have no stiffness. -/
def setFitPull (on : Bool) (sim : Sim σ α) : Sim σ α :=
  if sim.scene.nAttach = 0 then sim
  else
    let k a :=
      if !on ∧ sim.scene.nPin ≤ a ∧ a < sim.scene.nPin + sim.scene.nFit then 0
      else sim.scene.material.attachK a
    { sim with solver := sim.solver.withBuffers (sim.solver.buffers.updateAttachmentStiffness k) }

/-- A fit phase begins: gravity and damping off, the rest shape is its source. -/
def beginFit (sim : Sim σ α) : Sim σ α :=
  { sim with
    cfg := { sim.cfg with gravity := 0, damp := 0 }
    fitActive := true
    fitSettling := false
    fitSteps := 0
    fitRest0 := some sim.scene.rest }

/-- The settle begins: the fit pull goes off. -/
def beginSettle (sim : Sim σ α) : Sim σ α := { sim with fitSettling := true }.setFitPull false

/-- The settle ends: the fit pull goes back on. -/
def endSettle (sim : Sim σ α) : Sim σ α := { sim.setFitPull true with fitSettling := false }

/-- A fit phase ends: the saved settings are written back. -/
def finishFit (gravity : Vec3 α) (damp : α) (sim : Sim σ α) : Sim σ α :=
  { sim with cfg := { sim.cfg with gravity := gravity, damp := damp }, fitActive := false }

end Setup

section Refresh

variable {σ α : Type*} [Field α] (geometry : Geometry σ α)

/-- The mean of a list of points. -/
def centroid (points : List (Vec3 α)) : Vec3 α := (1 / (points.length : α)) • points.sum

/-- The similarity of the source garment onto the current vertices. -/
def similarity (sim : Sim σ α) (rest0 : Nat → Vec3 α) : Option (Vec3 α → Vec3 α) :=
  let pivots :=
    if sim.scene.fitAnchor.isEmpty then none
    else some (centroid (sim.scene.fitAnchor.map rest0), centroid (sim.scene.fitAnchor.map sim.x))
  geometry.similarityFit sim.scene.nV rest0 sim.x pivots

/-- The scene at a new rest shape: `scene_finish`, then `applyMaterial`. -/
def reshaped (cfg : Upload α) (scene : Scene σ α) (rest : Nat → Vec3 α) : Scene σ α :=
  Scene.applyMaterial
    { scene with
      rest := rest
      restData := geometry.sceneFinish scene.nV scene.tri rest
      bendIdx := geometry.bendIdx scene.tri }
    geometry cfg

/-- The updates in place after a new rest shape. -/
def restUploads (cfg : Upload α) (scene : Scene σ α) (buffers : Buffers α) : Buffers α :=
  let buffers :=
    if cfg.membrane ∧ 0 < scene.nTri then
      buffers.updateTriangleRest scene.restData.triInvUV scene.material.triK
    else buffers
  let buffers :=
    if cfg.bending ∧ 0 < scene.nBend then
      buffers.updateBendingRest scene.restData.bendW scene.restData.bendN scene.material.bendK
    else buffers
  let buffers := buffers.updateSelfCollisionRadii scene.restData.radii
  if 0 < scene.nAttach then buffers.updateAttachmentStiffness scene.material.attachK else buffers

/-- `refreshRest`. -/
def refreshRest (sim : Sim σ α) : Sim σ α :=
  match sim.fitRest0 with
  | none => sim
  | some rest0 =>
      match sim.similarity geometry rest0 with
      | none => sim
      | some transform =>
          let scene := reshaped geometry sim.cfg.toUpload sim.scene fun i => transform (rest0 i)
          { sim with
            scene := scene
            solver :=
              sim.solver.withBuffers (restUploads sim.cfg.toUpload scene sim.solver.buffers) }

/-- The first mesh among the primitives. -/
def fitMesh (prims : List (Primitive σ α)) : Option (Primitive σ α) :=
  prims.find? fun pr => geometry.isMesh pr.shape

/-- The target of a vertex: its own position where no collider answers. -/
def fitTarget (scene : Scene σ α) (p : Vec3 α) : Vec3 α :=
  match fitMesh geometry scene.prims with
  | none => p
  | some mesh => (geometry.meshFitTarget mesh.shape p scene.fitGap).getD p

/-- `refreshFitTargets`. -/
def refreshFitTargets (sim : Sim σ α) : Sim σ α :=
  let scene := sim.scene
  let vtx a := scene.attachVert[a]!
  let first := scene.nPin + scene.nFit
  let fixed a :=
    if scene.nPin ≤ a ∧ a < first then fitTarget geometry scene (sim.x (vtx a))
    else scene.attachFixed a
  let fixed :=
    match sim.fitRest0 with
    | none => fixed
    | some rest0 =>
        let shift := centroid (scene.fitAnchor.map fun i => rest0 i - sim.x i)
        fun a => if first ≤ a ∧ a < scene.nAttach then sim.x (vtx a) + shift else fixed a
  { sim with scene := { scene with attachFixed := fixed } }

/-- A fit step is due for new targets. -/
def refreshDue (sim : Sim σ α) : Bool :=
  sim.fitActive && !sim.fitSettling && decide (0 < sim.scene.nFit) &&
    sim.fitSteps % max 1 sim.scene.fitRefresh == 0

/-- And for a new rest shape. -/
def restDue (sim : Sim σ α) : Bool :=
  sim.scene.fitSimilarity && decide (0 < sim.fitSteps) &&
    sim.fitSteps % max 1 sim.scene.fitRestEvery == 0

/-- What `begin` refreshes. -/
def refresh (sim : Sim σ α) : Sim σ α :=
  if sim.refreshDue then
    (if sim.restDue then sim.refreshRest geometry else sim).refreshFitTargets geometry
  else sim

end Refresh

section Step

variable {σ α : Type*} [Field α] [LinearOrder α] (geometry : Geometry σ α) (kernels : Kernels α)

/-- `f_ext` of a vertex. -/
def fext (sim : Sim σ α) (i : Nat) : Vec3 α :=
  sim.scene.material.massD i • sim.cfg.gravity + sim.cfg.wind

/-- The predictor, with the velocity damped by a factor. -/
def predictor (sim : Sim σ α) (damp : α) (i : Nat) : Vec3 α :=
  let h := sim.cfg.h
  sim.x i + (h * damp) • sim.v i + (h * h * (1 / sim.scene.material.massD i)) • sim.fext i

/-- `predict`. -/
def predict (sim : Sim σ α) (r : Record σ α) : Record σ α :=
  let sb := if sim.cfg.damp = 1 then sim.predictor 1 else sim.predictor sim.cfg.damp
  let blended :=
    if sim.cfg.contact ∧ sim.cfg.frictionPred then
      forContacts sim.scene.nV sim.scene.prims (blendTurn geometry sim.x sim.v) (sb, [])
    else (sb, [])
  { r with
    s := sim.predictor 1
    sBlend := blended.1
    pred := blended.2
    predPrims := sim.scene.prims }

/-- `begin`: the refresh, the predictor, and the solve. -/
def start (fault : Fault) (sim : Sim σ α) : Sim σ α :=
  let sim := sim.refresh geometry
  let cur := sim.predict geometry .empty
  let buffers := sim.solver.buffers.updateState sim.x cur.sBlend
  let buffers :=
    if 0 < sim.scene.nAttach then buffers.updateAttachmentFixedPos sim.scene.attachFixed else buffers
  let sim := { sim with cur := cur, phase := .solved, solver := sim.solver.withBuffers buffers }
  if fault.submit then { sim with failed := true, err := "solver run failed" }
  else { sim with solver := sim.solver.run kernels sim.cfg.iters sim.cfg.al }

/-- `submitScan`. -/
def submitScan (fault : Fault) (sim : Sim σ α) : Sim σ α :=
  let sim := { sim with
    solver := sim.solver.withBuffers (sim.solver.buffers.updateState sim.pos sim.pos) }
  if fault.submit then { sim with failed := true, err := "self-collision scan failed" } else sim

/-- `finishStep`. -/
def finishStep (sim : Sim σ α) : Sim σ α :=
  { sim with
    lastMaxDisp := (List.range sim.scene.nV).foldl
      (fun md i => max md (norm geometry (sim.pos i - sim.x i))) 0
    fitSteps := if sim.fitActive then sim.fitSteps + 1 else sim.fitSteps
    x := sim.pos
    v := sim.vel
    recs := sim.recs ++ [{ sim.cur with x := sim.pos, v := sim.vel }]
    cur := .empty
    phase := .idle }

/-- What `solved` reads back, and the contacts on it. -/
def respond (fault : Fault) (sim : Sim σ α) : Sim σ α :=
  let xAvbd := if fault.read then kernels.shortRead else sim.solver.buffers.positions
  let start : Response α := ⟨xAvbd, fun i => (1 / sim.cfg.h) • (xAvbd i - sim.x i), [], []⟩
  let response :=
    if sim.cfg.contact then
      forContacts sim.scene.nV sim.scene.prims (contactTurn geometry) start
    else start
  { sim with
    failed := sim.failed || fault.read
    err := if fault.read then "short readback" else sim.err
    pos := response.pos
    vel := response.vel
    cur := { sim.cur with
      xAvbd := xAvbd
      contacts := response.contacts
      fric := response.fric
      contactPrims := sim.scene.prims } }

/-- `solved`; true when the step is complete. -/
def solved (fault : Fault) (sim : Sim σ α) : Sim σ α × Bool :=
  let sim := sim.respond geometry kernels fault
  if sim.cfg.selfCollision then
    ({ submitScan fault { sim with pass := 0 } with phase := .scanned }, false)
  else (sim.finishStep geometry, true)

/-- `scanned`; true when the step is complete. -/
def scanned (fault : Fault) (sim : Sim σ α) : Sim σ α × Bool :=
  let pairs := kernels.scan sim.solver.buffers
  let (pos, pushes) :=
    pairs.foldl (pushTurn geometry sim.scene.restData.radii) (sim.pos, sim.cur.pushes)
  let before := sim.cur.pushes.length
  let sim := { sim with
    pos := pos
    pass := sim.pass + 1
    cur := { sim.cur with pushes := pushes, passEnd := sim.cur.passEnd ++ [pushes.length] } }
  if before < pushes.length ∧ sim.pass < sim.cfg.selfPasses then (submitScan fault sim, false)
  else (sim.finishStep geometry, true)

/-- `advance`: one phase of the current step; true when the step is complete. -/
def advance (fault : Fault) (sim : Sim σ α) : Sim σ α × Bool :=
  match sim.phase with
  | .idle => (sim.start geometry kernels fault, false)
  | .solved => sim.solved geometry kernels fault
  | .scanned => sim.scanned geometry kernels fault

end Step

end Sim

section Pinned

/-- A geometry in which nothing touches. -/
def still : Geometry Unit ℚ where
  sqrt := id
  isInContact _ _ _ := none
  projectionJacobianT _ _ g := g
  isMesh _ := false
  meshFitTarget _ _ _ := none
  similarityFit _ _ _ _ := none
  sceneFinish _ _ _ := ⟨fun _ _ => 1, fun _ => 1, fun _ => 1, fun _ _ => 1, fun _ => 1,
    fun _ => 1, fun _ => 1⟩
  bendIdx _ := []

/-- One vertex, pinned where it is. -/
def pinned : Scene Unit ℚ where
  nV := 1
  tri := []
  bendIdx := []
  rest _ := 0
  x0 _ := 0
  v0 _ := 0
  restData := still.sceneFinish 1 [] fun _ => 0
  pins := [0]
  fitVerts := []
  fitAnchor := []
  attachFixed _ := 0
  fitK := 1
  fitGap := 0
  anchorK := 1
  fitRefresh := 1
  fitRestEvery := 1
  fitSettle := 0
  fitSimilarity := false
  prims := []
  material := ⟨fun _ => 0, fun _ => 0, fun _ => 0, fun _ => 0, fun _ => 0⟩
  nonempty := by decide

/-- Every setting one or off. -/
def plain : Config ℚ where
  h := 1
  density := 1
  kTri := 1
  kBend := 1
  kAttach := 1
  rawStiffness := false
  membrane := true
  bending := true
  colors := false
  selfK := 1
  alGamma := none
  iters := 1
  damp := 1
  al := false
  contact := true
  frictionPred := true
  selfCollision := false
  selfPasses := 1
  bwdTruncateK := 0
  gradientClipping := false
  gradientClippingThreshold := 1
  nativeMuDoubleCarry := false
  gravity := 0
  wind := 0
  mu := 1
  one_le_iters := by decide
  one_le_selfPasses := by decide

end Pinned

end DressOn.Drape
