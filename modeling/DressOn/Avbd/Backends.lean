import Mathlib.Data.List.Basic
import Mathlib.Logic.Function.Basic

/-!
# What the two back ends keep for the backward pass

`AvbdCpu` copies the positions and duals before every iteration. `AvbdRd`
records its work and submits it, and copies once for each recorded run, the
duals only while `lambdasDirty_` is set. The kernels are parameters, the same for
both; a buffer is the list of its real rows.
-/

namespace DressOn.Avbd.Backends

/-- The families of uploaded data. -/
inductive Family where
  | mesh
  | springs
  | attachments
  | triangles
  | bendings
deriving DecidableEq

/-- The uploaded data: `nVerts_`, `nSprings_`, `nAttach_`, `nTri_`, `nBend_` and
what belongs to each. -/
structure Loaded (V D : Type*) where
  count : Family → Nat
  data : Family → D
  predicted : List V

/-- The state an iteration and the dual updates change. -/
structure Live (V : Type*) where
  positions : List V
  attachLambda : List V
  triLambda0 : List V
  triLambda1 : List V
  bendLambda : List V

/-- The pre-step copies. -/
structure Pre (V : Type*) where
  positions : List V
  triLambda0 : List V
  triLambda1 : List V
  bendLambda : List V

/-- The kernels both back ends run. -/
structure Kernels (V D C : Type*) where
  /-- One iteration over a colouring. -/
  iteration : Loaded V D → C → Live V → List V
  attachmentDual : Loaded V D → Live V → List V
  membraneDual : Loaded V D → Live V → List V × List V
  bendingDual : Loaded V D → Live V → List V
  /-- `greedy_coloring`. -/
  greedyColoring : Loaded V D → C
  /-- The single batch `setupMesh` starts from. -/
  oneBatch : Nat → C
  /-- The solve writes rows in place. -/
  length_iteration : ∀ loaded coloring live,
    (iteration loaded coloring live).length = live.positions.length

/-- What a backward pass reads: a family without constraints dispatches nothing. -/
structure Reads (V : Type*) where
  positions : List V
  membrane : Option (List V × List V)
  bending : Option (List V)

variable {V D C : Type*}

/-- The first `n` rows behind a pointer. -/
def load (n : Nat) (pointer : Nat → V) : List V := (List.range n).map pointer

/-- As many are loaded as are asked for. -/
@[simp] theorem length_load (n : Nat) (pointer : Nat → V) : (load n pointer).length = n := by
  simp [load]

/-- A family's count and data are replaced. -/
def Loaded.upload (loaded : Loaded V D) (family : Family) (n : Nat) (data : D) : Loaded V D :=
  { loaded with
    count := Function.update loaded.count family n
    data := Function.update loaded.data family data }

/-- A family's data are replaced on the same constraints; without any there is
nothing to replace. -/
def Loaded.refresh (loaded : Loaded V D) (family : Family) (data : D) : Loaded V D :=
  if loaded.count family = 0 then loaded
  else { loaded with data := Function.update loaded.data family data }

/-- The buffers the backward kernels bind. -/
def Loaded.reads (loaded : Loaded V D) (pre : Pre V) : Reads V where
  positions := pre.positions
  membrane :=
    if loaded.count .triangles = 0 then none else some (pre.triLambda0, pre.triLambda1)
  bending := if loaded.count .bendings = 0 then none else some pre.bendLambda

/-- The calls. -/
inductive Op (V D : Type*) where
  | setupMesh (nVerts : Nat) (some : 0 < nVerts) (positions predicted : Nat → V) (data : D)
  | uploadSprings (nSprings : Nat) (data : D)
  | uploadAttachments (nAttach : Nat) (data : D)
  | uploadTriangles (nTri : Nat) (data : D)
  | uploadBendings (nBend : Nat) (data : D)
  /-- `updateAttachmentFixedPos`, `updateAttachmentStiffness`, `updateTriangleRest`,
  `updateBendingRest`. -/
  | updateRest (family : Family) (data : D)
  | buildColoring
  | updateState (positions predicted : Nat → V)
  | step
  | stepDualAttachments
  | stepDualMembrane
  | stepDualBending
  | run (iters : Int) (duals : Bool)
  | stepBackward
  | runWithBackward (iters : Int) (duals : Bool)

section Cpu

/-- The state of `AvbdCpu`. -/
structure AvbdCpu (V D C : Type*) where
  loaded : Loaded V D
  coloring : C
  live : Live V
  pre : Pre V
  meshReady : Bool

namespace AvbdCpu

variable [Zero V] (kernels : Kernels V D C)

/-- `setupMesh`: a new mesh invalidates the last step. -/
def setupMesh (s : AvbdCpu V D C) (nVerts : Nat) (positions predicted : Nat → V) (data : D) :
    AvbdCpu V D C :=
  { loaded := { s.loaded.upload .mesh nVerts data with predicted := load nVerts predicted }
    coloring := kernels.oneBatch nVerts
    live := { s.live with positions := load nVerts positions }
    pre := { s.pre with positions := [] }
    meshReady := true }

/-- `uploadSprings`. -/
def uploadSprings (s : AvbdCpu V D C) (nSprings : Nat) (data : D) : AvbdCpu V D C :=
  { s with loaded := s.loaded.upload .springs nSprings data }

/-- `uploadAttachments`. -/
def uploadAttachments (s : AvbdCpu V D C) (nAttach : Nat) (data : D) : AvbdCpu V D C :=
  { s with
    loaded := s.loaded.upload .attachments nAttach data
    live := { s.live with attachLambda := List.replicate nAttach 0 } }

/-- `uploadTriangles`. -/
def uploadTriangles (s : AvbdCpu V D C) (nTri : Nat) (data : D) : AvbdCpu V D C :=
  let zeros := List.replicate nTri (0 : V)
  { s with
    loaded := s.loaded.upload .triangles nTri data
    live := { s.live with triLambda0 := zeros, triLambda1 := zeros }
    pre := { s.pre with triLambda0 := zeros, triLambda1 := zeros } }

/-- `uploadBendings`. -/
def uploadBendings (s : AvbdCpu V D C) (nBend : Nat) (data : D) : AvbdCpu V D C :=
  let zeros := List.replicate nBend (0 : V)
  { s with
    loaded := s.loaded.upload .bendings nBend data
    live := { s.live with bendLambda := zeros }
    pre := { s.pre with bendLambda := zeros } }

/-- `buildColoring`. -/
def buildColoring (s : AvbdCpu V D C) : AvbdCpu V D C :=
  { s with coloring := kernels.greedyColoring s.loaded }

/-- `updateState`. -/
def updateState (s : AvbdCpu V D C) (positions predicted : Nat → V) : AvbdCpu V D C :=
  { s with
    loaded := { s.loaded with predicted := load (s.loaded.count .mesh) predicted }
    live := { s.live with positions := load (s.loaded.count .mesh) positions } }

/-- `step`: the copies, then the iteration. -/
def step (s : AvbdCpu V D C) : AvbdCpu V D C :=
  if s.meshReady then
    { s with
      pre :=
        { positions := s.live.positions
          triLambda0 := s.live.triLambda0
          triLambda1 := s.live.triLambda1
          bendLambda := s.live.bendLambda }
      live := { s.live with positions := kernels.iteration s.loaded s.coloring s.live } }
  else s

/-- `stepDualAttachments`. -/
def stepDualAttachments (s : AvbdCpu V D C) : AvbdCpu V D C :=
  if !s.meshReady then s
  else if s.loaded.count .attachments = 0 then s
  else { s with live := { s.live with attachLambda := kernels.attachmentDual s.loaded s.live } }

/-- `stepDualMembrane`. -/
def stepDualMembrane (s : AvbdCpu V D C) : AvbdCpu V D C :=
  if !s.meshReady then s
  else if s.loaded.count .triangles = 0 then s
  else
    let lambda := kernels.membraneDual s.loaded s.live
    { s with live := { s.live with triLambda0 := lambda.1, triLambda1 := lambda.2 } }

/-- `stepDualBending`. -/
def stepDualBending (s : AvbdCpu V D C) : AvbdCpu V D C :=
  if !s.meshReady then s
  else if s.loaded.count .bendings = 0 then s
  else { s with live := { s.live with bendLambda := kernels.bendingDual s.loaded s.live } }

/-- One iteration of `run`. -/
def runTurn (s : AvbdCpu V D C) (duals : Bool) : AvbdCpu V D C :=
  let s := s.step kernels
  if duals then
    ((s.stepDualAttachments kernels).stepDualMembrane kernels).stepDualBending kernels
  else s

/-- `run`: iterations, each followed by the dual updates. -/
def run (s : AvbdCpu V D C) (iters : Int) (duals : Bool) : AvbdCpu V D C :=
  (List.range iters.toNat).foldl (fun s _ => s.runTurn kernels duals) s

/-- `stepBackward`: refused without a step on this mesh. -/
def stepBackward (s : AvbdCpu V D C) : Option (Reads V) :=
  if !s.meshReady || s.pre.positions.length != s.live.positions.length then none
  else some (s.loaded.reads s.pre)

/-- One call and what its backward pass read. -/
def call (s : AvbdCpu V D C) : Op V D → AvbdCpu V D C × Option (Reads V)
  | .setupMesh nVerts _ positions predicted data =>
      (s.setupMesh kernels nVerts positions predicted data, none)
  | .uploadSprings n data => (s.uploadSprings n data, none)
  | .uploadAttachments n data => (s.uploadAttachments n data, none)
  | .uploadTriangles n data => (s.uploadTriangles n data, none)
  | .uploadBendings n data => (s.uploadBendings n data, none)
  | .updateRest family data => ({ s with loaded := s.loaded.refresh family data }, none)
  | .buildColoring => (s.buildColoring kernels, none)
  | .updateState positions predicted => (s.updateState positions predicted, none)
  | .step => (s.step kernels, none)
  | .stepDualAttachments => (s.stepDualAttachments kernels, none)
  | .stepDualMembrane => (s.stepDualMembrane kernels, none)
  | .stepDualBending => (s.stepDualBending kernels, none)
  | .run iters duals => (s.run kernels iters duals, none)
  | .stepBackward => (s, s.stepBackward)
  | .runWithBackward iters duals =>
      let s := s.run kernels iters duals
      (s, if s.meshReady || iters < 1 then s.stepBackward else none)

end AvbdCpu

end Cpu

section Rd

/-- What `AvbdRd` records: transfers and the dispatches of one pass. -/
inductive Command where
  | copyPositions
  | copyMembrane
  | copyBending
  | iteration
  | attachmentDual
  | membraneDual
  | bendingDual
  | backward
deriving DecidableEq

/-- The state of `AvbdRd`: the buffers, the host's flags and the recorded graph. -/
structure AvbdRd (V D C : Type*) where
  loaded : Loaded V D
  coloring : C
  live : Live V
  pre : Pre V
  meshReady : Bool
  hasStep : Bool
  lambdasDirty : Bool
  graph : List Command

namespace AvbdRd

variable [Zero V] (kernels : Kernels V D C)

/-- `setupMesh`. An empty permutation has no buffer, so an empty mesh is not ready. -/
def setupMesh (s : AvbdRd V D C) (nVerts : Nat) (positions predicted : Nat → V) (data : D) :
    AvbdRd V D C :=
  { s with
    loaded := { s.loaded.upload .mesh nVerts data with predicted := load nVerts predicted }
    coloring := kernels.oneBatch nVerts
    live := { s.live with positions := load nVerts positions }
    pre := { s.pre with positions := load nVerts positions }
    hasStep := false
    meshReady := decide (0 < nVerts) }

/-- `uploadSprings`. -/
def uploadSprings (s : AvbdRd V D C) (nSprings : Nat) (data : D) : AvbdRd V D C :=
  { s with loaded := s.loaded.upload .springs nSprings data }

/-- `uploadAttachments`. -/
def uploadAttachments (s : AvbdRd V D C) (nAttach : Nat) (data : D) : AvbdRd V D C :=
  { s with
    loaded := s.loaded.upload .attachments nAttach data
    live := { s.live with attachLambda := List.replicate nAttach 0 } }

/-- `uploadTriangles`. The dirty flag stays as it was. -/
def uploadTriangles (s : AvbdRd V D C) (nTri : Nat) (data : D) : AvbdRd V D C :=
  let zeros := List.replicate nTri (0 : V)
  { s with
    loaded := s.loaded.upload .triangles nTri data
    live := { s.live with triLambda0 := zeros, triLambda1 := zeros }
    pre := { s.pre with triLambda0 := zeros, triLambda1 := zeros } }

/-- `uploadBendings`. -/
def uploadBendings (s : AvbdRd V D C) (nBend : Nat) (data : D) : AvbdRd V D C :=
  let zeros := List.replicate nBend (0 : V)
  { s with
    loaded := s.loaded.upload .bendings nBend data
    live := { s.live with bendLambda := zeros }
    pre := { s.pre with bendLambda := zeros } }

/-- `buildColoring`. -/
def buildColoring (s : AvbdRd V D C) : AvbdRd V D C :=
  if s.meshReady then { s with coloring := kernels.greedyColoring s.loaded } else s

/-- `updateState`: `update_v3` skips a buffer that does not exist. -/
def updateState (s : AvbdRd V D C) (positions predicted : Nat → V) : AvbdRd V D C :=
  if s.meshReady then
    { s with
      loaded := { s.loaded with predicted := load (s.loaded.count .mesh) predicted }
      live := { s.live with positions := load (s.loaded.count .mesh) positions } }
  else s

/-- Append to the graph. -/
def record (s : AvbdRd V D C) (commands : List Command) : AvbdRd V D C :=
  { s with graph := s.graph ++ commands }

/-- `snapshot_pre_step`. -/
def snapshotPreStep (s : AvbdRd V D C) : AvbdRd V D C :=
  let s := s.record [.copyPositions]
  let s :=
    if s.lambdasDirty then
      let s := if s.loaded.count .triangles ≠ 0 then s.record [.copyMembrane] else s
      let s := if s.loaded.count .bendings ≠ 0 then s.record [.copyBending] else s
      { s with lambdasDirty := false }
    else s
  { s with hasStep := true }

/-- `record_iteration`. -/
def recordIteration (s : AvbdRd V D C) : AvbdRd V D C := s.record [.iteration]

/-- `record_duals`. -/
def recordDuals (s : AvbdRd V D C) : AvbdRd V D C :=
  let s := { s with lambdasDirty := true }
  let s := if s.loaded.count .attachments ≠ 0 then s.record [.attachmentDual] else s
  let s := if s.loaded.count .triangles ≠ 0 then s.record [.membraneDual] else s
  if s.loaded.count .bendings ≠ 0 then s.record [.bendingDual] else s

/-- One recorded iteration of a run. -/
def recordTurn (s : AvbdRd V D C) (duals : Bool) : AvbdRd V D C :=
  let s := s.recordIteration
  if duals then s.recordDuals else s

/-- `record_run`: the earlier iterations, the snapshot, the last iteration. -/
def recordRun (s : AvbdRd V D C) (iters : Int) (duals : Bool) : AvbdRd V D C :=
  let s := (List.range (iters - 1).toNat).foldl (fun s _ => s.recordTurn duals) s
  s.snapshotPreStep.recordTurn duals

/-- The device runs one command. -/
def execute (loaded : Loaded V D) (coloring : C) :
    Live V × Pre V × Option (Reads V) → Command → Live V × Pre V × Option (Reads V)
  | (live, pre, reads), .copyPositions => (live, { pre with positions := live.positions }, reads)
  | (live, pre, reads), .copyMembrane =>
      (live, { pre with triLambda0 := live.triLambda0, triLambda1 := live.triLambda1 }, reads)
  | (live, pre, reads), .copyBending => (live, { pre with bendLambda := live.bendLambda }, reads)
  | (live, pre, reads), .iteration =>
      ({ live with positions := kernels.iteration loaded coloring live }, pre, reads)
  | (live, pre, reads), .attachmentDual =>
      ({ live with attachLambda := kernels.attachmentDual loaded live }, pre, reads)
  | (live, pre, reads), .membraneDual =>
      let lambda := kernels.membraneDual loaded live
      ({ live with triLambda0 := lambda.1, triLambda1 := lambda.2 }, pre, reads)
  | (live, pre, reads), .bendingDual =>
      ({ live with bendLambda := kernels.bendingDual loaded live }, pre, reads)
  | (live, pre, _), .backward => (live, pre, some (loaded.reads pre))

/-- Submit the graph: the device runs it in order. -/
def submit (s : AvbdRd V D C) : AvbdRd V D C × Option (Reads V) :=
  let out := s.graph.foldl (execute kernels s.loaded s.coloring) (s.live, s.pre, none)
  ({ s with live := out.1, pre := out.2.1, graph := [] }, out.2.2)

/-- `step`. -/
def step (s : AvbdRd V D C) : AvbdRd V D C × Option (Reads V) :=
  if s.meshReady then (s.recordRun 1 false).submit kernels else (s, none)

/-- `stepDualAttachments`. -/
def stepDualAttachments (s : AvbdRd V D C) : AvbdRd V D C × Option (Reads V) :=
  if s.loaded.count .attachments = 0 then (s, none)
  else if s.meshReady then (s.record [.attachmentDual]).submit kernels
  else (s, none)

/-- `stepDualMembrane`. -/
def stepDualMembrane (s : AvbdRd V D C) : AvbdRd V D C × Option (Reads V) :=
  if s.loaded.count .triangles = 0 then (s, none)
  else if s.meshReady then
    ({ s with lambdasDirty := true }.record [.membraneDual]).submit kernels
  else (s, none)

/-- `stepDualBending`. -/
def stepDualBending (s : AvbdRd V D C) : AvbdRd V D C × Option (Reads V) :=
  if s.loaded.count .bendings = 0 then (s, none)
  else if s.meshReady then
    ({ s with lambdasDirty := true }.record [.bendingDual]).submit kernels
  else (s, none)

/-- `run`. -/
def run (s : AvbdRd V D C) (iters : Int) (duals : Bool) : AvbdRd V D C × Option (Reads V) :=
  if iters < 1 then (s, none)
  else if s.meshReady then (s.recordRun iters duals).submit kernels
  else (s, none)

/-- `stepBackward`. -/
def stepBackward (s : AvbdRd V D C) : AvbdRd V D C × Option (Reads V) :=
  if s.meshReady && s.hasStep then (s.record [.backward]).submit kernels else (s, none)

/-- `runWithBackward`. -/
def runWithBackward (s : AvbdRd V D C) (iters : Int) (duals : Bool) :
    AvbdRd V D C × Option (Reads V) :=
  if iters < 1 || !s.meshReady then (s, none)
  else (({ s with hasStep := true }.recordRun iters duals).record [.backward]).submit kernels

/-- One call and what its backward pass read. -/
def call (s : AvbdRd V D C) : Op V D → AvbdRd V D C × Option (Reads V)
  | .setupMesh nVerts _ positions predicted data =>
      (s.setupMesh kernels nVerts positions predicted data, none)
  | .uploadSprings n data => (s.uploadSprings n data, none)
  | .uploadAttachments n data => (s.uploadAttachments n data, none)
  | .uploadTriangles n data => (s.uploadTriangles n data, none)
  | .uploadBendings n data => (s.uploadBendings n data, none)
  | .updateRest family data => ({ s with loaded := s.loaded.refresh family data }, none)
  | .buildColoring => (s.buildColoring kernels, none)
  | .updateState positions predicted => (s.updateState positions predicted, none)
  | .step => s.step kernels
  | .stepDualAttachments => s.stepDualAttachments kernels
  | .stepDualMembrane => s.stepDualMembrane kernels
  | .stepDualBending => s.stepDualBending kernels
  | .run iters duals => s.run kernels iters duals
  | .stepBackward => s.stepBackward kernels
  | .runWithBackward iters duals => s.runWithBackward kernels iters duals

end AvbdRd

end Rd

/-- Nothing uploaded. -/
def Loaded.empty (data : Family → D) : Loaded V D := ⟨fun _ => 0, data, []⟩

/-- A new `AvbdCpu`. -/
def AvbdCpu.new (data : Family → D) (coloring : C) : AvbdCpu V D C :=
  ⟨Loaded.empty data, coloring, ⟨[], [], [], [], []⟩, ⟨[], [], [], []⟩, false⟩

/-- A new `AvbdRd`. -/
def AvbdRd.new (data : Family → D) (coloring : C) : AvbdRd V D C :=
  ⟨Loaded.empty data, coloring, ⟨[], [], [], [], []⟩, ⟨[], [], [], []⟩, false, false, false, []⟩

end DressOn.Avbd.Backends
