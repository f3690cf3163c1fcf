import Mathlib.Algebra.GroupWithZero.Nat
import Mathlib.Logic.Function.Iterate
import DressOn.Avbd.Backends
import DressOn.Lib.Lockstep

/-!
# Both backward passes read the same pre-step state

A run is a number of turns, an iteration and its dual updates. The copies of
`AvbdRd` before the last turn are the ones `AvbdCpu` made there: whatever the
dirty flag lets it skip has not changed since the last copy.
-/

namespace DressOn.Avbd.Backends

variable {V D C : Type*} (kernels : Kernels V D C)

section Turns

/-- The three dual updates. -/
def Live.duals (loaded : Loaded V D) (live : Live V) : Live V :=
  let live :=
    if loaded.count .attachments = 0 then live
    else { live with attachLambda := kernels.attachmentDual loaded live }
  let live :=
    if loaded.count .triangles = 0 then live
    else
      let lambda := kernels.membraneDual loaded live
      { live with triLambda0 := lambda.1, triLambda1 := lambda.2 }
  if loaded.count .bendings = 0 then live
  else { live with bendLambda := kernels.bendingDual loaded live }

/-- One iteration of a run. -/
def Live.turn (loaded : Loaded V D) (coloring : C) (duals : Bool) (live : Live V) : Live V :=
  let live := { live with positions := kernels.iteration loaded coloring live }
  if duals then live.duals kernels loaded else live

/-- The copies of a state. -/
def Live.snapshot (live : Live V) : Pre V :=
  ⟨live.positions, live.triLambda0, live.triLambda1, live.bendLambda⟩

/-- The dual updates keep the positions. -/
theorem Live.positions_duals (loaded : Loaded V D) (live : Live V) :
    (live.duals kernels loaded).positions = live.positions := by
  unfold Live.duals
  split <;> split <;> split <;> rfl

/-- The duals of an empty family are not touched. -/
theorem Live.membrane_duals {loaded : Loaded V D} (none : loaded.count .triangles = 0)
    (live : Live V) :
    (live.duals kernels loaded).triLambda0 = live.triLambda0 ∧
      (live.duals kernels loaded).triLambda1 = live.triLambda1 := by
  unfold Live.duals
  simp only [none, if_true]
  split <;> split <;> exact ⟨rfl, rfl⟩

/-- Without bendings the dual updates keep their lambda. -/
theorem Live.bending_duals {loaded : Loaded V D} (none : loaded.count .bendings = 0)
    (live : Live V) : (live.duals kernels loaded).bendLambda = live.bendLambda := by
  unfold Live.duals
  simp only [none, if_true]
  split <;> split <;> rfl

variable (loaded : Loaded V D) (coloring : C)

/-- An iteration keeps the number of positions. -/
theorem Live.length_turn (duals : Bool) (live : Live V) :
    (live.turn kernels loaded coloring duals).positions.length = live.positions.length := by
  unfold Live.turn
  cases duals
  · exact kernels.length_iteration loaded coloring live
  · simp only [if_true, Live.positions_duals]
    exact kernels.length_iteration loaded coloring live

/-- Iterations keep the number of positions. -/
theorem Live.length_turns (duals : Bool) (n : Nat) (live : Live V) :
    ((Live.turn kernels loaded coloring duals)^[n] live).positions.length =
      live.positions.length := by
  induction n with
  | zero => rfl
  | succ n ih => rw [Function.iterate_succ_apply', Live.length_turn, ih]

/-- Turns without dual updates keep the duals, and so do any turns of an empty family. -/
theorem Live.membrane_turns {duals : Bool} (idle : duals = false ∨ loaded.count .triangles = 0)
    (n : Nat) (live : Live V) :
    ((Live.turn kernels loaded coloring duals)^[n] live).triLambda0 = live.triLambda0 ∧
      ((Live.turn kernels loaded coloring duals)^[n] live).triLambda1 = live.triLambda1 := by
  induction n with
  | zero => exact ⟨rfl, rfl⟩
  | succ n ih =>
      rw [Function.iterate_succ_apply', ← ih.1, ← ih.2]
      unfold Live.turn
      cases duals with
      | false => exact ⟨rfl, rfl⟩
      | true => exact Live.membrane_duals kernels (idle.resolve_left Bool.noConfusion) _

/-- Without dual updates or bendings the iterations keep their lambda. -/
theorem Live.bending_turns {duals : Bool} (idle : duals = false ∨ loaded.count .bendings = 0)
    (n : Nat) (live : Live V) :
    ((Live.turn kernels loaded coloring duals)^[n] live).bendLambda = live.bendLambda := by
  induction n with
  | zero => rfl
  | succ n ih =>
      rw [Function.iterate_succ_apply', ← ih]
      unfold Live.turn
      cases duals with
      | false => rfl
      | true => exact Live.bending_duals kernels (idle.resolve_left Bool.noConfusion) _

end Turns

section CpuRun

variable (s : AvbdCpu V D C)

/-- The dual updates of `AvbdCpu` after each other. -/
theorem AvbdCpu.duals_eq (ready : s.meshReady = true) :
    ((s.stepDualAttachments kernels).stepDualMembrane kernels).stepDualBending kernels =
      { s with live := s.live.duals kernels s.loaded } := by
  obtain ⟨loaded, coloring, live, pre, meshReady⟩ := s
  obtain rfl : meshReady = true := ready
  unfold stepDualAttachments stepDualMembrane stepDualBending Live.duals
  by_cases noAttach : loaded.count .attachments = 0 <;>
    by_cases noTri : loaded.count .triangles = 0 <;>
      by_cases noBend : loaded.count .bendings = 0 <;>
        simp [noAttach, noTri, noBend]

/-- One iteration of a run copies the state it starts from. -/
theorem AvbdCpu.runTurn_eq (ready : s.meshReady = true) (duals : Bool) :
    s.runTurn kernels duals =
      { s with
        pre := s.live.snapshot
        live := s.live.turn kernels s.loaded s.coloring duals } := by
  have stepped : s.step kernels =
      { s with
        pre := s.live.snapshot
        live := { s.live with positions := kernels.iteration s.loaded s.coloring s.live } } := by
    rw [AvbdCpu.step, if_pos ready, Live.snapshot]
  unfold AvbdCpu.runTurn
  cases duals
  · exact stepped
  · rw [stepped, if_pos rfl, AvbdCpu.duals_eq kernels]
    · rfl
    · exact ready

/-- A run of one more iteration than `n` leaves the copies made before the last one. -/
theorem AvbdCpu.run_eq (ready : s.meshReady = true) (duals : Bool) (n : Nat) :
    s.run kernels (n + 1 : Nat) duals =
      { s with
        pre := ((Live.turn kernels s.loaded s.coloring duals)^[n] s.live).snapshot
        live := (Live.turn kernels s.loaded s.coloring duals)^[n + 1] s.live } := by
  unfold AvbdCpu.run
  rw [Int.toNat_natCast]
  induction n with
  | zero => exact AvbdCpu.runTurn_eq kernels s ready duals
  | succ n ih =>
      rw [List.range_succ, List.foldl_append, ih, List.foldl_cons, List.foldl_nil,
        AvbdCpu.runTurn_eq kernels]
      · simp only [Function.iterate_succ_apply']
      · exact ready

/-- A run of no iterations does nothing. -/
theorem AvbdCpu.run_none {iters : Int} (few : iters < 1) (duals : Bool) :
    s.run kernels iters duals = s := by
  unfold AvbdCpu.run
  rw [Int.toNat_of_nonpos (by omega)]
  rfl

/-- Without a mesh a run does nothing. -/
theorem AvbdCpu.run_unready (unready : s.meshReady = false) (iters : Int) (duals : Bool) :
    s.run kernels iters duals = s := by
  unfold AvbdCpu.run
  induction iters.toNat with
  | zero => rfl
  | succ n ih =>
      rw [List.range_succ, List.foldl_append, ih, List.foldl_cons, List.foldl_nil]
      cases duals <;>
        simp [AvbdCpu.runTurn, AvbdCpu.step, AvbdCpu.stepDualAttachments, AvbdCpu.stepDualMembrane,
          AvbdCpu.stepDualBending, unready]

end CpuRun

section RdRun

/-- The commands of one iteration of a run. -/
def turnCommands (loaded : Loaded V D) (duals : Bool) : List Command :=
  .iteration ::
    if duals then
      (if loaded.count .attachments = 0 then [] else [.attachmentDual]) ++
        (if loaded.count .triangles = 0 then [] else [.membraneDual]) ++
          (if loaded.count .bendings = 0 then [] else [.bendingDual])
    else []

/-- The commands of the snapshot. -/
def snapshotCommands (loaded : Loaded V D) (dirty : Bool) : List Command :=
  .copyPositions ::
    if dirty then
      (if loaded.count .triangles = 0 then [] else [.copyMembrane]) ++
        (if loaded.count .bendings = 0 then [] else [.copyBending])
    else []

variable (s : AvbdRd V D C)

/-- What an iteration records. -/
theorem AvbdRd.recordTurn_eq (duals : Bool) :
    s.recordTurn duals =
      { s with
        graph := s.graph ++ turnCommands s.loaded duals
        lambdasDirty := s.lambdasDirty || duals } := by
  unfold recordTurn recordIteration recordDuals record turnCommands
  cases duals
  · simp
  · by_cases noAttach : s.loaded.count .attachments = 0 <;>
      by_cases noTri : s.loaded.count .triangles = 0 <;>
        by_cases noBend : s.loaded.count .bendings = 0 <;>
          simp [noAttach, noTri, noBend]

/-- What the snapshot before the last iteration records. -/
theorem AvbdRd.snapshotPreStep_eq :
    s.snapshotPreStep =
      { s with
        graph := s.graph ++ snapshotCommands s.loaded s.lambdasDirty
        lambdasDirty := false
        hasStep := true } := by
  unfold snapshotPreStep record snapshotCommands
  cases dirty : s.lambdasDirty
  · simp
  · by_cases noTri : s.loaded.count .triangles = 0 <;>
      by_cases noBend : s.loaded.count .bendings = 0 <;>
        simp [noTri, noBend]

/-- The commands of a run of one more iteration than `n`. -/
def runCommands (loaded : Loaded V D) (dirty : Bool) (n : Nat) (duals : Bool) : List Command :=
  (List.replicate n (turnCommands loaded duals)).flatten ++
    snapshotCommands loaded (dirty || (decide (0 < n) && duals)) ++ turnCommands loaded duals

/-- What a run records. -/
theorem AvbdRd.recordRun_eq (n : Nat) (duals : Bool) :
    s.recordRun (n + 1 : Nat) duals =
      { s with
        graph := s.graph ++ runCommands s.loaded s.lambdasDirty n duals
        lambdasDirty := duals
        hasStep := true } := by
  have turns : ∀ n, (List.range n).foldl (fun s _ => s.recordTurn duals) s =
      { s with
        graph := s.graph ++ (List.replicate n (turnCommands s.loaded duals)).flatten
        lambdasDirty := s.lambdasDirty || (decide (0 < n) && duals) } := by
    intro n
    induction n with
    | zero => simp
    | succ n ih =>
        rw [List.range_succ, List.foldl_append, ih, List.foldl_cons, List.foldl_nil, recordTurn_eq,
          List.replicate_succ', List.flatten_concat]
        cases duals <;> simp
  unfold recordRun runCommands
  rw [show ((n + 1 : Nat) : Int) - 1 = n by omega, Int.toNat_natCast]
  dsimp only
  rw [turns n]
  simp only [snapshotPreStep_eq, recordTurn_eq, List.append_assoc, Bool.false_or]

variable (loaded : Loaded V D) (coloring : C)

/-- The device runs a turn. -/
theorem execute_turn (duals : Bool) (live : Live V) (pre : Pre V) (reads : Option (Reads V)) :
    (turnCommands loaded duals).foldl (AvbdRd.execute kernels loaded coloring) (live, pre, reads) =
      (live.turn kernels loaded coloring duals, pre, reads) := by
  unfold turnCommands Live.turn Live.duals
  cases duals
  · rfl
  · by_cases noAttach : loaded.count .attachments = 0 <;>
      by_cases noTri : loaded.count .triangles = 0 <;>
        by_cases noBend : loaded.count .bendings = 0 <;>
          simp [noAttach, noTri, noBend, AvbdRd.execute]

/-- The device runs a number of turns. -/
theorem execute_turns (duals : Bool) (n : Nat) (live : Live V) (pre : Pre V)
    (reads : Option (Reads V)) :
    ((List.replicate n (turnCommands loaded duals)).flatten).foldl
        (AvbdRd.execute kernels loaded coloring) (live, pre, reads) =
      ((Live.turn kernels loaded coloring duals)^[n] live, pre, reads) := by
  induction n with
  | zero => rfl
  | succ n ih =>
      rw [List.replicate_succ', List.flatten_concat, List.foldl_append, ih, execute_turn,
        Function.iterate_succ_apply']

/-- The copies the snapshot leaves. -/
def Pre.copied (loaded : Loaded V D) (dirty : Bool) (live : Live V) (pre : Pre V) : Pre V where
  positions := live.positions
  triLambda0 :=
    if dirty && loaded.count .triangles != 0 then live.triLambda0 else pre.triLambda0
  triLambda1 :=
    if dirty && loaded.count .triangles != 0 then live.triLambda1 else pre.triLambda1
  bendLambda :=
    if dirty && loaded.count .bendings != 0 then live.bendLambda else pre.bendLambda

/-- The device runs the snapshot. -/
theorem execute_snapshot (dirty : Bool) (live : Live V) (pre : Pre V)
    (reads : Option (Reads V)) :
    (snapshotCommands loaded dirty).foldl (AvbdRd.execute kernels loaded coloring)
        (live, pre, reads) =
      (live, Pre.copied loaded dirty live pre, reads) := by
  unfold snapshotCommands Pre.copied
  cases dirty
  · rfl
  · by_cases noTri : loaded.count .triangles = 0 <;>
      by_cases noBend : loaded.count .bendings = 0 <;>
        simp [noTri, noBend, AvbdRd.execute]

/-- The device runs a whole run. -/
theorem execute_run (dirty : Bool) (n : Nat) (duals : Bool) (live : Live V) (pre : Pre V)
    (reads : Option (Reads V)) :
    (runCommands loaded dirty n duals).foldl (AvbdRd.execute kernels loaded coloring)
        (live, pre, reads) =
      ((Live.turn kernels loaded coloring duals)^[n + 1] live,
        Pre.copied loaded (dirty || (decide (0 < n) && duals))
          ((Live.turn kernels loaded coloring duals)^[n] live) pre, reads) := by
  unfold runCommands
  rw [List.foldl_append, List.foldl_append, execute_turns, execute_snapshot, execute_turn,
    Function.iterate_succ_apply']

end RdRun

section Simulation

/-- What the two back ends agree on between calls. -/
structure Related (cpu : AvbdCpu V D C) (rd : AvbdRd V D C) : Prop where
  loaded : rd.loaded = cpu.loaded
  live : rd.live = cpu.live
  ready : rd.meshReady = cpu.meshReady
  graph : rd.graph = []
  coloring : cpu.meshReady = true → rd.coloring = cpu.coloring
  unready : cpu.meshReady = false → cpu.loaded.count .mesh = 0 ∧ cpu.live.positions = [] ∧
    cpu.loaded.predicted = []
  sized : cpu.live.positions.length = cpu.loaded.count .mesh
  /-- Both hold the same copies of the duals. -/
  duals : rd.pre.triLambda0 = cpu.pre.triLambda0 ∧ rd.pre.triLambda1 = cpu.pre.triLambda1 ∧
    rd.pre.bendLambda = cpu.pre.bendLambda
  /-- A copy the next snapshot would skip is current. -/
  membrane : rd.lambdasDirty = false ∨ cpu.loaded.count .triangles = 0 →
    cpu.pre.triLambda0 = cpu.live.triLambda0 ∧ cpu.pre.triLambda1 = cpu.live.triLambda1
  bending : rd.lambdasDirty = false ∨ cpu.loaded.count .bendings = 0 →
    cpu.pre.bendLambda = cpu.live.bendLambda
  stepped : cpu.meshReady = true →
    (rd.hasStep = true ↔ cpu.pre.positions.length = cpu.loaded.count .mesh)
  positions : rd.hasStep = true → rd.pre.positions = cpu.pre.positions

variable {cpu : AvbdCpu V D C} {rd : AvbdRd V D C}

/-- Two new solvers are related. -/
theorem related_new (data : Family → D) (coloring : C) :
    Related (AvbdCpu.new (V := V) data coloring) (AvbdRd.new data coloring) := by
  constructor <;> simp [AvbdCpu.new, AvbdRd.new, Loaded.empty]

/-- The backward passes read the same copies. -/
theorem Related.reads (related : Related cpu rd) (stepped : rd.hasStep = true) :
    rd.loaded.reads rd.pre = cpu.loaded.reads cpu.pre := by
  unfold Loaded.reads
  rw [related.loaded, related.positions stepped, related.duals.1, related.duals.2.1,
    related.duals.2.2]

/-- A set-up mesh relates them. -/
theorem related_setupMesh (related : Related cpu rd) {nVerts : Nat} (filled : 0 < nVerts)
    (positions predicted : Nat → V) (data : D) :
    Related (cpu.setupMesh kernels nVerts positions predicted data)
      (rd.setupMesh kernels nVerts positions predicted data) := by
  obtain ⟨loaded, live, ready, graph, coloring, unready, sized, duals, membrane, bending, stepped,
    copied⟩ := related
  constructor <;>
    simp_all [AvbdCpu.setupMesh, AvbdRd.setupMesh, Loaded.upload, Function.update, Nat.ne_of_lt filled]

/-- An upload of springs keeps them related. -/
theorem related_uploadSprings (related : Related cpu rd) (n : Nat) (data : D) :
    Related (cpu.uploadSprings n data) (rd.uploadSprings n data) := by
  obtain ⟨loaded, live, ready, graph, coloring, unready, sized, duals, membrane, bending, stepped,
    copied⟩ := related
  constructor <;>
    simp_all [AvbdCpu.uploadSprings, AvbdRd.uploadSprings, Loaded.upload, Function.update]

section Uploads

variable [Zero V]

/-- An upload of attachments keeps them related. -/
theorem related_uploadAttachments (related : Related cpu rd) (n : Nat) (data : D) :
    Related (cpu.uploadAttachments n data) (rd.uploadAttachments n data) := by
  obtain ⟨loaded, live, ready, graph, coloring, unready, sized, duals, membrane, bending, stepped,
    copied⟩ := related
  constructor <;>
    simp_all [AvbdCpu.uploadAttachments, AvbdRd.uploadAttachments, Loaded.upload, Function.update]

/-- Both copies are zeroed with the duals, so the flag may stay as it was. -/
theorem related_uploadTriangles (related : Related cpu rd) (n : Nat) (data : D) :
    Related (cpu.uploadTriangles n data) (rd.uploadTriangles n data) := by
  obtain ⟨loaded, live, ready, graph, coloring, unready, sized, duals, membrane, bending, stepped,
    copied⟩ := related
  constructor <;>
    simp_all [AvbdCpu.uploadTriangles, AvbdRd.uploadTriangles, Loaded.upload, Function.update]

/-- An upload of bendings keeps them related. -/
theorem related_uploadBendings (related : Related cpu rd) (n : Nat) (data : D) :
    Related (cpu.uploadBendings n data) (rd.uploadBendings n data) := by
  obtain ⟨loaded, live, ready, graph, coloring, unready, sized, duals, membrane, bending, stepped,
    copied⟩ := related
  constructor <;>
    simp_all [AvbdCpu.uploadBendings, AvbdRd.uploadBendings, Loaded.upload, Function.update]

end Uploads

/-- A refresh keeps the counts. -/
theorem Loaded.count_refresh (loaded : Loaded V D) (family : Family) (data : D) :
    (loaded.refresh family data).count = loaded.count := by
  unfold refresh
  split <;> rfl

/-- A refresh keeps the predicted positions. -/
theorem Loaded.predicted_refresh (loaded : Loaded V D) (family : Family) (data : D) :
    (loaded.refresh family data).predicted = loaded.predicted := by
  unfold refresh
  split <;> rfl

/-- A new rest shape keeps them related. -/
theorem related_updateRest (related : Related cpu rd) (family : Family) (data : D) :
    Related { cpu with loaded := cpu.loaded.refresh family data }
      { rd with loaded := rd.loaded.refresh family data } := by
  obtain ⟨loaded, live, ready, graph, coloring, unready, sized, duals, membrane, bending, stepped,
    copied⟩ := related
  constructor <;> simp_all [Loaded.count_refresh, Loaded.predicted_refresh]

/-- A colouring keeps them related. -/
theorem related_buildColoring (related : Related cpu rd) :
    Related (cpu.buildColoring kernels) (rd.buildColoring kernels) := by
  obtain ⟨loaded, live, ready, graph, coloring, unready, sized, duals, membrane, bending, stepped,
    copied⟩ := related
  unfold AvbdCpu.buildColoring AvbdRd.buildColoring
  split <;> constructor <;> simp_all

/-- Without a mesh `AvbdCpu` assigns empty vectors to empty vectors. -/
theorem AvbdCpu.updateState_unready (none : cpu.loaded.count .mesh = 0)
    (noPositions : cpu.live.positions = []) (noPredicted : cpu.loaded.predicted = [])
    (positions predicted : Nat → V) : cpu.updateState positions predicted = cpu := by
  obtain ⟨⟨count, data, _⟩, coloring, ⟨_, _, _, _, _⟩, pre, ready⟩ := cpu
  simp_all [AvbdCpu.updateState, load]

/-- A new state keeps them related. -/
theorem related_updateState (related : Related cpu rd) (positions predicted : Nat → V) :
    Related (cpu.updateState positions predicted) (rd.updateState positions predicted) := by
  by_cases ready : cpu.meshReady = true
  · obtain ⟨loaded, live, readyRd, graph, coloring, unready, sized, duals, membrane, bending,
      stepped, copied⟩ := related
    rw [AvbdRd.updateState, if_pos (readyRd.trans ready)]
    constructor <;> simp_all [AvbdCpu.updateState]
  · obtain ⟨none, noPositions, noPredicted⟩ := related.unready (Bool.eq_false_iff.mpr ready)
    rw [AvbdCpu.updateState_unready none noPositions noPredicted, AvbdRd.updateState,
      if_neg (by rwa [related.ready])]
    exact related

section Duals

/-- The attachments' dual update keeps them related. -/
theorem related_stepDualAttachments (related : Related cpu rd) :
    Related (cpu.stepDualAttachments kernels) (rd.stepDualAttachments kernels).1 := by
  obtain ⟨loaded, live, ready, graph, coloring, unready, sized, duals, membrane, bending, stepped,
    copied⟩ := related
  unfold AvbdCpu.stepDualAttachments AvbdRd.stepDualAttachments
  by_cases none : cpu.loaded.count .attachments = 0 <;> by_cases meshReady : cpu.meshReady <;>
    constructor <;> simp_all [AvbdRd.record, AvbdRd.submit, AvbdRd.execute]

/-- A membrane update raises the flag, so its stale copy is replaced before it is read. -/
theorem related_stepDualMembrane (related : Related cpu rd) :
    Related (cpu.stepDualMembrane kernels) (rd.stepDualMembrane kernels).1 := by
  obtain ⟨loaded, live, ready, graph, coloring, unready, sized, duals, membrane, bending, stepped,
    copied⟩ := related
  unfold AvbdCpu.stepDualMembrane AvbdRd.stepDualMembrane
  by_cases none : cpu.loaded.count .triangles = 0 <;> by_cases meshReady : cpu.meshReady <;>
    constructor <;> simp_all [AvbdRd.record, AvbdRd.submit, AvbdRd.execute]

/-- The bendings' dual update keeps them related. -/
theorem related_stepDualBending (related : Related cpu rd) :
    Related (cpu.stepDualBending kernels) (rd.stepDualBending kernels).1 := by
  obtain ⟨loaded, live, ready, graph, coloring, unready, sized, duals, membrane, bending, stepped,
    copied⟩ := related
  unfold AvbdCpu.stepDualBending AvbdRd.stepDualBending
  by_cases none : cpu.loaded.count .bendings = 0 <;> by_cases meshReady : cpu.meshReady <;>
    constructor <;> simp_all [AvbdRd.record, AvbdRd.submit, AvbdRd.execute]

/-- A dual update records no backward pass. -/
theorem AvbdRd.reads_duals (rd : AvbdRd V D C) (empty : rd.graph = []) :
    (rd.stepDualAttachments kernels).2 = none ∧ (rd.stepDualMembrane kernels).2 = none ∧
      (rd.stepDualBending kernels).2 = none := by
  unfold stepDualAttachments stepDualMembrane stepDualBending
  by_cases ready : rd.meshReady = true
  · refine ⟨?_, ?_, ?_⟩ <;>
    · split
      · rfl
      · simp [ready, empty, record, submit, execute]
  · simp [ready]

end Duals

section Runs

/-- Submitting a run, and whatever is recorded after it. -/
theorem AvbdRd.submit_run (rd : AvbdRd V D C) (empty : rd.graph = []) (n : Nat) (duals : Bool)
    (tail : List Command) :
    ((rd.recordRun (n + 1 : Nat) duals).record tail).submit kernels =
      let turn := Live.turn kernels rd.loaded rd.coloring duals
      let out := tail.foldl (execute kernels rd.loaded rd.coloring)
        (turn^[n + 1] rd.live,
          Pre.copied rd.loaded (rd.lambdasDirty || (decide (0 < n) && duals)) (turn^[n] rd.live)
            rd.pre, none)
      ({ rd with
          live := out.1, pre := out.2.1, hasStep := true, lambdasDirty := duals, graph := [] },
        out.2.2) := by
  rw [recordRun_eq, record, submit]
  simp only [empty, List.nil_append, List.foldl_append, execute_run]

/-- The copies before the last turn, made or kept, are the state there. -/
theorem Related.copied (related : Related cpu rd) (n : Nat) (duals : Bool) :
    Pre.copied cpu.loaded (rd.lambdasDirty || (decide (0 < n) && duals))
        ((Live.turn kernels cpu.loaded cpu.coloring duals)^[n] cpu.live) rd.pre =
      ((Live.turn kernels cpu.loaded cpu.coloring duals)^[n] cpu.live).snapshot := by
  obtain ⟨preMembrane0, preMembrane1, preBending⟩ := related.duals
  -- A skipped copy: no dual update has run, here or since the last copy, or there are no duals.
  have idle : ∀ {family : Family},
      ((rd.lambdasDirty || (decide (0 < n) && duals)) && cpu.loaded.count family != 0) = false →
      (rd.lambdasDirty = false ∨ cpu.loaded.count family = 0) ∧
        (n = 0 ∨ duals = false ∨ cpu.loaded.count family = 0) := by
    intro family skipped
    cases dirty : rd.lambdasDirty <;> cases duals <;> (simp_all; try omega)
  unfold Pre.copied Live.snapshot
  congr 1
  · split
    case isTrue => rfl
    case isFalse skipped =>
      obtain ⟨current, quiet⟩ := idle (Bool.eq_false_iff.mpr skipped)
      rw [preMembrane0, (related.membrane current).1]
      rcases quiet with rfl | quiet
      · rfl
      · exact (Live.membrane_turns kernels _ _ quiet n _).1.symm
  · split
    case isTrue => rfl
    case isFalse skipped =>
      obtain ⟨current, quiet⟩ := idle (Bool.eq_false_iff.mpr skipped)
      rw [preMembrane1, (related.membrane current).2]
      rcases quiet with rfl | quiet
      · rfl
      · exact (Live.membrane_turns kernels _ _ quiet n _).2.symm
  · split
    case isTrue => rfl
    case isFalse skipped =>
      obtain ⟨current, quiet⟩ := idle (Bool.eq_false_iff.mpr skipped)
      rw [preBending, related.bending current]
      rcases quiet with rfl | quiet
      · rfl
      · exact (Live.bending_turns kernels _ _ quiet n _).symm

/-- A run keeps the two back ends related. -/
theorem related_run (related : Related cpu rd) (ready : cpu.meshReady = true) (n : Nat)
    (duals : Bool) :
    Related (cpu.run kernels (n + 1 : Nat) duals)
      (((rd.recordRun (n + 1 : Nat) duals).record []).submit kernels).1 := by
  have copied := related.copied kernels n duals
  rw [AvbdCpu.run_eq kernels cpu ready, AvbdRd.submit_run kernels rd related.graph]
  simp only [List.foldl_nil, related.loaded, related.live, related.coloring ready, copied]
  have length := Live.length_turns kernels cpu.loaded cpu.coloring duals
  constructor
  · rfl
  · rfl
  · exact related.ready
  · rfl
  · exact fun _ => rfl
  · intro unready
    rw [ready] at unready
    exact Bool.noConfusion unready
  · rw [length]
    exact related.sized
  · exact ⟨rfl, rfl, rfl⟩
  · intro idle
    rw [Function.iterate_succ_apply']
    exact (Live.membrane_turns kernels cpu.loaded cpu.coloring idle 1 _).imp Eq.symm Eq.symm
  · intro idle
    rw [Function.iterate_succ_apply']
    exact (Live.bending_turns kernels cpu.loaded cpu.coloring idle 1 _).symm
  · intro _
    simp only [Live.snapshot, length, related.sized]
  · exact fun _ => rfl

end Runs

section Calls

/-- Recording nothing changes nothing. -/
theorem AvbdRd.record_nil (rd : AvbdRd V D C) : rd.record [] = rd := by
  rw [record, List.append_nil]

/-- A backward pass by itself changes no buffer it reads. -/
theorem AvbdRd.submit_backward (rd : AvbdRd V D C) (empty : rd.graph = []) :
    (rd.record [.backward]).submit kernels = (rd, some (rd.loaded.reads rd.pre)) := by
  obtain ⟨loaded, coloring, live, pre, ready, hasStep, dirty, graph⟩ := rd
  obtain rfl : graph = [] := empty
  rfl

/-- `AvbdCpu` refuses a backward pass exactly when no step has been made. -/
theorem Related.stepBackward_eq (related : Related cpu rd) (ready : cpu.meshReady = true)
    (stepped : rd.hasStep = true) :
    cpu.stepBackward = some (rd.loaded.reads rd.pre) := by
  have same := (related.stepped ready).mp stepped
  rw [AvbdCpu.stepBackward, if_neg (by simp [ready, same, related.sized]), related.reads stepped]

/-- A positive number of iterations is one more than some number. -/
theorem exists_succ {iters : Int} (some : ¬ iters < 1) : ∃ n : Nat, iters = (n + 1 : Nat) :=
  ⟨(iters - 1).toNat, by omega⟩

/-- A run keeps them related. -/
theorem related_runs (related : Related cpu rd) (iters : Int) (duals : Bool) :
    Related (cpu.run kernels iters duals) (rd.run kernels iters duals).1 ∧
      (rd.run kernels iters duals).2 = none := by
  unfold AvbdRd.run
  by_cases few : iters < 1
  · rw [if_pos few, AvbdCpu.run_none kernels cpu few]
    exact ⟨related, rfl⟩
  · obtain ⟨n, rfl⟩ := exists_succ few
    rw [if_neg few, related.ready]
    by_cases ready : cpu.meshReady = true
    · rw [if_pos ready, ← (rd.recordRun _ duals).record_nil]
      refine ⟨related_run kernels related ready n duals, ?_⟩
      rw [AvbdRd.submit_run kernels rd related.graph]
      rfl
    · rw [if_neg ready, AvbdCpu.run_unready kernels cpu (Bool.eq_false_iff.mpr ready)]
      exact ⟨related, rfl⟩

/-- A step keeps them related. -/
theorem related_step (related : Related cpu rd) :
    Related (cpu.step kernels) (rd.step kernels).1 ∧ (rd.step kernels).2 = none := by
  have runs := related_runs kernels related 1 false
  have cpuRun : cpu.run kernels 1 false = cpu.step kernels := rfl
  have rdRun : rd.run kernels 1 false = rd.step kernels := rfl
  rwa [cpuRun, rdRun] at runs

/-- A backward keeps them related, and what `AvbdRd` reads `AvbdCpu` reads. -/
theorem related_stepBackward (related : Related cpu rd) :
    Related cpu (rd.stepBackward kernels).1 ∧
      ∀ reads, (rd.stepBackward kernels).2 = some reads → cpu.stepBackward = some reads := by
  unfold AvbdRd.stepBackward
  by_cases able : (rd.meshReady && rd.hasStep) = true
  · obtain ⟨ready, stepped⟩ := Bool.and_eq_true_iff.mp able
    rw [if_pos able, AvbdRd.submit_backward kernels rd related.graph,
      related.stepBackward_eq (related.ready ▸ ready) stepped]
    exact ⟨related, fun _ => id⟩
  · rw [if_neg able]
    exact ⟨related, nofun⟩

/-- A run with its backward keeps them related, and reads the same. -/
theorem related_runWithBackward (related : Related cpu rd) (iters : Int) (duals : Bool) :
    Related (cpu.run kernels iters duals) (rd.runWithBackward kernels iters duals).1 ∧
      ∀ reads, (rd.runWithBackward kernels iters duals).2 = some reads →
        (cpu.run kernels iters duals).stepBackward = some reads := by
  unfold AvbdRd.runWithBackward
  by_cases refused : (decide (iters < 1) || !rd.meshReady) = true
  · rw [if_pos refused]
    rcases Bool.or_eq_true_iff.mp refused with few | unready
    · rw [AvbdCpu.run_none kernels cpu (of_decide_eq_true few)]
      exact ⟨related, nofun⟩
    · rw [AvbdCpu.run_unready kernels cpu (by simpa [related.ready] using unready)]
      exact ⟨related, nofun⟩
  · rw [if_neg refused]
    simp only [Bool.or_eq_true, decide_eq_true_eq, not_or, Bool.not_eq_true', Bool.not_eq_false]
      at refused
    obtain ⟨n, rfl⟩ := exists_succ refused.1
    have ready : cpu.meshReady = true := related.ready ▸ refused.2
    have after := related_run kernels related ready n duals
    -- Raising `hasStep_` first is what the snapshot does anyway.
    have early : { rd with hasStep := true }.recordRun (n + 1 : Nat) duals =
        rd.recordRun (n + 1 : Nat) duals := by
      rw [AvbdRd.recordRun_eq, AvbdRd.recordRun_eq]
    have submitted : ((rd.recordRun (n + 1 : Nat) duals).record [.backward]).submit kernels =
        ((((rd.recordRun (n + 1 : Nat) duals).record []).submit kernels).1,
          some ((((rd.recordRun (n + 1 : Nat) duals).record []).submit kernels).1.loaded.reads
            (((rd.recordRun (n + 1 : Nat) duals).record []).submit kernels).1.pre)) := by
      rw [AvbdRd.submit_run kernels rd related.graph, AvbdRd.submit_run kernels rd related.graph]
      rfl
    have stepped : (((rd.recordRun (n + 1 : Nat) duals).record []).submit kernels).1.hasStep =
        true := by
      rw [AvbdRd.submit_run kernels rd related.graph]
    have readyAfter : (cpu.run kernels (n + 1 : Nat) duals).meshReady = true := by
      rw [AvbdCpu.run_eq kernels cpu ready]
      exact ready
    rw [early, submitted, after.stepBackward_eq readyAfter stepped]
    exact ⟨after, fun _ => id⟩

variable [Zero V]

/-- Every call keeps the back ends related, and a backward pass of `AvbdRd` reads
what the one of `AvbdCpu` reads. -/
theorem related_call (related : Related cpu rd) (op : Op V D) :
    Related (cpu.call kernels op).1 (rd.call kernels op).1 ∧
      ∀ reads, (rd.call kernels op).2 = some reads → (cpu.call kernels op).2 = some reads := by
  have quiet := AvbdRd.reads_duals kernels rd related.graph
  cases op with
  | setupMesh nVerts filled positions predicted data =>
      exact ⟨related_setupMesh kernels related filled positions predicted data, nofun⟩
  | uploadSprings n data => exact ⟨related_uploadSprings related n data, nofun⟩
  | uploadAttachments n data => exact ⟨related_uploadAttachments related n data, nofun⟩
  | uploadTriangles n data => exact ⟨related_uploadTriangles related n data, nofun⟩
  | uploadBendings n data => exact ⟨related_uploadBendings related n data, nofun⟩
  | updateRest family data => exact ⟨related_updateRest related family data, nofun⟩
  | buildColoring => exact ⟨related_buildColoring kernels related, nofun⟩
  | updateState positions predicted => exact ⟨related_updateState related positions predicted, nofun⟩
  | step =>
      obtain ⟨after, none⟩ := related_step kernels related
      exact ⟨after, fun reads some => absurd (none.symm.trans some) nofun⟩
  | stepDualAttachments =>
      exact ⟨related_stepDualAttachments kernels related,
        fun reads some => absurd (quiet.1.symm.trans some) nofun⟩
  | stepDualMembrane =>
      exact ⟨related_stepDualMembrane kernels related,
        fun reads some => absurd (quiet.2.1.symm.trans some) nofun⟩
  | stepDualBending =>
      exact ⟨related_stepDualBending kernels related,
        fun reads some => absurd (quiet.2.2.symm.trans some) nofun⟩
  | run iters duals =>
      obtain ⟨after, none⟩ := related_runs kernels related iters duals
      exact ⟨after, fun reads some => absurd (none.symm.trans some) nofun⟩
  | stepBackward => exact related_stepBackward kernels related
  | runWithBackward iters duals =>
      obtain ⟨after, same⟩ := related_runWithBackward kernels related iters duals
      refine ⟨after, fun reads some => ?_⟩
      have here := same reads some
      have ready : (cpu.run kernels iters duals).meshReady = true := by
        by_contra unready
        rw [AvbdCpu.stepBackward, if_pos (by simp [Bool.eq_false_iff.mpr unready])] at here
        exact absurd here nofun
      simp only [AvbdCpu.call, ready, Bool.true_or, if_true]
      exact here

end Calls

end Simulation

section Traces

variable [Zero V] in
/-- Over any calls from new back ends, whatever a backward pass of `AvbdRd` reads
as pre-step positions and duals, the one of `AvbdCpu` reads too. -/
theorem backward_reads_same (data : Family → D) (coloring : C) (ops : List (Op V D)) :
    List.Forall₂ (fun cpu rd => ∀ reads, rd = some reads → cpu = some reads)
      (Lockstep.trace (AvbdCpu.call kernels) (AvbdCpu.new data coloring) ops)
      (Lockstep.trace (AvbdRd.call kernels) (AvbdRd.new data coloring) ops) :=
  Lockstep.forall₂_trace Related (fun _ _ op related => related_call kernels related op)
    (related_new data coloring) ops

/-- Kernels that count: an iteration adds one, a dual update copies the positions. -/
def countingKernels : Kernels Nat Unit Unit where
  iteration := fun _ _ live => live.positions.map (· + 1)
  attachmentDual := fun _ live => live.attachLambda
  membraneDual := fun _ live => (live.positions, live.positions)
  bendingDual := fun _ live => live.bendLambda
  greedyColoring := fun _ => ()
  oneBatch := fun _ => ()
  length_iteration := fun _ _ _ => List.length_map _

/-- The duals are read as they were before the last iteration, not as they are, on both sides. -/
theorem backward_reads_same_counting :
    let ops : List (Op Nat Unit) := [.setupMesh 1 Nat.one_pos (fun _ => 5) (fun _ => 0) (),
      .uploadTriangles 1 (), .run 2 true, .stepDualMembrane, .stepBackward]
    let reads : Reads Nat := ⟨[6], some ([6], [6]), none⟩
    (Lockstep.trace (AvbdRd.call countingKernels) (AvbdRd.new (fun _ => ()) ()) ops)[4]? =
        some (some reads) ∧
      (Lockstep.trace (AvbdCpu.call countingKernels) (AvbdCpu.new (fun _ => ()) ()) ops)[4]? =
        some (some reads) := by
  intro ops reads
  refine ⟨rfl, ?_⟩
  have same := (List.forall₂_iff_get.mp
    (backward_reads_same countingKernels (fun _ => ()) () ops)).2 4 (by decide) (by decide)
  rw [List.getElem?_eq_getElem (by decide)]
  exact congrArg some (same reads rfl)

end Traces

end DressOn.Avbd.Backends
