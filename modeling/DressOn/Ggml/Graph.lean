import DressOn.Lib.Numerals
import DressOn.Lib.Schedule

/-!
# Recording a ggml graph as one compute list

`graphCompute` packs the nodes of a graph into dispatches and records them in
graph order. A barrier is recorded only before a dispatch that touches what a
dispatch since the last barrier wrote, or writes what one read. The ranges it
compares are widened to whole 4-byte words, which is what the kernels address.

The words of the params table (`fill_standard`'s output, fault injection) and
the profile are not modelled: nothing the recording decides depends on them.
-/

namespace DressOn.Ggml

open Schedule

/-- A tensor resident in a device buffer: `buffer_of`, `byte_offset`, `ggml_nbytes`. -/
structure Tensor where
  rid : Int
  offset : Nat
  nbytes : Nat
deriving DecidableEq, Repr

/-- Bytes `[lo, hi)` of one buffer. -/
structure Range where
  rid : Int
  lo : Nat
  hi : Nat
deriving DecidableEq, Repr

/-- A tensor's bytes widened to whole 4-byte words. -/
def rangeOf (t : Tensor) : Range where
  rid := t.rid
  lo := t.offset / 4 * 4
  hi := (t.offset + t.nbytes + 3) / 4 * 4

/-- Whether a range meets any range of a segment. -/
def overlaps (v : List Range) (r : Range) : Bool :=
  v.any fun x => x.rid == r.rid && decide (x.lo < r.hi) && decide (r.lo < x.hi)

/-- A node of the graph: its operands and what the packing loop asks of it. -/
structure Node where
  src : Fin 3 → Option Tensor
  dst : Tensor
  layoutOnly : Bool
  empty : Bool
  compute : Bool
  opDesc : String
  name : String
  typeName : String

/-- `node_desc`. -/
def Node.desc (n : Node) : String := n.opDesc ++ " '" ++ n.name ++ "' " ++ n.typeName

/-- The sources a node has, in slot order. -/
def Node.srcs (n : Node) : List Tensor := (List.finRange 3).filterMap n.src

/-- The four buffers bound in set 0; an unused binding names the dst buffer. -/
def Node.bind (n : Node) : Fin 4 → Int
  | 0 => ((n.src 0).getD n.dst).rid
  | 1 => ((n.src 1).getD n.dst).rid
  | 2 => ((n.src 2).getD n.dst).rid
  | 3 => n.dst.rid

/-- Whether the packing loop makes a dispatch of a node. -/
def Node.runs (n : Node) : Bool := !(n.layoutOnly || n.empty || !n.compute)

/-- Work groups in x, y and z. -/
abbrev Groups := Nat × Nat × Nat

/-- A packed node. The ranges it was packed with are those of its operands. -/
structure Dispatch where
  node : Node
  kernel : Int
  groups : Groups
  set0 : Int
  reads : List Range
  write : Range
  reads_eq : reads = node.srcs.map rangeOf
  write_eq : write = rangeOf node.dst

/-- The environment variables the recording reads. -/
structure Knobs where
  barrierAll : Bool
  dropBarrier : Int

/-- What reaches the compute list, in order. -/
inductive Command where
  | listBegin
  | barrier
  | bindPipeline (kernel : Int)
  | bindTensors (set0 : Int)
  | bindSlot (slot : Nat)
  | dispatch (slot : Nat) (groups : Groups)
  | listEnd
  | submit
deriving DecidableEq, Repr

/-- Locals of the recording loop. -/
structure Recording where
  segReads : List Range := []
  segWrites : List Range := []
  barriers : Nat := 0
  placed : Nat := 0
  boundKernel : Int := -1
  boundSet0 : Int := 0
  lastDropped : String := ""
  commands : List Command := [.listBegin]

/-- Whether dispatch `i` must wait for one recorded since the last barrier. -/
def hazard (knobs : Knobs) (st : Recording) (i : Nat) (dp : Dispatch) : Bool :=
  (knobs.barrierAll && decide (0 < i)) ||
    dp.reads.any (overlaps st.segWrites) ||  -- RAW
    (overlaps st.segWrites dp.write || overlaps st.segReads dp.write)  -- WAW, WAR

/-- The barrier in front of a hazard, or the one the control leaves out. -/
def placeBarrier (knobs : Knobs) (st : Recording) (i : Nat) (dp : Dispatch) : Recording :=
  let placed := st.placed + 1
  let st := { st with placed := placed, segReads := [], segWrites := [] }
  if 0 < knobs.dropBarrier ∧ (placed : Int) = knobs.dropBarrier ∧ knobs.barrierAll = false then
    { st with lastDropped := "barrier " ++ toString placed ++ " before dispatch " ++
        toString i ++ " " ++ dp.node.desc }
  else
    { st with barriers := st.barriers + 1, commands := st.commands ++ [.barrier] }

/-- The bindings and the dispatch itself, added to the current segment. -/
def emit (st : Recording) (i : Nat) (dp : Dispatch) : Recording where
  segReads := st.segReads ++ dp.reads
  segWrites := st.segWrites ++ [dp.write]
  barriers := st.barriers
  placed := st.placed
  boundKernel := dp.kernel
  boundSet0 := dp.set0
  lastDropped := st.lastDropped
  commands := st.commands ++
    (if dp.kernel ≠ st.boundKernel then [.bindPipeline dp.kernel] else []) ++
    (if dp.set0 ≠ st.boundSet0 then [.bindTensors dp.set0] else []) ++
    [.bindSlot i, .dispatch i dp.groups]

/-- One turn of the recording loop. -/
def recordOne (knobs : Knobs) (st : Recording) (slot : Dispatch × Nat) : Recording :=
  let st := if hazard knobs st slot.2 slot.1 then placeBarrier knobs st slot.2 slot.1 else st
  emit st slot.2 slot.1

/-- The recording loop over all dispatches. -/
def recordLoop (knobs : Knobs) (ds : List Dispatch) : Recording :=
  ds.zipIdx.foldl (recordOne knobs) {}

/-- The recorded list, closed and submitted. -/
def record (knobs : Knobs) (ds : List Dispatch) : List Command :=
  (recordLoop knobs ds).commands ++ [.listEnd, .submit]

/-- A bind that succeeds had both its steps succeed. -/
theorem bind_ok {ε α β : Type} {first : Except ε α} {next : α → Except ε β} {result : β}
    (ok : (first >>= next) = .ok result) : ∃ value, first = .ok value ∧ next value = .ok result := by
  cases first with
  | error _ => cases ok
  | ok value => exact ⟨value, rfl, ok⟩

/-- What a packer answers for a node. -/
structure Pack where
  kernel : Int
  groups : Groups

/-- The operator table and the device objects the graph is recorded against.
`none` is a packer's refusal; an `.error` carries `last_error`. -/
structure Backend where
  findOp : Node → Option (String × (Node → Option Pack))
  fillStandard : Node → Except String Unit
  pipelineOk : Int → Bool
  paramsBuffer : Nat → Except String Unit
  slotSet : Nat → Except String Unit
  tensorSet : (Fin 4 → Int) → Except String Int
  bufferUpdate : Nat → Except String Unit

namespace Backend

variable (backend : Backend)

/-- One node of the packing loop: nothing to run, a dispatch, or a failed graph. -/
def packNode (node : Node) : Except String (Option Dispatch) :=
  if !node.runs then .ok none
  else match backend.findOp node with
    | none => .error ("no packer accepts " ++ node.desc)
    | some (name, pack) =>
      match backend.fillStandard node with
      | .error why => .error (why ++ ": " ++ node.desc)
      | .ok () =>
        match pack node with
        | none => .error ("packer " ++ name ++ " refused " ++ node.desc)
        | some p =>
          if p.kernel < 0 ∨ p.groups.1 = 0 ∨ p.groups.2.1 = 0 ∨ p.groups.2.2 = 0 then
            .error ("packer " ++ name ++ " refused " ++ node.desc)
          else .ok (some {
            node := node, kernel := p.kernel, groups := p.groups, set0 := 0,
            reads := node.srcs.map rangeOf, write := rangeOf node.dst,
            reads_eq := rfl, write_eq := rfl })

/-- The packing loop. -/
def packNodes : List Node → Except String (List Dispatch)
  | [] => .ok []
  | node :: rest => do
    match ← backend.packNode node with
    | none => packNodes rest
    | some dp => return dp :: (← packNodes rest)

/-- Set 0 of every dispatch. -/
def bindSets : List Dispatch → Except String (List Dispatch)
  | [] => .ok []
  | dp :: rest =>
    match backend.tensorSet dp.node.bind with
    | .error why => .error ("set 0 for " ++ dp.node.desc ++ ": " ++ why)
    | .ok set0 => do return { dp with set0 := set0 } :: (← bindSets rest)

/-- Everything the recording binds exists before the list opens. -/
def prepare (ds : List Dispatch) : Except String (List Dispatch) := do
  match ds.find? fun dp => !backend.pipelineOk dp.kernel with
  | some dp => .error ("pipeline for " ++ dp.node.desc ++ " failed")
  | none =>
    (backend.paramsBuffer ds.length).mapError ("params table: " ++ ·)
    (List.range ds.length).forM fun i =>
      (backend.slotSet i).mapError fun why => "slot set " ++ toString i ++ ": " ++ why
    let ds ← backend.bindSets ds
    (backend.bufferUpdate ds.length).mapError ("params upload: " ++ ·)
    return ds

/-- `graph_compute` on the device: the commands it recorded, or why it failed. -/
def graphCompute (knobs : Knobs) (nodes : List Node) : Except String (List Command) := do
  let ds ← backend.packNodes nodes
  if ds = [] then return [] else return record knobs (← backend.prepare ds)

variable {backend}

/-- A packed node is dispatched as itself, or it runs nothing. -/
theorem packNode_node {node : Node} {packed : Option Dispatch}
    (ok : backend.packNode node = .ok packed) :
    packed.toList.map (·.node) = if node.runs then [node] else [] := by
  unfold packNode at ok
  split at ok
  · next skipped =>
    cases ok
    have idle : node.runs = false := by simpa using skipped
    simp [idle]
  · next dispatched =>
    have runs : node.runs = true := by simpa using dispatched
    rw [if_pos runs]
    repeat' split at ok
    all_goals cases ok
    rfl

/-- The dispatches are the nodes that run, in graph order. -/
theorem packNodes_nodes {nodes : List Node} {ds : List Dispatch}
    (ok : backend.packNodes nodes = .ok ds) :
    ds.map (·.node) = nodes.filter Node.runs := by
  induction nodes generalizing ds with
  | nil => cases ok; rfl
  | cons node rest ih =>
      unfold packNodes at ok
      obtain ⟨packed, first, ok⟩ := bind_ok ok
      have head := packNode_node first
      cases packed with
      | none =>
          have skipped : node.runs = false := by simpa using head
          simp [skipped, ih ok]
      | some dp =>
          have runs : node.runs = true := by
            by_contra skipped
            simp [skipped] at head
          obtain ⟨tail, restOk, ok⟩ := bind_ok ok
          cases ok
          simp_all

/-- Binding set 0 keeps the nodes. -/
theorem bindSets_nodes {ds bound : List Dispatch} (ok : backend.bindSets ds = .ok bound) :
    bound.map (·.node) = ds.map (·.node) := by
  induction ds generalizing bound with
  | nil => cases ok; rfl
  | cons dp rest ih =>
      unfold bindSets at ok
      split at ok
      · cases ok
      · obtain ⟨tail, restOk, ok⟩ := bind_ok ok
        cases ok
        simp [ih restOk]

/-- Preparing the device objects keeps the nodes. -/
theorem prepare_nodes {ds bound : List Dispatch} (ok : backend.prepare ds = .ok bound) :
    bound.map (·.node) = ds.map (·.node) := by
  unfold prepare at ok
  split at ok
  · cases ok
  · obtain ⟨_, _, ok⟩ := bind_ok ok
    obtain ⟨_, _, ok⟩ := bind_ok ok
    obtain ⟨sets, setsOk, ok⟩ := bind_ok ok
    obtain ⟨_, _, ok⟩ := bind_ok ok
    cases ok
    exact bindSets_nodes setsOk

/-- A graph that succeeds has recorded the nodes that run, in graph order. -/
theorem graphCompute_records {knobs : Knobs} {nodes : List Node} {commands : List Command}
    (ok : backend.graphCompute knobs nodes = .ok commands) :
    nodes.filter Node.runs = [] ∧ commands = [] ∨
      ∃ ds, ds.map (·.node) = nodes.filter Node.runs ∧ commands = record knobs ds := by
  unfold graphCompute at ok
  obtain ⟨ds, packed, ok⟩ := bind_ok ok
  split at ok
  · next none =>
    cases ok
    exact Or.inl ⟨by rw [← packNodes_nodes packed, none, List.map_nil], rfl⟩
  · obtain ⟨bound, prepared, ok⟩ := bind_ok ok
    cases ok
    exact Or.inr ⟨bound, (prepare_nodes prepared).trans (packNodes_nodes packed), rfl⟩

end Backend

end DressOn.Ggml
