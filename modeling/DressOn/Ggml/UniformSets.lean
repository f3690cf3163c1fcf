import Mathlib.Data.List.Basic
import DressOn.Lib.Handles

/-!
# The uniform-set caches

Every kernel binds a set of tensors, the params table and the four buffers of a dispatch, and a set
of its slot in that table. The sets are cached: those of tensors by the handles of their buffers,
those of slots by the number of the slot. The rendering device frees a set with any buffer that it
binds, and may hand out the handles of what was freed again.
-/

namespace DressOn.Ggml

open Handles

namespace UniformSets

/-- A handle of the device, as the guest holds it. Zero is null, one that is kept is negative. -/
abbrev Rid := ℤ

/-- The objects of the device. A pipeline names its shader, a set its shader and the buffers that
it binds. -/
inductive Object
  | buffer (bytes : ℕ) (words : List ℕ)
  | shader
  | pipeline (shader : ℕ)
  | set (shader : ℕ) (bindings : List (ℕ × ℕ))
  deriving DecidableEq

/-- What an object depends on, and goes with. -/
def Object.deps : Object → List ℕ
  | buffer _ _ | shader => []
  | pipeline number => [number]
  | set number bindings => number :: bindings.map Prod.snd

/-- The rendering device. Each creation takes the next of `proposals`: a handle that it may use,
or none when it fails. -/
structure Gpu where
  server : Server Rid Object := {}
  proposals : List (Option Rid) := []
  err : String := ""

namespace Gpu

/-- The device refuses. -/
def refuse (step why : String) (gpu : Gpu) : Gpu :=
  { gpu with proposals := gpu.proposals.tail, err := "FAIL at " ++ step ++ ": " ++ why }

/-- A new object, under any handle that is not out. -/
def create (step : String) (object : Object) (gpu : Gpu) : Rid × Gpu :=
  match gpu.proposals with
  | some rid :: rest =>
      if rid < 0 ∧ gpu.server.held rid = none then
        (rid, { gpu with server := gpu.server.create rid object, proposals := rest })
      else
        (0, gpu.refuse step "null RID")
  | _ => (0, gpu.refuse step "null RID")

/-- Release a handle only. -/
def forget (rid : Rid) (gpu : Gpu) : Gpu :=
  if 0 ≤ rid then gpu else { gpu with server := gpu.server.forget rid }

/-- Free the object behind a handle, and the handle. -/
def freeRid (rid : Rid) (gpu : Gpu) : Gpu :=
  if rid = 0 then gpu else { gpu with server := gpu.server.release Object.deps rid }

/-- The buffer behind a handle. -/
def buffer? (gpu : Gpu) (rid : Rid) : Option ℕ :=
  match gpu.server.at? rid with
  | some (.buffer _ _) => gpu.server.held rid
  | _ => none

/-- The shader behind a handle. -/
def shader? (gpu : Gpu) (rid : Rid) : Option ℕ :=
  match gpu.server.at? rid with
  | some .shader => gpu.server.held rid
  | _ => none

/-- A shader of an embedded module. -/
def shaderFromSpirv (gpu : Gpu) : Rid × Gpu := gpu.create "shader_create_from_spirv" .shader

/-- A pipeline of a shader. -/
def computePipeline (shader : Rid) (gpu : Gpu) : Rid × Gpu :=
  match gpu.shader? shader with
  | some number => gpu.create "compute_pipeline_create" (.pipeline number)
  | none => (0, gpu.refuse "compute_pipeline_create" "null RID")

/-- A uniform buffer with its contents. -/
def uniformBuffer (bytes : ℕ) (words : List ℕ) (gpu : Gpu) : Rid × Gpu :=
  gpu.create "uniform_buffer_create" (.buffer bytes words)

/-- The device clears a buffer, or fails. -/
def bufferClear (gpu : Gpu) : Bool × Gpu :=
  match gpu.proposals with
  | some _ :: rest => (true, { gpu with proposals := rest })
  | _ => (false, gpu.refuse "buffer_clear" "Godot Error != OK")

/-- A storage buffer, cleared. One that cannot be cleared is freed again. -/
def storageBufferEmpty (bytes : ℕ) (gpu : Gpu) : Rid × Gpu :=
  let (rid, gpu) := gpu.create "storage_buffer_create" (.buffer bytes [])
  if rid = 0 then
    (0, gpu)
  else
    let (cleared, gpu) := gpu.bufferClear
    if cleared then (rid, gpu) else (0, gpu.freeRid rid)

/-- The buffers of a set's bindings. -/
def resolve (gpu : Gpu) : List (ℕ × Rid) → Option (List (ℕ × ℕ))
  | [] => some []
  | (slot, rid) :: rest =>
      match gpu.buffer? rid, gpu.resolve rest with
      | some number, some numbers => some ((slot, number) :: numbers)
      | _, _ => none

/-- A uniform set against a shader. The device wants a shader and buffers that it knows. -/
def uniformSet (shader : Rid) (bindings : List (ℕ × Rid)) (gpu : Gpu) : Rid × Gpu :=
  match gpu.shader? shader, gpu.resolve bindings with
  | some number, some numbers => gpu.create "uniform_set_create" (.set number numbers)
  | _, _ => (0, gpu.refuse "uniform_set_create" "null RID")

end Gpu

/-- The shader and the pipeline of a kernel. -/
structure Kern where
  shader : Rid
  pipeline : Rid

/-- The buffers of a set of tensors. -/
structure Key where
  params : Rid
  s0 : Rid
  s1 : Rid
  s2 : Rid
  dst : Rid
  deriving DecidableEq

/-- Words of a slot in the params table. -/
def kWordsPerSlot : ℕ := 64

/-- Bytes of a slot in the params table. -/
def kSlotBytes : ℕ := 256

/-- The bindings of a set of tensors: the params table, the sources and the destination. -/
def Key.bindings (key : Key) : List (ℕ × Rid) :=
  [(0, key.params), (1, key.s0), (2, key.s1), (3, key.s2), (4, key.dst)]

/-- The binding of a slot's set: its uniform buffer. -/
def slotBindings (ubo : Rid) : List (ℕ × Rid) := [(0, ubo)]

/-- The caches. Of the vector of kernels the entries with a pipeline are kept, by their number. -/
structure State where
  kerns : List (ℕ × Kern) := []
  layoutShader : Rid := 0
  params : Rid := 0
  paramsSlots : ℕ := 0
  slotUbos : List Rid := []
  slotSets : List Rid := []
  set0 : List (Key × Rid) := []
  createdSinceCoop : ℕ := 0

/-- The handles of the caches in the order of their release: sets first, shaders last. -/
def State.owned (state : State) : List Rid :=
  state.set0.map Prod.snd ++ state.slotSets ++ state.slotUbos ++
    (if state.params = 0 then [] else [state.params]) ++
      state.kerns.flatMap fun entry => [entry.2.pipeline, entry.2.shader]

/-- The counters. -/
structure Stats where
  pipelines : ℕ := 0
  set0Created : ℕ := 0
  slotsCreated : ℕ := 0
  coopYields : ℕ := 0
  buffersLive : ℕ := 0

/-- The device, the caches and the live tensor buffers. -/
structure World where
  gpu : Gpu := {}
  cache : State := {}
  buffers : List Rid := []
  stats : Stats := {}
  lastError : String := ""

/-- The kernels that are built in, and the largest buffer. -/
structure Table where
  kernelCount : ℕ
  name : ℕ → String
  embedded : ℕ → Bool
  maxBufferBytes : ℕ

namespace World

/-- Note an error. -/
def setError (text : String) (world : World) : World := { world with lastError := text }

/-- After every 256 sets the frame is given back. -/
def createdOne (world : World) : World :=
  if 256 ≤ world.cache.createdSinceCoop + 1 then
    { world with
      cache := { world.cache with createdSinceCoop := 0 }
      stats := { world.stats with coopYields := world.stats.coopYields + 1 } }
  else
    { world with
      cache := { world.cache with createdSinceCoop := world.cache.createdSinceCoop + 1 } }

/-- The pipeline of a kernel, made on first use. -/
def kernelPipeline (table : Table) (k : ℕ) (world : World) : Rid × World :=
  if table.kernelCount ≤ k then
    (0, world.setError ("kernel id " ++ toString k ++ " out of range"))
  else
    match world.cache.kerns.lookup k with
    | some kern => (kern.pipeline, world)
    | none =>
        if table.embedded k then
          let (shader, gpu) := world.gpu.shaderFromSpirv
          if shader = 0 then
            (0, { world with gpu }.setError ("shader " ++ table.name k ++ ": " ++ gpu.err))
          else
            let (pipeline, gpu) := gpu.computePipeline shader
            if pipeline = 0 then
              (0, { world with gpu := gpu.freeRid shader }.setError
                ("pipeline " ++ table.name k ++ ": " ++ gpu.err))
            else
              (pipeline, { world with
                gpu
                cache := { world.cache with
                  kerns := (k, ⟨shader, pipeline⟩) :: world.cache.kerns
                  layoutShader :=
                    if world.cache.layoutShader = 0 then shader else world.cache.layoutShader }
                stats := { world.stats with pipelines := world.stats.pipelines + 1 } })
        else
          (0, world.setError ("kernel " ++ table.name k ++ " is not embedded"))

/-- The table grows by doubling. -/
def capacity (cap slots : ℕ) : ℕ :=
  if cap < slots ∧ 0 < cap then capacity (2 * cap) slots else cap
termination_by slots - cap

/-- Forget the handles of sets that go with a buffer. -/
def forgetSets (sets : List (Key × Rid)) (gpu : Gpu) : Gpu :=
  sets.foldl (fun gpu entry => gpu.forget entry.2) gpu

/-- Give the params table up, with every set of tensors. -/
def dropParams (world : World) : World :=
  if world.cache.params = 0 then
    world
  else
    { world with
      gpu := (forgetSets world.cache.set0 world.gpu).freeRid world.cache.params
      cache := { world.cache with set0 := [], params := 0, paramsSlots := 0 } }

/-- The params table, grown to a number of slots. -/
def paramsBuffer (slots : ℕ) (world : World) : Rid × World :=
  if world.cache.params ≠ 0 ∧ slots ≤ world.cache.paramsSlots then
    (world.cache.params, world)
  else
    let cap := capacity 8192 slots
    let world := world.dropParams
    let (params, gpu) := world.gpu.storageBufferEmpty (cap * kSlotBytes)
    if params = 0 then
      (0, { world with gpu }.setError ("params table: " ++ gpu.err))
    else
      (params, { world with gpu, cache := { world.cache with params, paramsSlots := cap } })

/-- Make the next slot's uniform buffer and its set. -/
def addSlot (world : World) : Bool × World :=
  let j := world.cache.slotSets.length
  let (ubo, gpu) := world.gpu.uniformBuffer 16 [j * kWordsPerSlot, 0, 0, 0]
  if ubo = 0 then
    (false, { world with gpu }.setError ("slot ubo: " ++ gpu.err))
  else
    let (set, gpu) := gpu.uniformSet world.cache.layoutShader (slotBindings ubo)
    if set = 0 then
      (false, { world with gpu := gpu.freeRid ubo }.setError ("slot set: " ++ gpu.err))
    else
      (true, createdOne { world with
        gpu
        cache := { world.cache with
          slotUbos := world.cache.slotUbos ++ [ubo]
          slotSets := world.cache.slotSets ++ [set] }
        stats := { world.stats with slotsCreated := world.stats.slotsCreated + 1 } })

/-- Make a number of slots. -/
def growSlots : ℕ → World → Bool × World
  | 0, world => (true, world)
  | turns + 1, world =>
      let (made, world) := world.addSlot
      if made then growSlots turns world else (false, world)

/-- The set of a slot, made with those before it on first use. -/
def slotSet (i : ℕ) (world : World) : Rid × World :=
  if world.cache.layoutShader = 0 then
    (0, world.setError "slot_set before any pipeline")
  else
    let (grown, world) := growSlots (i + 1 - world.cache.slotSets.length) world
    if grown then (world.cache.slotSets.getD i 0, world) else (0, world)

/-- The set of tensors of a dispatch, cached by the handles of its buffers. -/
def tensorSet (key : Key) (world : World) : Rid × World :=
  match world.cache.set0.lookup key with
  | some set => (set, world)
  | none =>
      if world.cache.layoutShader = 0 then
        (0, world.setError "tensor_set before any pipeline")
      else
        let (set, gpu) := world.gpu.uniformSet world.cache.layoutShader key.bindings
        if set = 0 then
          (0, { world with gpu }.setError ("set 0: " ++ gpu.err))
        else
          (set, createdOne { world with
            gpu
            cache := { world.cache with set0 := (key, set) :: world.cache.set0 }
            stats := { world.stats with set0Created := world.stats.set0Created + 1 } })

/-- A set of tensors binds a buffer as a source or destination. -/
def Mentions (buffer : Rid) (key : Key) : Prop :=
  key.s0 = buffer ∨ key.s1 = buffer ∨ key.s2 = buffer ∨ key.dst = buffer

instance (buffer : Rid) (key : Key) : Decidable (Mentions buffer key) :=
  inferInstanceAs (Decidable (_ ∨ _))

/-- Forget the sets of tensors that bind a buffer. -/
def forgetSetsOf (buffer : Rid) (world : World) : World :=
  { world with
    gpu := forgetSets (world.cache.set0.filter fun entry => Mentions buffer entry.1) world.gpu
    cache := { world.cache with
      set0 := world.cache.set0.filter fun entry => ¬ Mentions buffer entry.1 } }

/-- Free a tensor buffer. -/
def bufferFree (buffer : Rid) (world : World) : World :=
  let world := world.forgetSetsOf buffer
  { world with
    gpu := world.gpu.freeRid buffer
    buffers := world.buffers.erase buffer
    stats := { world.stats with buffersLive := world.stats.buffersLive - 1 } }

/-- Allocate a tensor buffer. -/
def allocBuffer (table : Table) (size : ℕ) (world : World) : World :=
  let bytes := (max size 1 + 255) / 256 * 256
  if table.maxBufferBytes < bytes then
    world.setError ("alloc_buffer: " ++ toString bytes ++ " bytes is over the maximum")
  else
    let (rid, gpu) := world.gpu.storageBufferEmpty bytes
    if rid = 0 then
      { world with gpu }.setError ("alloc_buffer: " ++ gpu.err)
    else
      { world with
        gpu
        buffers := rid :: world.buffers
        stats := { world.stats with buffersLive := world.stats.buffersLive + 1 } }

/-- Free everything that the caches hold. -/
def releaseKernels (world : World) : World :=
  { world with
    gpu := world.cache.owned.foldl (fun gpu rid => gpu.freeRid rid) world.gpu
    cache := {} }

/-- A dispatch: its kernel and the buffers of its tensors. -/
structure Dispatch where
  kernel : ℕ
  s0 : Rid
  s1 : Rid
  s2 : Rid
  dst : Rid

/-- The set of a dispatch under a params table. -/
def Dispatch.key (dispatch : Dispatch) (params : Rid) : Key :=
  ⟨params, dispatch.s0, dispatch.s1, dispatch.s2, dispatch.dst⟩

/-- Make one handle after another, up to the first that is null. -/
def everyRid {α : Type} (make : α → World → Rid × World) :
    List α → World → Option (List Rid) × World
  | [], world => (some [], world)
  | item :: rest, world =>
      let (rid, world) := make item world
      if rid = 0 then
        (none, world)
      else
        let (rids, world) := everyRid make rest world
        (rids.map (rid :: ·), world)

/-- What is bound for a dispatch. -/
structure Bound where
  pipeline : Rid
  set0 : Rid
  slot : Rid

/-- What a graph records: for each dispatch its pipeline, its set of tensors and its slot's set. -/
def graphCompute (table : Table) (dispatches : List Dispatch) (world : World) :
    Option (List Bound) × World :=
  if dispatches = [] then
    (some [], world)
  else
    match everyRid (fun dispatch => kernelPipeline table dispatch.kernel) dispatches world with
    | (none, world) => (none, world)
    | (some _, world) =>
        let (params, world) := world.paramsBuffer dispatches.length
        if params = 0 then
          (none, world)
        else
          match everyRid slotSet (List.range dispatches.length) world with
          | (none, world) => (none, world)
          | (some _, world) =>
              match everyRid (fun dispatch => tensorSet (dispatch.key params)) dispatches world with
              | (none, world) => (none, world)
              | (some sets, world) =>
                  (some ((dispatches.zip sets).mapIdx fun i entry =>
                    ⟨(world.kernelPipeline table entry.1.kernel).1, entry.2,
                      (world.slotSet i).1⟩), world)

end World

end UniformSets

end DressOn.Ggml
