import Mathlib.Data.Int.Notation
import Mathlib.Data.Nat.Notation
import DressOn.Lib.Interruptible
import Mathlib.Algebra.GroupWithZero.Nat

/-!
# The guest's GPU device

The one class through which the guest reaches the host's `RenderingDevice`. Its fields live in
guest memory, which outlives a killed call; each operation is the code between one host call and
the next. A null object is not called: such a call ends in a trap.
-/

namespace DressOn.Rdc

open Interruptible Interruptible.Code

/-- A handle of the host, as the guest holds it. Zero is null, a negative one is permanent. -/
abbrev Rid := ℤ

/-- A value that the host returns, as far as the guest looks at its type. -/
inductive Variant
  | rid (index : Rid)
  | object (address : ℕ)
  | other
  deriving DecidableEq

/-- One entry of a uniform set. -/
structure Binding where
  binding : ℕ
  type : ℤ
  rid : Rid
  deriving DecidableEq

/-- The methods of `RenderingDevice` that the guest calls. -/
inductive Method
  | computeListBegin
  | computeListBindComputePipeline (list : ℤ) (pipeline : Rid)
  | computeListBindUniformSet (list : ℤ) (uniformSet : Rid) (set : ℕ)
  | computeListDispatch (list : ℤ) (x y z : ℕ)
  | computeListAddBarrier (list : ℤ)
  | computeListEnd
  | submit
  | sync
  | bufferUpdate (buffer : Rid) (offset size : ℕ) (bytes : List UInt8)
  | bufferCopy (source target : Rid) (sourceOffset targetOffset size : ℕ)
  | bufferClear (buffer : Rid) (offset size : ℕ)
  | bufferGetData (buffer : Rid) (offset size : ℕ)
  | uniformSetIsValid (uniformSet : Rid)
  | freeRid (rid : Rid)
  | shaderCreateFromSpirv (spirv : ℕ)
  | computePipelineCreate (shader : Rid)
  | storageBufferCreate (size : ℕ) (bytes : List UInt8)
  | uniformBufferCreate (size : ℕ) (bytes : List UInt8)
  | uniformSetCreate (uniforms : List ℕ) (shader : Rid) (set : ℕ)
  | limitGet (limit : ℤ)
  | free
  | getMemoryUsage (type : ℤ)
  | getDeviceName
  | captureTimestamp (name : String)
  | getCapturedTimestampsCount
  | getCapturedTimestampGpuTime (index : ℤ)
  deriving DecidableEq

/-- What each method returns. -/
abbrev Method.Answer : Method → Type
  | computeListBegin => ℤ
  | bufferUpdate .. | bufferCopy .. | bufferClear .. => ℤ
  | bufferGetData .. => List UInt8
  | uniformSetIsValid _ => Bool
  | shaderCreateFromSpirv _ | computePipelineCreate _ => Variant
  | storageBufferCreate .. | uniformBufferCreate .. | uniformSetCreate .. => Variant
  | limitGet _ | getMemoryUsage _ => ℤ
  | getCapturedTimestampsCount | getCapturedTimestampGpuTime _ => ℤ
  | getDeviceName => String
  | _ => Unit

/-- The calls that leave the guest: methods of the device, methods of other objects, and the two
system calls on permanent variants. -/
inductive HostCall
  | device (address : ℕ) (method : Method)
  | singleton (name : String)
  | createLocalRenderingDevice (server : ℕ)
  | getProcessFrames (engine : ℕ)
  | instantiate (className : String)
  | setStageBytecode (spirv : ℕ) (stage : ℤ) (bytes : List UInt8)
  | setUniformType (uniform : ℕ) (type : ℤ)
  | setBinding (uniform : ℕ) (binding : ℕ)
  | addId (uniform : ℕ) (rid : Rid)
  | makePermanent (index : Rid)
  | vstoreGlobal (index : Rid)
  deriving DecidableEq

/-- What each host call returns. -/
abbrev HostCall.Answer : HostCall → Type
  | device _ method => method.Answer
  | singleton _ | instantiate _ => ℕ
  | createLocalRenderingDevice _ => Variant
  | getProcessFrames _ => ℤ
  | makePermanent _ => Rid
  | _ => Unit

/-- The most bytes that one packed array carries over the boundary. -/
def kMaxTransferBytes : ℕ := 16 * 2 ^ 20

/-- The compute stage of a shader. -/
def shaderStageCompute : ℤ := 4

/-- The counter of all memory of the device. -/
def memoryTotal : ℤ := 2

/-- Godot's error code for success. -/
def godotOk : ℤ := 0

/-- The fields of the guest's device. -/
structure Device where
  rd : ℕ := 0
  owned : Bool := false
  list : ℤ := 0
  step : String := ""
  err : String := ""
  engine : ℕ := 0
  submitFrame : ℤ := -1
  sameFrameSyncs : ℤ := 0
  syncs : ℤ := 0
  submits : ℤ := 0
  permanentLive : ℤ := 0
  permanentRids : Bool := true
  listOpen : Bool := false
  submitted : Bool := false
  recovery : Bool := true
  recoveries : ℤ := 0
  staging : Rid := 0
  stagingBytes : ℕ := 0
  stagingMax : ℕ := kMaxTransferBytes
  deriving DecidableEq

/-- Code of the guest's device. -/
abbrev Guest := Code Device HostCall HostCall.Answer

/-- Call a method of an object, which must not be null. -/
def objectCall (address : ℕ) (call : HostCall) : Guest call.Answer :=
  if address = 0 then trap else ask call

/-- Call a method of the device. -/
def call (method : Method) : Guest method.Answer := do
  let device ← read
  objectCall device.rd (.device device.rd method)

/-- Name the step that is attempted. -/
def attempt (step : String) : Guest Unit := modify fun device => { device with step }

/-- Say why the step failed. -/
def fail (why : String) : Guest Unit :=
  modify fun device => { device with err := "FAIL at " ++ device.step ++ ": " ++ why }

/-- A handle is moved to permanent storage, unless a gate has turned that off. -/
def keep (index : Rid) : Guest Rid := do
  let device ← read
  if device.permanentRids then ask (HostCall.makePermanent index) else pure index

/-- A permanent handle is counted, a null one is an error. -/
def countRid (index : Rid) : Guest Unit :=
  if index = 0 then
    fail "null RID"
  else if index < 0 then
    modify fun device => { device with permanentLive := device.permanentLive + 1 }
  else
    pure ()

/-- A returned handle, moved to permanent storage. -/
def ridOrFail : Variant → Guest Rid
  | .rid index => do
      let kept ← keep index
      countRid kept
      pure kept
  | _ => do
      fail "not an RID"
      pure 0

/-- Release a permanent slot only. -/
def forget (rid : Rid) : Guest Unit :=
  if 0 ≤ rid then
    pure ()
  else do
    ask (HostCall.vstoreGlobal rid)
    modify fun device => { device with permanentLive := device.permanentLive - 1 }

/-- Whether the host still knows a uniform set. -/
def uniformSetValid (rid : Rid) : Guest Bool :=
  if rid = 0 then
    pure false
  else do
    attempt "uniform_set_is_valid"
    call (.uniformSetIsValid rid)

/-- Free the GPU object and release its permanent slot. -/
def freeRid (rid : Rid) : Guest Unit :=
  if rid = 0 then
    pure ()
  else do
    attempt "free_rid"
    call (.freeRid rid)
    forget rid

/-- Take the device that the server made. -/
def openWith : Variant → Guest Bool
  | .object address => do
      modify fun device => { device with rd := address }
      modify fun device => { device with owned := true }
      if address = 0 then do
        fail "null device"
        pure false
      else
        pure true
  | _ => do
      fail "not an Object (headless? run with --rendering-driver vulkan)"
      pure false

/-- Create a local device. -/
def «open» : Guest Bool := do
  let device ← read
  if device.rd ≠ 0 then
    pure true
  else do
    modify fun device => { device with err := "" }
    attempt "Object(\"RenderingServer\")"
    let server ← ask (.singleton "RenderingServer")
    attempt "create_local_rendering_device"
    let made ← objectCall server (.createLocalRenderingDevice server)
    openWith made

/-- Use a device that the host owns. -/
def adopt (address : ℕ) : Guest Unit := do
  modify fun device => { device with rd := address }
  modify fun device => { device with owned := false }
  modify fun device => { device with listOpen := false }
  modify fun device => { device with submitted := false }
  modify fun device => { device with err := "" }

/-- Release a staging buffer. -/
def noStaging : Guest Unit := do
  modify fun device => { device with staging := 0 }
  modify fun device => { device with stagingBytes := 0 }

/-- Give the staging buffer back. -/
def closeStaging : Guest Unit := do
  let device ← read
  if device.staging = 0 then
    pure ()
  else if device.rd = 0 then do
    forget device.staging
    noStaging
  else do
    freeRid device.staging
    noStaging

/-- Free the device if it was created here. -/
def closeOwned : Guest Unit := do
  let device ← read
  if device.rd ≠ 0 ∧ device.owned = true then do
    attempt "free"
    call .free
  else
    pure ()

/-- Give the device up. -/
def close : Guest Unit := do
  closeStaging
  closeOwned
  modify fun device => { device with rd := 0 }
  modify fun device => { device with owned := false }
  modify fun device => { device with listOpen := false }
  modify fun device => { device with submitted := false }

/-- Make a shader of a compiled module. -/
def shaderFromSpirv (spirv : List UInt8) : Guest Rid := do
  attempt "ClassDB::instantiate(RDShaderSPIRV)"
  let holder ← ask (.instantiate "RDShaderSPIRV")
  attempt "set_stage_bytecode"
  objectCall holder (.setStageBytecode holder shaderStageCompute spirv)
  attempt "shader_create_from_spirv"
  let made ← call (.shaderCreateFromSpirv holder)
  ridOrFail made

/-- Make a pipeline of a shader. -/
def computePipeline (shader : Rid) : Guest Rid := do
  attempt "compute_pipeline_create"
  let made ← call (.computePipelineCreate shader)
  ridOrFail made

/-- The contents of a new buffer. -/
def bytesOrZeros (bytes : ℕ) : Option (List UInt8) → List UInt8
  | some data => data.take bytes
  | none => List.replicate bytes 0

/-- End the compute list. -/
def listEnd : Guest Unit := do
  attempt "compute_list_end"
  call .computeListEnd
  modify fun device => { device with listOpen := false }

/-- End a compute list that a killed call left open. -/
def recover : Guest Bool := do
  let device ← read
  if device.listOpen = false ∨ device.recovery = false then
    pure false
  else do
    listEnd
    modify fun device => { device with recoveries := device.recoveries + 1 }
    pure true

/-- Whether Godot accepted a call. -/
def accepted (err : ℤ) : Guest Bool :=
  if err = godotOk then
    pure true
  else do
    fail "Godot Error != OK"
    pure false

/-- Send bytes piece by piece from a given place on. -/
def updateFrom (buffer : Rid) (offset bytes : ℕ) (data : List UInt8) (done : ℕ) : Guest Bool := do
  let size := min (bytes - done) kMaxTransferBytes
  let err : ℤ ← call (.bufferUpdate buffer (offset + done) size ((data.drop done).take size))
  let sent ← accepted err
  if sent = false then
    pure false
  else if done + min (bytes - done) kMaxTransferBytes < bytes then
    updateFrom buffer offset bytes data (done + size)
  else
    pure true
termination_by bytes - done
decreasing_by
  simp only [kMaxTransferBytes] at *
  omega

/-- Write to a buffer. -/
def bufferUpdate (buffer : Rid) (offset bytes : ℕ) (data : List UInt8) : Guest Bool := do
  let _ ← recover
  attempt "buffer_update"
  updateFrom buffer offset bytes data 0

/-- Read from a buffer. -/
def bufferGet (buffer : Rid) (offset bytes : ℕ) : Guest (List UInt8) := do
  let _ ← recover
  attempt "buffer_get_data"
  call (.bufferGetData buffer offset bytes)

/-- Copy between buffers on the GPU. -/
def bufferCopy (source target : Rid) (bytes sourceOffset targetOffset : ℕ) : Guest Bool := do
  let _ ← recover
  attempt "buffer_copy"
  let err ← call (.bufferCopy source target sourceOffset targetOffset bytes)
  accepted err

/-- Fill a buffer with zeros on the GPU. -/
def bufferClear (buffer : Rid) (offset bytes : ℕ) : Guest Bool := do
  let _ ← recover
  attempt "buffer_clear"
  let err ← call (.bufferClear buffer offset bytes)
  accepted err

/-- Make a storage buffer without contents. -/
def storageBufferUninit (bytes : ℕ) : Guest Rid := do
  attempt "storage_buffer_create"
  let made ← call (.storageBufferCreate bytes [])
  ridOrFail made

/-- A new buffer is handed out if its contents are in place, and freed otherwise. -/
def orFree (rid : Rid) (filled : Bool) : Guest Rid :=
  if filled then
    pure rid
  else do
    freeRid rid
    pure 0

/-- Make a storage buffer and clear it on the GPU. -/
def storageBufferEmpty (bytes : ℕ) (clear : Bool) : Guest Rid := do
  let rounded := (bytes + 3) / 4 * 4
  let rid ← storageBufferUninit rounded
  if rid ≠ 0 ∧ clear = true then do
    let cleared ← bufferClear rid 0 rounded
    orFree rid cleared
  else
    pure rid

/-- A buffer too big to cross in one array is made empty, then filled. -/
def storageBufferLarge (bytes : ℕ) : Option (List UInt8) → Guest Rid
  | none => storageBufferEmpty bytes true
  | some data => do
      let rid ← storageBufferEmpty bytes false
      if rid ≠ 0 then do
        let filled ← bufferUpdate rid 0 bytes data
        orFree rid filled
      else
        pure rid

/-- Make a storage buffer with contents. -/
def storageBuffer (bytes : ℕ) (data : Option (List UInt8)) : Guest Rid :=
  if kMaxTransferBytes < bytes then
    storageBufferLarge bytes data
  else do
    attempt "storage_buffer_create"
    let made ← call (.storageBufferCreate bytes (bytesOrZeros bytes data))
    ridOrFail made

/-- Make a uniform buffer with contents. -/
def uniformBuffer (bytes : ℕ) (data : Option (List UInt8)) : Guest Rid := do
  attempt "uniform_buffer_create"
  let made ← call (.uniformBufferCreate bytes (bytesOrZeros bytes data))
  ridOrFail made

/-- Free a staging buffer that is too small. -/
def dropStaging : Guest Unit := do
  let device ← read
  if device.staging = 0 then
    pure ()
  else do
    freeRid device.staging
    noStaging

/-- Make a staging buffer. -/
def makeStaging (want : ℕ) : Guest Bool := do
  let rid ← storageBufferEmpty want false
  modify fun device => { device with staging := rid }
  if rid = 0 then
    pure false
  else do
    modify fun device => { device with stagingBytes := want }
    pure true

/-- Grow the staging buffer to a read, up to the cap. -/
def growStaging (bytes : ℕ) : Guest Bool := do
  let device ← read
  let want := min device.stagingMax ((bytes + 255) / 256 * 256)
  if device.stagingBytes < want then do
    dropStaging
    makeStaging want
  else
    pure true

/-- What one turn of the staged read takes: the words that cover the bytes, and how many bytes
of them are wanted. -/
structure Staged where
  lo : ℕ
  skew : ℕ
  span : ℕ
  take : ℕ

/-- The next turn of the staged read. -/
def staged (stagingBytes offset bytes done : ℕ) : Staged :=
  let size := min (bytes - done) stagingBytes
  let lo := (offset + done) / 4 * 4
  let skew := offset + done - lo
  let span := min stagingBytes ((skew + size + 3) / 4 * 4)
  ⟨lo, skew, span, min size (span - skew)⟩

/-- The words of one turn, through the staging buffer. -/
def readStaged (buffer : Rid) (turn : Staged) : Guest (Option (List UInt8)) := do
  let device ← read
  let copied ← bufferCopy buffer device.staging turn.span turn.lo 0
  if copied = false then
    pure none
  else do
    attempt "buffer_get_data (staging)"
    let got : List UInt8 ← call (.bufferGetData device.staging 0 turn.span)
    if got.length < turn.span then do
      fail "short staging read"
      pure none
    else
      pure (some got)

/-- Read through the staging buffer from a given place on. -/
def getFrom (buffer : Rid) (offset bytes done : ℕ) (out : List UInt8) :
    Guest (Option (List UInt8)) := do
  if bytes ≤ done then
    pure (some out)
  else do
    let device ← read
    let turn := staged device.stagingBytes offset bytes done
    let got ← readStaged buffer turn
    match got with
    | none => pure none
    | some got =>
        -- Without a staging buffer the loop makes no way until the call is killed.
        if (staged device.stagingBytes offset bytes done).take = 0 then
          trap
        else
          getFrom buffer offset bytes
            (done + (staged device.stagingBytes offset bytes done).take)
            (out ++ (got.drop turn.skew).take turn.take)
termination_by bytes - done

/-- Read bytes of a buffer through the staging buffer. -/
def bufferGetInto (buffer : Rid) (offset bytes : ℕ) : Guest (Option (List UInt8)) := do
  let device ← read
  if device.submitted = true then do
    attempt "buffer_get_into"
    fail "the device is submitted; sync() first"
    pure none
  else if bytes = 0 then
    pure (some [])
  else do
    let grown ← growStaging bytes
    if grown then getFrom buffer offset bytes 0 [] else pure none

/-- Set the cap of the staging buffer. -/
def setStagingMax (bytes : ℕ) : Guest Unit :=
  modify fun device => { device with stagingMax := min (max bytes 256) kMaxTransferBytes }

/-- One `RDUniform` of a uniform set. -/
def uniform (binding : Binding) : Guest ℕ := do
  let made ← ask (.instantiate "RDUniform")
  objectCall made (.setUniformType made binding.type)
  objectCall made (.setBinding made binding.binding)
  objectCall made (.addId made binding.rid)
  pure made

/-- The `RDUniform`s of a uniform set. -/
def uniforms : List Binding → Guest (List ℕ)
  | [] => pure []
  | binding :: rest => do
      let made ← uniform binding
      let others ← uniforms rest
      pure (made :: others)

/-- Make a uniform set. -/
def uniformSet (shader : Rid) (bindings : List Binding) (set : ℕ) : Guest Rid := do
  attempt "RDUniform"
  let made ← uniforms bindings
  attempt "uniform_set_create"
  let rid ← call (.uniformSetCreate made shader set)
  ridOrFail rid

/-- A limit of the device. -/
def limitGet (limit : ℤ) : Guest ℤ := do
  attempt "limit_get"
  call (.limitGet limit)

/-- The bytes that the device holds. -/
def memoryUsage : Guest ℤ := do
  attempt "get_memory_usage"
  call (.getMemoryUsage memoryTotal)

/-- The name of the adapter. -/
def deviceName : Guest String := do
  attempt "get_device_name"
  call .getDeviceName

/-- Record a timestamp. -/
def captureTimestamp (name : String) : Guest Unit := do
  attempt "capture_timestamp"
  call (.captureTimestamp name)

/-- How many timestamps can be read. -/
def timestampsCount : Guest ℤ := do
  attempt "get_captured_timestamps_count"
  call .getCapturedTimestampsCount

/-- The time of a timestamp. -/
def timestampGpuNs (index : ℤ) : Guest ℤ := do
  attempt "get_captured_timestamp_gpu_time"
  call (.getCapturedTimestampGpuTime index)

/-- Begin a compute list. The flag goes up before the call. -/
def listBegin : Guest Bool := do
  let _ ← recover
  attempt "compute_list_begin"
  modify fun device => { device with listOpen := true }
  let list : ℤ ← call .computeListBegin
  modify fun device => { device with list }
  pure true

/-- Bind a pipeline. -/
def bindPipeline (pipeline : Rid) : Guest Unit := do
  attempt "compute_list_bind_compute_pipeline"
  let device ← read
  call (.computeListBindComputePipeline device.list pipeline)

/-- Bind a uniform set. -/
def bindUniformSet (rid : Rid) (set : ℕ) : Guest Unit := do
  attempt "compute_list_bind_uniform_set"
  let device ← read
  call (.computeListBindUniformSet device.list rid set)

/-- Dispatch workgroups. -/
def dispatch (x y z : ℕ) : Guest Unit := do
  attempt "compute_list_dispatch"
  let device ← read
  call (.computeListDispatch device.list x y z)

/-- Put a barrier between dispatches. -/
def barrier : Guest Unit := do
  attempt "compute_list_add_barrier"
  let device ← read
  call (.computeListAddBarrier device.list)

/-- Resolve the engine once. -/
def findEngine : Guest Unit := do
  let device ← read
  if device.engine = 0 then do
    let engine ← ask (.singleton "Engine")
    modify fun device => { device with engine }
  else
    pure ()

/-- The engine's process frame. -/
def processFrame : Guest ℤ := do
  findEngine
  let device ← read
  objectCall device.engine (.getProcessFrames device.engine)

/-- The frame of a submission, and its number. -/
def storeFrame : Guest Unit := do
  let frame ← processFrame
  modify fun device => { device with submitFrame := frame }
  modify fun device => { device with submits := device.submits + 1 }

/-- What `submit` stores after its host call: the flag comes first. -/
def storeSubmitted : Guest Unit := do
  modify fun device => { device with submitted := true }
  storeFrame

/-- The submission itself, when no list is left to recover. -/
def submitRecorded : Guest Unit := do
  attempt "submit"
  call .submit
  storeSubmitted

/-- Submit what is recorded. -/
def submit : Guest Unit := do
  let _ ← recover
  submitRecorded

/-- Count a sync in the frame of its submit. -/
def countSameFrame (frame : ℤ) : Guest Unit := do
  let device ← read
  if frame = device.submitFrame then
    modify fun device => { device with sameFrameSyncs := device.sameFrameSyncs + 1 }
  else
    pure ()

/-- Wait for what was submitted. -/
def sync : Guest Unit := do
  attempt "sync"
  let frame ← processFrame
  countSameFrame frame
  modify fun device => { device with syncs := device.syncs + 1 }
  call .sync
  modify fun device => { device with submitted := false }

/-- The public operations of the device. -/
inductive Op
  | open
  | adopt (address : ℕ)
  | close
  | shaderFromSpirv (spirv : List UInt8)
  | computePipeline (shader : Rid)
  | storageBuffer (bytes : ℕ) (data : Option (List UInt8))
  | storageBufferUninit (bytes : ℕ)
  | storageBufferEmpty (bytes : ℕ) (clear : Bool)
  | uniformBuffer (bytes : ℕ) (data : Option (List UInt8))
  | bufferUpdate (buffer : Rid) (offset bytes : ℕ) (data : List UInt8)
  | bufferGet (buffer : Rid) (offset bytes : ℕ)
  | bufferGetInto (buffer : Rid) (offset bytes : ℕ)
  | setStagingMax (bytes : ℕ)
  | bufferCopy (source target : Rid) (bytes sourceOffset targetOffset : ℕ)
  | bufferClear (buffer : Rid) (offset bytes : ℕ)
  | uniformSet (shader : Rid) (bindings : List Binding) (set : ℕ)
  | freeRid (rid : Rid)
  | forget (rid : Rid)
  | uniformSetValid (rid : Rid)
  | limitGet (limit : ℤ)
  | memoryUsage
  | deviceName
  | captureTimestamp (name : String)
  | timestampsCount
  | timestampGpuNs (index : ℤ)
  | listBegin
  | bindPipeline (pipeline : Rid)
  | bindUniformSet (rid : Rid) (set : ℕ)
  | dispatch (x y z : ℕ)
  | barrier
  | listEnd
  | submit
  | sync
  | processFrame
  | setPermanentRids (on : Bool)
  | recover
  | setRecovery (on : Bool)

/-- A code whose result nobody reads. -/
def discard {α : Type} (code : Guest α) : Guest Unit := code >>= fun _ => pure ()

/-- The code of an operation. -/
def Op.code : Op → Guest Unit
  | .open => discard Rdc.«open»
  | .adopt address => Rdc.adopt address
  | .close => Rdc.close
  | .shaderFromSpirv spirv => discard (Rdc.shaderFromSpirv spirv)
  | .computePipeline shader => discard (Rdc.computePipeline shader)
  | .storageBuffer bytes data => discard (Rdc.storageBuffer bytes data)
  | .storageBufferUninit bytes => discard (Rdc.storageBufferUninit bytes)
  | .storageBufferEmpty bytes clear => discard (Rdc.storageBufferEmpty bytes clear)
  | .uniformBuffer bytes data => discard (Rdc.uniformBuffer bytes data)
  | .bufferUpdate buffer offset bytes data => discard (Rdc.bufferUpdate buffer offset bytes data)
  | .bufferGet buffer offset bytes => discard (Rdc.bufferGet buffer offset bytes)
  | .bufferGetInto buffer offset bytes => discard (Rdc.bufferGetInto buffer offset bytes)
  | .setStagingMax bytes => Rdc.setStagingMax bytes
  | .bufferCopy source target bytes sourceOffset targetOffset =>
      discard (Rdc.bufferCopy source target bytes sourceOffset targetOffset)
  | .bufferClear buffer offset bytes => discard (Rdc.bufferClear buffer offset bytes)
  | .uniformSet shader bindings set => discard (Rdc.uniformSet shader bindings set)
  | .freeRid rid => Rdc.freeRid rid
  | .forget rid => Rdc.forget rid
  | .uniformSetValid rid => discard (Rdc.uniformSetValid rid)
  | .limitGet limit => discard (Rdc.limitGet limit)
  | .memoryUsage => discard Rdc.memoryUsage
  | .deviceName => discard Rdc.deviceName
  | .captureTimestamp name => Rdc.captureTimestamp name
  | .timestampsCount => discard Rdc.timestampsCount
  | .timestampGpuNs index => discard (Rdc.timestampGpuNs index)
  | .listBegin => discard Rdc.listBegin
  | .bindPipeline pipeline => Rdc.bindPipeline pipeline
  | .bindUniformSet rid set => Rdc.bindUniformSet rid set
  | .dispatch x y z => Rdc.dispatch x y z
  | .barrier => Rdc.barrier
  | .listEnd => Rdc.listEnd
  | .submit => Rdc.submit
  | .sync => Rdc.sync
  | .processFrame => discard Rdc.processFrame
  | .setPermanentRids on => modify fun device => { device with permanentRids := on }
  | .recover => discard Rdc.recover
  | .setRecovery on => modify fun device => { device with recovery := on }

end DressOn.Rdc
