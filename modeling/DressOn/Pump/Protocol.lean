import Mathlib.Data.Int.Notation
import Mathlib.Data.Nat.Notation
import Mathlib.Algebra.GroupWithZero.Nat

/-!
# The pump and its host

A job of the guest runs on a fiber and asks the host for bytes, for uploads and for later frames.
The host calls the guest, serves what it asks for within a number of bytes a frame, and carries an
upload that is larger to the next frame.
-/

namespace DressOn.Pump

/-- A position in a file or a buffer, or a number of its bytes. -/
abbrev Position := { n : ℕ // n < 2 ^ 63 }

/-- The bytes of a file. -/
abbrev Content := { bytes : List UInt8 // bytes.length < 2 ^ 63 }

/-- An unsigned number as the header carries it. -/
def int64 (n : ℕ) : ℤ := (n : ℤ).bmod (2 ^ 64)

/-- What the guest asks for. -/
inductive Kind
  | none
  | waitGpu
  | read
  | upload
  | coop
  | done
  | error
  deriving DecidableEq

def Kind.number : Kind → ℕ
  | none => 0
  | waitGpu => 1
  | read => 2
  | upload => 3
  | coop => 4
  | done => 5
  | error => 6

/-- A buffer of the device. -/
abbrev Rid := ℕ

/-- What a pump call returns: the header, the text and the buffer. -/
structure Result where
  kind : Kind
  a0 : ℤ := 0
  a1 : ℤ := 0
  a2 : ℤ := 0
  text : String := ""
  rid : Rid := 0

/-- The next call of a job, and how the job goes on after it. -/
inductive Call (σ : Type)
  | read (path : String) (offset : Position) (bytes : ℕ) (next : List UInt8 → σ)
  | upload (path : String) (fileOffset bytes : Position) (rid : Rid) (dstOffset : Position)
      (next : Bool → σ)
  | waitGpu (next : σ)
  | coop (next : σ)
  | fail (text : String)
  | escape
  | done

/-- A job: what it calls in each of its states. -/
abbrev Job (σ : Type) := σ → Call σ

/-- Where the fiber of a job is: before its start, within a call, or at the end. -/
inductive Fiber (σ : Type)
  | fresh (state : σ)
  | reading (path : String) (offset : Position) (bytes : ℕ) (next : List UInt8 → σ)
      (out : List UInt8)
  | uploading (path : String) (fileOffset bytes : Position) (rid : Rid) (dstOffset : Position)
      (next : Bool → σ)
  | waiting (next : σ)
  | cooping (next : σ)
  | failed (text : String)
  | escaped
  | done

/-- The host: its files and its device, and the sizes of what it does at a time. -/
structure Setting where
  /-- The files that can be opened. -/
  files : String → Option Content
  openError : String
  /-- The sizes of the buffers, where there is a device. -/
  buffers : Option (Rid → ℕ)
  updateError : String
  kReadChunk : ℕ := 16 * 1024 * 1024
  uploadChunk : ℕ := 64 * 1024 * 1024
  capBytes : ℤ := 512 * 1024 * 1024
  kReadChunk_pos : 0 < kReadChunk
  kReadChunk_lt : kReadChunk < 2 ^ 63
  uploadChunk_pos : 0 < uploadChunk

namespace Setting

variable {σ : Type} (setting : Setting)

/-- How many bytes a read asks for after it got some. No bytes stands for all up to the end. -/
def want (bytes got : ℕ) : ℕ :=
  if bytes = 0 then setting.kReadChunk else min (bytes - got) setting.kReadChunk

/-- Ask for the next piece of a read. -/
def request (path : String) (offset : Position) (bytes : ℕ) (next : List UInt8 → σ)
    (out : List UInt8) : Fiber σ × Result :=
  (.reading path offset bytes next out,
    { kind := .read, a0 := int64 (offset + out.length)
      a1 := int64 (setting.want bytes out.length), text := path })

/-- The job goes on to its next call. -/
def resume (job : Job σ) (state : σ) : Fiber σ × Result :=
  match job state with
  | .read path offset bytes next => setting.request path offset bytes next []
  | .upload path fileOffset bytes rid dstOffset next =>
      (.uploading path fileOffset bytes rid dstOffset next,
        { kind := .upload, a0 := int64 fileOffset, a1 := int64 bytes, a2 := int64 dstOffset
          text := path, rid })
  | .waitGpu next => (.waiting next, { kind := .waitGpu })
  | .coop next => (.cooping next, { kind := .coop })
  | .fail text => (.failed text, { kind := .error, text })
  | .escape => (.escaped, { kind := .error, text := "an exception escaped the job" })
  | .done => (.done, { kind := .done })

/-- A pump call, with what the last read asked for. -/
def step (job : Job σ) (fiber : Fiber σ) (input : List UInt8) : Fiber σ × Result :=
  match fiber with
  | .fresh state | .waiting state | .cooping state => setting.resume job state
  | .reading path offset bytes next out =>
      -- a short answer is the end of the file, and nothing is wanted when all bytes are there
      if input.length < setting.want bytes out.length ∨
          setting.want bytes (out ++ input).length = 0 then
        setting.resume job (next (out ++ input))
      else
        setting.request path offset bytes next (out ++ input)
  | .uploading _ _ _ _ _ next => setting.resume job (next true)
  | .failed text => (.failed text, { kind := .error, text })
  | .escaped => (.escaped, { kind := .error, text := "an exception escaped the job" })
  | .done => (.done, { kind := .done })

end Setting

/-- An upload that is carried over frames. -/
structure Upload where
  path : String
  foff : ℤ
  n : ℤ
  doff : ℤ
  rid : Rid
  done : ℤ := 0

/-- A byte that the device took, and where. -/
structure Write where
  rid : Rid
  position : ℤ
  byte : UInt8
  deriving DecidableEq

/-- The bytes that an update of a buffer puts down, in order. -/
def bytesAt (rid : Rid) : ℤ → List UInt8 → List Write
  | _, [] => []
  | position, byte :: rest => ⟨rid, position, byte⟩ :: bytesAt rid (position + 1) rest

inductive Status
  | running
  | done
  | error
  deriving DecidableEq

/-- The guest and the host between two pump calls. There is a budget within a frame only. -/
structure World (σ : Type) where
  guest : Fiber σ
  state : Status := .running
  text : String := ""
  feed : List UInt8 := []
  up : Option Upload := none
  budget : Option ℤ := none
  frames : ℕ := 0
  /-- The frame and the answer of every pump call. -/
  pumps : List (ℕ × Kind) := []
  written : List Write := []

namespace World

variable {σ : Type}

def fail (why : String) (world : World σ) : World σ := { world with state := .error, text := why }

/-- The frame goes on while there is budget. -/
def spend (budget : ℤ) (world : World σ) : World σ :=
  { world with budget := if budget ≤ 0 then none else some budget }

end World

/-- Up to a number of bytes at a position of a file. -/
def getBuffer (content : Content) (position n : ℤ) : List UInt8 :=
  (content.val.drop position.toNat).take n.toNat

namespace Setting

variable {σ : Type} (setting : Setting)

/-- Serve a read. -/
def read (path : String) (off n : ℤ) : Except String (List UInt8) :=
  match setting.files path with
  | none => .error ("READ " ++ path ++ ": " ++ setting.openError)
  | some content =>
      let n := if n ≤ 0 then max (content.val.length - off) 0 else n
      .ok (getBuffer content off n)

/-- What is left of an upload and of the budget, what the device took, and why it failed. -/
structure Carried where
  up : Upload
  budget : ℤ
  written : List Write
  failure : Option String := none

/-- Serve an upload within the budget, chunk by chunk. -/
def carry (content : Content) (size : ℕ) (up : Upload) (budget : ℤ) (written : List Write) :
    Carried :=
  if up.done < up.n ∧ 0 < budget then
    let n := min (min (up.n - up.done) setting.uploadChunk) budget
    let b := getBuffer content (up.foff + up.done) n
    if b.length ≠ n then
      { up, budget, written
        failure := some ("UPLOAD " ++ up.path ++ ": short read at " ++ toString (up.foff + up.done) ++
          " (" ++ toString b.length ++ " of " ++ toString n ++ " bytes)") }
    else if up.doff + up.done + n ≤ size then
      carry content size { up with done := up.done + n } (budget - n)
        (written ++ bytesAt up.rid (up.doff + up.done) b)
    else
      { up, budget, written
        failure := some ("UPLOAD buffer_update at " ++ toString (up.doff + up.done) ++ ": " ++
          setting.updateError) }
  else
    { up, budget, written }
termination_by (up.n - up.done).toNat
decreasing_by
  have := setting.uploadChunk_pos
  omega

/-- Serve the current upload within a budget. -/
def carryUpload (world : World σ) (budget : ℤ) : World σ × ℤ :=
  match world.up with
  | none => (world, budget)
  | some up =>
      match setting.buffers with
      | none => (world.fail "UPLOAD without a RenderingDevice", budget)
      | some size =>
          match setting.files up.path with
          | none => (world.fail ("UPLOAD " ++ up.path ++ ": " ++ setting.openError), budget)
          | some content =>
              let carried := setting.carry content (size up.rid) up budget world.written
              match carried.failure with
              | some why =>
                  ({ world with up := some carried.up, written := carried.written }.fail why,
                    carried.budget)
              | none =>
                  ({ world with
                      up := if carried.up.n ≤ carried.up.done then none else some carried.up
                      written := carried.written }, carried.budget)

/-- A frame begins. An upload that was carried goes on before the guest does. -/
def beginFrame (world : World σ) : World σ :=
  let world := { world with frames := world.frames + 1 }
  if world.up.isNone then
    { world with budget := some setting.capBytes }
  else
    let (world, budget) := setting.carryUpload world setting.capBytes
    if world.up.isSome ∨ world.state ≠ .running then
      { world with budget := none }
    else
      { world with budget := some budget }

/-- What the host does about an answer within a frame. -/
def serve (r : Result) (world : World σ) (budget : ℤ) : World σ :=
  match r.kind with
  | .waitGpu | .coop => { world with budget := none }
  | .done => { world with state := .done, budget := none }
  | .error => { world.fail r.text with budget := none }
  | .read =>
      match setting.read r.text r.a0 r.a1 with
      | .error why => { world.fail why with budget := none }
      | .ok data => { world with feed := data }.spend (budget - data.length)
  | .upload =>
      let world :=
        { world with
          up := some { path := r.text, foff := r.a0, n := r.a1, doff := r.a2, rid := r.rid } }
      let (world, budget) := setting.carryUpload world budget
      if world.up.isSome ∨ world.state ≠ .running then
        { world with budget := none }
      else
        world.spend budget
  | .none =>
      { world.fail ("unknown request kind " ++ toString r.kind.number) with budget := none }

/-- A pump call within a frame. -/
def pump (job : Job σ) (world : World σ) (budget : ℤ) : World σ :=
  let (guest, r) := setting.step job world.guest world.feed
  setting.serve r
    { world with guest, feed := [], pumps := world.pumps ++ [(world.frames, r.kind)] } budget

/-- One turn of the host: the begin of a frame, or a pump call within one. -/
def turn (job : Job σ) (world : World σ) : World σ :=
  if world.state = .running then
    match world.budget with
    | none => setting.beginFrame world
    | some budget => setting.pump job world budget
  else
    world

end Setting

/-- A job before its first frame. -/
def World.start {σ : Type} (state : σ) : World σ := { guest := .fresh state }

end DressOn.Pump
