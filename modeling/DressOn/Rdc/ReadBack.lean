import Mathlib.Logic.Function.Basic
import Mathlib.Data.List.GetD
import DressOn.Lib.Windows
import DressOn.Rdc.Device

/-!
# Reading a buffer back

A read goes through a staging buffer: the words that cover a chunk are copied into it on the GPU,
and the copy is fetched. The bytes that arrive are those of the buffer, and the read comes to its
end. Every copy is of whole words unless the staging buffer has a size between two words and the
read does not fit into it.
-/

namespace DressOn.Rdc

open Interruptible Interruptible.Code Windows

/-- Bytes put in a buffer from a place on. -/
def patched (old : List UInt8) (place : ℕ) (new : List UInt8) : List UInt8 :=
  old.take place ++ new ++ old.drop (place + new.length)

/-- A host with GPU buffers, and what it promises of the calls of a read. -/
structure BufferHost (World : Type) where
  answers : Answers HostCall HostCall.Answer World
  /-- The GPU buffer that a handle names. -/
  names : World → Rid → Option ℕ
  /-- The contents of a GPU buffer, all that is recorded carried out. -/
  bytes : World → ℕ → List UInt8
  null : ∀ world, names world 0 = none
  /-- Ending a list changes no buffer. -/
  ends : ∀ world address,
    names (answers (.device address .computeListEnd) world).2 = names world ∧
      bytes (answers (.device address .computeListEnd) world).2 = bytes world
  /-- A new buffer has the size that was asked for, and a handle of its own. -/
  creates : ∀ world address size, 0 < size → ∃ rid object,
    (answers (.device address (.storageBufferCreate size [])) world).1 = Variant.rid rid ∧
      0 < rid ∧ (∀ other, names world other ≠ some object) ∧
      names (answers (.device address (.storageBufferCreate size [])) world).2 rid = some object ∧
      (∀ other, names world other ≠ none →
        names (answers (.device address (.storageBufferCreate size [])) world).2 other
          = names world other) ∧
      (bytes (answers (.device address (.storageBufferCreate size [])) world).2 object).length
        = size ∧
      ∀ other, other ≠ object →
        bytes (answers (.device address (.storageBufferCreate size [])) world).2 other
          = bytes world other
  /-- A permanent handle names what the one it was made of does. -/
  keeps : ∀ world rid object, names world rid = some object →
    (answers (.makePermanent rid) world).1 < 0 ∧
      names (answers (.makePermanent rid) world).2 (answers (.makePermanent rid) world).1
        = some object ∧
      (∀ other, names world other ≠ none →
        names (answers (.makePermanent rid) world).2 other = names world other) ∧
      bytes (answers (.makePermanent rid) world).2 = bytes world
  /-- Freeing a buffer leaves the others alone. -/
  frees : ∀ world address rid object, names world rid = some object →
    (∀ other, names world other ≠ some object →
      names (answers (.device address (.freeRid rid)) world).2 other = names world other) ∧
    ∀ other, other ≠ object →
      bytes (answers (.device address (.freeRid rid)) world).2 other = bytes world other
  /-- Giving a permanent slot back leaves the other handles and the buffers alone. -/
  forgets : ∀ world rid,
    (∀ other, other ≠ rid → names (answers (.vstoreGlobal rid) world).2 other = names world other) ∧
      bytes (answers (.vstoreGlobal rid) world).2 = bytes world
  /-- A copy of whole words between two buffers. -/
  copies : ∀ world address source target one two lo place size,
    names world source = some one → names world target = some two → one ≠ two →
    lo % 4 = 0 → place % 4 = 0 → size % 4 = 0 →
    lo + size ≤ (bytes world one).length → place + size ≤ (bytes world two).length →
    (answers (.device address (.bufferCopy source target lo place size)) world).1 = godotOk ∧
      names (answers (.device address (.bufferCopy source target lo place size)) world).2
        = names world ∧
      bytes (answers (.device address (.bufferCopy source target lo place size)) world).2
        = Function.update (bytes world) two
          (patched (bytes world two) place (view (bytes world one) (lo, size)))
  /-- Fetching bytes of a buffer. -/
  fetches : ∀ world address rid object place size, names world rid = some object →
    0 < size → place + size ≤ (bytes world object).length →
    (answers (.device address (.bufferGetData rid place size)) world).1
        = view (bytes world object) (place, size) ∧
      names (answers (.device address (.bufferGetData rid place size)) world).2 = names world ∧
      bytes (answers (.device address (.bufferGetData rid place size)) world).2 = bytes world

variable {World : Type} {host : BufferHost World} {buffer : Rid} {object : ℕ}
  {contents : List UInt8} {guest after : Device} {world reached : World}

/-- A copy out of the buffer is of whole words inside it. -/
def WholeWords (buffer : Rid) (size : ℕ) : HostCall → Prop
  | .device _ (.bufferCopy source _ lo _ bytes) =>
      source = buffer ∧ lo % 4 = 0 ∧ bytes % 4 = 0 ∧ lo + bytes ≤ size
  | _ => True

/-- The fields that a read relies on. -/
structure Unmoved (before after : Device) : Prop where
  rd : after.rd = before.rd
  submitted : after.submitted = before.submitted
  staging : after.staging = before.staging
  stagingBytes : after.stagingBytes = before.stagingBytes
  stagingMax : after.stagingMax = before.stagingMax

theorem Unmoved.trans {first middle last : Device} (one : Unmoved first middle)
    (two : Unmoved middle last) : Unmoved first last :=
  ⟨two.rd.trans one.rd, two.submitted.trans one.submitted, two.staging.trans one.staging,
    two.stagingBytes.trans one.stagingBytes, two.stagingMax.trans one.stagingMax⟩

/-- Naming a step moves nothing. -/
theorem Unmoved.named (guest : Device) (step : String) : Unmoved guest { guest with step } :=
  ⟨rfl, rfl, rfl, rfl, rfl⟩

/-- A device that can read a buffer with the given contents. -/
structure Ready (host : BufferHost World) (buffer : Rid) (object : ℕ) (contents : List UInt8)
    (guest : Device) (world : World) : Prop where
  device : guest.rd ≠ 0
  waited : guest.submitted = false
  cap : ∃ bytes, guest.stagingMax = min (max bytes 256) kMaxTransferBytes
  source : host.names world buffer = some object
  holds : host.bytes world object = contents
  /-- The staging buffer is the device's own. -/
  apart : host.names world guest.staging ≠ some object
  unstaged : guest.staging = 0 → guest.stagingBytes = 0
  staged : guest.staging ≠ 0 → 256 ≤ guest.stagingBytes ∧
    ∃ own, host.names world guest.staging = some own ∧
      (host.bytes world own).length = (guest.stagingBytes + 3) / 4 * 4

/-- The buffers are as they were. -/
structure Untouched (host : BufferHost World) (world reached : World) : Prop where
  names : host.names reached = host.names world
  bytes : host.bytes reached = host.bytes world

theorem Ready.of_unmoved (ready : Ready host buffer object contents guest world)
    (unmoved : Unmoved guest after) (untouched : Untouched host world reached) :
    Ready host buffer object contents after reached where
  device := unmoved.rd ▸ ready.device
  waited := unmoved.submitted ▸ ready.waited
  cap := unmoved.stagingMax ▸ ready.cap
  source := untouched.names ▸ ready.source
  holds := untouched.bytes ▸ ready.holds
  apart := by
    rw [untouched.names, unmoved.staging]
    exact ready.apart
  unstaged := by
    rw [unmoved.staging, unmoved.stagingBytes]
    exact ready.unstaged
  staged := by
    rw [unmoved.staging, unmoved.stagingBytes, untouched.names, untouched.bytes]
    exact ready.staged

/-! ## The calls of a read -/

section

variable {P : HostCall → Prop} {α : Type}

/-- A host call of the device. -/
theorem returns_call (method : Method) {finish : method.Answer → Device → World → Prop}
    (device : guest.rd ≠ 0) (may : P (.device guest.rd method))
    (ends : finish (host.answers (.device guest.rd method) world).1 guest
      (host.answers (.device guest.rd method) world).2) :
    Returns host.answers P finish (call method) guest world := by
  have open_call : call method = read >>= fun device =>
      objectCall device.rd (.device device.rd method) := rfl
  rw [open_call, read_bind]
  show Returns host.answers P finish (objectCall guest.rd (.device guest.rd method)) guest world
  rw [objectCall, if_neg device]
  exact ⟨may, ends⟩

/-- A code that calls the device asks for it. -/
theorem asks_of_call {method : Method} {finish : method.Answer → Device → World → Prop}
    (device : guest.rd ≠ 0) (returns : Returns host.answers P finish (call method) guest world) :
    P (.device guest.rd method) := by
  have called : Returns host.answers P finish
      (if guest.rd = 0 then trap else ask (HostCall.device guest.rd method)) guest world := returns
  rw [if_neg device] at called
  exact called.1

/-- A list that was left open is ended. -/
theorem returns_recover (device : guest.rd ≠ 0) :
    Returns host.answers (WholeWords buffer contents.length)
      (fun _ after reached => Unmoved guest after ∧ Untouched host world reached)
      recover guest world := by
  unfold recover
  rw [read_bind]
  show Returns _ _ _ (if _ then _ else _) guest world
  split
  · exact ⟨⟨rfl, rfl, rfl, rfl, rfl⟩, ⟨rfl, rfl⟩⟩
  · have ended : Returns host.answers (WholeWords buffer contents.length)
        (fun _ after reached => Unmoved guest after ∧ Untouched host world reached)
        (call .computeListEnd) { guest with step := "compute_list_end" } world :=
      returns_call .computeListEnd (by exact device) (by trivial)
        (by exact ⟨.named guest _, ⟨(host.ends _ _).1, (host.ends _ _).2⟩⟩)
    have closed : Returns host.answers (WholeWords buffer contents.length)
        (fun _ after reached => Unmoved guest after ∧ Untouched host world reached)
        listEnd guest world := by
      show Returns _ _ _ (call .computeListEnd >>= fun _ => modify _) { guest with step := _ } world
      refine ended.bind fun _ after reached ends => ?_
      exact ⟨ends.1.trans ⟨rfl, rfl, rfl, rfl, rfl⟩, ends.2⟩
    refine closed.bind fun _ after reached ends => ?_
    exact ⟨ends.1.trans ⟨rfl, rfl, rfl, rfl, rfl⟩, ends.2⟩

/-- What a copy of words into the staging buffer leaves. -/
structure Copied (host : BufferHost World) (contents : List UInt8) (lo size : ℕ)
    (guest after : Device) (world reached : World) : Prop where
  unmoved : Unmoved guest after
  names : host.names reached = host.names world
  bytes : ∃ own, host.names world guest.staging = some own ∧
    host.bytes reached = Function.update (host.bytes world) own
      (patched (host.bytes world own) 0 (view contents (lo, size)))

theorem length_patched {old new : List UInt8} {place : ℕ}
    (inside : place + new.length ≤ old.length) :
    (patched old place new).length = old.length := by
  simp only [patched, List.length_append, List.length_take, List.length_drop]
  omega

/-- The bytes put at the front are there. -/
theorem view_patched (old new : List UInt8) : view (patched old 0 new) (0, new.length) = new := by
  simp [view, patched]

theorem Copied.ready {lo size : ℕ} (copied : Copied host contents lo size guest after world reached)
    (ready : Ready host buffer object contents guest world) (held : guest.staging ≠ 0)
    (inside : lo + size ≤ contents.length) (fits : size ≤ guest.stagingBytes) :
    Ready host buffer object contents after reached := by
  obtain ⟨unmoved, names, own, named, bytes⟩ := copied
  obtain ⟨room, other, other_named, length⟩ := ready.staged held
  obtain rfl : own = other := Option.some.inj (named.symm.trans other_named)
  have apart : object ≠ own := fun same => ready.apart (same ▸ named)
  refine ⟨unmoved.rd ▸ ready.device, unmoved.submitted ▸ ready.waited,
    unmoved.stagingMax ▸ ready.cap, names ▸ ready.source, ?_, ?_, ?_, fun _ => ?_⟩
  · rw [bytes, Function.update_of_ne apart, ready.holds]
  · rw [names, unmoved.staging]
    exact ready.apart
  · rw [unmoved.staging, unmoved.stagingBytes]
    exact ready.unstaged
  · rw [unmoved.stagingBytes, names, unmoved.staging, bytes]
    refine ⟨room, own, named, ?_⟩
    rw [Function.update_self, length_patched, length]
    rw [length_view (by exact inside), length]
    omega

/-- A copy of whole words into the staging buffer. -/
theorem returns_bufferCopy (ready : Ready host buffer object contents guest world)
    (held : guest.staging ≠ 0) {lo size : ℕ} (word : lo % 4 = 0) (words : size % 4 = 0)
    (inside : lo + size ≤ contents.length) (fits : size ≤ guest.stagingBytes) :
    Returns host.answers (WholeWords buffer contents.length)
      (fun copied after reached => copied = true ∧
        Copied host contents lo size guest after world reached)
      (bufferCopy buffer guest.staging size lo 0) guest world := by
  refine (returns_recover ready.device).bind fun _ middle between ⟨unmoved, untouched⟩ => ?_
  obtain ⟨-, own, names, length⟩ := ready.staged held
  have apart : object ≠ own := fun same => ready.apart (same ▸ names)
  have done := host.copies between middle.rd buffer guest.staging object own lo 0 size
    (untouched.names ▸ ready.source) (untouched.names ▸ names) apart word rfl words
    (by rw [untouched.bytes, ready.holds]; exact inside)
    (by rw [untouched.bytes, length]; omega)
  rw [untouched.bytes, untouched.names, ready.holds] at done
  have copied : Returns host.answers (WholeWords buffer contents.length)
      (fun (err : ℤ) after reached => err = godotOk ∧
        Copied host contents lo size guest after world reached)
      (call (.bufferCopy buffer guest.staging lo 0 size)) { middle with step := "buffer_copy" }
      between :=
    returns_call (.bufferCopy buffer guest.staging lo 0 size)
      (by exact unmoved.rd ▸ ready.device) (by exact ⟨rfl, word, words, inside⟩)
      (by exact ⟨done.1, unmoved.trans (.named _ _), done.2.1, own, names, done.2.2⟩)
  refine copied.bind fun err after reached ends => ?_
  rw [accepted, if_pos ends.1]
  exact ⟨rfl, ends.2⟩

/-- The words of one turn arrive. -/
theorem returns_readStaged (ready : Ready host buffer object contents guest world)
    (held : guest.staging ≠ 0) {turn : Staged} (word : turn.lo % 4 = 0) (words : turn.span % 4 = 0)
    (some_words : 0 < turn.span) (inside : turn.lo + turn.span ≤ contents.length)
    (fits : turn.span ≤ guest.stagingBytes) :
    Returns host.answers (WholeWords buffer contents.length)
      (fun got after reached => got = some (view contents (turn.lo, turn.span)) ∧
        Unmoved guest after ∧ Ready host buffer object contents after reached)
      (readStaged buffer turn) guest world := by
  show Returns _ _ _ (bufferCopy buffer guest.staging turn.span turn.lo 0 >>= _) guest world
  refine (returns_bufferCopy ready held word words inside fits).bind
    fun copied middle between ⟨succeeds, copy⟩ => ?_
  have still := copy.ready ready held inside fits
  obtain ⟨unmoved, names, own, named, bytes⟩ := copy
  subst succeeds
  have length : (view contents (turn.lo, turn.span)).length = turn.span := length_view inside
  have shown := view_patched (host.bytes world own) (view contents (turn.lo, turn.span))
  rw [length] at shown
  obtain ⟨-, other, other_named, size⟩ := still.staged (unmoved.staging ▸ held)
  rw [unmoved.staging, names, named] at other_named
  obtain rfl : own = other := Option.some.inj other_named
  have room : 0 + turn.span ≤ (host.bytes between own).length := by
    rw [size, unmoved.stagingBytes]
    omega
  obtain ⟨arrived, same_names, same_bytes⟩ := host.fetches between middle.rd guest.staging own 0
    turn.span (names ▸ named) some_words room
  rw [bytes, Function.update_self, shown] at arrived
  have fetched : Returns host.answers (WholeWords buffer contents.length)
      (fun (got : List UInt8) after reached => got = view contents (turn.lo, turn.span) ∧
        Unmoved guest after ∧ Ready host buffer object contents after reached)
      (call (.bufferGetData guest.staging 0 turn.span))
      { middle with step := "buffer_get_data (staging)" } between :=
    returns_call (.bufferGetData guest.staging 0 turn.span) (by exact still.device) (by trivial)
      (by exact ⟨arrived, unmoved.trans (.named _ _),
        still.of_unmoved (.named _ _) ⟨same_names, same_bytes⟩⟩)
  refine fetched.bind fun got after reached ⟨whole, ends⟩ => ?_
  subst whole
  rw [if_neg (by omega)]
  exact ⟨rfl, ends⟩

end

/-! ## The turns of a read -/

/-- What one turn asks for and takes. -/
structure Turn (stagingBytes offset bytes place : ℕ) (turn : Staged) : Prop where
  word : turn.lo % 4 = 0
  words : turn.span % 4 = 0
  some_words : 0 < turn.span
  fits : turn.span ≤ stagingBytes
  inside : turn.lo + turn.span ≤ (offset + bytes + 3) / 4 * 4
  starts : turn.lo + turn.skew = offset + place
  covers : turn.skew + turn.take ≤ turn.span
  moves : 0 < turn.take
  ends : place + turn.take ≤ bytes

/-- With a staging buffer of whole words, or one that the read fits into, every copy is of whole
words. -/
theorem staged_turn {stagingBytes offset bytes place : ℕ} (rest : place < bytes)
    (room : 256 ≤ stagingBytes)
    (whole : stagingBytes % 4 = 0 ∨ place = 0 ∧ (offset % 4 + bytes + 3) / 4 * 4 ≤ stagingBytes) :
    Turn stagingBytes offset bytes place (staged stagingBytes offset bytes place) ∧
      (stagingBytes % 4 = 0 ∨ place + (staged stagingBytes offset bytes place).take = bytes) := by
  unfold staged
  refine ⟨⟨?_, ?_, ?_, ?_, ?_, ?_, ?_, ?_, ?_⟩, ?_⟩ <;> dsimp only <;> omega

/-- `memcpy` to a place of the destination. -/
def memcpy (destination : ℕ → UInt8) (place : ℕ) (bytes : List UInt8) (address : ℕ) : UInt8 :=
  if place ≤ address then bytes.getD (address - place) (destination address)
  else destination address

/-- The destination once it has the first bytes of a read, and else what it had. -/
def received (contents : List UInt8) (offset count : ℕ) (destination : ℕ → UInt8) (place : ℕ)
    (address : ℕ) : UInt8 :=
  if place ≤ address ∧ address < place + count then contents.getD (offset + (address - place)) 0
  else destination address

/-- One `memcpy` behind another is one. -/
theorem memcpy_append (destination : ℕ → UInt8) (place : ℕ) (one two : List UInt8) :
    memcpy destination place (one ++ two)
      = memcpy (memcpy destination place one) (place + one.length) two := by
  funext address
  unfold memcpy
  by_cases early : address < place + one.length
  · rw [if_neg (by omega : ¬ place + one.length ≤ address)]
    split
    · exact List.getD_append _ _ _ _ (by omega)
    · rfl
  · rw [if_pos (by omega : place ≤ address), if_pos (by omega : place + one.length ≤ address),
      if_pos (by omega : place ≤ address), List.getD_append_right _ _ _ _ (by omega),
      List.getD_eq_default one _ (by omega)]
    congr 1
    omega

theorem memcpy_view {offset count : ℕ} (inside : offset + count ≤ contents.length)
    (destination : ℕ → UInt8) (place : ℕ) :
    memcpy destination place (view contents (offset, count))
      = received contents offset count destination place := by
  have length : (view contents (offset, count)).length = count := length_view inside
  funext address
  unfold memcpy received
  by_cases within : place ≤ address ∧ address < place + count
  · have bound : address - place < (view contents (offset, count)).length := by omega
    rw [if_pos within.1, if_pos within, List.getD_eq_getElem _ _ bound,
      List.getD_eq_getElem _ _ (by omega)]
    simp only [view, List.getElem_take, List.getElem_drop]
  · rw [if_neg within]
    split
    · exact List.getD_eq_default _ _ (by omega)
    · rfl

theorem received_received (contents : List UInt8) (offset one two : ℕ) (destination : ℕ → UInt8)
    (place : ℕ) :
    received contents (offset + one) two (received contents offset one destination place)
        (place + one)
      = received contents offset (one + two) destination place := by
  funext address
  unfold received
  by_cases early : address < place + one
  · rw [if_neg (by omega)]
    exact if_congr (by omega) rfl rfl
  · rw [if_neg (by omega : ¬ (place ≤ address ∧ address < place + one))]
    refine if_congr (by omega) ?_ rfl
    congr 1
    omega

/-! ## The read -/

/-- What a whole read gives: the bytes, wherever the destination is. -/
def Arrives (contents : List UInt8) (offset count : ℕ) (out : Option (List UInt8)) : Prop :=
  ∃ bytes, out = some bytes ∧ ∀ destination place,
    memcpy destination place bytes = received contents offset count destination place

/-- From a place on, the turns bring what is missing. -/
theorem returns_getFrom {offset bytes : ℕ} (aligned : contents.length % 4 = 0)
    (inside : offset + bytes ≤ contents.length) (place : ℕ) (out : List UInt8)
    (ready : Ready host buffer object contents guest world) (room : 256 ≤ guest.stagingBytes)
    (some_left : place ≤ bytes) (length : out.length = place)
    (so_far : ∀ destination start,
      memcpy destination start out = received contents offset place destination start)
    (whole : guest.stagingBytes % 4 = 0 ∨ place = bytes ∨
      place = 0 ∧ (offset % 4 + bytes + 3) / 4 * 4 ≤ guest.stagingBytes) :
    Returns host.answers (WholeWords buffer contents.length)
      (fun result after reached => Arrives contents offset bytes result ∧ Unmoved guest after ∧
        Ready host buffer object contents after reached)
      (getFrom buffer offset bytes place out) guest world := by
  induction left : bytes - place using Nat.strongRecOn generalizing place out guest world with
  | ind left inductionHypothesis =>
  rw [getFrom]
  split
  next ended =>
    obtain rfl : place = bytes := by omega
    exact ⟨⟨out, rfl, so_far⟩, ⟨rfl, rfl, rfl, rfl, rfl⟩, ready⟩
  next more =>
    have held : guest.staging ≠ 0 := fun null => by
      have := ready.unstaged null
      omega
    obtain ⟨turn, then_whole⟩ := @staged_turn guest.stagingBytes offset bytes place (by omega) room
      (by omega)
    obtain ⟨next, same⟩ : ∃ next, staged guest.stagingBytes offset bytes place = next := ⟨_, rfl⟩
    rw [same] at turn then_whole
    show Returns _ _ _ (readStaged buffer (staged guest.stagingBytes offset bytes place) >>= _)
      guest world
    rw [same]
    have inside_words : next.lo + next.span ≤ contents.length := by
      have := turn.inside
      omega
    refine (returns_readStaged ready held turn.word turn.words turn.some_words inside_words
      turn.fits).bind fun got after reached arrives => ?_
    obtain ⟨rfl, unmoved, still⟩ := arrives
    have moves := turn.moves
    have ends := turn.ends
    have covers := turn.covers
    have on : ¬ (staged (id guest).stagingBytes offset bytes place).take = 0 := by
      rw [id_eq, same]
      omega
    dsimp only
    rw [if_neg on]
    simp only [id_eq, same]
    have chunk : ((view contents (next.lo, next.span)).drop next.skew).take next.take
        = view contents (offset + place, next.take) := by
      rw [← turn.starts]
      simp only [view, List.drop_take, List.drop_drop, List.take_take]
      congr 1
      omega
    have chunk_length : (view contents (offset + place, next.take)).length = next.take :=
      length_view (by show offset + place + next.take ≤ contents.length; omega)
    rw [chunk]
    refine (inductionHypothesis (bytes - (place + next.take)) (by omega) (place + next.take) _ still
      (unmoved.stagingBytes ▸ room) ends ?_ (fun destination start => ?_) ?_ rfl).weaken
        fun result last final later => ⟨later.1, unmoved.trans later.2.1, later.2.2⟩
    · rw [List.length_append, chunk_length, length]
    · rw [memcpy_append, so_far, length, memcpy_view (by omega), received_received]
    · rw [unmoved.stagingBytes]
      omega

/-! ## The staging buffer -/

/-- The old staging buffer is given back. -/
theorem returns_dropStaging (ready : Ready host buffer object contents guest world) :
    Returns host.answers (WholeWords buffer contents.length)
      (fun _ after reached => Ready host buffer object contents after reached ∧
        after.stagingMax = guest.stagingMax) dropStaging guest world := by
  show Returns _ _ _ (if _ then _ else _) guest world
  split
  next => exact ⟨ready, rfl⟩
  next held =>
    have held : guest.staging ≠ 0 := held
    obtain ⟨-, own, named, -⟩ := ready.staged held
    have apart : object ≠ own := fun same => ready.apart (same ▸ named)
    obtain ⟨others, kept⟩ := host.frees world guest.rd guest.staging own named
    have other : buffer ≠ guest.staging := fun same => ready.apart (same ▸ ready.source)
    have freed : Returns host.answers (WholeWords buffer contents.length)
        (fun _ after reached => Unmoved guest after ∧ host.names reached buffer = some object ∧
          host.bytes reached object = contents)
        (freeRid guest.staging) guest world := by
      have called : Returns host.answers (WholeWords buffer contents.length)
          (fun _ after reached => Unmoved guest after ∧ host.names reached buffer = some object ∧
            host.bytes reached object = contents)
          (call (.freeRid guest.staging)) { guest with step := "free_rid" } world :=
        returns_call (.freeRid guest.staging) (by exact ready.device) (by trivial)
          (by
            refine ⟨.named guest _, ?_, ?_⟩
            · rw [others buffer
                (fun same => apart (Option.some.inj (ready.source.symm.trans same)))]
              exact ready.source
            · rw [kept object apart]
              exact ready.holds)
      rw [freeRid, if_neg held]
      show Returns _ _ _ (call (.freeRid guest.staging) >>= fun _ => forget guest.staging)
        { guest with step := _ } world
      refine called.bind fun _ middle between ⟨unmoved, source, holds⟩ => ?_
      unfold forget
      split
      · exact ⟨unmoved, source, holds⟩
      · obtain ⟨names, bytes⟩ := host.forgets between guest.staging
        exact ⟨trivial, unmoved.trans ⟨rfl, rfl, rfl, rfl, rfl⟩,
          (names buffer other).trans source, (congrFun bytes object).trans holds⟩
    refine freed.bind fun _ middle between ⟨unmoved, source, holds⟩ => ?_
    refine ⟨⟨unmoved.rd ▸ ready.device, unmoved.submitted ▸ ready.waited,
      unmoved.stagingMax ▸ ready.cap, source, holds, ?_, fun _ => rfl,
      fun held => absurd rfl held⟩, unmoved.stagingMax⟩
    exact fun named => nomatch (host.null between).symm.trans named

/-- A handle that the host returned, kept. -/
theorem returns_ridOrFail {rid : Rid} {own : ℕ} (positive : 0 < rid)
    (named : host.names world rid = some own) :
    Returns host.answers (WholeWords buffer contents.length)
      (fun kept after reached => kept ≠ 0 ∧ Unmoved guest after ∧
        host.names reached kept = some own ∧
        (∀ other, host.names world other ≠ none →
          host.names reached other = host.names world other) ∧
        host.bytes reached = host.bytes world)
      (ridOrFail (.rid rid)) guest world := by
  have counted (kept : Rid) (reached : World) (some_rid : kept ≠ 0) :
      Returns host.answers (WholeWords buffer contents.length)
        (fun _ after final => Unmoved guest after ∧ final = reached) (countRid kept) guest
        reached := by
    unfold countRid
    rw [if_neg some_rid]
    split <;> exact ⟨⟨rfl, rfl, rfl, rfl, rfl⟩, rfl⟩
  show Returns _ _ _ ((if _ then _ else _) >>= _) guest world
  split
  · obtain ⟨negative, permanent, others, bytes⟩ := host.keeps world rid own named
    refine ⟨trivial, (counted _ _ (Int.ne_of_lt negative)).bind
      fun _ after reached ⟨unmoved, same⟩ => ?_⟩
    subst same
    exact ⟨Int.ne_of_lt negative, unmoved, permanent, others, bytes⟩
  · refine (counted rid world (Int.ne_of_gt positive)).bind
      fun _ after reached ⟨unmoved, same⟩ => ?_
    subst same
    exact ⟨Int.ne_of_gt positive, unmoved, named, fun _ _ => rfl, rfl⟩

/-- A new buffer of words, with a handle of its own. -/
structure Created (host : BufferHost World) (buffer : Rid) (object : ℕ) (contents : List UInt8)
    (size : ℕ) (rid : Rid) (reached : World) : Prop where
  some_rid : rid ≠ 0
  source : host.names reached buffer = some object
  holds : host.bytes reached object = contents
  named : ∃ own, host.names reached rid = some own ∧ own ≠ object ∧
    (host.bytes reached own).length = (size + 3) / 4 * 4

theorem returns_storageBufferEmpty (ready : Ready host buffer object contents guest world)
    {size : ℕ} (some_bytes : 0 < size) :
    Returns host.answers (WholeWords buffer contents.length)
      (fun rid after reached => Unmoved guest after ∧
        Created host buffer object contents size rid reached)
      (storageBufferEmpty size false) guest world := by
  obtain ⟨rid, own, answered, positive, fresh, named, others, length, kept⟩ :=
    host.creates world guest.rd ((size + 3) / 4 * 4) (by omega)
  have called : Returns host.answers (WholeWords buffer contents.length)
      (fun (made : Variant) after reached => made = .rid rid ∧ Unmoved guest after ∧
        reached = (host.answers (.device guest.rd (.storageBufferCreate ((size + 3) / 4 * 4) []))
          world).2)
      (call (.storageBufferCreate ((size + 3) / 4 * 4) []))
      { guest with step := "storage_buffer_create" } world :=
    returns_call (.storageBufferCreate ((size + 3) / 4 * 4) []) (by exact ready.device)
      (by trivial) (by exact ⟨answered, .named guest _, rfl⟩)
  have created : Returns host.answers (WholeWords buffer contents.length)
      (fun rid after reached => Unmoved guest after ∧
        Created host buffer object contents size rid reached)
      (storageBufferUninit ((size + 3) / 4 * 4)) guest world := by
    refine called.bind fun made middle between ⟨same, unmoved, then_⟩ => ?_
    subst same then_
    refine (returns_ridOrFail positive named).weaken
      fun rid after reached ⟨some_rid, onward, permanent, live, bytes⟩ => ?_
    have source := others buffer (by rw [ready.source]; exact nofun)
    refine ⟨unmoved.trans onward, some_rid, ?_, ?_, own, permanent,
      fun same => fresh buffer (same ▸ ready.source), bytes ▸ length⟩
    · rw [live buffer (by rw [source, ready.source]; exact nofun), source]
      exact ready.source
    · rw [bytes, kept object fun same => fresh buffer (same ▸ ready.source)]
      exact ready.holds
  refine created.bind fun rid after reached ends => ?_
  rw [if_neg fun cleared => Bool.false_ne_true cleared.2]
  exact ends

/-- A new staging buffer. -/
theorem returns_makeStaging (ready : Ready host buffer object contents guest world) {want : ℕ}
    (room : 256 ≤ want) :
    Returns host.answers (WholeWords buffer contents.length)
      (fun made after reached => made = true ∧ Ready host buffer object contents after reached ∧
        after.stagingBytes = want ∧ after.stagingMax = guest.stagingMax)
      (makeStaging want) guest world := by
  refine (returns_storageBufferEmpty ready (by omega)).bind
    fun rid middle between ⟨unmoved, created⟩ => ?_
  obtain ⟨some_rid, source, holds, own, named, apart, length⟩ := created
  show Returns _ _ _ (if rid = 0 then _ else _) { middle with staging := rid } between
  rw [if_neg some_rid]
  exact ⟨rfl, ⟨unmoved.rd ▸ ready.device, unmoved.submitted ▸ ready.waited,
    unmoved.stagingMax ▸ ready.cap, source, holds,
    fun same => apart (Option.some.inj (named.symm.trans same)), fun null => absurd null some_rid,
    fun _ => ⟨room, own, named, length⟩⟩, rfl, unmoved.stagingMax⟩

/-- The size of the staging buffer at a read of some bytes. -/
def stagedBytes (guest : Device) (bytes : ℕ) : ℕ :=
  max guest.stagingBytes (min guest.stagingMax ((bytes + 255) / 256 * 256))

theorem Ready.room (ready : Ready host buffer object contents guest world) {bytes : ℕ}
    (some_bytes : 0 < bytes) : 256 ≤ stagedBytes guest bytes := by
  obtain ⟨cap, accepted⟩ := ready.cap
  rw [stagedBytes, accepted, kMaxTransferBytes]
  omega

/-- The staging buffer grows to what a read asks for. -/
theorem returns_growStaging (ready : Ready host buffer object contents guest world) {bytes : ℕ}
    (some_bytes : 0 < bytes) :
    Returns host.answers (WholeWords buffer contents.length)
      (fun grown after reached => grown = true ∧ Ready host buffer object contents after reached ∧
        after.stagingBytes = stagedBytes guest bytes ∧ after.stagingMax = guest.stagingMax)
      (growStaging bytes) guest world := by
  have room : 256 ≤ min guest.stagingMax ((bytes + 255) / 256 * 256) := by
    obtain ⟨cap, accepted⟩ := ready.cap
    rw [accepted, kMaxTransferBytes]
    omega
  show Returns _ _ _ (if _ then _ else _) guest world
  split
  next small =>
    refine (returns_dropStaging ready).bind fun _ middle between ⟨ready, cap⟩ => ?_
    refine (returns_makeStaging ready room).weaken
      fun made after reached ⟨grown, ready, size, same⟩ => ?_
    refine ⟨grown, ready, size.trans ?_, same.trans cap⟩
    exact (Nat.max_eq_right (Nat.le_of_lt small)).symm
  next large => exact ⟨rfl, ready, (Nat.max_eq_left (Nat.le_of_not_lt large)).symm, rfl⟩

/-! ## Whole reads -/

/-- The staging buffer is of whole words, or the words of the read fit into it. -/
def Fits (guest : Device) (offset bytes : ℕ) : Prop :=
  stagedBytes guest bytes % 4 = 0 ∨ (offset % 4 + bytes + 3) / 4 * 4 ≤ stagedBytes guest bytes

/-- A read that fits returns with its bytes, by copies of whole words. -/
theorem bufferGetInto_of_fits {offset bytes : ℕ}
    (ready : Ready host buffer object contents guest world) (aligned : contents.length % 4 = 0)
    (inside : offset + bytes ≤ contents.length) (fits : Fits guest offset bytes) :
    Returns host.answers (WholeWords buffer contents.length)
      (fun out after reached => Arrives contents offset bytes out ∧
        Ready host buffer object contents after reached ∧
        after.stagingBytes = stagedBytes guest bytes ∧ after.stagingMax = guest.stagingMax)
      (bufferGetInto buffer offset bytes) guest world := by
  have nothing : ∀ destination start,
      memcpy destination start [] = received contents offset 0 destination start := by
    intro destination start
    funext address
    unfold memcpy received
    rw [if_neg (by omega : ¬ (start ≤ address ∧ address < start + 0))]
    split <;> rfl
  show Returns _ _ _ (if guest.submitted = true then _ else _) guest world
  rw [if_neg (by rw [ready.waited]; exact nofun)]
  split
  next none =>
    subst none
    exact ⟨⟨[], rfl, nothing⟩, ready, (Nat.max_eq_left (by omega)).symm, rfl⟩
  next some_bytes =>
    have positive : 0 < bytes := by omega
    refine (returns_growStaging ready positive).bind
      fun grew middle between ⟨large, grown, size, cap⟩ => ?_
    subst large
    have room := ready.room positive
    have wanted := size
    unfold Fits at fits
    rw [← size] at fits room
    exact (returns_getFrom aligned inside 0 [] grown room (by omega) rfl nothing
      (by omega)).weaken fun out after reached ⟨arrives, unmoved, ready⟩ =>
        ⟨arrives, ready, unmoved.stagingBytes.trans wanted, unmoved.stagingMax.trans cap⟩

/-- Otherwise the first copy of the read is not of whole words. -/
theorem words_of_fits {stagingBytes offset bytes : ℕ} (some_bytes : 0 < bytes)
    (words : (staged stagingBytes offset bytes 0).span % 4 = 0) :
    stagingBytes % 4 = 0 ∨ (offset % 4 + bytes + 3) / 4 * 4 ≤ stagingBytes := by
  unfold staged at words
  dsimp only at words
  omega

/-- A read whose copies are of whole words fits. -/
theorem fits_of_bufferGetInto {offset bytes : ℕ}
    {finish : Option (List UInt8) → Device → World → Prop}
    (ready : Ready host buffer object contents guest world)
    (returns : Returns host.answers (WholeWords buffer contents.length) finish
      (bufferGetInto buffer offset bytes) guest world) : Fits guest offset bytes := by
  rcases Nat.eq_zero_or_pos bytes with none | some_bytes
  · subst none
    unfold Fits stagedBytes
    by_cases null : guest.staging = 0
    · have := ready.unstaged null
      omega
    · have := (ready.staged null).1
      omega
  · have from_growth : Returns host.answers (WholeWords buffer contents.length) finish
        (growStaging bytes >>= fun grown =>
          if grown then getFrom buffer offset bytes 0 [] else pure none) guest world := by
      have code : Returns host.answers (WholeWords buffer contents.length) finish
          (if guest.submitted = true then _ else if bytes = 0 then _ else _) guest world := returns
      rw [if_neg (by rw [ready.waited]; exact nofun), if_neg (by omega)] at code
      exact code
    obtain ⟨grown, middle, between, reads, large, still, size, -⟩ :=
      from_growth.of_bind.meet (returns_growStaging ready some_bytes)
    subst large
    have reads : Returns host.answers (WholeWords buffer contents.length) finish
        (getFrom buffer offset bytes 0 []) middle between := reads
    rw [getFrom, if_neg (by omega)] at reads
    have copies : Returns host.answers (WholeWords buffer contents.length) _
        (bufferCopy buffer middle.staging (staged middle.stagingBytes offset bytes 0).span
          (staged middle.stagingBytes offset bytes 0).lo 0) middle between :=
      (show Returns _ _ _ ((bufferCopy _ _ _ _ _ >>= _) >>= _) _ _ from reads).of_bind.of_bind
    obtain ⟨_, last, final, asks, unmoved, _⟩ :=
      copies.of_bind.meet (@returns_recover World host buffer contents middle between still.device)
    have asks : Returns host.answers (WholeWords buffer contents.length) _
        (call (.bufferCopy buffer middle.staging (staged middle.stagingBytes offset bytes 0).lo 0
          (staged middle.stagingBytes offset bytes 0).span)) { last with step := "buffer_copy" }
        final := Returns.of_bind asks
    have device : last.rd ≠ 0 := unmoved.rd ▸ still.device
    have words := (asks_of_call (by exact device) asks).2.2.1
    unfold Fits
    rw [← size]
    exact words_of_fits some_bytes words

/-- A read is exact: it returns, every copy is of whole words inside the buffer, and the destination
has the bytes and is else what it was. -/
def ReadsExactly (host : BufferHost World) (buffer : Rid) (contents : List UInt8)
    (offset bytes : ℕ) (guest : Device) (world : World) : Prop :=
  Returns host.answers (WholeWords buffer contents.length)
    (fun out _ _ => Arrives contents offset bytes out) (bufferGetInto buffer offset bytes) guest
    world

/-- A read is exact just where the staging buffer is of whole words or the words of the read fit
into it. -/
theorem readsExactly_iff {offset bytes : ℕ}
    (ready : Ready host buffer object contents guest world) (aligned : contents.length % 4 = 0)
    (inside : offset + bytes ≤ contents.length) :
    ReadsExactly host buffer contents offset bytes guest world ↔ Fits guest offset bytes := by
  constructor
  · intro exact_read
    exact fits_of_bufferGetInto ready exact_read
  · intro fits
    exact (bufferGetInto_of_fits ready aligned inside fits).weaken fun out _ _ ends => ends.1

/-! ## Reads under caps of whole words -/

/-- What a client asks of the device. -/
inductive Request
  | cap (bytes : ℕ)
  | read (offset bytes : ℕ)

/-- A request that keeps the staging buffer of whole words, and reads inside the buffer. -/
def Request.Whole (size : ℕ) : Request → Prop
  | cap bytes => bytes % 4 = 0
  | read offset bytes => offset + bytes ≤ size

/-- Requests, one after the other, and what the reads gave. -/
def requests (buffer : Rid) : List Request → Guest (List (Option (List UInt8)))
  | [] => pure []
  | .cap bytes :: rest => do
      setStagingMax bytes
      requests buffer rest
  | .read offset bytes :: rest => do
      let out ← bufferGetInto buffer offset bytes
      let outs ← requests buffer rest
      pure (out :: outs)

/-- What the reads among the requests have to give. -/
def Answered (contents : List UInt8) : List Request → List (Option (List UInt8)) → Prop
  | [], outs => outs = []
  | .cap _ :: rest, outs => Answered contents rest outs
  | .read offset bytes :: rest, outs =>
      ∃ out others, outs = out :: others ∧ Arrives contents offset bytes out ∧
        Answered contents rest others

/-- The staging buffer and its cap are of whole words. -/
def WholeStaging (guest : Device) : Prop :=
  guest.stagingBytes % 4 = 0 ∧ guest.stagingMax % 4 = 0

/-- The staging buffer that a read wants is of whole words under such a cap. -/
theorem stagedBytes_whole (whole : WholeStaging guest) (bytes : ℕ) :
    stagedBytes guest bytes % 4 = 0 := by
  obtain ⟨staging, cap⟩ := whole
  unfold stagedBytes
  omega

/-- Every read is exact as long as the caps that are set are of whole words. -/
theorem requests_exact (list : List Request) (ready : Ready host buffer object contents guest world)
    (aligned : contents.length % 4 = 0) (whole : WholeStaging guest)
    (each : ∀ request ∈ list, request.Whole contents.length) :
    Returns host.answers (WholeWords buffer contents.length)
      (fun outs _ _ => Answered contents list outs) (requests buffer list) guest world := by
  induction list generalizing guest world with
  | nil => exact rfl
  | cons request rest inductionHypothesis =>
    have later := fun other member => each other (List.mem_cons_of_mem _ member)
    have here := each request List.mem_cons_self
    cases request with
    | cap bytes =>
      have here : bytes % 4 = 0 := here
      refine inductionHypothesis ⟨ready.device, ready.waited, ⟨bytes, rfl⟩, ready.source,
        ready.holds, ready.apart, ready.unstaged, ready.staged⟩ ⟨whole.1, ?_⟩ later
      show min (max bytes 256) kMaxTransferBytes % 4 = 0
      unfold kMaxTransferBytes
      omega
    | read offset bytes =>
      refine (bufferGetInto_of_fits ready aligned here
        (Or.inl (stagedBytes_whole whole bytes))).bind
          fun out middle between ⟨arrives, ready, size, cap⟩ => ?_
      have whole : WholeStaging middle := by
        refine ⟨?_, cap ▸ whole.2⟩
        rw [size]
        exact stagedBytes_whole whole bytes
      exact (inductionHypothesis ready whole later).bind fun outs _ _ others =>
        ⟨out, outs, rfl, arrives, others⟩

/-! ## A host with its buffers in memory -/

/-- Buffers in memory, each named by its handles. -/
structure Gpu where
  next : ℕ
  names : Rid → Option ℕ
  bytes : ℕ → List UInt8
  null : names 0 = none
  bounded : ∀ rid, next < rid.natAbs → names rid = none
  made : ∀ rid object, names rid = some object → object < next

namespace Gpu

/-- What a call that looks at no buffer answers. -/
def quiet : (call : HostCall) → call.Answer
  | .device _ method =>
      match method with
      | .computeListBegin => (0 : ℤ)
      | .bufferUpdate .. | .bufferCopy .. | .bufferClear .. => (0 : ℤ)
      | .bufferGetData .. => ([] : List UInt8)
      | .uniformSetIsValid _ => false
      | .shaderCreateFromSpirv _ | .computePipelineCreate _ => Variant.other
      | .storageBufferCreate .. | .uniformBufferCreate .. | .uniformSetCreate .. => Variant.other
      | .limitGet _ | .getMemoryUsage _ => (0 : ℤ)
      | .getCapturedTimestampsCount | .getCapturedTimestampGpuTime _ => (0 : ℤ)
      | .getDeviceName => ""
      | .computeListBindComputePipeline .. | .computeListBindUniformSet .. => ()
      | .computeListDispatch .. | .computeListAddBarrier _ | .computeListEnd => ()
      | .submit | .sync | .freeRid _ | .free | .captureTimestamp _ => ()
  | .singleton _ | .instantiate _ => (1 : ℕ)
  | .createLocalRenderingDevice _ => Variant.other
  | .getProcessFrames _ => (0 : ℤ)
  | .makePermanent _ => (0 : ℤ)
  | .vstoreGlobal _ => ()
  | .setStageBytecode .. | .setUniformType .. | .setBinding .. | .addId .. => ()

/-- One more handle of a buffer, or of a new one. -/
def name (gpu : Gpu) (rid : Rid) (object : ℕ) (fresh : rid.natAbs = gpu.next + 1)
    (known : object ≤ gpu.next) : Gpu where
  next := gpu.next + 1
  names := Function.update gpu.names rid (some object)
  bytes := gpu.bytes
  null := by
    rw [Function.update_of_ne]
    · exact gpu.null
    · rintro rfl
      omega
  bounded other far := by
    rw [Function.update_of_ne]
    · exact gpu.bounded other (by omega)
    · rintro rfl
      omega
  made other object named := by
    by_cases same : other = rid
    · rw [same, Function.update_self] at named
      cases named
      omega
    · rw [Function.update_of_ne same] at named
      have := gpu.made other object named
      omega

/-- The handles that are left when some are dropped. -/
def drop (gpu : Gpu) (gone : Rid → Bool) : Gpu where
  next := gpu.next
  names rid := if gone rid then none else gpu.names rid
  bytes := gpu.bytes
  null := by rw [gpu.null, ite_self]
  bounded rid far := by rw [gpu.bounded rid far, ite_self]
  made rid object named := by
    split at named
    · cases named
    · exact gpu.made rid object named

/-- Other contents of a buffer. -/
def fill (gpu : Gpu) (object : ℕ) (bytes : List UInt8) : Gpu :=
  { gpu with bytes := Function.update gpu.bytes object bytes }

/-- A new buffer and its handle. -/
def created (gpu : Gpu) (size : ℕ) : Variant × Gpu :=
  (Variant.rid (gpu.next + 1 : ℕ),
    (gpu.fill gpu.next (List.replicate size 0)).name (gpu.next + 1 : ℕ) gpu.next rfl
      (Nat.le_refl _))

/-- A permanent handle of a buffer. -/
def permanent (gpu : Gpu) (rid : Rid) : Rid × Gpu :=
  match named : gpu.names rid with
  | none => (0, gpu)
  | some object =>
      (-(gpu.next + 1 : ℕ), gpu.name (-(gpu.next + 1 : ℕ)) object
        (by rw [Int.natAbs_neg]; rfl) (Nat.le_of_lt (gpu.made rid object named)))

/-- A copy between buffers. -/
def copied (gpu : Gpu) (source target : Rid) (lo place size : ℕ) : Gpu :=
  match gpu.names source, gpu.names target with
  | some one, some two =>
      gpu.fill two (patched (gpu.bytes two) place (view (gpu.bytes one) (lo, size)))
  | _, _ => gpu

/-- Bytes of a buffer. -/
def fetched (gpu : Gpu) (rid : Rid) (place size : ℕ) : List UInt8 :=
  match gpu.names rid with
  | some object => view (gpu.bytes object) (place, size)
  | none => []

/-- How the host answers. -/
def answers : Answers HostCall HostCall.Answer Gpu
  | .device _ (.storageBufferCreate size _), gpu => gpu.created size
  | .makePermanent rid, gpu => gpu.permanent rid
  | .device _ (.freeRid rid), gpu =>
      ((), gpu.drop fun other => gpu.names other == gpu.names rid)
  | .vstoreGlobal rid, gpu => ((), gpu.drop fun other => other == rid)
  | .device _ (.bufferCopy source target lo place size), gpu =>
      ((0 : ℤ), gpu.copied source target lo place size)
  | .device _ (.bufferGetData rid place size), gpu => (gpu.fetched rid place size, gpu)
  | call, gpu => (quiet call, gpu)

theorem permanent_eq {gpu : Gpu} {rid : Rid} {object : ℕ} (named : gpu.names rid = some object) :
    gpu.permanent rid = (-((gpu.next + 1 : ℕ) : ℤ), gpu.name (-((gpu.next + 1 : ℕ) : ℤ)) object
      (by rw [Int.natAbs_neg]; rfl) (Nat.le_of_lt (gpu.made rid object named))) := by
  unfold permanent
  split
  next none =>
    rw [named] at none
    cases none
  next other same =>
    obtain rfl : object = other := Option.some.inj (named.symm.trans same)
    rfl

/-- Such a host keeps its promises. -/
def inMemory : BufferHost Gpu where
  answers := answers
  names gpu := gpu.names
  bytes gpu := gpu.bytes
  null gpu := gpu.null
  ends _ _ := ⟨rfl, rfl⟩
  creates gpu address size some_bytes := by
    refine ⟨(gpu.next + 1 : ℕ), gpu.next, rfl, Int.natCast_pos.mpr (Nat.succ_pos _),
      fun other named => ?_, Function.update_self _ _ _, fun other live => ?_, ?_,
      fun other apart => ?_⟩
    · exact absurd (gpu.made other _ named) (Nat.lt_irrefl _)
    · refine Function.update_of_ne (fun same => live (gpu.bounded other ?_)) _ _
      rw [same]
      exact Nat.lt_succ_self _
    · show (Function.update gpu.bytes gpu.next (List.replicate size 0) gpu.next).length = size
      rw [Function.update_self, List.length_replicate]
    · exact Function.update_of_ne apart _ _
  keeps gpu rid object named := by
    have answered : answers (.makePermanent rid) gpu = _ := permanent_eq named
    rw [answered]
    refine ⟨Int.neg_neg_of_pos (Int.natCast_pos.mpr (Nat.succ_pos _)), Function.update_self _ _ _,
      fun other live => ?_, rfl⟩
    refine Function.update_of_ne (fun same => live (gpu.bounded other ?_)) _ _
    rw [same, Int.natAbs_neg]
    exact Nat.lt_succ_self _
  frees gpu address rid object named := by
    refine ⟨fun other apart => ?_, fun _ _ => rfl⟩
    show (if (gpu.names other == gpu.names rid) = true then none else gpu.names other) = _
    rw [if_neg]
    rw [named, beq_iff_eq]
    exact apart
  forgets gpu rid := by
    refine ⟨fun other apart => ?_, rfl⟩
    show (if (other == rid) = true then none else gpu.names other) = _
    rw [if_neg]
    rw [beq_iff_eq]
    exact apart
  copies gpu address source target one two lo place size first second _ _ _ _ _ _ := by
    have answered : gpu.copied source target lo place size
        = gpu.fill two (patched (gpu.bytes two) place (view (gpu.bytes one) (lo, size))) := by
      rw [copied, first, second]
    refine ⟨rfl, ?_, ?_⟩
    · show (gpu.copied source target lo place size).names = _
      rw [answered]
      rfl
    · show (gpu.copied source target lo place size).bytes = _
      rw [answered]
      rfl
  fetches gpu address rid object place size named _ _ := by
    refine ⟨?_, rfl, rfl⟩
    show gpu.fetched rid place size = _
    rw [fetched, named]

/-- One buffer of 512 bytes. -/
def oneBuffer : Gpu where
  next := 1
  names := Function.update (fun _ => none) 1 (some 0)
  bytes _ := List.replicate 512 7
  null := rfl
  bounded rid far := by
    rw [Function.update_of_ne]
    rintro rfl
    exact absurd far (by decide)
  made rid object named := by
    by_cases same : rid = 1
    · rw [same, Function.update_self] at named
      cases named
      decide
    · rw [Function.update_of_ne same] at named
      cases named

/-- A device without a staging buffer, with a cap. -/
def capped (bytes : ℕ) : Device :=
  { rd := 1, stagingMax := min (max bytes 256) kMaxTransferBytes }

theorem capped_ready (bytes : ℕ) :
    Ready inMemory 1 0 (List.replicate 512 7) (capped bytes) oneBuffer where
  device := Nat.one_ne_zero
  waited := rfl
  cap := ⟨bytes, rfl⟩
  source := rfl
  holds := rfl
  apart := by
    show (Function.update (fun _ : Rid => (none : Option ℕ)) 1 (some 0)) 0 ≠ some 0
    decide
  unstaged _ := rfl
  staged held := absurd rfl held

end Gpu

/-- A read of 300 bytes out of 512, through a staging buffer of 257 bytes and through one of 300. -/
theorem readsExactly_iff_gpu :
    (ReadsExactly Gpu.inMemory 1 (List.replicate 512 7) 1 300 (Gpu.capped 257) Gpu.oneBuffer ↔
      Fits (Gpu.capped 257) 1 300) ∧
    (ReadsExactly Gpu.inMemory 1 (List.replicate 512 7) 1 300 (Gpu.capped 300) Gpu.oneBuffer ↔
      Fits (Gpu.capped 300) 1 300) :=
  ⟨readsExactly_iff (Gpu.capped_ready 257) (by rw [List.length_replicate])
    (by rw [List.length_replicate]; decide),
   readsExactly_iff (Gpu.capped_ready 300) (by rw [List.length_replicate])
    (by rw [List.length_replicate]; decide)⟩

/-- A cap of 257 bytes is accepted, and 300 bytes are read by a copy of 257. -/
theorem not_readsExactly :
    ¬ ∀ (World : Type) (host : BufferHost World) (buffer : Rid) (object : ℕ)
      (contents : List UInt8) (guest : Device) (world : World) (offset bytes : ℕ),
      Ready host buffer object contents guest world → contents.length % 4 = 0 →
      offset + bytes ≤ contents.length →
      ReadsExactly host buffer contents offset bytes guest world := by
  intro always
  have exact_read := always Gpu Gpu.inMemory 1 0 (List.replicate 512 7) (Gpu.capped 257)
    Gpu.oneBuffer 0 300 (Gpu.capped_ready 257) (by rw [List.length_replicate])
    (by rw [List.length_replicate]; decide)
  have fits := fits_of_bufferGetInto (Gpu.capped_ready 257) exact_read
  revert fits
  unfold Fits
  decide

end DressOn.Rdc
