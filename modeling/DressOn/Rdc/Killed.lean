import Mathlib.Logic.Function.Basic
import DressOn.Lib.Runs
import DressOn.Rdc.Device

/-!
# Killed calls

The host may kill a guest call at any point inside an operation. The guest's two flags then have
to tell the next call what the device was left with: an open compute list, or a submission that
was not waited for. They do, unless the kill comes between the host's `submit` and the store of
its flag.
-/

namespace DressOn.Rdc

open Interruptible Interruptible.Code

/-- The methods that Godot refuses while a compute list is open, or drops while the device is
processing. -/
def Method.recording : Method → Bool
  | computeListBegin | bufferUpdate .. | bufferCopy .. | bufferClear .. => true
  | bufferGetData .. | submit => true
  | _ => false

/-- A host with rendering devices, and what it promises of the calls. -/
structure Host (World : Type) where
  answers : Answers HostCall HostCall.Answer World
  listOpen : World → ℕ → Bool
  submitted : World → ℕ → Bool
  /-- Only the beginning of a list on a device opens one. -/
  opens : ∀ call world address, call ≠ .device address .computeListBegin →
    listOpen (answers call world).2 address = true → listOpen world address = true
  /-- Ending the list closes it. -/
  ends : ∀ world address,
    listOpen (answers (.device address .computeListEnd) world).2 address = false
  /-- Only a submission on a device starts its processing. -/
  submits : ∀ call world address, call ≠ .device address .submit →
    submitted (answers call world).2 address = true → submitted world address = true
  /-- After a sync the device is not processing. -/
  syncs : ∀ world address, submitted (answers (.device address .sync) world).2 address = false
  /-- A new device has no open list and is not processing. -/
  creates : ∀ server world address,
    (answers (.createLocalRenderingDevice server) world).1 = Variant.object address →
    listOpen (answers (.createLocalRenderingDevice server) world).2 address = false ∧
      submitted (answers (.createLocalRenderingDevice server) world).2 address = false

variable {World : Type} {α β : Type} (host : Host World)

namespace Host

/-- A device without an open list, and not processing. -/
def Idle (world : World) (address : ℕ) : Prop :=
  host.listOpen world address = false ∧ host.submitted world address = false

/-- A call that the host carries out: recording wants an idle device. -/
def Legal (world : World) : HostCall → Prop
  | .device address method => method.recording = true → host.Idle world address
  | _ => True

/-- The flags cover the state of the device. -/
def Covered (guest : Device) (world : World) : Prop :=
  guest.rd ≠ 0 →
    (host.listOpen world guest.rd = true → guest.listOpen = true) ∧
      (host.submitted world guest.rd = true → guest.submitted = true)

/-- What holds wherever a call is killed. `clear` is whether the operation began with recovery on
and nothing in flight. -/
def Point (clear : Prop) (next : Option HostCall) (guest : Device) (world : World) : Prop :=
  host.Covered guest world ∧ (clear → ∀ call, next = some call → host.Legal world call)

end Host

/-- Recovery is on and the guest knows of nothing in flight. -/
def Device.Clear (guest : Device) : Prop := guest.recovery = true ∧ guest.submitted = false

/-- The fields that matter are kept, and the list flag may only come down. -/
structure Eased (before after : Device) : Prop where
  rd : after.rd = before.rd
  submitted : after.submitted = before.submitted
  recovery : after.recovery = before.recovery
  listOpen : after.listOpen = true → before.listOpen = true

/-- No list is left to recover. -/
def Device.Recovered (guest : Device) : Prop := guest.recovery = true → guest.listOpen = false

namespace Eased

variable {first middle last : Device}

protected theorem refl (guest : Device) : Eased guest guest := ⟨rfl, rfl, rfl, id⟩

protected theorem trans (one : Eased first middle) (two : Eased middle last) :
    Eased first last :=
  ⟨two.rd.trans one.rd, two.submitted.trans one.submitted, two.recovery.trans one.recovery,
    one.listOpen ∘ two.listOpen⟩

/-- An eased device is as clear as before. -/
theorem clear (eased : Eased first last) : last.Clear = first.Clear := by
  rw [Device.Clear, Device.Clear, eased.recovery, eased.submitted]

/-- Easing leaves nothing to recover that was not there. -/
theorem recovered (eased : Eased first last) (recovered : first.Recovered) :
    last.Recovered := by
  intro on
  have closed : first.listOpen = false := recovered (eased.recovery ▸ on)
  cases flag : last.listOpen with
  | false => rfl
  | true => exact absurd (eased.listOpen flag) (by simp [closed])

end Eased

/-- A code that leaves the flags covering the device. With `recovered` it has to start with no
list left to recover. -/
def Steady (recovered : Bool) (code : Guest α) : Prop :=
  ∀ guest world, host.Covered guest world → (recovered = true → guest.Recovered) →
    Safe host.answers (host.Point guest.Clear)
      (fun _ after reached => Eased guest after ∧ host.Covered after reached) code guest world

/-- A code that does so from any list flag, and leaves no list to recover. -/
def Recovers (code : Guest α) : Prop :=
  ∀ guest world, host.Covered guest world →
    Safe host.answers (host.Point guest.Clear)
      (fun _ after reached =>
        (Eased guest after ∧ host.Covered after reached) ∧ after.Recovered)
      code guest world

variable {host} {recovered : Bool} {guest : Device} {world : World}

/-- Between two host calls nothing can be illegal. -/
theorem Host.Covered.point (covered : host.Covered guest world) (clear : Prop) :
    host.Point clear none guest world :=
  ⟨covered, fun _ _ impossible => by cases impossible⟩

/-- The flags also cover the device of a guest with the same ones. -/
theorem Host.Covered.of_eq {other : Device} (covered : host.Covered guest world)
    (rd : other.rd = guest.rd) (listOpen : other.listOpen = guest.listOpen)
    (submitted : other.submitted = guest.submitted) : host.Covered other world := by
  rw [Host.Covered, rd, listOpen, submitted]
  exact covered

/-- A call that neither begins a list nor submits keeps the flags covering. -/
theorem Host.Covered.after_call {call : HostCall} (covered : host.Covered guest world)
    (begins : ∀ address, call ≠ .device address .computeListBegin)
    (submits : ∀ address, call ≠ .device address .submit) :
    host.Covered guest (host.answers call world).2 := fun held =>
  ⟨fun opened => (covered held).1 (host.opens call world _ (begins _) opened),
    fun flying => (covered held).2 (host.submits call world _ (submits _) flying)⟩

/-- With nothing to recover and nothing in flight the device is idle. -/
theorem Host.Covered.idle (covered : host.Covered guest world) (held : guest.rd ≠ 0)
    (recovered : guest.Recovered) (clear : guest.Clear) : host.Idle world guest.rd := by
  obtain ⟨lists, flights⟩ := covered held
  rw [recovered clear.1] at lists
  rw [clear.2] at flights
  exact ⟨Bool.eq_false_iff.mpr fun opened => Bool.false_ne_true (lists opened),
    Bool.eq_false_iff.mpr fun flying => Bool.false_ne_true (flights flying)⟩

namespace Steady

/-- A value is returned. -/
theorem of_pure (value : α) : Steady host recovered (Pure.pure value : Guest α) :=
  fun guest _ covered _ => ⟨covered.point _, .refl guest, covered⟩

/-- The guest traps. -/
theorem of_trap : Steady host recovered (Code.trap : Guest α) :=
  fun _ _ covered _ => covered.point _

/-- A steady code after another. -/
theorem of_bind {code : Guest α} {after : α → Guest β} (first : Steady host recovered code)
    (second : ∀ value, Steady host recovered (after value)) :
    Steady host recovered (code >>= after) := by
  intro guest world covered ready
  apply (first guest world covered ready).bind
  intro value middle between ⟨eased, kept⟩
  have then_safe := second value middle between kept fun asked => eased.recovered (ready asked)
  rw [eased.clear] at then_safe
  exact then_safe.weaken fun _ _ _ ⟨later, final⟩ => ⟨eased.trans later, final⟩

/-- The guest looks at its own state. -/
theorem of_read {after : Device → Guest α} (second : ∀ guest, Steady host recovered (after guest)) :
    Steady host recovered (Code.read >>= after) :=
  of_bind (fun guest _ covered _ => ⟨covered.point _, covered.point _, .refl guest, covered⟩) second

/-- The guest writes none of the fields that matter. -/
theorem of_modify (work : Device → Device)
    (same : ∀ guest, (work guest).rd = guest.rd ∧ (work guest).listOpen = guest.listOpen ∧
      (work guest).submitted = guest.submitted ∧ (work guest).recovery = guest.recovery) :
    Steady host recovered (Code.modify work) := by
  intro guest _ covered _
  obtain ⟨rd, listOpen, submitted, recovery⟩ := same guest
  have changed := covered.of_eq rd listOpen submitted
  exact ⟨covered.point _, changed.point _, ⟨rd, submitted, recovery, listOpen.symm ▸ id⟩, changed⟩

/-- The host is asked for something other than a method of a device. -/
theorem of_ask (call : HostCall) (foreign : ∀ address method, call ≠ .device address method) :
    Steady host recovered (Code.ask call) := by
  intro guest world covered _
  have after := covered.after_call (fun _ => foreign _ _) (fun _ => foreign _ _)
  refine ⟨⟨covered, fun _ next same => ?_⟩, after.point _, .refl guest, after⟩
  obtain rfl : call = next := Option.some.inj same
  cases call with
  | device address method => exact absurd rfl (foreign address method)
  | _ => trivial

/-- So is an object that has to exist. -/
theorem of_objectCall (address : ℕ) (call : HostCall)
    (foreign : ∀ address method, call ≠ .device address method) :
    Steady host recovered (Rdc.objectCall address call) := by
  unfold Rdc.objectCall
  split
  · exact of_trap
  · exact of_ask call foreign

/-- A method of the device that neither begins a list nor submits. One that records wants the list
recovered. -/
theorem of_call (method : Method) (begins : method ≠ .computeListBegin) (submits : method ≠ .submit)
    (ready : method.recording = true → recovered = true) :
    Steady host recovered (Rdc.call method) := by
  intro guest world covered start
  refine ⟨covered.point _, ?_⟩
  simp only [id, andThen, Rdc.objectCall]
  split
  next => exact covered.point _
  next held =>
    have after : host.Covered guest (host.answers (.device guest.rd method) world).2 :=
      covered.after_call (fun _ same => begins (HostCall.device.inj same).2)
        (fun _ same => submits (HostCall.device.inj same).2)
    refine ⟨⟨covered, fun clear next same => ?_⟩, after.point _, .refl guest, after⟩
    obtain rfl := Option.some.inj same
    exact fun records => covered.idle held (start (ready records)) clear

end Steady

namespace Recovers

/-- A code that recovers is steady, whatever it starts from. -/
theorem steady {code : Guest α} (recovers : Recovers host code) : Steady host recovered code :=
  fun guest world covered _ => (recovers guest world covered).weaken fun _ _ _ => And.left

/-- What follows a recovery may record. -/
theorem bind {code : Guest α} {after : α → Guest β} (recovers : Recovers host code)
    (second : ∀ value, Steady host true (after value)) : Recovers host (code >>= after) := by
  intro guest world covered
  apply (recovers guest world covered).bind
  intro value middle between ⟨⟨eased, kept⟩, ready⟩
  have then_safe := second value middle between kept fun _ => ready
  rw [eased.clear] at then_safe
  exact then_safe.weaken fun _ _ _ ⟨later, final⟩ =>
    ⟨⟨eased.trans later, final⟩, later.recovered ready⟩

end Recovers

section

open Steady

/-- Naming the step changes no flag. -/
theorem attempt_steady (step : String) : Steady host recovered (attempt step) :=
  of_modify _ fun _ => ⟨rfl, rfl, rfl, rfl⟩

/-- Reporting a failure changes no flag. -/
theorem fail_steady (why : String) : Steady host recovered (fail why) :=
  of_modify _ fun _ => ⟨rfl, rfl, rfl, rfl⟩

/-- A handle is made permanent. -/
theorem keep_steady (index : Rid) : Steady host recovered (keep index) := by
  refine of_read fun device => ?_
  split
  · exact of_ask _ nofun
  · exact of_pure _

/-- A handle is counted. -/
theorem countRid_steady (index : Rid) : Steady host recovered (countRid index) := by
  unfold countRid
  split
  · exact fail_steady _
  split
  · exact of_modify _ fun _ => ⟨rfl, rfl, rfl, rfl⟩
  · exact of_pure _

/-- What the device made is kept and counted, or reported. -/
theorem ridOrFail_steady (made : Variant) : Steady host recovered (ridOrFail made) := by
  cases made with
  | rid index =>
    exact of_bind (keep_steady index) fun _ => of_bind (countRid_steady _) fun _ => of_pure _
  | object _ => exact of_bind (fail_steady _) fun _ => of_pure _
  | other => exact of_bind (fail_steady _) fun _ => of_pure _

/-- A handle is forgotten by the sandbox. -/
theorem forget_steady (rid : Rid) : Steady host recovered (forget rid) := by
  unfold forget
  split
  · exact of_pure _
  · exact of_bind (of_ask _ nofun) fun _ => of_modify _ fun _ => ⟨rfl, rfl, rfl, rfl⟩

/-- A uniform set is looked at. -/
theorem uniformSetValid_steady (rid : Rid) : Steady host recovered (uniformSetValid rid) := by
  unfold uniformSetValid
  split
  · exact of_pure _
  · exact of_bind (attempt_steady _) fun _ => of_call _ nofun nofun nofun

/-- A handle is freed, then forgotten. -/
theorem freeRid_steady (rid : Rid) : Steady host recovered (freeRid rid) := by
  unfold freeRid
  split
  · exact of_pure _
  · exact of_bind (attempt_steady _) fun _ => of_bind (of_call _ nofun nofun nofun) fun _ =>
      forget_steady rid

/-- The staging buffer is forgotten. -/
theorem noStaging_steady : Steady host recovered noStaging :=
  of_bind (of_modify _ fun _ => ⟨rfl, rfl, rfl, rfl⟩) fun _ =>
    of_modify _ fun _ => ⟨rfl, rfl, rfl, rfl⟩

/-- The staging buffer is given back with the device. -/
theorem closeStaging_steady : Steady host recovered closeStaging := by
  refine of_read fun device => ?_
  split
  · exact of_pure _
  split
  · exact of_bind (forget_steady _) fun _ => noStaging_steady
  · exact of_bind (freeRid_steady _) fun _ => noStaging_steady

/-- A device of one's own is freed. -/
theorem closeOwned_steady : Steady host recovered closeOwned := by
  refine of_read fun device => ?_
  split
  · exact of_bind (attempt_steady _) fun _ => of_call _ nofun nofun nofun
  · exact of_pure _

/-- A shader is made of its code. -/
theorem shaderFromSpirv_steady (spirv : List UInt8) :
    Steady host recovered (shaderFromSpirv spirv) :=
  of_bind (attempt_steady _) fun _ => of_bind (of_ask _ nofun) fun _ =>
    of_bind (attempt_steady _) fun _ => of_bind (of_objectCall _ _ nofun) fun _ =>
      of_bind (attempt_steady _) fun _ => of_bind (of_call _ nofun nofun nofun) fun made => ridOrFail_steady made

/-- A pipeline is made of a shader. -/
theorem computePipeline_steady (shader : Rid) :
    Steady host recovered (computePipeline shader) :=
  of_bind (attempt_steady _) fun _ => of_bind (of_call _ nofun nofun nofun) fun made =>
    ridOrFail_steady made

/-- The flag comes down after the call that closes the list. -/
theorem listEnd_safe (covered : host.Covered guest world) :
    Safe host.answers (host.Point guest.Clear)
      (fun _ after reached =>
        (Eased guest after ∧ host.Covered after reached) ∧ after.listOpen = false)
      listEnd guest world := by
  have named : host.Covered { guest with step := "compute_list_end" } world := covered
  refine ⟨covered.point _, named.point _, ?_⟩
  simp only [id, andThen, Rdc.objectCall]
  split
  next => exact named.point _
  next =>
    have after : host.Covered { guest with step := "compute_list_end" }
        (host.answers (.device guest.rd .computeListEnd) world).2 :=
      named.after_call nofun nofun
    have closed := host.ends world guest.rd
    have lowered : host.Covered { guest with step := "compute_list_end", listOpen := false }
        (host.answers (.device guest.rd .computeListEnd) world).2 := fun held =>
      ⟨fun opened => absurd opened (by simp [closed]), (after held).2⟩
    refine ⟨⟨named, fun _ _ same => ?_⟩, after.point _, lowered.point _,
      ⟨⟨rfl, rfl, rfl, nofun⟩, lowered⟩, rfl⟩
    obtain rfl := Option.some.inj same
    exact nofun

/-- The end of a list is steady. -/
theorem listEnd_steady : Steady host recovered listEnd := fun _ _ covered _ =>
  (listEnd_safe covered).weaken fun _ _ _ => And.left

/-- A recovery leaves no list to recover. -/
theorem recover_recovers : Recovers host recover := by
  intro guest world covered
  refine ⟨covered.point _, ?_⟩
  simp only [id, andThen]
  split
  next none =>
    refine ⟨covered.point _, ⟨.refl guest, covered⟩, fun on => none.resolve_right ?_⟩
    exact fun off => Bool.false_ne_true (off.symm.trans on)
  next =>
    refine (listEnd_safe covered).bind fun _ middle between ⟨⟨eased, kept⟩, lowered⟩ => ?_
    have counted : host.Covered { middle with recoveries := middle.recoveries + 1 } between := kept
    exact ⟨kept.point _, counted.point _,
      ⟨⟨eased.rd, eased.submitted, eased.recovery, eased.listOpen⟩, counted⟩, fun _ => lowered⟩

/-- A refused call is reported. -/
theorem accepted_steady (err : ℤ) : Steady host recovered (accepted err) := by
  unfold accepted
  split
  · exact of_pure _
  · exact of_bind (fail_steady _) fun _ => of_pure _

/-- The pieces of an update, one call each, once any list is recovered. -/
theorem updateFrom_steady (buffer : Rid) (offset bytes : ℕ) (data : List UInt8) (done : ℕ) :
    Steady host true (updateFrom buffer offset bytes data done) := by
  induction done using updateFrom.induct bytes with
  | case1 done size inductionHypothesis =>
    rw [updateFrom]
    refine of_bind (of_call _ nofun nofun fun _ => rfl) fun err => ?_
    refine of_bind (accepted_steady err) fun sent => ?_
    split
    · exact of_pure _
    split
    next more => exact inductionHypothesis more
    · exact of_pure _

/-- An update recovers before its first piece. -/
theorem bufferUpdate_recovers (buffer : Rid) (offset bytes : ℕ) (data : List UInt8) :
    Recovers host (bufferUpdate buffer offset bytes data) :=
  recover_recovers.bind fun _ => of_bind (attempt_steady _) fun _ => updateFrom_steady _ _ _ _ _

/-- A read recovers first. -/
theorem bufferGet_recovers (buffer : Rid) (offset bytes : ℕ) :
    Recovers host (bufferGet buffer offset bytes) :=
  recover_recovers.bind fun _ => of_bind (attempt_steady _) fun _ =>
    of_call _ nofun nofun fun _ => rfl

/-- A copy recovers first. -/
theorem bufferCopy_recovers (source target : Rid) (bytes sourceOffset targetOffset : ℕ) :
    Recovers host (bufferCopy source target bytes sourceOffset targetOffset) :=
  recover_recovers.bind fun _ => of_bind (attempt_steady _) fun _ =>
    of_bind (of_call _ nofun nofun fun _ => rfl) fun err => accepted_steady err

/-- A clear recovers first. -/
theorem bufferClear_recovers (buffer : Rid) (offset bytes : ℕ) :
    Recovers host (bufferClear buffer offset bytes) :=
  recover_recovers.bind fun _ => of_bind (attempt_steady _) fun _ =>
    of_bind (of_call _ nofun nofun fun _ => rfl) fun err => accepted_steady err

/-- A storage buffer is made with what is in it. -/
theorem storageBufferUninit_steady (bytes : ℕ) :
    Steady host recovered (storageBufferUninit bytes) :=
  of_bind (attempt_steady _) fun _ => of_bind (of_call _ nofun nofun nofun) fun made =>
    ridOrFail_steady made

/-- A buffer that could not be filled is freed. -/
theorem orFree_steady (rid : Rid) (filled : Bool) : Steady host recovered (orFree rid filled) := by
  unfold orFree
  split
  · exact of_pure _
  · exact of_bind (freeRid_steady rid) fun _ => of_pure _

/-- A storage buffer is made and cleared. -/
theorem storageBufferEmpty_steady (bytes : ℕ) (clear : Bool) :
    Steady host recovered (storageBufferEmpty bytes clear) := by
  refine of_bind (storageBufferUninit_steady _) fun rid => ?_
  split
  · exact of_bind (bufferClear_recovers _ _ _).steady fun cleared => orFree_steady rid cleared
  · exact of_pure _

/-- A storage buffer beyond a call's size is made, then filled. -/
theorem storageBufferLarge_steady (bytes : ℕ) (data : Option (List UInt8)) :
    Steady host recovered (storageBufferLarge bytes data) := by
  cases data with
  | none => exact storageBufferEmpty_steady bytes true
  | some data =>
    refine of_bind (storageBufferEmpty_steady bytes false) fun rid => ?_
    split
    · exact of_bind (bufferUpdate_recovers _ _ _ _).steady fun filled => orFree_steady rid filled
    · exact of_pure _

/-- A storage buffer is made in one call or filled after it. -/
theorem storageBuffer_steady (bytes : ℕ) (data : Option (List UInt8)) :
    Steady host recovered (storageBuffer bytes data) := by
  unfold storageBuffer
  split
  · exact storageBufferLarge_steady bytes data
  · exact of_bind (attempt_steady _) fun _ => of_bind (of_call _ nofun nofun nofun) fun made =>
      ridOrFail_steady made

/-- A uniform buffer is made in one call. -/
theorem uniformBuffer_steady (bytes : ℕ) (data : Option (List UInt8)) :
    Steady host recovered (uniformBuffer bytes data) :=
  of_bind (attempt_steady _) fun _ => of_bind (of_call _ nofun nofun nofun) fun made =>
    ridOrFail_steady made

/-- The staging buffer is freed. -/
theorem dropStaging_steady : Steady host recovered dropStaging := by
  refine of_read fun device => ?_
  split
  · exact of_pure _
  · exact of_bind (freeRid_steady _) fun _ => noStaging_steady

/-- A staging buffer of a size is made. -/
theorem makeStaging_steady (want : ℕ) : Steady host recovered (makeStaging want) := by
  refine of_bind (storageBufferEmpty_steady want false) fun rid => ?_
  refine of_bind (of_modify _ fun _ => ⟨rfl, rfl, rfl, rfl⟩) fun _ => ?_
  split
  · exact of_pure _
  · exact of_bind (of_modify _ fun _ => ⟨rfl, rfl, rfl, rfl⟩) fun _ => of_pure _

/-- A staging buffer that is too small gives way to a larger one. -/
theorem growStaging_steady (bytes : ℕ) : Steady host recovered (growStaging bytes) := by
  refine of_read fun device => ?_
  dsimp only
  split
  · exact of_bind dropStaging_steady fun _ => makeStaging_steady _
  · exact of_pure _

/-- The staged read follows a copy, which has ended any list. -/
theorem readStaged_steady (buffer : Rid) (turn : Staged) :
    Steady host recovered (readStaged buffer turn) := by
  refine of_read fun device => ?_
  refine ((bufferCopy_recovers _ _ _ _ _).bind fun copied => ?_).steady
  split
  · exact of_pure _
  refine of_bind (attempt_steady _) fun _ => ?_
  refine of_bind (of_call _ nofun nofun fun _ => rfl) fun got => ?_
  split
  · exact of_bind (fail_steady _) fun _ => of_pure _
  · exact of_pure _

/-- The chunks of a read, each by a copy to the staging buffer and a read of it. -/
theorem getFrom_steady (buffer : Rid) (offset bytes done : ℕ) (out : List UInt8) :
    Steady host recovered (getFrom buffer offset bytes done out) := by
  induction done, out using getFrom.induct offset bytes with
  | case1 done out finished =>
    rw [getFrom, if_pos finished]
    exact of_pure _
  | case2 done out unfinished inductionHypothesis =>
    rw [getFrom, if_neg unfinished]
    refine of_read fun device => of_bind (readStaged_steady buffer _) fun got => ?_
    cases got with
    | none => exact of_pure _
    | some got =>
      dsimp only
      split
      · exact of_trap
      next takes => exact inductionHypothesis device got takes

/-- A read through the staging buffer. -/
theorem bufferGetInto_steady (buffer : Rid) (offset bytes : ℕ) :
    Steady host recovered (bufferGetInto buffer offset bytes) := by
  refine of_read fun device => ?_
  split
  · exact of_bind (attempt_steady _) fun _ => of_bind (fail_steady _) fun _ => of_pure _
  split
  · exact of_pure _
  refine of_bind (growStaging_steady bytes) fun grown => ?_
  split
  · exact getFrom_steady _ _ _ _ _
  · exact of_pure _

/-- A uniform is made and set up by calls of its own object. -/
theorem uniform_steady (binding : Binding) : Steady host recovered (uniform binding) :=
  of_bind (of_ask _ nofun) fun _ => of_bind (of_objectCall _ _ nofun) fun _ =>
    of_bind (of_objectCall _ _ nofun) fun _ => of_bind (of_objectCall _ _ nofun) fun _ =>
      of_pure _

/-- The uniforms of a set, one after the other. -/
theorem uniforms_steady (bindings : List Binding) :
    Steady host recovered (uniforms bindings) := by
  induction bindings with
  | nil => exact of_pure _
  | cons binding rest inductionHypothesis =>
    exact of_bind (uniform_steady binding) fun _ => of_bind inductionHypothesis fun _ => of_pure _

/-- A uniform set is made of its uniforms. -/
theorem uniformSet_steady (shader : Rid) (bindings : List Binding) (set : ℕ) :
    Steady host recovered (uniformSet shader bindings set) :=
  of_bind (attempt_steady _) fun _ => of_bind (uniforms_steady bindings) fun _ =>
    of_bind (attempt_steady _) fun _ => of_bind (of_call _ nofun nofun nofun) fun made =>
      ridOrFail_steady made

/-- A step is named, and a method called that records nothing. -/
theorem attempt_call_steady (step : String) (method : Method) (begins : method ≠ .computeListBegin)
    (quiet : method.recording = false) :
    Steady host recovered (attempt step >>= fun _ => call method) :=
  of_bind (attempt_steady step) fun _ =>
    of_call method begins (fun same => by simp [same, Method.recording] at quiet)
      fun records => by simp [quiet] at records

/-- The engine is asked for once. -/
theorem findEngine_steady : Steady host recovered findEngine := by
  refine of_read fun device => ?_
  split
  · exact of_bind (of_ask _ nofun) fun _ => of_modify _ fun _ => ⟨rfl, rfl, rfl, rfl⟩
  · exact of_pure _

/-- The engine is asked for its frame. -/
theorem processFrame_steady : Steady host recovered processFrame :=
  of_bind findEngine_steady fun _ => of_read fun _ => of_objectCall _ _ nofun

/-- A sync in the frame of its submission is counted. -/
theorem countSameFrame_steady (frame : ℤ) : Steady host recovered (countSameFrame frame) := by
  refine of_read fun device => ?_
  split
  · exact of_modify _ fun _ => ⟨rfl, rfl, rfl, rfl⟩
  · exact of_pure _

end

/-- A code that leaves the flags covering, whatever it does to them. -/
def Kept (host : Host World) (guest : Device) (world : World) (code : Guest α) : Prop :=
  Safe host.answers (host.Point guest.Clear) (fun _ => host.Covered) code guest world

/-- A steady code leaves the flags covering. -/
theorem Steady.kept {code : Guest α} (steady : Steady host false code)
    (covered : host.Covered guest world) : Kept host guest world code :=
  (steady guest world covered nofun).weaken fun _ _ _ => And.right

/-- A result is dropped. -/
theorem Kept.discard {code : Guest α} (kept : Kept host guest world code) :
    Kept host guest world (discard code) :=
  Safe.bind kept fun _ _ _ covered => ⟨covered.point _, covered⟩

/-- A steady code before one that moves the flags. -/
theorem Steady.bind_kept {code : Guest α} {after : α → Guest β} (steady : Steady host false code)
    (covered : host.Covered guest world)
    (second : ∀ value middle between, Eased guest middle → host.Covered middle between →
      Kept host middle between (after value)) : Kept host guest world (code >>= after) := by
  refine (steady guest world covered nofun).bind fun value middle between ⟨eased, kept⟩ => ?_
  have then_safe := second value middle between eased kept
  rw [Kept, eased.clear] at then_safe
  exact then_safe

/-- A guest without a device is covered. -/
theorem Host.Covered.of_null (null : guest.rd = 0) : host.Covered guest world :=
  fun held => absurd null held

/-- An idle device is covered by any flags. -/
theorem Host.Covered.of_idle (idle : host.Idle world guest.rd) : host.Covered guest world :=
  fun _ => ⟨fun opened => absurd opened (by simp [idle.1]),
    fun flying => absurd flying (by simp [idle.2])⟩

/-- A device made by the server is idle. -/
theorem openWith_kept {server : ℕ} (covered : host.Covered guest world) :
    Kept host guest world
      (objectCall server (.createLocalRenderingDevice server) >>= openWith) := by
  unfold objectCall
  split
  · exact covered.point _
  have after : host.Covered guest
      (host.answers (.createLocalRenderingDevice server) world).2 :=
    covered.after_call nofun nofun
  have idle := host.creates server world
  refine ⟨⟨covered, fun _ _ same => by obtain rfl := Option.some.inj same; trivial⟩, ?_⟩
  simp only [andThen]
  generalize (host.answers (.createLocalRenderingDevice server) world).2 = reached at after idle ⊢
  cases made : (host.answers (.createLocalRenderingDevice server) world).1 with
  | object address =>
    have taken (other : Device) (held : other.rd = address) : host.Covered other reached :=
      .of_idle (held ▸ idle address made)
    refine ⟨after.point _, (taken _ rfl).point _, ?_⟩
    dsimp only
    split
    · exact ⟨(taken _ rfl).point _, (taken _ rfl).point _, taken _ rfl⟩
    · exact ⟨(taken _ rfl).point _, taken _ rfl⟩
  | rid _ => exact ⟨after.point _, (after.of_eq rfl rfl rfl).point _, after.of_eq rfl rfl rfl⟩
  | other => exact ⟨after.point _, (after.of_eq rfl rfl rfl).point _, after.of_eq rfl rfl rfl⟩

/-- Opening leaves the device as it is, or takes a new one. -/
theorem open_kept (covered : host.Covered guest world) : Kept host guest world «open» := by
  refine ⟨covered.point _, ?_⟩
  simp only [id, andThen]
  split
  · exact ⟨covered.point _, covered⟩
  refine (Steady.of_modify (fun device => { device with err := "" }) fun _ =>
    ⟨rfl, rfl, rfl, rfl⟩).bind_kept covered fun _ _ _ _ covered => ?_
  refine (attempt_steady _).bind_kept covered fun _ named _ _ covered => ?_
  refine (Steady.of_ask (.singleton _) nofun).bind_kept covered fun server _ _ _ covered => ?_
  refine (attempt_steady _).bind_kept covered fun _ _ _ _ covered => ?_
  exact openWith_kept covered

/-- A device is adopted idle. -/
theorem adopt_kept {address : ℕ} (covered : host.Covered guest world)
    (idle : host.Idle world address) : Kept host guest world (adopt address) := by
  have taken (other : Device) (held : other.rd = address) : host.Covered other world :=
    .of_idle (held ▸ idle)
  exact ⟨covered.point _, (taken _ rfl).point _, (taken _ rfl).point _, (taken _ rfl).point _,
    (taken _ rfl).point _, (taken _ rfl).point _, taken _ rfl⟩

/-- After the close there is no device to cover. -/
theorem close_kept (covered : host.Covered guest world) : Kept host guest world close := by
  refine closeStaging_steady.bind_kept covered fun _ middle between _ covered => ?_
  refine closeOwned_steady.bind_kept covered fun _ middle between _ covered => ?_
  have given (other : Device) (null : other.rd = 0) : host.Covered other between := .of_null null
  exact ⟨covered.point _, (given _ rfl).point _, (given _ rfl).point _, (given _ rfl).point _,
    (given _ rfl).point _, given _ rfl⟩

/-- The flag goes up before the list is begun. -/
theorem listBegin_kept (covered : host.Covered guest world) :
    Kept host guest world listBegin := by
  refine (recover_recovers guest world covered).bind ?_
  intro _ middle between ⟨⟨eased, covered⟩, ready⟩
  have named : host.Covered { middle with step := "compute_list_begin" } between := covered
  have raised : host.Covered
      { middle with step := "compute_list_begin", listOpen := true } between := fun held =>
    ⟨fun _ => rfl, (named held).2⟩
  refine ⟨covered.point _, named.point _, raised.point _, ?_⟩
  simp only [id, andThen, objectCall]
  split
  next => exact raised.point _
  next held =>
    have begun (list : ℤ) : host.Covered
        { middle with step := "compute_list_begin", listOpen := true, list }
        (host.answers (.device middle.rd .computeListBegin) between).2 := fun held =>
      ⟨fun _ => rfl, fun flying =>
        (covered held).2 (host.submits (.device _ .computeListBegin) _ _ nofun flying)⟩
    refine ⟨⟨raised, fun clear _ same => ?_⟩, (begun middle.list).point _, (begun _).point _,
      begun _⟩
    obtain rfl := Option.some.inj same
    exact fun _ => covered.idle held ready (eased.clear ▸ clear)

/-- The flag comes down after the call that waits. -/
theorem sync_kept (covered : host.Covered guest world) : Kept host guest world sync := by
  refine (attempt_steady _).bind_kept covered fun _ _ _ _ covered => ?_
  refine processFrame_steady.bind_kept covered fun frame _ _ _ covered => ?_
  refine (countSameFrame_steady frame).bind_kept covered fun _ _ _ _ covered => ?_
  refine (Steady.of_modify (fun device => { device with syncs := device.syncs + 1 }) fun _ =>
    ⟨rfl, rfl, rfl, rfl⟩).bind_kept covered fun _ guest world _ covered => ?_
  refine ⟨covered.point _, ?_⟩
  simp only [id, andThen, objectCall]
  split
  next => exact covered.point _
  next =>
    have after : host.Covered guest (host.answers (.device guest.rd .sync) world).2 :=
      covered.after_call nofun nofun
    have lowered : host.Covered { guest with submitted := false }
        (host.answers (.device guest.rd .sync) world).2 := fun held =>
      ⟨(after held).1, fun flying => absurd flying (by simp [host.syncs])⟩
    refine ⟨⟨covered, fun _ _ same => ?_⟩, after.point _, lowered.point _, lowered⟩
    obtain rfl := Option.some.inj same
    exact nofun

/-- Recovery is switched without a look at the device. -/
theorem setRecovery_kept (on : Bool) (covered : host.Covered guest world) :
    Kept host guest world (modify fun device => { device with recovery := on }) :=
  have changed : host.Covered { guest with recovery := on } world := covered
  ⟨covered.point _, changed.point _, changed⟩

/-- An operation other than `submit` leaves the flags covering the device. -/
theorem Op.kept {op : Op} (covered : host.Covered guest world) (unsubmitted : op ≠ .submit)
    (adopted : ∀ address, op = .adopt address → host.Idle world address) :
    Kept host guest world op.code := by
  have steady {code : Guest Unit} (steady : Steady host false code) :
      Kept host guest world code := steady.kept covered
  have quiet {α : Type} {code : Guest α} (steady : Steady host false code) :
      Kept host guest world (discard code) := (steady.kept covered).discard
  cases op with
  | «open» => exact (open_kept covered).discard
  | adopt address => exact adopt_kept covered (adopted address rfl)
  | close => exact close_kept covered
  | shaderFromSpirv spirv => exact quiet (shaderFromSpirv_steady _)
  | computePipeline shader => exact quiet (computePipeline_steady _)
  | storageBuffer bytes data => exact quiet (storageBuffer_steady _ _)
  | storageBufferUninit bytes => exact quiet (storageBufferUninit_steady _)
  | storageBufferEmpty bytes clear => exact quiet (storageBufferEmpty_steady _ _)
  | uniformBuffer bytes data => exact quiet (uniformBuffer_steady _ _)
  | bufferUpdate buffer offset bytes data =>
    exact quiet (bufferUpdate_recovers _ _ _ _).steady
  | bufferGet buffer offset bytes => exact quiet (bufferGet_recovers _ _ _).steady
  | bufferGetInto buffer offset bytes => exact quiet (bufferGetInto_steady _ _ _)
  | setStagingMax bytes => exact steady (Steady.of_modify _ fun _ => ⟨rfl, rfl, rfl, rfl⟩)
  | bufferCopy source target bytes sourceOffset targetOffset =>
    exact quiet (bufferCopy_recovers _ _ _ _ _).steady
  | bufferClear buffer offset bytes => exact quiet (bufferClear_recovers _ _ _).steady
  | uniformSet shader bindings set => exact quiet (uniformSet_steady _ _ _)
  | freeRid rid => exact steady (freeRid_steady _)
  | forget rid => exact steady (forget_steady _)
  | uniformSetValid rid => exact quiet (uniformSetValid_steady _)
  | limitGet limit => exact quiet (attempt_call_steady _ _ nofun rfl)
  | memoryUsage => exact quiet (attempt_call_steady _ _ nofun rfl)
  | deviceName => exact quiet (attempt_call_steady _ _ nofun rfl)
  | captureTimestamp name => exact steady (attempt_call_steady _ _ nofun rfl)
  | timestampsCount => exact quiet (attempt_call_steady _ _ nofun rfl)
  | timestampGpuNs index => exact quiet (attempt_call_steady _ _ nofun rfl)
  | listBegin => exact (listBegin_kept covered).discard
  | bindPipeline pipeline =>
    exact steady (Steady.of_bind (attempt_steady _) fun _ =>
      Steady.of_read fun _ => Steady.of_call _ nofun nofun nofun)
  | bindUniformSet rid set =>
    exact steady (Steady.of_bind (attempt_steady _) fun _ =>
      Steady.of_read fun _ => Steady.of_call _ nofun nofun nofun)
  | dispatch x y z =>
    exact steady (Steady.of_bind (attempt_steady _) fun _ =>
      Steady.of_read fun _ => Steady.of_call _ nofun nofun nofun)
  | barrier =>
    exact steady (Steady.of_bind (attempt_steady _) fun _ =>
      Steady.of_read fun _ => Steady.of_call _ nofun nofun nofun)
  | listEnd => exact steady listEnd_steady
  | submit => exact absurd rfl unsubmitted
  | sync => exact sync_kept covered
  | processFrame => exact quiet processFrame_steady
  | setPermanentRids on => exact steady (Steady.of_modify _ fun _ => ⟨rfl, rfl, rfl, rfl⟩)
  | recover => exact quiet recover_recovers.steady
  | setRecovery on => exact setRecovery_kept on covered

/-- A code that calls no method of the device. -/
def Foreign (host : Host World) (code : Guest α) : Prop :=
  ∀ guest world, Safe host.answers
    (fun next _ world => ∀ call, next = some call → host.Legal world call) (fun _ _ _ => True)
    code guest world

namespace Foreign

/-- Such a code after another. -/
theorem of_bind {code : Guest α} {after : α → Guest β} (first : Foreign host code)
    (second : ∀ value, Foreign host (after value)) : Foreign host (code >>= after) :=
  fun guest world => (first guest world).bind fun value middle between _ =>
    second value middle between

/-- The guest writes its own state. -/
theorem of_modify (work : Device → Device) : Foreign host (Code.modify work) :=
  fun _ _ => ⟨nofun, nofun, trivial⟩

/-- An object is called that is no device. -/
theorem of_objectCall (address : ℕ) (call : HostCall)
    (foreign : ∀ address method, call ≠ .device address method) :
    Foreign host (Rdc.objectCall address call) := by
  intro guest world
  unfold Rdc.objectCall
  split
  · exact nofun
  refine ⟨fun next same => ?_, nofun, trivial⟩
  obtain rfl := Option.some.inj same
  cases call with
  | device address method => exact absurd rfl (foreign address method)
  | _ => trivial

end Foreign

/-- Asking for the frame calls no method of the device. -/
theorem storeFrame_foreign : Foreign host storeFrame := by
  refine .of_bind (.of_bind ?_ fun _ => ?_) fun frame => .of_bind (.of_modify _) fun _ =>
    .of_modify _
  · intro guest world
    refine ⟨nofun, ?_⟩
    simp only [id, andThen]
    split
    · refine ⟨fun _ same => ?_, nofun, nofun, trivial⟩
      obtain rfl := Option.some.inj same
      trivial
    · exact ⟨nofun, trivial⟩
  · exact .of_bind (fun _ _ => ⟨nofun, nofun, trivial⟩) fun _ => .of_objectCall _ _ nofun

/-- The frame of the submission is stored. -/
theorem storeFrame_steady : Steady host recovered storeFrame :=
  .of_bind processFrame_steady fun _ => .of_bind (.of_modify _ fun _ => ⟨rfl, rfl, rfl, rfl⟩)
    fun _ => .of_modify _ fun _ => ⟨rfl, rfl, rfl, rfl⟩

/-- What is left of a submission once it has reached the host: the flag, then nothing to fear. -/
theorem storeSubmitted_point {clear : Prop} {left : Guest Unit} {final : Device} {reached : World}
    (covered : host.Covered { guest with submitted := true } world)
    (run : Reaches host.answers storeSubmitted guest world left final reached) :
    left = storeSubmitted ∨ host.Point clear left.next final reached := by
  cases run with
  | here => exact .inl rfl
  | memory run =>
    have steady : Steady host false storeFrame := storeFrame_steady
    have point := (steady _ _ covered nofun).at_point run
    exact .inr ⟨point.1, fun _ => (storeFrame_foreign _ _).at_point run⟩

/-- The submission goes to an idle device. -/
theorem submitRecorded_point {left : Guest Unit} {final : Device} {reached : World}
    (covered : host.Covered guest world) (ready : guest.Recovered)
    (run : Reaches host.answers submitRecorded guest world left final reached) :
    left = storeSubmitted ∨ host.Point guest.Clear left.next final reached := by
  have named : host.Covered { guest with step := "submit" } world := covered
  cases run with
  | here => exact .inr (covered.point _)
  | memory run =>
  cases run with
  | here => exact .inr (named.point _)
  | memory run =>
  change Reaches host.answers ((if guest.rd = 0 then Code.trap else
    Code.ask (.device guest.rd .submit)) >>= fun _ => storeSubmitted) _ world left final reached
    at run
  split at run
  next =>
    cases run with
    | here => exact .inr (named.point _)
  next held =>
    cases run with
    | here =>
      refine .inr ⟨named, fun clear _ same => ?_⟩
      obtain rfl := Option.some.inj same
      exact fun _ => covered.idle held ready clear
    | host run =>
      refine storeSubmitted_point (fun held => ⟨fun opened => ?_, fun _ => rfl⟩) run
      exact (covered held).1 (host.opens (.device _ .submit) _ _ nofun opened)

/-- What a killed `submit` leaves is covered, unless it was killed with the flag still to store. -/
theorem submit_point {left : Guest Unit} {final : Device} {reached : World}
    (covered : host.Covered guest world)
    (run : Reaches host.answers submit guest world left final reached) :
    left = storeSubmitted ∨ host.Point guest.Clear left.next final reached := by
  obtain ⟨rest, rfl, inside⟩ | ⟨value, middle, between, inside, later⟩ := run.of_bind
  · have point := (recover_recovers guest world covered).at_point inside
    cases rest with
    | done _ => exact .inr point
    | trap => exact .inr point
    | memory _ _ => exact .inr point
    | host _ _ => exact .inr point
  · obtain ⟨⟨eased, covered⟩, ready⟩ := (recover_recovers guest world covered).at_end inside
    rw [← eased.clear]
    exact submitRecorded_point covered ready later

/-- An operation runs to a point: there it is killed, or it is done. A submission is not killed
with its flag still to store, and a device that is adopted is idle. -/
def Moves (host : Host World) (before after : Device × World) : Prop :=
  ∃ (op : Op) (left : Guest Unit),
    Reaches host.answers op.code before.1 before.2 left after.1 after.2 ∧
      (op = .submit → left ≠ storeSubmitted) ∧
      ∀ address, op = .adopt address → host.Idle before.2 address

/-- Wherever an operation is killed, it leaves its point. -/
theorem Op.point {op : Op} {left : Guest Unit} {final : Device} {reached : World}
    (covered : host.Covered guest world)
    (run : Reaches host.answers op.code guest world left final reached)
    (stored : op = .submit → left ≠ storeSubmitted)
    (adopted : ∀ address, op = .adopt address → host.Idle world address) :
    host.Point guest.Clear left.next final reached := by
  by_cases submits : op = .submit
  · subst submits
    exact (submit_point covered run).resolve_left (stored rfl)
  · exact (Op.kept covered submits adopted).at_point run

/-- Every move of a run keeps the flags covering the device. -/
theorem Moves.covered {before after : Device × World} (moves : Moves host before after)
    (covered : host.Covered before.1 before.2) : host.Covered after.1 after.2 := by
  obtain ⟨op, left, run, stored, adopted⟩ := moves
  exact (Op.point covered run stored adopted).1

/-- The calls of an operation that begins with recovery on and nothing in flight are legal. -/
theorem Op.calls_legal {op : Op} {left : Guest Unit} {final : Device} {reached : World}
    {call : HostCall} (covered : host.Covered guest world) (clear : guest.Clear)
    (run : Reaches host.answers op.code guest world left final reached)
    (asks : left.next = some call) : host.Legal reached call := by
  by_cases adopts : ∃ address, op = .adopt address
  · obtain ⟨address, rfl⟩ := adopts
    have quiet : Foreign host (Rdc.adopt address) :=
      .of_bind (.of_modify _) fun _ => .of_bind (.of_modify _) fun _ =>
        .of_bind (.of_modify _) fun _ => .of_bind (.of_modify _) fun _ => .of_modify _
    exact (quiet guest world).at_point run call asks
  · have stored : left ≠ storeSubmitted := by
      rintro rfl
      cases asks
    exact (Op.point covered run (fun _ => stored)
      fun address same => absurd ⟨address, same⟩ adopts).2 clear call asks

/-- Kill calls as you like, but not between a submission and its flag: the flags cover the
device. A recovery then leaves no open list, and with nothing in flight every later call of an
operation finds an idle device. -/
theorem flags_cover_killed_calls (host : Host World) {start reached : World} {guest : Device}
    (run : Relation.ReflTransGen (Moves host) ({}, start) (guest, reached)) :
    host.Covered guest reached ∧
      (guest.recovery = true → ∀ (value : Bool) (final : Device) (last : World),
        Reaches host.answers recover guest reached (.done value) final last →
        host.Covered final last ∧ (final.rd ≠ 0 → host.listOpen last final.rd = false)) ∧
      (guest.recovery = true → guest.submitted = false →
        ∀ (op : Op) (left : Guest Unit) (final : Device) (last : World),
        Reaches host.answers op.code guest reached left final last →
        ∀ call, left.next = some call → host.Legal last call) := by
  have covered : host.Covered guest reached :=
    @Runs.kept_of_moves _ (Moves host) (fun state => host.Covered state.1 state.2)
      (fun _ _ moves covered => moves.covered covered) _ _ run (Host.Covered.of_null rfl)
  refine ⟨covered, fun on value final last recovering => ?_, fun on grounded op left final last
    running call => Op.calls_legal covered ⟨on, grounded⟩ running⟩
  obtain ⟨⟨eased, kept⟩, ready⟩ := (recover_recovers guest reached covered).at_end recovering
  have lowered : final.listOpen = false := ready (eased.recovery.trans on)
  refine ⟨kept, fun held => Bool.eq_false_iff.mpr fun opened => ?_⟩
  exact absurd ((kept held).1 opened) (by simp [lowered])

/-- An answer that says nothing. -/
def Method.blank : (method : Method) → method.Answer
  | computeListBegin => (0 : ℤ)
  | bufferUpdate .. | bufferCopy .. | bufferClear .. => (0 : ℤ)
  | bufferGetData _ _ size => List.replicate size 0
  | uniformSetIsValid _ => true
  | shaderCreateFromSpirv _ | computePipelineCreate _ => Variant.rid 1
  | storageBufferCreate .. | uniformBufferCreate .. | uniformSetCreate .. => Variant.rid 1
  | limitGet _ | getMemoryUsage _ => (0 : ℤ)
  | getCapturedTimestampsCount | getCapturedTimestampGpuTime _ => (0 : ℤ)
  | getDeviceName => ""
  | computeListBindComputePipeline .. | computeListBindUniformSet .. => ()
  | computeListDispatch .. | computeListAddBarrier _ | computeListEnd => ()
  | submit | sync | freeRid _ | free | captureTimestamp _ => ()

/-- An answer of a host without a rendering server. -/
def HostCall.blank : (call : HostCall) → call.Answer
  | device _ method => method.blank
  | singleton _ | instantiate _ => (2 : ℕ)
  | createLocalRenderingDevice _ => Variant.other
  | getProcessFrames _ => (0 : ℤ)
  | makePermanent index => -index
  | setStageBytecode .. | setUniformType .. | setBinding .. | addId .. | vstoreGlobal _ => ()

/-- What a call does to the open lists and the devices in flight. -/
def HostCall.effect : HostCall → (ℕ → Bool) × (ℕ → Bool) → (ℕ → Bool) × (ℕ → Bool)
  | device address .computeListBegin, (lists, flights) =>
      (Function.update lists address true, flights)
  | device address .computeListEnd, (lists, flights) =>
      (Function.update lists address false, flights)
  | device address .submit, (lists, flights) => (lists, Function.update flights address true)
  | device address .sync, (lists, flights) => (lists, Function.update flights address false)
  | _, world => world

/-- A host that knows of each device only whether it has an open list and is in flight. -/
def flagsHost : Host ((ℕ → Bool) × (ℕ → Bool)) where
  answers call world := (call.blank, call.effect world)
  listOpen world address := world.1 address
  submitted world address := world.2 address
  opens call world address other opened := by
    cases call with
    | device at_address method =>
      cases method with
      | computeListBegin =>
        have apart : address ≠ at_address := fun same => other (by rw [same])
        simpa [HostCall.effect, apart] using opened
      | computeListEnd =>
        by_cases same : address = at_address
        · simp [HostCall.effect, same] at opened
        · simpa [HostCall.effect, same] using opened
      | _ => exact opened
    | _ => exact opened
  ends world address := by simp [HostCall.effect]
  submits call world address other flying := by
    cases call with
    | device at_address method =>
      cases method with
      | submit =>
        have apart : address ≠ at_address := fun same => other (by rw [same])
        simpa [HostCall.effect, apart] using flying
      | sync =>
        by_cases same : address = at_address
        · simp [HostCall.effect, same] at flying
        · simpa [HostCall.effect, same] using flying
      | _ => exact flying
    | _ => exact flying
  syncs world address := by simp [HostCall.effect]
  creates server world address made := by cases made

/-- All devices of the host are idle. -/
def allIdle : (ℕ → Bool) × (ℕ → Bool) := (fun _ => false, fun _ => false)

/-- The adoption of a device, from a fresh guest. -/
theorem adopted_moves : Moves flagsHost ({}, allIdle) ({ rd := 1 }, allIdle) :=
  ⟨.adopt 1, .done (), .memory (.memory (.memory (.memory (.memory .here)))), nofun,
    fun _ _ => ⟨rfl, rfl⟩⟩

/-- A list is begun and the call killed before it stores the handle: the flag covers the list, and
the next call may record once it is ended. -/
theorem killed_begin_covered :
    flagsHost.Covered { rd := 1, step := "compute_list_begin", listOpen := true }
        (Function.update (fun _ => false) 1 true, fun _ => false) ∧
      flagsHost.listOpen (Function.update (fun _ => false) 1 true, fun _ => false) 1 = true :=
  ⟨(flags_cover_killed_calls flagsHost
    ((Relation.ReflTransGen.single adopted_moves).tail
      ⟨.listBegin, _, .memory (.memory (.memory (.memory (.host .here)))), nofun, nofun⟩)).1, rfl⟩

/-- A submission is killed before its flag is stored: the device is in flight and the guest does
not know, so its next list is begun on a device that is processing. -/
theorem killed_submit_uncovered :
    ∃ (guest : Device) (reached : (ℕ → Bool) × (ℕ → Bool)) (left : Guest Unit),
      Reaches flagsHost.answers (Op.adopt 1).code {} allIdle (.done ()) { rd := 1 } allIdle ∧
        Reaches flagsHost.answers Op.submit.code { rd := 1 } allIdle left guest reached ∧
        ¬ flagsHost.Covered guest reached ∧ guest.Clear ∧
        ∃ (rest : Guest Unit) (final : Device) (last : (ℕ → Bool) × (ℕ → Bool)),
          Reaches flagsHost.answers Op.listBegin.code guest reached rest final last ∧
            rest.next = some (.device 1 .computeListBegin) ∧
            ¬ flagsHost.Legal last (.device 1 .computeListBegin) := by
  refine ⟨{ rd := 1, step := "submit" }, (fun _ => false, Function.update (fun _ => false) 1 true),
    storeSubmitted, .memory (.memory (.memory (.memory (.memory .here)))),
    .memory (.memory (.memory (.host .here))), ?_, ⟨rfl, rfl⟩,
    _, _, _, .memory (.memory (.memory (.memory .here))), rfl, ?_⟩
  · intro covered
    exact Bool.false_ne_true ((covered Nat.one_ne_zero).2 rfl)
  · intro legal
    exact Bool.false_ne_true (legal rfl).2.symm

end DressOn.Rdc
