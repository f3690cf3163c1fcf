import Mathlib.Data.List.Perm.Basic
import Mathlib.Logic.Function.Basic
import Mathlib.Order.Nat

/-!
# Objects behind handles that are used again

A server gives every object a number of its own and a handle. A handle that was forgotten may come
back for another object. Freeing an object also frees what depends on it. A server is sound when
every object was freed at most once, and those that are gone exactly once.
-/

namespace DressOn.Handles

/-- The objects of a server, how often each was freed, and the handles that are out. -/
structure Server (Handle Object : Type*) where
  next : ℕ := 0
  live : ℕ → Option Object := fun _ => none
  frees : ℕ → ℕ := fun _ => 0
  held : Handle → Option ℕ := fun _ => none
  faults : ℕ := 0

namespace Server

section

variable {Handle Object : Type*} (deps : Object → List ℕ)

/-- The object behind a handle. -/
def at? (server : Server Handle Object) (handle : Handle) : Option Object :=
  (server.held handle).bind server.live

/-- An object goes with a number: its own, or one that it depends on. -/
def Goes (server : Server Handle Object) (number n : ℕ) : Prop :=
  n = number ∨ ∃ object, server.live n = some object ∧ number ∈ deps object

instance (server : Server Handle Object) (number n : ℕ) : Decidable (server.Goes deps number n) :=
  match found : server.live n with
  | none => decidable_of_iff (n = number) (by simp [Goes, found])
  | some object =>
      decidable_of_iff (n = number ∨ number ∈ deps object) (by simp [Goes, found])

/-- Free an object and all that depends on it. -/
def free (server : Server Handle Object) (number : ℕ) : Server Handle Object :=
  { server with
    live := fun n => if server.Goes deps number n then none else server.live n
    frees := fun n => server.frees n + if server.Goes deps number n then 1 else 0 }

/-- Every object that is gone was freed once, every other one never. -/
structure Sound (server : Server Handle Object) : Prop where
  unborn : ∀ n, server.next ≤ n → server.live n = none ∧ server.frees n = 0
  once : ∀ n < server.next, server.frees n = if (server.live n).isSome then 0 else 1
  held_lt : ∀ handle n, server.held handle = some n → n < server.next
  held_inj : ∀ handle other n, server.held handle = some n → server.held other = some n →
    handle = other
  deps_lt : ∀ n object, server.live n = some object → ∀ number ∈ deps object,
    number < server.next
  faultless : server.faults = 0

/-- The empty server is sound. -/
theorem Sound.empty : Sound deps ({} : Server Handle Object) :=
  ⟨fun _ _ => ⟨rfl, rfl⟩, nofun, nofun, nofun, nofun, rfl⟩

variable {deps} {server : Server Handle Object} {object : Object} {number n : ℕ}

/-- What is live after a free was live before it and does not go. -/
theorem live_free_eq_some :
    (server.free deps number).live n = some object ↔
      server.live n = some object ∧ ¬ server.Goes deps number n := by
  by_cases goes : server.Goes deps number n <;> simp [free, goes]

/-- A live object is freed. -/
theorem Sound.free (sound : Sound deps server) (alive : (server.live number).isSome) :
    Sound deps (server.free deps number) := by
  refine ⟨fun n born => ?_, fun n born => ?_, sound.held_lt, sound.held_inj,
    fun n object live => ?_, sound.faultless⟩
  · obtain ⟨gone, never⟩ := sound.unborn n born
    have stays : ¬ server.Goes deps number n := by
      rintro (rfl | ⟨object, live, -⟩)
      · simp [gone] at alive
      · simp [gone] at live
    simp [Server.free, stays, gone, never]
  · have before := sound.once n born
    by_cases goes : server.Goes deps number n
    · have live : (server.live n).isSome := by
        rcases goes with rfl | ⟨object, live, -⟩
        · exact alive
        · simp [live]
      simp [Server.free, goes, before, live]
    · simpa [Server.free, goes] using before
  · exact sound.deps_lt n object (live_free_eq_some.mp live).1

variable {handle : Handle}

/-- A handle names an object through the number it holds. -/
theorem at?_eq_some : server.at? handle = some object ↔
    ∃ n, server.held handle = some n ∧ server.live n = some object := by
  simp [at?, Option.bind_eq_some_iff]

/-- The object behind one handle depends on the one behind another. -/
def Depends (deps : Object → List ℕ) (server : Server Handle Object) (needer needed : Handle) :
    Prop :=
  ∃ object number, server.at? needer = some object ∧ server.held needed = some number ∧
    number ∈ deps object

/-- What is behind a handle that is not lost stays behind it. -/
def Keeps (lost : Handle → Prop) (before after : Server Handle Object) : Prop :=
  ∀ handle n object, ¬ lost handle → before.held handle = some n → before.live n = some object →
    after.held handle = some n ∧ after.live n = some object

namespace Keeps

variable {lost more : Handle → Prop} {before after last : Server Handle Object}

protected theorem refl (server : Server Handle Object) : Keeps lost server server :=
  fun _ _ _ _ holds live => ⟨holds, live⟩

/-- Two stretches compose. -/
protected theorem trans (first : Keeps lost before after) (second : Keeps more after last) :
    Keeps (fun handle => lost handle ∨ more handle) before last := by
  intro handle n object stays holds live
  rw [not_or] at stays
  obtain ⟨holds, live⟩ := first handle n object stays.1 holds live
  exact second handle n object stays.2 holds live

/-- More may be lost than is. -/
theorem mono (keeps : Keeps lost before after) (implies : ∀ handle, lost handle → more handle) :
    Keeps more before after :=
  fun handle n object stays => keeps handle n object fun gone => stays (implies _ gone)

theorem at? (keeps : Keeps lost before after) (stays : ¬ lost handle)
    (there : before.at? handle = some object) : after.at? handle = some object := by
  obtain ⟨n, holds, live⟩ := at?_eq_some.mp there
  exact at?_eq_some.mpr ⟨n, keeps handle n object stays holds live⟩

end Keeps

/-- The handles account for every live object, and each of them is out. -/
structure Ledger (deps : Object → List ℕ) (server : Server Handle Object)
    (handles : List Handle) : Prop where
  sound : Sound deps server
  distinct : handles.Nodup
  out : ∀ handle ∈ handles, ∃ object, server.at? handle = some object
  tracked : ∀ n object, server.live n = some object → ∃ handle ∈ handles,
    server.held handle = some n

namespace Ledger

/-- An empty server is accounted for by no handles. -/
theorem empty : Ledger deps ({} : Server Handle Object) [] :=
  ⟨.empty deps, .nil, nofun, nofun⟩

variable {handles rest : List Handle}

/-- The order of the handles does not matter. -/
theorem perm (ledger : Ledger deps server handles) (perm : handles.Perm rest) :
    Ledger deps server rest :=
  ⟨ledger.sound, perm.nodup_iff.mp ledger.distinct,
    fun handle member => ledger.out handle (perm.mem_iff.mpr member),
    fun n object live =>
      have ⟨handle, member, holds⟩ := ledger.tracked n object live
      ⟨handle, perm.mem_iff.mp member, holds⟩⟩

/-- A handle that is not out is not in the ledger. -/
theorem not_mem (ledger : Ledger deps server handles) (unused : server.held handle = none) :
    handle ∉ handles := fun member => by
  obtain ⟨object, there⟩ := ledger.out handle member
  simp [Server.at?, unused] at there

/-- A handle with a live object is in the ledger. -/
theorem mem (ledger : Ledger deps server handles) (there : server.at? handle = some object) :
    handle ∈ handles := by
  obtain ⟨n, holds, live⟩ := at?_eq_some.mp there
  obtain ⟨other, member, same⟩ := ledger.tracked n object live
  exact ledger.sound.held_inj _ _ _ same holds ▸ member

end Ledger

end

section

variable {Handle Object : Type*} [DecidableEq Handle] {deps : Object → List ℕ}

/-- A new object under a handle. -/
def create (server : Server Handle Object) (handle : Handle) (object : Object) :
    Server Handle Object :=
  { server with
    next := server.next + 1
    live := Function.update server.live server.next (some object)
    held := Function.update server.held handle (some server.next) }

/-- Take a handle back. -/
def forget (server : Server Handle Object) (handle : Handle) : Server Handle Object :=
  { server with held := Function.update server.held handle none }

/-- Free the object behind a handle and take the handle back. -/
def release (deps : Object → List ℕ) (server : Server Handle Object) (handle : Handle) :
    Server Handle Object :=
  match server.held handle with
  | some number => (server.free deps number).forget handle
  | none => { server with faults := server.faults + 1 }

variable {server : Server Handle Object} {handle other : Handle} {object : Object} {number n : ℕ}

@[simp] theorem held_create_self :
    (server.create handle object).held handle = some server.next := by simp [create]

/-- A new object leaves the other handles alone. -/
theorem held_create_of_ne (apart : other ≠ handle) :
    (server.create handle object).held other = server.held other := by simp [create, apart]

@[simp] theorem live_create_self :
    (server.create handle object).live server.next = some object := by simp [create]

/-- A new object leaves the others alone. -/
theorem live_create_of_ne (apart : n ≠ server.next) :
    (server.create handle object).live n = server.live n := by simp [create, apart]

@[simp] theorem at?_create_self : (server.create handle object).at? handle = some object := by
  simp [at?]

@[simp] theorem live_forget : (server.forget handle).live = server.live := rfl

/-- A forgotten handle leaves the others alone. -/
theorem held_forget_of_ne (apart : other ≠ handle) :
    (server.forget handle).held other = server.held other := by simp [forget, apart]

@[simp] theorem held_forget_self : (server.forget handle).held handle = none := by simp [forget]

/-- A handle that is out after another was taken back was out before. -/
theorem held_of_held_forget (holds : (server.forget handle).held other = some n) :
    server.held other = some n := by
  by_cases same : other = handle
  · simp [same] at holds
  · rwa [held_forget_of_ne same] at holds

theorem release_eq (holds : server.held handle = some number) :
    server.release deps handle = (server.free deps number).forget handle := by
  simp [release, holds]

namespace Sound

/-- A new object under a handle that is not out. -/
theorem create (sound : Sound deps server) (known : ∀ number ∈ deps object, number < server.next) :
    Sound deps (server.create handle object) := by
  have below {other : Handle} {n : ℕ} (apart : other ≠ handle)
      (holds : (server.create handle object).held other = some n) : n < server.next := by
    rw [held_create_of_ne apart] at holds
    exact sound.held_lt _ _ holds
  have own {n : ℕ} (holds : (server.create handle object).held handle = some n) :
      n = server.next := by
    rw [held_create_self, Option.some.injEq] at holds
    exact holds.symm
  refine ⟨fun n born => ?_, fun n born => ?_, fun other n holds => ?_,
    fun one other n first second => ?_, fun n found live number needs => ?_, sound.faultless⟩
  · have later : server.next < n := born
    rw [live_create_of_ne later.ne']
    exact sound.unborn n later.le
  · rcases Nat.lt_succ_iff_lt_or_eq.mp born with earlier | rfl
    · rw [live_create_of_ne earlier.ne]
      exact sound.once n earlier
    · rw [live_create_self]
      exact (sound.unborn _ le_rfl).2
  · by_cases same : other = handle
    · exact (own (same ▸ holds)) ▸ Nat.lt_succ_self _
    · exact (below same holds).trans (Nat.lt_succ_self _)
  · by_cases left : one = handle <;> by_cases right : other = handle
    · exact left.trans right.symm
    · exact absurd (own (left ▸ first)) (below right second).ne
    · exact absurd (own (right ▸ second)) (below left first).ne
    · rw [held_create_of_ne left] at first
      rw [held_create_of_ne right] at second
      exact sound.held_inj _ _ _ first second
  · by_cases self : n = server.next
    · rw [self, live_create_self, Option.some.injEq] at live
      subst live
      exact (known number needs).trans (Nat.lt_succ_self _)
    · rw [live_create_of_ne self] at live
      exact (sound.deps_lt n found live number needs).trans (Nat.lt_succ_self _)

/-- Forgetting a handle keeps the server sound. -/
theorem forget (sound : Sound deps server) : Sound deps (server.forget handle) :=
  ⟨sound.unborn, sound.once, fun _ _ holds => sound.held_lt _ _ (held_of_held_forget holds),
    fun _ _ _ first second =>
      sound.held_inj _ _ _ (held_of_held_forget first) (held_of_held_forget second),
    sound.deps_lt, sound.faultless⟩

end Sound

/-- Handles that are taken back leave the objects and the other handles as they are. -/
theorem foldl_forget (lost : List Handle) (server : Server Handle Object) :
    (lost.foldl forget server).live = server.live ∧
      ∀ handle, (lost.foldl forget server).held handle =
        if handle ∈ lost then none else server.held handle := by
  induction lost generalizing server with
  | nil => simp
  | cons first lost inductionHypothesis =>
    obtain ⟨live, held⟩ := inductionHypothesis (server.forget first)
    refine ⟨live, fun handle => ?_⟩
    rw [List.foldl_cons, held]
    by_cases same : handle = first
    · simp [same]
    · simp [same, held_forget_of_ne]

/-- A new object leaves the others as they are. -/
theorem Keeps.create (sound : Sound deps server) (unused : server.held handle = none) :
    Keeps (fun _ => False) server (server.create handle object) := by
  intro other n found _ holds live
  have apart : other ≠ handle := by
    rintro rfl
    simp [unused] at holds
  rw [held_create_of_ne apart, live_create_of_ne (sound.held_lt _ _ holds).ne]
  exact ⟨holds, live⟩

namespace Ledger

variable {handles rest lost : List Handle}

/-- A new object joins the ledger. -/
theorem create (ledger : Ledger deps server handles) (unused : server.held handle = none)
    (known : ∀ number ∈ deps object, number < server.next) :
    Ledger deps (server.create handle object) (handle :: handles) := by
  have keeps : Keeps (fun _ => False) server (server.create handle object) :=
    .create ledger.sound unused
  refine ⟨ledger.sound.create known, List.nodup_cons.mpr ⟨ledger.not_mem unused, ledger.distinct⟩,
    fun other member => ?_, fun n found live => ?_⟩
  · rcases List.mem_cons.mp member with rfl | member
    · exact ⟨object, at?_create_self⟩
    · obtain ⟨found, there⟩ := ledger.out other member
      exact ⟨found, keeps.at? id there⟩
  · by_cases self : n = server.next
    · exact ⟨handle, List.mem_cons_self, self ▸ held_create_self⟩
    · rw [live_create_of_ne self] at live
      obtain ⟨other, member, holds⟩ := ledger.tracked n found live
      exact ⟨other, List.mem_cons_of_mem _ member, (keeps other n found id holds live).1⟩

/-- The handles of all that depends on an object are taken back, then the object is freed: what
is left is the rest of the ledger. -/
theorem retire (ledger : Ledger deps server (handle :: (lost ++ rest)))
    (goes : ∀ other ∈ lost, server.Depends deps other handle)
    (stays : ∀ other ∈ rest, ¬ server.Depends deps other handle) :
    Ledger deps ((lost.foldl forget server).release deps handle) rest ∧
      Keeps (fun other => other = handle ∨ other ∈ lost) server
        ((lost.foldl forget server).release deps handle) := by
  obtain ⟨live_lost, held_lost⟩ := foldl_forget lost server
  obtain ⟨object, there⟩ := ledger.out handle List.mem_cons_self
  obtain ⟨number, holds, alive⟩ := at?_eq_some.mp there
  obtain ⟨apart, distinct⟩ := List.nodup_cons.mp ledger.distinct
  obtain ⟨-, distinct, disjoint⟩ := List.nodup_append.mp distinct
  have holds_lost : (lost.foldl forget server).held handle = some number := by
    rw [held_lost, if_neg fun member => apart (List.mem_append_left _ member), holds]
  have sound_lost : Sound deps (lost.foldl forget server) :=
    List.foldlRecOn lost forget ledger.sound fun server sound _ _ => sound.forget
  have goes_iff (n : ℕ) :
      (lost.foldl forget server).Goes deps number n ↔ server.Goes deps number n := by
    rw [Goes, Goes, live_lost]
  rw [release_eq holds_lost]
  have live_after (n : ℕ) (found : Object) :
      (((lost.foldl forget server).free deps number).forget handle).live n = some found ↔
        server.live n = some found ∧ ¬ server.Goes deps number n := by
    rw [live_forget, live_free_eq_some, live_lost, goes_iff]
  have held_after (other : Handle) (remains : ¬ (other = handle ∨ other ∈ lost)) :
      (((lost.foldl forget server).free deps number).forget handle).held other
        = server.held other := by
    rw [not_or] at remains
    rw [held_forget_of_ne remains.1]
    exact (held_lost other).trans (if_neg remains.2)
  have keeps : Keeps (fun other => other = handle ∨ other ∈ lost) server
      (((lost.foldl forget server).free deps number).forget handle) := by
    intro other n found remains out living
    refine ⟨(held_after other remains).trans out, (live_after n found).mpr ⟨living, ?_⟩⟩
    have seen : server.at? other = some found := at?_eq_some.mpr ⟨n, out, living⟩
    rintro (rfl | ⟨needer, same, needs⟩)
    · exact remains (.inl (ledger.sound.held_inj _ _ _ out holds))
    · obtain rfl : found = needer := Option.some.inj (living.symm.trans same)
      have member : other ∈ rest := by simpa [not_or.mp remains] using ledger.mem seen
      exact stays other member ⟨found, number, seen, holds, needs⟩
  refine ⟨⟨?_, distinct, fun other member => ?_, fun n found living => ?_⟩, keeps⟩
  · exact (sound_lost.free (by simp [live_lost, alive])).forget
  · obtain ⟨found, seen⟩ := ledger.out other (by simp [member])
    refine ⟨found, keeps.at? ?_ seen⟩
    rintro (rfl | lost)
    · exact apart (List.mem_append_right _ member)
    · exact disjoint _ lost _ member rfl
  · obtain ⟨living, remains⟩ := (live_after n found).mp living
    obtain ⟨other, member, out⟩ := ledger.tracked n found living
    have unlost : ¬ (other = handle ∨ other ∈ lost) := by
      rintro (rfl | lost)
      · exact remains (.inl (Option.some.inj (out.symm.trans holds)))
      · obtain ⟨needer, needed, seen, same, needs⟩ := goes other lost
        obtain rfl : needed = number := Option.some.inj (same.symm.trans holds)
        obtain ⟨m, out', living'⟩ := at?_eq_some.mp seen
        obtain rfl : n = m := Option.some.inj (out.symm.trans out')
        exact remains (.inr ⟨needer, living', needs⟩)
    refine ⟨other, by simpa [not_or.mp unlost] using member, ?_⟩
    rw [held_after other unlost, out]

/-- A new object that is freed at once leaves the ledger as it was. -/
theorem create_release (ledger : Ledger deps server handles) (unused : server.held handle = none)
    (known : ∀ number ∈ deps object, number < server.next) :
    Ledger deps ((server.create handle object).release deps handle) handles ∧
      Keeps (fun _ => False) server ((server.create handle object).release deps handle) := by
  have keeps : Keeps (fun _ => False) server (server.create handle object) :=
    .create ledger.sound unused
  have alone : Ledger deps (server.create handle object) (handle :: ([] ++ handles)) :=
    ledger.create unused known
  have free (other : Handle) (member : other ∈ handles) :
      ¬ (server.create handle object).Depends deps other handle := by
    rintro ⟨found, number, there, holds, needs⟩
    obtain ⟨before, seen⟩ := ledger.out other member
    obtain rfl : found = before := Option.some.inj (there.symm.trans (keeps.at? id seen))
    obtain ⟨n, -, live⟩ := at?_eq_some.mp seen
    rw [held_create_self, Option.some.injEq] at holds
    exact (ledger.sound.deps_lt n found live number needs).ne holds.symm
  obtain ⟨after, keeps_after⟩ := alone.retire nofun free
  refine ⟨after, fun other n found _ holds live => ?_⟩
  obtain ⟨holds', live'⟩ := keeps other n found id holds live
  refine keeps_after other n found ?_ holds' live'
  rintro (rfl | member)
  · simp [unused] at holds
  · cases member

/-- Handles that are freed one after another, no later one depending on an earlier one. -/
theorem releases (ledger : Ledger deps server (lost ++ rest))
    (ordered : (lost ++ rest).Pairwise fun earlier later => ¬ server.Depends deps later earlier) :
    Ledger deps (lost.foldl (release deps) server) rest ∧
      Keeps (· ∈ lost) server (lost.foldl (release deps) server) := by
  induction lost generalizing server with
  | nil => exact ⟨ledger, .refl server⟩
  | cons first lost inductionHypothesis =>
    obtain ⟨free, ordered⟩ := List.pairwise_cons.mp ordered
    obtain ⟨apart, -⟩ := List.nodup_cons.mp ledger.distinct
    have alone : Ledger deps server (first :: ([] ++ (lost ++ rest))) := ledger
    obtain ⟨after, keeps⟩ := alone.retire nofun free
    have keeps : Keeps (· = first) server (server.release deps first) :=
      keeps.mono fun other gone => gone.resolve_right nofun
    have same {other : Handle} (member : other ∈ lost ++ rest) :
        (server.release deps first).held other = server.held other ∧
          (server.release deps first).at? other = server.at? other := by
      have stays : other ≠ first := fun same => apart (same ▸ member)
      obtain ⟨object, there⟩ := ledger.out other (List.mem_cons_of_mem _ member)
      obtain ⟨n, holds, live⟩ := at?_eq_some.mp there
      exact ⟨(keeps other n object stays holds live).1.trans holds.symm,
        (keeps.at? stays there).trans there.symm⟩
    have ordered_after := ordered.imp_of_mem fun {earlier later} early late free =>
      show ¬ (server.release deps first).Depends deps later earlier by
        rwa [Depends, (same early).1, (same late).2]
    obtain ⟨final, keeps_rest⟩ := inductionHypothesis after ordered_after
    exact ⟨final, (keeps.trans keeps_rest).mono fun other gone => List.mem_cons.mpr gone⟩

end Ledger

end

end Server

end DressOn.Handles
