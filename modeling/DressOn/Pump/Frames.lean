import Mathlib.Order.Nat
import DressOn.Pump.Protocol

/-!
# A wait is over on a later frame

Every pump call is noted with its frame. Once the guest has given a frame back there is no other
call in this frame.
-/

namespace DressOn.Pump

variable {σ : Type} {setting : Setting} {job : Job σ} {world : World σ}

/-- What gives the frame back. -/
def Kind.EndsFrame (kind : Kind) : Prop := kind = .waitGpu ∨ kind = .coop

/-- After a wait the guest is resumed on a later frame. -/
def LaterFrames (pumps : List (ℕ × Kind)) : Prop :=
  pumps.Pairwise fun earlier later => earlier.2.EndsFrame → earlier.1 < later.1

/-- The frames of the pump calls so far. Within a frame no wait was of this frame. -/
structure Framed (world : World σ) : Prop where
  later : LaterFrames world.pumps
  past : ∀ entry ∈ world.pumps, entry.1 ≤ world.frames
  within : world.budget ≠ none → ∀ entry ∈ world.pumps, entry.2.EndsFrame →
    entry.1 < world.frames

/-- An upload is carried on within a frame, without a pump call. -/
theorem carryUpload_frames (world : World σ) (budget : ℤ) :
    (setting.carryUpload world budget).1.pumps = world.pumps ∧
      (setting.carryUpload world budget).1.frames = world.frames := by
  unfold Setting.carryUpload
  split
  next => exact ⟨rfl, rfl⟩
  split
  next => exact ⟨rfl, rfl⟩
  split
  next => exact ⟨rfl, rfl⟩
  dsimp only
  split <;> exact ⟨rfl, rfl⟩

/-- A result is served within a frame; one that ends the frame takes the budget. -/
theorem serve_frames (r : Result) (world : World σ) (budget : ℤ) :
    (setting.serve r world budget).pumps = world.pumps ∧
      (setting.serve r world budget).frames = world.frames ∧
      (r.kind.EndsFrame → (setting.serve r world budget).budget = none) := by
  unfold Setting.serve
  split
  next kind => exact ⟨rfl, rfl, fun _ => rfl⟩
  next kind => exact ⟨rfl, rfl, fun _ => rfl⟩
  next kind => exact ⟨rfl, rfl, fun _ => rfl⟩
  next kind => exact ⟨rfl, rfl, fun _ => rfl⟩
  next kind =>
    split
    · exact ⟨rfl, rfl, fun _ => rfl⟩
    · exact ⟨rfl, rfl, fun ends => by simp [kind, Kind.EndsFrame] at ends⟩
  next kind =>
    obtain ⟨pumps, frames⟩ := @carryUpload_frames σ setting { world with
      up := some { path := r.text, foff := r.a0, n := r.a1, doff := r.a2, rid := r.rid } } budget
    dsimp only
    split
    · exact ⟨pumps, frames, fun _ => rfl⟩
    · exact ⟨pumps, frames, fun ends => by simp [kind, Kind.EndsFrame] at ends⟩
  next kind => exact ⟨rfl, rfl, fun _ => rfl⟩

/-- A new frame is later than every call so far. -/
theorem Framed.beginFrame (framed : Framed world) : Framed (setting.beginFrame world) := by
  have same : (setting.beginFrame world).pumps = world.pumps ∧
      (setting.beginFrame world).frames = world.frames + 1 := by
    have kept := @carryUpload_frames σ setting { world with frames := world.frames + 1 }
      setting.capBytes
    unfold Setting.beginFrame
    dsimp only
    split
    · exact ⟨rfl, rfl⟩
    · split <;> exact kept
  refine ⟨same.1 ▸ framed.later, fun entry member => ?_, fun _ entry member _ => ?_⟩
  · rw [same.2]
    exact (framed.past entry (same.1 ▸ member)).trans (Nat.le_succ _)
  · rw [same.2]
    exact Nat.lt_succ_of_le (framed.past entry (same.1 ▸ member))

/-- A pump call is noted with its frame. -/
theorem Framed.pump (framed : Framed world) {budget : ℤ} (within : world.budget = some budget) :
    Framed (setting.pump job world budget) := by
  obtain ⟨pumps, frames, ends⟩ := @serve_frames σ setting
    (setting.step job world.guest world.feed).2 { world with
      guest := (setting.step job world.guest world.feed).1
      feed := []
      pumps := world.pumps ++ [(world.frames, (setting.step job world.guest world.feed).2.kind)] }
    budget
  have earlier := framed.within (by rw [within]; nofun)
  have called : (setting.pump job world budget).pumps =
      world.pumps ++ [(world.frames, (setting.step job world.guest world.feed).2.kind)] := pumps
  have same : (setting.pump job world budget).frames = world.frames := frames
  refine ⟨?_, fun entry member => ?_, fun goes entry member gives => ?_⟩
  · rw [called]
    refine List.pairwise_append.mpr ⟨framed.later, List.pairwise_singleton _ _, ?_⟩
    intro entry member last is_last gives
    obtain rfl := List.mem_singleton.mp is_last
    exact earlier entry member gives
  · rw [called, List.mem_append, List.mem_singleton] at member
    rw [same]
    rcases member with member | rfl
    · exact framed.past entry member
    · exact le_rfl
  · rw [called, List.mem_append, List.mem_singleton] at member
    rw [same]
    rcases member with member | rfl
    · exact earlier entry member gives
    · exact absurd (ends gives) goes

/-- A turn of the host is pumps within a frame. -/
theorem Framed.turn (framed : Framed world) : Framed (setting.turn job world) := by
  unfold Setting.turn
  split
  next =>
    split
    next => exact framed.beginFrame
    next within => exact framed.pump within
  next => exact framed

end DressOn.Pump
