import DressOn.Drape.SceneArrays
import Mathlib.Data.List.GetD

/-!
# Fit sets one after the other

`scene_fit_set` replaces the fit set and the anchor loop behind the pins. What an earlier call left
is told apart from the pins by the counts alone, so after any calls the pins are where they were.
-/

namespace DressOn.Drape

universe u

open DressOn.Avbd (Vec3)
open Checked (SquareRoot)

/-- The arguments of `scene_fit_set`. -/
structure FitCall (α : Type*) where
  verts : List Int
  k : α
  gap : α
  refresh : Int
  similarity : Bool
  anchor : List Int
  restEvery : Int
  settle : Int
  anchorK : α

/-- Writing a run of cells changes these alone. -/
theorem foldl_set_range' {β : Type*} (f : Nat → β) (before run after : List β) :
    (List.range' before.length run.length).foldl (fun cells a => cells.set a (f a))
        (before ++ run ++ after) =
      before ++ (List.range' before.length run.length).map f ++ after := by
  induction run generalizing before with
  | nil => simp
  | cons cell run inductionHypothesis =>
    have step := inductionHypothesis (before ++ [f before.length])
    rw [List.length_append, List.length_singleton] at step
    rw [List.length_cons, List.range'_succ, List.foldl_cons, List.map_cons]
    simpa using step

/-- A run of cells read one by one. -/
theorem map_range'_getD {β : Type*} (default : β) {l : List β} {a n : Nat}
    (inside : a + n ≤ l.length) :
    (List.range' a n).map (fun i => l.getD i default) = (l.drop a).take n := by
  apply List.ext_getElem
  · simp only [List.length_map, List.length_range', List.length_take, List.length_drop]
    omega
  · intro i before _
    rw [List.length_map, List.length_range'] at before
    have bound : a + i < l.length := by omega
    simp [bound]

namespace DrapeScene

variable {σ α : Type u}

/-- The error of `scene_fit_set`, if it refuses. -/
def fitRefusal (s : DrapeScene σ α) (call : FitCall α) : Option String :=
  if s.nV = 0 then some "no scene"
  else if call.refresh < 1 ∨ call.restEvery < 1 ∨ call.settle < 0 then
    some "refresh and restEvery must be >= 1, settle >= 0"
  else if call.verts.any (outside s.nV) then some "fit vertex index out of range"
  else if call.anchor.any (outside s.nV) then some "anchor vertex index out of range"
  else none

theorem length_pins (s : DrapeScene σ α) : (s.attachVert.take s.nPin).length = s.nPin := by
  have := s.nPin_add
  rw [List.length_take]
  omega

theorem length_pinTargets (s : DrapeScene σ α) :
    (s.attachFixed.take (3 * s.nPin)).length = 3 * s.nPin := by
  have := s.nPin_add
  have := s.laid
  rw [List.length_take]
  omega

/-- Two scenes have the same mesh and the same pins. -/
structure SamePins (scene s : DrapeScene σ α) : Prop where
  nV : s.nV = scene.nV
  rest : s.rest = scene.rest
  vertArea : s.vertArea = scene.vertArea
  nPin : s.nPin = scene.nPin
  pins : s.attachVert.take s.nPin = scene.attachVert.take scene.nPin
  fixed : s.attachFixed.take (3 * s.nPin) = scene.attachFixed.take (3 * scene.nPin)

theorem SamePins.refl (s : DrapeScene σ α) : SamePins s s := ⟨rfl, rfl, rfl, rfl, rfl, rfl⟩

variable [Field α]

/-- The scene with the attachments behind its pins replaced. -/
def refit (s : DrapeScene σ α) (call : FitCall α) : DrapeScene σ α :=
  let verts := call.verts.map Int.toNat
  let anchor := call.anchor.map Int.toNat
  { s with
    fitAnchor := anchor
    attachVert := s.attachVert.take s.nPin ++ verts ++ anchor
    attachFixed := s.attachFixed.take (3 * s.nPin) ++ targets s.rest verts ++ targets s.rest anchor
    nFit := call.verts.length
    nAnchorAtt := call.anchor.length
    anchorK := call.anchorK
    fitK := call.k
    fitGap := call.gap
    fitRefresh := call.refresh
    fitSimilarity := call.similarity
    fitRestEvery := call.restEvery
    fitSettle := call.settle
    laid := by
      simp only [List.length_append, length_pins, length_pinTargets, length_targets]
      ring
    counts := by
      simp only [verts, anchor, List.length_append, List.length_map]
      omega }

/-- `scene_fit_set`: the scene, and the error of a call that is refused. -/
def sceneFitSet (s : DrapeScene σ α) (call : FitCall α) : DrapeScene σ α × Option String :=
  match s.fitRefusal call with
  | some err => (s, some err)
  | none => (s.refit call, none)

/-- The scene after some calls. -/
def afterFitSets (s : DrapeScene σ α) (calls : List (FitCall α)) : DrapeScene σ α :=
  calls.foldl (fun s call => (s.sceneFitSet call).1) s

variable {scene s : DrapeScene σ α} {call : FitCall α}

/-- The pins are as many as before. -/
theorem nPin_refit (s : DrapeScene σ α) (call : FitCall α) : (s.refit call).nPin = s.nPin := by
  have pins := s.length_pins
  simp only [nPin, nAttach, refit, List.length_append, List.length_map] at pins ⊢
  omega

/-- Whether it is refused or not, a call keeps the pins. -/
theorem SamePins.step (same : SamePins scene s) (call : FitCall α) :
    SamePins scene (s.sceneFitSet call).1 := by
  unfold sceneFitSet
  cases s.fitRefusal call with
  | some err => exact same
  | none =>
    have count := nPin_refit s call
    refine ⟨same.nV, same.rest, same.vertArea, count.trans same.nPin, ?_, ?_⟩
    · rw [count, ← same.pins]
      exact (List.append_assoc _ _ _ ▸ List.take_left' s.length_pins :)
    · rw [count, ← same.fixed]
      exact (List.append_assoc _ _ _ ▸ List.take_left' s.length_pinTargets :)

theorem samePins_afterFitSets (s : DrapeScene σ α) (calls : List (FitCall α)) :
    SamePins s (s.afterFitSets calls) := by
  induction calls using List.reverseRecOn with
  | nil => exact .refl s
  | append_singleton calls call inductionHypothesis =>
    rw [afterFitSets, List.foldl_append]
    exact inductionHypothesis.step call

/-- The stiffnesses of the three segments. -/
theorem attachStiffness_eq (s : DrapeScene σ α) (cfg : Upload α) :
    s.attachStiffness cfg =
      List.replicate s.nPin cfg.kAttach ++
        ((s.attachVert.drop s.nPin).take s.nFit).map (fun v => s.fitK * s.vertArea.getD v 0) ++
        List.replicate s.nAnchorAtt s.anchorK := by
  have counts := s.nPin_add
  have total : s.nAttach = s.nPin + (s.nFit + s.nAnchorAtt) := by
    unfold nAttach
    omega
  have last : s.nAttach - (s.nPin + s.nFit) = s.nAnchorAtt := by omega
  have fit := foldl_set_range' (fun a => s.fitK * s.vertArea.getD (s.attachVert.getD a 0) 0)
    (List.replicate s.nPin cfg.kAttach) (List.replicate s.nFit cfg.kAttach)
    (List.replicate s.nAnchorAtt cfg.kAttach)
  have anchor := foldl_set_range' (fun _ => s.anchorK)
    (List.replicate s.nPin cfg.kAttach ++ (List.range' s.nPin s.nFit).map fun a =>
      s.fitK * s.vertArea.getD (s.attachVert.getD a 0) 0)
    (List.replicate s.nAnchorAtt cfg.kAttach) []
  have reads := @map_range'_getD _ 0 s.attachVert s.nPin s.nFit (by omega)
  simp only [List.length_replicate, List.length_append, List.length_map, List.length_range',
    List.append_nil] at fit anchor
  unfold attachStiffness
  rw [last, total, List.replicate_add, List.replicate_add, ← List.append_assoc]
  dsimp only
  rw [fit, anchor, ← reads, List.map_map]
  simp [Function.comp_def, List.map_const']

/-- What a call is given is not negative, so its conversion loses nothing. -/
theorem cast_toNat {nV : Nat} {indices : List Int} (inside : ¬ indices.any (outside nV) = true) :
    (indices.map Int.toNat).map (fun v : Nat => (v : Int)) = indices := by
  rw [List.map_map]
  refine (List.map_congr_left fun v member => ?_).trans (List.map_id _)
  have notOutside : ¬ outside nV v = true := fun yes => inside (List.any_eq_true.2 ⟨v, member, yes⟩)
  simp only [outside, Bool.or_eq_true, decide_eq_true_eq, not_or] at notOutside
  simp only [Function.comp_apply, id_eq]
  omega

/-- The segments of a scene that a call has just replaced. -/
theorem attachStiffness_refit (s : DrapeScene σ α) (call : FitCall α) (cfg : Upload α) :
    (s.refit call).attachStiffness cfg =
      List.replicate s.nPin cfg.kAttach ++
        call.verts.map (fun v => call.k * s.vertArea.getD v.toNat 0) ++
        List.replicate call.anchor.length call.anchorK := by
  rw [attachStiffness_eq, nPin_refit]
  have pins := s.length_pins
  simp only [refit, List.append_assoc]
  rw [List.drop_left' pins, List.take_left' (List.length_map _), List.map_map]
  rfl

/-- What `applyMaterial` leaves in `attachK`. -/
theorem attachK_of_applyMaterial [LinearOrder α] {root : SquareRoot α} {s out : DrapeScene σ α}
    {cfg : Upload α} (applied : s.applyMaterial root cfg = some out) :
    out.attachK = s.attachStiffness cfg := by
  simp only [applyMaterial, Option.bind_eq_bind, Option.bind_eq_some_iff] at applied
  obtain ⟨triK, -, bendK, -, applied⟩ := applied
  cases applied
  rfl

/-- After any calls a call that is accepted leaves the pins, then its fit set, then its anchor loop,
each with its own stiffness; one that is refused leaves the scene as it was. -/
theorem sceneFitSet_lays [LinearOrder α] (scene : DrapeScene σ α) (earlier : List (FitCall α))
    (call : FitCall α) :
    (∀ err, ((scene.afterFitSets earlier).sceneFitSet call).2 = some err →
      ((scene.afterFitSets earlier).sceneFitSet call).1 = scene.afterFitSets earlier) ∧
    (((scene.afterFitSets earlier).sceneFitSet call).2 = none →
      ∃ after, ((scene.afterFitSets earlier).sceneFitSet call).1 = after ∧
        after.attachVert.map (fun v : Nat => (v : Int)) =
          (scene.attachVert.take scene.nPin).map (fun v : Nat => (v : Int)) ++
            call.verts ++ call.anchor ∧
        after.attachFixed =
          scene.attachFixed.take (3 * scene.nPin) ++
            targets scene.rest (call.verts.map Int.toNat) ++
            targets scene.rest (call.anchor.map Int.toNat) ∧
        after.nPin = scene.nPin ∧ after.nFit = call.verts.length ∧
        after.nAnchorAtt = call.anchor.length ∧
        ∀ cfg : Upload α,
          after.attachStiffness cfg =
            List.replicate scene.nPin cfg.kAttach ++
              call.verts.map (fun v => call.k * scene.vertArea.getD v.toNat 0) ++
              List.replicate call.anchor.length call.anchorK ∧
          ∀ (root : SquareRoot α) (out : DrapeScene σ α),
            after.applyMaterial root cfg = some out →
              out.attachK = after.attachStiffness cfg) := by
  have same := samePins_afterFitSets scene earlier
  generalize scene.afterFitSets earlier = s at same
  unfold sceneFitSet
  cases refused : s.fitRefusal call with
  | some err => exact ⟨fun _ _ => rfl, fun accepted => (nomatch accepted)⟩
  | none =>
    refine ⟨fun _ error => (nomatch error), fun _ => ⟨_, rfl, ?_, ?_, ?_, rfl, rfl,
      fun cfg => ⟨?_, fun _ _ => attachK_of_applyMaterial⟩⟩⟩
    · have inside : ¬ call.verts.any (outside s.nV) = true ∧
          ¬ call.anchor.any (outside s.nV) = true := by
        unfold fitRefusal at refused
        split_ifs at refused with _ _ one two
        exact ⟨one, two⟩
      simp only [refit, List.map_append, same.pins, cast_toNat inside.1, cast_toNat inside.2]
    · rw [← same.fixed, ← same.rest]
      rfl
    · rw [nPin_refit, same.nPin]
    · rw [attachStiffness_refit, same.nPin, same.vertArea]

/-- Three vertices, the first of them pinned. -/
def pinned : DrapeScene Unit ℚ where
  nV := 3
  rest := [0, 0, 0, 1, 0, 0, 0, 1, 0]
  x0 := []
  v0 := []
  vertArea := [1, 2, 3]
  tri := []
  triInvUV := []
  triArea := []
  bendIdx := []
  bendW := []
  bendN := []
  bendAreaSum := []
  attachVert := [0]
  attachFixed := [0, 0, 0]
  radii := []
  prims := []
  nFit := 0
  fitK := 0
  fitGap := 0
  fitRefresh := 1
  fitSimilarity := false
  fitAnchor := []
  nAnchorAtt := 0
  anchorK := 0
  fitRestEvery := 1
  fitSettle := 0
  massD := []
  mass := []
  triK := []
  bendK := []
  attachK := []
  laid := rfl
  counts := by decide

/-- Two calls are accepted, and the second one's vertices stand behind the pin in place of those of
the first. -/
theorem sceneFitSet_lays_pinned :
    let first : FitCall ℚ := ⟨[1], 2, 0, 1, false, [2, 0], 1, 0, 5⟩
    let second : FitCall ℚ := ⟨[2, 1], 7, 0, 1, true, [0], 1, 0, 4⟩
    (pinned.sceneFitSet first).2 = none ∧
      (pinned.sceneFitSet first).1.attachVert = [0, 1, 2, 0] ∧
      ((pinned.afterFitSets [first]).sceneFitSet second).2 = none ∧
      ∃ after, ((pinned.afterFitSets [first]).sceneFitSet second).1 = after ∧
        after.attachVert.map (fun v : Nat => (v : Int)) = [0, 2, 1, 0] ∧
        after.attachFixed = [0, 0, 0] ++ [0, 1, 0, 1, 0, 0] ++ [0, 0, 0] ∧
        ∀ cfg : Upload ℚ, after.attachStiffness cfg = [cfg.kAttach] ++ [7 * 3, 7 * 2] ++ [4] := by
  intro first second
  obtain ⟨-, accepted⟩ := sceneFitSet_lays pinned [first] second
  obtain ⟨after, eq, verts, fixed, -, -, -, stiffness⟩ := accepted rfl
  exact ⟨rfl, rfl, rfl, after, eq, verts, fixed, fun cfg => (stiffness cfg).1⟩

end DrapeScene

end DressOn.Drape
