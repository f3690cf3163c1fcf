import Mathlib.Data.List.Basic
import Mathlib.Data.List.Induction

/-!
# First fit

Items are placed one after the other: each joins a representative that a search finds among those
before it, or becomes one. Two searches place a list the same way just where they agree along one
of the runs. A search by buckets finds the first item that fits where that item lies in the first
bucket that holds any.
-/

namespace DressOn.FirstFit

section Placing

variable {α : Type*}

/-- The representatives so far, and the one of each item. -/
@[ext] structure Placed (α : Type*) where
  points : List α
  remap : List Nat
deriving DecidableEq, Repr

/-- An item joins what was found, or becomes a representative. -/
def Placed.join (placed : Placed α) (item : α) : Option Nat → Placed α
  | some found => ⟨placed.points, placed.remap ++ [found]⟩
  | none => ⟨placed.points ++ [item], placed.remap ++ [placed.points.length]⟩

variable (search other : List α → α → Option Nat)

/-- One item. -/
def place (placed : Placed α) (item : α) : Placed α := placed.join item (search placed.points item)

/-- All items, in order. -/
def placeAll (items : List α) : Placed α := items.foldl (place search) ⟨[], []⟩

/-- The last item is placed last. -/
theorem placeAll_snoc (items : List α) (item : α) :
    placeAll search (items ++ [item]) = place search (placeAll search items) item := by
  rw [placeAll, List.foldl_append]
  rfl

variable {search other}

/-- What is found can be read off. -/
theorem Placed.join_inj {placed : Placed α} {item : α} {one two : Option Nat} :
    placed.join item one = placed.join item two ↔ one = two := by
  constructor
  · intro same
    have points := congrArg (fun placed => placed.points.length) same
    have remap := congrArg (fun placed => placed.remap) same
    cases one with
    | none =>
      cases two with
      | none => rfl
      | some found => simp [join] at points
    | some found =>
      cases two with
      | none => simp [join] at points
      | some found' => simpa [join] using remap
  · exact congrArg _

/-- An item is mapped to the point that is found, or to a new one. -/
theorem remap_place (placed : Placed α) (item : α) :
    (place search placed item).remap
      = placed.remap ++ [(search placed.points item).getD placed.points.length] := by
  unfold place
  cases search placed.points item with
  | none => rfl
  | some found => rfl

/-- Items that are placed later leave the map of the earlier ones. -/
theorem remap_foldl (items : List α) (placed : Placed α) :
    ∃ later, (items.foldl (place search) placed).remap = placed.remap ++ later := by
  induction items generalizing placed with
  | nil => exact ⟨[], (List.append_nil _).symm⟩
  | cons item rest inductionHypothesis =>
    obtain ⟨later, after⟩ := inductionHypothesis (place search placed item)
    have here := @remap_place _ search placed item
    exact ⟨_, by rw [List.foldl_cons, after, here, List.append_assoc]⟩

/-- A search finds one of the representatives. -/
def Finds (search : List α → α → Option Nat) : Prop :=
  ∀ points item found, search points item = some found → found < points.length

/-- What two searches find can be read off the place of an item. -/
theorem found_eq (finds : Finds search) (finds' : Finds other) {points : List α} {item : α}
    (same : (search points item).getD points.length = (other points item).getD points.length) :
    search points item = other points item := by
  cases joined : search points item with
  | none =>
    cases joined' : other points item with
    | none => rfl
    | some found' =>
      rw [joined, joined'] at same
      exact absurd same.symm (Nat.ne_of_lt (finds' _ _ _ joined'))
  | some found =>
    cases joined' : other points item with
    | none =>
      rw [joined, joined'] at same
      exact absurd same (Nat.ne_of_lt (finds _ _ _ joined))
    | some found' =>
      rw [joined, joined'] at same
      exact congrArg some same

/-- Two runs are the same just where the searches agree along the second. -/
theorem foldl_place_eq_iff (finds : Finds search) (finds' : Finds other) (items : List α)
    (placed : Placed α) :
    items.foldl (place search) placed = items.foldl (place other) placed ↔
      ∀ i, (bound : i < items.length) →
        search ((items.take i).foldl (place other) placed).points items[i]
          = other ((items.take i).foldl (place other) placed).points items[i] := by
  induction items generalizing placed with
  | nil => exact ⟨fun _ i bound => absurd bound (Nat.not_lt_zero i), fun _ => rfl⟩
  | cons item rest inductionHypothesis =>
    rw [List.foldl_cons, List.foldl_cons]
    have here : rest.foldl (place search) (place search placed item)
        = rest.foldl (place other) (place other placed item) →
        search placed.points item = other placed.points item := by
      intro same
      obtain ⟨later, after⟩ := @remap_foldl _ search rest (place search placed item)
      obtain ⟨later', after'⟩ := @remap_foldl _ other rest (place other placed item)
      have remaps := (after.symm.trans (congrArg Placed.remap same)).trans after'
      rw [remap_place, remap_place, List.append_assoc, List.append_assoc] at remaps
      have joined := (List.cons.inj (List.append_cancel_left remaps)).1
      exact found_eq finds finds' joined
    constructor
    · intro same i bound
      have agree := here same
      have step : place search placed item = place other placed item :=
        Placed.join_inj.mpr agree
      cases i with
      | zero => exact agree
      | succ i =>
        rw [step] at same
        exact (inductionHypothesis _).mp same i (Nat.lt_of_succ_lt_succ bound)
    · intro agree
      have step : place search placed item = place other placed item :=
        Placed.join_inj.mpr (agree 0 (Nat.succ_pos _))
      rw [step]
      exact (inductionHypothesis _).mpr fun i bound => agree (i + 1) (Nat.succ_lt_succ bound)

/-- Every item has a representative. -/
theorem placeAll_remap (finds : Finds search) (items : List α) :
    (placeAll search items).remap.length = items.length ∧
      ∀ found ∈ (placeAll search items).remap, found < (placeAll search items).points.length := by
  induction items using List.reverseRecOn with
  | nil => exact ⟨rfl, fun found member => nomatch member⟩
  | append_singleton items item inductionHypothesis =>
    obtain ⟨length, bounded⟩ := inductionHypothesis
    rw [placeAll_snoc]
    generalize placeAll search items = placed at length bounded
    unfold place
    cases joined : search placed.points item with
    | none =>
      refine ⟨by simp [Placed.join, length], fun found member => ?_⟩
      simp only [Placed.join, List.mem_append, List.mem_singleton, List.length_append,
        List.length_singleton] at member ⊢
      rcases member with member | rfl
      · exact Nat.lt_succ_of_lt (bounded found member)
      · exact Nat.lt_succ_self _
    | some joined_to =>
      refine ⟨by simp [Placed.join, length], fun found member => ?_⟩
      simp only [Placed.join, List.mem_append, List.mem_singleton] at member ⊢
      rcases member with member | rfl
      · exact bounded found member
      · exact finds _ _ _ joined

/-- Any two representatives are apart, where the search misses such items only. -/
theorem placeAll_pairwise {apart : α → α → Prop}
    (misses : ∀ points item, search points item = none → ∀ point ∈ points, apart point item)
    (items : List α) : (placeAll search items).points.Pairwise apart := by
  induction items using List.reverseRecOn with
  | nil => exact List.Pairwise.nil
  | append_singleton items item inductionHypothesis =>
    rw [placeAll_snoc]
    unfold place
    cases joined : search (placeAll search items).points item with
    | none =>
      refine List.pairwise_append.mpr ⟨inductionHypothesis, List.pairwise_singleton _ _, ?_⟩
      intro point member other here
      rw [List.mem_singleton.mp here]
      exact misses _ _ joined point member
    | some found => exact inductionHypothesis

end Placing

section Buckets

variable {α κ : Type*} [DecidableEq κ] (keyOf : α → κ) (close : α → α → Bool)
  (keys : α → List κ)

/-- The first of the points that fits. -/
def scan (points : List α) (item : α) : Option Nat := points.findIdx? (close item)

/-- The first that fits in one bucket. -/
def inBucket (points : List α) (item : α) (key : κ) : Option Nat :=
  points.findIdx? fun point => keyOf point == key && close item point

/-- The first that fits in the first bucket that has one. -/
def bucketed (points : List α) (item : α) : Option Nat :=
  (keys item).findSome? (inBucket keyOf close points item)

/-- The first bucket that has a point that fits. -/
def firstHit (points : List α) (item : α) : Option κ :=
  (keys item).find? fun key => points.any fun point => keyOf point == key && close item point

variable {keyOf close keys} {points : List α} {item : α}

/-- The first that fits comes before any other that does. -/
theorem scan_eq_some_iff {found : Nat} :
    scan close points item = some found ↔
      ∃ bound : found < points.length, close item points[found] = true ∧
        ∀ j, (before : j < found) →
          ¬ close item (points.get ⟨j, Nat.lt_trans before bound⟩) = true :=
  List.findIdx?_eq_some_iff_getElem

/-- The search in a bucket finds the first close point of the key. -/
theorem inBucket_eq_some_iff {key : κ} {found : Nat} :
    inBucket keyOf close points item key = some found ↔
      ∃ bound : found < points.length,
        (keyOf points[found] = key ∧ close item points[found] = true) ∧
        ∀ j, (before : j < found) →
          ¬ (keyOf (points.get ⟨j, Nat.lt_trans before bound⟩) = key ∧
          close item (points.get ⟨j, Nat.lt_trans before bound⟩) = true) := by
  unfold inBucket
  rw [List.findIdx?_eq_some_iff_getElem]
  simp only [Bool.and_eq_true, beq_iff_eq, List.get_eq_getElem]

/-- The search looks into the first bucket that has a point that fits. -/
theorem bucketed_eq_bind :
    bucketed keyOf close keys points item
      = (firstHit keyOf close keys points item).bind (inBucket keyOf close points item) := by
  unfold bucketed firstHit
  generalize keys item = buckets
  induction buckets with
  | nil => rfl
  | cons key rest inductionHypothesis =>
    rw [List.findSome?_cons, List.find?_cons]
    have any : (inBucket keyOf close points item key).isSome
        = points.any fun point => keyOf point == key && close item point :=
      List.findIdx?_isSome
    rw [← any]
    cases hit : inBucket keyOf close points item key with
    | none => exact inductionHypothesis
    | some found => exact hit.symm

/-- A search by buckets is the plain one just where the first point that fits lies in the first
bucket that has any. -/
theorem bucketed_eq_scan_iff :
    bucketed keyOf close keys points item = scan close points item ↔
      ∀ found point, scan close points item = some found → points[found]? = some point →
        firstHit keyOf close keys points item = some (keyOf point) := by
  rw [bucketed_eq_bind]
  constructor
  · intro same found point scanned here
    rw [scanned] at same
    obtain ⟨key, first, hit⟩ := Option.bind_eq_some_iff.mp same
    obtain ⟨bound, ⟨keyed, fits⟩, earlier⟩ := inBucket_eq_some_iff.mp hit
    rw [List.getElem?_eq_getElem bound] at here
    rw [first, ← keyed, Option.some.inj here]
  · intro first
    cases scanned : scan close points item with
    | none =>
      refine Option.bind_eq_none_iff.mpr fun key _ => List.findIdx?_eq_none_iff.mpr ?_
      intro point member
      rw [List.findIdx?_eq_none_iff.mp scanned point member, Bool.and_false]
    | some found =>
      obtain ⟨bound, fits, earlier⟩ := scan_eq_some_iff.mp scanned
      rw [first found _ scanned (List.getElem?_eq_getElem bound)]
      exact inBucket_eq_some_iff.mpr ⟨bound, ⟨rfl, fits⟩, fun j before both =>
        earlier j before both.2⟩

/-- Where the buckets searched hold all that fit, nothing found is nothing that fits. -/
theorem not_close_of_bucketed_eq_none
    (covers : ∀ item point, close item point = true → keyOf point ∈ keys item)
    (missed : bucketed keyOf close keys points item = none) {point : α} (member : point ∈ points) :
    ¬ close item point = true := by
  intro fits
  have none := List.findSome?_eq_none_iff.mp missed _ (covers item point fits)
  have away := List.findIdx?_eq_none_iff.mp none point member
  rw [fits, beq_self_eq_true] at away
  exact Bool.noConfusion away

/-- A scan finds one of the representatives. -/
theorem finds_scan : Finds (scan close) := by
  intro points item found scanned
  exact (scan_eq_some_iff.mp scanned).1

/-- The buckets find one of the representatives. -/
theorem finds_bucketed : Finds (bucketed keyOf close keys) := by
  intro points item found searched
  rw [bucketed_eq_bind] at searched
  obtain ⟨key, _, hit⟩ := Option.bind_eq_some_iff.mp searched
  exact (inBucket_eq_some_iff.mp hit).1

end Buckets

end DressOn.FirstFit
