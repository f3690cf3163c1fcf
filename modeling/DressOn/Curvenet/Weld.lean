import Mathlib.Algebra.Order.Floor.Ring
import Mathlib.Data.Rat.Floor
import Mathlib.Tactic.Linarith
import Mathlib.Tactic.Positivity
import DressOn.Lib.FirstFit

/-!
# Welding a vertex list

`weld` of `curvenet_api.cpp`, in exact arithmetic. The grid is a list of its entries in the order
they went in; a bucket keeps its least index, so the order a hash table walks it in is of no
account. Cells of different places may share a key, as they may in the source.
-/

namespace DressOn.Curvenet

open FirstFit

section Model

variable {R : Type*} [Field R] [LinearOrder R] [FloorRing R]

/-- A vertex. -/
structure Point (R : Type*) where
  x : R
  y : R
  z : R
deriving DecidableEq, Repr

/-- `cell`. -/
def cell (eps x : R) : ℤ := ⌊x / eps⌋

/-- `key`: products and their exclusive or, modulo two to the 64. -/
def key (x y z : ℤ) : BitVec 64 :=
  BitVec.ofInt 64 (x * 73856093) ^^^ BitVec.ofInt 64 (y * 19349663)
    ^^^ BitVec.ofInt 64 (z * 83492791)

/-- The bucket a representative goes into. -/
def keyOf (eps : R) (p : Point R) : BitVec 64 := key (cell eps p.x) (cell eps p.y) (cell eps p.z)

/-- The steps of each of the three loops. -/
def around : List ℤ := [-1, 0, 1]

/-- The buckets the three loops visit, in order. -/
def nearKeys (eps : R) (p : Point R) : List (BitVec 64) :=
  around.flatMap fun dx => around.flatMap fun dy => around.map fun dz =>
    key (cell eps p.x + dx) (cell eps p.y + dy) (cell eps p.z + dz)

/-- The square of a distance. -/
def distance2 (p q : Point R) : R :=
  (p.x - q.x) * (p.x - q.x) + (p.y - q.y) * (p.y - q.y) + (p.z - q.z) * (p.z - q.z)

/-- The test on a candidate. -/
def within (eps : R) (p q : Point R) : Bool := decide (distance2 p q ≤ eps * eps)

/-- What the loop over the vertices carries. -/
structure Welding (R : Type*) where
  outV : List (Point R)
  grid : List (BitVec 64 × Nat)
  remap : List Nat

/-- `found < 0 || it->second < found`. -/
def better : Option Nat → Nat → Bool
  | none, _ => true
  | some found, index => decide (index < found)

/-- One entry of a bucket. -/
def Welding.candidate (state : Welding R) (eps : R) (p : Point R) (found : Option Nat)
    (entry : BitVec 64 × Nat) : Option Nat :=
  if (state.outV[entry.2]?.any (within eps p) && better found entry.2) = true then some entry.2
  else found

/-- One bucket: what `equal_range` gives of the grid. -/
def Welding.bucket (state : Welding R) (eps : R) (p : Point R) (key : BitVec 64) : Option Nat :=
  (state.grid.filter fun entry => entry.1 == key).foldl (state.candidate eps p) none

/-- The three loops over the cells, each with its early stop. -/
def Welding.search (state : Welding R) (eps : R) (p : Point R) : Option Nat :=
  (nearKeys eps p).foldl (fun found key =>
    match found with
    | some index => some index
    | none => state.bucket eps p key) none

/-- One turn of the loop over the vertices. -/
def weldStep (eps : R) (state : Welding R) (p : Point R) : Welding R :=
  match state.search eps p with
  | some found => { state with remap := state.remap ++ [found] }
  | none =>
    { outV := state.outV ++ [p]
      grid := state.grid ++ [(keyOf eps p, state.outV.length)]
      remap := state.remap ++ [state.outV.length] }

/-- `weld`: the map and the welded vertices. -/
def weld (v : List (Point R)) (eps : R) : List Nat × List (Point R) :=
  if eps ≤ 0 then (List.range v.length, v)
  else
    let state := v.foldl (weldStep eps) ⟨[], [], []⟩
    (state.remap, state.outV)

end Model

section Loops

variable {R : Type*} [Field R] [LinearOrder R] [FloorRing R] {eps : R} {p : Point R}

/-- The loops over the cells stop at the first bucket that finds anything. -/
theorem foldl_eq_findSome? (bucket : BitVec 64 → Option Nat) (keys : List (BitVec 64))
    (found : Option Nat) :
    keys.foldl (fun found key =>
        match found with
        | some index => some index
        | none => bucket key) found
      = found.or (keys.findSome? bucket) := by
  induction keys generalizing found with
  | nil => exact (Option.or_none).symm
  | cons key rest inductionHypothesis =>
    rw [List.foldl_cons, inductionHypothesis, List.findSome?_cons]
    cases found with
    | some index => rfl
    | none =>
      cases bucket key with
      | none => rfl
      | some index => rfl

/-- The entries of a list of representatives. -/
def entries (eps : R) (points : List (Point R)) : List (BitVec 64 × Nat) :=
  points.zipIdx.map fun entry => (keyOf eps entry.1, entry.2)

/-- The grid holds each representative under its key. -/
def Welding.Indexed (state : Welding R) (eps : R) : Prop := state.grid = entries eps state.outV

omit [FloorRing R] in
/-- An entry after one that was found is no better. -/
theorem candidate_some {state : Welding R} {index start : Nat} (before : index < start)
    (key : BitVec 64) : state.candidate eps p (some index) (key, start) = some index := by
  have worse : better (some index) start = false := decide_eq_false (Nat.lt_asymm before)
  unfold Welding.candidate
  rw [worse, Bool.and_false]
  rfl

omit [FloorRing R] in
theorem foldl_candidate_some (state : Welding R) (rest : List (BitVec 64 × Nat)) {index : Nat}
    (after : ∀ entry ∈ rest, index < entry.2) :
    rest.foldl (state.candidate eps p) (some index) = some index := by
  induction rest with
  | nil => rfl
  | cons entry rest inductionHypothesis =>
    rw [List.foldl_cons, candidate_some (after entry (List.mem_cons_self ..))]
    exact inductionHypothesis fun entry member => after entry (List.mem_cons_of_mem _ member)

omit [FloorRing R] in
/-- A first entry counts where it fits. -/
theorem candidate_none {state : Welding R} {start : Nat} {point : Point R}
    (here : state.outV[start]? = some point) (key : BitVec 64) :
    state.candidate eps p none (key, start)
      = if within eps p point = true then some start else none := by
  unfold Welding.candidate
  rw [here]
  simp only [Option.any_some, better, Bool.and_true]

/-- A bucket of a grid in order gives its first entry that fits. -/
theorem foldl_candidate (state : Welding R) (key : BitVec 64) (start : Nat)
    (rest : List (Point R)) (there : state.outV.drop start = rest) :
    (((rest.zipIdx start).map fun entry => (keyOf eps entry.1, entry.2)).filter
        fun entry => entry.1 == key).foldl (state.candidate eps p) none
      = (rest.findIdx? fun point => keyOf eps point == key && within eps p point).map
          (· + start) := by
  induction rest generalizing start with
  | nil => rfl
  | cons point rest inductionHypothesis =>
    have here : state.outV[start]? = some point := by
      have first := congrArg List.head? there
      rwa [List.head?_drop] at first
    have beyond : state.outV.drop (start + 1) = rest := by
      rw [← List.drop_drop, there]
      rfl
    have later := inductionHypothesis (start + 1) beyond
    have shift : ∀ found : Option Nat,
        (found.map (· + (start + 1))) = (found.map (· + 1)).map (· + start) := by
      intro found
      rw [Option.map_map]
      exact congrArg (fun f => found.map f) (funext fun index => by
        simp only [Function.comp_apply]; omega)
    rw [List.zipIdx_cons, List.map_cons, List.filter_cons, List.findIdx?_cons]
    cases keyed : keyOf eps point == key with
    | false =>
      rw [if_neg (by simp), Bool.false_and, if_neg (by simp), later, shift]
    | true =>
      rw [if_pos rfl, List.foldl_cons, candidate_none here, Bool.true_and]
      by_cases fits : within eps p point = true
      · rw [if_pos fits, if_pos fits, foldl_candidate_some]
        · simp
        · intro entry member
          obtain ⟨member, _⟩ := List.mem_filter.mp member
          obtain ⟨⟨q, index⟩, indexed, rfl⟩ := List.mem_map.mp member
          exact (List.mem_zipIdx indexed).1
      · rw [if_neg fits, if_neg fits, later, shift]

/-- The search of the source is the one by buckets. -/
theorem search_eq_bucketed {state : Welding R} (indexed : state.Indexed eps) :
    state.search eps p
      = bucketed (keyOf eps) (within eps) (nearKeys eps) state.outV p := by
  unfold Welding.search bucketed
  rw [foldl_eq_findSome?, Option.none_or]
  refine congrArg (fun bucket => (nearKeys eps p).findSome? bucket) (funext fun key => ?_)
  unfold Welding.bucket inBucket
  rw [indexed]
  exact (foldl_candidate state key 0 state.outV rfl).trans (by simp)

theorem entries_snoc (points : List (Point R)) (point : Point R) :
    entries eps (points ++ [point]) = entries eps points ++ [(keyOf eps point, points.length)] := by
  unfold entries
  rw [List.zipIdx_append, List.map_append]
  simp

/-- One turn keeps the grid in order, and places the vertex by buckets. -/
theorem weldStep_spec {state : Welding R} (indexed : state.Indexed eps) :
    (weldStep eps state p).Indexed eps ∧
      (⟨(weldStep eps state p).outV, (weldStep eps state p).remap⟩ : Placed (Point R))
        = place (bucketed (keyOf eps) (within eps) (nearKeys eps)) ⟨state.outV, state.remap⟩ p := by
  unfold weldStep place
  rw [search_eq_bucketed indexed]
  cases bucketed (keyOf eps) (within eps) (nearKeys eps) state.outV p with
  | some found => exact ⟨indexed, rfl⟩
  | none =>
    refine ⟨?_, rfl⟩
    unfold Welding.Indexed
    rw [entries_snoc, ← indexed]

/-- The whole loop places the vertices by buckets. -/
theorem foldl_weldStep (v : List (Point R)) :
    let state := v.foldl (weldStep eps) ⟨[], [], []⟩
    state.Indexed eps ∧ (⟨state.outV, state.remap⟩ : Placed (Point R))
      = placeAll (bucketed (keyOf eps) (within eps) (nearKeys eps)) v := by
  induction v using List.reverseRecOn with
  | nil => exact ⟨rfl, rfl⟩
  | append_singleton v p inductionHypothesis =>
    obtain ⟨indexed, placed⟩ := inductionHypothesis
    rw [List.foldl_append, placeAll_snoc, ← placed]
    exact weldStep_spec indexed

end Loops

section Claim

variable {R : Type*} [Field R] [LinearOrder R] [FloorRing R]

/-- The plain scan: each vertex, in order, joins the first of all earlier representatives within
`eps`, or becomes one. -/
def plainWeld (v : List (Point R)) (eps : R) : Placed (Point R) := placeAll (scan (within eps)) v

/-- Any two representatives are more than `eps` apart. -/
def Apart (eps : R) (points : List (Point R)) : Prop :=
  points.Pairwise fun p q => eps * eps < distance2 p q

instance (eps : R) (points : List (Point R)) : Decidable (Apart eps points) :=
  inferInstanceAs (Decidable (points.Pairwise _))

/-- Each vertex's first representative within `eps` lies in the first of the cells it visits that
holds one within `eps`. -/
def FirstCell (v : List (Point R)) (eps : R) : Prop :=
  ∀ i, (bound : i < v.length) → ∀ found point,
    scan (within eps) (plainWeld (v.take i) eps).points v[i] = some found →
    (plainWeld (v.take i) eps).points[found]? = some point →
    firstHit (keyOf eps) (within eps) (nearKeys eps) (plainWeld (v.take i) eps).points v[i]
      = some (keyOf eps point)

/-- A positive weld distance places the vertices by buckets. -/
theorem weld_eq_placeAll {eps : R} (positive : 0 < eps) (v : List (Point R)) :
    (⟨(weld v eps).2, (weld v eps).1⟩ : Placed (Point R))
      = placeAll (bucketed (keyOf eps) (within eps) (nearKeys eps)) v := by
  unfold weld
  rw [if_neg (not_le_of_gt positive)]
  exact (foldl_weldStep v).2

variable [IsStrictOrderedRing R]

/-- Coordinates no further apart than a cell is long are in cells next to each other. -/
theorem cell_near {eps a b : R} (positive : 0 < eps) (near : (a - b) * (a - b) ≤ eps * eps) :
    ∃ step ∈ around, cell eps b = cell eps a + step := by
  have squares : (a - b) ^ 2 ≤ eps ^ 2 := by
    rw [pow_two, pow_two]
    exact near
  have bounds := abs_le.mp (abs_le_of_sq_le_sq squares positive.le)
  have quotient : a / eps * eps = a := div_mul_cancel₀ a positive.ne'
  have quotient' : b / eps * eps = b := div_mul_cancel₀ b positive.ne'
  have low : a / eps - 1 ≤ b / eps := by
    by_contra less
    nlinarith [mul_lt_mul_of_pos_right (not_le.mp less) positive]
  have high : b / eps - 1 ≤ a / eps := by
    by_contra less
    nlinarith [mul_lt_mul_of_pos_right (not_le.mp less) positive]
  have floorLow : ⌊a / eps⌋ - 1 ≤ ⌊b / eps⌋ := by
    rw [← Int.floor_sub_one]
    exact Int.floor_mono low
  have floorHigh : ⌊b / eps⌋ - 1 ≤ ⌊a / eps⌋ := by
    rw [← Int.floor_sub_one]
    exact Int.floor_mono high
  refine ⟨cell eps b - cell eps a, ?_, by omega⟩
  unfold cell around
  simp only [List.mem_cons, List.not_mem_nil, or_false]
  omega

omit [FloorRing R] in
/-- Each square is no more than the sum. -/
theorem near_of_within {eps : R} {p q : Point R} (close : within eps p q = true) :
    (p.x - q.x) * (p.x - q.x) ≤ eps * eps ∧ (p.y - q.y) * (p.y - q.y) ≤ eps * eps ∧
      (p.z - q.z) * (p.z - q.z) ≤ eps * eps := by
  have total := of_decide_eq_true close
  unfold distance2 at total
  have x := mul_self_nonneg (p.x - q.x)
  have y := mul_self_nonneg (p.y - q.y)
  have z := mul_self_nonneg (p.z - q.z)
  refine ⟨?_, ?_, ?_⟩ <;> linarith

/-- The 27 cells hold all that is within `eps`. -/
theorem keyOf_mem_nearKeys {eps : R} (positive : 0 < eps) (p q : Point R)
    (close : within eps p q = true) : keyOf eps q ∈ nearKeys eps p := by
  obtain ⟨nearX, nearY, nearZ⟩ := near_of_within close
  obtain ⟨dx, stepX, cellX⟩ := cell_near positive nearX
  obtain ⟨dy, stepY, cellY⟩ := cell_near positive nearY
  obtain ⟨dz, stepZ, cellZ⟩ := cell_near positive nearZ
  unfold keyOf nearKeys
  rw [cellX, cellY, cellZ]
  exact List.mem_flatMap.mpr ⟨dx, stepX, List.mem_flatMap.mpr ⟨dy, stepY,
    List.mem_map.mpr ⟨dz, stepZ, rfl⟩⟩⟩

/-- The representatives are apart, whichever of several a vertex joined. -/
theorem weld_apart {eps : R} (positive : 0 < eps) (v : List (Point R)) :
    Apart eps (weld v eps).2 := by
  have placed : (weld v eps).2
      = (placeAll (bucketed (keyOf eps) (within eps) (nearKeys eps)) v).points :=
    congrArg Placed.points (weld_eq_placeAll positive v)
  have misses : ∀ points item, bucketed (keyOf eps) (within eps) (nearKeys eps) points item = none →
      ∀ point ∈ points, eps * eps < distance2 point item := by
    intro points item missed point member
    have away := not_close_of_bucketed_eq_none (keyOf_mem_nearKeys positive) missed member
    have far := not_le.mp (of_decide_eq_false (Bool.eq_false_iff.mpr away))
    unfold distance2 at far ⊢
    linarith
  rw [placed]
  exact placeAll_pairwise misses v

/-- The weld is the plain scan, and its representatives are apart, just where the first
representative that is near enough always lies in the first cell visited that has one. -/
theorem weld_eq_plainWeld_iff (v : List (Point R)) (eps : R) (positive : 0 < eps) :
    ((⟨(weld v eps).2, (weld v eps).1⟩ : Placed (Point R)) = plainWeld v eps ∧
        Apart eps (weld v eps).2) ↔ FirstCell v eps := by
  rw [and_iff_left (weld_apart positive v), weld_eq_placeAll positive]
  refine (foldl_place_eq_iff finds_bucketed finds_scan v _).trans ?_
  exact forall_congr' fun i => forall_congr' fun bound => bucketed_eq_scan_iff

/-- Of two vertices that one cell holds the second joins the first. -/
theorem weld_eq_plainWeld_iff_pair :
    FirstCell [⟨1 / 2, 0, 0⟩, ⟨3 / 4, 0, 0⟩] (1 : ℚ) :=
  (weld_eq_plainWeld_iff _ _ (by decide)).mp ⟨by decide +kernel, by decide +kernel⟩

/-- The first of two representatives that are near enough lies in the cell above, the second in the
one below, which is visited first. -/
theorem weld_joins_later :
    (weld [⟨5 / 4, 0, 0⟩, ⟨-1 / 4, 0, 0⟩, ⟨1 / 2, 0, 0⟩] (1 : ℚ)).1 = [0, 1, 1] ∧
      (plainWeld [⟨5 / 4, 0, 0⟩, ⟨-1 / 4, 0, 0⟩, ⟨1 / 2, 0, 0⟩] (1 : ℚ)).remap = [0, 1, 0] := by
  decide +kernel

end Claim

end DressOn.Curvenet
