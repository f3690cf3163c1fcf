import DressOn.Avbd.Step
import DressOn.Lib.Rows
import Mathlib.Algebra.Order.Ring.Defs
import Mathlib.Data.List.Induction
import Mathlib.Data.List.Nodup
import Mathlib.Tactic.Ring

/-!
# The self-collision scan

The kernel `self_collision_scan`, which both back ends run, and what each back end keeps and reads
back of it. A vertex records at most `K` neighbours, in ascending order; the pairs that come back
are those that the lower of two vertices recorded. A device runs its lanes in any order, and whole
groups of them.
-/

namespace DressOn.Avbd.SelfCollision

open Rows

/-- `kSentinel`. -/
def sentinel : Nat := 0xFFFFFFFF

/-- What the kernel reads. -/
structure Params (α : Type*) where
  nVerts : Nat
  capacity : Nat
  positions : Nat → Vec3 α
  radii : Nat → α
  /-- The count is a 32-bit number. -/
  small : nVerts < 2 ^ 32

section Kernel

variable {α : Type*} [Ring α] [LinearOrder α] (params : Params α)

/-- `d2 < t2`. -/
def overlaps (i j : Nat) : Bool :=
  let pi := params.positions i
  let dj := params.positions j
  let dx := pi 0 - dj 0
  let dy := pi 1 - dj 1
  let dz := pi 2 - dj 2
  let d2 := dx * dx + dy * dy + dz * dz
  let tr := params.radii i + params.radii j
  decide (d2 < tr * tr)

/-- The sentinels of a row. -/
def initRow (i : Nat) (neighbors : Nat → Nat) : Nat → Nat :=
  (List.range params.capacity).foldl
    (fun neighbors k => Function.update neighbors (i * params.capacity + k) sentinel) neighbors

/-- One turn of the scan: the row and `count`. -/
def scanBody (i : Nat) (state : (Nat → Nat) × Nat) (j : Nat) : (Nat → Nat) × Nat :=
  if (decide (j ≠ i) && decide (state.2 < params.capacity) && overlaps params i j) = true then
    (Function.update state.1 (i * params.capacity + state.2) j, state.2 + 1)
  else state

/-- The kernel's thread `i`. -/
def scanThread (neighbors : Nat → Nat) (i : Nat) : Nat → Nat :=
  if params.nVerts ≤ i then neighbors
  else ((List.range params.nVerts).foldl (scanBody params i) (initRow params i neighbors, 0)).1

/-- What both back ends read back: of each row, up to a sentinel, the higher vertices. -/
def collectPairs (nVerts capacity : Nat) (neighbors : Nat → Nat) : List (Nat × Nat) :=
  (List.range nVerts).flatMap fun i =>
    ((((List.range capacity).map fun k => neighbors (i * capacity + k)).takeWhile
      (· ≠ sentinel)).filter (i < ·)).map (i, ·)

/-- What a vertex records: the first `K` it overlaps. -/
def recorded (i : Nat) : List Nat :=
  ((List.range params.nVerts).filter fun j => decide (j ≠ i) && overlaps params i j).take
    params.capacity

variable {params}

/-- A row holds a list, and then sentinels. -/
def Holds (params : Params α) (i : Nat) (neighbors : Nat → Nat) (row : List Nat) : Prop :=
  ∀ k < params.capacity, neighbors (i * params.capacity + k) = row[k]?.getD sentinel

omit [Ring α] [LinearOrder α] in
theorem holds_initRow (i : Nat) (neighbors : Nat → Nat) :
    Holds params i (initRow params i neighbors) [] := by
  intro k inside
  unfold initRow
  have injective : ∀ c ∈ List.range params.capacity,
      i * params.capacity + c = i * params.capacity + k → c = k := fun c _ same => by omega
  exact (@foldl_write _ _ _ _ (fun k => i * params.capacity + k) (List.range params.capacity)
    (fun _ _ => sentinel) (fun _ _ _ _ _ _ => rfl) k injective neighbors).1
    (List.mem_range.mpr inside)

/-- One turn records a vertex, if there is room and it overlaps. -/
theorem scanBody_spec {i : Nat} {state : (Nat → Nat) × Nat} {row : List Nat}
    (holds : Holds params i state.1 row) (count : state.2 = row.length) (j : Nat) :
    let row' := if (decide (j ≠ i) && decide (row.length < params.capacity)
      && overlaps params i j) = true then row ++ [j] else row
    Holds params i (scanBody params i state j).1 row' ∧
      (scanBody params i state j).2 = row'.length := by
  unfold scanBody
  rw [count]
  dsimp only
  split
  next records =>
    simp only [Bool.and_eq_true, decide_eq_true_eq] at records
    have room := records.1.2
    refine ⟨fun k inside => ?_, by rw [List.length_append, List.length_singleton]⟩
    dsimp only
    by_cases here : k = row.length
    · subst here
      rw [Function.update_self, List.getElem?_concat_length]
      rfl
    · rw [Function.update_of_ne (by omega), holds k inside]
      by_cases before : k < row.length
      · rw [List.getElem?_append_left before]
      · rw [List.getElem?_eq_none (by omega), List.getElem?_eq_none (by simp; omega)]
  next => exact ⟨holds, count⟩

/-- What the first few of a filtered list become with one more item. -/
theorem take_filter_snoc (items : List Nat) (j capacity : Nat) (test : Nat → Bool) :
    ((items ++ [j]).filter test).take capacity
      = if (decide (((items.filter test).take capacity).length < capacity) && test j) = true
          then (items.filter test).take capacity ++ [j] else (items.filter test).take capacity := by
  rw [List.filter_append, List.length_take]
  generalize items.filter test = row
  cases tested : test j with
  | false => simp [tested]
  | true =>
    rw [Bool.and_true, List.filter_singleton, tested]
    by_cases room : row.length < capacity
    · rw [if_pos (decide_eq_true (by omega)), List.take_of_length_le room.le]
      exact List.take_of_length_le (by simp; omega)
    · rw [if_neg (by simp; omega)]
      exact List.take_append_of_le_length (by omega)

/-- The scan of a row records the first that overlap. -/
theorem foldl_scanBody (i : Nat) (neighbors : Nat → Nat) (items : List Nat) :
    let state := items.foldl (scanBody params i) (initRow params i neighbors, 0)
    let row := (items.filter fun j => decide (j ≠ i) && overlaps params i j).take params.capacity
    Holds params i state.1 row ∧ state.2 = row.length := by
  induction items using List.reverseRecOn with
  | nil =>
    have none : ((([] : List Nat).filter fun j => decide (j ≠ i) && overlaps params i j).take
        params.capacity) = [] := List.take_nil
    rw [none]
    exact ⟨holds_initRow i neighbors, rfl⟩
  | append_singleton items j inductionHypothesis =>
    obtain ⟨holds, count⟩ := inductionHypothesis
    have step := scanBody_spec holds count j
    dsimp only at step ⊢
    rw [List.foldl_append, take_filter_snoc]
    have test : ∀ room : Bool, (decide (j ≠ i) && room && overlaps params i j)
        = (room && (decide (j ≠ i) && overlaps params i j)) := fun room => by
      cases room <;> simp
    rw [test] at step
    exact step

theorem foldl_scanBody_frame {i cell : Nat} (away : cell / params.capacity ≠ i)
    (state : (Nat → Nat) × Nat) (items : List Nat) :
    (items.foldl (scanBody params i) state).1 cell = state.1 cell := by
  induction items generalizing state with
  | nil => rfl
  | cons j rest inductionHypothesis =>
    rw [List.foldl_cons, inductionHypothesis]
    unfold scanBody
    split
    next records =>
      simp only [Bool.and_eq_true, decide_eq_true_eq] at records
      have room := records.1.2
      refine Function.update_of_ne ?_ ..
      rintro rfl
      refine away ?_
      rw [Nat.mul_comm, Nat.mul_add_div (by omega), Nat.div_eq_of_lt room, Nat.add_zero]
    next => rfl

/-- A thread leaves the rows of others as they are. -/
theorem scanThread_frame {i cell : Nat} (away : cell / params.capacity ≠ i)
    (neighbors : Nat → Nat) : scanThread params neighbors i cell = neighbors cell := by
  unfold scanThread
  split
  · rfl
  · rw [foldl_scanBody_frame away]
    refine foldl_frame (fun k member neighbors => Function.update_of_ne ?_ ..) neighbors
    have inside := List.mem_range.mp member
    rintro rfl
    refine away ?_
    rw [Nat.mul_comm, Nat.mul_add_div (by omega), Nat.div_eq_of_lt inside, Nat.add_zero]

/-- Whatever order the lanes run in, each row is the one its thread records. -/
theorem holds_foldl {lanes : List Nat} (nodup : lanes.Nodup) {i : Nat} (lane : i ∈ lanes)
    (inside : i < params.nVerts) (neighbors : Nat → Nat) :
    Holds params i (lanes.foldl (scanThread params) neighbors) (recorded params i) := by
  obtain ⟨before, after, rfl⟩ := List.append_of_mem lane
  have fresh : i ∉ after := (List.nodup_cons.mp (List.nodup_append.mp nodup).2.1).1
  intro k room
  rw [List.foldl_append, List.foldl_cons]
  rw [foldl_frame fun other member neighbors => scanThread_frame ?_ neighbors]
  · unfold scanThread
    rw [if_neg (Nat.not_le_of_lt inside)]
    exact (foldl_scanBody i _ (List.range params.nVerts)).1 k room
  · rw [Nat.mul_comm, Nat.mul_add_div (by omega), Nat.div_eq_of_lt room, Nat.add_zero]
    rintro rfl
    exact fresh member

omit [Ring α] [LinearOrder α] in
/-- A row reads back as what it records. -/
theorem takeWhile_row {i : Nat} {neighbors : Nat → Nat} {row : List Nat}
    (holds : Holds params i neighbors row) (short : row.length ≤ params.capacity)
    (real : ∀ j ∈ row, j ≠ sentinel) :
    ((List.range params.capacity).map fun k => neighbors (i * params.capacity + k)).takeWhile
      (· ≠ sentinel) = row := by
  have parts : (List.range params.capacity).map (fun k => neighbors (i * params.capacity + k))
      = row ++ List.replicate (params.capacity - row.length) sentinel := by
    refine List.ext_getElem (by simp; omega) fun k inside _ => ?_
    have room : k < params.capacity := by simpa using inside
    rw [List.getElem_map, List.getElem_range, holds k room]
    by_cases before : k < row.length
    · rw [List.getElem_append_left before, List.getElem?_eq_getElem before]
      rfl
    · rw [List.getElem_append_right (by omega), List.getElem_replicate,
        List.getElem?_eq_none (by omega)]
      rfl
  rw [parts, List.takeWhile_append_of_pos fun j member => decide_eq_true (real j member)]
  have stops : (List.replicate (params.capacity - row.length) sentinel).takeWhile
      (· ≠ sentinel) = [] := by
    cases params.capacity - row.length with
    | zero => rfl
    | succ more => rfl
  rw [stops, List.append_nil]

theorem mem_recorded {i j : Nat} (member : j ∈ recorded params i) :
    j < params.nVerts ∧ j ≠ i ∧ overlaps params i j = true := by
  obtain ⟨inside, test⟩ := List.mem_filter.mp (List.mem_of_mem_take member)
  simp only [Bool.and_eq_true, decide_eq_true_eq] at test
  exact ⟨List.mem_range.mp inside, test⟩

/-- The pairs: of each vertex, the higher ones that it recorded. -/
def pairs (params : Params α) : List (Nat × Nat) :=
  (List.range params.nVerts).flatMap fun i => ((recorded params i).filter (i < ·)).map (i, ·)

/-- What comes back of a scan. -/
theorem collectPairs_eq {neighbors : Nat → Nat}
    (holds : ∀ i < params.nVerts, Holds params i neighbors (recorded params i)) :
    collectPairs params.nVerts params.capacity neighbors = pairs params := by
  refine List.flatMap_congr fun i member => ?_
  have inside := List.mem_range.mp member
  have real : ∀ j ∈ recorded params i, j ≠ sentinel := by
    intro j recorded
    have below := (mem_recorded recorded).1
    have small := params.small
    unfold sentinel
    omega
  rw [takeWhile_row (holds i inside) (List.length_take_le ..) real]

/-- That vertex `i` recorded vertex `j`: it is in its row. -/
def Records (params : Params α) (neighbors : Nat → Nat) (i j : Nat) : Prop :=
  j < params.nVerts ∧ ∃ k < params.capacity, neighbors (i * params.capacity + k) = j

omit [Ring α] [LinearOrder α] in
theorem records_iff {i j : Nat} {neighbors : Nat → Nat} {row : List Nat}
    (holds : Holds params i neighbors row) (short : row.length ≤ params.capacity)
    (inside : ∀ j ∈ row, j < params.nVerts) : Records params neighbors i j ↔ j ∈ row := by
  constructor
  · rintro ⟨below, k, room, same⟩
    rw [holds k room] at same
    by_cases before : k < row.length
    · rw [List.getElem?_eq_getElem before] at same
      exact same ▸ List.getElem_mem before
    · rw [List.getElem?_eq_none (by omega)] at same
      have small := params.small
      unfold sentinel at same
      simp only [Option.getD_none] at same
      omega
  · intro member
    obtain ⟨k, bound, same⟩ := List.mem_iff_getElem.mp member
    refine ⟨inside j member, k, by omega, ?_⟩
    rw [holds k (by omega), List.getElem?_eq_getElem bound, same]
    rfl

/-- How many vertices one overlaps. -/
def degree (params : Params α) (i : Nat) : Nat :=
  ((List.range params.nVerts).filter fun j => decide (j ≠ i) && overlaps params i j).length

/-- Pairs that the lower vertex recorded, each once. -/
structure LowerPairs (params : Params α) (neighbors : Nat → Nat) (found : List (Nat × Nat)) :
    Prop where
  once : found.Nodup
  ordered : ∀ pair ∈ found, pair.1 < pair.2 ∧ pair.2 < params.nVerts
  close : ∀ pair ∈ found, overlaps params pair.1 pair.2 = true
  recorded : ∀ i j, (i, j) ∈ found ↔ i < j ∧ i < params.nVerts ∧ Records params neighbors i j
  complete : (∀ i j, i < j → j < params.nVerts → overlaps params i j = true →
      degree params i ≤ params.capacity) →
    ∀ i j, i < j → j < params.nVerts → overlaps params i j = true → (i, j) ∈ found

theorem mem_pairs_iff {i j : Nat} :
    (i, j) ∈ pairs params ↔ i < params.nVerts ∧ j ∈ recorded params i ∧ i < j := by
  unfold pairs
  simp only [List.mem_flatMap, List.mem_range, List.mem_map, List.mem_filter, decide_eq_true_eq,
    Prod.mk.injEq]
  constructor
  · rintro ⟨i, inside, j, ⟨member, less⟩, rfl, rfl⟩
    exact ⟨inside, member, less⟩
  · rintro ⟨inside, member, less⟩
    exact ⟨i, inside, j, ⟨member, less⟩, rfl, rfl⟩

theorem nodup_pairs (params : Params α) : (pairs params).Nodup := by
  unfold pairs
  refine List.nodup_flatMap.mpr ⟨fun i _ => ?_, List.nodup_range.imp fun away => ?_⟩
  · have row : (recorded params i).Nodup :=
      ((List.nodup_range.filter _).sublist (List.take_sublist _ _))
    exact (row.filter _).map fun _ _ same => (Prod.mk.inj same).2
  · intro pair one two
    obtain ⟨_, _, rfl⟩ := List.mem_map.mp one
    obtain ⟨_, _, same⟩ := List.mem_map.mp two
    exact away (Prod.mk.inj same).1.symm

/-- The pairs are those that the lower vertex recorded. -/
theorem lowerPairs {neighbors : Nat → Nat}
    (holds : ∀ i < params.nVerts, Holds params i neighbors (recorded params i)) :
    LowerPairs params neighbors (pairs params) where
  once := nodup_pairs params
  ordered pair member := by
    obtain ⟨_, row, less⟩ := mem_pairs_iff.mp member
    exact ⟨less, (mem_recorded row).1⟩
  close pair member := (mem_recorded (mem_pairs_iff.mp member).2.1).2.2
  recorded i j := by
    rw [mem_pairs_iff]
    constructor
    · rintro ⟨inside, row, less⟩
      exact ⟨less, inside, (records_iff (holds i inside) (List.length_take_le ..)
        fun j member => (mem_recorded member).1).mpr row⟩
    · rintro ⟨less, inside, records⟩
      exact ⟨inside, (records_iff (holds i inside) (List.length_take_le ..)
        fun j member => (mem_recorded member).1).mp records, less⟩
  complete few i j less inside overlap := by
    refine mem_pairs_iff.mpr ⟨by omega, ?_, less⟩
    unfold SelfCollision.recorded
    rw [List.take_of_length_le (few i j less inside overlap)]
    refine List.mem_filter.mpr ⟨List.mem_range.mpr inside, ?_⟩
    rw [overlap, Bool.and_true]
    exact decide_eq_true (by omega)

/-- Only the radii of real vertices matter. -/
theorem recorded_congr {n capacity : Nat} {positions : Nat → Vec3 α} {radii radii' : Nat → α}
    {small : n < 2 ^ 32} (agree : ∀ i < n, radii i = radii' i) {i : Nat} (inside : i < n) :
    recorded ⟨n, capacity, positions, radii, small⟩ i
      = recorded ⟨n, capacity, positions, radii', small⟩ i := by
  refine congrArg (List.take capacity) (List.filter_congr fun j member => ?_)
  unfold overlaps
  dsimp only
  rw [agree i inside, agree j (List.mem_range.mp member)]

/-- What both back ends find, of radii that were loaded from a pointer. -/
theorem lowerPairs_of_lanes {n capacity : Nat} {positions : Nat → Vec3 α} (radii : Nat → α)
    {small : n < 2 ^ 32} {lanes : List Nat} (nodup : lanes.Nodup) (all : ∀ i < n, i ∈ lanes)
    (neighbors : Nat → Nat) :
    let loaded : Params α :=
      ⟨n, capacity, positions, fun i => ((List.range n).map radii).getD i 0, small⟩
    LowerPairs ⟨n, capacity, positions, radii, small⟩
      (lanes.foldl (scanThread loaded) neighbors)
      (collectPairs n capacity (lanes.foldl (scanThread loaded) neighbors)) := by
  intro loaded
  have agree : ∀ i < n, ((List.range n).map radii).getD i 0 = radii i := by
    intro i inside
    rw [List.getD_eq_getElem?_getD, List.getElem?_map, List.getElem?_range inside]
    rfl
  have holds : ∀ i < n, Holds ⟨n, capacity, positions, radii, small⟩ i
      (lanes.foldl (scanThread loaded) neighbors)
      (recorded ⟨n, capacity, positions, radii, small⟩ i) := by
    intro i inside
    rw [← recorded_congr agree inside]
    have row : Holds loaded i (lanes.foldl (scanThread loaded) neighbors) (recorded loaded i) :=
      holds_foldl nodup (all i inside) (by exact inside) neighbors
    exact row
  have collected : collectPairs n capacity (lanes.foldl (scanThread loaded) neighbors)
      = pairs ⟨n, capacity, positions, radii, small⟩ := by
    exact @collectPairs_eq α _ _ ⟨n, capacity, positions, radii, small⟩ _ holds
  rw [collected]
  exact lowerPairs holds

end Kernel

section BackEnds

variable {α : Type*} [Ring α] [LinearOrder α]

/-- What `AvbdCpu` has of a mesh and its scan. -/
structure AvbdCpu (α : Type*) where
  meshReady : Bool
  nVerts : Nat
  small : nVerts < 2 ^ 32
  positions : Nat → Vec3 α
  radii : List α
  selfK : Nat
  neighbors : Nat → Nat

namespace AvbdCpu

/-- `uploadSelfCollisionRadii`. -/
def uploadSelfCollisionRadii (s : AvbdCpu α) (radii : Nat → α) (maxNeighborsPerVert : Nat) :
    AvbdCpu α :=
  if !s.meshReady then s
  else
    { s with
      radii := (List.range s.nVerts).map radii
      selfK := maxNeighborsPerVert
      neighbors := fun _ => sentinel }

/-- What the kernel is bound to. -/
def params (s : AvbdCpu α) : Params α :=
  ⟨s.nVerts, s.selfK, s.positions, fun i => s.radii.getD i 0, s.small⟩

/-- `submitSelfCollisionScan`: the threads in order. -/
def submitSelfCollisionScan (s : AvbdCpu α) : AvbdCpu α × Int :=
  if !s.meshReady || s.radii.length != s.nVerts || s.selfK == 0 then (s, -1)
  else
    ({ s with neighbors := (List.range s.nVerts).foldl (scanThread s.params) s.neighbors }, 0)

/-- `collectSelfCollisions`. -/
def collectSelfCollisions (s : AvbdCpu α) : List (Nat × Nat) × Int :=
  if !s.meshReady || s.radii.length != s.nVerts || s.selfK == 0 then ([], -1)
  else (collectPairs s.nVerts s.selfK s.neighbors, 0)

end AvbdCpu

/-- What `AvbdRd` has of a mesh and its scan; `neighbors` with its size in bytes. -/
structure AvbdRd (α : Type*) where
  ok : Bool
  meshReady : Bool
  nVerts : Nat
  small : nVerts < 2 ^ 32
  positions : Nat → Vec3 α
  radii : Option (List α)
  selfK : Nat
  neighbors : Option (Nat × (Nat → Nat))
  pending : Bool

namespace AvbdRd

/-- `sync`. -/
def sync (s : AvbdRd α) : AvbdRd α := { s with pending := false }

/-- `uploadSelfCollisionRadii`. -/
def uploadSelfCollisionRadii (s : AvbdRd α) (radii : Nat → α) (maxNeighborsPerVert : Nat) :
    AvbdRd α :=
  if !s.meshReady || maxNeighborsPerVert == 0 then s
  else
    { s.sync with
      selfK := maxNeighborsPerVert
      radii := some ((List.range s.nVerts).map radii)
      neighbors := some (4 * s.nVerts * maxNeighborsPerVert, fun _ => 0) }

/-- What the kernel is bound to. -/
def params (s : AvbdRd α) (radii : List α) : Params α :=
  ⟨s.nVerts, s.selfK, s.positions, fun i => radii.getD i 0, s.small⟩

/-- The lanes of a dispatch: whole groups of 64. -/
def lanes (nVerts : Nat) : List Nat := List.range ((nVerts + 63) / 64 * 64)

/-- `submitSelfCollisionScan`, on a device that runs the lanes in some order. What it writes is
read after the next `sync`. -/
def submitSelfCollisionScan (s : AvbdRd α) (order : List Nat) : AvbdRd α × Int :=
  match s.radii, s.neighbors with
  | some radii, some (bytes, words) =>
    if s.selfK == 0 || !(s.ok && s.meshReady) then (s, -1)
    else
      ({ s.sync with
        neighbors := some (bytes, order.foldl (scanThread (s.params radii)) words)
        pending := true }, 0)
  | _, _ => (s, -1)

/-- `collectSelfCollisions`. -/
def collectSelfCollisions (s : AvbdRd α) : AvbdRd α × List (Nat × Nat) × Int :=
  match s.neighbors with
  | none => (s, [], -1)
  | some (bytes, words) =>
    if !s.meshReady || s.selfK == 0 then (s, [], -1)
    else if bytes < 4 * s.nVerts * s.selfK then (s.sync, [], -1)
    else (s.sync, collectPairs s.nVerts s.selfK words, 0)

end AvbdRd

/-- After a mesh, an upload, a scan and its collection, both back ends give the pairs that the lower
vertex recorded: each once, all of them overlapping, and all that overlap where no lower vertex of
an overlapping pair overlaps more than the capacity. -/
theorem collectSelfCollisions_lower (radii : Nat → α) (capacity : Nat) (positive : 1 ≤ capacity) :
    (∀ s : AvbdCpu α, s.meshReady = true →
      let (scanned, submitted) :=
        (s.uploadSelfCollisionRadii radii capacity).submitSelfCollisionScan
      let (found, collected) := scanned.collectSelfCollisions
      submitted = 0 ∧ collected = 0 ∧
        LowerPairs ⟨s.nVerts, capacity, s.positions, radii, s.small⟩ scanned.neighbors found) ∧
    ∀ s : AvbdRd α, s.ok = true → s.meshReady = true →
      ∀ order : List Nat, order.Perm (AvbdRd.lanes s.nVerts) →
      let (scanned, submitted) :=
        (s.uploadSelfCollisionRadii radii capacity).submitSelfCollisionScan order
      let (_, found, collected) := scanned.collectSelfCollisions
      submitted = 0 ∧ collected = 0 ∧ ∃ bytes words, scanned.neighbors = some (bytes, words) ∧
        LowerPairs ⟨s.nVerts, capacity, s.positions, radii, s.small⟩ words found := by
  have some' : (capacity == 0) = false := by
    rw [beq_eq_false_iff_ne]
    omega
  constructor
  · intro s ready
    unfold AvbdCpu.uploadSelfCollisionRadii AvbdCpu.submitSelfCollisionScan
      AvbdCpu.collectSelfCollisions
    simp only [ready, Bool.not_true, Bool.false_eq_true, if_false, List.length_map,
      List.length_range, bne_self_eq_false, some', Bool.or_self, true_and]
    exact lowerPairs_of_lanes radii List.nodup_range (fun i inside => List.mem_range.mpr inside) _
  · intro s ok ready order lanes
    have nodup : order.Nodup := lanes.nodup_iff.mpr List.nodup_range
    have all : ∀ i < s.nVerts, i ∈ order := fun i inside =>
      lanes.mem_iff.mpr (List.mem_range.mpr (by omega))
    unfold AvbdRd.uploadSelfCollisionRadii AvbdRd.submitSelfCollisionScan
      AvbdRd.collectSelfCollisions AvbdRd.sync
    simp only [ok, ready, Bool.not_true, Bool.false_eq_true, if_false, some', Bool.or_self,
      Bool.and_self, lt_self_iff_false, true_and]
    exact ⟨_, _, rfl, lowerPairs_of_lanes radii nodup all _⟩

/-- Three vertices in a row, the first in the middle. -/
def row3 : AvbdCpu Int :=
  ⟨true, 3, by decide, fun i => if i = 0 then ![0, 0, 0] else if i = 1 then ![10, 0, 0]
    else ![-10, 0, 0], [], 0, fun _ => 0⟩

/-- The same on the device. -/
def row3Rd : AvbdRd Int :=
  ⟨true, true, 3, by decide, row3.positions, none, 0, none, false⟩

/-- With room for two neighbours the scan finds both pairs, whichever way the lanes run. -/
theorem collectSelfCollisions_lower_row3 :
    (((row3.uploadSelfCollisionRadii (fun _ => 6) 2).submitSelfCollisionScan.1
      |>.collectSelfCollisions).1 = [(0, 1), (0, 2)]) ∧
    ((row3.uploadSelfCollisionRadii (fun _ => 6) 2).submitSelfCollisionScan.1
      |>.collectSelfCollisions).1.Nodup ∧
    ((row3Rd.uploadSelfCollisionRadii (fun _ => 6) 2).submitSelfCollisionScan
      (AvbdRd.lanes 3).reverse).2 = 0 :=
  ⟨by decide +kernel,
    ((collectSelfCollisions_lower (fun _ => 6) 2 (by decide)).1 row3 rfl).2.2.once,
    ((collectSelfCollisions_lower (fun _ => 6) 2 (by decide)).2 row3Rd rfl rfl _
      (List.reverse_perm _)).1⟩

/-- With room for one, the last vertex records its only neighbour and the pair does not come back,
on either back end. -/
theorem collectSelfCollisions_drops :
    (((row3.uploadSelfCollisionRadii (fun _ => 6) 1).submitSelfCollisionScan.1
      |>.collectSelfCollisions) = ([(0, 1)], 0)) ∧
    (row3.uploadSelfCollisionRadii (fun _ => 6) 1).submitSelfCollisionScan.1.neighbors 2 = 0 ∧
    degree ⟨3, 1, row3.positions, fun _ => 6, by decide⟩ 2 = 1 ∧
    ((row3Rd.uploadSelfCollisionRadii (fun _ => 6) 1).submitSelfCollisionScan
      (AvbdRd.lanes 3)).1.collectSelfCollisions.2 = ([(0, 1)], 0) := by
  decide +kernel

end BackEnds

end DressOn.Avbd.SelfCollision
