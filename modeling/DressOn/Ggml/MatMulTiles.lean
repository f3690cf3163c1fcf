import DressOn.Ggml.MatMul

/-!
# Tiles of a product

A group of 16 by 16 threads computes a tile of 64 by 64 products. For each 16 of the shared
dimension its threads bring a tile of both sources into shared memory, with zeros past their ends,
and each thread adds up 16 products. The serial sibling has no shared memory and ends with the
shared dimension.
-/

namespace DressOn.Ggml.MatMul

open ThreadGroups

variable {F : Type} (floats : Floats F)

/-! ## The kernels -/

/-- The sixteen sums of a thread: `c00` to `c33`. -/
abbrev Sums (F : Type) : Type := Fin 4 → Fin 4 → F

/-- Sixteen products are added to the sums. -/
def Sums.plus (c : Sums F) (x y : Fin 4 → F) : Sums F :=
  fun p r => floats.add (c p r) (floats.mul (x p) (y r))

/-- An element of a source where there is one, else a zero. -/
def loadIf (entry : Entry) (buffer : ℕ) (e : UInt32) (there : Bool) : Code Cell F F :=
  if there then load floats entry buffer e else pure floats.zero

section Thread

variable (entries : Entry × Entry) (s0 s1 dst : ℕ) (f : Frame) (gid : Gid) (x y : ℕ)

/-- `m0`. -/
def m0 : UInt32 := UInt32.ofNat gid.x * UInt32.ofNat kTile

/-- `n0`. -/
def n0 : UInt32 := UInt32.ofNat gid.y * UInt32.ofNat kTile

/-- `i0` to `i3`. -/
def rowOf (p : Fin 4) : UInt32 := m0 gid + UInt32.ofNat (x + 16 * p)

/-- `j0` to `j3`. -/
def columnOf (r : Fin 4) : UInt32 := n0 gid + UInt32.ofNat (y + 16 * r)

/-- A thread's part in bringing in the tiles: turn `l` of four. -/
def bringIn (kt : ℕ) (l : ℕ) : Code Cell F PUnit := do
  let idx := y * 16 + x + l * 256
  let kk := idx % 16
  let rr := idx / 16
  let gk := UInt32.ofNat kt * 16 + UInt32.ofNat kk
  let gm := m0 gid + UInt32.ofNat rr
  let av ← loadIf floats entries.1 s0 (f.aAt gk gm) (gk < f.k && gm < f.m)
  Code.write (.tile gid false kk rr) av
  let gn := n0 gid + UInt32.ofNat rr
  let bv ← loadIf floats entries.2 s1 (f.bAt gk gn) (gk < f.k && gn < f.n)
  Code.write (.tile gid true kk rr) bv

/-- Four elements of a line of a tile. -/
def readFour (second : Bool) (q lid : ℕ) : Code Cell F (Fin 4 → F) := do
  let v0 ← Code.read (.tile gid second q lid)
  let v1 ← Code.read (.tile gid second q (lid + 16))
  let v2 ← Code.read (.tile gid second q (lid + 32))
  let v3 ← Code.read (.tile gid second q (lid + 48))
  return ![v0, v1, v2, v3]

/-- The products of a tile. -/
def multiply (c : Sums F) : Code Cell F (Sums F) :=
  (List.range 16).foldlM (fun c q => do
    let xs ← readFour gid false q x
    let ys ← readFour gid true q y
    return c.plus floats xs ys) c

/-- One turn of the loop over the tiles of the shared dimension. -/
def turn (c : Sums F) (kt : ℕ) : Code Cell F (Sums F) := do
  (List.range 4).foldlM (fun _ l => bringIn floats entries s0 s1 f gid x y kt l) ⟨⟩
  Code.barrier
  let c ← multiply floats gid x y c
  Code.barrier
  return c

/-- The sums that are inside the destination are stored. -/
def storeSums (c : Sums F) : Code Cell F PUnit :=
  ((List.finRange 4).product (List.finRange 4)).foldlM (fun _ pr =>
    let i := rowOf gid x pr.1
    let j := columnOf gid y pr.2
    if i < f.m && j < f.n then Code.write (.word dst (f.dAt i j).toNat) (c pr.1 pr.2)
    else pure ⟨⟩) ⟨⟩

/-- `main` of the tiled kernels. -/
def tiled : Code Cell F PUnit := do
  let nt := (f.k + 15) / 16
  let c ← (List.range nt.toNat).foldlM (turn floats entries s0 s1 f gid x y)
    fun _ _ => floats.zero
  storeSums dst f gid x y c

/-- `main` of their serial siblings. -/
def serialTiled : Code Cell F PUnit := do
  let c ← (List.range f.k.toNat).foldlM (fun c k => do
    let xs ← (List.finRange 4).foldlM (fun xs p => do
      let i := rowOf gid x p
      let v ← loadIf floats entries.1 s0 (f.aAt (UInt32.ofNat k) i) (i < f.m)
      return Function.update xs p v) fun _ => floats.zero
    let ys ← (List.finRange 4).foldlM (fun ys r => do
      let j := columnOf gid y r
      let v ← loadIf floats entries.2 s1 (f.bAt (UInt32.ofNat k) j) (j < f.n)
      return Function.update ys r v) fun _ => floats.zero
    return Sums.plus floats c xs ys) fun _ _ => floats.zero
  storeSums dst f gid x y c

end Thread

/-! ## One group -/

/-- The elements of a batch, with zeros past its ends. -/
structure Batch (F : Type) where
  a : ℕ → ℕ → F
  b : ℕ → ℕ → F

/-- A product: the first `n` of the shared dimension. -/
def Batch.dot (batch : Batch F) (n i j : ℕ) : F :=
  (List.range n).foldl (fun c k => floats.add c (floats.mul (batch.a k i) (batch.b k j)))
    floats.zero

/-- The elements of a batch of a node. -/
def batchOf (s0 s1 : ℕ) (cells : Cell → F) (packed : Packed) (node : Node) (z : ℕ) : Batch F where
  a k i := if k < node.a.ne 0 ∧ i < node.a.ne 1 then aElement floats s0 cells packed node z k i
    else floats.zero
  b k j := if k < node.a.ne 0 ∧ j < node.b.ne 1 then bElement floats s1 cells packed node z k j
    else floats.zero

section Group

variable {floats} {s0 s1 dst : ℕ} {cells m : Cell → F} {node : Node} {packed : Packed}

/-- What a group of a packed node runs under. -/
structure At (packed : Packed) (node : Node) (gid : Gid) : Prop where
  batch : gid.z < node.b.ne 2 * node.b.ne 3
  short : gid.z < 2 ^ 32
  x : gid.x < Move.maxGroupsPerDim
  y : gid.y < Move.maxGroupsPerDim

variable {gid : Gid} (runs : Runs packed node) (here : At packed node gid)
  (same : ∀ place ∈ packed.sources s0 s1 node, m place = cells place)

include runs here same

/-- Where there is no element the value is zero. -/
theorem loadIf_a_returns {k i : UInt32} {there : Bool}
    (guard : there = true ↔ k.toNat < node.a.ne 0 ∧ i.toNat < node.a.ne 1) :
    Returns ⟨packed.sources s0 s1 node, ∅⟩
      (loadIf floats packed.entries.1 s0 ((frameAt packed.slot gid.z).aAt k i) there) m
      fun value m' =>
        value = (batchOf floats s0 s1 cells packed node gid.z).a k.toNat i.toNat ∧ m' = m := by
  by_cases inside : k.toNat < node.a.ne 0 ∧ i.toNat < node.a.ne 1
  · rw [loadIf, if_pos (guard.2 inside)]
    refine (lda_returns runs here.batch here.short same inside.1 inside.2).weaken ?_
    rintro value m' ⟨rfl, rfl⟩
    exact ⟨(if_pos inside).symm, rfl⟩
  · rw [loadIf, if_neg fun yes => inside (guard.1 yes)]
    exact ⟨(if_neg inside).symm, rfl⟩

/-- A place of `src1` is loaded, or a zero past its ends. -/
theorem loadIf_b_returns {k j : UInt32} {there : Bool}
    (guard : there = true ↔ k.toNat < node.a.ne 0 ∧ j.toNat < node.b.ne 1) :
    Returns ⟨packed.sources s0 s1 node, ∅⟩
      (loadIf floats packed.entries.2 s1 ((frameAt packed.slot gid.z).bAt k j) there) m
      fun value m' =>
        value = (batchOf floats s0 s1 cells packed node gid.z).b k.toNat j.toNat ∧ m' = m := by
  by_cases inside : k.toNat < node.a.ne 0 ∧ j.toNat < node.b.ne 1
  · rw [loadIf, if_pos (guard.2 inside)]
    refine (ldb_returns runs here.batch here.short same inside.1 inside.2).weaken ?_
    rintro value m' ⟨rfl, rfl⟩
    exact ⟨(if_pos inside).symm, rfl⟩
  · rw [loadIf, if_neg fun yes => inside (guard.1 yes)]
    exact ⟨(if_neg inside).symm, rfl⟩

omit here same in
/-- The guard of a load from `src0`. -/
theorem guard_a {z : ℕ} {k i : UInt32} :
    (decide (k < (frameAt packed.slot z).k) && decide (i < (frameAt packed.slot z).m)) = true ↔
      k.toNat < node.a.ne 0 ∧ i.toNat < node.a.ne 1 := by
  rw [Bool.and_eq_true, decide_eq_true_iff, decide_eq_true_iff, UInt32.lt_iff_toNat_lt,
    UInt32.lt_iff_toNat_lt, frameAt, runs.src0.ne, runs.src0.ne]

omit here same in
/-- The guard of a load from `src1`. -/
theorem guard_b {z : ℕ} {k j : UInt32} :
    (decide (k < (frameAt packed.slot z).k) && decide (j < (frameAt packed.slot z).n)) = true ↔
      k.toNat < node.a.ne 0 ∧ j.toNat < node.b.ne 1 := by
  rw [Bool.and_eq_true, decide_eq_true_iff, decide_eq_true_iff, UInt32.lt_iff_toNat_lt,
    UInt32.lt_iff_toNat_lt, frameAt, runs.src0.ne, runs.src1.ne]

omit runs same in
/-- The rows of a group do not wrap. -/
theorem toNat_m0 {r : ℕ} (low : r < 64) :
    (m0 gid + UInt32.ofNat r).toNat = gid.x * 64 + r ∧
      (n0 gid + UInt32.ofNat r).toNat = gid.y * 64 + r := by
  have x := here.x
  have y := here.y
  simp only [Move.maxGroupsPerDim] at x y
  simp only [m0, n0, kTile, UInt32.toNat_add, UInt32.toNat_mul, UInt32.toNat_ofNat']
  constructor <;> omega

/-- The cell of turn `l` of a thread. -/
def slotOf (gid : Gid) (second : Bool) (x y l : ℕ) : Cell :=
  .tile gid second ((y * 16 + x + l * 256) % 16) ((y * 16 + x + l * 256) / 16)

/-- The memory with the tiles of a turn. -/
def fill (batch : Batch F) (gid : Gid) (kt : ℕ) (cells : Cell → F) : Cell → F
  | .tile g second kk rr =>
    if g = gid ∧ kk < 16 ∧ rr < 64 then
      if second then batch.b (kt * 16 + kk) (gid.y * 64 + rr)
      else batch.a (kt * 16 + kk) (gid.x * 64 + rr)
    else cells (.tile g second kk rr)
  | place => cells place

variable {x y : ℕ} (thread : x < 16 ∧ y < 16)

omit runs here same in
/-- What a thread's slot of the tiles holds. -/
theorem fill_slotOf (thread : x < 16 ∧ y < 16) (batch : Batch F) (kt : ℕ) {second : Bool} {l : ℕ}
    (turn : l < 4) : fill batch gid kt cells (slotOf gid second x y l) =
      if second then
        batch.b (kt * 16 + (y * 16 + x + l * 256) % 16) (gid.y * 64 + (y * 16 + x + l * 256) / 16)
      else
        batch.a (kt * 16 + (y * 16 + x + l * 256) % 16)
          (gid.x * 64 + (y * 16 + x + l * 256) / 16) := by
  rw [slotOf, fill, if_pos ⟨rfl, Nat.mod_lt _ (by decide), by omega⟩]

omit runs here same in
/-- Every turn of every thread has a slot of its own. -/
theorem slotOf_inj (thread : x < 16 ∧ y < 16) {x' y' l l' : ℕ} (thread' : x' < 16 ∧ y' < 16)
    {second second' : Bool} (equal : slotOf gid second x y l = slotOf gid second' x' y' l') :
    second = second' ∧ x = x' ∧ y = y' ∧ l = l' := by
  obtain ⟨-, seconds, low, high⟩ := Cell.tile.inj equal
  have whole : y * 16 + x + l * 256 = y' * 16 + x' + l' * 256 := by
    rw [← Nat.div_add_mod (y * 16 + x + l * 256) 16, low, high, Nat.div_add_mod]
  exact ⟨seconds, by omega, by omega, by omega⟩

include thread

/-- A turn brings in two elements. -/
theorem bringIn_returns {kt l : ℕ} (tile : kt * 16 < node.a.ne 0)
    (short : node.a.ne 0 + 32 ≤ 2 ^ 32) (turn : l < 4) :
    Returns ⟨packed.sources s0 s1 node, {place | ∃ second, place = slotOf gid second x y l}⟩
      (bringIn floats packed.entries s0 s1 (frameAt packed.slot gid.z) gid x y kt l) m
      fun _ m' =>
        let filled := fill (batchOf floats s0 s1 cells packed node gid.z) gid kt cells
        m' = Function.update (Function.update m (slotOf gid false x y l)
          (filled (slotOf gid false x y l))) (slotOf gid true x y l)
          (filled (slotOf gid true x y l)) := by
  have low : (y * 16 + x + l * 256) % 16 < 16 := Nat.mod_lt _ (by decide)
  have high : (y * 16 + x + l * 256) / 16 < 64 := by omega
  obtain ⟨row, column⟩ := toNat_m0 here high
  have depth : (UInt32.ofNat kt * 16 + UInt32.ofNat ((y * 16 + x + l * 256) % 16)).toNat =
      kt * 16 + (y * 16 + x + l * 256) % 16 := by
    simp only [UInt32.toNat_add, UInt32.toNat_mul, UInt32.toNat_ofNat', UInt32.reduceToNat]
    omega
  have word (place : Cell) (source : place ∈ packed.sources s0 s1 node) (second : Bool) :
      place ≠ slotOf gid second x y l := by
    rintro rfl
    rcases source with ⟨j, -, wrong⟩ | ⟨j, -, wrong⟩ <;> cases wrong
  have into (second : Bool) : slotOf gid second x y l ∈
      (⟨packed.sources s0 s1 node, {place | ∃ second, place = slotOf gid second x y l}⟩ :
        Territory Cell).writes := ⟨second, rfl⟩
  rw [bringIn]
  refine Returns.look Set.subset_union_left (loadIf_a_returns runs here same (guard_a runs)) ?_
  refine Returns.write (into false) ?_
  have same' (place : Cell) (source : place ∈ packed.sources s0 s1 node) :
      Function.update m (slotOf gid false x y l)
        ((batchOf floats s0 s1 cells packed node gid.z).a
          (UInt32.ofNat kt * 16 + UInt32.ofNat ((y * 16 + x + l * 256) % 16)).toNat
          (m0 gid + UInt32.ofNat ((y * 16 + x + l * 256) / 16)).toNat) place = cells place := by
    rw [Function.update_of_ne (word place source false), same place source]
  refine Returns.look Set.subset_union_left (loadIf_b_returns runs here same' (guard_b runs)) ?_
  refine ⟨into true, ?_⟩
  change _ = Function.update (Function.update m (slotOf gid false x y l) _)
    (slotOf gid true x y l) _
  rw [fill_slotOf thread _ _ turn, fill_slotOf thread _ _ turn, depth, row, column]
  rfl

/-- The cells that a thread brings in. -/
def ownTiles (gid : Gid) (x y : ℕ) : Set Cell :=
  {place | ∃ second, ∃ l < 4, place = slotOf gid second x y l}

/-- A thread's part of the tiles. -/
theorem bringAll_returns {kt : ℕ} (tile : kt * 16 < node.a.ne 0)
    (short : node.a.ne 0 + 32 ≤ 2 ^ 32) :
    Returns ⟨packed.sources s0 s1 node, ownTiles gid x y⟩
      ((List.range 4).foldlM (fun _ l =>
        bringIn floats packed.entries s0 s1 (frameAt packed.slot gid.z) gid x y kt l) ⟨⟩) m
      fun _ m' => ∀ place ∈ ownTiles gid x y,
        m' place = fill (batchOf floats s0 s1 cells packed node gid.z) gid kt cells place := by
  refine Returns.foldlM (fun before _ m' =>
    (∀ second, ∀ l ∈ before, m' (slotOf gid second x y l) =
      fill (batchOf floats s0 s1 cells packed node gid.z) gid kt cells
        (slotOf gid second x y l)) ∧
    ∀ place ∈ packed.sources s0 s1 node, m' place = cells place) ?_
    ⟨fun _ l none_ => absurd none_ List.not_mem_nil, same⟩ ?_
  · rintro before l later split - m ⟨done, same⟩
    have member : l ∈ List.range 4 := split ▸ List.mem_append_cons_self
    have once : l ∉ before := by
      have nodup : (List.range 4).Nodup := List.nodup_range
      rw [split, List.nodup_append] at nodup
      exact fun earlier => nodup.2.2 l earlier l List.mem_cons_self rfl
    have turn := List.mem_range.1 member
    refine ((bringIn_returns runs here same thread tile short turn).mono ?_ ?_).weaken ?_
    · refine Set.union_subset_union_right _ ?_
      rintro place ⟨second, rfl⟩
      exact ⟨second, l, turn, rfl⟩
    · rintro place ⟨second, rfl⟩
      exact ⟨second, l, turn, rfl⟩
    · rintro - m' rfl
      refine ⟨fun second l' early => ?_, fun place source => ?_⟩
      · rcases List.mem_append.1 early with earlier | last
        · have other (second' : Bool) : slotOf gid second x y l' ≠ slotOf gid second' x y l := by
            intro equal
            obtain ⟨-, -, -, rfl⟩ := slotOf_inj thread thread equal
            exact once earlier
          rw [Function.update_of_ne (other true), Function.update_of_ne (other false),
            done second l' earlier]
        · obtain rfl := List.mem_singleton.1 last
          cases second with
          | true => rw [Function.update_self]
          | false =>
              rw [Function.update_of_ne fun equal =>
                Bool.noConfusion (slotOf_inj thread thread equal).1, Function.update_self]
      · have off (second : Bool) : place ≠ slotOf gid second x y l := by
          rintro rfl
          rcases source with ⟨j, -, wrong⟩ | ⟨j, -, wrong⟩ <;> cases wrong
        rw [Function.update_of_ne (off true), Function.update_of_ne (off false),
          same place source]
  · rintro - m' ⟨done, -⟩ place ⟨second, l, turn, rfl⟩
    exact done second l (List.mem_range.2 turn)

end Group

section Multiply

variable {floats} {gid : Gid} {m : Cell → F}

/-- The shared cells of a group. -/
def sharedCells (gid : Gid) : Set Cell := {place | place.gid? = some gid}

/-- Four places of a tile are read. -/
theorem readFour_returns (second : Bool) (q lid : ℕ) :
    Returns ⟨sharedCells gid, ∅⟩ (readFour gid second q lid) m fun value m' =>
      value = (fun p : Fin 4 => m (.tile gid second q (lid + 16 * p))) ∧ m' = m := by
  refine Returns.read (.inl rfl) (Returns.read (.inl rfl) (Returns.read (.inl rfl)
    (Returns.read (.inl rfl) ⟨?_, rfl⟩)))
  funext p
  fin_cases p <;> rfl

/-- The sums after the products of a tile. -/
def Sums.afterTile (floats : Floats F) (batch : Batch F) (gid : Gid) (x y : ℕ) (c : Sums F)
    (kt : ℕ) : Sums F :=
  (List.range 16).foldl (fun c q => c.plus floats
    (fun p => batch.a (kt * 16 + q) (gid.x * 64 + (x + 16 * p)))
    fun r => batch.b (kt * 16 + q) (gid.y * 64 + (y + 16 * r))) c

/-- The products of tiles that were brought in. -/
theorem multiply_returns {x y : ℕ} (thread : x < 16 ∧ y < 16) (batch : Batch F) (kt : ℕ)
    (cells : Cell → F) (c : Sums F) :
    Returns ⟨sharedCells gid, ∅⟩ (multiply floats gid x y c) (fill batch gid kt cells)
      fun value m' => value = c.afterTile floats batch gid x y kt ∧
        m' = fill batch gid kt cells := by
  refine Returns.foldlM (fun before value m' => m' = fill batch gid kt cells ∧
    value = before.foldl (fun c q => c.plus floats
      (fun p => batch.a (kt * 16 + q) (gid.x * 64 + (x + 16 * p)))
      fun r => batch.b (kt * 16 + q) (gid.y * 64 + (y + 16 * r))) c) ?_ ⟨rfl, rfl⟩ ?_
  · rintro before q later split value m' ⟨rfl, rfl⟩
    have low : q < 16 := List.mem_range.1 (split ▸ List.mem_append_cons_self)
    refine Returns.look Set.subset_union_left (readFour_returns false q x) ?_
    refine Returns.look Set.subset_union_left (readFour_returns true q y) ?_
    refine ⟨rfl, ?_⟩
    have line (p : Fin 4) (lid : ℕ) (small : lid < 16) (second : Bool) :
        fill batch gid kt cells (.tile gid second q (lid + 16 * p)) =
          if second then batch.b (kt * 16 + q) (gid.y * 64 + (lid + 16 * p))
          else batch.a (kt * 16 + q) (gid.x * 64 + (lid + 16 * p)) :=
      if_pos ⟨rfl, low, by omega⟩
    rw [List.foldl_append, List.foldl_cons, List.foldl_nil]
    simp only [line _ _ thread.1, line _ _ thread.2]
    rfl
  · rintro value m' ⟨rfl, rfl⟩
    exact ⟨rfl, rfl⟩

end Multiply

section Turns

variable {floats} {s0 s1 dst : ℕ} {cells m : Cell → F} {node : Node} {packed : Packed} {gid : Gid}
  (runs : Runs packed node) (here : At packed node gid)
  (same : ∀ place ∈ packed.sources s0 s1 node, m place = cells place)
  {home : (Fin 4 → ℕ) → Gid} {post : (Cell → F) → Prop}

/-- Bringing in tiles leaves the sources. -/
theorem fill_source (batch : Batch F) (kt : ℕ) {place : Cell}
    (source : place ∈ packed.sources s0 s1 node) : fill batch gid kt m place = m place := by
  rcases source with ⟨j, -, rfl⟩ | ⟨j, -, rfl⟩ <;> rfl

/-- Every place of the tiles is one thread's to bring in. -/
theorem exists_ownTiles {second : Bool} {kk rr : ℕ} (low : kk < 16) (high : rr < 64) :
    ∃ i : Fin 16 × Fin 16, .tile gid second kk rr ∈ ownTiles gid i.1 i.2 := by
  refine ⟨(⟨(rr * 16 + kk) % 16, Nat.mod_lt _ (by decide)⟩,
    ⟨(rr * 16 + kk) % 256 / 16, by omega⟩), second, (rr * 16 + kk) / 256, by omega, ?_⟩
  have whole : (rr * 16 + kk) % 256 / 16 * 16 + (rr * 16 + kk) % 16 + (rr * 16 + kk) / 256 * 256 =
      rr * 16 + kk := by omega
  rw [slotOf, whole]
  congr 1 <;> omega

/-- The slots of two threads are apart. -/
theorem ownTiles_apart {i j : Fin 16 × Fin 16} (other : i ≠ j) {place : Cell}
    (mine : place ∈ ownTiles gid i.1 i.2) : place ∉ ownTiles gid j.1 j.2 := by
  rintro ⟨second', l', turn', same⟩
  obtain ⟨second, l, turn, rfl⟩ := mine
  obtain ⟨-, x, y, -⟩ := slotOf_inj ⟨i.1.isLt, i.2.isLt⟩ ⟨j.1.isLt, j.2.isLt⟩ same
  exact other (Prod.ext (Fin.ext x) (Fin.ext y))

include runs here same

/-- One turn of all threads: the tiles are brought in, and then multiplied. -/
theorem finishes_turn {kt : ℕ} (tile : kt * 16 < node.a.ne 0)
    (short : node.a.ne 0 + 32 ≤ 2 ^ 32) (c : Fin 16 × Fin 16 → Sums F)
    {next : Fin 16 × Fin 16 → Sums F → Code Cell F PUnit}
    (later : Finishes (packed.area s0 s1 dst node home gid)
      (fun i => next i ((c i).afterTile floats
        (batchOf floats s0 s1 cells packed node gid.z) gid i.1 i.2 kt))
      (fill (batchOf floats s0 s1 cells packed node gid.z) gid kt m) post) :
    Finishes (packed.area s0 s1 dst node home gid)
      (fun i => turn floats packed.entries s0 s1 (frameAt packed.slot gid.z) gid i.1 i.2 (c i) kt
        >>= next i) m post := by
  let batch := batchOf floats s0 s1 cells packed node gid.z
  have shared (place : Cell) (mine : place.gid? = some gid) :
      place ∈ (packed.area s0 s1 dst node home gid).writes := .inl mine
  have multiplied : Finishes (packed.area s0 s1 dst node home gid)
      (fun i : Fin 16 × Fin 16 => multiply floats gid i.1 i.2 (c i) >>= fun c =>
        Code.barrier >>= fun _ => next i c) (fill batch gid kt m) post := by
    refine Finishes.stage (fun _ => ⟨sharedCells gid, ∅⟩) _ _
      (fun i => ⟨?_, Set.empty_subset _⟩) (fun i j _ => Set.disjoint_left.2 fun _ mine => ?_)
      (fun i => ?_) (fun _ _ => rfl) later
    · rintro place (mine | none_)
      · exact .inr (shared place mine)
      · exact absurd none_ (Set.notMem_empty _)
    · exact absurd mine (Set.notMem_empty _)
    · refine (multiply_returns ⟨i.1.isLt, i.2.isLt⟩ batch kt m (c i)).weaken ?_
      rintro value m' ⟨rfl, rfl⟩
      exact ⟨rfl, fun _ none_ => absurd none_ (Set.notMem_empty _)⟩
  have brought : Finishes (packed.area s0 s1 dst node home gid)
      (fun i : Fin 16 × Fin 16 =>
        (List.range 4).foldlM (fun _ l => bringIn floats packed.entries s0 s1
          (frameAt packed.slot gid.z) gid i.1 i.2 kt l) ⟨⟩ >>= fun _ => Code.barrier >>= fun _ =>
        multiply floats gid i.1 i.2 (c i) >>= fun c => Code.barrier >>= fun _ => next i c)
      m post := by
    refine Finishes.stage (fun i => ⟨packed.sources s0 s1 node, ownTiles gid i.1 i.2⟩)
      (fun _ => ⟨⟩) _ (fun i => ⟨?_, ?_⟩) (fun i j other => ?_) (fun i => ?_)
      (fun place unwritten => ?_) multiplied
    · rintro place (source | ⟨second, l, -, rfl⟩)
      · exact .inl source
      · exact .inr (shared _ rfl)
    · rintro place ⟨second, l, -, rfl⟩
      exact shared _ rfl
    · refine Set.disjoint_left.2 ?_
      rintro place mine (source | yours)
      · obtain ⟨second, l, -, rfl⟩ := mine
        rcases source with ⟨j, -, wrong⟩ | ⟨j, -, wrong⟩ <;> cases wrong
      · exact ownTiles_apart other mine yours
    · refine (bringAll_returns runs here same ⟨i.1.isLt, i.2.isLt⟩ tile short).weaken ?_
      rintro - m' done
      refine ⟨rfl, fun place mine => ?_⟩
      rw [done place mine]
      obtain ⟨second, l, turn, rfl⟩ := mine
      have thread : i.1.val < 16 ∧ i.2.val < 16 := ⟨i.1.isLt, i.2.isLt⟩
      rw [fill_slotOf thread _ _ turn, fill_slotOf thread _ _ turn]
    · cases place with
      | word buffer index => rfl
      | red gid row lane => rfl
      | tile g second kk rr =>
          refine if_neg ?_
          rintro ⟨rfl, low, high⟩
          obtain ⟨i, mine⟩ := exists_ownTiles low high
          exact unwritten i mine
  simpa only [turn, bind_assoc, pure_bind] using brought

end Turns

/-! ## The sums -/

section Sums

variable (batch : Batch F)

/-- Tile after tile is product after product. -/
theorem afterTiles_apply (gid : Gid) (x y : ℕ) (n : ℕ) (p r : Fin 4) :
    (List.range n).foldl (fun c kt => Sums.afterTile floats batch gid x y c kt)
      (fun _ _ => floats.zero) p r =
      batch.dot floats (n * 16) (gid.x * 64 + (x + 16 * p)) (gid.y * 64 + (y + 16 * r)) := by
  have line (ks : List ℕ) (kt : ℕ) (c : Sums F) :
      ks.foldl (fun c q => c.plus floats
        (fun p : Fin 4 => batch.a (kt * 16 + q) (gid.x * 64 + (x + 16 * p)))
        fun r : Fin 4 => batch.b (kt * 16 + q) (gid.y * 64 + (y + 16 * r))) c p r =
      ks.foldl (fun s q => floats.add s (floats.mul
        (batch.a (kt * 16 + q) (gid.x * 64 + (x + 16 * p)))
        (batch.b (kt * 16 + q) (gid.y * 64 + (y + 16 * r))))) (c p r) := by
    induction ks generalizing c with
    | nil => rfl
    | cons q ks inductionHypothesis => exact inductionHypothesis _
  induction n with
  | zero => rfl
  | succ n inductionHypothesis =>
      rw [List.range_succ, List.foldl_append, List.foldl_cons, List.foldl_nil, Sums.afterTile, line,
        inductionHypothesis, Batch.dot, Batch.dot, Nat.succ_mul n, List.range_add,
        List.foldl_append, List.foldl_map]

/-- Adding the product of two zeros changes no sum that began with a zero. -/
def Floats.Padded : Prop :=
  ∀ terms : List F, floats.add (terms.foldl floats.add floats.zero)
    (floats.mul floats.zero floats.zero) = terms.foldl floats.add floats.zero

/-- Past the end of the shared dimension there are only zeros to add. -/
theorem Batch.dot_padded (padded : floats.Padded) {k i j : ℕ}
    (zeros : ∀ d, k ≤ d → batch.a d i = floats.zero ∧ batch.b d j = floats.zero) {n : ℕ}
    (all : k ≤ n) : batch.dot floats n i j = batch.dot floats k i j := by
  induction n, all using Nat.le_induction with
  | base => rfl
  | succ n more inductionHypothesis =>
      have sums : batch.dot floats n i j =
          ((List.range n).map fun d => floats.mul (batch.a d i) (batch.b d j)).foldl floats.add
            floats.zero := by
        rw [List.foldl_map, Batch.dot]
      obtain ⟨a_zero, b_zero⟩ := zeros n more
      rw [← inductionHypothesis, Batch.dot, List.range_succ, List.foldl_append, List.foldl_cons,
        List.foldl_nil, ← Batch.dot, a_zero, b_zero, sums]
      exact padded _

end Sums

/-! ## A group's products -/

/-- The group of an element of the destination. -/
def tileHome (node : Node) (i : Fin 4 → ℕ) : Gid := ⟨i 0 / 64, i 1 / 64, node.batch i⟩

/-- The element of the destination at a place. -/
def productOf (s0 s1 : ℕ) (cells : Cell → F) (packed : Packed) (node : Node) (i : Fin 4 → ℕ) : F :=
  (batchOf floats s0 s1 cells packed node (node.batch i)).dot floats (node.a.ne 0) (i 0) (i 1)

section Store

variable {floats} {s0 s1 dst : ℕ} {cells m : Cell → F} {node : Node} {packed : Packed} {gid : Gid}
  (runs : Runs packed node) (here : At packed node gid)

/-- The elements of a thread. -/
def Mine (t : Fin 16 × Fin 16) (i : Fin 4 → ℕ) : Prop := i 0 % 16 = t.1 ∧ i 1 % 16 = t.2

include runs here

/-- A thread stores the sums that are elements of the destination. -/
theorem storeSums_returns (ready : Ready s0 s1 dst packed node) (t : Fin 16 × Fin 16) {c : Sums F}
    {product : (Fin 4 → ℕ) → F} {reads : Set Cell}
    (sums : ∀ p r : Fin 4, gid.x * 64 + (t.1 + 16 * p) < node.a.ne 1 →
      gid.y * 64 + (t.2 + 16 * r) < node.b.ne 1 →
        c p r = product (node.bIndex (gid.x * 64 + (t.1 + 16 * p))
          (gid.y * 64 + (t.2 + 16 * r)) gid.z)) :
    Returns ⟨reads, {place | ∃ i, node.dst.Holds i ∧ tileHome node i = gid ∧ Mine t i ∧
        place = .word dst (node.dst.element i)}⟩
      (storeSums dst (frameAt packed.slot gid.z) gid t.1 t.2 c) m fun _ m' =>
        ∀ i, node.dst.Holds i → tileHome node i = gid → Mine t i →
          m' (.word dst (node.dst.element i)) = product i := by
  let row (p : Fin 4) : ℕ := gid.x * 64 + (t.1 + 16 * p)
  let column (r : Fin 4) : ℕ := gid.y * 64 + (t.2 + 16 * r)
  have words (pr : Fin 4 × Fin 4) : (rowOf gid t.1 pr.1).toNat = row pr.1 ∧
      (columnOf gid t.2 pr.2).toNat = column pr.2 :=
    ⟨(toNat_m0 here (by omega)).1, (toNat_m0 here (by omega)).2⟩
  have guard (pr : Fin 4 × Fin 4) :
      (decide (rowOf gid t.1 pr.1 < (frameAt packed.slot gid.z).m) &&
        decide (columnOf gid t.2 pr.2 < (frameAt packed.slot gid.z).n)) = true ↔
          row pr.1 < node.a.ne 1 ∧ column pr.2 < node.b.ne 1 := by
    rw [Bool.and_eq_true, decide_eq_true_iff, decide_eq_true_iff, UInt32.lt_iff_toNat_lt,
      UInt32.lt_iff_toNat_lt, frameAt, runs.src0.ne, runs.src1.ne, (words pr).1, (words pr).2]
  have address (pr : Fin 4 × Fin 4) (low : row pr.1 < node.a.ne 1)
      (high : column pr.2 < node.b.ne 1) :
      ((frameAt packed.slot gid.z).dAt (rowOf gid t.1 pr.1) (columnOf gid t.2 pr.2)).toNat =
        node.dst.element (node.bIndex (row pr.1) (column pr.2) gid.z) := by
    obtain ⟨row_eq, column_eq⟩ := words pr
    have there := runs.toNat_dAt here.batch here.short (row_eq.symm ▸ low)
      (column_eq.symm ▸ high)
    rwa [row_eq, column_eq] at there
  refine (returns_writes (fun _ _ => rfl) (fun pr _ there => ?_)
    (fun pr _ pr' _ there there' again => ?_)).weaken ?_
  · obtain ⟨low, high⟩ := (guard pr).1 there
    rw [address pr low high]
    refine ⟨_, runs.d_holds here.batch low high, ?_, ⟨?_, ?_⟩, rfl⟩
    · have x : (gid.x * 64 + (t.1 + 16 * pr.1)) / 64 = gid.x := by omega
      have y : (gid.y * 64 + (t.2 + 16 * pr.2)) / 64 = gid.y := by omega
      have z := batch_bIndex node (row pr.1) (column pr.2) gid.z
      rw [tileHome, z]
      exact congrArg₂ (Gid.mk · · gid.z) x y
    · change (gid.x * 64 + (t.1 + 16 * pr.1)) % 16 = t.1
      omega
    · change (gid.y * 64 + (t.2 + 16 * pr.2)) % 16 = t.2
      omega
  · obtain ⟨low, high⟩ := (guard pr).1 there
    obtain ⟨low', high'⟩ := (guard pr').1 there'
    rw [address pr low high, address pr' low' high'] at again
    rw [sums _ _ low high, sums _ _ low' high']
    exact congrArg product (ready.apart (runs.d_holds here.batch low high)
      (runs.d_holds here.batch low' high') (Cell.word.inj again).2)
  · rintro - m' stored i holds home own
    obtain ⟨x, y, z⟩ := Gid.mk.inj home
    obtain ⟨low, high⟩ := own
    have small := t.1.isLt
    have small' := t.2.isLt
    have whole := (runs.bIndex_batch holds).2
    rw [z] at whole
    let p : Fin 4 := ⟨i 0 % 64 / 16, by omega⟩
    let r : Fin 4 := ⟨i 1 % 64 / 16, by omega⟩
    have row_eq : row p = i 0 := by
      change gid.x * 64 + (t.1 + 16 * (i 0 % 64 / 16)) = i 0
      omega
    have column_eq : column r = i 1 := by
      change gid.y * 64 + (t.2 + 16 * (i 1 % 64 / 16)) = i 1
      omega
    have listed : (p, r) ∈ (List.finRange 4).product (List.finRange 4) :=
      List.pair_mem_product.2 ⟨List.mem_finRange p, List.mem_finRange r⟩
    have low : row p < node.a.ne 1 := row_eq.trans_lt ((holds 0).trans_eq runs.rows)
    have high : column r < node.b.ne 1 := column_eq.trans_lt ((holds 1).trans_eq runs.columns)
    have at_i := stored (p, r) listed ((guard (p, r)).2 ⟨low, high⟩)
    have product_i := sums p r low high
    change c p r = product (node.bIndex (row p) (column r) gid.z) at product_i
    rw [address (p, r) low high, product_i, row_eq, column_eq, whole] at at_i
    exact at_i

omit runs here in
/-- Past its ends a batch has zeros. -/
theorem batchOf_zeros (z i j d : ℕ) (past : node.a.ne 0 ≤ d) :
    (batchOf floats s0 s1 cells packed node z).a d i = floats.zero ∧
      (batchOf floats s0 s1 cells packed node z).b d j = floats.zero :=
  ⟨if_neg fun inside => absurd inside.1 (by omega), if_neg fun inside => absurd inside.1 (by omega)⟩

omit runs here in
/-- An element is one thread's. -/
theorem mine_apart (t u : Fin 16 × Fin 16) (i : Fin 4 → ℕ) (mine : Mine t i) (yours : Mine u i) :
    t = u :=
  Prod.ext (Fin.ext (mine.1.symm.trans yours.1)) (Fin.ext (mine.2.symm.trans yours.2))

omit runs here in
/-- Every element is some thread's. -/
theorem exists_mine (i : Fin 4 → ℕ) : ∃ t : Fin 16 × Fin 16, Mine t i :=
  ⟨(⟨i 0 % 16, Nat.mod_lt _ (by decide)⟩, ⟨i 1 % 16, Nat.mod_lt _ (by decide)⟩), rfl, rfl⟩

/-- The group of a tiled kernel leaves its products. -/
theorem finishes_tiled (ready : Ready s0 s1 dst packed node) (padded : floats.Padded) :
    Finishes (packed.area s0 s1 dst node (tileHome node) gid)
      (fun t : Fin 16 × Fin 16 => tiled floats packed.entries s0 s1 dst
        (frameAt packed.slot gid.z) gid t.1 t.2) cells
      fun final => ∀ i, node.dst.Holds i → tileHome node i = gid →
        final (.word dst (node.dst.element i)) = productOf floats s0 s1 cells packed node i := by
  have short := ready.short
  let batch := batchOf floats s0 s1 cells packed node gid.z
  have count : (((frameAt packed.slot gid.z).k + 15) / 16).toNat = (node.a.ne 0 + 15) / 16 := by
    have length := runs.src0.ne 0
    have fifteen : (15 : UInt32).toNat = 15 := rfl
    rw [UInt32.toNat_div, UInt32.toNat_add, frameAt, length, fifteen, Nat.mod_eq_of_lt (by omega)]
    rfl
  refine Finishes.loop (List.range (((frameAt packed.slot gid.z).k + 15) / 16).toNat)
    (fun before t => before.foldl (fun c kt => Sums.afterTile floats batch gid t.1 t.2 c kt)
      fun _ _ => floats.zero)
    (fun before => before.foldl (fun m kt => fill batch gid kt m) cells) ?_ ?_
  · intro before kt later split onward rest
    have turn : kt < (node.a.ne 0 + 15) / 16 := by
      rw [← count]
      exact List.mem_range.1 (split ▸ List.mem_append_cons_self)
    have same : ∀ place ∈ packed.sources s0 s1 node,
        before.foldl (fun m kt => fill batch gid kt m) cells place = cells place := by
      clear split rest
      intro place source
      induction before using List.reverseRecOn with
      | nil => rfl
      | append_singleton before kt inductionHypothesis =>
          rw [List.foldl_append, List.foldl_cons, List.foldl_nil, fill_source batch kt source,
            inductionHypothesis]
    refine finishes_turn runs here same (by omega) short _ ?_
    simpa only [List.foldl_append, List.foldl_cons, List.foldl_nil] using rest
  · refine ready.finishes_store Mine ∅ (fun _ none_ => absurd none_ (Set.notMem_empty _))
      mine_apart (fun i _ _ => exists_mine i) fun t => ?_
    refine storeSums_returns runs here ready t fun p r low high => ?_
    have z := batch_bIndex node (gid.x * 64 + (t.1 + 16 * p))
      (gid.y * 64 + (t.2 + 16 * r))
    have all : node.a.ne 0 ≤ (node.a.ne 0 + 15) / 16 * 16 := by omega
    rw [productOf, z, afterTiles_apply, count]
    exact Batch.dot_padded floats batch padded (fun d past => batchOf_zeros _ _ _ d past) all

/-- The group of a serial sibling leaves its products. -/
theorem finishes_serialTiled (ready : Ready s0 s1 dst packed node) :
    Finishes (packed.area s0 s1 dst node (tileHome node) gid)
      (fun t : Fin 16 × Fin 16 => serialTiled floats packed.entries s0 s1 dst
        (frameAt packed.slot gid.z) gid t.1 t.2) cells
      fun final => ∀ i, node.dst.Holds i → tileHome node i = gid →
        final (.word dst (node.dst.element i)) = productOf floats s0 s1 cells packed node i := by
  refine ready.finishes_store Mine (packed.sources s0 s1 node) (fun _ source => .inr source)
    mine_apart (fun i _ _ => exists_mine i) fun t => ?_
  let batch := batchOf floats s0 s1 cells packed node gid.z
  have length : (frameAt packed.slot gid.z).k.toNat = node.a.ne 0 := runs.src0.ne 0
  refine Returns.bind (Returns.foldlM (fun before c m => m = cells ∧ ∀ p r : Fin 4,
      c p r = before.foldl (fun c k => floats.add c (floats.mul
        (batch.a k (gid.x * 64 + (t.1 + 16 * p))) (batch.b k (gid.y * 64 + (t.2 + 16 * r)))))
        floats.zero) ?_ ⟨rfl, fun _ _ => rfl⟩ ?_)
  · rintro before k later split c m ⟨rfl, sums⟩
    have low : k < node.a.ne 0 := by
      rw [← length]
      exact List.mem_range.1 (split ▸ List.mem_append_cons_self)
    have depth : (UInt32.ofNat k).toNat = k :=
      UInt32.toNat_ofNat_of_lt' (low.trans_le ((runs.small.1 0).trans (by decide)))
    have row (p : Fin 4) : (rowOf gid t.1 p).toNat = gid.x * 64 + (t.1 + 16 * p) :=
      (toNat_m0 here (by omega)).1
    have column (r : Fin 4) : (columnOf gid t.2 r).toNat = gid.y * 64 + (t.2 + 16 * r) :=
      (toNat_m0 here (by omega)).2
    have guard_row (p : Fin 4) : decide (rowOf gid t.1 p < (frameAt packed.slot gid.z).m) = true ↔
        (UInt32.ofNat k).toNat < node.a.ne 0 ∧ (rowOf gid t.1 p).toNat < node.a.ne 1 := by
      rw [decide_eq_true_iff, UInt32.lt_iff_toNat_lt, frameAt, runs.src0.ne, depth]
      exact (and_iff_right low).symm
    have guard_column (r : Fin 4) :
        decide (columnOf gid t.2 r < (frameAt packed.slot gid.z).n) = true ↔
          (UInt32.ofNat k).toNat < node.a.ne 0 ∧ (columnOf gid t.2 r).toNat < node.b.ne 1 := by
      rw [decide_eq_true_iff, UInt32.lt_iff_toNat_lt, frameAt, runs.src1.ne, depth]
      exact (and_iff_right low).symm
    refine Returns.look Set.subset_union_left (Returns.components (fun _ _ => _) _
      fun p => loadIf_a_returns runs here (fun _ _ => rfl) (guard_row p)) ?_
    refine Returns.look Set.subset_union_left (Returns.components (fun _ _ => _) _
      fun r => loadIf_b_returns runs here (fun _ _ => rfl) (guard_column r)) ?_
    refine ⟨rfl, fun p r => ?_⟩
    rw [List.foldl_append, List.foldl_cons, List.foldl_nil, ← sums, Sums.plus, depth, row, column]
  · rintro c m ⟨rfl, sums⟩
    refine storeSums_returns runs here ready t fun p r _ _ => ?_
    have z := batch_bIndex node (gid.x * 64 + (t.1 + 16 * p))
      (gid.y * 64 + (t.2 + 16 * r))
    rw [productOf, z, sums, length]
    rfl

end Store

/-! ## A dispatch -/

section Dispatch

variable {s0 s1 dst : ℕ} {node : Node} {packed : Packed}

/-- The threads of a tiled dispatch. -/
def Packed.tiledKernel (packed : Packed) (s0 s1 dst : ℕ) (g : packed.grid.Groups)
    (t : Fin 16 × Fin 16) : Code Cell F PUnit :=
  tiled floats packed.entries s0 s1 dst (frameAt packed.slot (packed.grid.gid g).z)
    (packed.grid.gid g) t.1 t.2

/-- The threads of its serial sibling. -/
def Packed.tiledSibling (packed : Packed) (s0 s1 dst : ℕ) (g : packed.grid.Groups)
    (t : Fin 16 × Fin 16) : Code Cell F PUnit :=
  serialTiled floats packed.entries s0 s1 dst (frameAt packed.slot (packed.grid.gid g).z)
    (packed.grid.gid g) t.1 t.2

variable (runs : Runs packed node) (tiles : node.vec = false)

include runs tiles

/-- The grid of the tiled kernels. -/
theorem Runs.tiledGrid :
    packed.grid = ⟨cdiv (node.a.ne 1) kTile, cdiv (node.b.ne 1) kTile,
        node.b.ne 2 * node.b.ne 3, 0⟩ ∧
      packed.grid.x ≤ Move.maxGroupsPerDim ∧ packed.grid.y ≤ Move.maxGroupsPerDim ∧
        packed.grid.z ≤ Move.maxGroupsPerDim := by
  have grid := runs.grid
  simp only [Node.grid, tiles, Bool.false_eq_true, if_false, runs.rows, runs.columns,
    runs.batches] at grid
  split at grid
  next => cases grid
  next few =>
    split at grid
    next => cases grid
    next inside =>
      obtain grid := (Option.some.inj grid).symm
      rw [not_or, not_lt, not_lt] at inside
      rw [grid]
      exact ⟨rfl, inside.1, inside.2, not_lt.1 few⟩

/-- The groups of the grid are numbered without a wrap. -/
theorem Runs.tiledAt (g : packed.grid.Groups) : At packed node (packed.grid.gid g) := by
  obtain ⟨grid, x, y, z⟩ := runs.tiledGrid tiles
  have batches : packed.grid.z = node.b.ne 2 * node.b.ne 3 := congrArg Grid.z grid
  exact {
    batch := batches ▸ g.2.2.isLt
    short := g.2.2.isLt.trans_le (z.trans (by decide))
    x := g.1.isLt.trans_le x
    y := g.2.1.isLt.trans_le y }

/-- Every element of the destination has a group. -/
theorem Runs.exists_tile {i : Fin 4 → ℕ} (holds : node.dst.Holds i) :
    ∃ g, packed.grid.gid g = tileHome node i := by
  obtain ⟨grid, -⟩ := runs.tiledGrid tiles
  have x : i 0 / 64 < packed.grid.x := by
    have := (holds 0).trans_eq runs.rows
    rw [congrArg Grid.x grid]
    change i 0 / 64 < (node.a.ne 1 + 64 - 1) / 64
    omega
  have y : i 1 / 64 < packed.grid.y := by
    have := (holds 1).trans_eq runs.columns
    rw [congrArg Grid.y grid]
    change i 1 / 64 < (node.b.ne 1 + 64 - 1) / 64
    omega
  have z : node.batch i < packed.grid.z := by
    rw [congrArg Grid.z grid]
    exact (runs.bIndex_batch holds).1
  exact ⟨(⟨_, x⟩, ⟨_, y⟩, ⟨_, z⟩), rfl⟩

/-- In every order of the turns a tiled dispatch leaves all products. -/
theorem Runs.settles_tiled (ready : Ready s0 s1 dst packed node) (padded : floats.Padded)
    (cells : Cell → F) :
    Settles Step ⟨packed.tiledKernel floats s0 s1 dst, cells⟩ fun state : State _ _ Cell F =>
      (∀ g t, state.code g t = .done ⟨⟩) ∧
        Done dst node (productOf floats s0 s1 cells packed node) cells state.cells :=
  ready.settles (fun _ holds => runs.exists_tile tiles holds) fun g =>
    finishes_tiled runs (runs.tiledAt tiles g) ready padded

/-- The serial sibling of the tiled kernel ends with the products. -/
theorem Runs.settles_tiledSibling (ready : Ready s0 s1 dst packed node) (cells : Cell → F) :
    Settles Step ⟨packed.tiledSibling floats s0 s1 dst, cells⟩ fun state : State _ _ Cell F =>
      (∀ g t, state.code g t = .done ⟨⟩) ∧
        Done dst node (productOf floats s0 s1 cells packed node) cells state.cells :=
  ready.settles (fun _ holds => runs.exists_tile tiles holds) fun g =>
    finishes_serialTiled runs (runs.tiledAt tiles g) ready

end Dispatch

end DressOn.Ggml.MatMul
