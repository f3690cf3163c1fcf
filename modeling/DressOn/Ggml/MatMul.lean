import DressOn.Ggml.Launch
import DressOn.Ggml.Reshape
import DressOn.Lib.TreeReductions

/-!
# Matrix products

MUL_MAT multiplies the rows of two tensors, batch by batch; a batch of the first one serves several
of the second. Up to four columns a kernel gives each row a warp that reduces its lanes, beyond that
a group computes a tile of 64 by 64 from tiles in shared memory. Nothing is assumed of the float
operations here.
-/

namespace DressOn.Ggml.MatMul

open ThreadGroups
open Move (Block GgmlType fillBlock maxWord maxGroupsPerDim)

/-- The float operations of the kernels, and the conversions of the upper or lower half of a
word. -/
structure Floats (F : Type) where
  add : F → F → F
  mul : F → F → F
  zero : F
  f16 : Bool → F → F
  bf16 : Bool → F → F

/-- The element types of the sources. -/
inductive Entry where
  | f32
  | f16
  | bf16
deriving DecidableEq

/-- A node: `src[0]`, `src[1]` and the destination. -/
structure Node where
  dst : Move.Tensor
  a : Move.Tensor
  b : Move.Tensor

/-- `kVecMaxCols`. -/
def kVecMaxCols : ℕ := 4

/-- `kVecRows`. -/
def kVecRows : ℕ := 8

/-- `kTile`. -/
def kTile : ℕ := 64

/-- `cdiv`. -/
def cdiv (a b : ℕ) : ℕ := (a + b - 1) / b

/-- The group counts, and word 57. -/
structure Grid where
  x : ℕ
  y : ℕ
  z : ℕ
  rowGroupsX : ℕ

namespace Node

variable (node : Node)

/-- The kernels there are, by the types of the sources. -/
def entries : Option (Entry × Entry) :=
  match node.a.type, node.b.type with
  | .f32, .f32 => some (.f32, .f32)
  | .f16, .f32 => some (.f16, .f32)
  | .bf16, .f32 => some (.bf16, .f32)
  | .f16, .f16 => some (.f16, .f16)
  | _, _ => none

/-- `vec` of `pack_mul_mat`. -/
def vec : Bool := decide (node.dst.ne 1 ≤ kVecMaxCols)

/-- `grid`. -/
def grid : Option Grid :=
  let m := node.dst.ne 0
  let n := node.dst.ne 1
  let batches := node.dst.ne 2 * node.dst.ne 3
  if maxGroupsPerDim < batches then none
  else if node.vec then
    let blocks := cdiv m kVecRows
    let gx := if blocks < maxGroupsPerDim then blocks else maxGroupsPerDim
    let gy := cdiv blocks gx
    if maxGroupsPerDim < gy then none else some ⟨gx, gy, batches, gx⟩
  else
    let gx := cdiv m kTile
    let gy := cdiv n kTile
    if maxGroupsPerDim < gx ∨ maxGroupsPerDim < gy then none else some ⟨gx, gy, batches, 0⟩

/-- `supports_mul_mat`. -/
def supports : Bool :=
  node.dst.type == .f32 && node.entries.isSome &&
    decide (node.a.ne 0 = node.b.ne 0 ∧ node.dst.ne 0 = node.a.ne 1 ∧
      node.dst.ne 1 = node.b.ne 1 ∧ node.dst.ne 2 = node.b.ne 2 ∧ node.dst.ne 3 = node.b.ne 3) &&
    node.dst.fits && node.a.fits && node.b.fits &&
    decide (node.b.ne 2 % node.a.ne 2 = 0 ∧ node.b.ne 3 % node.a.ne 3 = 0) && node.grid.isSome

end Node

/-- The words the kernels read: the blocks at words 1, 10 and 19, and words 55 to 57. -/
structure Slot where
  dst : Block
  src0 : Block
  src1 : Block
  r2 : UInt32
  r3 : UInt32
  rowGroupsX : UInt32

/-- A packed dispatch. -/
structure Packed where
  entries : Entry × Entry
  vec : Bool
  slot : Slot
  grid : Grid

/-- `pack_mul_mat`, after `supports_mul_mat` and `fill_standard`. -/
def Node.pack (node : Node) : Option Packed :=
  if node.supports then
    (fillBlock node.dst).bind fun dst => (fillBlock node.a).bind fun src0 =>
      (fillBlock node.b).bind fun src1 => node.entries.bind fun entries => node.grid.map fun grid =>
        { entries, vec := node.vec, grid
          slot := {
            dst, src0, src1
            r2 := UInt32.ofNat (node.b.ne 2 / node.a.ne 2)
            r3 := UInt32.ofNat (node.b.ne 3 / node.a.ne 3)
            rowGroupsX := UInt32.ofNat grid.rowGroupsX } }
  else none

/-! ## What the kernels share -/

/-- A group: `gid`. -/
structure Gid where
  x : ℕ
  y : ℕ
  z : ℕ
deriving DecidableEq

/-- An element of `As` or `Bs`, or of `red`, of a group; a word of a buffer. -/
inductive Cell where
  | tile (gid : Gid) (second : Bool) (kk rr : ℕ)
  | red (gid : Gid) (row lane : ℕ)
  | word (buffer index : ℕ)
deriving DecidableEq

/-- What `main` reads at its start. -/
structure Frame where
  k : UInt32
  m : UInt32
  n : UInt32
  aBase : UInt32
  bBase : UInt32
  dBase : UInt32
  ak : UInt32
  am : UInt32
  bk : UInt32
  bn : UInt32
  dm : UInt32
  dn : UInt32

/-- The frame of the groups of a batch. -/
def frameAt (w : Slot) (gidZ : ℕ) : Frame :=
  let ne12 := w.src1.ne 2
  let b2 := UInt32.ofNat gidZ % ne12
  let b3 := UInt32.ofNat gidZ / ne12
  { k := w.src0.ne 0
    m := w.src0.ne 1
    n := w.src1.ne 1
    aBase := w.src0.off + b2 / w.r2 * w.src0.nb 2 + b3 / w.r3 * w.src0.nb 3
    bBase := w.src1.off + b2 * w.src1.nb 2 + b3 * w.src1.nb 3
    dBase := w.dst.off + b2 * w.dst.nb 2 + b3 * w.dst.nb 3
    ak := w.src0.nb 0
    am := w.src0.nb 1
    bk := w.src1.nb 0
    bn := w.src1.nb 1
    dm := w.dst.nb 0
    dn := w.dst.nb 1 }

namespace Frame

variable (f : Frame)

/-- Where `lda` reads. -/
def aAt (k i : UInt32) : UInt32 := f.aBase + k * f.ak + i * f.am

/-- Where `ldb` reads. -/
def bAt (k j : UInt32) : UInt32 := f.bBase + k * f.bk + j * f.bn

/-- Where a product is stored. -/
def dAt (i j : UInt32) : UInt32 := f.dBase + i * f.dm + j * f.dn

end Frame

section Loads

variable {F : Type} (floats : Floats F)

/-- The word that holds an element. -/
def Entry.word (entry : Entry) (e : UInt32) : ℕ :=
  match entry with
  | .f32 => e.toNat
  | .f16 | .bf16 => (e >>> 1).toNat

/-- The element in its word. -/
def Entry.value (entry : Entry) (e : UInt32) (word : F) : F :=
  match entry with
  | .f32 => word
  | .f16 => floats.f16 (e &&& 1 != 0) word
  | .bf16 => floats.bf16 (e &&& 1 != 0) word

/-- `lda` and `ldb`. -/
def load (entry : Entry) (buffer : ℕ) (e : UInt32) : Code Cell F F := do
  let word ← Code.read (.word buffer (entry.word e))
  return entry.value floats e word

/-- A load gives the element, and changes nothing. -/
theorem load_returns (entry : Entry) (buffer : ℕ) (e : UInt32) {reads : Set Cell}
    (known : .word buffer (entry.word e) ∈ reads) (cells : Cell → F) :
    Returns ⟨reads, ∅⟩ (load floats entry buffer e) cells fun value m =>
      value = entry.value floats e (cells (.word buffer (entry.word e))) ∧ m = cells :=
  ⟨.inl known, rfl, rfl⟩

end Loads

/-! ## Addresses -/

/-- A sum of words that is small is exact. -/
theorem toNat_address {off a b c d x y z w : UInt32}
    (fits : off.toNat + x.toNat * a.toNat + y.toNat * b.toNat + z.toNat * c.toNat +
      w.toNat * d.toNat < 2 ^ 32) :
    (off + z * c + w * d + x * a + y * b).toNat =
      off.toNat + x.toNat * a.toNat + y.toNat * b.toNat + z.toNat * c.toNat +
        w.toNat * d.toNat := by
  simp only [UInt32.toNat_add, UInt32.toNat_mul]
  omega

/-- An element of a batch is at its own address. -/
theorem Block.Of.toNat_batch {t : Move.Tensor} {b : Block} (holds : b.Of t) {i : Fin 4 → ℕ}
    (inside : t.Holds i) {x y z w : UInt32}
    (numbers : x.toNat = i 0 ∧ y.toNat = i 1 ∧ z.toNat = i 2 ∧ w.toNat = i 3) :
    (b.off + z * b.nb 2 + w * b.nb 3 + x * b.nb 0 + y * b.nb 1).toNat = t.element i := by
  have less := holds.element_lt inside
  obtain ⟨x_eq, y_eq, z_eq, w_eq⟩ := numbers
  have same : b.off.toNat + x.toNat * (b.nb 0).toNat + y.toNat * (b.nb 1).toNat +
      z.toNat * (b.nb 2).toNat + w.toNat * (b.nb 3).toNat = t.element i := by
    rw [Move.Tensor.element, Fin.sum_univ_four, holds.off, holds.nb, holds.nb, holds.nb, holds.nb,
      x_eq, y_eq, z_eq, w_eq]
    simp only [Nat.add_assoc]
  rw [toNat_address (by rw [same]; omega), same]

/-! ## A packed node -/

variable {node : Node} {packed : Packed}

/-- What a packed node runs under. -/
structure Runs (packed : Packed) (node : Node) : Prop where
  entries : node.entries = some packed.entries
  vec : packed.vec = node.vec
  grid : node.grid = some packed.grid
  dst : packed.slot.dst.Of node.dst
  src0 : packed.slot.src0.Of node.a
  src1 : packed.slot.src1.Of node.b
  r2 : packed.slot.r2.toNat = node.b.ne 2 / node.a.ne 2
  r3 : packed.slot.r3.toNat = node.b.ne 3 / node.a.ne 3
  rowGroupsX : packed.slot.rowGroupsX = UInt32.ofNat packed.grid.rowGroupsX
  shared : node.b.ne 0 = node.a.ne 0
  rows : node.dst.ne 0 = node.a.ne 1
  columns : node.dst.ne 1 = node.b.ne 1
  batches : node.dst.ne 2 = node.b.ne 2 ∧ node.dst.ne 3 = node.b.ne 3
  broadcast : node.a.ne 2 ∣ node.b.ne 2 ∧ node.a.ne 3 ∣ node.b.ne 3
  pos : (∀ k, 0 < node.a.ne k) ∧ ∀ k, 0 < node.b.ne k
  small : (∀ k, node.a.ne k ≤ maxWord) ∧ ∀ k, node.b.ne k ≤ maxWord

/-- A packed node runs under its words. -/
theorem runs_of_pack (packs : node.pack = some packed) : Runs packed node := by
  unfold Node.pack at packs
  split at packs
  next supports =>
    obtain ⟨dst, dst_eq, packs⟩ := Option.bind_eq_some_iff.1 packs
    obtain ⟨src0, src0_eq, packs⟩ := Option.bind_eq_some_iff.1 packs
    obtain ⟨src1, src1_eq, packs⟩ := Option.bind_eq_some_iff.1 packs
    obtain ⟨entries, entries_eq, packs⟩ := Option.bind_eq_some_iff.1 packs
    obtain ⟨grid, grid_eq, rfl⟩ := Option.map_eq_some_iff.1 packs
    simp only [Node.supports, Bool.and_eq_true, decide_eq_true_eq] at supports
    obtain ⟨⟨⟨⟨⟨⟨-, shape⟩, -⟩, fits_a⟩, fits_b⟩, broadcast⟩, -⟩ := supports
    have small_a := Move.Tensor.ne_le_of_fits fits_a
    have small_b := Move.Tensor.ne_le_of_fits fits_b
    exact {
      entries := entries_eq
      vec := rfl
      grid := grid_eq
      dst := Move.fillBlock_of dst_eq
      src0 := Move.fillBlock_of src0_eq
      src1 := Move.fillBlock_of src1_eq
      r2 := Move.toNat_ofNat ((Nat.div_le_self _ _).trans (small_b 2))
      r3 := Move.toNat_ofNat ((Nat.div_le_self _ _).trans (small_b 3))
      rowGroupsX := rfl
      shared := shape.1.symm
      rows := shape.2.1
      columns := shape.2.2.1
      batches := shape.2.2.2
      broadcast := ⟨Nat.dvd_of_mod_eq_zero broadcast.1, Nat.dvd_of_mod_eq_zero broadcast.2⟩
      pos := ⟨Move.Tensor.pos_of_fits fits_a, Move.Tensor.pos_of_fits fits_b⟩
      small := ⟨small_a, small_b⟩ }
  next => cases packs

namespace Node

variable (node)

/-- Element `k` of row `i` of the first source, in the batch of a batch of the second. -/
def aIndex (k i z : ℕ) : Fin 4 → ℕ :=
  ![k, i, z % node.b.ne 2 / (node.b.ne 2 / node.a.ne 2),
    z / node.b.ne 2 / (node.b.ne 3 / node.a.ne 3)]

/-- Element `k` of row `j` of the second source. -/
def bIndex (k j z : ℕ) : Fin 4 → ℕ := ![k, j, z % node.b.ne 2, z / node.b.ne 2]

/-- The batch of an index. -/
def batch (i : Fin 4 → ℕ) : ℕ := i 2 + node.b.ne 2 * i 3

end Node

/-- The batch of an index is the one it is made with. -/
theorem batch_bIndex (node : Node) (i j z : ℕ) : node.batch (node.bIndex i j z) = z :=
  Nat.mod_add_div z _

namespace Runs

variable (runs : Runs packed node) {z : ℕ}

include runs

/-- The batch of a group, as its threads compute it. -/
theorem toNat_batch (short : z < 2 ^ 32) :
    (UInt32.ofNat z % packed.slot.src1.ne 2).toNat = z % node.b.ne 2 ∧
      (UInt32.ofNat z / packed.slot.src1.ne 2).toNat = z / node.b.ne 2 := by
  have word : (UInt32.ofNat z).toNat = z := UInt32.toNat_ofNat_of_lt' short
  rw [UInt32.toNat_mod, UInt32.toNat_div, word, runs.src1.ne]
  exact ⟨rfl, rfl⟩

/-- An index is the one of its row, its column and its batch. -/
theorem bIndex_batch {i : Fin 4 → ℕ} (holds : node.dst.Holds i) :
    node.batch i < node.b.ne 2 * node.b.ne 3 ∧ node.bIndex (i 0) (i 1) (node.batch i) = i := by
  have low : i 2 < node.b.ne 2 := (holds 2).trans_eq runs.batches.1
  have high : i 3 < node.b.ne 3 := (holds 3).trans_eq runs.batches.2
  have pos := runs.pos.2 2
  constructor
  · calc node.batch i < node.b.ne 2 * (i 3 + 1) := by rw [Node.batch, Nat.mul_succ]; omega
      _ ≤ node.b.ne 2 * node.b.ne 3 := Nat.mul_le_mul_left _ high
  · funext k
    fin_cases k
    · rfl
    · rfl
    · change node.batch i % node.b.ne 2 = i 2
      rw [Node.batch, Nat.add_mul_mod_self_left, Nat.mod_eq_of_lt low]
    · change node.batch i / node.b.ne 2 = i 3
      rw [Node.batch, Nat.add_mul_div_left _ _ pos, Nat.div_eq_of_lt low, Nat.zero_add]

variable (inside : z < node.b.ne 2 * node.b.ne 3)

include inside

/-- A batch is one of `src1`. -/
theorem b_batch : z % node.b.ne 2 < node.b.ne 2 ∧ z / node.b.ne 2 < node.b.ne 3 :=
  ⟨Nat.mod_lt _ (runs.pos.2 2), Nat.div_lt_of_lt_mul inside⟩

/-- A batch of the second source has one of the first. -/
theorem a_batch : z % node.b.ne 2 / (node.b.ne 2 / node.a.ne 2) < node.a.ne 2 ∧
    z / node.b.ne 2 / (node.b.ne 3 / node.a.ne 3) < node.a.ne 3 := by
  obtain ⟨low, high⟩ := runs.b_batch inside
  constructor
  · exact Nat.div_lt_of_lt_mul (by rwa [Nat.div_mul_cancel runs.broadcast.1])
  · exact Nat.div_lt_of_lt_mul (by rwa [Nat.div_mul_cancel runs.broadcast.2])

/-- A row of `src0` within the extents is an element. -/
theorem a_holds {k i : ℕ} (k_inside : k < node.a.ne 0) (i_inside : i < node.a.ne 1) :
    node.a.Holds (node.aIndex k i z) := by
  obtain ⟨low, high⟩ := runs.a_batch inside
  intro d
  fin_cases d
  · exact k_inside
  · exact i_inside
  · exact low
  · exact high

/-- A row of `src1` within the extents is an element. -/
theorem b_holds {k j : ℕ} (k_inside : k < node.a.ne 0) (j_inside : j < node.b.ne 1) :
    node.b.Holds (node.bIndex k j z) := by
  obtain ⟨low, high⟩ := runs.b_batch inside
  intro d
  fin_cases d
  · exact k_inside.trans_eq runs.shared.symm
  · exact j_inside
  · exact low
  · exact high

/-- A row and a column within the extents are an element of the destination. -/
theorem d_holds {i j : ℕ} (i_inside : i < node.a.ne 1) (j_inside : j < node.b.ne 1) :
    node.dst.Holds (node.bIndex i j z) := by
  obtain ⟨low, high⟩ := runs.b_batch inside
  intro d
  fin_cases d
  · exact i_inside.trans_eq runs.rows.symm
  · exact j_inside.trans_eq runs.columns.symm
  · exact low.trans_eq runs.batches.1.symm
  · exact high.trans_eq runs.batches.2.symm

variable (short : z < 2 ^ 32)

include short

/-- The word of an element of `src0`. -/
theorem toNat_aAt {k i : UInt32} (k_inside : k.toNat < node.a.ne 0)
    (i_inside : i.toNat < node.a.ne 1) :
    ((frameAt packed.slot z).aAt k i).toNat = node.a.element (node.aIndex k.toNat i.toNat z) := by
  obtain ⟨low, high⟩ := runs.toNat_batch short
  refine Block.Of.toNat_batch runs.src0 (runs.a_holds inside k_inside i_inside) ⟨rfl, rfl, ?_, ?_⟩
  · rw [UInt32.toNat_div, low, runs.r2]
    rfl
  · rw [UInt32.toNat_div, high, runs.r3]
    rfl

/-- The word of an element of `src1`. -/
theorem toNat_bAt {k j : UInt32} (k_inside : k.toNat < node.a.ne 0)
    (j_inside : j.toNat < node.b.ne 1) :
    ((frameAt packed.slot z).bAt k j).toNat = node.b.element (node.bIndex k.toNat j.toNat z) :=
  Block.Of.toNat_batch runs.src1 (runs.b_holds inside k_inside j_inside)
    ⟨rfl, rfl, runs.toNat_batch short⟩

/-- The word of an element of the destination. -/
theorem toNat_dAt {i j : UInt32} (i_inside : i.toNat < node.a.ne 1)
    (j_inside : j.toNat < node.b.ne 1) :
    ((frameAt packed.slot z).dAt i j).toNat = node.dst.element (node.bIndex i.toNat j.toNat z) :=
  Block.Of.toNat_batch runs.dst (runs.d_holds inside i_inside j_inside)
    ⟨rfl, rfl, runs.toNat_batch short⟩

end Runs

/-! ## A dispatch -/

section Dispatch

variable {F : Type} (floats : Floats F) (s0 s1 dst : ℕ)

/-- The words of the sources. -/
def Packed.sources (packed : Packed) (node : Node) : Set Cell :=
  {place | (∃ j, node.a.Holds j ∧
      place = .word s0 (packed.entries.1.word (UInt32.ofNat (node.a.element j)))) ∨
    ∃ j, node.b.Holds j ∧
      place = .word s1 (packed.entries.2.word (UInt32.ofNat (node.b.element j)))}

/-- What the words of a packed node are asked for: no two elements of the destination share a word,
none of its words is a source's, and the shared dimension is short enough for the loops. -/
structure Ready (packed : Packed) (node : Node) : Prop where
  apart : node.dst.Apart
  spares : ∀ i, node.dst.Holds i → .word dst (node.dst.element i) ∉ packed.sources s0 s1 node
  short : node.a.ne 0 + 32 ≤ 2 ^ 32

/-- The group of a cell. -/
def Cell.gid? : Cell → Option Gid
  | .tile gid .. | .red gid .. => some gid
  | .word .. => none

/-- The cells of a group: its own shared memory, and the destination's words that are its own. -/
def Packed.area (packed : Packed) (node : Node) (home : (Fin 4 → ℕ) → Gid) (gid : Gid) :
    Territory Cell where
  reads := packed.sources s0 s1 node
  writes := {place | place.gid? = some gid ∨
    ∃ i, node.dst.Holds i ∧ home i = gid ∧ place = .word dst (node.dst.element i)}

/-- The groups of a grid. -/
abbrev Grid.Groups (grid : Grid) : Type := Fin grid.x × Fin grid.y × Fin grid.z

/-- `gid` of a group. -/
def Grid.gid (grid : Grid) (g : grid.Groups) : Gid := ⟨g.1, g.2.1, g.2.2⟩

/-- The memory after a node whose elements are `product`. -/
def Done (node : Node) (product : (Fin 4 → ℕ) → F) (cells final : Cell → F) : Prop :=
  (∀ i, node.dst.Holds i → final (.word dst (node.dst.element i)) = product i) ∧
  ∀ buffer index, (buffer = dst → ∀ i, node.dst.Holds i → index ≠ node.dst.element i) →
    final (.word buffer index) = cells (.word buffer index)

variable {s0 s1 dst} {home : (Fin 4 → ℕ) → Gid}

/-- Groups do not store to each other's cells. -/
theorem Ready.area_apart (ready : Ready s0 s1 dst packed node) {gid other : Gid}
    (differ : gid ≠ other) :
    (packed.area s0 s1 dst node home gid).Spares (packed.area s0 s1 dst node home other) := by
  have off (place : Cell) (shared : place.gid? ≠ none) : place ∉ packed.sources s0 s1 node := by
    rintro (⟨j, -, rfl⟩ | ⟨j, -, rfl⟩) <;> exact shared rfl
  refine Set.disjoint_left.2 ?_
  rintro place (mine | ⟨i, holds, here, rfl⟩) (source | yours | ⟨j, holds', there, same⟩)
  · exact off place (by rw [mine]; exact Option.some_ne_none gid) source
  · exact differ (Option.some.inj (mine.symm.trans yours))
  · rw [same] at mine
    cases mine
  · exact ready.spares i holds source
  · cases yours
  · have index_eq := ready.apart holds holds' (Cell.word.inj same).2
    exact differ (here.symm.trans (index_eq ▸ there))

/-- Groups that leave their own products leave all products, in every order. -/
theorem Ready.settles (ready : Ready s0 s1 dst packed node) {ι : Type} [Fintype ι] [DecidableEq ι]
    [Nonempty ι] {code : packed.grid.Groups → ι → Code Cell F PUnit} {cells : Cell → F}
    {product : (Fin 4 → ℕ) → F}
    (inGrid : ∀ i, node.dst.Holds i → ∃ g, packed.grid.gid g = home i)
    (finishes : ∀ g, Finishes (packed.area s0 s1 dst node home (packed.grid.gid g)) (code g) cells
      fun m => ∀ i, node.dst.Holds i → home i = packed.grid.gid g →
        m (.word dst (node.dst.element i)) = product i) :
    Settles Step ⟨code, cells⟩ fun state : State _ ι Cell F =>
      (∀ g i, state.code g i = .done ⟨⟩) ∧ Done dst node product cells state.cells := by
  have gids {g h : packed.grid.Groups} (other : g ≠ h) :
      packed.grid.gid g ≠ packed.grid.gid h := by
    intro same
    obtain ⟨x, y, z⟩ := Gid.mk.inj same
    exact other (Prod.ext (Fin.ext x) (Prod.ext (Fin.ext y) (Fin.ext z)))
  obtain ⟨ends, all⟩ :=
    settles_of_finishes (fun g h other => ready.area_apart (gids other)) finishes
  refine ⟨ends, fun state run stuck => ?_⟩
  obtain ⟨done, left, kept⟩ := all state run stuck
  refine ⟨done, fun i holds => ?_, fun buffer index off => kept _ ?_⟩
  · obtain ⟨g, here⟩ := inGrid i holds
    obtain ⟨final, products, same⟩ := left g
    rw [same _ (.inr ⟨i, holds, here.symm, rfl⟩), products i holds here.symm]
  · rintro g (wrong | ⟨i, holds, -, same⟩)
    · cases wrong
    · obtain ⟨buffers, words⟩ := Cell.word.inj same
      exact off buffers i holds words

/-- Threads that store the products of their own elements leave those of the group. -/
theorem Ready.finishes_store (ready : Ready s0 s1 dst packed node) {ι : Type} [Fintype ι]
    {code : ι → Code Cell F PUnit} {m : Cell → F} {product : (Fin 4 → ℕ) → F} {gid : Gid}
    (mine : ι → (Fin 4 → ℕ) → Prop) (reads : Set Cell)
    (known : ∀ place ∈ reads, place.gid? = some gid ∨ place ∈ packed.sources s0 s1 node)
    (apart : ∀ t u i, mine t i → mine u i → t = u)
    (covers : ∀ i, node.dst.Holds i → home i = gid → ∃ t, mine t i)
    (stores : ∀ t, Returns ⟨reads, {place | ∃ i, node.dst.Holds i ∧ home i = gid ∧ mine t i ∧
        place = .word dst (node.dst.element i)}⟩ (code t) m fun _ m' =>
      ∀ i, node.dst.Holds i → home i = gid → mine t i →
        m' (.word dst (node.dst.element i)) = product i) :
    Finishes (packed.area s0 s1 dst node home gid) code m fun final =>
      ∀ i, node.dst.Holds i → home i = gid →
        final (.word dst (node.dst.element i)) = product i := by
  classical
  let stored (place : Cell) : Prop :=
    ∃ i, node.dst.Holds i ∧ home i = gid ∧ place = .word dst (node.dst.element i)
  let after (place : Cell) : F := if there : stored place then product there.choose else m place
  have after_of (i : Fin 4 → ℕ) (holds : node.dst.Holds i) (here : home i = gid) :
      after (.word dst (node.dst.element i)) = product i := by
    have there : stored (.word dst (node.dst.element i)) := ⟨i, holds, here, rfl⟩
    have own : there.choose = i := by
      obtain ⟨holds', -, same⟩ := there.choose_spec
      exact (ready.apart holds holds' (Cell.word.inj same).2).symm
    exact (dif_pos there).trans (congrArg product own)
  refine Finishes.last (fun t => ⟨reads, {place | ∃ i, node.dst.Holds i ∧ home i = gid ∧ mine t i ∧
    place = .word dst (node.dst.element i)}⟩) after (fun t => ⟨?_, ?_⟩) (fun t u other => ?_)
    (fun t => ?_) (fun place unwritten => dif_neg ?_) after_of
  · rintro place (source | ⟨i, holds, here, -, rfl⟩)
    · rcases known place source with shared | source
      · exact .inr (.inl shared)
      · exact .inl source
    · exact .inr (.inr ⟨i, holds, here, rfl⟩)
  · rintro place ⟨i, holds, here, -, rfl⟩
    exact .inr ⟨i, holds, here, rfl⟩
  · refine Set.disjoint_left.2 ?_
    rintro place ⟨i, holds, here, own, rfl⟩ (source | ⟨j, holds', -, own', same⟩)
    · rcases known _ source with shared | source
      · cases shared
      · exact ready.spares i holds source
    · obtain rfl := ready.apart holds holds' (Cell.word.inj same).2
      exact other (apart t u i own own')
  · refine (stores t).weaken ?_
    rintro - m' done place ⟨i, holds, here, own, rfl⟩
    rw [done i holds here own, after_of i holds here]
  · rintro ⟨i, holds, here, rfl⟩
    obtain ⟨t, own⟩ := covers i holds here
    exact unwritten t ⟨i, holds, here, own, rfl⟩

end Dispatch

/-! ## The elements of the sources -/

section Elements

variable {F : Type} (floats : Floats F) (s0 s1 : ℕ) (cells : Cell → F)

/-- Element number `n` of a source. -/
def entryOf (entry : Entry) (buffer n : ℕ) : F :=
  entry.value floats (UInt32.ofNat n) (cells (.word buffer (entry.word (UInt32.ofNat n))))

/-- Element `k` of row `i` of the first source, for a batch of the second. -/
def aElement (packed : Packed) (node : Node) (z k i : ℕ) : F :=
  entryOf floats cells packed.entries.1 s0 (node.a.element (node.aIndex k i z))

/-- Element `k` of row `j` of the second source. -/
def bElement (packed : Packed) (node : Node) (z k j : ℕ) : F :=
  entryOf floats cells packed.entries.2 s1 (node.b.element (node.bIndex k j z))

variable {floats s0 s1 cells} {z : ℕ} (runs : Runs packed node)
  (inside : z < node.b.ne 2 * node.b.ne 3) (short : z < 2 ^ 32) {m : Cell → F}
  (same : ∀ place ∈ packed.sources s0 s1 node, m place = cells place)

include runs inside short same

/-- `lda` gives the element. -/
theorem lda_returns {k i : UInt32} (k_inside : k.toNat < node.a.ne 0)
    (i_inside : i.toNat < node.a.ne 1) :
    Returns ⟨packed.sources s0 s1 node, ∅⟩
      (load floats packed.entries.1 s0 ((frameAt packed.slot z).aAt k i)) m fun value m' =>
        value = aElement floats s0 cells packed node z k.toNat i.toNat ∧ m' = m := by
  have address := runs.toNat_aAt inside short k_inside i_inside
  have word : (frameAt packed.slot z).aAt k i =
      UInt32.ofNat (node.a.element (node.aIndex k.toNat i.toNat z)) := by
    rw [← address, UInt32.ofNat_toNat]
  have source : .word s0 (packed.entries.1.word ((frameAt packed.slot z).aAt k i)) ∈
      packed.sources s0 s1 node :=
    .inl ⟨_, runs.a_holds inside k_inside i_inside, by rw [word]⟩
  refine (load_returns floats _ _ _ source m).weaken ?_
  rintro value m' ⟨rfl, rfl⟩
  rw [same _ source, aElement, entryOf, word]
  exact ⟨rfl, rfl⟩

/-- `ldb` gives the element. -/
theorem ldb_returns {k j : UInt32} (k_inside : k.toNat < node.a.ne 0)
    (j_inside : j.toNat < node.b.ne 1) :
    Returns ⟨packed.sources s0 s1 node, ∅⟩
      (load floats packed.entries.2 s1 ((frameAt packed.slot z).bAt k j)) m fun value m' =>
        value = bElement floats s1 cells packed node z k.toNat j.toNat ∧ m' = m := by
  have address := runs.toNat_bAt inside short k_inside j_inside
  have word : (frameAt packed.slot z).bAt k j =
      UInt32.ofNat (node.b.element (node.bIndex k.toNat j.toNat z)) := by
    rw [← address, UInt32.ofNat_toNat]
  have source : .word s1 (packed.entries.2.word ((frameAt packed.slot z).bAt k j)) ∈
      packed.sources s0 s1 node :=
    .inr ⟨_, runs.b_holds inside k_inside j_inside, by rw [word]⟩
  refine (load_returns floats _ _ _ source m).weaken ?_
  rintro value m' ⟨rfl, rfl⟩
  rw [same _ source, bElement, entryOf, word]
  exact ⟨rfl, rfl⟩

end Elements

end DressOn.Ggml.MatMul
