import DressOn.Ggml.Launch
import DressOn.Ggml.Reshape
import DressOn.Lib.Rows

/-!
# SET through a window

`set_f32` writes a source into a window of another in one dispatch: each thread finds out by
division whether its element is one of the window. What it leaves is set against ggml's own two
steps, a copy of the whole and then a write of every row.
-/

namespace DressOn.Ggml.SetWindow

open Move OwnedCells

/-- A SET node: its tensors and words 37 to 40. -/
structure Node where
  dst : Tensor
  a : Tensor
  b : Tensor
  opParams : Fin 4 → Int32

/-- `Window`: strides and offset in elements. -/
structure Window where
  nb : Fin 3 → ℕ
  off : ℕ

/-- `uint64_t(ne - 1)`. -/
def lessOne (ne : ℕ) : ℕ := (ne + (2 ^ 64 - 1)) % 2 ^ 64

/-- The strides and the offset that the parameters name. -/
def Node.named (node : Node) : Window where
  nb k := (node.opParams k.castSucc).toInt.toNat / 4
  off := (node.opParams 3).toInt.toNat / 4

/-- `window_of`. -/
def Node.windowOf (node : Node) : Option Window :=
  let w := node.named
  let ne := node.b.ne
  if ∃ k, (node.opParams k).toInt < 0 ∨ (node.opParams k).toInt % 4 ≠ 0 then none
  else if w.nb 0 < ne 0 ∨ w.nb 1 < ne 1 * w.nb 0 % 2 ^ 64 ∨ w.nb 2 < ne 2 * w.nb 1 % 2 ^ 64 then
    none
  else
    let last := (w.off + lessOne (ne 0) + lessOne (ne 1) * w.nb 0 + lessOne (ne 2) * w.nb 1 +
      lessOne (ne 3) * w.nb 2) % 2 ^ 64
    if last < node.dst.nelements ∧ w.nb 2 ≤ maxWord ∧ w.off ≤ maxWord then some w else none

/-- `supports_set_f32`. -/
def Node.supports (node : Node) : Bool :=
  node.dst.type == .f32 && node.a.type == .f32 && node.b.type == .f32 &&
    decide (node.a.ne = node.dst.ne) && contiguous node.dst && contiguous node.a &&
    node.windowOf.isSome && node.dst.fits && node.a.fits && node.b.fits

/-- The words the kernel reads, and the launch. -/
structure Packed where
  dst : Block
  src0 : Block
  src1 : Block
  nb : Fin 3 → UInt32
  offset : UInt32
  grid : Launch.Grid

/-- `fill_standard` and `pack_set_f32`, of a supported node. -/
def Node.pack (node : Node) : Option Packed :=
  if node.supports then
    node.windowOf.bind fun w => (fillBlock node.dst).bind fun dst =>
      (fillBlock node.a).bind fun src0 => (fillBlock node.b).bind fun src1 =>
        (Launch.grid1d 256 node.dst.nelements).map fun grid =>
          ⟨dst, src0, src1, fun k => UInt32.ofNat (w.nb k), UInt32.ofNat w.off, grid⟩
  else none

/-- Where the first source is: in a buffer of its own, or where the destination is. -/
inductive Source where
  | buffer (words : Words)
  | inPlace

/-- What a thread reads of the first source: in place it is the cell that it writes. -/
def Source.read (source : Source) (a : ℕ) (old : UInt32) : UInt32 :=
  match source with
  | .buffer words => words a
  | .inPlace => old

/-- The index that the kernel recovers from a place in the window. -/
def Packed.recover (p : Packed) (r : UInt32) : Index :=
  ![r % p.nb 2 % p.nb 1 % p.nb 0, r % p.nb 2 % p.nb 1 / p.nb 0, r % p.nb 2 / p.nb 1, r / p.nb 2]

/-- The body for one index: `x`, from what is read of the first source. -/
def Packed.select (p : Packed) (s1 : Words) (i : Index) (x : UInt32) : UInt32 :=
  let l := i 0 + i 1 * p.dst.ne 0 + i 2 * (p.dst.ne 0 * p.dst.ne 1) +
    i 3 * (p.dst.ne 0 * p.dst.ne 1 * p.dst.ne 2)
  if p.offset ≤ l then
    let j := p.recover (l - p.offset)
    if ∀ k, j k < p.src1.ne k then s1 (off4 p.src1 j).toNat else x
  else x

/-- A thread: the cell that it writes and what it makes of it. -/
def Packed.entry (p : Packed) (source : Source) (s1 : Words) (thread : Launch.Thread p.grid 256) :
    Option (Update ℕ UInt32) :=
  (Launch.entry1D thread).map fun e =>
    let i := unravel4 p.dst e
    { cell := (off4 p.dst i).toNat
      make := fun old => p.select s1 i (source.read (off4 p.src0 i).toNat old) }

/-- The first step of ggml: the whole of the first source, unless it is there already. -/
def Node.copyWhole (node : Node) (source : Source) (cells : Words) : Words :=
  match source with
  | .buffer words =>
    (List.range node.dst.nelements).foldl
      (fun cells n => Function.update cells (node.dst.nth n) (words (node.a.nth n))) cells
  | .inPlace => cells

/-- The indices of a tensor, row by row. -/
def indices (ne : Fin 4 → ℕ) : List (Fin 4 → ℕ) :=
  (List.range (ne 3)).flatMap fun i3 => (List.range (ne 2)).flatMap fun i2 =>
    (List.range (ne 1)).flatMap fun i1 => (List.range (ne 0)).map fun i0 => ![i0, i1, i2, i3]

/-- Where an index lies past the window's start. -/
def place (nb : Fin 3 → ℕ) (j : Fin 4 → ℕ) : ℕ := j 0 + j 1 * nb 0 + j 2 * nb 1 + j 3 * nb 2

/-- The second step: every row of the second source, at its strided place. -/
def Node.writeRows (node : Node) (w : Window) (s1 cells : Words) : Words :=
  (indices node.b.ne).foldl
    (fun cells j => Function.update cells (node.dst.offset / 4 + w.off + place w.nb j)
      (s1 (node.b.element j))) cells

section Inverse

variable {nb : Fin 3 → ℕ} {ne : Fin 4 → ℕ} {j : Fin 4 → ℕ}

/-- A window whose rows and planes do not run into one another. -/
def NestedIn (ne : Fin 4 → ℕ) (nb : Fin 3 → ℕ) : Prop :=
  ne 0 ≤ nb 0 ∧ ne 1 * nb 0 ≤ nb 1 ∧ ne 2 * nb 1 ≤ nb 2

/-- What division finds. -/
def recovered (nb : Fin 3 → ℕ) (r : ℕ) : Fin 4 → ℕ :=
  ![r % nb 2 % nb 1 % nb 0, r % nb 2 % nb 1 / nb 0, r % nb 2 / nb 1, r / nb 2]

theorem place_recovered (nb : Fin 3 → ℕ) (r : ℕ) : place nb (recovered nb r) = r := by
  simp only [place, recovered, Matrix.cons_val_zero, Matrix.cons_val_one, Matrix.cons_val]
  rw [Nat.mod_add_div', Nat.mod_add_div', Nat.mod_add_div']

/-- A remainder and a quotient read off a sum. -/
theorem mod_div_of_lt {low high step : ℕ} (less : low < step) :
    (low + high * step) % step = low ∧ (low + high * step) / step = high := by
  rw [Nat.add_mul_mod_self_right, Nat.mod_eq_of_lt less, Nat.add_mul_div_right _ _ (by omega),
    Nat.div_eq_of_lt less, Nat.zero_add]
  exact ⟨rfl, rfl⟩

/-- Digits below their steps make less than the next step. -/
theorem carry_lt {low high step extent bound : ℕ} (less : low < step) (below : high < extent)
    (fits : extent * step ≤ bound) : low + high * step < bound :=
  calc
    low + high * step < (high + 1) * step := by rw [Nat.succ_mul]; omega
    _ ≤ extent * step := Nat.mul_le_mul_right _ below
    _ ≤ bound := fits

/-- Division finds the index of a place in a nested window. -/
theorem recovered_place (nested : NestedIn ne nb) (inside : ∀ k, j k < ne k) :
    recovered nb (place nb j) = j := by
  obtain ⟨rows, planes, volumes⟩ := nested
  have first : j 0 < nb 0 := (inside 0).trans_le rows
  have second : j 0 + j 1 * nb 0 < nb 1 := carry_lt first (inside 1) planes
  have third : j 0 + j 1 * nb 0 + j 2 * nb 1 < nb 2 := carry_lt second (inside 2) volumes
  obtain ⟨mod0, div0⟩ := @mod_div_of_lt _ (j 1) _ first
  obtain ⟨mod1, div1⟩ := @mod_div_of_lt _ (j 2) _ second
  obtain ⟨mod2, div2⟩ := @mod_div_of_lt _ (j 3) _ third
  funext k
  unfold recovered place
  rw [mod2, div2, mod1, div1, mod0, div0]
  fin_cases k <;> rfl

theorem place_inj (nested : NestedIn ne nb) {j' : Fin 4 → ℕ} (inside : ∀ k, j k < ne k)
    (inside' : ∀ k, j' k < ne k) (same : place nb j = place nb j') : j = j' := by
  rw [← recovered_place nested inside, same, recovered_place nested inside']

theorem mem_indices_iff : j ∈ indices ne ↔ ∀ k, j k < ne k := by
  unfold indices
  simp only [List.mem_flatMap, List.mem_range, List.mem_map]
  constructor
  · rintro ⟨i3, b3, i2, b2, i1, b1, i0, b0, rfl⟩ k
    fin_cases k
    · exact b0
    · exact b1
    · exact b2
    · exact b3
  · intro inside
    refine ⟨j 3, inside 3, j 2, inside 2, j 1, inside 1, j 0, inside 0, ?_⟩
    funext k
    fin_cases k <;> rfl

end Inverse

section Packing

variable {node : Node} {p : Packed} {w : Window}

/-- What a packed node has been checked for. -/
structure Fits (node : Node) (p : Packed) (w : Window) : Prop where
  dst : p.dst.Of node.dst
  a : p.src0.Of node.a
  b : p.src1.Of node.b
  word : node.dst.type = .f32 ∧ node.a.type = .f32 ∧ node.b.type = .f32
  shape : node.a.ne = node.dst.ne
  dense : contiguous node.dst = true ∧ contiguous node.a = true
  pos : ∀ k, 0 < node.dst.ne k
  nb : ∀ k, (p.nb k).toNat = w.nb k
  off : p.offset.toNat = w.off
  nested : NestedIn node.b.ne w.nb
  last : ∀ j : Fin 4 → ℕ, (∀ k, j k < node.b.ne k) → w.off + place w.nb j < node.dst.nelements
  launched : Launch.grid1d 256 node.dst.nelements = some p.grid

/-- A parameter names less than two to the 29 elements. -/
theorem named_lt (x : Int32) : x.toInt.toNat / 4 < 2 ^ 29 := by
  have := x.toInt_lt
  omega

/-- What `window_of` checks, for a second source that fits the words. -/
theorem of_windowOf (accepted : node.windowOf = some w)
    (extents : ∀ k, 1 ≤ node.b.ne k ∧ node.b.ne k ≤ maxWord) :
    NestedIn node.b.ne w.nb ∧ (∀ k, w.nb k ≤ maxWord) ∧ w.off ≤ maxWord ∧
      ∀ j : Fin 4 → ℕ, (∀ k, j k < node.b.ne k) → w.off + place w.nb j < node.dst.nelements := by
  have named : ∀ k, node.named.nb k < 2 ^ 29 := fun k => named_lt _
  have start : node.named.off < 2 ^ 29 := named_lt _
  have less : ∀ k, lessOne (node.b.ne k) = node.b.ne k - 1 := by
    intro k
    have := extents k
    unfold lessOne
    simp only [maxWord] at this
    omega
  have product : ∀ {n m : ℕ}, n ≤ maxWord → m < 2 ^ 29 → n * m < 2 ^ 61 := by
    intro n m small small'
    calc n * m ≤ maxWord * m := Nat.mul_le_mul_right _ small
      _ < 2 ^ 32 * 2 ^ 29 := by simp only [maxWord]; omega
      _ = 2 ^ 61 := by norm_num
  unfold Node.windowOf at accepted
  dsimp only at accepted
  split at accepted
  next => cases accepted
  next =>
    split at accepted
    next => cases accepted
    next nested =>
      split at accepted
      next reach =>
        obtain rfl := Option.some.inj accepted
        have whole : ∀ k l, node.b.ne k * node.named.nb l % 2 ^ 64
            = node.b.ne k * node.named.nb l := fun k l =>
          Nat.mod_eq_of_lt ((product (extents k).2 (named l)).trans (by norm_num))
        have smaller : ∀ k l, (node.b.ne k - 1) * node.named.nb l < 2 ^ 61 := fun k l =>
          product ((Nat.sub_le _ _).trans (extents k).2) (named l)
        rw [whole, whole] at nested
        simp only [less] at reach
        have wrap : node.named.off + (node.b.ne 0 - 1) + (node.b.ne 1 - 1) * node.named.nb 0
            + (node.b.ne 2 - 1) * node.named.nb 1 + (node.b.ne 3 - 1) * node.named.nb 2
            < 2 ^ 64 := by
          have extent := (extents 0).2
          have second := smaller 1 0
          have third := smaller 2 1
          have fourth := smaller 3 2
          simp only [maxWord] at extent
          omega
        rw [Nat.mod_eq_of_lt wrap] at reach
        refine ⟨⟨by omega, by omega, by omega⟩, fun k => ?_, reach.2.2, fun j inside => ?_⟩
        · have := named k
          simp only [maxWord]
          omega
        · have up : ∀ k l, j k * node.named.nb l ≤ (node.b.ne k - 1) * node.named.nb l :=
            fun k l => Nat.mul_le_mul_right _ (Nat.le_sub_one_of_lt (inside k))
          have first := inside 0
          have second := up 1 0
          have third := up 2 1
          have fourth := up 3 2
          unfold place
          omega
      next => cases accepted

/-- A packed node fits. -/
theorem fits_of_pack (packs : node.pack = some p) :
    ∃ w, node.windowOf = some w ∧ Fits node p w := by
  unfold Node.pack at packs
  split at packs
  next supported =>
    obtain ⟨w, window, packs⟩ := Option.bind_eq_some_iff.mp packs
    obtain ⟨dst, filledDst, packs⟩ := Option.bind_eq_some_iff.mp packs
    obtain ⟨src0, filledA, packs⟩ := Option.bind_eq_some_iff.mp packs
    obtain ⟨src1, filledB, packs⟩ := Option.bind_eq_some_iff.mp packs
    obtain ⟨grid, launched, rfl⟩ := Option.map_eq_some_iff.mp packs
    unfold Node.supports at supported
    simp only [Bool.and_eq_true, beq_iff_eq, decide_eq_true_eq] at supported
    obtain ⟨⟨⟨⟨⟨⟨⟨⟨⟨wordDst, wordA⟩, wordB⟩, shape⟩, denseDst⟩, denseA⟩, -⟩, fitsDst⟩, fitsA⟩,
      fitsB⟩ := supported
    obtain ⟨nested, strides, start, last⟩ :=
      of_windowOf window fun k => ⟨Tensor.pos_of_fits fitsB k, Tensor.ne_le_of_fits fitsB k⟩
    exact ⟨w, window, {
      dst := fillBlock_of filledDst
      a := fillBlock_of filledA
      b := fillBlock_of filledB
      word := ⟨wordDst, wordA, wordB⟩
      shape := shape
      dense := ⟨denseDst, denseA⟩
      pos := Tensor.pos_of_fits fitsDst
      nb := fun k => toNat_ofNat (strides k)
      off := toNat_ofNat start
      nested := nested
      last := last
      launched := launched }⟩
  next => cases packs

/-- A supported tensor has words, where its data is aligned. -/
theorem fillBlock_isSome {t : Tensor} (word : t.type = .f32) (fits : t.fits = true)
    (aligned : t.offset % 4 = 0) : (fillBlock t).isSome = true := by
  have size : t.type.size = 4 := by
    rw [word]
    rfl
  refine ParamsWords.fillBlock_isSome fits ?_ ?_
  · rwa [Tensor.toNat_offset, Tensor.toNat_typeSize_words, size]
  · have inside := t.inside
    rw [Tensor.toNat_offset, Tensor.toNat_typeSize_words]
    rw [size] at inside ⊢
    simp only [maxBufferBytes] at inside
    omega

/-- A launch for a word's worth of threads is not refused. -/
theorem grid1d_isSome {threads : ℕ} (positive : 0 < threads) (most : threads ≤ maxWord) :
    (Launch.grid1d 256 threads).isSome = true := by
  unfold Launch.grid1d
  rw [if_neg (by omega)]
  extract_lets groups gx gy
  simp only [maxWord] at most
  have some_group : 1 ≤ groups := (Nat.le_div_iff_mul_le (by norm_num)).mpr (by omega)
  have rows : gy ≤ maxGroupsPerDim := by
    simp only [maxGroupsPerDim]
    by_cases few : groups < maxGroupsPerDim
    · have columns : gx = groups := if_pos few
      have single : gy < 2 := by
        change (groups + gx - 1) / gx < 2
        rw [columns, Nat.div_lt_iff_lt_mul (by omega)]
        omega
      omega
    · have columns : gx = 65535 := if_neg few
      change (groups + gx - 1) / gx ≤ 65535
      rw [columns]
      omega
  rw [if_neg (not_lt.mpr rows)]
  rfl

/-- A supported node whose data is aligned is packed. -/
theorem pack_isSome (supported : node.supports = true)
    (aligned : ∀ t ∈ [node.dst, node.a, node.b], t.offset % 4 = 0) :
    node.pack.isSome = true := by
  have checks := supported
  unfold Node.supports at checks
  simp only [Bool.and_eq_true, beq_iff_eq, decide_eq_true_eq] at checks
  obtain ⟨⟨⟨⟨⟨⟨⟨⟨⟨wordDst, wordA⟩, wordB⟩, -⟩, denseDst⟩, -⟩, window⟩, fitsDst⟩, fitsA⟩, fitsB⟩ :=
    checks
  obtain ⟨w, window⟩ := Option.isSome_iff_exists.mp window
  obtain ⟨dst, filledDst⟩ := Option.isSome_iff_exists.mp
    (fillBlock_isSome wordDst fitsDst (aligned _ (by simp)))
  obtain ⟨src0, filledA⟩ := Option.isSome_iff_exists.mp
    (fillBlock_isSome wordA fitsA (aligned _ (by simp)))
  obtain ⟨src1, filledB⟩ := Option.isSome_iff_exists.mp
    (fillBlock_isSome wordB fitsB (aligned _ (by simp)))
  have positive : 0 < node.dst.nelements := by
    have extents := Tensor.pos_of_fits fitsDst
    rw [(apart_of_contiguous denseDst extents).nelements_eq (fillBlock_of filledDst) extents]
    exact Finset.prod_pos fun k _ => extents k
  obtain ⟨grid, launched⟩ := Option.isSome_iff_exists.mp
    (grid1d_isSome positive (Tensor.nelements_le_of_fits fitsDst))
  unfold Node.pack
  rw [if_pos supported, window, filledDst, filledA, filledB, launched]
  rfl

end Packing

section Threads

variable {node : Node} {p : Packed} {w : Window}

instance {grid : Launch.Grid} {tg : ℕ} : DecidableEq (Launch.Thread grid tg) := fun _ _ =>
  decidable_of_iff _ Launch.Thread.ext_iff.symm

/-- The elements of the destination are apart. -/
theorem Fits.apart (fits : Fits node p w) : node.dst.Apart :=
  apart_of_contiguous fits.dense.1 fits.pos

/-- An element below the count is one of the destination. -/
theorem Fits.holds_unravel (fits : Fits node p w) {n : ℕ} (less : n < node.dst.nelements) :
    node.dst.Holds (unravel node.dst.ne n) := fun k =>
  unravel_lt fits.pos (less.trans_le node.dst.nelements_le_count) k

theorem Fits.pos_a (fits : Fits node p w) (k : Fin 4) : 0 < node.a.ne k :=
  fits.shape ▸ fits.pos k

/-- The index of an element below the count. -/
theorem Fits.numbers_unravel4 (fits : Fits node p w) (e : UInt32) :
    numbers (unravel4 p.dst e) = unravel node.dst.ne e.toNat := by
  rw [Move.numbers_unravel4]
  exact congrArg (fun ne => unravel ne e.toNat) (funext fits.dst.ne)

/-- A thread's cell is its element of the destination. -/
theorem Fits.toNat_cell (fits : Fits node p w) {e : UInt32}
    (less : e.toNat < node.dst.nelements) :
    (off4 p.dst (unravel4 p.dst e)).toNat = node.dst.offset / 4 + e.toNat := by
  have inside : node.dst.Holds (numbers (unravel4 p.dst e)) := by
    rw [fits.numbers_unravel4]
    exact fits.holds_unravel less
  have size : node.dst.type.size = 4 := by
    rw [fits.word.1]
    rfl
  rw [fits.dst.toNat_off4 inside, element_of_contiguous fits.dense.1 fits.pos inside,
    fits.numbers_unravel4, linear_unravel, size]

/-- What a thread reads of the first source is the element of the same number. -/
theorem Fits.toNat_source (fits : Fits node p w) {e : UInt32}
    (less : e.toNat < node.dst.nelements) :
    (off4 p.src0 (unravel4 p.dst e)).toNat = node.a.offset / 4 + e.toNat := by
  have inside : node.a.Holds (numbers (unravel4 p.dst e)) := by
    rw [fits.numbers_unravel4, Tensor.Holds, fits.shape]
    exact fits.holds_unravel less
  have size : node.a.type.size = 4 := by
    rw [fits.word.2.1]
    rfl
  rw [fits.a.toNat_off4 inside, element_of_contiguous fits.dense.2 fits.pos_a inside,
    fits.numbers_unravel4, fits.shape, linear_unravel, size]

/-- Whether an element is one of the window. -/
def InWindow (node : Node) (w : Window) (e : ℕ) : Prop :=
  w.off ≤ e ∧ ∀ k, recovered w.nb (e - w.off) k < node.b.ne k

instance (node : Node) (w : Window) (e : ℕ) : Decidable (InWindow node w e) :=
  inferInstanceAs (Decidable (_ ∧ _))

/-- The body selects the second source just in the window. -/
theorem Fits.select_eq (fits : Fits node p w) {e : UInt32} (s1 : Words) (x : UInt32) :
    p.select s1 (unravel4 p.dst e) x = if InWindow node w e.toNat then
      s1 (node.b.element (recovered w.nb (e.toNat - w.off))) else x := by
  have linear_eq : (unravel4 p.dst e) 0 + (unravel4 p.dst e) 1 * p.dst.ne 0 +
      (unravel4 p.dst e) 2 * (p.dst.ne 0 * p.dst.ne 1) +
      (unravel4 p.dst e) 3 * (p.dst.ne 0 * p.dst.ne 1 * p.dst.ne 2) = e := by
    have whole := linear_unravel node.dst.ne e.toNat
    rw [← fits.numbers_unravel4, linear] at whole
    simp only [← fits.dst.ne, numbers] at whole
    refine UInt32.toNat_inj.mp ?_
    calc
      _ = ((unravel4 p.dst e 0).toNat + (unravel4 p.dst e 1).toNat * (p.dst.ne 0).toNat +
          (unravel4 p.dst e 2).toNat * ((p.dst.ne 0).toNat * (p.dst.ne 1).toNat) +
          (unravel4 p.dst e 3).toNat *
            ((p.dst.ne 0).toNat * (p.dst.ne 1).toNat * (p.dst.ne 2).toNat)) % 2 ^ 32 := by
        simp only [UInt32.toNat_add, UInt32.toNat_mul, Nat.add_mod, Nat.mul_mod, Nat.mod_mod]
      _ = e.toNat % 2 ^ 32 := by
        rw [← whole]
        refine congrArg (· % 2 ^ 32) ?_
        ring
      _ = e.toNat := Nat.mod_eq_of_lt e.toNat_lt
  unfold Packed.select
  rw [linear_eq]
  have start : p.offset ≤ e ↔ w.off ≤ e.toNat := by
    rw [UInt32.le_iff_toNat_le, fits.off]
  by_cases below : w.off ≤ e.toNat
  · rw [if_pos (start.mpr below)]
    have numbers_recover : numbers (p.recover (e - p.offset))
        = recovered w.nb (e.toNat - w.off) := by
      have difference : (e - p.offset).toNat = e.toNat - w.off := by
        rw [UInt32.toNat_sub_of_le _ _ (start.mpr below), fits.off]
      funext k
      unfold numbers Packed.recover recovered
      rw [← difference]
      fin_cases k <;> simp [UInt32.toNat_mod, UInt32.toNat_div, fits.nb]
    have test : (∀ k, p.recover (e - p.offset) k < p.src1.ne k) ↔ InWindow node w e.toNat := by
      unfold InWindow
      rw [← numbers_recover, and_iff_right below]
      refine forall_congr' fun k => ?_
      rw [UInt32.lt_iff_toNat_lt, fits.b.ne]
      rfl
    by_cases window : InWindow node w e.toNat
    · have inside : node.b.Holds (numbers (p.recover (e - p.offset))) := by
        rw [numbers_recover]
        exact window.2
      dsimp only
      rw [if_pos (test.mpr window), if_pos window, fits.b.toNat_off4 inside, numbers_recover]
    · dsimp only
      rw [if_neg (fun all => window (test.mp all)), if_neg window]
  · rw [if_neg (fun at' => below (start.mp at')), if_neg fun window => below window.1]

end Threads

section Steps

variable {node : Node} {p : Packed} {w : Window}

/-- An element of the window is the place of its index. -/
theorem inWindow_place (nested : NestedIn node.b.ne w.nb) {j : Fin 4 → ℕ}
    (inside : ∀ k, j k < node.b.ne k) :
    InWindow node w (w.off + place w.nb j) ∧
      recovered w.nb (w.off + place w.nb j - w.off) = j := by
  have found : recovered w.nb (w.off + place w.nb j - w.off) = j := by
    rw [Nat.add_sub_cancel_left, recovered_place nested inside]
  refine ⟨⟨Nat.le_add_right _ _, ?_⟩, found⟩
  rw [found]
  exact inside

/-- Element `n` of the destination and of the first source. -/
theorem Fits.nth_eq (fits : Fits node p w) {n : ℕ} (less : n < node.dst.nelements) :
    node.dst.nth n = node.dst.offset / 4 + n ∧ node.a.nth n = node.a.offset / 4 + n := by
  have inside := fits.holds_unravel less
  have inside' : node.a.Holds (unravel node.a.ne n) := by
    rw [Tensor.Holds, fits.shape]
    exact inside
  have size : node.dst.type.size = 4 ∧ node.a.type.size = 4 := by
    rw [fits.word.1, fits.word.2.1]
    exact ⟨rfl, rfl⟩
  unfold Tensor.nth
  rw [element_of_contiguous fits.dense.1 fits.pos inside,
    element_of_contiguous fits.dense.2 fits.pos_a inside', linear_unravel, linear_unravel, size.1, size.2]
  exact ⟨rfl, rfl⟩

/-- The first step puts the first source's elements where the destination's are. -/
theorem Fits.copyWhole_eq (fits : Fits node p w) (source : Source) (cells : Words) {n : ℕ}
    (less : n < node.dst.nelements) :
    node.copyWhole source cells (node.dst.offset / 4 + n)
      = source.read (node.a.offset / 4 + n) (cells (node.dst.offset / 4 + n)) := by
  unfold Node.copyWhole Source.read
  cases source with
  | inPlace => rfl
  | buffer words =>
    have injective : ∀ m ∈ List.range node.dst.nelements,
        node.dst.nth m = node.dst.nth n → m = n := by
      intro m member same
      rw [(fits.nth_eq (List.mem_range.mp member)).1, (fits.nth_eq less).1] at same
      omega
    have written := (@Rows.foldl_write _ _ _ _ node.dst.nth (List.range node.dst.nelements)
      (fun _ m => words (node.a.nth m)) (fun _ _ _ _ _ _ => rfl) n injective cells).1
      (List.mem_range.mpr less)
    rw [(fits.nth_eq less).1, (fits.nth_eq less).2] at written
    exact written

/-- It touches no other cell. -/
theorem Fits.copyWhole_frame (fits : Fits node p w) (source : Source) (cells : Words) {cell : ℕ}
    (outside : ∀ n < node.dst.nelements, node.dst.offset / 4 + n ≠ cell) :
    node.copyWhole source cells cell = cells cell := by
  unfold Node.copyWhole
  cases source with
  | inPlace => rfl
  | buffer words =>
    refine Rows.foldl_frame (fun n member cells => Function.update_of_ne ?_ ..) cells
    rw [(fits.nth_eq (List.mem_range.mp member)).1]
    exact (outside n (List.mem_range.mp member)).symm

/-- The second step writes the window's elements. -/
theorem Fits.writeRows_eq (fits : Fits node p w) (s1 cells : Words) (n : ℕ) :
    node.writeRows w s1 cells (node.dst.offset / 4 + n)
      = if InWindow node w n then s1 (node.b.element (recovered w.nb (n - w.off)))
        else cells (node.dst.offset / 4 + n) := by
  unfold Node.writeRows
  by_cases window : InWindow node w n
  · rw [if_pos window]
    have listed : recovered w.nb (n - w.off) ∈ indices node.b.ne := mem_indices_iff.mpr window.2
    have address : node.dst.offset / 4 + w.off + place w.nb (recovered w.nb (n - w.off))
        = node.dst.offset / 4 + n := by
      rw [place_recovered]
      have := window.1
      omega
    have injective : ∀ j ∈ indices node.b.ne,
        node.dst.offset / 4 + w.off + place w.nb j
          = node.dst.offset / 4 + w.off + place w.nb (recovered w.nb (n - w.off)) →
        j = recovered w.nb (n - w.off) := fun j member same =>
      place_inj fits.nested (mem_indices_iff.mp member) window.2 (Nat.add_left_cancel same)
    have written := (@Rows.foldl_write _ _ _ _
      (fun j => node.dst.offset / 4 + w.off + place w.nb j) (indices node.b.ne)
      (fun _ j => s1 (node.b.element j)) (fun _ _ _ _ _ _ => rfl) _ injective cells).1 listed
    rw [← address]
    exact written
  · rw [if_neg window]
    refine Rows.foldl_frame (fun j member cells => Function.update_of_ne ?_ ..) cells
    intro same
    refine window ?_
    have here : n = w.off + place w.nb j := by omega
    rw [here]
    exact (inWindow_place fits.nested (mem_indices_iff.mp member)).1

/-- It touches no cell but the destination's. -/
theorem Fits.writeRows_frame (fits : Fits node p w) (s1 cells : Words) {cell : ℕ}
    (outside : ∀ n < node.dst.nelements, node.dst.offset / 4 + n ≠ cell) :
    node.writeRows w s1 cells cell = cells cell := by
  unfold Node.writeRows
  refine Rows.foldl_frame (fun j member cells => Function.update_of_ne ?_ ..) cells
  have inside := outside _ (fits.last j (mem_indices_iff.mp member))
  rw [← Nat.add_assoc] at inside
  exact inside.symm

/-- No more elements than a launch covers once. -/
theorem Fits.nelements_le (fits : Fits node p w) : node.dst.nelements ≤ 65535 * 65536 :=
  (node.dst.nelements_le_count.trans (fits.apart.count_le fits.dst fits.pos)).trans (by decide)

/-- What a thread does to its cell. -/
theorem Fits.entry_eq (fits : Fits node p w) (source : Source) (s1 : Words)
    {thread : Launch.Thread p.grid 256} {e : UInt32} (runs : Launch.entry1D thread = some e)
    (less : e.toNat < node.dst.nelements) :
    ∃ update, p.entry source s1 thread = some update ∧
      update.cell = node.dst.offset / 4 + e.toNat ∧
      ∀ old, update.make old = if InWindow node w e.toNat then
        s1 (node.b.element (recovered w.nb (e.toNat - w.off)))
        else source.read (node.a.offset / 4 + e.toNat) old := by
  unfold Packed.entry
  rw [runs]
  refine ⟨_, rfl, fits.toNat_cell less, fun old => ?_⟩
  rw [← fits.toNat_source less]
  exact fits.select_eq s1 _

/-- In place every thread reads the first source where it writes. -/
theorem Fits.own_cell (fits : Fits node p w) (view : node.a.offset = node.dst.offset) {e : UInt32}
    (less : e.toNat < node.dst.nelements) :
    off4 p.src0 (unravel4 p.dst e) = off4 p.dst (unravel4 p.dst e) := by
  refine UInt32.toNat_inj.mp ?_
  rw [fits.toNat_source less, fits.toNat_cell less, view]

/-- The dispatch of a packed node, however its threads' turns are interleaved. -/
theorem run_eq_two_steps (packs : node.pack = some p) (source : Source) (s1 cells : Words)
    {schedule : List (Launch.Thread p.grid 256)}
    (complete : ∀ thread, 2 ≤ schedule.count thread) :
    ∃ w, node.windowOf = some w ∧
      (run (p.entry source s1) schedule cells).cells
        = node.writeRows w s1 (node.copyWhole source cells) := by
  obtain ⟨w, window, fits⟩ := fits_of_pack packs
  obtain ⟨once, below⟩ := (Launch.dispatched_once_iff (by decide) fits.launched).mpr
    fits.nelements_le
  have word : ∀ n < node.dst.nelements, (UInt32.ofNat n).toNat = n := by
    intro n less
    have most := fits.nelements_le
    exact UInt32.toNat_ofNat_of_lt' (by simp only [UInt32.size]; omega)
  have cellOf : ∀ thread update, p.entry source s1 thread = some update →
      ∃ e, Launch.entry1D thread = some e ∧ e.toNat < node.dst.nelements ∧
        update.cell = node.dst.offset / 4 + e.toNat := by
    intro thread update doing
    obtain ⟨e, runs, rfl⟩ := Option.map_eq_some_iff.mp doing
    exact ⟨e, runs, below thread e runs, fits.toNat_cell (below thread e runs)⟩
  have raceFree : RaceFree (p.entry source s1) := by
    intro thread other update update' doing doing' same
    obtain ⟨e, runs, less, cell⟩ := cellOf thread update doing
    obtain ⟨e', runs', less', cell'⟩ := cellOf other update' doing'
    have equal : e = e' := UInt32.toNat_inj.mp (by omega)
    subst equal
    rw [← UInt32.ofNat_toNat (x := e)] at runs runs'
    obtain ⟨_, _, unique⟩ := once e.toNat less
    exact (unique thread runs).trans (unique other runs').symm
  refine ⟨w, window, funext fun cell => ?_⟩
  by_cases element : ∃ n < node.dst.nelements, node.dst.offset / 4 + n = cell
  · obtain ⟨n, less, rfl⟩ := element
    obtain ⟨thread, runs, _⟩ := once n less
    have less' : (UInt32.ofNat n).toNat < node.dst.nelements := by rwa [word n less]
    obtain ⟨update, doing, own, made⟩ := fits.entry_eq source s1 runs less'
    rw [word n less] at own made
    rw [fits.writeRows_eq, fits.copyWhole_eq source cells less, ← own,
      run_cells_of_owner raceFree doing (complete thread), made]
  · have outside : ∀ n < node.dst.nelements, node.dst.offset / 4 + n ≠ cell := fun n less same =>
      element ⟨n, less, same⟩
    rw [fits.writeRows_frame s1 _ outside, fits.copyWhole_frame source cells outside]
    refine run_cells_of_unowned (fun thread update doing => ?_) schedule cells
    obtain ⟨e, _, less, own⟩ := cellOf thread update doing
    rw [own]
    exact outside e.toNat less

/-- A supported node is packed, where its data is aligned; and its dispatch, however the turns of
its threads are interleaved, leaves what a copy of the whole first source and then a write of every
row of the second leave. In place every thread reads the first source in its own cell. -/
theorem set_eq_two_steps (node : Node) (supported : node.supports = true) :
    ((∀ t ∈ [node.dst, node.a, node.b], t.offset % 4 = 0) → node.pack.isSome = true) ∧
      ∀ p, node.pack = some p →
        (∀ source s1 cells, ∀ schedule : List (Launch.Thread p.grid 256),
          (∀ thread, 2 ≤ schedule.count thread) →
          ∃ w, node.windowOf = some w ∧ (run (p.entry source s1) schedule cells).cells
            = node.writeRows w s1 (node.copyWhole source cells)) ∧
        (node.a.offset = node.dst.offset → ∀ e : UInt32, e.toNat < node.dst.nelements →
          off4 p.src0 (unravel4 p.dst e) = off4 p.dst (unravel4 p.dst e)) := by
  refine ⟨pack_isSome supported, fun p packs => ⟨?_, fun view e less => ?_⟩⟩
  · exact fun source s1 cells schedule complete => run_eq_two_steps packs source s1 cells complete
  · obtain ⟨_, _, fits⟩ := fits_of_pack packs
    exact fits.own_cell view less

/-- All threads of a grid. -/
def everyThread (grid : Launch.Grid) (tg : ℕ) : List (Launch.Thread grid tg) :=
  (List.finRange grid.gy).flatMap fun gidY => (List.finRange grid.gx).flatMap fun gidX =>
    (List.finRange tg).map fun lid => ⟨gidY, gidX, lid⟩

theorem mem_everyThread {grid : Launch.Grid} {tg : ℕ} (thread : Launch.Thread grid tg) :
    thread ∈ everyThread grid tg :=
  List.mem_flatMap.mpr ⟨thread.gidY, List.mem_finRange _, List.mem_flatMap.mpr
    ⟨thread.gidX, List.mem_finRange _, List.mem_map.mpr ⟨thread.lid, List.mem_finRange _, rfl⟩⟩⟩

/-- A matrix of three rows of four. -/
def matrix : Tensor where
  type := .f32
  ne := ![4, 3, 1, 1]
  nb := ![4, 16, 48, 48]
  offset := 0
  inside := by decide +kernel

/-- Three rows of one. -/
def strip : Tensor where
  type := .f32
  ne := ![1, 3, 1, 1]
  nb := ![4, 4, 12, 12]
  offset := 0
  inside := by decide +kernel

/-- The second column of the matrix is set. -/
def column : Node where
  dst := matrix
  a := matrix
  b := strip
  opParams := ![16, 48, 48, 4]

/-- In place, all threads reading before any writes. -/
theorem set_eq_two_steps_column : ∃ p, column.pack = some p ∧
    ∃ schedule : List (Launch.Thread p.grid 256), (∀ thread, 2 ≤ schedule.count thread) ∧
      ∃ w, column.windowOf = some w ∧
        (run (p.entry .inPlace fun n => UInt32.ofNat (100 + n)) schedule fun _ => 0).cells
          = column.writeRows w (fun n => UInt32.ofNat (100 + n))
              (column.copyWhole .inPlace fun _ => 0) := by
  have packs : column.pack.isSome = true := by decide +kernel
  have packed := (Option.some_get packs).symm
  have complete : ∀ thread, 2 ≤ (everyThread (column.pack.get packs).grid 256
      ++ everyThread (column.pack.get packs).grid 256).count thread := by
    intro thread
    have once := List.count_pos_iff.mpr (mem_everyThread thread)
    rw [List.count_append]
    omega
  have result := ((set_eq_two_steps column (by decide +kernel)).2 _ packed).1
  exact ⟨_, packed, _, complete, result .inPlace _ _ _ complete⟩

end Steps

end DressOn.Ggml.SetWindow
