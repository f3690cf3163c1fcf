import Mathlib.Algebra.BigOperators.Fin
import Mathlib.Algebra.Order.BigOperators.Group.Finset
import Mathlib.Algebra.Order.BigOperators.Ring.Finset
import Mathlib.Data.Fintype.Basic

/-!
# The words of a packed node

`tensor_fits`, `fill_block` and `grid_1d` of `rd_pack.cpp` in the machine's own words, for every
element type. ggml counts elements in 64 bits: the count of a tensor that repeats its elements
through a stride of zero can wrap.
-/

namespace DressOn.Ggml.Move

/-- The most `GGML_RD_MAX_BUFFER_MB` can raise a buffer to. -/
def maxBufferBytes : ℕ := 0xFFFFFF00

/-- The largest value of a params word. -/
def maxWord : ℕ := 0xFFFFFFFF

/-- `kMaxGroupsPerDim`. -/
def maxGroupsPerDim : ℕ := 65535

/-- One tensor block of the params words, in elements. -/
structure Block where
  ne : Fin 4 → UInt32
  nb : Fin 4 → UInt32
  off : UInt32

end DressOn.Ggml.Move

namespace DressOn.Ggml.Launch

open Move (maxWord maxGroupsPerDim)

/-- What `grid_1d` packs: words 53 and 54, and the work groups in x and y. -/
structure Grid where
  threads : UInt32
  groupsX : UInt32
  gx : ℕ
  gy : ℕ
deriving DecidableEq

/-- `grid_1d`, for a kernel of `tg` threads in a group. -/
def grid1d (tg threads : ℕ) : Option Grid :=
  if threads = 0 ∨ maxWord < threads then none
  else
    let groups := (threads + tg - 1) / tg
    let gx := if groups < maxGroupsPerDim then groups else maxGroupsPerDim
    let gy := (groups + gx - 1) / gx
    if maxGroupsPerDim < gy then none
    else some { threads := UInt32.ofNat threads, groupsX := UInt32.ofNat gx, gx := gx, gy := gy }

end DressOn.Ggml.Launch

namespace DressOn.Ggml.ParamsWords

open Move (Block)

/-- A ggml type: elements in a block, and bytes of a block. -/
structure GgmlType where
  blckSize : Int64
  typeSize : UInt64
  pos : 0 < typeSize.toNat

/-- `ggml_tensor`: its extents, and its strides in bytes. -/
structure Tensor where
  type : GgmlType
  ne : Fin 4 → Int64
  nb : Fin 4 → UInt64

namespace Tensor

variable (t : Tensor)

/-- `ggml_nelements`. -/
def nelements : Int64 := t.ne 0 * t.ne 1 * t.ne 2 * t.ne 3

/-- A stride in elements. -/
def stride (k : Fin 4) : UInt64 := t.nb k / t.type.typeSize

/-- The sum `last` of `tensor_fits`: the largest element offset the tensor reaches. -/
def last : UInt64 :=
  (t.ne 0 - 1).toUInt64 * t.stride 0 + (t.ne 1 - 1).toUInt64 * t.stride 1 +
    (t.ne 2 - 1).toUInt64 * t.stride 2 + (t.ne 3 - 1).toUInt64 * t.stride 3

/-- The check of one dimension in `tensor_fits`. -/
def dimensionFits (k : Fin 4) : Bool :=
  !(t.ne k < 1 || 0xFFFFFFFF < (t.ne k).toUInt64 || t.nb k % t.type.typeSize != 0) &&
    decide (t.stride k ≤ 0xFFFFFFFF)

/-- `tensor_fits`. -/
def fits : Bool :=
  t.type.blckSize == 1 && decide (∀ k, t.dimensionFits k = true) &&
    decide (t.last ≤ 0xFFFFFFFF) && decide (t.nelements.toUInt64 ≤ 0xFFFFFFFF)

/-- An extent, as a number. -/
def extent (k : Fin 4) : ℕ := (t.ne k).toInt.toNat

/-- The 64-bit values that `tensor_fits` decides by are the exact ones. -/
structure NoWrap : Prop where
  nelements : t.nelements.toInt = ∏ k, (t.ne k).toInt
  last : t.last.toNat = ∑ k, (t.extent k - 1) * (t.stride k).toNat

end Tensor

/-- Bytes in the units of a block: elements, or bytes for a block-quantized type. -/
def GgmlType.units (type : GgmlType) (bytes : UInt64) : UInt64 :=
  if type.blckSize == 1 then bytes / type.typeSize else bytes

/-- Bytes that a block can count and a word can hold. -/
def GgmlType.fitsWord (type : GgmlType) (bytes : UInt64) : Bool :=
  !(type.blckSize == 1 && bytes % type.typeSize != 0) && decide (type.units bytes ≤ 0xFFFFFFFF)

/-- `fill_block`: one tensor block, in elements, or in bytes for a block-quantized type. -/
def fillBlock (t : Tensor) (off : UInt64) : Option Block :=
  if (∀ k, ¬ (t.ne k < 0 ∨ 0xFFFFFFFF < (t.ne k).toUInt64) ∧ t.type.fitsWord (t.nb k) = true) ∧
      t.type.fitsWord off = true then
    some {
      ne := fun k => (t.ne k).toUInt64.toUInt32
      nb := fun k => (t.type.units (t.nb k)).toUInt32
      off := (t.type.units off).toUInt32 }
  else none

/-! ## What the checks say -/

namespace Tensor

variable {t : Tensor}

/-- An accepted tensor has one element in a block. -/
theorem blckSize_of_fits (accepted : t.fits = true) : t.type.blckSize = 1 := by
  simp only [fits, Bool.and_eq_true, beq_iff_eq] at accepted
  exact accepted.1.1.1

/-- The dimensions of an accepted tensor. -/
theorem dimension_of_fits (accepted : t.fits = true) (k : Fin 4) :
    1 ≤ (t.ne k).toInt ∧ (t.ne k).toInt ≤ 0xFFFFFFFF ∧
      (t.nb k).toNat % t.type.typeSize.toNat = 0 ∧ (t.stride k).toNat ≤ 0xFFFFFFFF := by
  simp only [fits, Bool.and_eq_true, decide_eq_true_eq] at accepted
  have dimension := accepted.1.1.2 k
  simp only [dimensionFits, Bool.and_eq_true, Bool.not_eq_true', Bool.or_eq_false_iff,
    decide_eq_false_iff_not, decide_eq_true_eq, bne_eq_false_iff_eq] at dimension
  obtain ⟨⟨⟨some_index, extent⟩, whole⟩, stride⟩ := dimension
  rw [Int64.lt_iff_toInt_lt, Int64.toInt_one] at some_index
  have nonnegative : (0 : Int64) ≤ t.ne k := by
    rw [Int64.le_iff_toInt_le, Int64.toInt_zero]
    omega
  rw [UInt64.lt_iff_toNat_lt, Int64.toNat_toUInt64_of_le nonnegative] at extent
  rw [UInt64.le_iff_toNat_le] at stride
  have clamp : (t.ne k).toNatClampNeg = (t.ne k).toInt.toNat := rfl
  have remainder := congrArg UInt64.toNat whole
  rw [UInt64.toNat_mod] at remainder
  simp only [UInt64.reduceToNat] at extent stride
  exact ⟨by omega, by omega, remainder, stride⟩

/-- The extents of an accepted tensor, as numbers. -/
theorem extent_of_fits (accepted : t.fits = true) (k : Fin 4) :
    (t.ne k).toInt = t.extent k ∧ 1 ≤ t.extent k ∧ t.extent k ≤ 0xFFFFFFFF := by
  obtain ⟨low, high, -, -⟩ := dimension_of_fits accepted k
  unfold extent
  omega

/-- The factor of a stride in the sum of `tensor_fits`. -/
theorem toNat_pred (accepted : t.fits = true) (k : Fin 4) :
    (t.ne k - 1).toUInt64.toNat = t.extent k - 1 := by
  obtain ⟨exact_extent, low, -⟩ := extent_of_fits accepted k
  have one_le : (1 : Int64) ≤ t.ne k := by
    rw [Int64.le_iff_toInt_le, Int64.toInt_one]
    omega
  have difference := Int64.toInt_sub_of_le (t.ne k) 1 (by decide) one_le
  rw [Int64.toInt_one] at difference
  rw [Int64.toNat_toUInt64_of_le]
  · change (t.ne k - 1).toInt.toNat = _
    omega
  · rw [Int64.le_iff_toInt_le, Int64.toInt_zero]
    omega

/-- The element count, as a number: the product of the extents, cut to 64 bits. -/
theorem toNat_nelements (t : Tensor) :
    t.nelements.toUInt64.toNat = (∏ k, (t.ne k).toUInt64.toNat) % 2 ^ 64 := by
  simp only [nelements, Int64.toUInt64_mul, UInt64.toNat_mul, Nat.mod_mul_mod,
    Fin.prod_univ_four]

/-- The element count is exact as long as it is below `2 ^ 63`. -/
theorem nelements_exact_iff (accepted : t.fits = true) :
    t.nelements.toInt = ∏ k, (t.ne k).toInt ↔ ∏ k, (t.ne k).toInt < 2 ^ 63 := by
  have positive : 0 ≤ ∏ k, (t.ne k).toInt :=
    Finset.prod_nonneg fun k _ => by
      have := (dimension_of_fits accepted k).1
      omega
  have wrapped : t.nelements.toInt = (∏ k, (t.ne k).toInt).bmod (2 ^ 64) := by
    simp only [nelements, Int64.toInt_mul, Int.bmod_mul_bmod, Fin.prod_univ_four]
  constructor
  · intro equal
    rw [← equal]
    exact t.nelements.toInt_lt
  · intro small
    rw [wrapped]
    exact Int.bmod_eq_of_le (by omega) (by omega)

end Tensor

/-- A count of bytes that fits a word stays itself there. -/
theorem toNat_toUInt32 {units : UInt64} (small : units ≤ 0xFFFFFFFF) :
    units.toUInt32.toNat = units.toNat := by
  rw [UInt64.le_iff_toNat_le] at small
  simp only [UInt64.reduceToNat] at small
  rw [UInt64.toNat_toUInt32]
  exact Nat.mod_eq_of_lt (by omega)

/-- The block that `fill_block` writes for a tensor of one element in a block. -/
structure Filled (b : Block) (t : Tensor) (offset : UInt64) : Prop where
  ne : ∀ k, (b.ne k).toNat = t.extent k
  nb : ∀ k, (b.nb k).toNat = (t.stride k).toNat
  off : b.off.toNat = offset.toNat / t.type.typeSize.toNat
  strides : ∀ k, (t.nb k).toNat % t.type.typeSize.toNat = 0
  start : offset.toNat % t.type.typeSize.toNat = 0

/-- `fill_block` writes such a block. -/
theorem fillBlock_spec {t : Tensor} {off : UInt64} {b : Block} (elements : t.type.blckSize = 1)
    (filled : fillBlock t off = some b) : Filled b t off := by
  rw [fillBlock] at filled
  split at filled
  next accepted =>
    obtain rfl := Option.some.inj filled
    simp only [GgmlType.fitsWord, GgmlType.units, elements, beq_self_eq_true, if_true,
      Bool.true_and, Bool.and_eq_true, Bool.not_eq_true', bne_eq_false_iff_eq,
      decide_eq_true_eq] at accepted ⊢
    obtain ⟨dimensions, whole, off_small⟩ := accepted
    have whole_of : ∀ {bytes : UInt64}, bytes % t.type.typeSize = 0 →
        bytes.toNat % t.type.typeSize.toNat = 0 := fun whole => by
      simpa using congrArg UInt64.toNat whole
    refine ⟨fun k => ?_, fun k => toNat_toUInt32 (dimensions k).2.2, ?_,
      fun k => whole_of (dimensions k).2.1, whole_of whole⟩
    · obtain ⟨nonnegative, small⟩ := not_or.mp (dimensions k).1
      rw [toNat_toUInt32 (UInt64.not_lt.mp small),
        Int64.toNat_toUInt64_of_le (Int64.not_lt.mp nonnegative)]
      rfl
    · dsimp only
      rw [toNat_toUInt32 off_small, UInt64.toNat_div]
  next => cases filled

/-- An accepted tensor has a block, where its offset is whole and small. -/
theorem fillBlock_isSome {t : Tensor} {off : UInt64} (accepted : t.fits = true)
    (whole : off.toNat % t.type.typeSize.toNat = 0)
    (small : off.toNat / t.type.typeSize.toNat ≤ 0xFFFFFFFF) : (fillBlock t off).isSome = true := by
  have fitsWord : ∀ {bytes : UInt64}, bytes.toNat % t.type.typeSize.toNat = 0 →
      bytes.toNat / t.type.typeSize.toNat ≤ 0xFFFFFFFF → t.type.fitsWord bytes = true := by
    intro bytes whole small
    have none_left : bytes % t.type.typeSize = 0 := by
      rw [← UInt64.toNat_inj, UInt64.toNat_mod, whole]
      rfl
    simp only [GgmlType.fitsWord, GgmlType.units, Tensor.blckSize_of_fits accepted, none_left,
      beq_self_eq_true, bne_self_eq_false, Bool.and_false, Bool.not_false, Bool.true_and, if_true,
      decide_eq_true_eq, UInt64.le_iff_toNat_le, UInt64.toNat_div]
    exact small
  rw [fillBlock, if_pos]
  · rfl
  refine ⟨fun k => ⟨?_, ?_⟩, fitsWord whole small⟩
  · obtain ⟨low, high, -, -⟩ := Tensor.dimension_of_fits accepted k
    have nonnegative : (0 : Int64) ≤ t.ne k := by
      rw [Int64.le_iff_toInt_le, Int64.toInt_zero]
      omega
    have clamp : (t.ne k).toNatClampNeg = (t.ne k).toInt.toNat := rfl
    rw [not_or, Int64.not_lt, UInt64.not_lt, UInt64.le_iff_toNat_le,
      Int64.toNat_toUInt64_of_le nonnegative, clamp]
    simp only [UInt64.reduceToNat]
    exact ⟨nonnegative, by omega⟩
  · obtain ⟨-, -, whole, small⟩ := Tensor.dimension_of_fits accepted k
    rw [Tensor.stride, UInt64.toNat_div] at small
    exact fitsWord whole small

end DressOn.Ggml.ParamsWords
