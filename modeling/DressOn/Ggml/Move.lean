import DressOn.Ggml.ParamsWords
import DressOn.Lib.Numerals
import DressOn.Lib.OwnedCells

/-!
# Packing and storing the data movement operators

A CPY, CONCAT or REPEAT node is packed into the words of one dispatch: its
destination's dimensions are sorted by stride, the source blocks that follow it are
permuted alike, and word 55 says which dimensions continue one another without a
gap. `entry16` stores a 16-bit destination a 4-byte word at a time.

Other ggml types have no kernel. The CPU fallback and the profile are not modelled.
-/

namespace DressOn.Ggml.Move

/-- The element types that move. -/
inductive GgmlType where
  | f32
  | f16
  | bf16
  | i32
  | i16
deriving DecidableEq, Repr

/-- `ggml_type_size`. -/
def GgmlType.size : GgmlType → ℕ
  | .f32 | .i32 => 4
  | .f16 | .bf16 | .i16 => 2

/-- `is16`. -/
def is16 (type : GgmlType) : Bool := type.size == 2

/-- A tensor in its device buffer: its extents, and its strides and offset in bytes, as numbers
that ggml's 64-bit fields hold. -/
structure Tensor where
  type : GgmlType
  ne : Fin 4 → ℕ
  nb : Fin 4 → ℕ
  offset : ℕ
  inside : offset + ∑ k, (ne k - 1) * nb k + type.size ≤ maxBufferBytes
  ne_lt : ∀ k, ne k < 2 ^ 63 := by decide
  nb_lt : ∀ k, nb k < 2 ^ 64 := by decide

/-- ggml's entry of a type: one element in a block. -/
def GgmlType.entry (type : GgmlType) : ParamsWords.GgmlType where
  blckSize := 1
  typeSize := UInt64.ofNat type.size
  pos := by cases type <;> decide

namespace Tensor

variable (t : Tensor)

/-- The tensor's own words. -/
def words : ParamsWords.Tensor where
  type := t.type.entry
  ne k := Int64.ofNat (t.ne k)
  nb k := UInt64.ofNat (t.nb k)

/-- How many elements the tensor has. -/
def count : ℕ := ∏ k, t.ne k

/-- `ggml_nelements`, as the `uint64_t` that the packing takes it for. -/
def nelements : ℕ := t.words.nelements.toUInt64.toNat

/-- A stride in elements. -/
def stride (k : Fin 4) : ℕ := t.nb k / t.type.size

/-- `tensor_fits`. -/
def fits : Bool := t.words.fits

/-- `ggml_is_empty`. -/
def isEmpty : Bool := decide (∃ k, t.ne k = 0)

end Tensor

/-- `fill_block`. -/
def fillBlock (t : Tensor) : Option Block :=
  ParamsWords.fillBlock t.words (UInt64.ofNat t.offset)

/-! ## A tensor's words -/

namespace Tensor

variable (t : Tensor)

/-- An extent is a number that its word holds. -/
@[simp] theorem extent_words (k : Fin 4) : t.words.extent k = t.ne k := by
  rw [ParamsWords.Tensor.extent, words, Int64.toInt_ofNat_of_lt (t.ne_lt k)]
  exact Int.toNat_natCast _

/-- A stride is a number that its word holds. -/
@[simp] theorem toNat_nb_words (k : Fin 4) : (t.words.nb k).toNat = t.nb k :=
  UInt64.toNat_ofNat_of_lt' (t.nb_lt k)

/-- An element has two bytes or four. -/
@[simp] theorem toNat_typeSize_words : t.words.type.typeSize.toNat = t.type.size := by
  show (UInt64.ofNat t.type.size).toNat = _
  cases t.type <;> rfl

/-- A stride in elements is the quotient of the words. -/
@[simp] theorem toNat_stride_words (k : Fin 4) : (t.words.stride k).toNat = t.stride k := by
  rw [ParamsWords.Tensor.stride, UInt64.toNat_div, toNat_nb_words, toNat_typeSize_words, stride]

/-- A tensor inside its buffer starts in it. -/
theorem toNat_offset : (UInt64.ofNat t.offset).toNat = t.offset := by
  have inside := t.inside
  simp only [maxBufferBytes] at inside
  exact UInt64.toNat_ofNat_of_lt' (by simp only [UInt64.size]; omega)

/-- The count that ggml takes is cut to 64 bits. -/
theorem nelements_eq : t.nelements = t.count % 2 ^ 64 := by
  rw [nelements, ParamsWords.Tensor.toNat_nelements, count]
  refine congrArg (· % 2 ^ 64) (Finset.prod_congr rfl fun k _ => ?_)
  exact UInt64.toNat_ofNat_of_lt' ((t.ne_lt k).trans (by decide))

/-- The count that ggml takes is never too large. -/
theorem nelements_le_count : t.nelements ≤ t.count := t.nelements_eq ▸ Nat.mod_le _ _

/-- It is exact for a tensor of fewer elements. -/
theorem nelements_eq_count (few : t.count < 2 ^ 64) : t.nelements = t.count := by
  rw [nelements_eq, Nat.mod_eq_of_lt few]

variable {t} (fits : t.fits = true)

include fits

/-- A tensor that fits has an element. -/
theorem pos_of_fits (k : Fin 4) : 0 < t.ne k := by
  have := (ParamsWords.Tensor.extent_of_fits fits k).2.1
  rwa [extent_words] at this

/-- The extents of a tensor that fits are words. -/
theorem ne_le_of_fits (k : Fin 4) : t.ne k ≤ maxWord := by
  have := (ParamsWords.Tensor.extent_of_fits fits k).2.2
  rwa [extent_words] at this

/-- The count that ggml takes of a tensor that fits is a word. -/
theorem nelements_le_of_fits : t.nelements ≤ maxWord := by
  simp only [Tensor.fits, ParamsWords.Tensor.fits, Bool.and_eq_true, decide_eq_true_eq] at fits
  exact UInt64.le_iff_toNat_le.mp fits.2

end Tensor

/-- The words a move kernel reads: the blocks at words 1, 10 and 19, the linear
weights at 56 to 59, and the derived words 53, 54 and 55. -/
structure Slot where
  dst : Block
  src0 : Block
  src1 : Block
  threads : UInt32
  groupsX : UInt32
  merge : UInt32
  linW : Fin 4 → UInt32

/-! ## The iteration order -/

section Order

variable (ne nb : Fin 4 → ℕ)

/-- `key_less`: dimensions of size 1 last and in their own order, the others by stride. -/
def keyLess (a b : Fin 4) : Bool :=
  let ta := ne a == 1
  let tb := ne b == 1
  if ta != tb then !ta
  else if ta then false
  else decide (nb a < nb b)

/-- One turn of the insertion sort; the sorted part is listed from its end. -/
def insertDim (x : Fin 4) : List (Fin 4) → List (Fin 4)
  | [] => [x]
  | y :: rest => if keyLess ne nb x y then y :: insertDim x rest else x :: y :: rest

/-- The stable insertion sort of the four dimensions. -/
def sortedDims : List (Fin 4) :=
  ([0, 1, 2, 3].foldl (fun sorted x => insertDim ne nb x sorted) []).reverse

/-- An insertion adds the dimension and loses none. -/
theorem insertDim_perm (x : Fin 4) (sorted : List (Fin 4)) :
    (insertDim ne nb x sorted).Perm (x :: sorted) := by
  induction sorted with
  | nil => exact List.Perm.refl _
  | cons y rest ih =>
      rw [insertDim]
      split
      · exact (ih.cons y).trans (List.Perm.swap x y rest)
      · exact List.Perm.refl _

/-- Insertions add their dimensions and lose none. -/
theorem foldl_insertDim_perm (dims sorted : List (Fin 4)) :
    (dims.foldl (fun sorted x => insertDim ne nb x sorted) sorted).Perm (dims ++ sorted) := by
  induction dims generalizing sorted with
  | nil => exact List.Perm.refl _
  | cons x dims ih =>
      refine (ih _).trans (((insertDim_perm ne nb x sorted).append_left dims).trans ?_)
      exact List.perm_middle

/-- Sorting loses no dimension. -/
theorem sortedDims_perm : (sortedDims ne nb).Perm [0, 1, 2, 3] :=
  (List.reverse_perm _).trans (foldl_insertDim_perm ne nb [0, 1, 2, 3] [])

/-- The four dimensions are sorted. -/
theorem length_sortedDims : (sortedDims ne nb).length = 4 := (sortedDims_perm ne nb).length_eq

end Order

/-- `Order`: iteration dimension `k` is dimension `perm k`; the `nontrivial` dimensions of
more than one index come first. -/
structure Order where
  perm : Fin 4 → Fin 4
  ne : Fin 4 → ℕ
  nb : Fin 4 → ℕ
  nontrivial : ℕ

/-- `order_of`, from extents and element strides. -/
def orderOf (ne nb : Fin 4 → ℕ) : Order :=
  let perm := fun k : Fin 4 => (sortedDims ne nb).get (k.cast (length_sortedDims ne nb).symm)
  { perm := perm
    ne := fun k => ne (perm k)
    nb := fun k => nb (perm k)
    nontrivial := (List.finRange 4).countP fun k => 1 < ne (perm k) }

/-- `order_of`, from a tensor. -/
def Tensor.order (t : Tensor) : Order := orderOf t.ne t.stride

namespace Order

variable (o : Order)

/-- `nested`. -/
def nested : Bool :=
  decide (∀ k : Fin 4, k.val < o.nontrivial →
    o.nb k ≠ 0 ∧ (0 < k → o.ne (k - 1) * o.nb (k - 1) ≤ o.nb k))

/-- Whether dimension `k` continues the one below it without a gap. -/
def link (k : Fin 4) : Bool :=
  if k = 0 then o.nb 0 == 1 else o.nb k == o.ne (k - 1) * o.nb (k - 1)

/-- `merge_chain`: the loop stops at the first dimension that does not link. -/
def mergeChain : UInt32 :=
  ((List.finRange 4).takeWhile fun k => decide (k.val < o.nontrivial) && o.link k).foldl
    (fun m k => m ||| UInt32.ofNat (2 ^ k.val)) 0

end Order

/-- `permute_block`. -/
def Block.permute (b : Block) (o : Order) : Block :=
  { b with ne := fun k => b.ne (o.perm k), nb := fun k => b.nb (o.perm k) }

/-- The order of the dst block already in the slot. -/
def Slot.order (w : Slot) : Order :=
  orderOf (fun k => (w.dst.ne k).toNat) fun k => (w.dst.nb k).toNat

/-- `dst_ok`: a 16-bit destination must be nested. -/
def dstOk (t : Tensor) : Bool := !is16 t.type || t.order.nested

/-! ## The packers -/

/-- The kernels that move elements. -/
inductive Kernel where
  | cpyB32
  | cpyB16
  | cpyF32F16
  | cpyF32Bf16
  | cpyF16F32
  | cpyBf16F32
  | cpyF16Bf16
  | cpyBf16F16
  | concatB32
  | concatB16
  | repeatB32
  | repeatB16
deriving DecidableEq, Repr

/-- A node's operator and sources. DUP and CONT are packed as CPY is. -/
inductive Op where
  | cpy (src : Tensor)
  | concat (dim : Int) (a b : Tensor)
  | repeat (a : Tensor)

/-- A node: its destination and what fills it. -/
structure Node where
  dst : Tensor
  op : Op

/-- `kernel_for` of `cpy.cpp`. -/
def cpyKernel : GgmlType → GgmlType → Option Kernel
  | .f32, .f32 | .i32, .i32 => some .cpyB32
  | .f16, .f16 | .bf16, .bf16 | .i16, .i16 => some .cpyB16
  | .f32, .f16 => some .cpyF32F16
  | .f32, .bf16 => some .cpyF32Bf16
  | .f16, .f32 => some .cpyF16F32
  | .bf16, .f32 => some .cpyBf16F32
  | .f16, .bf16 => some .cpyF16Bf16
  | .bf16, .f16 => some .cpyBf16F16
  | _, _ => none

/-- `kernel_for` of `concat.cpp`. -/
def concatKernel : GgmlType → Kernel
  | .f32 | .i32 => .concatB32
  | .f16 | .bf16 | .i16 => .concatB16

/-- `kernel_for` of `repeat.cpp`. -/
def repeatKernel : GgmlType → Kernel
  | .f32 | .i32 => .repeatB32
  | .f16 | .bf16 | .i16 => .repeatB16

/-- The kernel a node runs. -/
def Node.kernel (node : Node) : Option Kernel :=
  match node.op with
  | .cpy src => cpyKernel src.type node.dst.type
  | .concat .. => some (concatKernel node.dst.type)
  | .repeat _ => some (repeatKernel node.dst.type)

/-- `ggml_can_repeat`. -/
def canRepeat (a dst : Tensor) : Bool :=
  if a.isEmpty then dst.isEmpty else decide (∀ k, dst.ne k % a.ne k = 0)

/-- `supports_cpy`, `supports_concat` and `supports_repeat`. -/
def Node.supports (node : Node) : Bool :=
  match node.op with
  | .cpy src =>
      (cpyKernel src.type node.dst.type).isSome && src.nelements == node.dst.nelements &&
        node.dst.fits && src.fits && dstOk node.dst
  | .concat dim a b =>
      a.type == node.dst.type && b.type == node.dst.type && decide (0 ≤ dim ∧ dim ≤ 3) &&
        decide (∀ k : Fin 4,
          node.dst.ne k = (if (k.val : Int) = dim then a.ne k + b.ne k else a.ne k) ∧
            ((k.val : Int) ≠ dim → b.ne k = a.ne k)) &&
        node.dst.fits && a.fits && b.fits && dstOk node.dst
  | .repeat a =>
      a.type == node.dst.type && canRepeat a node.dst && node.dst.fits && a.fits && dstOk node.dst

/-- A block of zeros, as `fill_standard` leaves the block of an absent source. -/
def Block.zero : Block := ⟨fun _ => 0, fun _ => 0, 0⟩

/-- The source blocks of a node. -/
def Op.fillSources : Op → Option (Block × Block)
  | .cpy src => (fillBlock src).map fun b => (b, Block.zero)
  | .concat _ a b => (fillBlock a).bind fun a => (fillBlock b).map fun b => (a, b)
  | .repeat a => (fillBlock a).map fun b => (b, Block.zero)

/-- `fill_standard`: the destination's block and one for each source. -/
def Node.fillStandard (node : Node) : Option Slot :=
  (fillBlock node.dst).bind fun dst => node.op.fillSources.map fun (src0, src1) => {
    dst := dst, src0 := src0, src1 := src1, threads := 0, groupsX := 0, merge := 0,
    linW := fun _ => 0 }

/-- `apply_order`: the destination and the listed sources permuted, and the merge chain. -/
def applyOrder (node : Node) (w : Slot) (src0 src1 : Bool) : Option Slot :=
  let o := w.order
  if is16 node.dst.type && !o.nested then none
  else some { w with
    dst := w.dst.permute o
    src0 := if src0 then w.src0.permute o else w.src0
    src1 := if src1 then w.src1.permute o else w.src1
    merge := o.mergeChain }

/-- A packed dispatch: its kernel, its words and its work groups in x and y. -/
structure Packed where
  kernel : Kernel
  slot : Slot
  gx : ℕ
  gy : ℕ

/-- Threads in a work group. -/
def threadgroup : ℕ := 256

/-- `grid_1d`, into the words and the work groups of a dispatch. -/
def grid1d (kernel : Kernel) (w : Slot) (threads : ℕ) : Option Packed :=
  (Launch.grid1d threadgroup threads).map fun grid => {
    kernel := kernel
    slot := { w with threads := grid.threads, groupsX := grid.groupsX }
    gx := grid.gx
    gy := grid.gy }

/-- The destination's linear weight of a dimension. -/
def linearWeight (t : Tensor) : Fin 4 → ℕ
  | 0 => 1
  | 1 => t.ne 0
  | 2 => t.ne 0 * t.ne 1
  | 3 => t.ne 0 * t.ne 1 * t.ne 2

/-- The words `pack_cpy`, `pack_concat` and `pack_repeat` write. -/
def Node.orderedWords (node : Node) (w : Slot) : Option Slot :=
  match node.op with
  | .cpy _ => (applyOrder node w false false).map fun packed =>
      { packed with linW := fun k => UInt32.ofNat (linearWeight node.dst (w.order.perm k)) }
  | .concat .. => applyOrder node w true true
  | .repeat _ => applyOrder node w true false

/-- `pack_cpy`, `pack_concat` and `pack_repeat`. -/
def Node.packOp (node : Node) (kernel : Kernel) (w : Slot) : Option Packed :=
  (node.orderedWords w).bind fun packed => grid1d kernel packed node.dst.nelements

/-- A node through its operator's entry: `none` when it is not supported or refused. -/
def Node.pack (node : Node) : Option Packed :=
  if node.supports then
    node.kernel.bind fun kernel => node.fillStandard.bind fun w => node.packOp kernel w
  else none

end DressOn.Ggml.Move
