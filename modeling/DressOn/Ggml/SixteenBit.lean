import DressOn.Ggml.HalfWords
import DressOn.Ggml.Launch

/-!
# What a 16-bit move leaves in the buffer

Every packed node with a 16-bit destination, through its packing, its grid and every
interleaving of its threads, against what CPY, CONCAT and REPEAT say an element is.
-/

namespace DressOn.Ggml.Move

open OwnedCells

/-! ## What an element is -/

/-- How a type's elements are stored. -/
def GgmlType.kind : GgmlType → Kind
  | .f32 => .f32
  | .f16 => .f16
  | .bf16 => .bf16
  | .i32 => .b32
  | .i16 => .b16

/-- Element `e` of a buffer, by its number. -/
def Kind.read (kind : Kind) (buf : Words) (e : ℕ) : UInt32 :=
  match kind with
  | .b32 | .f32 => buf e
  | .b16 | .f16 | .bf16 => half buf e

/-- The element number of an index in the tensor's buffer. -/
def Tensor.element (t : Tensor) (j : Fin 4 → ℕ) : ℕ :=
  t.offset / t.type.size + ∑ k, j k * t.stride k

/-- An index inside the extents. -/
abbrev Tensor.Holds (t : Tensor) (j : Fin 4 → ℕ) : Prop := ∀ k, j k < t.ne k

/-- Where a copy looks for the source of an index: its number and then its address are cut to
words. -/
def copySource (src dst : Tensor) (j : Fin 4 → ℕ) : ℕ :=
  src.element (unravel src.ne (linear dst.ne j % 2 ^ 32)) % 2 ^ 32

/-- The value of an index: CPY goes by the linear index, CONCAT past the first source on
one dimension, REPEAT around its source. -/
def Node.value (node : Node) (s0 s1 : Words) (j : Fin 4 → ℕ) : UInt32 :=
  match node.op with
  | .cpy src =>
      conv src.type.kind node.dst.type.kind
        (src.type.kind.read s0 (src.element (unravel src.ne (linear node.dst.ne j))))
  | .concat dim a b =>
      if ∀ k : Fin 4, (k.val : Int) = dim → j k < a.ne k then a.type.kind.read s0 (a.element j)
      else b.type.kind.read s1
        (b.element fun k => if (k.val : Int) = dim then j k - a.ne k else j k)
  | .repeat a => a.type.kind.read s0 (a.element fun k => j k % a.ne k)

/-! ## The iteration order -/

section Order

variable (ne nb : Fin 4 → ℕ)

/-- The insertion keeps the dimensions of one index last. -/
theorem insertDim_trivial (x : Fin 4) {sorted : List (Fin 4)}
    (last : sorted.Pairwise fun later earlier => ne earlier = 1 → ne later = 1) :
    (insertDim ne nb x sorted).Pairwise fun later earlier => ne earlier = 1 → ne later = 1 := by
  induction last with
  | nil => simp [insertDim]
  | @cons y rest below _ ih =>
      rw [insertDim]
      split
      next less =>
        refine List.Pairwise.cons (fun z member => ?_) ih
        rcases List.mem_cons.mp ((insertDim_perm ne nb x rest).mem_iff.mp member) with rfl | member
        · intro one
          simp [keyLess, one] at less
        · exact below z member
      next stays =>
        refine List.Pairwise.cons (fun z member one => ?_) (List.Pairwise.cons below ‹_›)
        have trivial : ne y = 1 := by
          rcases List.mem_cons.mp member with rfl | member
          · exact one
          · exact below z member one
        by_contra nontrivial
        simp [keyLess, trivial, nontrivial] at stays

theorem foldl_insertDim_trivial (dims : List (Fin 4)) {sorted : List (Fin 4)}
    (last : sorted.Pairwise fun later earlier => ne earlier = 1 → ne later = 1) :
    (dims.foldl (fun sorted x => insertDim ne nb x sorted) sorted).Pairwise
      fun later earlier => ne earlier = 1 → ne later = 1 := by
  induction dims generalizing sorted with
  | nil => exact last
  | cons x dims ih => exact ih (insertDim_trivial ne nb x last)

/-- Sorting puts the dimensions of one index last. -/
theorem sortedDims_trivial :
    (sortedDims ne nb).Pairwise fun earlier later => ne earlier = 1 → ne later = 1 :=
  List.pairwise_reverse.mpr (foldl_insertDim_trivial ne nb [0, 1, 2, 3] List.Pairwise.nil)

/-- The order visits every dimension once. -/
theorem orderOf_bijective : Function.Bijective (orderOf ne nb).perm := by
  have nodup : (sortedDims ne nb).Nodup := (sortedDims_perm ne nb).nodup_iff.mpr (by decide)
  have injective : Function.Injective (orderOf ne nb).perm := fun k k' same =>
    Fin.cast_injective _ (List.nodup_iff_injective_get.mp nodup same)
  exact Finite.injective_iff_bijective.mp injective

/-- The dimensions of more than one index come first. -/
theorem orderOf_inner (pos : ∀ k, 0 < ne k) (k : Fin 4) :
    k.val < (orderOf ne nb).nontrivial ↔ 1 < (orderOf ne nb).ne k := by
  have first : ∀ p : Fin 4 → Bool, (∀ k k', k < k' → p k' = true → p k = true) →
      ∀ k : Fin 4, k.val < (List.finRange 4).countP p ↔ p k = true := by
    decide +kernel
  have antitone : ∀ k k', k < k' → 1 < ne ((orderOf ne nb).perm k') →
      1 < ne ((orderOf ne nb).perm k) := by
    intro k k' less
    have trivial := List.pairwise_iff_get.mp (sortedDims_trivial ne nb)
      (k.cast (length_sortedDims ne nb).symm) (k'.cast (length_sortedDims ne nb).symm) less
    have := pos ((orderOf ne nb).perm k)
    simp only [orderOf] at *
    omega
  have bits := first (fun k => 1 < ne ((orderOf ne nb).perm k)) (by simpa using antitone) k
  rw [decide_eq_true_iff] at bits
  exact bits

end Order

/-! ## The packing -/

section Packing

variable {t : Tensor} {b : Block}

/-- A block whose words are a tensor's. -/
structure Block.Of (b : Block) (t : Tensor) : Prop where
  ne : ∀ k, (b.ne k).toNat = t.ne k
  nb : ∀ k, (b.nb k).toNat = t.stride k
  off : b.off.toNat = t.offset / t.type.size
  strides : ∀ k, t.nb k = t.type.size * t.stride k
  start : t.offset = t.type.size * (t.offset / t.type.size)

/-- A word holds its value. -/
theorem toNat_ofNat {n : ℕ} (fits : n ≤ maxWord) : (UInt32.ofNat n).toNat = n :=
  UInt32.toNat_ofNat_of_lt' (Nat.lt_succ_of_le fits)

/-- `fill_block` writes the tensor's words. -/
theorem fillBlock_of (filled : fillBlock t = some b) : b.Of t := by
  obtain ⟨ne, nb, off, strides, start⟩ := ParamsWords.fillBlock_spec rfl filled
  simp only [Tensor.extent_words, Tensor.toNat_nb_words, Tensor.toNat_stride_words,
    Tensor.toNat_typeSize_words, Tensor.toNat_offset] at ne nb off strides start
  exact {
    ne := ne
    nb := nb
    off := off
    strides := fun k => (Nat.mul_div_cancel' (Nat.dvd_of_mod_eq_zero (strides k))).symm
    start := (Nat.mul_div_cancel' (Nat.dvd_of_mod_eq_zero start)).symm }

/-- The elements of a tensor lie in its buffer. -/
theorem Block.Of.reach (holds : b.Of t) :
    t.type.size * (t.offset / t.type.size + ∑ k, (t.ne k - 1) * t.stride k) + t.type.size ≤
      maxBufferBytes := by
  have inside := t.inside
  rw [holds.start] at inside
  simp only [holds.strides, Nat.mul_left_comm _ t.type.size, ← Finset.mul_sum] at inside
  rwa [Nat.mul_add]

theorem GgmlType.two_le_size (type : GgmlType) : 2 ≤ type.size := by
  cases type <;> decide

/-- An element inside the extents is inside the buffer. -/
theorem Block.Of.element_lt (holds : b.Of t) {j : Fin 4 → ℕ} (inside : t.Holds j) :
    t.element j < 2 ^ 31 := by
  have reach := holds.reach
  have last : t.element j ≤ t.offset / t.type.size + ∑ k, (t.ne k - 1) * t.stride k :=
    Nat.add_le_add_left (Finset.sum_le_sum fun k _ =>
      Nat.mul_le_mul_right _ (Nat.le_sub_one_of_lt (inside k))) _
  have bytes := Nat.mul_le_mul t.type.two_le_size last
  simp only [maxBufferBytes] at reach
  omega

/-- `off4` finds the element of any index, cut to a word. -/
theorem Block.Of.toNat_off4_mod (holds : b.Of t) (i : Index) :
    (off4 b i).toNat = t.element (numbers i) % 2 ^ 32 := by
  rw [Move.toNat_off4_mod, Tensor.element, holds.off]
  simp only [holds.nb]

/-- `off4` finds the element of an index. -/
theorem Block.Of.toNat_off4 (holds : b.Of t) {i : Index} (inside : t.Holds (numbers i)) :
    (off4 b i).toNat = t.element (numbers i) := by
  have less := holds.element_lt inside
  rw [holds.toNat_off4_mod, Nat.mod_eq_of_lt (by omega)]

/-- `off4` on a permuted block finds the element of the index it came from. -/
theorem Block.Of.toNat_off4_permute (holds : b.Of t) {o : Order}
    (bijective : Function.Bijective o.perm) {i : Index} {j : Fin 4 → ℕ} (inside : t.Holds j)
    (from_j : ∀ k, numbers i k = j (o.perm k)) :
    (off4 (b.permute o) i).toNat = t.element j := by
  have less := holds.element_lt inside
  have same : (b.permute o).off.toNat + ∑ k, numbers i k * ((b.permute o).nb k).toNat =
      t.element j := by
    rw [Tensor.element]
    simp only [Block.permute, holds.off, holds.nb, from_j]
    rw [bijective.sum_comp fun k => j k * t.stride k]
  rw [Move.toNat_off4 _ _ (by omega), same]

/-- A load reads the element of its number. -/
theorem load_eq (kind : Kind) (buf : Words) (e : UInt32) :
    load kind buf e = kind.read buf e.toNat := by
  cases kind <;> simp [load, Kind.read, ld16_eq]

variable {node : Node} {w : Slot} {kernel : Kernel} {packed : Packed}

/-- The source blocks of a filled slot. -/
def Slot.Sources (w : Slot) : Op → Prop
  | .cpy src => w.src0.Of src
  | .concat _ a b => w.src0.Of a ∧ w.src1.Of b
  | .repeat a => w.src0.Of a

/-- `fill_standard` writes the destination's words and the sources'. -/
theorem fillStandard_of (filled : node.fillStandard = some w) :
    w.dst.Of node.dst ∧ w.Sources node.op := by
  obtain ⟨target, op⟩ := node
  obtain ⟨dst, dst_eq, filled⟩ := Option.bind_eq_some_iff.mp filled
  obtain ⟨⟨src0, src1⟩, sources, rfl⟩ := Option.map_eq_some_iff.mp filled
  refine ⟨fillBlock_of dst_eq, ?_⟩
  cases op with
  | cpy src =>
      obtain ⟨_, src_eq, same⟩ := Option.map_eq_some_iff.mp sources
      obtain ⟨rfl, rfl⟩ := Prod.mk.inj same
      exact fillBlock_of src_eq
  | concat dim a b =>
      obtain ⟨_, a_eq, rest⟩ := Option.bind_eq_some_iff.mp sources
      obtain ⟨_, b_eq, same⟩ := Option.map_eq_some_iff.mp rest
      obtain ⟨rfl, rfl⟩ := Prod.mk.inj same
      exact ⟨fillBlock_of a_eq, fillBlock_of b_eq⟩
  | «repeat» a =>
      obtain ⟨_, a_eq, same⟩ := Option.map_eq_some_iff.mp sources
      obtain ⟨rfl, rfl⟩ := Prod.mk.inj same
      exact fillBlock_of a_eq

/-- The source blocks of a packed slot, from those of the filled one. -/
def Slot.Ordered (packed w : Slot) (dst : Tensor) : Op → Prop
  | .cpy _ => packed.src0 = w.src0 ∧
      packed.linW = fun k => UInt32.ofNat (linearWeight dst (w.order.perm k))
  | .concat .. => packed.src0 = w.src0.permute w.order ∧ packed.src1 = w.src1.permute w.order
  | .repeat _ => packed.src0 = w.src0.permute w.order

/-- The grid `grid_1d` launches. -/
structure Packed.Grid (packed : Packed) (count : ℕ) : Prop where
  threads : packed.slot.threads = UInt32.ofNat count
  groupsX : packed.slot.groupsX = UInt32.ofNat packed.gx
  fits : count ≤ maxWord
  columns : packed.gx ≤ maxGroupsPerDim
  covers : count ≤ packed.gy * packed.gx * threadgroup
  rows : packed.gy * packed.gx ≤ (count + threadgroup - 1) / threadgroup + packed.gx

/-- `grid_1d` covers its threads and little more. -/
theorem grid1d_spec {count : ℕ} (launched : grid1d kernel w count = some packed) :
    packed.kernel = kernel ∧ packed.slot = { w with
      threads := packed.slot.threads, groupsX := packed.slot.groupsX } ∧
      packed.Grid count := by
  obtain ⟨grid, launch, rfl⟩ := Option.map_eq_some_iff.mp launched
  obtain ⟨counted, threads, groupsX, columns, -, covers, rounded⟩ :=
    Launch.launched_of_grid1d (by decide) launch
  refine ⟨rfl, rfl, threads, groupsX, counted.2, columns, covers, ?_⟩
  dsimp only
  simp only [threadgroup] at rounded ⊢
  rcases rounded with single | ⟨full, last⟩
  · rw [single, Nat.one_mul]
    exact Nat.le_add_left _ _
  · rw [full]
    simp only [maxGroupsPerDim] at last ⊢
    omega

/-- What `apply_order` leaves. -/
theorem applyOrder_spec {src0 src1 : Bool} {applied : Slot}
    (ordered : applyOrder node w src0 src1 = some applied) :
    (is16 node.dst.type = true → w.order.nested = true) ∧ applied = { w with
      dst := w.dst.permute w.order
      src0 := if src0 then w.src0.permute w.order else w.src0
      src1 := if src1 then w.src1.permute w.order else w.src1
      merge := w.order.mergeChain } := by
  rw [applyOrder] at ordered
  split at ordered
  next => cases ordered
  next accepted => exact ⟨by simpa using accepted, (Option.some.inj ordered).symm⟩

/-- What the packers write. -/
theorem packOp_spec (done : node.packOp kernel w = some packed) :
    (is16 node.dst.type = true → w.order.nested = true) ∧ packed.kernel = kernel ∧
      packed.slot.dst = w.dst.permute w.order ∧ packed.slot.merge = w.order.mergeChain ∧
      packed.slot.Ordered w node.dst node.op ∧ packed.Grid node.dst.nelements := by
  obtain ⟨slot, ordered, launched⟩ := Option.bind_eq_some_iff.mp done
  obtain ⟨kernel_eq, slot_eq, grid⟩ := grid1d_spec launched
  obtain ⟨target, op⟩ := node
  rw [slot_eq]
  cases op with
  | cpy src =>
      obtain ⟨_, applied, rfl⟩ := Option.map_eq_some_iff.mp ordered
      obtain ⟨nested, rfl⟩ := applyOrder_spec applied
      exact ⟨nested, kernel_eq, rfl, rfl, ⟨rfl, rfl⟩, grid⟩
  | concat dim a b =>
      obtain ⟨nested, rfl⟩ := applyOrder_spec ordered
      exact ⟨nested, kernel_eq, rfl, rfl, ⟨rfl, rfl⟩, grid⟩
  | «repeat» a =>
      obtain ⟨nested, rfl⟩ := applyOrder_spec ordered
      exact ⟨nested, kernel_eq, rfl, rfl, rfl, grid⟩

end Packing

/-! ## The destination -/

section Destination

variable {t : Tensor} {b : Block}

/-- The order of a filled block is the tensor's. -/
theorem order_of_filled {w : Slot} (holds : w.dst.Of t) : w.order = t.order := by
  rw [Slot.order, Tensor.order]
  congr <;> funext k
  · exact holds.ne k
  · exact holds.nb k

/-- A tensor reaches as far in iteration order, and a buffer ends below a number of 31 bits. -/
theorem Block.Of.reach_order (holds : b.Of t) :
    t.offset / t.type.size + ∑ k, (t.order.ne k - 1) * t.order.nb k < 2 ^ 31 := by
  have reach := holds.reach
  have sums := (orderOf_bijective t.ne t.stride).sum_comp fun k => (t.ne k - 1) * t.stride k
  have bytes := Nat.mul_le_mul_right
    (t.offset / t.type.size + ∑ k, (t.ne k - 1) * t.stride k) t.type.two_le_size
  have positive := t.type.two_le_size
  simp only [maxBufferBytes] at reach
  change t.offset / t.type.size +
    ∑ k, (t.ne (t.order.perm k) - 1) * t.stride (t.order.perm k) < 2 ^ 31
  rw [Tensor.order, sums]
  omega

/-- A nested tensor in iteration order. -/
def Block.Of.layout (holds : b.Of t) (pos : ∀ k, 0 < t.ne k) (nested : t.order.nested = true) :
    Layout where
  toOrder := t.order
  off := t.offset / t.type.size
  few := List.countP_le_length
  pos := fun k => pos (t.order.perm k)
  inner := orderOf_inner t.ne t.stride pos
  isNested := nested
  reach := holds.reach_order

variable (holds : b.Of t) (pos : ∀ k, 0 < t.ne k) (nested : t.order.nested = true)

/-- An index lies at the same address in iteration order. -/
theorem Block.Of.layout_address (j : Fin 4 → ℕ) :
    (holds.layout pos nested).address (fun k => j (t.order.perm k)) = t.element j := by
  rw [Layout.address, Tensor.element]
  exact congrArg (t.offset / t.type.size + ·)
    ((orderOf_bijective t.ne t.stride).sum_comp fun k => j k * t.stride k)

/-- Every index in iteration order is one of the tensor. -/
theorem Block.Of.exists_index {i : Fin 4 → ℕ} (inside : (holds.layout pos nested).Holds i) :
    ∃ j, t.Holds j ∧ (fun k => j (t.order.perm k)) = i := by
  obtain ⟨back, left, right⟩ :=
    Function.bijective_iff_has_inverse.mp (orderOf_bijective t.ne t.stride)
  refine ⟨fun k => i (back k), fun k => ?_, ?_⟩
  · have := inside (back k)
    change i (back k) < t.ne (t.order.perm (back k)) at this
    rwa [show t.order.perm (back k) = k from right k] at this
  · funext k
    exact congrArg i (left k)

/-- As many elements in iteration order as before, and few enough for a buffer. -/
theorem Block.Of.layout_count :
    ∏ k, (holds.layout pos nested).ne k = t.count ∧ t.count ≤ 2 ^ 31 := by
  have same : ∏ k, (holds.layout pos nested).ne k = t.count :=
    (orderOf_bijective t.ne t.stride).prod_comp t.ne
  exact ⟨same, same ▸ (holds.layout pos nested).nelements_le⟩

include holds pos nested in
/-- ggml counts the elements of a nested tensor exactly. -/
theorem Block.Of.nelements_eq : t.nelements = t.count :=
  t.nelements_eq_count ((holds.layout_count pos nested).2.trans_lt (by decide))

end Destination

/-! ## The values -/

section Values

variable {w w' : Slot} {o : Order} {s0 s1 : Words}

variable (s0) in
theorem repeat_eq {a : Tensor} {b : Block} (holds : b.Of a) (pos : ∀ k, 0 < a.ne k)
    (bijective : Function.Bijective o.perm) {j : Fin 4 → ℕ} (small : ∀ k, j k < 2 ^ 32)
    (kind : Kind) (src0 : w.src0 = b.permute o) :
    valRepeat kind w s0 (index fun k => j (o.perm k)) =
      kind.read s0 (a.element fun k => j k % a.ne k) := by
  rw [valRepeat, load_eq, src0, holds.toNat_off4_permute bijective (fun k => Nat.mod_lt _ (pos k))]
  intro k
  simp only [numbers, index, UInt32.toNat_mod, Block.permute, holds.ne]
  rw [UInt32.toNat_ofNat_of_lt' (small _)]

variable (s0 s1) in
theorem concat_eq {x y : Tensor} {b c : Block} (holds : b.Of x) (holds' : c.Of y)
    (bijective : Function.Bijective o.perm) {j : Fin 4 → ℕ} (small : ∀ k, j k < 2 ^ 32)
    (kind : Kind) (src0 : w.src0 = b.permute o) (src1 : w.src1 = c.permute o)
    (inside : (¬∀ k, j k < x.ne k) → y.Holds fun k => if x.ne k ≤ j k then j k - x.ne k else j k) :
    valConcat kind w s0 s1 (index fun k => j (o.perm k)) =
      if ∀ k, j k < x.ne k then kind.read s0 (x.element j)
      else kind.read s1 (y.element fun k => if x.ne k ≤ j k then j k - x.ne k else j k) := by
  have number : ∀ k, (index (fun k => j (o.perm k)) k).toNat = j (o.perm k) := fun k =>
    UInt32.toNat_ofNat_of_lt' (small _)
  have extent : ∀ k, (w.src0.ne k).toNat = x.ne (o.perm k) := fun k => by
    rw [src0]
    exact holds.ne _
  have before : ∀ k, index (fun k => j (o.perm k)) k < w.src0.ne k ↔
      j (o.perm k) < x.ne (o.perm k) := fun k => by
    rw [UInt32.lt_iff_toNat_lt, number, extent]
  have within : (∀ k, j (o.perm k) < x.ne (o.perm k)) ↔ ∀ k, j k < x.ne k :=
    (bijective.surjective.forall (p := fun k => j k < x.ne k)).symm
  have branch : (index (fun k => j (o.perm k)) 0 < w.src0.ne 0 ∧
      index (fun k => j (o.perm k)) 1 < w.src0.ne 1 ∧
      index (fun k => j (o.perm k)) 2 < w.src0.ne 2 ∧
      index (fun k => j (o.perm k)) 3 < w.src0.ne 3) ↔ ∀ k, j k < x.ne k := by
    rw [← within, Fin.forall_fin_succ, Fin.forall_fin_succ, Fin.forall_fin_two]
    simp only [before]
    rfl
  rw [valConcat, if_congr branch rfl rfl]
  split
  next first =>
    rw [load_eq, src0, holds.toNat_off4_permute bijective first number]
  next past =>
    rw [load_eq, src1, holds'.toNat_off4_permute bijective (inside past)]
    intro k
    have cut : w.src0.ne k ≤ index (fun k => j (o.perm k)) k ↔ x.ne (o.perm k) ≤ j (o.perm k) := by
      rw [UInt32.le_iff_toNat_le, number, extent]
    simp only [numbers, cut]
    split
    next past =>
      rw [UInt32.toNat_sub_of_le _ _ (cut.mpr past), number, extent]
    next => exact number k

variable (s0) in
theorem cpy_eq {src dst : Tensor} {b : Block} (holds : b.Of src)
    (bijective : Function.Bijective o.perm) (j : Fin 4 → ℕ) (s d : Kind) (src0 : w.src0 = b)
    (linW : w.linW = fun k => UInt32.ofNat (linearWeight dst (o.perm k))) :
    valCpy s d w s0 (index fun k => j (o.perm k)) = conv s d (s.read s0 (copySource src dst j)) := by
  have number : (index (fun k => j (o.perm k)) 0 * w.linW 0 +
      index (fun k => j (o.perm k)) 1 * w.linW 1 + index (fun k => j (o.perm k)) 2 * w.linW 2 +
      index (fun k => j (o.perm k)) 3 * w.linW 3).toNat = linear dst.ne j % 2 ^ 32 := by
    have sum : ∑ k, j (o.perm k) * linearWeight dst (o.perm k) = linear dst.ne j := by
      rw [bijective.sum_comp fun k => j k * linearWeight dst k, Fin.sum_univ_four]
      simp only [linearWeight, linear]
      ring
    rw [Fin.sum_univ_four] at sum
    rw [← sum]
    simp only [linW, index, UInt32.toNat_add, UInt32.toNat_mul, UInt32.toNat_ofNat']
    simp only [Nat.add_mod, Nat.mul_mod, Nat.mod_mod]
  have unravelled : ∀ l : UInt32, numbers (unravel4 b l) = unravel src.ne l.toNat := fun l => by
    rw [numbers_unravel4]
    congr
    funext k
    exact holds.ne k
  rw [valCpy, load_eq, src0, holds.toNat_off4_mod, unravelled, number, copySource]

/-- A copy finds the element of the same number, where the source has it. -/
theorem copySource_eq {src dst : Tensor} {b : Block} (holds : b.Of src) (pos : ∀ k, 0 < src.ne k)
    {j : Fin 4 → ℕ} (word : linear dst.ne j < 2 ^ 32) (less : linear dst.ne j < src.count) :
    copySource src dst j = src.element (unravel src.ne (linear dst.ne j)) := by
  have there := holds.element_lt fun k => unravel_lt pos less k
  rw [copySource, Nat.mod_eq_of_lt word, Nat.mod_eq_of_lt (by omega)]

end Values

/-! ## Sixteen bits -/

section Small

/-- Two halves side by side in 16 bits. -/
theorem or_lt {a b : UInt32} (small : a.toNat < 65536) (small' : b.toNat < 65536) :
    (a ||| b).toNat < 65536 := by
  rw [UInt32.toNat_or]
  exact Nat.or_lt_two_pow (n := 16) small small'

theorem toNat_shift (a n : UInt32) (less : n.toNat < 32) :
    (a >>> n : UInt32).toNat = a.toNat / 2 ^ n.toNat := by
  rw [UInt32.toNat_shiftRight, Nat.mod_eq_of_lt less, Nat.shiftRight_eq_div_pow]

theorem toNat_one_shift (n : UInt32) (less : n.toNat < 32) :
    (1 <<< n : UInt32).toNat = 2 ^ n.toNat := by
  rw [UInt32.toNat_shiftLeft, Nat.mod_eq_of_lt less, Nat.shiftLeft_eq]
  simp only [UInt32.reduceToNat, one_mul]
  exact Nat.mod_eq_of_lt (Nat.pow_lt_pow_right (by decide) less)

theorem toNat_and_le (a m : UInt32) : (a &&& m).toNat ≤ m.toNat := by
  rw [UInt32.toNat_and]
  exact Nat.and_le_right

theorem toNat_sub {a b : UInt32} (le : b.toNat ≤ a.toNat) : (a - b).toNat = a.toNat - b.toNat :=
  UInt32.toNat_sub_of_le _ _ (UInt32.le_iff_toNat_le.mpr le)

theorem shift_lt (a : UInt32) : (a >>> 16 : UInt32).toNat < 65536 := by
  rw [toNat_shift_low]
  have := a.toNat_lt
  omega

theorem half_lt (buf : Words) (h : ℕ) : (half buf h).toNat < 65536 := by
  have := (buf (h / 2)).toNat_lt
  rw [toNat_half]
  split <;> omega

/-- `f32_to_bf16` fits 16 bits. -/
theorem f32ToBf16_lt (b : UInt32) : (f32ToBf16 b).toNat < 65536 := by
  rw [f32ToBf16]
  split
  · exact or_lt (shift_lt _) (by decide)
  · exact shift_lt _

/-- A normal result rounds within 16 bits. -/
theorem normal_lt {a : UInt32} (finite : a.toNat < 1199566848) (normal : 947912704 ≤ a.toNat)
    (m : UInt32) (m_eq : m = a - 939524096) :
    ((m + (4095 : UInt32) + ((m >>> 13 : UInt32) &&& 1)) >>> 13 : UInt32).toNat < 65536 := by
  have difference : m.toNat = a.toNat - 939524096 := by
    rw [m_eq, toNat_sub (by simp only [UInt32.reduceToNat]; omega)]
    rfl
  have bit := toNat_and_le (m >>> 13) 1
  rw [toNat_shift _ _ (by decide), UInt32.toNat_add, UInt32.toNat_add, difference]
  simp only [UInt32.reduceToNat, Nat.reducePow] at bit ⊢
  omega

/-- A subnormal result rounds within 16 bits: it is shifted by 14 bits at least. -/
theorem subnormal_lt {a : UInt32} (x q sh : UInt32) (less : a.toNat < 947912704)
    (x_eq : x = a >>> 23) (rounds : 102 ≤ x.toNat)
    (q_eq : q = (a &&& 8388607) ||| 8388608) (sh_eq : sh = 126 - x) :
    ((q + ((1 <<< (sh - 1) : UInt32) - 1) + ((q >>> sh : UInt32) &&& 1)) >>> sh : UInt32).toNat <
      65536 := by
  have exponent : x.toNat = a.toNat / 2 ^ 23 := by rw [x_eq, toNat_shift a 23 (by decide)]; rfl
  have amount : sh.toNat = 126 - x.toNat := by
    rw [sh_eq, toNat_sub (by simp only [UInt32.reduceToNat]; omega)]
    rfl
  have pred : (sh - 1).toNat = sh.toNat - 1 := toNat_sub (by simp only [UInt32.reduceToNat]; omega)
  have mantissa : q.toNat < 2 ^ 24 := by
    rw [q_eq, UInt32.toNat_or]
    exact Nat.or_lt_two_pow ((toNat_and_le a 8388607).trans_lt (by decide)) (by decide)
  have unit : ((1 <<< (sh - 1) : UInt32) - 1).toNat = 2 ^ (sh.toNat - 1) - 1 := by
    have power : (1 <<< (sh - 1) : UInt32).toNat = 2 ^ (sh.toNat - 1) := by
      rw [toNat_one_shift _ (by omega), pred]
    rw [toNat_sub (by rw [power]; exact Nat.one_le_two_pow), power]
    rfl
  have bit := toNat_and_le (q >>> sh) 1
  have bound : 2 ^ (sh.toNat - 1) ≤ 2 ^ 24 := Nat.pow_le_pow_right (by decide) (by omega)
  have deep : 2 ^ 14 ≤ 2 ^ sh.toNat := Nat.pow_le_pow_right (by decide) (by omega)
  rw [toNat_shift _ _ (by omega), UInt32.toNat_add, UInt32.toNat_add, unit]
  refine (Nat.div_le_div_left deep (by decide)).trans_lt ?_
  generalize 2 ^ (sh.toNat - 1) = power at bound
  simp only [UInt32.reduceToNat, Nat.reducePow] at bit bound mantissa ⊢
  omega

/-- `f32_to_f16` fits 16 bits. -/
theorem f32ToF16_lt (b : UInt32) : (f32ToF16 b).toNat < 65536 := by
  have sign : ((b >>> 16 : UInt32) &&& 32768).toNat < 65536 :=
    (toNat_and_le _ _).trans_lt (by decide : (32768 : UInt32).toNat < 65536)
  rw [f32ToF16]
  generalize b &&& 2147483647 = a
  extract_lets m x q sh
  split
  · exact or_lt sign (by decide)
  · split
    · exact or_lt sign (by decide)
    next finite =>
      rw [UInt32.not_le, UInt32.lt_iff_toNat_lt] at finite
      split
      next normal => exact or_lt sign (normal_lt finite (UInt32.le_iff_toNat_le.mp normal) m rfl)
      next small =>
        rw [UInt32.not_le, UInt32.lt_iff_toNat_lt] at small
        split
        · exact sign
        next rounds =>
          rw [UInt32.not_lt, UInt32.le_iff_toNat_le] at rounds
          exact or_lt sign (subnormal_lt x q sh small rfl rounds rfl rfl)

/-- The values of a 16-bit destination fit 16 bits. -/
theorem val_lt {node : Node} {kernel : Kernel} (runs : node.kernel = some kernel)
    (sixteen : is16 node.dst.type = true) (w : Slot) (s0 s1 : Words) (i : Index) :
    (kernel.val w s0 s1 i).toNat < 65536 := by
  have loaded : ∀ buf e, (load .b16 buf e).toNat < 65536 := fun buf e => by
    rw [load_eq]
    exact half_lt _ _
  obtain ⟨dst, op⟩ := node
  cases op with
  | cpy src =>
      simp only [Node.kernel] at runs
      revert runs sixteen
      cases src.type <;> cases dst.type <;> intro runs sixteen <;> cases runs <;>
        first
        | exact absurd sixteen (by decide)
        | exact loaded _ _
        | exact f32ToF16_lt _
        | exact f32ToBf16_lt _
  | concat dim a b =>
      simp only [Node.kernel, Option.some.injEq] at runs
      subst runs
      have b16 : concatKernel dst.type = .concatB16 := by
        revert sixteen
        cases dst.type <;> decide
      rw [b16]
      simp only [Kernel.val, valConcat]
      split <;> exact loaded _ _
  | «repeat» a =>
      simp only [Node.kernel, Option.some.injEq] at runs
      subst runs
      have b16 : repeatKernel dst.type = .repeatB16 := by
        revert sixteen
        cases dst.type <;> decide
      rw [b16]
      exact loaded _ _

end Small

/-! ## Every packed node -/

section Packed

variable {node : Node} {packed : Packed}

/-- A supported destination fits. -/
theorem fits_of_supports (supports : node.supports = true) : node.dst.fits = true := by
  obtain ⟨dst, op⟩ := node
  cases op <;> simp_all [Node.supports]

/-- An index of a concatenation is past the first source on one dimension at most. -/
theorem concat_split {dst a b : Tensor} {dim : Int}
    (shape : ∀ k : Fin 4, dst.ne k = (if (k.val : Int) = dim then a.ne k + b.ne k else a.ne k) ∧
      ((k.val : Int) ≠ dim → b.ne k = a.ne k)) {j : Fin 4 → ℕ} (inside : dst.Holds j) :
    ((∀ k, j k < a.ne k) ↔ ∀ k : Fin 4, (k.val : Int) = dim → j k < a.ne k) ∧
      ((¬∀ k, j k < a.ne k) →
        (fun k => if a.ne k ≤ j k then j k - a.ne k else j k) =
          (fun k : Fin 4 => if (k.val : Int) = dim then j k - a.ne k else j k) ∧
        b.Holds fun k => if (k.val : Int) = dim then j k - a.ne k else j k) := by
  have other : ∀ k : Fin 4, (k.val : Int) ≠ dim → j k < a.ne k := fun k differ => by
    have := inside k
    rwa [(shape k).1, if_neg differ] at this
  have first : (∀ k, j k < a.ne k) ↔ ∀ k : Fin 4, (k.val : Int) = dim → j k < a.ne k :=
    ⟨fun all k _ => all k, fun along k =>
      if same : (k.val : Int) = dim then along k same else other k same⟩
  refine ⟨first, fun past => ?_⟩
  have beyond : ∀ k : Fin 4, (k.val : Int) = dim → a.ne k ≤ j k := by
    intro k same
    by_contra less
    refine past (first.mpr fun k' same' => ?_)
    have : k' = k := Fin.ext (by omega)
    rw [this]
    omega
  constructor
  · funext k
    by_cases same : (k.val : Int) = dim
    · rw [if_pos (beyond k same), if_pos same]
    · have := other k same
      rw [if_neg (by omega), if_neg same]
  · intro k
    have below := inside k
    rw [(shape k).1] at below
    by_cases same : (k.val : Int) = dim
    · have := beyond k same
      rw [if_pos same] at below
      simp only [if_pos same]
      omega
    · simp only [if_neg same]
      exact lt_of_lt_of_eq (other k same) ((shape k).2 same).symm

/-- The kernel of a copy converts between the kinds of its types. -/
theorem cpy_val {src dst : GgmlType} {kernel : Kernel} (runs : cpyKernel src dst = some kernel)
    {w : Slot} {s0 s1 : Words} {i : Index} {e : ℕ}
    (value : ∀ s d : Kind, valCpy s d w s0 i = conv s d (s.read s0 e)) :
    kernel.val w s0 s1 i = conv src.kind dst.kind (src.kind.read s0 e) := by
  cases src <;> cases dst <;> cases runs <;> simp only [Kernel.val] <;> exact value _ _

/-- The kernel's value of an index in iteration order is the operator's value of the
index itself. -/
theorem val_eq {kernel : Kernel} {w : Slot} (supports : node.supports = true)
    (runs : node.kernel = some kernel) (sixteen : is16 node.dst.type = true)
    (sources : w.Sources node.op) (order : w.order = node.dst.order)
    (ordered : packed.slot.Ordered w node.dst node.op)
    (few : node.dst.nelements = node.dst.count) (s0 s1 : Words) {j : Fin 4 → ℕ} (inside : node.dst.Holds j) :
    kernel.val packed.slot s0 s1 (index fun k => j (node.dst.order.perm k)) =
      node.value s0 s1 j := by
  have bijective : Function.Bijective node.dst.order.perm :=
    orderOf_bijective node.dst.ne node.dst.stride
  have small : ∀ k, j k < 2 ^ 32 := fun k =>
    ((inside k).trans_le (Tensor.ne_le_of_fits (fits_of_supports supports) k)).trans (by decide)
  have read : ∀ (type : GgmlType) buf e, is16 type = true →
      type.kind.read buf e = Kind.b16.read buf e := by
    intro type buf e
    cases type <;> first | (intro sixteen; rfl) | (intro wide; exact absurd wide (by decide))
  obtain ⟨dst, op⟩ := node
  cases op with
  | cpy src =>
      obtain ⟨src0, linW⟩ := ordered
      rw [order] at linW
      simp only [Node.supports, Bool.and_eq_true, beq_iff_eq] at supports
      obtain ⟨⟨⟨⟨-, same⟩, fits⟩, fits_src⟩, -⟩ := supports
      have less : linear dst.ne j < dst.nelements := few ▸ linear_lt inside
      have word : linear dst.ne j < 2 ^ 32 :=
        less.trans_le ((Tensor.nelements_le_of_fits fits).trans (by decide))
      have source : copySource src dst j = src.element (unravel src.ne (linear dst.ne j)) :=
        copySource_eq sources (Tensor.pos_of_fits fits_src) word
          (less.trans_le (same ▸ src.nelements_le_count))
      refine cpy_val runs fun s d => ?_
      rw [cpy_eq s0 sources bijective j s d src0 linW, source]
  | concat dim a b =>
      obtain ⟨src0, src1⟩ := ordered
      rw [order] at src0 src1
      simp only [Node.supports, Bool.and_eq_true, beq_iff_eq, decide_eq_true_eq] at supports
      have type_a := supports.1.1.1.1.1.1.1
      have type_b := supports.1.1.1.1.1.1.2
      have shape := supports.1.1.1.1.2
      obtain ⟨first, rest⟩ := concat_split shape inside
      have past : (¬∀ k, j k < a.ne k) →
          b.Holds fun k => if a.ne k ≤ j k then j k - a.ne k else j k := fun past => by
        obtain ⟨same, holds⟩ := rest past
        rw [same]
        exact holds
      have value := concat_eq s0 s1 sources.1 sources.2 bijective small .b16
        src0 src1 past
      have b16 : kernel = .concatB16 := by
        simp only [Node.kernel, Option.some.injEq] at runs
        revert runs sixteen
        cases dst.type <;> intro sixteen runs <;>
          first | exact runs.symm | exact absurd sixteen (by decide)
      simp only [b16, Kernel.val, value, Node.value, first, read _ _ _ (type_a ▸ sixteen),
        read _ _ _ (type_b ▸ sixteen)]
      split
      next => rfl
      next beyond => rw [(rest (first.not.mpr beyond)).1]
  | «repeat» a =>
      rw [Slot.Ordered, order] at ordered
      simp only [Node.supports, Bool.and_eq_true, beq_iff_eq] at supports
      have value := repeat_eq s0 sources (Tensor.pos_of_fits supports.1.2) bijective small
        .b16 ordered
      have b16 : kernel = .repeatB16 := by
        simp only [Node.kernel, Option.some.injEq] at runs
        revert runs sixteen
        cases dst.type <;> intro sixteen runs <;>
          first | exact runs.symm | exact absurd sixteen (by decide)
      simp only [b16, Kernel.val, value, Node.value, read _ _ _ (supports.1.1.1.1 ▸ sixteen)]

/-- The grid of a packed destination covers its layout. -/
theorem Packed.Grid.covers_layout {l : Layout} (grid : packed.Grid node.dst.nelements)
    (count : ∏ k, l.ne k = node.dst.nelements) :
    packed.slot.Covers l packed.gx packed.gy := by
  have few := l.nelements_le
  have columns := grid.columns
  have rows := grid.rows
  rw [count] at few
  simp only [maxGroupsPerDim] at columns
  exact {
    groupsX := by rw [grid.groupsX]; exact toNat_ofNat (columns.trans (by decide))
    covers := count ▸ grid.covers
    room := by
      have threads := Nat.mul_le_mul_right threadgroup rows
      simp only [threadgroup] at threads ⊢
      omega }

/-- A packed 16-bit destination is a layout that its slot packs and its grid covers. -/
theorem exists_layout {w : Slot} {kernel : Kernel} (supports : node.supports = true)
    (sixteen : is16 node.dst.type = true) (holds : w.dst.Of node.dst)
    (done : node.packOp kernel w = some packed) :
    ∃ l : Layout, packed.slot.Packs l ∧ packed.slot.Covers l packed.gx packed.gy ∧
      (∀ j, l.address (fun k => j (node.dst.order.perm k)) = node.dst.element j) ∧
      (∀ j, node.dst.Holds j → l.Holds fun k => j (node.dst.order.perm k)) ∧
      ∀ i, l.Holds i → ∃ j, node.dst.Holds j ∧ (fun k => j (node.dst.order.perm k)) = i := by
  obtain ⟨nested, -, dst, merge, -, grid⟩ := packOp_spec done
  have order := order_of_filled holds
  rw [order] at nested dst merge
  have pos := Tensor.pos_of_fits (fits_of_supports supports)
  have count := (holds.layout_count pos (nested sixteen)).1.trans
    (holds.nelements_eq pos (nested sixteen)).symm
  refine ⟨holds.layout pos (nested sixteen), ?_, grid.covers_layout count,
    holds.layout_address pos (nested sixteen), fun j inside k => inside _,
    fun i inside => holds.exists_index pos (nested sixteen) inside⟩
  exact {
    ne := fun k => by rw [dst]; exact holds.ne _
    nb := fun k => by rw [dst]; exact holds.nb _
    off := by rw [dst]; exact holds.off
    merge := merge
    threads := by rw [grid.threads, toNat_ofNat grid.fits, count] }

/-- ggml counts the elements of a packed 16-bit destination exactly, and they are few. -/
theorem nelements_of_sixteen {w : Slot} {kernel : Kernel} (supports : node.supports = true)
    (sixteen : is16 node.dst.type = true) (holds : w.dst.Of node.dst)
    (done : node.packOp kernel w = some packed) :
    node.dst.nelements = node.dst.count ∧ node.dst.count ≤ 2 ^ 31 := by
  have nested := (packOp_spec done).1
  rw [order_of_filled holds] at nested
  have pos := Tensor.pos_of_fits (fits_of_supports supports)
  exact ⟨holds.nelements_eq pos (nested sixteen), (holds.layout_count pos (nested sixteen)).2⟩

/-- Every thread of a grid, in order. -/
def threadsOf (gx gy : ℕ) : List (Thread gx gy) :=
  (List.finRange gy).flatMap fun gidY => (List.finRange gx).flatMap fun gidX =>
    (List.finRange threadgroup).map fun lid => ⟨gidY, gidX, lid⟩

theorem mem_threadsOf {gx gy : ℕ} (thread : Thread gx gy) : thread ∈ threadsOf gx gy := by
  obtain ⟨gidY, gidX, lid⟩ := thread
  simp [threadsOf]

/-- Running the grid over twice gives every thread its two turns. -/
theorem two_le_count {gx gy : ℕ} (thread : Thread gx gy) :
    2 ≤ (threadsOf gx gy ++ threadsOf gx gy).count thread := by
  have := List.count_pos_iff.mpr (mem_threadsOf thread)
  rw [List.count_append]
  omega

/-- A packed node was supported, and its words are those of its tensors. -/
theorem pack_spec (packs : node.pack = some packed) :
    node.supports = true ∧ ∃ (kernel : Kernel) (w : Slot), node.kernel = some kernel ∧
      packed.kernel = kernel ∧ w.dst.Of node.dst ∧ w.Sources node.op ∧
      node.packOp kernel w = some packed := by
  rw [Node.pack] at packs
  split at packs
  next supports =>
    obtain ⟨kernel, runs, packs⟩ := Option.bind_eq_some_iff.mp packs
    obtain ⟨w, filled, done⟩ := Option.bind_eq_some_iff.mp packs
    obtain ⟨holds, sources⟩ := fillStandard_of filled
    exact ⟨supports, kernel, w, runs, (packOp_spec done).2.1, holds, sources, done⟩
  next => cases packs

/-- Every element of a 16-bit destination ends with its own value. -/
theorem half_of_packed (sixteen : is16 node.dst.type = true) (packs : node.pack = some packed)
    (s0 s1 buf : Words) {schedule : List (Thread packed.gx packed.gy)}
    (complete : ∀ thread, 2 ≤ schedule.count thread) {j : Fin 4 → ℕ} (inside : node.dst.Holds j) :
    half (run (entry16 packed.slot (packed.kernel.val packed.slot s0 s1)) schedule buf).cells
      (node.dst.element j) = node.value s0 s1 j := by
  obtain ⟨supports, kernel, w, runs, kernel_eq, holds, sources, done⟩ := pack_spec packs
  obtain ⟨-, -, -, -, ordered, -⟩ := packOp_spec done
  obtain ⟨l, slot, covers, address, into, -⟩ := exists_layout supports sixteen holds done
  have small : ∀ i, (packed.kernel.val packed.slot s0 s1 i).toNat < 65536 := fun i => by
    rw [kernel_eq]
    exact val_lt runs sixteen _ s0 s1 i
  have value := val_eq supports runs sixteen sources (order_of_filled holds) ordered
    (nelements_of_sixteen supports sixteen holds done).1 s0 s1 inside
  rw [← address j, half_of_element slot covers small complete buf (into j inside), kernel_eq,
    value]

/-- Whatever the shape, the permutation, the gaps and the parity of a 16-bit destination
and however its threads interleave, every element ends with its own value, every other
half-word of the buffer keeps its bits, and no two threads write the same word. -/
theorem sixteen_bit_moves (sixteen : is16 node.dst.type = true)
    (packs : node.pack = some packed) (s0 s1 buf : Words)
    (schedule : List (Thread packed.gx packed.gy))
    (complete : ∀ thread, 2 ≤ schedule.count thread) :
    let threads : Thread packed.gx packed.gy → Option (Update ℕ UInt32) :=
      entry16 packed.slot (packed.kernel.val packed.slot s0 s1)
    (∀ j, node.dst.Holds j →
        half (run threads schedule buf).cells (node.dst.element j) = node.value s0 s1 j) ∧
      (∀ h, (∀ j, node.dst.Holds j → node.dst.element j ≠ h) →
        half (run threads schedule buf).cells h = half buf h) ∧
      RaceFree threads := by
  intro threads
  obtain ⟨supports, kernel, w, runs, kernel_eq, holds, -, done⟩ := pack_spec packs
  obtain ⟨l, slot, covers, address, -, from_j⟩ := exists_layout supports sixteen holds done
  have small : ∀ i, (packed.kernel.val packed.slot s0 s1 i).toNat < 65536 := fun i => by
    rw [kernel_eq]
    exact val_lt runs sixteen _ s0 s1 i
  refine ⟨fun j inside => half_of_packed sixteen packs s0 s1 buf complete inside,
    fun h free => ?_, raceFree_entry16 slot covers _⟩
  refine half_of_gap slot covers small complete buf fun i inside => ?_
  obtain ⟨j, inside', rfl⟩ := from_j i inside
  rw [address]
  exact free j inside'

/-- A row of two repeated over three, written transposed from an odd address with gaps. -/
def transposedRepeat : Node where
  dst := { type := .f16, ne := ![2, 3, 1, 1], nb := ![10, 2, 30, 30], offset := 2,
           inside := by decide }
  op := .repeat { type := .f16, ne := ![2, 1, 1, 1], nb := ![2, 4, 4, 4], offset := 0,
                  inside := by decide }

/-- The second element of the row reaches address 8, and the gap before it stays. -/
theorem sixteen_bit_moves_transposed : ∃ packed, transposedRepeat.pack = some packed ∧
    let final := (run (entry16 packed.slot (packed.kernel.val packed.slot (fun _ => 131073)
        fun _ => 0)) (threadsOf packed.gx packed.gy ++ threadsOf packed.gx packed.gy)
      fun _ => 458759).cells
    half final 8 = 2 ∧ half final 5 = 7 := by
  obtain ⟨packed, packs⟩ := Option.isSome_iff_exists.mp
    (show transposedRepeat.pack.isSome = true by decide +kernel)
  obtain ⟨moved, kept, -⟩ := sixteen_bit_moves (by decide) packs (fun _ => 131073) (fun _ => 0)
    (fun _ => 458759) _ two_le_count
  refine ⟨packed, packs, ?_, ?_⟩
  · exact (moved ![1, 2, 0, 0] (by decide)).trans (by decide +kernel)
  · refine (kept 5 fun j inside => ?_).trans (by decide +kernel)
    have row : j 0 < 2 := inside 0
    have column : j 1 < 3 := inside 1
    have plane : j 2 < 1 := inside 2
    have volume : j 3 < 1 := inside 3
    have element_eq : transposedRepeat.dst.element j = 1 + (j 0 * 5 + j 1 * 1 + j 2 * 15 + j 3 * 15) := by
      rw [Tensor.element, Fin.sum_univ_four]
      rfl
    omega

end Packed

end DressOn.Ggml.Move
