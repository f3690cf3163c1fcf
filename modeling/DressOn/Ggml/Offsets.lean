import DressOn.Ggml.HalfWords

/-!
# The offsets a kernel computes

`fill_standard` packs the blocks of a node, and `off4` finds an element in 32-bit words. The
offsets of a tensor that `tensor_fits` accepts are exact where the tensor reaches no further than
its buffer. The one product that can wrap while `tensor_fits` decides is the element count.
-/

namespace DressOn.Ggml.ParamsWords

open Move (Block off4 index maxBufferBytes)

/-- A tensor that starts in its device buffer. Nothing says how far it reaches. -/
structure Placed extends Tensor where
  offset : UInt64
  bufferBytes : ℕ
  small : bufferBytes ≤ maxBufferBytes
  inside : offset.toNat < bufferBytes

/-- A node: its destination and its sources. -/
structure Node where
  dst : Placed
  src : Fin 3 → Option Placed

/-- The tensor at a position: the destination, or a source. -/
def Node.tensor (node : Node) : Option (Fin 3) → Option Placed
  | none => some node.dst
  | some s => node.src s

/-- The block of a tensor that the offset callback finds in a bound buffer. -/
def Placed.block (bound : Placed → Bool) (t : Placed) : Option Block :=
  if bound t then fillBlock t.toTensor t.offset else none

/-- The block of a source; an absent one keeps the zeros of the cleared slot. -/
def Node.sourceBlock (bound : Placed → Bool) (node : Node) (s : Fin 3) : Option Block :=
  match node.src s with
  | none => some ⟨fun _ => 0, fun _ => 0, 0⟩
  | some t => t.block bound

/-- `fill_standard`: the destination's block and one for each source. -/
def fillStandard (bound : Placed → Bool) (node : Node) : Option (Option (Fin 3) → Block) :=
  (node.dst.block bound).bind fun dst => (node.sourceBlock bound 0).bind fun s0 =>
    (node.sourceBlock bound 1).bind fun s1 => (node.sourceBlock bound 2).map fun s2 => fun
      | none => dst
      | some s => ![s0, s1, s2] s

/-- The element that an index lies at, in elements from the start of the buffer. -/
def Placed.element (t : Placed) (i : Fin 4 → ℕ) : ℕ :=
  t.offset.toNat / t.type.typeSize.toNat + ∑ k, i k * (t.stride k).toNat

/-- The element of the largest index lies in the buffer. -/
def Placed.Reaches (t : Placed) : Prop :=
  t.element (fun k => t.extent k - 1) < t.bufferBytes / t.type.typeSize.toNat

instance (t : Placed) : Decidable t.Reaches := inferInstanceAs (Decidable (_ < _))

/-- The kernel finds every index of the tensor exactly, inside the buffer. -/
def OffsetsExact (b : Block) (t : Placed) : Prop :=
  ∀ i : Fin 4 → ℕ, (∀ k, i k < t.extent k) →
    (off4 b (index i)).toNat = t.element i ∧
      t.element i < t.bufferBytes / t.type.typeSize.toNat

/-- An index of a tensor lies no further than the largest one. -/
theorem Placed.element_le (t : Placed) {i : Fin 4 → ℕ} (within : ∀ k, i k < t.extent k) :
    t.element i ≤ t.element fun k => t.extent k - 1 :=
  Nat.add_le_add_left (Finset.sum_le_sum fun k _ =>
    Nat.mul_le_mul_right _ (Nat.le_sub_one_of_lt (within k))) _

/-- A buffer has fewer elements than a word counts. -/
theorem Placed.elements_lt (t : Placed) : t.bufferBytes / t.type.typeSize.toNat < 2 ^ 32 :=
  calc
    t.bufferBytes / t.type.typeSize.toNat ≤ t.bufferBytes := Nat.div_le_self _ _
    _ ≤ maxBufferBytes := t.small
    _ < 2 ^ 32 := by decide

/-- The sum of `tensor_fits` is exact for a tensor that reaches no further than its buffer. -/
theorem Placed.last_exact {t : Placed} (accepted : t.fits = true) (reaches : t.Reaches) :
    t.last.toNat = ∑ k, (t.extent k - 1) * (t.stride k).toNat := by
  have sum_lt : ∑ k, (t.extent k - 1) * (t.stride k).toNat < 2 ^ 32 :=
    calc
      _ ≤ t.element fun k => t.extent k - 1 := Nat.le_add_left _ _
      _ < t.bufferBytes / t.type.typeSize.toNat := reaches
      _ < 2 ^ 32 := t.elements_lt
  rw [Fin.sum_univ_four] at sum_lt ⊢
  simp only [Tensor.last, UInt64.toNat_add, UInt64.toNat_mul, Tensor.toNat_pred accepted]
  omega

/-- The block of an accepted tensor that reaches no further than its buffer gives the exact offset
of every index. -/
theorem offsetsExact_of_filled {t : Placed} {b : Block} (accepted : t.fits = true)
    (filled : Filled b t.toTensor t.offset) (reaches : t.Reaches) : OffsetsExact b t := by
  have buffer := t.elements_lt
  intro i within
  have below : t.element i < t.bufferBytes / t.type.typeSize.toNat :=
    (t.element_le within).trans_lt reaches
  have words : Move.numbers (index i) = i := Move.numbers_index fun k => by
    have := (Tensor.extent_of_fits accepted k).2.2
    have := within k
    omega
  have same : b.off.toNat + ∑ k, Move.numbers (index i) k * (b.nb k).toNat = t.element i := by
    rw [words, Placed.element, filled.off]
    simp only [filled.nb]
  exact ⟨by rw [Move.toNat_off4 _ _ (by omega), same], below⟩

/-- Every block that `fill_standard` packs is the one of the tensor at its position. -/
theorem filled_of_fillStandard {bound : Placed → Bool} {node : Node}
    {slot : Option (Fin 3) → Block} (packed : fillStandard bound node = some slot)
    {position : Option (Fin 3)} {t : Placed} (found : node.tensor position = some t) :
    fillBlock t.toTensor t.offset = some (slot position) := by
  have block_of : ∀ {t : Placed} {b : Block}, t.block bound = some b →
      fillBlock t.toTensor t.offset = some b := by
    intro t b filled
    rw [Placed.block] at filled
    split at filled
    · exact filled
    · cases filled
  have source_of : ∀ {s : Fin 3} {b : Block}, node.src s = some t →
      node.sourceBlock bound s = some b → fillBlock t.toTensor t.offset = some b := by
    intro s b found filled
    rw [Node.sourceBlock, found] at filled
    exact block_of filled
  obtain ⟨dst, dst_eq, packed⟩ := Option.bind_eq_some_iff.mp packed
  obtain ⟨s0, s0_eq, packed⟩ := Option.bind_eq_some_iff.mp packed
  obtain ⟨s1, s1_eq, packed⟩ := Option.bind_eq_some_iff.mp packed
  obtain ⟨s2, s2_eq, rfl⟩ := Option.map_eq_some_iff.mp packed
  cases position with
  | none =>
    obtain rfl := Option.some.inj found
    exact block_of dst_eq
  | some s =>
    fin_cases s
    · exact source_of found s0_eq
    · exact source_of found s1_eq
    · exact source_of found s2_eq

/-- For every tensor of a packed node that `tensor_fits` accepts, the kernel's offsets are exact and
inside the buffer and the check's own arithmetic is exact, exactly when the tensor reaches no
further than its buffer and the number of its elements is below `2 ^ 63`. -/
theorem offsets_never_wrap_iff {bound : Placed → Bool} {node : Node}
    {slot : Option (Fin 3) → Block} (packed : fillStandard bound node = some slot)
    {position : Option (Fin 3)} {t : Placed} (found : node.tensor position = some t)
    (accepted : t.fits = true) :
    OffsetsExact (slot position) t ∧ t.NoWrap ↔ t.Reaches ∧ ∏ k, (t.ne k).toInt < 2 ^ 63 := by
  have filled := fillBlock_spec (Tensor.blckSize_of_fits accepted)
    (filled_of_fillStandard packed found)
  have last : ∀ k, t.extent k - 1 < t.extent k := fun k =>
    Nat.sub_one_lt_of_lt (Tensor.extent_of_fits accepted k).2.1
  rw [← Tensor.nelements_exact_iff accepted]
  exact ⟨fun exact => ⟨(exact.1 _ last).2, exact.2.nelements⟩, fun ⟨reaches, count⟩ =>
    ⟨offsetsExact_of_filled accepted filled reaches, count, t.last_exact accepted reaches⟩⟩

/-- The type of an f32 tensor. -/
def f32 : GgmlType := ⟨1, 4, by decide⟩

/-- A row of four elements at the start of a buffer of 256 bytes. -/
def fourElements : Placed where
  type := f32
  ne := ![4, 1, 1, 1]
  nb := ![4, 16, 16, 16]
  offset := 0
  bufferBytes := 256
  small := by decide
  inside := by decide

/-- The offsets of the row are exact. -/
theorem four_elements_exact :
    ∃ slot, fillStandard (fun _ => true) ⟨fourElements, fun _ => none⟩ = some slot ∧
      OffsetsExact (slot none) fourElements ∧ fourElements.NoWrap := by
  have packs : (fillStandard (fun _ => true) ⟨fourElements, fun _ => none⟩).isSome = true := by
    decide +kernel
  obtain ⟨slot, packed⟩ := Option.isSome_iff_exists.mp packs
  have found : Node.tensor ⟨fourElements, fun _ => none⟩ none = some fourElements := rfl
  have reaches : fourElements.Reaches := by decide +kernel
  exact ⟨slot, packed, (offsets_never_wrap_iff packed found (by decide +kernel)).mpr
    ⟨reaches, by decide +kernel⟩⟩

/-- A view of the row that repeats it `2 ^ 31 * 2 ^ 31` times. -/
def repeatedRow : Placed where
  type := f32
  ne := ![4, 2147483648, 2147483648, 1]
  nb := ![4, 0, 0, 0]
  offset := 0
  bufferBytes := 256
  small := by decide
  inside := by decide

/-- A view of two elements, the second of them 16 GiB further on. -/
def farElement : Placed where
  type := f32
  ne := ![1, 2, 1, 1]
  nb := ![4, 17179869180, 17179869180, 17179869180]
  offset := 16
  bufferBytes := 256
  small := by decide
  inside := by decide

/-- Both views are accepted and packed. The `2 ^ 64` elements of the one count as none; the second
element of the other, 4 GiB of elements on, is looked for in word 3 of the buffer. -/
theorem views_wrap :
    (repeatedRow.fits = true ∧
      (fillStandard (fun _ => true) ⟨repeatedRow, fun _ => none⟩).isSome = true ∧
        repeatedRow.nelements = 0 ∧ ¬ repeatedRow.NoWrap) ∧
    farElement.fits = true ∧
      ∃ slot, fillStandard (fun _ => true) ⟨farElement, fun _ => none⟩ = some slot ∧
        off4 (slot none) (index ![0, 1, 0, 0]) = 3 ∧ ¬ OffsetsExact (slot none) farElement := by
  refine ⟨⟨by decide +kernel, by decide +kernel, by decide +kernel, fun exact =>
    absurd exact.nelements (by decide +kernel)⟩, by decide +kernel, ?_⟩
  have packs : (fillStandard (fun _ => true) ⟨farElement, fun _ => none⟩).isSome = true := by
    decide +kernel
  have wraps : off4 (((fillStandard (fun _ => true) ⟨farElement, fun _ => none⟩).get packs) none)
      (index ![0, 1, 0, 0]) = 3 := by
    decide +kernel +revert
  refine ⟨_, (Option.some_get packs).symm, wraps, fun exact => ?_⟩
  have there := (exact ![0, 1, 0, 0] (by decide +kernel)).1
  rw [wraps] at there
  exact absurd there (by decide +kernel)

end DressOn.Ggml.ParamsWords
