import DressOn.Ggml.Reshape

/-!
# Concatenation

CONCAT along any dimension, of any two operands, through every iteration order. The kernel finds
out for itself which dimension an index is past, so the three blocks can be permuted alike. The
destination that `ggml_concat` makes is a new tensor; nothing here relies on it but the elements
being apart.
-/

namespace DressOn.Ggml.Move

open OwnedCells

section Concat

variable {dst a b : Tensor} {dim : Int} {packed : Packed}

/-- Where an element of a concatenation comes from: the element of the first operand when its index
along the dimension is below that operand's extent, else the element of the second at the index
reduced by it. -/
def concatSource (dim : Int) (a b : Tensor) (j : Fin 4 → ℕ) : ℕ ⊕ ℕ :=
  if ∀ k : Fin 4, (k.val : Int) = dim → j k < a.ne k then .inl (a.element j)
  else .inr (b.element fun k => if (k.val : Int) = dim then j k - a.ne k else j k)

/-- An element of an operand. -/
def readSource (a b : Tensor) (s0 s1 : Words) : ℕ ⊕ ℕ → UInt32
  | .inl e => a.type.kind.read s0 e
  | .inr e => b.type.kind.read s1 e

theorem value_concat (dst a b : Tensor) (dim : Int) (s0 s1 : Words) (j : Fin 4 → ℕ) :
    Node.value ⟨dst, .concat dim a b⟩ s0 s1 j = readSource a b s0 s1 (concatSource dim a b j) := by
  simp only [Node.value, concatSource]
  split <;> rfl

/-- The kind of words that `concat_b32` and `concat_b16` load. -/
def concatKind (type : GgmlType) : Kind := if is16 type then .b16 else .b32

theorem val_concatKernel (type : GgmlType) (w : Slot) (s0 s1 : Words) :
    (concatKernel type).val w s0 s1 = valConcat (concatKind type) w s0 s1 := by
  cases type <;> rfl

theorem read_concatKind (type : GgmlType) (buf : Words) (e : ℕ) :
    (concatKind type).read buf e = type.kind.read buf e := by
  cases type <;> rfl

/-- A packed concatenation stores its elements. -/
theorem stores_of_pack_concat (packs : Node.pack ⟨dst, .concat dim a b⟩ = some packed)
    (s0 s1 : Words) :
    Stores packed dst s0 s1 fun j => readSource a b s0 s1 (concatSource dim a b j) := by
  obtain ⟨supports, kernel, w, runs, kernel_eq, holds, sources, done⟩ := pack_spec packs
  obtain ⟨-, -, dst_eq, -, ordered, grid⟩ := packOp_spec done
  have order := order_of_filled holds
  obtain ⟨src0, src1⟩ := ordered
  rw [order] at dst_eq src0 src1
  have bijective : Function.Bijective dst.order.perm := orderOf_bijective dst.ne dst.stride
  obtain rfl : concatKernel dst.type = kernel := Option.some.inj runs
  simp only [Node.supports, Bool.and_eq_true, beq_iff_eq, decide_eq_true_eq] at supports
  have fits := supports.1.1.1.2
  have shape := supports.1.1.1.1.2
  have type_a := supports.1.1.1.1.1.1.1
  have type_b := supports.1.1.1.1.1.1.2
  exact {
    pos := Tensor.pos_of_fits fits
    ne := fun k => by
      rw [dst_eq]
      exact holds.ne _
    off4 := fun inside from_j => by
      rw [dst_eq]
      exact holds.toNat_off4_permute bijective inside from_j
    val := fun {j} inside => by
      have small : ∀ k, j k < 2 ^ 32 := fun k =>
        ((inside k).trans_le (Tensor.ne_le_of_fits fits k)).trans (by decide)
      obtain ⟨first, rest⟩ := concat_split shape inside
      have past : (¬∀ k, j k < a.ne k) →
          b.Holds fun k => if a.ne k ≤ j k then j k - a.ne k else j k := fun past =>
        (rest past).1 ▸ (rest past).2
      rw [kernel_eq, val_concatKernel,
        concat_eq s0 s1 sources.1 sources.2 bijective small _ src0 src1 past]
      simp only [concatSource, first, read_concatKind]
      split
      next => rw [readSource, type_a]
      next beyond => rw [readSource, type_b, (rest (first.not.mpr beyond)).1]
    grid := grid }

/-- However the threads interleave, each element of the destination is that of the operands. -/
def Concatenates (packed : Packed) (dst a b : Tensor) (dim : Int) : Prop :=
  ∀ (s0 s1 buf : Words) (schedule : List (Thread packed.gx packed.gy)),
    (∀ thread, 2 ≤ schedule.count thread) → ∀ j, dst.Holds j →
      dst.type.kind.read
          (run (packed.threads ⟨dst, .concat dim a b⟩ s0 s1) schedule buf).cells (dst.element j) =
        readSource a b s0 s1 (concatSource dim a b j)

/-- Every element of the destination is written, and from its own element of the operands only. -/
def SourcesOnly (dst a b : Tensor) (dim : Int) : Prop :=
  ∀ j, dst.Holds j → (∃ i, dst.Visited i ∧ dst.element i = dst.element j) ∧
    ∀ i, dst.Visited i → dst.element i = dst.element j →
      concatSource dim a b i = concatSource dim a b j

/-- Two different elements of 32-bit operands can hold different words. -/
theorem exists_readSource_ne (narrow : ¬ is16 a.type = true) (narrow' : ¬ is16 b.type = true)
    {x y : ℕ ⊕ ℕ} (differ : x ≠ y) :
    ∃ s0 s1, readSource a b s0 s1 x ≠ readSource a b s0 s1 y := by
  have words : ∃ s0 s1 : Words, Sum.elim s0 s1 x ≠ Sum.elim s0 s1 y := by
    refine ⟨fun e => if .inl e = x then 1 else 0, fun e => if .inr e = x then 1 else 0, ?_⟩
    have one : Sum.elim (fun e => if .inl e = x then 1 else 0)
        (fun e => if .inr e = x then 1 else 0) x = (1 : UInt32) := by
      cases x <;> exact if_pos rfl
    have zero : Sum.elim (fun e => if .inl e = x then 1 else 0)
        (fun e => if .inr e = x then 1 else 0) y = (0 : UInt32) := by
      cases y <;> exact if_neg differ.symm
    rw [one, zero]
    decide
  obtain ⟨s0, s1, apart⟩ := words
  have read : ∀ x, readSource a b s0 s1 x = Sum.elim s0 s1 x := by
    rintro (e | e)
    · exact read_word narrow s0 e
    · exact read_word narrow' s1 e
  exact ⟨s0, s1, by rwa [read, read]⟩

/-- The operands are of the destination's type. -/
theorem types_of_pack_concat (packs : Node.pack ⟨dst, .concat dim a b⟩ = some packed) :
    a.type = dst.type ∧ b.type = dst.type := by
  obtain ⟨supports, -⟩ := pack_spec packs
  simp only [Node.supports, Bool.and_eq_true, beq_iff_eq, decide_eq_true_eq] at supports
  exact ⟨supports.1.1.1.1.1.1.1, supports.1.1.1.1.1.1.2⟩

/-- A destination whose elements are apart is written element by element. -/
theorem sourcesOnly_of_apart (packs : Node.pack ⟨dst, .concat dim a b⟩ = some packed)
    (apart : dst.Apart) : SourcesOnly dst a b dim := by
  obtain ⟨supports, -, w, -, -, holds, -⟩ := pack_spec packs
  have fits : dst.fits = true := @fits_of_supports ⟨dst, .concat dim a b⟩ supports
  have exact_count := apart.nelements_eq holds (Tensor.pos_of_fits fits)
  intro j inside
  refine ⟨⟨j, Tensor.visited_of_count exact_count inside, rfl⟩, fun i visited same => ?_⟩
  rw [apart visited.1 inside same]

/-- However the axes are permuted and the threads interleave, each element of the destination is its
element of the operands exactly when every element is written from its own only. -/
theorem concatenates_iff_sourcesOnly
    (packs : Node.pack ⟨dst, .concat dim a b⟩ = some packed) :
    Concatenates packed dst a b dim ↔ SourcesOnly dst a b dim := by
  cases sixteen : is16 dst.type with
  | true =>
    have apart := @apart_of_sixteen packed ⟨dst, .concat dim a b⟩ sixteen packs
    refine iff_of_true (fun s0 s1 buf schedule complete j inside => ?_)
      (sourcesOnly_of_apart packs apart)
    rw [read_half sixteen, Packed.threads, if_pos sixteen,
      half_of_packed sixteen packs s0 s1 buf complete inside, value_concat]
  | false =>
    have narrow : ¬ is16 dst.type = true := by simp [sixteen]
    obtain ⟨type_a, type_b⟩ := types_of_pack_concat packs
    have stored (s0 s1 : Words) (j : Fin 4 → ℕ) :=
      @Stores.ends_with_iff _ _ _ _ _ (stores_of_pack_concat packs s0 s1) (dst.element j)
        (readSource a b s0 s1 (concatSource dim a b j))
    constructor
    · intro concatenates j inside
      have written (s0 s1 : Words) := (stored s0 s1 j).mp fun buf schedule complete => by
        have done := concatenates s0 s1 buf schedule complete j inside
        rwa [read_word narrow, Packed.threads, if_neg narrow] at done
      refine ⟨(written (fun _ => 0) fun _ => 0).1, fun i visited same => ?_⟩
      by_contra differ
      obtain ⟨s0, s1, shows⟩ := exists_readSource_ne (type_a ▸ narrow) (type_b ▸ narrow) differ
      exact shows ((written s0 s1).2 i visited same)
    · intro only s0 s1 buf schedule complete j inside
      obtain ⟨written, agreed⟩ := only j inside
      rw [read_word narrow, Packed.threads, if_neg narrow]
      refine (stored s0 s1 j).mpr ⟨written, fun i visited same => ?_⟩ buf schedule complete
      rw [agreed i visited same]

/-- For every concatenation that is supported and packed, along every dimension, from operands of
any strides and in every iteration order, each element of a destination that `ggml_concat` makes is
its element of the operands. So it is for every destination whose elements are apart, as those of 16
bits are; for any other it is exactly when every element is written from its own only. -/
theorem concatenates (packs : Node.pack ⟨dst, .concat dim a b⟩ = some packed) :
    (dst.Fresh → Concatenates packed dst a b dim) ∧
      (is16 dst.type = true ∨ dst.Apart → Concatenates packed dst a b dim) ∧
        (Concatenates packed dst a b dim ↔ SourcesOnly dst a b dim) := by
  have exact := concatenates_iff_sourcesOnly packs
  have of_apart : dst.Apart → Concatenates packed dst a b dim := fun apart =>
    exact.mpr (sourcesOnly_of_apart packs apart)
  have fits : dst.fits = true := @fits_of_supports ⟨dst, .concat dim a b⟩ (pack_spec packs).1
  refine ⟨fun fresh => of_apart ?_, fun kept => of_apart ?_, exact⟩
  · exact apart_of_contiguous fresh.contiguous (Tensor.pos_of_fits fits)
  · exact kept.elim (fun sixteen => @apart_of_sixteen packed ⟨dst, .concat dim a b⟩ sixteen packs) id

/-- Three columns of two, as `ggml_concat` makes them. -/
def joined : Tensor where
  type := .f32
  ne := ![2, 1, 3, 1]
  nb := ![4, 8, 8, 24]
  offset := 0
  inside := by decide

/-- Two columns, each in a row of memory. -/
def columns : Tensor where
  type := .f32
  ne := ![2, 1, 2, 1]
  nb := ![8, 4, 4, 16]
  offset := 0
  inside := by decide

/-- One column. -/
def column : Tensor := pair

/-- The column goes beside the two: the third dimension comes second in the iteration order. -/
theorem columns_concatenate :
    ∃ packed, Node.pack ⟨joined, .concat 2 columns column⟩ = some packed ∧
      Concatenates packed joined columns column 2 := by
  obtain ⟨packed, packs⟩ := Option.isSome_iff_exists.mp
    (show (Node.pack ⟨joined, .concat 2 columns column⟩).isSome = true by decide +kernel)
  have fresh : joined.Fresh := ⟨rfl, by decide⟩
  exact ⟨packed, packs, (concatenates packs).1 fresh⟩

end Concat

end DressOn.Ggml.Move
