import DressOn.Ggml.MatMulVecs

/-!
# MUL_MAT

Whichever kernel a node is packed for, its threads leave the same words in every order of their
turns, and its serial sibling leaves them too. In exact arithmetic each batch of the destination is
the product of the second source's batch with the transpose of the first one's.
-/

namespace DressOn.Ggml.MatMul

open ThreadGroups TreeReductions

section Siblings

variable {F : Type} (floats : Floats F) {s0 s1 dst : ℕ} {node : Node} {packed : Packed}

/-- The elements that a node leaves, by the kernel it is packed for. -/
def elementsOf (s0 s1 : ℕ) (cells : Cell → F) (packed : Packed) (node : Node) :
    (Fin 4 → ℕ) → F :=
  if node.vec then vecProductOf floats s0 s1 cells packed node
  else productOf floats s0 s1 cells packed node

/-- What a node leaves is one memory. -/
theorem Done.unique {product : (Fin 4 → ℕ) → F} {cells final other : Cell → F}
    (done : Done dst node product cells final) (done' : Done dst node product cells other)
    (buffer index : ℕ) : final (.word buffer index) = other (.word buffer index) := by
  by_cases written : buffer = dst ∧ ∃ i, node.dst.Holds i ∧ index = node.dst.element i
  · obtain ⟨rfl, i, holds, rfl⟩ := written
    rw [done.1 i holds, done'.1 i holds]
  · have off : buffer = dst → ∀ i, node.dst.Holds i → index ≠ node.dst.element i :=
      fun same i holds at_i => written ⟨same, i, holds, at_i⟩
    rw [done.2 _ _ off, done'.2 _ _ off]

/-- A run of a dispatch: where it cannot go on it has ended, with the elements of the node and
nothing else written. -/
def Leaves {γ ι : Type} [DecidableEq γ] [DecidableEq ι] (node : Node) (dst : ℕ)
    (product : (Fin 4 → ℕ) → F) (cells : Cell → F) (code : γ → ι → Code Cell F PUnit) : Prop :=
  Settles Step ⟨code, cells⟩ fun state : State γ ι Cell F =>
    (∀ g t, state.code g t = .done ⟨⟩) ∧ Done dst node product cells state.cells

/-- What the kernels leave. -/
theorem leaves_kernel (runs : Runs packed node) (ready : Ready s0 s1 dst packed node)
    (padded : floats.Padded) (cells : Cell → F) :
    (node.vec = true → Leaves node dst (elementsOf floats s0 s1 cells packed node) cells
      (packed.vecKernel floats s0 s1 dst)) ∧
    (node.vec = false → Leaves node dst (elementsOf floats s0 s1 cells packed node) cells
      (packed.tiledKernel floats s0 s1 dst)) := by
  constructor
  · intro warps
    rw [elementsOf, if_pos warps]
    exact runs.settles_vecs floats warps ready cells
  · intro tiles
    have many : ¬ node.vec = true := by
      rw [tiles]
      exact Bool.false_ne_true
    rw [elementsOf, if_neg many]
    exact runs.settles_tiled floats tiles ready padded cells

/-- What the serial siblings leave. -/
theorem leaves_sibling (runs : Runs packed node) (ready : Ready s0 s1 dst packed node)
    (cells : Cell → F) :
    (node.vec = true → Leaves node dst (elementsOf floats s0 s1 cells packed node) cells
      (packed.vecSibling floats s0 s1 dst)) ∧
    (node.vec = false → Leaves node dst (elementsOf floats s0 s1 cells packed node) cells
      (packed.tiledSibling floats s0 s1 dst)) := by
  constructor
  · intro warps
    rw [elementsOf, if_pos warps]
    exact runs.settles_vecSibling floats warps ready cells
  · intro tiles
    have many : ¬ node.vec = true := by
      rw [tiles]
      exact Bool.false_ne_true
    rw [elementsOf, if_neg many]
    exact runs.settles_tiledSibling floats tiles ready cells

/-- A matrix product and its serial sibling end in every order of their turns, and leave the same
words, wherever the product of two zeros changes no sum. -/
theorem mul_mat_siblings (packs : node.pack = some packed) (ready : Ready s0 s1 dst packed node)
    (padded : floats.Padded) (cells : Cell → F) :
    (node.vec = true →
      Leaves node dst (elementsOf floats s0 s1 cells packed node) cells
        (packed.vecKernel floats s0 s1 dst) ∧
      Leaves node dst (elementsOf floats s0 s1 cells packed node) cells
        (packed.vecSibling floats s0 s1 dst)) ∧
    (node.vec = false →
      Leaves node dst (elementsOf floats s0 s1 cells packed node) cells
        (packed.tiledKernel floats s0 s1 dst) ∧
      Leaves node dst (elementsOf floats s0 s1 cells packed node) cells
        (packed.tiledSibling floats s0 s1 dst)) ∧
    ∀ final other, Done dst node (elementsOf floats s0 s1 cells packed node) cells final →
      Done dst node (elementsOf floats s0 s1 cells packed node) cells other →
        ∀ buffer index, final (.word buffer index) = other (.word buffer index) := by
  have runs := runs_of_pack packs
  have kernel := leaves_kernel floats runs ready padded cells
  have sibling := leaves_sibling floats runs ready cells
  exact ⟨fun warps => ⟨kernel.1 warps, sibling.1 warps⟩,
    fun tiles => ⟨kernel.2 tiles, sibling.2 tiles⟩, fun _ _ done done' => done.unique done'⟩

end Siblings

/-! ## Exact arithmetic -/

section Exact

variable {R : Type} [CommSemiring R] (f16 bf16 : Bool → R → R) {s0 s1 dst : ℕ} {node : Node}
  {packed : Packed}

/-- Operations that do not round, with any conversions of 16-bit elements. -/
def exactFloats : Floats R where
  add := (· + ·)
  mul := (· * ·)
  zero := 0
  f16 := f16
  bf16 := bf16

/-- In exact arithmetic a product of two zeros changes no sum. -/
theorem exactFloats_padded : (exactFloats f16 bf16).Padded := by
  intro terms
  have none_ : (exactFloats f16 bf16).mul (exactFloats f16 bf16).zero
    (exactFloats f16 bf16).zero = 0 := mul_zero 0
  rw [none_]
  exact add_zero _

/-- The rows of the first source that serve a batch. -/
def aMatrix (s0 : ℕ) (cells : Cell → R) (packed : Packed) (node : Node) (z : ℕ) :
    Matrix (Fin (node.a.ne 1)) (Fin (node.a.ne 0)) R :=
  Matrix.of fun i k => aElement (exactFloats f16 bf16) s0 cells packed node z k i

/-- The rows of the second source in a batch. -/
def bMatrix (s1 : ℕ) (cells : Cell → R) (packed : Packed) (node : Node) (z : ℕ) :
    Matrix (Fin (node.b.ne 1)) (Fin (node.a.ne 0)) R :=
  Matrix.of fun j k => bElement (exactFloats f16 bf16) s1 cells packed node z k j

/-- A batch of the destination. -/
def dMatrix (dst : ℕ) (cells : Cell → R) (node : Node) (z : ℕ) :
    Matrix (Fin (node.b.ne 1)) (Fin (node.a.ne 1)) R :=
  Matrix.of fun j i => cells (.word dst (node.dst.element (node.bIndex i j z)))

/-- A sum over places, as a fold. -/
theorem sum_eq_foldl (n : ℕ) (f : ℕ → R) :
    ((List.range n).map f).foldl (· + ·) 0 = ∑ k : Fin n, f k := by
  rw [← List.sum_eq_foldl, ← Fin.sum_ofFn, List.ofFn_eq_map, ← List.map_coe_finRange_eq_range,
    List.map_map]
  rfl

variable {cells : Cell → R} {z i j : ℕ} (i_inside : i < node.a.ne 1) (j_inside : j < node.b.ne 1)

include i_inside j_inside

/-- The terms of a product. -/
theorem terms_eq (f : R → R → R) (k : Fin (node.a.ne 0)) :
    f ((batchOf (exactFloats f16 bf16) s0 s1 cells packed node z).a k i)
      ((batchOf (exactFloats f16 bf16) s0 s1 cells packed node z).b k j) =
      f (aMatrix f16 bf16 s0 cells packed node z ⟨i, i_inside⟩ k)
        (bMatrix f16 bf16 s1 cells packed node z ⟨j, j_inside⟩ k) :=
  congrArg₂ f (if_pos ⟨k.isLt, i_inside⟩) (if_pos ⟨k.isLt, j_inside⟩)

/-- The elements of a node are those of the matrix product. -/
theorem elementsOf_exact (batch : node.batch (node.bIndex i j z) = z) :
    elementsOf (exactFloats f16 bf16) s0 s1 cells packed node (node.bIndex i j z) =
      (bMatrix f16 bf16 s1 cells packed node z *
        (aMatrix f16 bf16 s0 cells packed node z).transpose) ⟨j, j_inside⟩ ⟨i, i_inside⟩ := by
  have both : ∀ b, (exactFloats f16 bf16).zero + b = b := zero_add
  have row : node.bIndex i j z 0 = i := rfl
  have column : node.bIndex i j z 1 = j := rfl
  let term (k : ℕ) : R := (batchOf (exactFloats f16 bf16) s0 s1 cells packed node z).a k i *
    (batchOf (exactFloats f16 bf16) s0 s1 cells packed node z).b k j
  have products : ((List.range (node.a.ne 0)).map term).foldl (· + ·) 0 =
      (bMatrix f16 bf16 s1 cells packed node z *
        (aMatrix f16 bf16 s0 cells packed node z).transpose) ⟨j, j_inside⟩ ⟨i, i_inside⟩ := by
    rw [sum_eq_foldl, Matrix.mul_apply]
    refine Finset.sum_congr rfl fun k _ => ?_
    rw [Matrix.transpose_apply, mul_comm]
    exact terms_eq f16 bf16 i_inside j_inside (· * ·) k
  rw [← products, elementsOf]
  split
  · rw [vecProductOf, batch, row, column]
    have lanes : (batchOf (exactFloats f16 bf16) s0 s1 cells packed node z).laneSum
        (exactFloats f16 bf16) (node.a.ne 0) i j =
        fun t => total (· + ·) 0 ((lane (node.a.ne 0) (2 ^ 5) t).map term) := by
      funext t
      rw [total, List.foldl_map]
      rfl
    rw [lanes]
    exact tree_lanes_eq_total both 5 (node.a.ne 0) term
  · rw [productOf, batch, row, column, Batch.dot, List.foldl_map]
    rfl

omit i_inside j_inside in
/-- Over any commutative semiring, whatever the order of the turns, each batch of the destination
ends as the second source's batch times the transpose of the first source's batch that serves it. -/
theorem mul_mat_exact (packs : node.pack = some packed) (ready : Ready s0 s1 dst packed node)
    (cells : Cell → R) :
    (node.vec = true → Settles Step ⟨packed.vecKernel (exactFloats f16 bf16) s0 s1 dst, cells⟩
      fun state : State _ _ Cell R => ∀ z < node.b.ne 2 * node.b.ne 3,
        dMatrix dst state.cells node z = bMatrix f16 bf16 s1 cells packed node z *
          (aMatrix f16 bf16 s0 cells packed node z).transpose) ∧
    (node.vec = false → Settles Step ⟨packed.tiledKernel (exactFloats f16 bf16) s0 s1 dst, cells⟩
      fun state : State _ _ Cell R => ∀ z < node.b.ne 2 * node.b.ne 3,
        dMatrix dst state.cells node z = bMatrix f16 bf16 s1 cells packed node z *
          (aMatrix f16 bf16 s0 cells packed node z).transpose) := by
  have runs := runs_of_pack packs
  have leaves := leaves_kernel (exactFloats f16 bf16) runs ready (exactFloats_padded f16 bf16) cells
  have products (final : Cell → R) (done : Done dst node
      (elementsOf (exactFloats f16 bf16) s0 s1 cells packed node) cells final) (z : ℕ)
      (inside : z < node.b.ne 2 * node.b.ne 3) :
      dMatrix dst final node z = bMatrix f16 bf16 s1 cells packed node z *
        (aMatrix f16 bf16 s0 cells packed node z).transpose := by
    ext j i
    rw [dMatrix, Matrix.of_apply, done.1 _ (runs.d_holds inside i.isLt j.isLt),
      elementsOf_exact f16 bf16 i.isLt j.isLt (batch_bIndex node i j z)]
  constructor
  · intro warps
    obtain ⟨ends, all⟩ := leaves.1 warps
    exact ⟨ends, fun state run stuck => products _ (all state run stuck).2⟩
  · intro tiles
    obtain ⟨ends, all⟩ := leaves.2 tiles
    exact ⟨ends, fun state run stuck => products _ (all state run stuck).2⟩

end Exact

/-! ## A small product -/

section Rows

variable {columns rows : ℕ} (few : columns < 2 ^ 4 ∧ rows < 2 ^ 4)

include few

/-- A few rows are inside a buffer. -/
theorem rows_inside :
    0 + ∑ k, ((![columns, rows, 1, 1] : Fin 4 → ℕ) k - 1) *
        (![4, 4 * columns, 4 * columns * rows, 4 * columns * rows] : Fin 4 → ℕ) k +
      Move.GgmlType.f32.size ≤ Move.maxBufferBytes := by
  have := Nat.mul_le_mul (Nat.sub_le rows 1) (Nat.mul_le_mul_left 4 few.1.le)
  rw [Fin.sum_univ_four]
  simp only [Matrix.cons_val, Move.GgmlType.size, Move.maxBufferBytes]
  omega

theorem rows_ne_lt (k : Fin 4) : (![columns, rows, 1, 1] : Fin 4 → ℕ) k < 2 ^ 63 := by
  fin_cases k <;> simp
  all_goals omega

theorem rows_nb_lt (k : Fin 4) :
    (![4, 4 * columns, 4 * columns * rows, 4 * columns * rows] : Fin 4 → ℕ) k < 2 ^ 64 := by
  have := Nat.mul_le_mul (Nat.mul_le_mul_left 4 few.1.le) few.2.le
  fin_cases k <;> simp
  all_goals omega

end Rows

/-- Rows of numbers, one after another. -/
def rowsOf (columns rows : ℕ) (few : columns < 2 ^ 4 ∧ rows < 2 ^ 4) : Move.Tensor where
  type := .f32
  ne := ![columns, rows, 1, 1]
  nb := ![4, 4 * columns, 4 * columns * rows, 4 * columns * rows]
  offset := 0
  inside := rows_inside few
  ne_lt := rows_ne_lt few
  nb_lt := rows_nb_lt few

/-- Two or five rows of three times two rows of three: for the kernel for few columns, or the tiled
one. -/
def small (tiled : Bool) : Node where
  dst := rowsOf 2 (if tiled then 5 else 2) (by cases tiled <;> decide)
  a := rowsOf 3 2 (by decide)
  b := rowsOf 3 (if tiled then 5 else 2) (by cases tiled <;> decide)

/-- Both are packed. -/
theorem small_packs (tiled : Bool) : ∃ packed, (small tiled).pack = some packed := by
  refine Option.isSome_iff_exists.1 ?_
  cases tiled <;> decide +kernel

/-- Both have a destination apart from the sources. -/
theorem small_ready (tiled : Bool) (packed : Packed) : Ready 0 1 2 packed (small tiled) where
  apart := by
    refine Move.apart_of_contiguous ?_ ?_ <;> cases tiled <;> decide
  spares i _ := by
    rintro (⟨j, -, same⟩ | ⟨j, -, same⟩) <;> exact absurd (Cell.word.inj same).1 (by decide)
  short := show 3 + 32 ≤ 2 ^ 32 by decide

/-- Two columns by the kernel for few columns, and five by the tiled one, with integers. -/
theorem mul_mat_siblings_small :
    let floats : Floats ℤ := exactFloats (fun _ x => x) fun _ x => x
    let two := small false
    let five := small true
    ∃ few many, two.pack = some few ∧ five.pack = some many ∧ ∀ cells : Cell → ℤ,
      (Leaves two 2 (elementsOf floats 0 1 cells few two) cells (few.vecKernel floats 0 1 2) ∧
        Leaves two 2 (elementsOf floats 0 1 cells few two) cells (few.vecSibling floats 0 1 2)) ∧
      Leaves five 2 (elementsOf floats 0 1 cells many five) cells (many.tiledKernel floats 0 1 2) ∧
        Leaves five 2 (elementsOf floats 0 1 cells many five) cells
          (many.tiledSibling floats 0 1 2) := by
  intro floats two five
  obtain ⟨few, packs⟩ := small_packs false
  obtain ⟨many, packs'⟩ := small_packs true
  refine ⟨few, many, packs, packs', fun cells => ⟨?_, ?_⟩⟩
  · exact (mul_mat_siblings floats packs (small_ready _ few)
      (exactFloats_padded _ _) cells).1 rfl
  · exact (mul_mat_siblings floats packs' (small_ready _ many)
      (exactFloats_padded _ _) cells).2.1 rfl

/-- The products of matrices of integers by both kernels. -/
theorem mul_mat_exact_small :
    let floats : Floats ℤ := exactFloats (fun _ x => x) fun _ x => x
    let two := small false
    let five := small true
    ∃ few many, two.pack = some few ∧ five.pack = some many ∧ ∀ cells : Cell → ℤ,
      Settles Step ⟨few.vecKernel floats 0 1 2, cells⟩ (fun state : State _ _ Cell ℤ =>
        dMatrix 2 state.cells two 0 =
          bMatrix (fun _ x => x) (fun _ x => x) 1 cells few two 0 *
            (aMatrix (fun _ x => x) (fun _ x => x) 0 cells few two 0).transpose) ∧
      Settles Step ⟨many.tiledKernel floats 0 1 2, cells⟩ (fun state : State _ _ Cell ℤ =>
        dMatrix 2 state.cells five 0 =
          bMatrix (fun _ x => x) (fun _ x => x) 1 cells many five 0 *
            (aMatrix (fun _ x => x) (fun _ x => x) 0 cells many five 0).transpose) := by
  intro floats two five
  obtain ⟨few, packs⟩ := small_packs false
  obtain ⟨many, packs'⟩ := small_packs true
  refine ⟨few, many, packs, packs', fun cells => ⟨?_, ?_⟩⟩
  · obtain ⟨ends, all⟩ := (mul_mat_exact (fun _ x => x) (fun _ x => x) packs
      (small_ready _ few) cells).1 rfl
    exact ⟨ends, fun state run stuck => all state run stuck 0 (by decide)⟩
  · obtain ⟨ends, all⟩ := (mul_mat_exact (fun _ x => x) (fun _ x => x) packs'
      (small_ready _ many) cells).2 rfl
    exact ⟨ends, fun state run stuck => all state run stuck 0 (by decide)⟩

end DressOn.Ggml.MatMul
