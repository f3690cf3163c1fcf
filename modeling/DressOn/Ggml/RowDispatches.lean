import DressOn.Ggml.RowKernels

/-!
# Dispatches of the row kernels

A packed node has a group for each row, and groups beyond the last one that do nothing. In whatever
order the threads take their turns, the destination's words end as the results of their rows. In
exact arithmetic these are the sums, means, norms and softmaxes that the operators are named after.
-/

namespace DressOn.Ggml.Rows

open ThreadGroups TreeReductions
open Move (Block Index off4 maxWord)
open Argsort (inRow)

variable {F : Type} (floats : Floats F)

section Dispatch

variable {node : Node F} {packed : Packed F} {forced : Option ℤ}

/-- How many rows a node has. -/
def Node.rows (node : Node F) : ℕ := node.src.ne 1 * node.src.ne 2 * node.src.ne 3

/-- What a packed node runs under. -/
structure Runs (packed : Packed F) (node : Node F) (forced : Option ℤ) : Prop where
  dst : packed.slot.dst.Of node.dst
  src : packed.slot.src0.Of node.src
  op : packed.op = node.op
  width : packed.width = node.width forced
  param : packed.slot.param = node.param
  rows : packed.slot.rows.toNat = node.rows
  shape : ∀ k, k ≠ 0 → node.dst.ne k = node.src.ne k
  first : node.dst.ne 0 = node.op.written (node.src.ne 0)
  pos : ∀ k, 0 < node.src.ne k
  small : ∀ k, node.src.ne k ≤ maxWord
  launched : Launch.Launched packed.grid (node.width forced).threads
    (node.rows * (node.width forced).threads)

/-- A node whose results are apart has few rows. -/
theorem rows_le (few : node.dst.count ≤ 2 ^ 31) (pos : 0 < node.dst.ne 0)
    (shape : ∀ k, k ≠ 0 → node.dst.ne k = node.src.ne k) : node.rows ≤ 2 ^ 31 := by
  refine le_trans ?_ few
  rw [Node.rows, ← shape 1 (by decide), ← shape 2 (by decide), ← shape 3 (by decide),
    Move.Tensor.count, Fin.prod_univ_four, Nat.mul_assoc, Nat.mul_assoc, Nat.mul_assoc]
  exact Nat.le_mul_of_pos_left _ pos

/-- A packed node runs under its words, where its results are apart. -/
theorem runs_of_pack (packs : node.pack floats forced = some packed) (apart : node.dst.Apart) :
    Runs packed node forced := by
  unfold Node.pack at packs
  split at packs
  next supports =>
    obtain ⟨dst, dst_eq, packs⟩ := Option.bind_eq_some_iff.1 packs
    obtain ⟨src0, src_eq, packs⟩ := Option.bind_eq_some_iff.1 packs
    extract_lets rows tg at packs
    split at packs
    next => cases packs
    next =>
      obtain ⟨grid, launched, rfl⟩ := Option.map_eq_some_iff.1 packs
      simp only [Node.supports, Node.rowsF32Unary, Bool.and_eq_true] at supports
      obtain ⟨⟨⟨-, fits_dst⟩, fits⟩, shapes⟩ := supports
      have same : (∀ k, k ≠ 0 → node.dst.ne k = node.src.ne k) ∧
          node.dst.ne 0 = node.op.written (node.src.ne 0) := by
        revert shapes
        cases node.op <;> simp only [Bool.and_eq_true, decide_eq_true_eq] <;> intro shapes
        case sumRows | mean =>
          refine ⟨fun k other => ?_, shapes.1⟩
          fin_cases k
          · exact absurd rfl other
          · exact shapes.2.1
          · exact shapes.2.2.1
          · exact shapes.2.2.2
        case norm | rmsNorm => exact ⟨fun k _ => (shapes k).symm, (shapes 0).symm⟩
        case softMax => exact ⟨fun k _ => (shapes.1 k).symm, (shapes.1 0).symm⟩
      have holds := Move.fillBlock_of dst_eq
      have pos := Move.Tensor.pos_of_fits fits_dst
      have few := rows_le (apart.count_le holds pos) (pos 0) same.1
      have whole : rows = node.rows := Nat.mod_eq_of_lt (few.trans_lt (by decide))
      rw [whole] at launched ⊢
      exact {
        dst := holds
        src := Move.fillBlock_of src_eq
        op := rfl
        width := rfl
        param := rfl
        rows := Move.toNat_ofNat (few.trans (by decide))
        shape := same.1
        first := same.2
        pos := Move.Tensor.pos_of_fits fits
        small := Move.Tensor.ne_le_of_fits fits
        launched := Launch.launched_of_grid1d (Width.threads_pos _) launched }
  next => cases packs

/-- The index where a row starts. -/
def Node.start (node : Node F) (r : ℕ) : Fin 4 → ℕ := Move.unravel (inRow node.src.ne 1) r

/-- An element of a row is at its own address. -/
theorem toNat_address {b : Block} {t : Move.Tensor} (holds : b.Of t) {i : Index} {start : Fin 4 → ℕ}
    (starts : Move.numbers i = start) {c : ℕ} (small : c ≤ maxWord)
    (inside : t.Holds (inRow start c)) (first : t.Holds (inRow start 0)) (zero : start 0 = 0) :
    (off4 b i + UInt32.ofNat c * b.nb 0).toNat = t.element (inRow start c) := by
  have below := holds.element_lt inside
  have own : inRow start 0 = start := by
    rw [inRow, ← zero, Function.update_eq_self]
  rw [own] at first
  rw [Argsort.element_inRow, own] at below ⊢
  rw [UInt32.toNat_add, UInt32.toNat_mul, Move.toNat_ofNat small, holds.nb,
    holds.toNat_off4 (starts ▸ first), starts]
  rw [Nat.mod_eq_of_lt (a := c * _) (by omega), Nat.mod_eq_of_lt (by omega)]

namespace Runs

variable (runs : Runs packed node forced)

include runs

/-- The number of a group's row. -/
theorem toNat_row (g : Fin packed.grid.gy × Fin packed.grid.gx) :
    (UInt32.ofNat g.1 * packed.grid.groupsX + UInt32.ofNat g.2).toNat =
      g.1 * packed.grid.gx + g.2 := by
  have columns := runs.launched.columns
  have rows := runs.launched.rows
  have less : g.1.val * packed.grid.gx + packed.grid.gx ≤
      Move.maxGroupsPerDim * Move.maxGroupsPerDim := by
    rw [← Nat.succ_mul]
    exact Nat.mul_le_mul (g.1.isLt.trans_le rows) columns
  have inside := g.2.isLt
  simp only [Move.maxGroupsPerDim] at less columns
  rw [runs.launched.groupsX_eq, UInt32.toNat_add, UInt32.toNat_mul, UInt32.toNat_ofNat',
    UInt32.toNat_ofNat', UInt32.toNat_ofNat']
  have first := g.1.isLt
  simp only [Move.maxGroupsPerDim] at rows
  rw [Nat.mod_eq_of_lt (a := g.1.val) (by omega), Nat.mod_eq_of_lt (a := packed.grid.gx) (by omega),
    Nat.mod_eq_of_lt (a := g.2.val) (by omega), Nat.mod_eq_of_lt (a := g.1.val * _) (by omega),
    Nat.mod_eq_of_lt (by omega)]

/-- The extents of the row numbers. -/
theorem rows_pos (k : Fin 4) : 0 < inRow node.src.ne 1 k := by
  by_cases first : k = 0
  · subst first
    rw [inRow, Function.update_self]
    exact Nat.one_pos
  · rw [inRow, Function.update_of_ne first]
    exact runs.pos k

omit runs in
theorem prod_rows : ∏ k, inRow node.src.ne 1 k = node.rows := by
  rw [Fin.prod_univ_four]
  simp [inRow, Node.rows]

variable {r : ℕ} (inside : r < node.rows)

include inside

theorem start_lt (k : Fin 4) : node.start r k < inRow node.src.ne 1 k :=
  Move.unravel_lt runs.rows_pos (prod_rows ▸ inside) k

theorem start_zero : node.start r 0 = 0 := by
  have below := runs.start_lt inside 0
  rw [inRow, Function.update_self] at below
  omega

/-- A place of a row of the source. -/
theorem src_holds {c : ℕ} (here : c < node.src.ne 0) :
    node.src.Holds (inRow (node.start r) c) := by
  intro k
  by_cases first : k = 0
  · subst first
    rw [inRow, Function.update_self]
    exact here
  · have below := runs.start_lt inside k
    rw [inRow, Function.update_of_ne first] at below ⊢
    exact below

/-- A place of a row of the destination. -/
theorem dst_holds {c : ℕ} (here : c < node.op.written (node.src.ne 0)) :
    node.dst.Holds (inRow (node.start r) c) := by
  intro k
  by_cases first : k = 0
  · subst first
    rw [inRow, Function.update_self, runs.first]
    exact here
  · have below := runs.start_lt inside k
    rw [inRow, Function.update_of_ne first] at below ⊢
    exact below.trans_eq (runs.shape k first).symm

omit inside in
theorem written_pos : 0 < node.op.written (node.src.ne 0) := by
  have pos := runs.pos 0
  cases node.op <;> first | exact pos | exact Nat.one_pos

/-- The index that a group computes of its row. -/
theorem numbers_start {row : UInt32} (number : row.toNat = r) :
    Move.numbers ![0, row % packed.slot.src0.ne 1,
      row / packed.slot.src0.ne 1 % packed.slot.src0.ne 2,
      row / packed.slot.src0.ne 1 / packed.slot.src0.ne 2] = node.start r := by
  have zero := runs.start_zero inside
  funext k
  fin_cases k
  · exact zero.symm
  all_goals
    simp [Move.numbers, Node.start, Move.unravel, inRow, runs.src.ne, number]

/-- The row that a group takes. -/
theorem rowAt_spec {row : UInt32} (number : row.toNat = r) (s0 dst : ℕ) :
    let here := rowAt packed.slot s0 dst row
    here.n.toNat = node.src.ne 0 ∧
      (∀ c < node.src.ne 0,
        here.source' c = .word s0 (node.src.element (inRow (node.start r) c))) ∧
      ∀ c < node.op.written (node.src.ne 0),
        here.target' c = .word dst (node.dst.element (inRow (node.start r) c)) := by
  have zero := runs.start_zero inside
  have starts := runs.numbers_start inside number
  have small := runs.small 0
  refine ⟨runs.src.ne 0, fun c here => ?_, fun c here => ?_⟩
  · exact congrArg (Cell.word s0) (toNat_address runs.src starts (by omega)
      (runs.src_holds inside here) (runs.src_holds inside (runs.pos 0)) zero)
  · have few : c ≤ maxWord := by
      have := runs.pos 0
      have most : node.op.written (node.src.ne 0) ≤ node.src.ne 0 := by
        cases node.op <;> first | exact le_rfl | exact this
      omega
    exact congrArg (Cell.word dst) (toNat_address runs.dst starts few
      (runs.dst_holds inside here) (runs.dst_holds inside runs.written_pos) zero)

end Runs

/-- The words that a node reads and writes: no two elements of the destination share one, a word
that it shares with the source is the same element of both, and a reduced row is short enough for
its loop. -/
structure Node.Ready (node : Node F) (s0 dst : ℕ) : Prop where
  apart : node.dst.Apart
  spares : s0 = dst → ∀ i j, node.dst.Holds i → node.src.Holds j →
    node.dst.element i = node.src.element j → i = j
  short : node.op = .sumRows ∨ node.op = .mean → node.src.ne 0 + 256 ≤ 2 ^ 32

/-- The row of a group, and what the kernel may store to there. -/
def Packed.area (packed : Packed F) (node : Node F) (s0 dst : ℕ)
    (g : Fin packed.grid.gy × Fin packed.grid.gx) : Territory Cell :=
  let row := UInt32.ofNat g.1 * packed.grid.groupsX + UInt32.ofNat g.2
  if packed.slot.rows ≤ row then ⟨∅, ∅⟩
  else (rowAt packed.slot s0 dst row).area packed.width (node.op.written (node.src.ne 0)) g.1 g.2

/-- The memory after a node: the results of every row, and nothing else. -/
def Node.Done (node : Node F) (forced : Option ℤ) (s0 dst : ℕ) (cells final : Cell → F) : Prop :=
  (∀ i, node.dst.Holds i → final (.word dst (node.dst.element i)) =
    result floats node.op (node.width forced) node.param (UInt32.ofNat (node.src.ne 0))
      (fun c => cells (.word s0 (node.src.element (inRow i c)))) (i 0)) ∧
  ∀ buffer index, (buffer = dst → ∀ i, node.dst.Holds i → index ≠ node.dst.element i) →
    final (.word buffer index) = cells (.word buffer index)

variable {s0 dst : ℕ} (runs : Runs packed node forced) (ready : node.Ready s0 dst)

include runs ready

/-- A row whose elements are apart is short. -/
theorem Runs.short : node.src.ne 0 + 256 ≤ 2 ^ 32 := by
  by_cases reduces : node.op = .sumRows ∨ node.op = .mean
  · exact ready.short reduces
  · have all : node.op.written (node.src.ne 0) = node.src.ne 0 := by
      revert reduces
      cases node.op <;> simp [RowOp.written]
    have pos (k : Fin 4) : 0 < node.dst.ne k := by
      by_cases first : k = 0
      · subst first
        exact runs.first ▸ runs.written_pos
      · exact runs.shape k first ▸ runs.pos k
    have few := ready.apart.ne_le runs.dst pos 0
    rw [runs.first, all] at few
    omega

/-- A row of a node is fair. -/
theorem Runs.fair {row : UInt32} {r : ℕ} (number : row.toNat = r) (inside : r < node.rows) :
    (rowAt packed.slot s0 dst row).Fair (node.op.written (node.src.ne 0)) := by
  obtain ⟨length, source, target⟩ := runs.rowAt_spec inside number s0 dst
  have places {c d : ℕ} (same : inRow (node.start r) c = inRow (node.start r) d) : c = d := by
    simpa only [inRow, Function.update_self] using congrFun same 0
  refine ⟨length ▸ runs.short ready, fun c here d there same => ?_, fun c here d there same => ?_⟩
  · rw [target c here, target d there] at same
    exact places (ready.apart (runs.dst_holds inside here) (runs.dst_holds inside there)
      (Cell.word.inj same).2)
  · rw [length] at there
    rw [target c here, source d there] at same
    obtain ⟨buffers, words⟩ := Cell.word.inj same
    exact places (ready.spares buffers.symm _ _ (runs.dst_holds inside here)
      (runs.src_holds inside there) words)

omit ready in
/-- Whether a group has a row. -/
theorem Runs.idle_iff (g : Fin packed.grid.gy × Fin packed.grid.gx) :
    packed.slot.rows ≤ UInt32.ofNat g.1 * packed.grid.groupsX + UInt32.ofNat g.2 ↔
      node.rows ≤ g.1 * packed.grid.gx + g.2 := by
  rw [UInt32.le_iff_toNat_le, runs.rows, runs.toNat_row]

/-- Groups do not store to each other's cells. -/
theorem Runs.area_apart : Pairwise fun g h =>
    (packed.area node s0 dst g).Spares (packed.area node s0 dst h) := by
  intro g h other
  refine Set.disjoint_left.2 fun place mine yours => ?_
  by_cases idle : packed.slot.rows ≤ UInt32.ofNat g.1 * packed.grid.groupsX + UInt32.ofNat g.2
  · rw [Packed.area, if_pos idle] at mine
    exact absurd mine (Set.notMem_empty _)
  by_cases idle' : packed.slot.rows ≤ UInt32.ofNat h.1 * packed.grid.groupsX + UInt32.ofNat h.2
  · rw [Packed.area, if_pos idle'] at yours
    rcases yours with yours | yours <;> exact absurd yours (Set.notMem_empty _)
  rw [Packed.area, if_neg idle] at mine
  rw [Packed.area, if_neg idle'] at yours
  rw [runs.idle_iff, not_le] at idle idle'
  obtain ⟨length, source, target⟩ := runs.rowAt_spec idle (runs.toNat_row g) s0 dst
  obtain ⟨length', source', target'⟩ := runs.rowAt_spec idle' (runs.toNat_row h) s0 dst
  -- an index has one row, and a row one group
  have rows {c d : ℕ} (same : inRow (node.start (g.1 * packed.grid.gx + g.2)) c =
      inRow (node.start (h.1 * packed.grid.gx + h.2)) d) : False := by
    have starts : node.start (g.1 * packed.grid.gx + g.2) =
        node.start (h.1 * packed.grid.gx + h.2) := by
      have zeroes := congrArg (fun i => inRow i 0) same
      simp only [inRow, Function.update_idem] at zeroes
      have zero := runs.start_zero idle
      have zero' := runs.start_zero idle'
      rwa [← zero, Function.update_eq_self, zero, ← zero', Function.update_eq_self] at zeroes
    have numbers := congrArg (Move.linear (inRow node.src.ne 1)) starts
    rw [Node.start, Node.start, Move.linear_unravel, Move.linear_unravel] at numbers
    have columns : g.2.val = h.2.val := by
      simpa [Nat.mul_add_mod', Nat.mod_eq_of_lt] using congrArg (· % packed.grid.gx) numbers
    rw [columns, Nat.add_right_cancel_iff] at numbers
    exact other (Prod.ext (Fin.ext (Nat.eq_of_mul_eq_mul_right h.2.pos numbers)) (Fin.ext columns))
  rcases mine with ⟨t, -, rfl⟩ | ⟨c, here, rfl⟩
  · rcases yours with ⟨d, -, wrong⟩ | ⟨u, -, same⟩ | ⟨d, -, wrong⟩
    · cases wrong
    · obtain ⟨first, second, -⟩ := Cell.shared.inj same
      exact other (Prod.ext (Fin.ext first) (Fin.ext second))
    · cases wrong
  · have mine := runs.dst_holds idle here
    rcases yours with ⟨d, there, same⟩ | ⟨u, -, wrong⟩ | ⟨d, there, same⟩
    · rw [length'] at there
      rw [target c here, source' d there] at same
      obtain ⟨buffers, words⟩ := Cell.word.inj same
      exact rows (ready.spares buffers.symm _ _ mine (runs.src_holds idle' there) words)
    · cases wrong
    · rw [target c here, target' d there] at same
      exact rows (ready.apart mine (runs.dst_holds idle' there) (Cell.word.inj same).2)

omit ready in
/-- Every element of the destination is in the row of a group. -/
theorem Runs.exists_group {i : Fin 4 → ℕ} (holds : node.dst.Holds i) :
    ∃ g : Fin packed.grid.gy × Fin packed.grid.gx, g.1 * packed.grid.gx + g.2 < node.rows ∧
      node.start (g.1 * packed.grid.gx + g.2) = inRow i 0 := by
  let r := Move.linear (inRow node.src.ne 1) (inRow i 0)
  have starts : ∀ k, inRow i 0 k < inRow node.src.ne 1 k := by
    intro k
    by_cases first : k = 0
    · subst first
      rw [inRow, inRow, Function.update_self, Function.update_self]
      exact Nat.one_pos
    · rw [inRow, inRow, Function.update_of_ne first, Function.update_of_ne first]
      exact (holds k).trans_eq (runs.shape k first)
  have inside : r < node.rows := Runs.prod_rows ▸ Move.linear_lt starts
  have covers := Nat.le_of_mul_le_mul_right runs.launched.covers (Width.threads_pos _)
  have columns : 0 < packed.grid.gx := Nat.pos_of_ne_zero fun zero => by
    rw [zero, Nat.mul_zero] at covers
    omega
  refine ⟨(⟨r / packed.grid.gx, Nat.div_lt_of_lt_mul (by rw [Nat.mul_comm]; omega)⟩,
    ⟨r % packed.grid.gx, Nat.mod_lt _ columns⟩), ?_⟩
  have number : r / packed.grid.gx * packed.grid.gx + r % packed.grid.gx = r := Nat.div_add_mod' _ _
  rw [number]
  exact ⟨inside, Move.unravel_linear starts⟩

/-- Groups that leave the results of their rows leave those of the node, in every order. -/
theorem Runs.settles {threads : ℕ} [Nonempty (Fin threads)]
    {code : Fin packed.grid.gy × Fin packed.grid.gx → Fin threads → Code Cell F PUnit}
    {cells : Cell → F}
    (idle : ∀ g, packed.slot.rows ≤ UInt32.ofNat g.1 * packed.grid.groupsX + UInt32.ofNat g.2 →
      code g = fun _ => .done ⟨⟩)
    (busy : ∀ g, ¬ packed.slot.rows ≤ UInt32.ofNat g.1 * packed.grid.groupsX + UInt32.ofNat g.2 →
      let here := rowAt packed.slot s0 dst
        (UInt32.ofNat g.1 * packed.grid.groupsX + UInt32.ofNat g.2)
      here.Fair (node.op.written here.n.toNat) → ∀ x, here.Loaded cells x →
        Finishes (here.area packed.width (node.op.written here.n.toNat) g.1 g.2) (code g) cells
          fun m => ∀ c < node.op.written here.n.toNat, m (here.target' c) =
            result floats node.op packed.width node.param here.n x c) :
    Settles Step ⟨code, cells⟩ fun state : State _ (Fin threads) Cell F =>
      (∀ g i, state.code g i = .done ⟨⟩) ∧ node.Done floats forced s0 dst cells state.cells := by
  let word (g : Fin packed.grid.gy × Fin packed.grid.gx) : UInt32 :=
    UInt32.ofNat g.1 * packed.grid.groupsX + UInt32.ofNat g.2
  let here (g : Fin packed.grid.gy × Fin packed.grid.gx) : Row :=
    rowAt packed.slot s0 dst (word g)
  let x (g : Fin packed.grid.gy × Fin packed.grid.gx) (c : ℕ) : F :=
    cells (.word s0 (node.src.element (inRow (node.start (g.1 * packed.grid.gx + g.2)) c)))
  have finishes (g : Fin packed.grid.gy × Fin packed.grid.gx) :
      Finishes (packed.area node s0 dst g) (code g) cells fun m => ¬ packed.slot.rows ≤ word g →
        ∀ c < node.op.written (node.src.ne 0), m ((here g).target' c) =
          result floats node.op packed.width node.param (here g).n (x g) c := by
    by_cases rest : packed.slot.rows ≤ word g
    · rw [Packed.area, if_pos rest, idle g rest]
      exact ⟨0, cells, .ended (fun _ => rfl) fun _ _ => rfl, fun busy => absurd rest busy⟩
    · have inside := rest
      rw [runs.idle_iff, not_le] at inside
      obtain ⟨length, source, -⟩ := runs.rowAt_spec inside (runs.toNat_row g) s0 dst
      have fair := runs.fair ready (runs.toNat_row g) inside
      have ends := busy g rest (length.symm ▸ fair) (x g) fun c below => by
        rw [source c (below.trans_eq length)]
      rw [length] at ends
      rw [Packed.area, if_neg rest]
      obtain ⟨n, final, solo, ends⟩ := ends
      exact ⟨n, final, solo, fun _ => ends⟩
  have settles := settles_of_finishes (runs.area_apart ready) finishes
  refine ⟨settles.1, fun state run stuck => ?_⟩
  obtain ⟨done, left, kept⟩ := settles.2 state run stuck
  refine ⟨done, fun i holds => ?_, fun buffer index off => kept _ fun g mine => ?_⟩
  · obtain ⟨g, inside, start⟩ := runs.exists_group holds
    have busy : ¬ packed.slot.rows ≤ word g := by
      rw [runs.idle_iff]
      exact not_le.2 inside
    obtain ⟨length, source, target⟩ := runs.rowAt_spec inside (runs.toNat_row g) s0 dst
    obtain ⟨final, ends, same⟩ := left g
    have own (c : ℕ) : inRow (node.start (g.1 * packed.grid.gx + g.2)) c = inRow i c := by
      rw [start, inRow, Function.update_idem]
    have at_i : inRow i (i 0) = i := Function.update_eq_self _ _
    have below : i 0 < node.op.written (node.src.ne 0) := (holds 0).trans_eq runs.first
    have target_i := target (i 0) below
    have elements : x g = fun c => cells (.word s0 (node.src.element (inRow i c))) :=
      funext fun c => by rw [← own c]
    have words : (here g).n = UInt32.ofNat (node.src.ne 0) := by
      rw [← length, UInt32.ofNat_toNat]
    rw [own, at_i] at target_i
    rw [← target_i, same _ ?_, ends busy (i 0) below, runs.width, elements, words]
    rw [Packed.area, if_neg busy]
    exact .inr ⟨i 0, below, rfl⟩
  · by_cases idle : packed.slot.rows ≤ word g
    · rw [Packed.area, if_pos idle] at mine
      exact absurd mine (Set.notMem_empty _)
    · rw [Packed.area, if_neg idle] at mine
      rcases mine with ⟨t, -, wrong⟩ | ⟨c, here, same⟩
      · cases wrong
      · rw [runs.idle_iff, not_le] at idle
        obtain ⟨-, -, target⟩ := runs.rowAt_spec idle (runs.toNat_row g) s0 dst
        obtain ⟨buffers, words⟩ := Cell.word.inj (same.trans (target c here))
        exact off buffers _ (runs.dst_holds idle here) words

/-- The threads of a packed node. -/
def Packed.kernel (packed : Packed F) (s0 dst : ℕ) (g : Fin packed.grid.gy × Fin packed.grid.gx)
    (i : Fin packed.width.threads) : Code Cell F PUnit :=
  main floats packed s0 dst g.1 g.2 fun row => threadWays row packed.width g.1 g.2 i

/-- The serial sibling, over the same groups. -/
def Packed.sibling (packed : Packed F) (s0 dst : ℕ) (g : Fin packed.grid.gy × Fin packed.grid.gx)
    (_ : Fin 1) : Code Cell F PUnit :=
  main floats packed s0 dst g.1 g.2 fun row => serialWays row packed.width

instance (width : Width) : Nonempty (Fin width.threads) := ⟨⟨0, width.threads_pos⟩⟩

theorem Runs.settles_kernel (cells : Cell → F) :
    Settles Step ⟨packed.kernel floats s0 dst, cells⟩ fun state : State _ _ Cell F =>
      (∀ g i, state.code g i = .done ⟨⟩) ∧ node.Done floats forced s0 dst cells state.cells := by
  refine runs.settles floats ready (fun g rest => ?_) fun g busy fair x loaded => ?_
  · funext i
    exact if_pos rest
  · have code (i : Fin packed.width.threads) : packed.kernel floats s0 dst g i =
        body floats packed.op packed.slot.param (rowAt packed.slot s0 dst _).n
          (threadWays (rowAt packed.slot s0 dst _) packed.width g.1 g.2 i) := if_neg busy
    rw [show packed.kernel floats s0 dst g = _ from funext code, runs.op, runs.param]
    exact finishes_body floats fair loaded node.param g.1 g.2

theorem Runs.settles_sibling (cells : Cell → F) :
    Settles Step ⟨packed.sibling floats s0 dst, cells⟩ fun state : State _ _ Cell F =>
      (∀ g i, state.code g i = .done ⟨⟩) ∧ node.Done floats forced s0 dst cells state.cells := by
  refine runs.settles floats ready (fun g rest => ?_) fun g busy fair x loaded => ?_
  · funext i
    exact if_pos rest
  · have code (i : Fin 1) : packed.sibling floats s0 dst g i =
        body floats packed.op packed.slot.param (rowAt packed.slot s0 dst _).n
          (serialWays (rowAt packed.slot s0 dst _) packed.width) := if_neg busy
    rw [show packed.sibling floats s0 dst g = _ from funext code, runs.op, runs.param]
    exact serial_finishes floats fair loaded node.param g.1 g.2

omit runs ready in
/-- What a node leaves is one memory. -/
theorem Node.Done.unique {cells final other : Cell → F}
    (done : node.Done floats forced s0 dst cells final)
    (done' : node.Done floats forced s0 dst cells other) (buffer index : ℕ) :
    final (.word buffer index) = other (.word buffer index) := by
  by_cases written : buffer = dst ∧ ∃ i, node.dst.Holds i ∧ index = node.dst.element i
  · obtain ⟨rfl, i, holds, rfl⟩ := written
    rw [done.1 i holds, done'.1 i holds]
  · have off : buffer = dst → ∀ i, node.dst.Holds i → index ≠ node.dst.element i :=
      fun same i holds at_i => written ⟨same, i, holds, at_i⟩
    rw [done.2 _ _ off, done'.2 _ _ off]

end Dispatch

section Results

variable {node : Node F} {packed : Packed F} {forced : Option ℤ} {s0 dst : ℕ}

/-- In every order of the turns of its threads a row kernel ends, with the results of every row in
the destination's words and all other words as they were; its serial sibling ends with the same
words. No law of the float operations is used. -/
theorem rows_settle (packs : node.pack floats forced = some packed) (ready : node.Ready s0 dst)
    (cells : Cell → F) :
    (Settles Step ⟨packed.kernel floats s0 dst, cells⟩ fun state : State _ _ Cell F =>
      (∀ g i, state.code g i = .done ⟨⟩) ∧ node.Done floats forced s0 dst cells state.cells) ∧
    (Settles Step ⟨packed.sibling floats s0 dst, cells⟩ fun state : State _ _ Cell F =>
      (∀ g i, state.code g i = .done ⟨⟩) ∧ node.Done floats forced s0 dst cells state.cells) ∧
    ∀ final other, node.Done floats forced s0 dst cells final →
      node.Done floats forced s0 dst cells other →
        ∀ buffer index, final (.word buffer index) = other (.word buffer index) :=
  have runs := runs_of_pack floats packs ready.apart
  ⟨runs.settles_kernel floats ready cells, runs.settles_sibling floats ready cells,
    fun _ _ done done' => done.unique floats done'⟩

end Results

/-! ## Exact arithmetic -/

section Exact

/-- A pass with an operation that may be reordered takes the whole row in. -/
theorem passed_eq_total {op : F → F → F} [Std.Associative op] [Std.Commutative op] {start : F}
    (unit : ∀ b, op start b = b) (width : Width) (f : F → F) (n : ℕ) (x : ℕ → F) :
    passed width op start (fun acc a => op acc (f a)) n x =
      total op start ((List.range n).map fun c => f (x c)) := by
  have each : lanes width start (fun acc a => op acc (f a)) n x = fun t =>
      total op start ((lane n width.threads t).map fun c => f (x c)) := by
    funext t
    rw [lanes, total, List.foldl_map]
  rw [passed, each]
  exact tree_lanes_eq_total unit width.levels n _

/-- The operations without rounding; `lowest` stands for the start of a maximum. -/
noncomputable def exact (lowest : ℝ) : Floats ℝ where
  add := (· + ·)
  sub := (· - ·)
  mul := (· * ·)
  div := (· / ·)
  max := (· ⊔ ·)
  exp := Real.exp
  sqrt := Real.sqrt
  zero := 0
  one := 1
  negInf := lowest
  ofWord n := n.toNat
  isZero x := decide (x = 0)

open Finset in
/-- What the operators are for. -/
noncomputable def RowOp.meaning (op : RowOp) (param : ℝ) (n : ℕ) (x : ℕ → ℝ) (c : ℕ) : ℝ :=
  let mean := (∑ d ∈ range n, x d) / n
  match op with
  | .sumRows => ∑ d ∈ range n, x d
  | .mean => mean
  | .norm => (x c - mean) / √((∑ d ∈ range n, (x d - mean) ^ 2) / n + param)
  | .rmsNorm => x c / √((∑ d ∈ range n, x d ^ 2) / n + param)
  | .softMax => Real.exp (x c * param) / ∑ d ∈ range n, Real.exp (x d * param)

/-- A pass that adds is a sum. -/
theorem passed_add (lowest : ℝ) (width : Width) (f : ℝ → ℝ) (n : ℕ) (x : ℕ → ℝ) :
    passed width (exact lowest).add (exact lowest).zero
      (fun acc a => (exact lowest).add acc (f a)) n x = ∑ d ∈ Finset.range n, f (x d) := by
  have unit : ∀ b : ℝ, 0 + b = b := zero_add
  have plain := passed_eq_total unit width f n x
  refine plain.trans ?_
  rw [total, ← List.sum_eq_foldl]
  rfl

/-- Without rounding the kernels compute what the operators are for. -/
theorem result_exact (lowest : ℝ) (op : RowOp) (width : Width) (param : ℝ) (n : UInt32) (x : ℕ → ℝ)
    (c : ℕ) : result (exact lowest) op width param n x c = op.meaning param n.toNat x c := by
  have plain := passed_add lowest width (fun a => a) n.toNat x
  have squares := passed_add lowest width (fun a => a * a) n.toNat x
  have apart (m : ℝ) := passed_add lowest width (fun a => (a - m) * (a - m)) n.toNat x
  have powers (m : ℝ) := passed_add lowest width (fun a => Real.exp (a * param - m)) n.toNat x
  dsimp only [exact] at plain squares apart powers
  cases op with
  | sumRows => exact plain
  | mean => exact congrArg (· / (n.toNat : ℝ)) plain
  | norm =>
      simp only [result, exact, plain, apart, RowOp.meaning, pow_two, div_eq_mul_inv, one_mul]
  | rmsNorm =>
      simp only [result, exact, squares, RowOp.meaning, pow_two, div_eq_mul_inv, one_mul]
  | softMax =>
      simp only [result, exact, powers, RowOp.meaning]
      -- the maximum cancels
      simp only [Real.exp_sub]
      rw [← Finset.sum_div]
      have some_power := (Real.exp_pos (passed width max lowest
        (fun acc a => max acc (a * param)) n.toNat x)).ne'
      rw [one_div_div]
      exact div_mul_div_cancel₀ some_power

theorem meaning_softMax_pos (param : ℝ) {n : ℕ} (x : ℕ → ℝ) {c : ℕ} (inside : c < n) :
    0 < RowOp.softMax.meaning param n x c :=
  div_pos (Real.exp_pos _) (Finset.sum_pos (fun _ _ => Real.exp_pos _)
    ⟨c, Finset.mem_range.2 inside⟩)

/-- A softmax row sums to one. -/
theorem sum_softMax (param : ℝ) {n : ℕ} (pos : 0 < n) (x : ℕ → ℝ) :
    ∑ c ∈ Finset.range n, RowOp.softMax.meaning param n x c = 1 := by
  have some_power : 0 < ∑ d ∈ Finset.range n, Real.exp (x d * param) :=
    Finset.sum_pos (fun _ _ => Real.exp_pos _) ⟨0, Finset.mem_range.2 pos⟩
  simp only [RowOp.meaning, ← Finset.sum_div]
  exact div_self some_power.ne'

/-- A normed row sums to zero. -/
theorem sum_norm (param : ℝ) {n : ℕ} (pos : 0 < n) (x : ℕ → ℝ) :
    ∑ c ∈ Finset.range n, RowOp.norm.meaning param n x c = 0 := by
  have count : (n : ℝ) ≠ 0 := Nat.cast_ne_zero.2 pos.ne'
  simp only [RowOp.meaning, ← Finset.sum_div, Finset.sum_sub_distrib, Finset.sum_const,
    Finset.card_range, nsmul_eq_mul]
  rw [mul_div_assoc, mul_div_cancel₀ _ count, sub_self, zero_div]

variable {node : Node ℝ} {packed : Packed ℝ} {forced : Option ℤ} {s0 dst : ℕ}

/-- Without rounding, whatever the order of the turns, each word of the destination is what its
operator is for: of a softmax row all words are positive and they sum to one, those of a normed row
sum to zero. -/
theorem rows_exact (lowest : ℝ) (packs : node.pack (exact lowest) forced = some packed)
    (ready : node.Ready s0 dst) (cells : Cell → ℝ) :
    Settles Step ⟨packed.kernel (exact lowest) s0 dst, cells⟩ fun state : State _ _ Cell ℝ =>
      (∀ i, node.dst.Holds i → state.cells (.word dst (node.dst.element i)) =
        node.op.meaning node.param (node.src.ne 0)
          (fun c => cells (.word s0 (node.src.element (inRow i c)))) (i 0)) ∧
      (node.op = .softMax → ∀ i, node.dst.Holds i →
        0 < state.cells (.word dst (node.dst.element i)) ∧
        ∑ c ∈ Finset.range (node.dst.ne 0),
          state.cells (.word dst (node.dst.element (inRow i c))) = 1) ∧
      (node.op = .norm → ∀ i, node.dst.Holds i → ∑ c ∈ Finset.range (node.dst.ne 0),
        state.cells (.word dst (node.dst.element (inRow i c))) = 0) := by
  have runs := runs_of_pack (exact lowest) packs ready.apart
  obtain ⟨ends, all⟩ := runs.settles_kernel (exact lowest) ready cells
  refine ⟨ends, fun state run stuck => ?_⟩
  obtain ⟨-, done, -⟩ := all state run stuck
  have length := Move.toNat_ofNat (runs.small 0)
  have words (i : Fin 4 → ℕ) (holds : node.dst.Holds i) :
      state.cells (.word dst (node.dst.element i)) = node.op.meaning node.param (node.src.ne 0)
        (fun c => cells (.word s0 (node.src.element (inRow i c)))) (i 0) := by
    rw [done i holds, result_exact, length]
  have row (i : Fin 4 → ℕ) (holds : node.dst.Holds i) (c : ℕ) (inside : c < node.dst.ne 0) :
      state.cells (.word dst (node.dst.element (inRow i c))) =
        node.op.meaning node.param (node.src.ne 0)
          (fun d => cells (.word s0 (node.src.element (inRow i d)))) c := by
    have here : node.dst.Holds (inRow i c) := by
      intro k
      by_cases first : k = 0
      · subst first
        rwa [inRow, Function.update_self]
      · rw [inRow, Function.update_of_ne first]
        exact holds k
    simpa only [inRow, Function.update_idem, Function.update_self] using words _ here
  refine ⟨words, fun softMax i holds => ⟨?_, ?_⟩, fun norm i holds => ?_⟩
  · have extents := runs.first
    rw [softMax] at extents
    rw [words i holds, softMax]
    exact meaning_softMax_pos _ _ ((holds 0).trans_eq extents)
  · have extents := runs.first
    rw [Finset.sum_congr rfl fun c member => row i holds c (Finset.mem_range.1 member)]
    rw [softMax] at extents ⊢
    rw [extents]
    exact sum_softMax _ (runs.pos 0) _
  · have extents := runs.first
    rw [Finset.sum_congr rfl fun c member => row i holds c (Finset.mem_range.1 member)]
    rw [norm] at extents ⊢
    rw [extents]
    exact sum_norm _ (runs.pos 0) _

/-- Two rows of two, in one buffer. -/
def pairs : Move.Tensor where
  type := .f32
  ne := ![2, 2, 1, 1]
  nb := ![4, 8, 16, 16]
  offset := 0
  inside := by decide

/-- The two rows normed in place. -/
noncomputable def normedPairs : Node ℝ where
  op := .norm
  dst := pairs
  src := pairs
  param := 1
  maxBias := 0

theorem pairs_apart : pairs.Apart := Move.apart_of_contiguous (by decide) (by decide)

theorem normedPairs_ready : normedPairs.Ready 0 0 where
  apart := pairs_apart
  spares _ i j holds holds' same := pairs_apart holds holds' same
  short wrong := by rcases wrong with wrong | wrong <;> cases wrong

theorem normedPairs_packs : ∃ packed, normedPairs.pack (exact 0) none = some packed :=
  Option.isSome_iff_exists.1 rfl

/-- Whatever the order of the turns, the two rows are left in their own words with a sum of zero. -/
theorem rows_exact_pairs : ∃ packed, normedPairs.pack (exact 0) none = some packed ∧
    ∀ cells, Settles Step ⟨packed.kernel (exact 0) 0 0, cells⟩ fun state : State _ _ Cell ℝ =>
      ∀ i, pairs.Holds i → ∑ c ∈ Finset.range 2,
        state.cells (.word 0 (pairs.element (inRow i c))) = 0 := by
  obtain ⟨packed, packs⟩ := normedPairs_packs
  refine ⟨packed, packs, fun cells => ?_⟩
  obtain ⟨ends, all⟩ := rows_exact 0 packs normedPairs_ready cells
  exact ⟨ends, fun state run stuck => (all state run stuck).2.2 rfl⟩

/-- The two rows normed by the kernel, and by its serial sibling. -/
theorem rows_settle_pairs : ∃ packed, normedPairs.pack (exact 0) none = some packed ∧
    ∀ cells,
      Settles Step ⟨packed.kernel (exact 0) 0 0, cells⟩ (fun state : State _ _ Cell ℝ =>
        (∀ g i, state.code g i = .done ⟨⟩) ∧
          normedPairs.Done (exact 0) none 0 0 cells state.cells) ∧
      Settles Step ⟨packed.sibling (exact 0) 0 0, cells⟩ (fun state : State _ _ Cell ℝ =>
        (∀ g i, state.code g i = .done ⟨⟩) ∧
          normedPairs.Done (exact 0) none 0 0 cells state.cells) := by
  obtain ⟨packed, packs⟩ := normedPairs_packs
  refine ⟨packed, packs, fun cells => ?_⟩
  obtain ⟨kernel, sibling, -⟩ := rows_settle (exact 0) packs normedPairs_ready cells
  exact ⟨kernel, sibling⟩

end Exact

end DressOn.Ggml.Rows
