import Mathlib.Algebra.BigOperators.Group.Finset.Basic
import Mathlib.Tactic.Ring
import DressOn.Lbfgsb.Compact
import DressOn.Lib.Rows

/-!
# What each pass of the compact kernel writes

The cells of `bf` do not overlap, so every pass is known by the cells it
changes. The products of `appendPost` come out as plain sums.
-/

namespace DressOn.Lbfgsb

section Layout

variable {α : Type*}

/-- The cell is one of the buffer's. -/
def Cell.Valid (mc : Nat) : Cell → Prop
  | .theta => True
  | .ss i j | .sy i j | .l i j | .t i j => i < mc ∧ j < mc
  | .d k => k < mc

/-- A block's cells stay in the block. -/
theorem flat_lt {mc i j : Nat} (row : i < mc) (column : j < mc) : i * mc + j < mc * mc := by
  calc i * mc + j < i * mc + mc := Nat.add_lt_add_left column _
    _ = (i + 1) * mc := (Nat.succ_mul i mc).symm
    _ ≤ mc * mc := Nat.mul_le_mul_right mc row

/-- A block's cells are told apart by their address. -/
theorem flat_injective {mc i j i' j' : Nat} (column : j < mc) (column' : j' < mc)
    (same : i * mc + j = i' * mc + j') : i = i' ∧ j = j' := by
  have positive : 0 < mc := by omega
  have rows : (j + i * mc) / mc = (j' + i' * mc) / mc := by
    rw [Nat.add_comm j, same, Nat.add_comm j']
  rw [Nat.add_mul_div_right _ _ positive, Nat.add_mul_div_right _ _ positive,
    Nat.div_eq_of_lt column, Nat.div_eq_of_lt column', Nat.zero_add, Nat.zero_add] at rows
  subst rows
  exact ⟨rfl, Nat.add_left_cancel same⟩

/-- Different cells lie at different addresses. -/
theorem addr_injective {mc : Nat} (c c' : Cell) (valid : c.Valid mc) (valid' : c'.Valid mc)
    (same : addr mc c = addr mc c') : c = c' := by
  have block : ∀ {i j : Nat}, i < mc ∧ j < mc → i * mc + j < mc * mc := fun ⟨row, column⟩ =>
    flat_lt row column
  have flat : ∀ {i j i' j' : Nat}, i < mc ∧ j < mc → i' < mc ∧ j' < mc →
      i * mc + j = i' * mc + j' → i = i' ∧ j = j' := fun ⟨_, column⟩ ⟨_, column'⟩ =>
    flat_injective column column'
  -- The blocks follow each other every `mc * mc` cells, so only cells of one block can clash.
  cases c <;> cases c' <;> simp only [Cell.Valid, addr, Nat.mul_assoc] at valid valid' same
  all_goals first
    | rfl
    | (have clash := flat valid valid' (by omega); simp only [clash])
    | (have inside := block valid; have inside' := block valid'; omega)
    | (have inside := block valid; omega)
    | (have inside' := block valid'; omega)
    | (simp only [Cell.d.injEq]; omega)
    | omega

/-- What a cell holds after a store. -/
theorem put_apply {mc : Nat} (c c' : Cell) (valid : c.Valid mc) (valid' : c'.Valid mc)
    (bf : Nat → α) (x : α) :
    put mc bf c x (addr mc c') = if c' = c then x else bf (addr mc c') := by
  unfold put
  split
  case isTrue same => rw [same, Function.update_self]
  case isFalse apart =>
    exact Function.update_of_ne (fun same => apart (addr_injective c' c valid' valid same)) _ _

end Layout

variable {α : Type*} [Field α]

/-- The product of two vectors of length `n`. -/
def dot (n : Nat) (a b : Nat → α) : α := ∑ i ∈ Finset.range n, a i * b i

theorem dot_comm (n : Nat) (a b : Nat → α) : dot n a b = dot n b a :=
  Finset.sum_congr rfl fun i _ => mul_comm (a i) (b i)

theorem dot_congr {n : Nat} {a a' b b' : Nat → α} (left : ∀ i < n, a i = a' i)
    (right : ∀ i < n, b i = b' i) : dot n a b = dot n a' b' :=
  Finset.sum_congr rfl fun i member => by
    rw [left i (Finset.mem_range.mp member), right i (Finset.mem_range.mp member)]

section Products

/-- In exact arithmetic the low half stays zero. -/
theorem dfAcc_exact (h a b : α) : dfAcc (h, 0) a b = (h + a * b, 0) := by
  ext
  · simp only [dfAcc, dfAdd, twoProd, twoSum, quickTwoSum]
    ring
  · simp only [dfAcc, dfAdd, twoProd, twoSum, quickTwoSum]
    ring

/-- The accumulation of one column. -/
theorem foldl_dfAcc (n : Nat) (a b : Nat → α) :
    (List.range n).foldl (fun acc i => dfAcc acc (a i) (b i)) ((0 : α), (0 : α)) =
      (dot n a b, 0) := by
  induction n with
  | zero => simp [dot]
  | succ n ih =>
      rw [List.range_succ, List.foldl_append, ih]
      simp only [List.foldl_cons, List.foldl_nil, dfAcc_exact, dot, Finset.sum_range_succ]

/-- `multiDot` after one more column. -/
theorem multiDot_succ (n ncols : Nat) (a vv : Nat → α) (dstOff : Nat) (dst : Nat → α) :
    multiDot n (ncols + 1) a vv dstOff dst =
      Function.update
        (Function.update (multiDot n ncols a vv dstOff dst) (dstOff + 2 * ncols)
          (dot n (fun i => a (ncols * n + i)) vv)) (dstOff + 2 * ncols + 1) 0 := by
  unfold multiDot
  rw [List.range_succ, List.foldl_append, List.foldl_cons, List.foldl_nil]
  simp only [foldl_dfAcc n (fun i => a (ncols * n + i)) vv]

/-- Nothing outside the columns' pairs is written. -/
theorem multiDot_frame (n ncols : Nat) (a vv : Nat → α) {dstOff : Nat} (dst : Nat → α) {cell : Nat}
    (outside : cell < dstOff ∨ dstOff + 2 * ncols ≤ cell) :
    multiDot n ncols a vv dstOff dst cell = dst cell := by
  induction ncols with
  | zero => rfl
  | succ ncols ih =>
      rw [multiDot_succ, Function.update_of_ne (by omega), Function.update_of_ne (by omega)]
      exact ih (by omega)

/-- The pairs outside the columns keep their sums. -/
theorem multiDot_frame_pair (n ncols : Nat) (a vv : Nat → α) {dstOff : Nat} (dst : Nat → α)
    {cell : Nat} (outside : cell + 1 < dstOff ∨ dstOff + 2 * ncols ≤ cell) :
    multiDot n ncols a vv dstOff dst cell + multiDot n ncols a vv dstOff dst (cell + 1) =
      dst cell + dst (cell + 1) := by
  rw [multiDot_frame _ _ _ _ _ (by omega), multiDot_frame _ _ _ _ _ (by omega)]

/-- Each pair adds up to its column's product. -/
theorem multiDot_pair (n ncols : Nat) (a vv : Nat → α) (dstOff : Nat) (dst : Nat → α) {j : Nat}
    (column : j < ncols) :
    multiDot n ncols a vv dstOff dst (dstOff + 2 * j) +
      multiDot n ncols a vv dstOff dst (dstOff + 2 * j + 1) =
      dot n (fun i => a (j * n + i)) vv := by
  induction ncols with
  | zero => omega
  | succ ncols ih =>
      rw [multiDot_succ]
      rcases Nat.lt_succ_iff_lt_or_eq.mp column with earlier | rfl
      · repeat rw [Function.update_of_ne (by omega)]
        exact ih earlier
      · rw [Function.update_of_ne (by omega), Function.update_self, Function.update_self, add_zero]

variable (mc n : Nat) (m : Mem α)

/-- The products of the stored `S` against the new `s`. -/
theorem appendPost_s {j : Nat} (column : j < mc) :
    (appendPost mc n m).dots (2 * j) + (appendPost mc n m).dots (2 * j + 1) =
      dot n (fun i => m.sm (j * n + i)) m.sv := by
  have product := multiDot_pair n mc m.sm m.sv 0 m.dots column
  rw [Nat.zero_add] at product
  simp only [appendPost]
  rw [multiDot_frame_pair _ _ _ _ _ (by omega), multiDot_frame_pair _ _ _ _ _ (by omega),
    multiDot_frame_pair _ _ _ _ _ (by omega), multiDot_frame_pair _ _ _ _ _ (by omega)]
  exact product

/-- The products of the stored `Y` against the new `s`. -/
theorem appendPost_y {j : Nat} (column : j < mc) :
    (appendPost mc n m).dots (2 * mc + 2 * j) + (appendPost mc n m).dots (2 * mc + 2 * j + 1) =
      dot n (fun i => m.ym (j * n + i)) m.sv := by
  simp only [appendPost]
  rw [multiDot_frame_pair _ _ _ _ _ (by omega), multiDot_frame_pair _ _ _ _ _ (by omega),
    multiDot_frame_pair _ _ _ _ _ (by omega)]
  exact multiDot_pair n mc m.ym m.sv (2 * mc) _ column

/-- A single column's pair. -/
theorem multiDot_one (a vv : Nat → α) (dstOff : Nat) (dst : Nat → α) :
    multiDot n 1 a vv dstOff dst dstOff + multiDot n 1 a vv dstOff dst (dstOff + 1) =
      dot n a vv := by
  have product := multiDot_pair n 1 a vv dstOff dst Nat.one_pos
  simpa only [Nat.mul_zero, Nat.add_zero, Nat.zero_mul, Nat.zero_add] using product

/-- The curvature of the new pair. -/
theorem appendPost_sy :
    (appendPost mc n m).dots (4 * mc) + (appendPost mc n m).dots (4 * mc + 1) =
      dot n m.sv m.yv := by
  simp only [appendPost]
  rw [multiDot_frame_pair _ _ _ _ _ (by omega), multiDot_frame_pair _ _ _ _ _ (by omega),
    multiDot_one, dot_comm]

/-- The product of the new `y` with itself. -/
theorem appendPost_yy :
    (appendPost mc n m).dots (4 * mc + 2) + (appendPost mc n m).dots (4 * mc + 2 + 1) =
      dot n m.yv m.yv := by
  simp only [appendPost]
  rw [multiDot_frame_pair _ _ _ _ _ (by omega), multiDot_one]

/-- The product of the new `s` with itself. -/
theorem appendPost_ss :
    (appendPost mc n m).dots (4 * mc + 4) + (appendPost mc n m).dots (4 * mc + 4 + 1) =
      dot n m.sv m.sv :=
  multiDot_one n m.sv m.sv (4 * mc + 4) _

end Products

section Passes

variable {mc loc ncorr : Nat} (dots : Nat → α) (bf : Nat → α)

/-- The product `ssPass` stores for column `j`. -/
def ssValue (loc : Nat) (dots : Nat → α) (ss : α) (j : Nat) : α :=
  if j = loc then ss else dots (2 * j) + dots (2 * j + 1)

/-- The product `syPass` stores for column `j`. -/
def syValue (mc loc : Nat) (dots : Nat → α) (sy : α) (j : Nat) : α :=
  if j = loc then sy else dots (2 * mc + 2 * j) + dots (2 * mc + 2 * j + 1)

/-- `ssPass` writes the first columns of row `loc` and the first rows of column `loc`. -/
theorem ssPass_ss (ss : α) (slot : loc < mc) (few : ncorr ≤ mc) {i j : Nat} (row : i < mc)
    (column : j < mc) :
    ssPass mc loc ncorr dots ss bf (addr mc (.ss i j)) =
      if i = loc ∧ j < ncorr then ssValue loc dots ss j
      else if j = loc ∧ i < ncorr then ssValue loc dots ss i
      else bf (addr mc (.ss i j)) := by
  induction ncorr with
  | zero => simp [ssPass]
  | succ ncorr ih =>
      have last : ncorr < mc := few
      have step : ssPass mc loc (ncorr + 1) dots ss bf =
          put mc (put mc (ssPass mc loc ncorr dots ss bf) (.ss loc ncorr)
            (ssValue loc dots ss ncorr)) (.ss ncorr loc) (ssValue loc dots ss ncorr) := by
        unfold ssPass ssValue
        rw [List.range_succ, List.foldl_append, List.foldl_cons, List.foldl_nil]
      rw [step, put_apply (.ss ncorr loc) (.ss i j) ⟨last, slot⟩ ⟨row, column⟩,
        put_apply (.ss loc ncorr) (.ss i j) ⟨slot, last⟩ ⟨row, column⟩,
        ih last.le]
      simp only [Cell.ss.injEq]
      grind

/-- `ssPass` writes nothing outside `S^T S`. -/
theorem ssPass_frame (ss : α) (slot : loc < mc) (few : ncorr ≤ mc) {c : Cell} (valid : c.Valid mc)
    (outside : ∀ i j, c ≠ .ss i j) :
    ssPass mc loc ncorr dots ss bf (addr mc c) = bf (addr mc c) := by
  apply Rows.foldl_frame
  intro j member store
  have last : j < mc := (List.mem_range.mp member).trans_le few
  rw [put_apply (.ss j loc) c ⟨last, slot⟩ valid, if_neg (outside _ _),
    put_apply (.ss loc j) c ⟨slot, last⟩ valid, if_neg (outside _ _)]

/-- `clearPass` zeroes column `loc`. -/
theorem clearPass_sy (slot : loc < mc) {i j : Nat} (row : i < mc) (column : j < mc) :
    clearPass mc loc bf (addr mc (.sy i j)) = if j = loc then 0 else bf (addr mc (.sy i j)) := by
  have general : ∀ rows, rows ≤ mc →
      (List.range rows).foldl (fun bf i => put mc bf (.sy i loc) 0) bf (addr mc (.sy i j)) =
        if j = loc ∧ i < rows then 0 else bf (addr mc (.sy i j)) := by
    intro rows few
    induction rows with
    | zero => simp
    | succ rows ih =>
        rw [List.range_succ, List.foldl_append, List.foldl_cons, List.foldl_nil,
          put_apply (.sy rows loc) (.sy i j) ⟨few, slot⟩ ⟨row, column⟩, ih (Nat.le_of_succ_le few)]
        simp only [Cell.sy.injEq]
        grind
  rw [clearPass, general mc le_rfl]
  simp only [row, and_true]

/-- `clearPass` writes nothing outside `S^T Y`. -/
theorem clearPass_frame (slot : loc < mc) {c : Cell} (valid : c.Valid mc)
    (outside : ∀ i j, c ≠ .sy i j) : clearPass mc loc bf (addr mc c) = bf (addr mc c) := by
  apply Rows.foldl_frame
  intro i member store
  rw [put_apply (.sy i loc) c ⟨List.mem_range.mp member, slot⟩ valid, if_neg (outside _ _)]

/-- `syPass` writes the first columns of row `loc`. -/
theorem syPass_sy (sy : α) (slot : loc < mc) (few : ncorr ≤ mc) {i j : Nat} (row : i < mc)
    (column : j < mc) :
    syPass mc loc ncorr dots sy bf (addr mc (.sy i j)) =
      if i = loc ∧ j < ncorr then syValue mc loc dots sy j else bf (addr mc (.sy i j)) := by
  induction ncorr with
  | zero => simp [syPass]
  | succ ncorr ih =>
      have step : syPass mc loc (ncorr + 1) dots sy bf =
          put mc (syPass mc loc ncorr dots sy bf) (.sy loc ncorr)
            (syValue mc loc dots sy ncorr) := by
        unfold syPass syValue
        rw [List.range_succ, List.foldl_append, List.foldl_cons, List.foldl_nil]
      rw [step, put_apply (.sy loc ncorr) (.sy i j) ⟨slot, few⟩ ⟨row, column⟩, ih (Nat.le_of_succ_le few)]
      simp only [Cell.sy.injEq]
      grind

/-- `syPass` writes nothing outside `S^T Y`. -/
theorem syPass_frame (sy : α) (slot : loc < mc) (few : ncorr ≤ mc) {c : Cell} (valid : c.Valid mc)
    (outside : ∀ i j, c ≠ .sy i j) :
    syPass mc loc ncorr dots sy bf (addr mc c) = bf (addr mc c) := by
  apply Rows.foldl_frame
  intro j member store
  rw [put_apply (.sy loc j) c ⟨slot, (List.mem_range.mp member).trans_le few⟩ valid, if_neg (outside _ _)]

/-- `lowerPass` reads only `S^T Y`, so the entries of `L` come from the buffer it starts on. -/
theorem lowerPass_l (oldest : Nat) (few : ncorr ≤ mc) {i j : Nat} (row : i < ncorr)
    (column : j < ncorr) :
    lowerPass mc ncorr oldest bf (addr mc (.l i j)) =
      if rank mc oldest j < rank mc oldest i then bf (addr mc (.sy i j)) else 0 := by
  have flat : lowerPass mc ncorr oldest bf =
      ((List.range ncorr).flatMap fun i => (List.range ncorr).map (i, ·)).foldl
        (fun bf (ij : Nat × Nat) => Function.update bf (addr mc (.l ij.1 ij.2))
          (if rank mc oldest ij.2 < rank mc oldest ij.1 then bf (addr mc (.sy ij.1 ij.2)) else 0))
        bf := by
    simp only [lowerPass, put, List.foldl_flatMap, List.foldl_map]
  have inside : ∀ ij ∈ (List.range ncorr).flatMap fun i => (List.range ncorr).map (i, ·),
      ij.1 < mc ∧ ij.2 < mc := by
    intro ij member
    simp only [List.mem_flatMap, List.mem_map, List.mem_range] at member
    grind
  rw [flat]
  refine (Rows.foldl_write (fun ij : Nat × Nat => addr mc (.l ij.1 ij.2)) ?_ (i, j) ?_ bf).1 ?_
  · intro c member c' member' store x
    have apart : addr mc (.sy c.1 c.2) ≠ addr mc (.l c'.1 c'.2) := fun same =>
      Cell.noConfusion (addr_injective (.sy c.1 c.2) (.l c'.1 c'.2) (inside c member)
        (inside c' member') same)
    simp only [Function.update_of_ne apart]
  · intro c member same
    have equal := addr_injective (.l c.1 c.2) (.l i j) (inside c member)
      ⟨row.trans_le few, column.trans_le few⟩ same
    exact Prod.ext (Cell.l.inj equal).1 (Cell.l.inj equal).2
  · simp [row, column]

/-- `lowerPass` writes nothing outside `L`. -/
theorem lowerPass_frame (oldest : Nat) (few : ncorr ≤ mc) {c : Cell} (valid : c.Valid mc)
    (outside : ∀ i j, c ≠ .l i j) :
    lowerPass mc ncorr oldest bf (addr mc c) = bf (addr mc c) := by
  apply Rows.foldl_frame
  intro i inRows store
  apply Rows.foldl_frame
  intro j inColumns store
  rw [put_apply (.l i j) c ⟨(List.mem_range.mp inRows).trans_le few,
    (List.mem_range.mp inColumns).trans_le few⟩ valid, if_neg (outside _ _)]

/-- `middlePass` writes nothing outside `T`. -/
theorem middlePass_frame (theta : α) (few : ncorr ≤ mc) {c : Cell} (valid : c.Valid mc)
    (outside : ∀ i j, c ≠ .t i j) :
    middlePass mc ncorr theta bf (addr mc c) = bf (addr mc c) := by
  apply Rows.foldl_frame
  intro i inRows store
  apply Rows.foldl_frame
  intro j inColumns store
  have row : i < mc := (List.mem_range.mp inRows).trans_le few
  have column : j < mc := lt_of_lt_of_le (List.mem_range.mp inColumns) row
  rw [put_apply (.t i j) c ⟨row, column⟩ valid, if_neg (outside _ _)]

variable [LinearOrder α] (sqrt : α → α)

/-- A column of the factorisation writes nothing outside `T`. -/
theorem choleskyColumn_frame (s : (Nat → α) × Nat) {cj : Nat} (few : ncorr ≤ mc)
    (turn : cj < ncorr) {c : Cell} (valid : c.Valid mc) (outside : ∀ i j, c ≠ .t i j) :
    (choleskyColumn sqrt mc ncorr s cj).1 (addr mc c) = s.1 (addr mc c) := by
  have column : cj < mc := turn.trans_le few
  simp only [choleskyColumn]
  rw [Rows.foldl_frame, put_apply (.t cj cj) c ⟨column, column⟩ valid, if_neg (outside _ _)]
  intro ci member store
  have row : ci < mc := by
    have := List.mem_range'_1.mp member
    omega
  rw [put_apply (.t ci cj) c ⟨row, column⟩ valid, if_neg (outside _ _)]

/-- The factorisation writes nothing outside `T`. -/
theorem cholesky_frame (few : ncorr ≤ mc) {c : Cell} (valid : c.Valid mc)
    (outside : ∀ i j, c ≠ .t i j) (cok : Nat) :
    ((List.range ncorr).foldl (choleskyColumn sqrt mc ncorr) (bf, cok)).1 (addr mc c) =
      bf (addr mc c) := by
  have general : ∀ turns : List Nat, (∀ cj ∈ turns, cj < ncorr) → ∀ s,
      (turns.foldl (choleskyColumn sqrt mc ncorr) s).1 (addr mc c) = s.1 (addr mc c) := by
    intro turns
    induction turns with
    | nil => exact fun _ _ => rfl
    | cons cj rest ih =>
        intro bounded s
        rw [List.foldl_cons, ih (fun later member => bounded later (List.mem_cons_of_mem _ member)),
          choleskyColumn_frame sqrt s few (bounded cj List.mem_cons_self) valid outside]
  exact general _ (fun cj member => List.mem_range.mp member) (bf, cok)

end Passes

end DressOn.Lbfgsb
