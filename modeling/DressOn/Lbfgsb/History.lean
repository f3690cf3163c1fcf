import Mathlib.Algebra.Order.Field.Rat
import Mathlib.Tactic.NormNum
import DressOn.Lbfgsb.Cells
import DressOn.Lib.RingBuffer

/-!
# The history the compact matrices stand for

Abstractly the history is the list of pairs accepted since the last reset. The
ring holds its last `mc` entries, entry `k` in slot `k % mc`, and the matrices
are the products of those pairs, `L` ordered by age.
-/

namespace DressOn.Lbfgsb

open RingBuffer (Live kept)

variable {α : Type*} [Field α]

/-- What the curvature test compares. -/
def Accepts [LinearOrder α] (n : Nat) (pair : Pair α) : Prop :=
  eps * dot n pair.y pair.y < dot n pair.s pair.y

instance [LinearOrder α] (n : Nat) (pair : Pair α) : Decidable (Accepts n pair) :=
  inferInstanceAs (Decidable (_ < _))

/-- The pairs accepted since the last reset, after one more operation. -/
def record [LinearOrder α] (n : Nat) (pairs : List (Pair α)) : Op α → List (Pair α)
  | .reset => []
  | .add pair => if Accepts n pair then pairs ++ [pair] else pairs

/-- The ring slots hold the last `mc` pairs, and the counters say which. -/
structure Slots (mc n : Nat) (pairs : List (Pair α)) (m : Mem α) : Prop where
  count : m.st 0 = kept mc pairs.length
  cursor_pos : 0 < m.st 1
  cursor_le : m.st 1 ≤ mc
  cursor : m.st 1 % mc = pairs.length % mc
  rows : ∀ k pair, pairs[k]? = some pair → Live mc pairs.length k →
    ∀ i < n, m.sm (k % mc * n + i) = pair.s i ∧ m.ym (k % mc * n + i) = pair.y i

/-- The stored products of the live pairs. -/
structure Products (mc n : Nat) (pairs : List (Pair α)) (bf : Nat → α) : Prop where
  ss : ∀ k l a b, pairs[k]? = some a → pairs[l]? = some b →
    Live mc pairs.length k → Live mc pairs.length l →
    bf (addr mc (.ss (k % mc) (l % mc))) = dot n a.s b.s
  sy : ∀ k l a b, pairs[k]? = some a → pairs[l]? = some b →
    Live mc pairs.length k → Live mc pairs.length l → l ≤ k →
    bf (addr mc (.sy (k % mc) (l % mc))) = dot n a.s b.y
  diagonal : ∀ k a, pairs[k]? = some a → Live mc pairs.length k →
    bf (addr mc (.d (k % mc))) = dot n a.s a.y
  theta : bf (addr mc .theta) =
    match pairs.getLast? with
    | none => 1
    | some a => dot n a.y a.y / dot n a.s a.y

/-- `L` by age: row `s` against the `y` of the older pairs. -/
def Lower (mc n : Nat) (pairs : List (Pair α)) (bf : Nat → α) : Prop :=
  ∀ k l a b, pairs[k]? = some a → pairs[l]? = some b →
    Live mc pairs.length k → Live mc pairs.length l →
    bf (addr mc (.l (k % mc) (l % mc))) = if l < k then dot n a.s b.y else 0

/-- The buffers are what they claim to be for the accepted pairs. -/
structure Holds (mc n : Nat) (pairs : List (Pair α)) (m : Mem α) : Prop where
  slots : Slots mc n pairs m
  products : Products mc n pairs m.bf
  lower : Lower mc n pairs m.bf

section Store

/-- A buffer with `count` cells from `base` on taken from a vector. -/
def overlay {β : Type*} (base count : Nat) (v old : Nat → β) : Nat → β :=
  fun cell => if base ≤ cell ∧ cell < base + count then v (cell - base) else old cell

theorem overlay_zero {β : Type*} (base : Nat) (v old : Nat → β) : overlay base 0 v old = old := by
  funext cell
  exact if_neg (by omega)

theorem overlay_succ {β : Type*} (base count : Nat) (v old : Nat → β) :
    Function.update (overlay base count v old) (base + count) (v count) =
      overlay base (count + 1) v old := by
  funext cell
  unfold overlay
  by_cases last : cell = base + count
  · rw [last, Function.update_self, if_pos (by omega), Nat.add_sub_cancel_left]
  · rw [Function.update_of_ne last]
    congr 1
    apply propext
    omega

theorem overlay_inside {β : Type*} {base count i : Nat} (v old : Nat → β) (inside : i < count) :
    overlay base count v old (base + i) = v i := by
  unfold overlay
  rw [if_pos (by omega), Nat.add_sub_cancel_left]

/-- Other rows of the same length are kept. -/
theorem overlay_other {β : Type*} {row row' n i : Nat} (v old : Nat → β) (apart : row' ≠ row)
    (inside : i < n) : overlay (row * n) n v old (row' * n + i) = old (row' * n + i) := by
  apply if_neg
  rintro ⟨lower, upper⟩
  rcases Nat.lt_or_gt_of_ne apart with before | after
  · have := Nat.mul_le_mul_right n (Nat.succ_le_of_lt before)
    rw [Nat.succ_mul] at this
    omega
  · have := Nat.mul_le_mul_right n (Nat.succ_le_of_lt after)
    rw [Nat.succ_mul] at this
    omega

omit [Field α] in
/-- `lb_ring_store` writes one row of each history, or nothing. -/
theorem lbRingStore_eq (n : Nat) (m : Mem α) :
    lbRingStore n m =
      if m.st 3 = 0 then m
      else { m with
        sm := overlay (m.st 2 * n) n m.sv m.sm
        ym := overlay (m.st 2 * n) n m.yv m.ym } := by
  unfold lbRingStore
  have general : ∀ lanes, (List.range lanes).foldl (fun m i =>
      if m.st 3 = 0 then m
      else { m with
        sm := Function.update m.sm (m.st 2 * n + i) (m.sv i)
        ym := Function.update m.ym (m.st 2 * n + i) (m.yv i) }) m =
      if m.st 3 = 0 then m
      else { m with
        sm := overlay (m.st 2 * n) lanes m.sv m.sm
        ym := overlay (m.st 2 * n) lanes m.yv m.ym } := by
    intro lanes
    induction lanes with
    | zero => simp only [List.range_zero, List.foldl_nil, overlay_zero, ite_self]
    | succ lanes ih =>
        rw [List.range_succ, List.foldl_append, ih, List.foldl_cons, List.foldl_nil]
        by_cases rejected : m.st 3 = 0
        · simp only [rejected, if_true]
        · simp only [rejected, if_false, overlay_succ]
  exact general n

end Store

section Step

variable [LinearOrder α] (sqrt : α → α) {mc n : Nat}

/-- The end of `lb_compact`: `L`, `T` and its factor from the current products. -/
def refactor (mc : Nat) (m : Mem α) : Mem α :=
  let bf := middlePass mc (m.st 0) (m.bf (addr mc .theta))
    (lowerPass mc (m.st 0) ((m.st 1 + mc - m.st 0) % mc) m.bf)
  let out := (List.range (m.st 0)).foldl (choleskyColumn sqrt mc (m.st 0)) (bf, 1)
  { m with bf := out.1, st := Function.update m.st 4 out.2 }

/-- The memory after the curvature test and, if it passed, the new products. -/
def admitPair (mc : Nat) (pair : Pair α) (n : Nat) (m : Mem α) : Mem α :=
  if Accepts n pair then
    acceptPair mc (dot n pair.s pair.y) (dot n pair.y pair.y) (dot n pair.s pair.s)
      { appendPost mc n { m with sv := pair.s, yv := pair.y } with
        st := Function.update m.st 3 1 }
  else
    { appendPost mc n { m with sv := pair.s, yv := pair.y } with st := Function.update m.st 3 0 }

/-- An addition is the test, the factorisation and the store. -/
theorem step_add (m : Mem α) (pair : Pair α) :
    step sqrt mc n m (.add pair) = lbRingStore n (refactor sqrt mc (admitPair mc pair n m)) := by
  have sy := appendPost_sy mc n { m with sv := pair.s, yv := pair.y }
  have yy := appendPost_yy mc n { m with sv := pair.s, yv := pair.y }
  have ss := appendPost_ss mc n { m with sv := pair.s, yv := pair.y }
  simp only [step, lbCompact, Nat.zero_ne_one, if_false, sy, yy, ss]
  congr 1
  by_cases accepted : Accepts n pair
  · rw [admitPair, if_pos accepted]
    unfold Accepts at accepted
    simp only [accepted, if_true]
    rfl
  · rw [admitPair, if_neg accepted]
    unfold Accepts at accepted
    simp only [accepted, if_false, Nat.zero_ne_one]
    rfl

/-- The factorisation leaves the products alone. -/
theorem refactor_frame (m : Mem α) (few : m.st 0 ≤ mc) (c : Cell) (valid : c.Valid mc)
    (notL : ∀ i j, c ≠ .l i j) (notT : ∀ i j, c ≠ .t i j) :
    (refactor sqrt mc m).bf (addr mc c) = m.bf (addr mc c) := by
  simp only [refactor]
  rw [cholesky_frame _ sqrt few valid notT, middlePass_frame _ _ few valid notT,
    lowerPass_frame _ _ few valid notL]

/-- The factorisation computes `L` from `S^T Y`. -/
theorem refactor_l (m : Mem α) (few : m.st 0 ≤ mc) {i j : Nat} (row : i < m.st 0)
    (column : j < m.st 0) :
    (refactor sqrt mc m).bf (addr mc (.l i j)) =
      if rank mc ((m.st 1 + mc - m.st 0) % mc) j < rank mc ((m.st 1 + mc - m.st 0) % mc) i
      then m.bf (addr mc (.sy i j)) else 0 := by
  have valid : (Cell.l i j).Valid mc := ⟨row.trans_le few, column.trans_le few⟩
  simp only [refactor]
  rw [cholesky_frame _ sqrt few valid (by simp), middlePass_frame _ _ few valid (by simp),
    lowerPass_l _ _ few row column]

/-- The factorisation keeps the products. -/
theorem Products.refactor {pairs : List (Pair α)} {m : Mem α} (products : Products mc n pairs m.bf)
    (positive : 0 < mc) (few : m.st 0 ≤ mc) : Products mc n pairs (refactor sqrt mc m).bf := by
  have slot : ∀ k, k % mc < mc := fun k => Nat.mod_lt k positive
  constructor
  · intro k l a b atK atL liveK liveL
    rw [refactor_frame sqrt m few (.ss _ _) ⟨slot k, slot l⟩ (by simp) (by simp)]
    exact products.ss k l a b atK atL liveK liveL
  · intro k l a b atK atL liveK liveL order
    rw [refactor_frame sqrt m few (.sy _ _) ⟨slot k, slot l⟩ (by simp) (by simp)]
    exact products.sy k l a b atK atL liveK liveL order
  · intro k a atK liveK
    rw [refactor_frame sqrt m few (.d _) (slot k) (by simp) (by simp)]
    exact products.diagonal k a atK liveK
  · rw [refactor_frame sqrt m few .theta trivial (by simp) (by simp)]
    exact products.theta

/-- The factorisation's `L` is the one by age. -/
theorem Products.lower {pairs : List (Pair α)} {m : Mem α} (products : Products mc n pairs m.bf)
    (count : m.st 0 = kept mc pairs.length) (cursor : m.st 1 % mc = pairs.length % mc) :
    Lower mc n pairs (Lbfgsb.refactor sqrt mc m).bf := by
  intro k l a b atK atL liveK liveL
  have rankK := liveK.rank_eq cursor
  have rankL := liveL.rank_eq cursor
  rw [refactor_l sqrt m (count ▸ RingBuffer.kept_le) (count ▸ liveK.slot_lt)
    (count ▸ liveL.slot_lt), count]
  simp only [rank, rankK, rankL]
  have first : pairs.length - kept mc pairs.length ≤ l := by
    unfold Live at liveL
    unfold kept
    omega
  by_cases older : l < k
  · rw [if_pos older, if_pos (by omega)]
    exact products.sy k l a b atK atL liveK liveL older.le
  · rw [if_neg older, if_neg (by omega)]

section Admit

variable {pairs : List (Pair α)} {m : Mem α} {pair : Pair α}

/-- The counters and vectors after an accepted pair. -/
theorem admit_counters (accepted : Accepts n pair) (slots : Slots mc n pairs m) :
    (admitPair mc pair n m).st 0 = kept mc (pairs.length + 1) ∧
      (admitPair mc pair n m).st 1 = pairs.length % mc + 1 ∧
      (admitPair mc pair n m).st 2 = pairs.length % mc ∧ (admitPair mc pair n m).st 3 = 1 ∧
      (admitPair mc pair n m).sm = m.sm ∧ (admitPair mc pair n m).ym = m.ym ∧
      (admitPair mc pair n m).sv = pair.s ∧ (admitPair mc pair n m).yv = pair.y := by
  rw [admitPair, if_pos accepted, RingBuffer.kept_succ, ← slots.count, ← slots.cursor]
  simp [acceptPair, appendPost]

omit [LinearOrder α] in
/-- A stored row's product with the new `s`. -/
theorem ssValue_live (slots : Slots mc n pairs m) (positive : 0 < mc) {l : Nat} {b : Pair α}
    (atL : pairs[l]? = some b) (liveL : Live mc pairs.length l)
    (outlives : pairs.length < l + mc) :
    ssValue (pairs.length % mc) (appendPost mc n { m with sv := pair.s, yv := pair.y }).dots
      (dot n pair.s pair.s) (l % mc) = dot n b.s pair.s := by
  unfold ssValue
  rw [if_neg (liveL.slot_ne outlives), appendPost_s _ _ _ (Nat.mod_lt _ positive)]
  exact dot_congr (fun i inside => (slots.rows l b atL liveL i inside).1) fun _ _ => rfl

omit [LinearOrder α] in
/-- A stored row of `Y` against the new `s`. -/
theorem syValue_live (slots : Slots mc n pairs m) (positive : 0 < mc) {l : Nat} {b : Pair α}
    (atL : pairs[l]? = some b) (liveL : Live mc pairs.length l)
    (outlives : pairs.length < l + mc) :
    syValue mc (pairs.length % mc) (appendPost mc n { m with sv := pair.s, yv := pair.y }).dots
      (dot n pair.s pair.y) (l % mc) = dot n pair.s b.y := by
  unfold syValue
  rw [if_neg (liveL.slot_ne outlives), appendPost_y _ _ _ (Nat.mod_lt _ positive), dot_comm]
  exact dot_congr (fun _ _ => rfl) fun i inside => (slots.rows l b atL liveL i inside).2

/-- The cells of `bf` after an accepted pair. -/
theorem admit_cells (accepted : Accepts n pair) (slots : Slots mc n pairs m) (positive : 0 < mc)
    (i j : Nat) (row : i < mc) (column : j < mc) :
    ((admitPair mc pair n m).bf (addr mc (.ss i j)) =
      let value := ssValue (pairs.length % mc)
        (appendPost mc n { m with sv := pair.s, yv := pair.y }).dots (dot n pair.s pair.s)
      if i = pairs.length % mc ∧ j < kept mc (pairs.length + 1) then value j
      else if j = pairs.length % mc ∧ i < kept mc (pairs.length + 1) then value i
      else m.bf (addr mc (.ss i j))) ∧
    ((admitPair mc pair n m).bf (addr mc (.sy i j)) =
      if i = pairs.length % mc ∧ j < kept mc (pairs.length + 1) then
        syValue mc (pairs.length % mc)
          (appendPost mc n { m with sv := pair.s, yv := pair.y }).dots (dot n pair.s pair.y) j
      else if j = pairs.length % mc then 0 else m.bf (addr mc (.sy i j))) ∧
    ((admitPair mc pair n m).bf (addr mc (.d i)) =
      if i = pairs.length % mc then dot n pair.s pair.y else m.bf (addr mc (.d i))) ∧
    (admitPair mc pair n m).bf (addr mc .theta) = dot n pair.y pair.y / dot n pair.s pair.y := by
  have slot : pairs.length % mc < mc := Nat.mod_lt _ positive
  have few : kept mc (pairs.length + 1) ≤ mc := RingBuffer.kept_le
  have ssValid : (Cell.ss i j).Valid mc := ⟨row, column⟩
  have syValid : (Cell.sy i j).Valid mc := ⟨row, column⟩
  have dValid : (Cell.d i).Valid mc := row
  rw [admitPair, if_pos accepted]
  simp only [acceptPair, appendPost, Function.update_of_ne (show (0 : Nat) ≠ 3 by decide),
    Function.update_of_ne (show (1 : Nat) ≠ 3 by decide), slots.count, slots.cursor,
    ← RingBuffer.kept_succ]
  refine ⟨?_, ?_, ?_, ?_⟩
  · rw [put_apply .theta _ trivial ssValid, if_neg (by simp), put_apply (.d _) _ slot ssValid,
      if_neg (by simp), syPass_frame _ _ _ slot few ssValid (by simp),
      clearPass_frame _ slot ssValid (by simp), ssPass_ss _ _ _ slot few row column]
  · rw [put_apply .theta _ trivial syValid, if_neg (by simp), put_apply (.d _) _ slot syValid,
      if_neg (by simp), syPass_sy _ _ _ slot few row column, clearPass_sy _ slot row column,
      ssPass_frame _ _ _ slot few syValid (by simp)]
  · rw [put_apply .theta _ trivial dValid, if_neg (by simp), put_apply (.d _) _ slot dValid,
      syPass_frame _ _ _ slot few dValid (by simp), clearPass_frame _ slot dValid (by simp),
      ssPass_frame _ _ _ slot few dValid (by simp)]
    simp only [Cell.d.injEq]
  · rw [put_apply .theta .theta trivial trivial, if_pos rfl]

omit [Field α] [LinearOrder α] in
/-- A live entry after an append is the new pair or an older live one. -/
theorem entry_cases {k : Nat} {a : Pair α} (atK : (pairs ++ [pair])[k]? = some a)
    (live : Live mc (pairs ++ [pair]).length k) :
    (k = pairs.length ∧ a = pair) ∨
      (pairs[k]? = some a ∧ Live mc pairs.length k ∧ pairs.length < k + mc) := by
  rw [List.length_append, List.length_singleton] at live
  rcases live.cases_succ with rfl | ⟨older, outlives⟩
  · left
    rw [List.getElem?_concat_length] at atK
    exact ⟨rfl, (Option.some.inj atK).symm⟩
  · right
    rw [List.getElem?_append_left older.1] at atK
    exact ⟨atK, older, outlives⟩

/-- An accepted pair keeps the products in step with the list. -/
theorem admit_products (accepted : Accepts n pair) (slots : Slots mc n pairs m)
    (products : Products mc n pairs m.bf) (positive : 0 < mc) :
    Products mc n (pairs ++ [pair]) (admitPair mc pair n m).bf := by
  have slot : ∀ k, k % mc < mc := fun k => Nat.mod_lt k positive
  have cells := admit_cells accepted slots positive
  have inUse : ∀ {k}, Live mc (pairs ++ [pair]).length k → k % mc < kept mc (pairs.length + 1) := by
    intro k live
    rw [List.length_append, List.length_singleton] at live
    exact live.slot_lt
  constructor
  · intro k l a b atK atL liveK liveL
    rw [(cells _ _ (slot k) (slot l)).1]
    -- The new slot's row and column are rewritten; the other slots keep older pairs.
    rcases entry_cases atK liveK with ⟨rfl, rfl⟩ | ⟨oldK, wasK, outlivesK⟩
    · simp only [inUse liveL, and_self, if_true]
      rcases entry_cases atL liveL with ⟨rfl, rfl⟩ | ⟨oldL, wasL, outlivesL⟩
      · exact if_pos rfl
      · rw [ssValue_live slots positive oldL wasL outlivesL, dot_comm]
    · rw [if_neg (fun both => wasK.slot_ne outlivesK both.1)]
      rcases entry_cases atL liveL with ⟨rfl, rfl⟩ | ⟨oldL, wasL, outlivesL⟩
      · rw [if_pos ⟨rfl, inUse liveK⟩]
        exact ssValue_live slots positive oldK wasK outlivesK
      · rw [if_neg (fun both => wasL.slot_ne outlivesL both.1)]
        exact products.ss k l a b oldK oldL wasK wasL
  · intro k l a b atK atL liveK liveL order
    rw [(cells _ _ (slot k) (slot l)).2.1]
    rcases entry_cases atK liveK with ⟨rfl, rfl⟩ | ⟨oldK, wasK, outlivesK⟩
    · rw [if_pos ⟨rfl, inUse liveL⟩]
      rcases entry_cases atL liveL with ⟨rfl, rfl⟩ | ⟨oldL, wasL, outlivesL⟩
      · exact if_pos rfl
      · exact syValue_live slots positive oldL wasL outlivesL
    · -- `l ≤ k` rules out the cleared column: the new pair is the newest.
      rcases entry_cases atL liveL with ⟨rfl, rfl⟩ | ⟨oldL, wasL, outlivesL⟩
      · exact absurd order (Nat.not_le_of_lt wasK.1)
      · rw [if_neg (fun both => wasK.slot_ne outlivesK both.1),
          if_neg (wasL.slot_ne outlivesL)]
        exact products.sy k l a b oldK oldL wasK wasL order
  · intro k a atK liveK
    rw [(cells _ _ (slot k) (slot k)).2.2.1]
    rcases entry_cases atK liveK with ⟨rfl, rfl⟩ | ⟨oldK, wasK, outlivesK⟩
    · exact if_pos rfl
    · rw [if_neg (wasK.slot_ne outlivesK)]
      exact products.diagonal k a oldK wasK
  · rw [List.getLast?_concat]
    exact (cells 0 0 positive positive).2.2.2

end Admit

section Run

variable {pairs : List (Pair α)} {m : Mem α} {pair : Pair α}

/-- A reset leaves an empty history. -/
theorem holds_reset (positive : 0 < mc) (m : Mem α) :
    Holds mc n [] (step sqrt mc n m .reset) := by
  have reset : step sqrt mc n m .reset = compactReset mc m := by
    simp only [step, lbCompact, if_true]
  rw [reset]
  refine ⟨⟨?_, ?_, ?_, ?_, by simp⟩, ⟨by simp, by simp, by simp, ?_⟩, ?_⟩
  · simp [compactReset, kept]
  · simpa [compactReset] using positive
  · simp [compactReset]
  · simp [compactReset]
  · simp only [compactReset, List.getLast?_nil]
    rw [put_apply .theta .theta trivial trivial, if_pos rfl]
  · intro k l a b atK
    simp at atK

/-- An accepted pair joins the history. -/
theorem holds_accept (positive : 0 < mc) (holds : Holds mc n pairs m)
    (accepted : Accepts n pair) :
    Holds mc n (pairs ++ [pair]) (step sqrt mc n m (.add pair)) := by
  obtain ⟨count, cursor, target, flag, sm, ym, sv, yv⟩ := admit_counters accepted holds.slots
  have products := admit_products accepted holds.slots holds.products positive
  have slot := Nat.mod_lt pairs.length positive
  have few : (admitPair mc pair n m).st 0 ≤ mc := count ▸ RingBuffer.kept_le
  have length : (pairs ++ [pair]).length = pairs.length + 1 := by
    rw [List.length_append, List.length_singleton]
  have follows : (pairs.length % mc + 1) % mc = (pairs.length + 1) % mc := Nat.mod_add_mod _ _ _
  have stored : (refactor sqrt mc (admitPair mc pair n m)).st 3 ≠ 0 := by
    simp [refactor, flag]
  rw [step_add, lbRingStore_eq, if_neg stored]
  refine ⟨⟨?_, ?_, ?_, ?_, ?_⟩, products.refactor sqrt positive few, products.lower sqrt ?_ ?_⟩
  · simp [refactor, count]
  · simp [refactor, cursor]
  · simp only [refactor, ne_eq, OfNat.one_ne_ofNat, not_false_eq_true, Function.update_of_ne, cursor]
    exact slot
  · simp [refactor, cursor]
  · intro k a atK liveK i inside
    simp only [refactor, sm, ym, sv, yv, Function.update_of_ne (show (2 : Nat) ≠ 4 by decide),
      target]
    rcases entry_cases atK liveK with ⟨rfl, rfl⟩ | ⟨oldK, wasK, outlivesK⟩
    · exact ⟨overlay_inside _ _ inside, overlay_inside _ _ inside⟩
    · have apart := wasK.slot_ne outlivesK
      rw [overlay_other _ _ apart inside, overlay_other _ _ apart inside]
      exact holds.slots.rows k a oldK wasK i inside
  · rw [count, length]
  · rw [cursor, length, follows]

/-- What a rejected pair leaves untouched. -/
structure SameHistory (mc : Nat) (m m' : Mem α) : Prop where
  counters : m'.st 0 = m.st 0 ∧ m'.st 1 = m.st 1
  rows : m'.sm = m.sm ∧ m'.ym = m.ym
  products : ∀ c : Cell, c.Valid mc → (∀ i j, c ≠ .l i j) → (∀ i j, c ≠ .t i j) →
    m'.bf (addr mc c) = m.bf (addr mc c)
  lower : ∀ i < m.st 0, ∀ j < m.st 0, m'.bf (addr mc (.l i j)) = m.bf (addr mc (.l i j))

/-- A rejected pair changes nothing. -/
theorem sameHistory_reject (holds : Holds mc n pairs m)
    (rejected : ¬ Accepts n pair) : SameHistory mc m (step sqrt mc n m (.add pair)) := by
  have few : m.st 0 ≤ mc := holds.slots.count ▸ RingBuffer.kept_le
  have tested : admitPair mc pair n m =
      { appendPost mc n { m with sv := pair.s, yv := pair.y } with
        st := Function.update m.st 3 0 } := if_neg rejected
  have idle : (refactor sqrt mc (admitPair mc pair n m)).st 3 = 0 := by
    simp [refactor, tested]
  have products : Products mc n pairs (admitPair mc pair n m).bf := by
    rw [tested]
    exact holds.products
  have lower : Lower mc n pairs (refactor sqrt mc (admitPair mc pair n m)).bf := by
    apply products.lower sqrt
    · simpa [tested] using holds.slots.count
    · simpa [tested] using holds.slots.cursor
  rw [step_add, lbRingStore_eq, if_pos idle]
  constructor
  · simp [refactor, tested]
  · simp [refactor, tested, appendPost]
  · intro c valid notL notT
    rw [refactor_frame sqrt _ (by simpa [tested] using few) c valid notL notT, tested]
    rfl
  · intro i row j column
    rw [holds.slots.count] at row column
    obtain ⟨k, liveK, rfl⟩ := RingBuffer.exists_live row
    obtain ⟨l, liveL, rfl⟩ := RingBuffer.exists_live column
    have atK := List.getElem?_eq_getElem liveK.1
    have atL := List.getElem?_eq_getElem liveL.1
    rw [lower k l _ _ atK atL liveK liveL, holds.lower k l _ _ atK atL liveK liveL]

omit [LinearOrder α] in
/-- The history holds what it held through a pair that changes nothing. -/
theorem Holds.of_same {m' : Mem α} (holds : Holds mc n pairs m) (same : SameHistory mc m m')
    (positive : 0 < mc) : Holds mc n pairs m' := by
  have slot : ∀ k, k % mc < mc := fun k => Nat.mod_lt k positive
  refine ⟨⟨?_, ?_, ?_, ?_, ?_⟩, ⟨?_, ?_, ?_, ?_⟩, ?_⟩
  · rw [same.counters.1, holds.slots.count]
  · rw [same.counters.2]
    exact holds.slots.cursor_pos
  · rw [same.counters.2]
    exact holds.slots.cursor_le
  · rw [same.counters.2, holds.slots.cursor]
  · rw [same.rows.1, same.rows.2]
    exact holds.slots.rows
  · intro k l a b atK atL liveK liveL
    rw [same.products (.ss _ _) ⟨slot k, slot l⟩ (by simp) (by simp)]
    exact holds.products.ss k l a b atK atL liveK liveL
  · intro k l a b atK atL liveK liveL order
    rw [same.products (.sy _ _) ⟨slot k, slot l⟩ (by simp) (by simp)]
    exact holds.products.sy k l a b atK atL liveK liveL order
  · intro k a atK liveK
    rw [same.products (.d _) (slot k) (by simp) (by simp)]
    exact holds.products.diagonal k a atK liveK
  · rw [same.products .theta trivial (by simp) (by simp)]
    exact holds.products.theta
  · intro k l a b atK atL liveK liveL
    rw [same.lower _ (holds.slots.count ▸ liveK.slot_lt) _ (holds.slots.count ▸ liveL.slot_lt)]
    exact holds.lower k l a b atK atL liveK liveL

/-- One operation keeps the buffers in step with the list. -/
theorem holds_step (positive : 0 < mc) (holds : Holds mc n pairs m) (op : Op α) :
    Holds mc n (record n pairs op) (step sqrt mc n m op) := by
  cases op with
  | reset => exact holds_reset sqrt positive m
  | add pair =>
      by_cases accepted : Accepts n pair
      · rw [record, if_pos accepted]
        exact holds_accept sqrt positive holds accepted
      · rw [record, if_neg accepted]
        exact holds.of_same (sameHistory_reject sqrt holds accepted) positive

/-- Any run of operations keeps the buffers in step with the list. -/
theorem holds_run (positive : 0 < mc) (ops : List (Op α)) (holds : Holds mc n pairs m) :
    Holds mc n (ops.foldl (record n) pairs) (ops.foldl (step sqrt mc n) m) := by
  induction ops generalizing pairs m with
  | nil => exact holds
  | cons op rest ih => exact ih (holds_step sqrt positive holds op)

variable (mc n) in
/-- From a reset on, whatever the buffers held before, the ring slots hold the
last `mc` accepted pairs since the last reset, each slot one of them, the
matrices are their products, and a pair the curvature test rejects changes
neither. -/
theorem history_faithful (positive : 0 < mc) (start : Mem α) (ops : List (Op α)) :
    let m := (Op.reset :: ops).foldl (step sqrt mc n) start
    let pairs := (Op.reset :: ops).foldl (record n) []
    Holds mc n pairs m ∧
      (∀ slot < m.st 0, ∃! k, Live mc pairs.length k ∧ k % mc = slot) ∧
      ∀ pair, ¬ Accepts n pair → SameHistory mc m (step sqrt mc n m (.add pair)) := by
  intro m pairs
  have holds : Holds mc n pairs m := holds_run sqrt positive ops (holds_reset sqrt positive start)
  refine ⟨holds, ?_, fun pair rejected => sameHistory_reject sqrt holds rejected⟩
  intro slot inUse
  rw [holds.slots.count] at inUse
  obtain ⟨k, live, rfl⟩ := RingBuffer.exists_live inUse
  exact ⟨k, ⟨live, rfl⟩, fun l ⟨liveL, same⟩ => liveL.slot_injective live same⟩

/-- Three accepted pairs and a rejected one in a ring of two: slot 0 is reused. -/
theorem history_faithful_wraps :
    let pair := fun s y : Rat => (⟨fun _ => s, fun _ => y⟩ : Pair Rat)
    let start : Mem Rat :=
      ⟨fun _ => 0, fun _ => 7, fun _ => 7, fun _ => 7, fun _ => 7, fun _ => 7, fun _ => 7⟩
    Holds 2 1 [pair 1 1, pair 2 1, pair 3 2]
      ([.reset, .add (pair 1 1), .add (pair 2 1), .add (pair 1 (-1)), .add (pair 3 2)].foldl
        (step (fun x => x) 2 1) start) := by
  intro pair start
  have holds := (history_faithful (fun x => x) 2 1 Nat.two_pos start
    [.add (pair 1 1), .add (pair 2 1), .add (pair 1 (-1)), .add (pair 3 2)]).1
  have kept : ([.reset, .add (pair 1 1), .add (pair 2 1), .add (pair 1 (-1)), .add (pair 3 2)].foldl
      (record 1) [] : List (Pair Rat)) = [pair 1 1, pair 2 1, pair 3 2] := by
    have first : Accepts 1 (pair 1 1) := by norm_num [Accepts, dot, eps, pair]
    have second : Accepts 1 (pair 2 1) := by norm_num [Accepts, dot, eps, pair]
    have against : ¬ Accepts 1 (pair 1 (-1)) := by norm_num [Accepts, dot, eps, pair]
    have third : Accepts 1 (pair 3 2) := by norm_num [Accepts, dot, eps, pair]
    simp only [List.foldl_cons, List.foldl_nil, record, first, second, against, third, if_true,
      if_false]
    rfl
  rw [kept] at holds
  exact holds

end Run

end Step

end DressOn.Lbfgsb
