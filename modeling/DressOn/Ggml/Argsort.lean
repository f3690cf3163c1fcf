import DressOn.Ggml.Launch
import DressOn.Ggml.Reshape
import DressOn.Lib.Ranks

/-!
# Sorting by rank

ARGSORT writes the indices of a row in the order of its values: the thread of an element counts the
elements of its row that go before it, and writes its index there. The values are those of a linear
order, so no row holds a NaN; the source is read from words that the dispatch does not write.
-/

namespace DressOn.Ggml.Argsort

open OwnedCells
open Move (Tensor Block Index fillBlock unravel4 off4 linear unravel numbers index)
open Launch (Grid Thread grid1d entry1D)

deriving instance DecidableEq for Thread

/-- An ARGSORT node; `order` is `op_params[0]`, ascending 0 and descending 1. -/
structure Node where
  dst : Tensor
  src : Tensor
  order : UInt32

/-- `kMaxRow`. -/
def kMaxRow : ℕ := 65536

/-- `supports_argsort_f32`. -/
def Node.supports (node : Node) : Bool :=
  node.dst.type == .i32 && node.src.type == .f32 && decide (∀ k, node.src.ne k = node.dst.ne k) &&
    (node.order == 0 || node.order == 1) && decide (node.src.ne 0 ≤ kMaxRow) && node.dst.fits &&
    node.src.fits

/-- The words the kernel reads: the blocks at words 1 and 10, and word 37. -/
structure Slot where
  dst : Block
  src0 : Block
  order : UInt32

/-- A packed dispatch. -/
structure Packed where
  slot : Slot
  grid : Grid

/-- A node through `supports_argsort_f32`, `fill_standard` and `pack_argsort_f32`. -/
def Node.pack (node : Node) : Option Packed :=
  if node.supports then
    (fillBlock node.dst).bind fun dst => (fillBlock node.src).bind fun src0 =>
      (grid1d 256 node.dst.nelements).map fun grid => ⟨⟨dst, src0, node.order⟩, grid⟩
  else none

section Kernel

variable {κ : Type*} [LinearOrder κ]

/-- The rank loop of `argsort_f32`: the row starts at `xb`, its elements are `xs` apart. -/
def rankLoop (desc : Bool) (s0 : ℕ → κ) (xb xs n i0 : UInt32) : UInt32 :=
  let ld i := s0 (xb + i * xs).toNat
  let xj := ld i0
  (List.range n.toNat).foldl (fun rank k =>
    let xk := ld (UInt32.ofNat k)
    let before := if desc then decide (xj < xk) else decide (xk < xj)
    if before || decide (xk = xj) && decide (UInt32.ofNat k < i0) then rank + 1 else rank) 0

/-- The rank that the thread of an index computes. -/
def rankAt (w : Slot) (s0 : ℕ → κ) (i : Index) : UInt32 :=
  rankLoop (w.order != 0) s0 (off4 w.src0 ![0, i 1, i 2, i 3]) (w.src0.nb 0) (w.src0.ne 0) (i 0)

/-- `argsort_f32`: the word a thread writes, and its index. -/
def argsortF32 {grid : Grid} (w : Slot) (s0 : ℕ → κ) (thread : Thread grid 256) :
    Option (Update ℕ UInt32) :=
  (entry1D thread).map fun e =>
    let i := unravel4 w.dst e
    ⟨(off4 w.dst ![rankAt w s0 i, i 1, i 2, i 3]).toNat, fun _ => i 0⟩

end Kernel

section Counting

/-- A word that counts stays exact below `2 ^ 32`. -/
theorem toNat_foldl_count (p : ℕ → Bool) (items : List ℕ) (start : UInt32)
    (small : start.toNat + items.length < 2 ^ 32) :
    (items.foldl (fun count k => if p k then count + 1 else count) start).toNat =
      start.toNat + items.countP p := by
  induction items generalizing start with
  | nil => rfl
  | cons k items inductionHypothesis =>
    rw [List.length_cons] at small
    rw [List.foldl_cons, List.countP_cons]
    split
    · have next : (start + 1).toNat = start.toNat + 1 := by
        rw [UInt32.toNat_add, UInt32.toNat_one]
        exact Nat.mod_eq_of_lt (by omega)
      rw [inductionHypothesis _ (by omega), next]
      omega
    · rw [inductionHypothesis _ (by omega)]
      rfl

end Counting

section Row

variable {κ : Type*} [LinearOrder κ] {node : Node} {packed : Packed}

/-- What a packed node runs under. -/
structure Runs (packed : Packed) (node : Node) : Prop where
  dst : packed.slot.dst.Of node.dst
  src : packed.slot.src0.Of node.src
  order : packed.slot.order = node.order
  shape : ∀ k, node.src.ne k = node.dst.ne k
  short : node.src.ne 0 ≤ kMaxRow
  pos : ∀ k, 0 < node.dst.ne k
  small : ∀ k, node.dst.ne k ≤ Move.maxWord
  launched : Launch.Launched packed.grid 256 node.dst.nelements

theorem runs_of_pack (packs : node.pack = some packed) : Runs packed node := by
  unfold Node.pack at packs
  split at packs
  · next supports =>
    obtain ⟨dst, dst_eq, packs⟩ := Option.bind_eq_some_iff.1 packs
    obtain ⟨src0, src_eq, packs⟩ := Option.bind_eq_some_iff.1 packs
    obtain ⟨grid, launched, rfl⟩ := Option.map_eq_some_iff.1 packs
    simp only [Node.supports, Bool.and_eq_true, decide_eq_true_eq] at supports
    exact {
      dst := Move.fillBlock_of dst_eq
      src := Move.fillBlock_of src_eq
      order := rfl
      shape := supports.1.1.1.1.2
      short := supports.1.1.2
      pos := Move.Tensor.pos_of_fits supports.1.2
      small := Move.Tensor.ne_le_of_fits supports.1.2
      launched := Launch.launched_of_grid1d (by decide) launched }
  · cases packs

/-- The index in a row. -/
abbrev inRow (i : Fin 4 → ℕ) (c : ℕ) : Fin 4 → ℕ := Function.update i 0 c

/-- The values of the row of an index. -/
def rowOf (node : Node) (s0 : ℕ → κ) (i : Fin 4 → ℕ) (c : ℕ) : κ :=
  s0 (node.src.element (inRow i c))

variable (runs : Runs packed node) {i : Fin 4 → ℕ} (row : node.dst.Holds i)

include runs row

theorem Runs.holds_inRow {c : ℕ} (inside : c < node.src.ne 0) : node.dst.Holds (inRow i c) := by
  intro k
  by_cases first : k = 0
  · subst first
    rw [inRow, Function.update_self, ← runs.shape]
    exact inside
  · rw [inRow, Function.update_of_ne first]
    exact row k

/-- The element of an index is that index's word. -/
theorem Runs.unravel4_linear {e : UInt32} (element : e.toNat = linear node.dst.ne i) :
    unravel4 packed.slot.dst e = index i := by
  have extents : (fun k => (packed.slot.dst.ne k).toNat) = node.dst.ne := funext runs.dst.ne
  rw [← Move.index_numbers (unravel4 _ _), Move.numbers_unravel4, extents, element,
    Move.unravel_linear row]

theorem Runs.src_holds_inRow {c : ℕ} (inside : c < node.src.ne 0) :
    node.src.Holds (inRow i c) := fun k =>
  (runs.holds_inRow row inside k).trans_eq (runs.shape k).symm

/-- The row starts at the element of its first index. -/
theorem Runs.toNat_start :
    (off4 packed.slot.src0 ![0, index i 1, index i 2, index i 3]).toNat =
      node.src.element (inRow i 0) := by
  have small : ∀ k, i k < 2 ^ 32 := fun k =>
    ((row k).trans_le (runs.small k)).trans (by decide)
  have start : numbers ![0, index i 1, index i 2, index i 3] = inRow i 0 := by
    funext k
    fin_cases k
    · rfl
    · exact UInt32.toNat_ofNat_of_lt' (small 1)
    · exact UInt32.toNat_ofNat_of_lt' (small 2)
    · exact UInt32.toNat_ofNat_of_lt' (small 3)
  have first : 0 < node.src.ne 0 := runs.shape 0 ▸ runs.pos 0
  rw [runs.src.toNat_off4 (start ▸ runs.src_holds_inRow row first), start]

omit [LinearOrder κ] runs row in
/-- The elements of a row are a stride apart. -/
theorem element_inRow (t : Tensor) (i : Fin 4 → ℕ) (c : ℕ) :
    t.element (inRow i c) = t.element (inRow i 0) + c * t.stride 0 := by
  simp only [Tensor.element, Fin.sum_univ_four, inRow, Function.update_self, Fin.isValue, ne_eq,
    Fin.reduceEq, not_false_eq_true, Function.update_of_ne]
  ring

/-- An element of the row is read at its own address. -/
theorem Runs.toNat_address {c : ℕ} (inside : c < node.src.ne 0) :
    (off4 packed.slot.src0 ![0, index i 1, index i 2, index i 3] +
        UInt32.ofNat c * packed.slot.src0.nb 0).toNat = node.src.element (inRow i c) := by
  have below := runs.src.element_lt (runs.src_holds_inRow row inside)
  have short := runs.short
  have number : (UInt32.ofNat c).toNat = c :=
    UInt32.toNat_ofNat_of_lt' (by simp only [kMaxRow, UInt32.size] at *; omega)
  rw [element_inRow] at below ⊢
  rw [UInt32.toNat_add, UInt32.toNat_mul, number, runs.src.nb, runs.toNat_start row,
    Nat.mod_eq_of_lt (a := c * _) (by omega), Nat.mod_eq_of_lt (by omega)]

/-- The rank loop counts the indices that go before. -/
theorem Runs.rankAt_eq (s0 : ℕ → κ) : (rankAt packed.slot s0 (index i)).toNat =
      Ranks.rank (Ranks.byValue (node.order != 0) (rowOf node s0 i)) (node.src.ne 0) (i 0) := by
  have short := runs.short
  have own : inRow i (i 0) = i := Function.update_eq_self 0 i
  have inside : i 0 < node.src.ne 0 := (row 0).trans_eq (runs.shape 0).symm
  have address := fun c (inside : c < node.src.ne 0) => runs.toNat_address row inside
  have word : ∀ c < node.src.ne 0, (UInt32.ofNat c).toNat = c := fun c inside =>
    UInt32.toNat_ofNat_of_lt' (by simp only [kMaxRow, UInt32.size] at *; omega)
  unfold rankAt rankLoop
  simp only [runs.order, runs.src.ne]
  rw [toNat_foldl_count _ _ _ (by
    rw [List.length_range, UInt32.toNat_zero]
    simp only [kMaxRow] at short
    omega)]
  rw [UInt32.toNat_zero, Nat.zero_add, Ranks.rank]
  refine List.countP_congr fun k member => ?_
  have insideK := List.mem_range.1 member
  have less : UInt32.ofNat k < index i 0 ↔ k < i 0 := by
    rw [UInt32.lt_iff_toNat_lt, word k insideK]
    exact iff_of_eq (congrArg (k < ·) (word _ inside))
  have mine := address (i 0) inside
  simp only [index] at address mine less ⊢
  rw [Ranks.byValue_iff]
  simp only [address k insideK, mine, less, rowOf, Bool.or_eq_true, Bool.and_eq_true,
    decide_eq_true_eq]
  cases node.order != 0 <;> simp

/-- A thread writes its index at its rank. -/
theorem Runs.argsortF32_eq (s0 : ℕ → κ) {thread : Thread packed.grid 256} {e : UInt32}
    (mine : entry1D thread = some e) (element : e.toNat = linear node.dst.ne i) :
    argsortF32 packed.slot s0 thread =
      some ⟨node.dst.element (inRow i (rankAt packed.slot s0 (index i)).toNat),
        fun _ => UInt32.ofNat (i 0)⟩ := by
  have small : ∀ k, i k < 2 ^ 32 := fun k =>
    ((row k).trans_le (runs.small k)).trans (by decide)
  have inside : i 0 < node.src.ne 0 := (row 0).trans_eq (runs.shape 0).symm
  have below : (rankAt packed.slot s0 (index i)).toNat < node.src.ne 0 := by
    rw [runs.rankAt_eq row s0]
    exact Ranks.rank_lt (Ranks.goes_byValue _ _) inside
  have target : numbers ![rankAt packed.slot s0 (index i), index i 1, index i 2, index i 3] =
      inRow i (rankAt packed.slot s0 (index i)).toNat := by
    funext k
    fin_cases k
    · rfl
    · exact UInt32.toNat_ofNat_of_lt' (small 1)
    · exact UInt32.toNat_ofNat_of_lt' (small 2)
    · exact UInt32.toNat_ofNat_of_lt' (small 3)
  unfold argsortF32
  rw [mine, Option.map_some]
  simp only [runs.unravel4_linear row element]
  rw [runs.dst.toNat_off4 (target ▸ runs.holds_inRow row below), target]
  rfl

/-- Where ggml counts the elements exactly, every one has a thread. -/
theorem Runs.exists_thread (exact : node.dst.nelements = node.dst.count) :
    ∃ (thread : Thread packed.grid 256) (e : UInt32),
      entry1D thread = some e ∧ e.toNat = linear node.dst.ne i := by
  have less : linear node.dst.ne i < node.dst.nelements := exact ▸ Move.linear_lt row
  have counted := runs.launched.counted.2
  simp only [Move.maxWord] at counted
  have word : (UInt32.ofNat (linear node.dst.ne i)).toNat = linear node.dst.ne i :=
    UInt32.toNat_ofNat_of_lt' (by simp only [UInt32.size]; omega)
  obtain ⟨thread, number⟩ := Launch.exists_thread (less.trans_le runs.launched.covers)
  refine ⟨thread, _, (Launch.entry1D_eq_some runs.launched).2 ⟨?_, ?_⟩, word⟩
  · rw [number, word, Nat.mod_eq_of_lt (word ▸ UInt32.toNat_lt _)]
  · rw [word]
    exact less

omit row in
/-- Every write is one of an element's thread. -/
theorem Runs.element_of_argsortF32 {s0 : ℕ → κ} {thread : Thread packed.grid 256}
    {update : Update ℕ UInt32} (doing : argsortF32 packed.slot s0 thread = some update) :
    ∃ j, node.dst.Holds j ∧
      update = ⟨node.dst.element (inRow j (rankAt packed.slot s0 (index j)).toNat),
        fun _ => UInt32.ofNat (j 0)⟩ := by
  cases mine : entry1D thread with
  | none => simp [argsortF32, mine] at doing
  | some e =>
    have less := ((Launch.entry1D_eq_some runs.launched).1 mine).2
    have inside : node.dst.Holds (unravel node.dst.ne e.toNat) := fun k =>
      Move.unravel_lt runs.pos (less.trans_le node.dst.nelements_le_count) k
    have element : e.toNat = linear node.dst.ne (unravel node.dst.ne e.toNat) :=
      (Move.linear_unravel _ _).symm
    rw [runs.argsortF32_eq inside s0 mine element] at doing
    exact ⟨_, inside, (Option.some.inj doing).symm⟩

end Row

section Sorted

variable {κ : Type*} [LinearOrder κ] {node : Node} {packed : Packed}

/-- The rank that the thread of the element at place `c` of a row computes. -/
def rankIn (packed : Packed) (s0 : ℕ → κ) (i : Fin 4 → ℕ) (c : ℕ) : ℕ :=
  (rankAt packed.slot s0 (index (inRow i c))).toNat

/-- The index written at place `r` of a row. -/
def written (node : Node) (cells : ℕ → UInt32) (i : Fin 4 → ℕ) (r : ℕ) : ℕ :=
  (cells (node.dst.element (inRow i r))).toNat

/-- The order asked for: index `p` may stand before index `q`. -/
def Ordered (desc : Bool) (row : ℕ → κ) (p q : ℕ) : Prop :=
  (if desc then row q ≤ row p else row p ≤ row q) ∧ (row p = row q → p < q)

theorem ordered_of_byValue {desc : Bool} {row : ℕ → κ} {p q : ℕ}
    (goes : Ranks.byValue desc row p q = true) : Ordered desc row p q := by
  rw [Ranks.byValue_iff] at goes
  rcases goes with apart | ⟨same, less⟩
  · cases desc
    · exact ⟨apart.le, fun same => absurd same apart.ne⟩
    · exact ⟨apart.le, fun same => absurd same apart.ne'⟩
  · refine ⟨?_, fun _ => less⟩
    cases desc
    · exact same.le
    · exact same.ge

omit [LinearOrder κ] in
/-- An index in a row is an index of the same row. -/
theorem rowOf_inRow (node : Node) (s0 : ℕ → κ) (i : Fin 4 → ℕ) (c : ℕ) :
    rowOf node s0 (inRow i c) = rowOf node s0 i := by
  funext d
  rw [rowOf, rowOf, inRow, inRow, Function.update_idem]

/-- A thread's rank is that of its index. -/
theorem Runs.rankIn_eq (runs : Runs packed node) (s0 : ℕ → κ) {i : Fin 4 → ℕ}
    (row : node.dst.Holds i) {c : ℕ} (inside : c < node.src.ne 0) :
    rankIn packed s0 i c =
      Ranks.rank (Ranks.byValue (node.order != 0) (rowOf node s0 i)) (node.src.ne 0) c := by
  have here := runs.holds_inRow row inside
  have rank := runs.rankAt_eq here s0
  rw [rowOf_inRow, inRow, Function.update_self] at rank
  exact rank

/-- The thread of the element at place `c` of a row writes `c` at its rank. -/
theorem Runs.argsortF32_inRow (runs : Runs packed node) (s0 : ℕ → κ) {i : Fin 4 → ℕ}
    (row : node.dst.Holds i) {c : ℕ} (inside : c < node.src.ne 0)
    (exact : node.dst.nelements = node.dst.count) :
    ∃ thread : Thread packed.grid 256, argsortF32 packed.slot s0 thread =
      some ⟨node.dst.element (inRow i (rankIn packed s0 i c)), fun _ => UInt32.ofNat c⟩ := by
  have here := runs.holds_inRow row inside
  obtain ⟨thread, e, mine, element⟩ := runs.exists_thread here exact
  have again : inRow (inRow i c) (rankIn packed s0 i c) = inRow i (rankIn packed s0 i c) :=
    Function.update_idem ..
  have place : inRow i c 0 = c := Function.update_self ..
  refine ⟨thread, (runs.argsortF32_eq here s0 mine element).trans ?_⟩
  rw [place, ← again]
  rfl

/-- What a complete run leaves at an index's rank is the index. -/
theorem Runs.written_rank (runs : Runs packed node) (apart : node.dst.Apart) (s0 : ℕ → κ)
    {i : Fin 4 → ℕ} (row : node.dst.Holds i) (cells : ℕ → UInt32)
    {schedule : List (Thread packed.grid 256)} (complete : ∀ thread, 2 ≤ schedule.count thread)
    {c : ℕ} (inside : c < node.src.ne 0) :
    written node (run (argsortF32 packed.slot s0) schedule cells).cells i
      (rankIn packed s0 i c) = c := by
  have goes := Ranks.goes_byValue (node.order != 0) (rowOf node s0 i)
  have here := runs.holds_inRow row inside
  have word : (UInt32.ofNat c).toNat = c :=
    UInt32.toNat_ofNat_of_lt' (inside.trans_le (runs.short.trans (by decide)))
  obtain ⟨thread, doing⟩ :=
    runs.argsortF32_inRow s0 row inside (apart.nelements_eq runs.dst runs.pos)
  have below : ∀ {d}, d < node.src.ne 0 → rankIn packed s0 i d < node.src.ne 0 := by
    intro d inside
    rw [runs.rankIn_eq s0 row inside]
    exact Ranks.rank_lt goes inside
  have left := @run_cells_of_agreed _ _ _ _ _ (argsortF32 packed.slot s0) thread _
    (node.dst.element (inRow i (rankIn packed s0 i c))) (UInt32.ofNat c)
    (fun other update doing' owns old => ?_) doing rfl schedule (complete thread) cells
  · rw [written, left, word]
  · obtain ⟨j, inside', rfl⟩ := runs.element_of_argsortF32 doing'
    have rank := runs.rankAt_eq inside' s0
    have insideJ : j 0 < node.src.ne 0 := (inside' 0).trans_eq (runs.shape 0).symm
    have belowJ : (rankAt packed.slot s0 (index j)).toNat < node.src.ne 0 := by
      rw [rank]
      exact Ranks.rank_lt (Ranks.goes_byValue _ _) insideJ
    have same := apart (runs.holds_inRow inside' belowJ) (runs.holds_inRow row (below inside)) owns
    have rows : ∀ d, inRow j d = inRow i d := by
      intro d
      have step := congrArg (fun index => inRow index d) same
      simpa only [inRow, Function.update_idem] using step
    have ranks := congrFun same 0
    rw [inRow, inRow, Function.update_self, Function.update_self, rank,
      runs.rankIn_eq s0 row inside] at ranks
    have sameRow : rowOf node s0 j = rowOf node s0 i := by
      funext d
      rw [rowOf, rowOf, rows d]
    rw [sameRow] at ranks
    rw [Ranks.rank_inj goes insideJ inside ranks]

/-- The ranks of a row are its indices in some order, the thread of each element writes its index at
its rank (every element has one where their number is below `2 ^ 64`), and a smaller rank is that of an index that has to stand before. Where no two elements of
the destination share an address, every interleaving of the threads leaves each row as the indices
in the order asked for, those of equal values in their own. -/
theorem argsort_sorts (packs : node.pack = some packed) (s0 : ℕ → κ) {i : Fin 4 → ℕ}
    (row : node.dst.Holds i) :
    ((List.range (node.src.ne 0)).map (rankIn packed s0 i)).Perm
        (List.range (node.src.ne 0)) ∧
    (node.dst.count < 2 ^ 64 → ∀ c < node.src.ne 0, ∃ thread : Thread packed.grid 256,
      argsortF32 packed.slot s0 thread =
        some ⟨node.dst.element (inRow i (rankIn packed s0 i c)), fun _ => UInt32.ofNat c⟩) ∧
    (∀ p < node.src.ne 0, ∀ q < node.src.ne 0,
      rankIn packed s0 i p < rankIn packed s0 i q →
        Ordered (node.order != 0) (rowOf node s0 i) p q) ∧
    (node.dst.Apart → ∀ (cells : ℕ → UInt32) (schedule : List (Thread packed.grid 256)),
      (∀ thread, 2 ≤ schedule.count thread) →
        let out := (List.range (node.src.ne 0)).map
          (written node (run (argsortF32 packed.slot s0) schedule cells).cells i)
        out.Perm (List.range (node.src.ne 0)) ∧
          out.Pairwise (Ordered (node.order != 0) (rowOf node s0 i))) := by
  have runs := runs_of_pack packs
  have goes := Ranks.goes_byValue (node.order != 0) (rowOf node s0 i)
  have rankIn_eq := fun c inside => runs.rankIn_eq s0 row (c := c) inside
  refine ⟨?_, fun few c inside => ?_, fun p insideP q insideQ less => ?_, ?_⟩
  · rw [List.map_congr_left fun c member => rankIn_eq c (List.mem_range.1 member)]
    exact Ranks.ranks_perm goes
  · exact runs.argsortF32_inRow s0 row inside (node.dst.nelements_eq_count few)
  · rw [rankIn_eq p insideP, rankIn_eq q insideQ,
      ← Ranks.before_iff_rank_lt goes insideP insideQ] at less
    exact ordered_of_byValue less
  · intro apart cells schedule complete
    have listed := Ranks.listed goes (n := node.src.ne 0) fun c inside =>
      rankIn_eq c inside ▸ runs.written_rank apart s0 row cells complete inside
    exact ⟨listed.1, listed.2.imp ordered_of_byValue⟩

/-- Three values to be sorted downwards. -/
def three : Node where
  dst := { type := .i32, ne := ![3, 1, 1, 1], nb := ![4, 12, 12, 12], offset := 0,
           inside := by decide }
  src := { type := .f32, ne := ![3, 1, 1, 1], nb := ![4, 12, 12, 12], offset := 0,
           inside := by decide }
  order := 1

/-- The ranks of 5, 7 and 5 are the three places. -/
theorem argsort_sorts_three : ∃ packed, three.pack = some packed ∧
    ((List.range 3).map (rankIn packed (fun e => if e = 1 then 7 else 5) fun _ => 0)).Perm
      (List.range 3) := by
  obtain ⟨packed, packs⟩ := Option.isSome_iff_exists.mp
    (show three.pack.isSome = true by decide +kernel)
  exact ⟨packed, packs, (argsort_sorts packs (fun e => if e = 1 then 7 else 5) (by decide)).1⟩

end Sorted

end DressOn.Ggml.Argsort
