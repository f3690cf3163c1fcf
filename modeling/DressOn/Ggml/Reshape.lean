import DressOn.Ggml.SixteenBit

/-!
# Reshaping copies

CPY, DUP and CONT go by ggml's element order on both sides: element `n` of the destination is
element `n` of the source, whatever the shapes, the strides and the iteration order. A 32-bit
destination needs no nesting, so two of its elements may share an address, and it may have more
elements than ggml's count of them says.
-/

namespace DressOn.Ggml.Move

open OwnedCells

/-- `entry32`: one thread per destination element. -/
def entry32 {gx gy : ℕ} (w : Slot) (val : Index → UInt32) (thread : Thread gx gy) :
    Option (Update ℕ UInt32) :=
  let e := element w thread
  if w.threads ≤ e then none
  else some ⟨(off4 w.dst (unravel4 w.dst e)).toNat, fun _ => val (unravel4 w.dst e)⟩

/-- What the threads of a packed node do to the words of the destination's buffer. -/
def Packed.threads (packed : Packed) (node : Node) (s0 s1 : Words) :
    Thread packed.gx packed.gy → Option (Update ℕ UInt32) :=
  if is16 node.dst.type then entry16 packed.slot (packed.kernel.val packed.slot s0 s1)
  else entry32 packed.slot (packed.kernel.val packed.slot s0 s1)

/-- Element `n` of a tensor in ggml's order, in elements from the start of the buffer. -/
def Tensor.nth (t : Tensor) (n : ℕ) : ℕ := t.element (unravel t.ne n)

/-- No two elements of a tensor share an address. -/
def Tensor.Apart (t : Tensor) : Prop :=
  ∀ ⦃i j : Fin 4 → ℕ⦄, t.Holds i → t.Holds j → t.element i = t.element j → i = j

/-- The number of an element has a thread: in iteration order it is below ggml's count. -/
def Tensor.Visited (t : Tensor) (j : Fin 4 → ℕ) : Prop :=
  t.Holds j ∧ linear t.order.ne (fun k => j (t.order.perm k)) < t.nelements

/-- Where ggml's count is exact, every element has a thread. -/
theorem Tensor.visited_of_count {t : Tensor} (exact : t.nelements = t.count) {j : Fin 4 → ℕ}
    (inside : t.Holds j) : t.Visited j := by
  refine ⟨inside, ?_⟩
  have volume : ∏ k, t.order.ne k = t.count := (orderOf_bijective t.ne t.stride).prod_comp t.ne
  rw [exact, ← volume]
  exact linear_lt fun k => inside _

/-- Element numbers are apart where the elements are. -/
theorem Tensor.Apart.nth_inj {t : Tensor} (apart : t.Apart) (pos : ∀ k, 0 < t.ne k) {m n : ℕ}
    (less : m < t.count) (less' : n < t.count) (same : t.nth m = t.nth n) : m = n := by
  have equal := apart (fun k => unravel_lt pos less k) (fun k => unravel_lt pos less' k) same
  rw [← linear_unravel t.ne m, equal, linear_unravel]

/-- A tensor whose elements are apart has no more of them than its buffer. -/
theorem Tensor.Apart.count_le {t : Tensor} {b : Block} (apart : t.Apart) (holds : b.Of t)
    (pos : ∀ k, 0 < t.ne k) : t.count ≤ 2 ^ 31 := by
  have few : (Finset.range t.count).card ≤ (Finset.range (2 ^ 31)).card := by
    refine Finset.card_le_card_of_injOn t.nth (fun n member => ?_) fun m member n member' same => ?_
    · exact Finset.mem_range.2
        (holds.element_lt fun k => unravel_lt pos (Finset.mem_range.1 member) k)
    · exact apart.nth_inj pos (Finset.mem_range.1 member) (Finset.mem_range.1 member') same
  rwa [Finset.card_range, Finset.card_range] at few

/-- It is short in each dimension. -/
theorem Tensor.Apart.ne_le {t : Tensor} {b : Block} (apart : t.Apart) (holds : b.Of t)
    (pos : ∀ k, 0 < t.ne k) (k : Fin 4) : t.ne k ≤ 2 ^ 31 :=
  (Nat.le_of_dvd (Finset.prod_pos fun k _ => pos k)
    (Finset.dvd_prod_of_mem t.ne (Finset.mem_univ k))).trans (apart.count_le holds pos)

/-- ggml counts its elements exactly. -/
theorem Tensor.Apart.nelements_eq {t : Tensor} {b : Block} (apart : t.Apart) (holds : b.Of t)
    (pos : ∀ k, 0 < t.ne k) : t.nelements = t.count :=
  t.nelements_eq_count ((apart.count_le holds pos).trans_lt (by decide))

/-- A tensor whose element numbers are apart has its elements apart. -/
theorem Tensor.apart_of_nth {t : Tensor}
    (distinct : ∀ m < t.count, ∀ n < t.count, t.nth m = t.nth n → m = n) : t.Apart := by
  intro i j inside inside' same
  rw [← unravel_linear inside, ← unravel_linear inside', distinct _ (linear_lt inside) _
    (linear_lt inside') (by rwa [Tensor.nth, Tensor.nth, unravel_linear, unravel_linear] <;>
      assumption)]

section Contiguous

variable {t : Tensor}

/-- `ggml_is_contiguous`: each stride spans the dimensions below it, in 64 bits. -/
def contiguous (t : Tensor) : Bool :=
  decide (∀ k, t.ne k = 1 ∨ t.nb k = t.type.size * linearWeight t k % 2 ^ 64)

/-- The strides that `ggml_new_tensor` gives, in 64 bits. -/
structure Tensor.Fresh (t : Tensor) : Prop where
  first : t.nb 0 = t.type.size
  next : ∀ k : Fin 3, t.nb k.succ = t.nb k.castSucc * t.ne k.castSucc % 2 ^ 64

/-- A new tensor is contiguous. -/
theorem Tensor.Fresh.contiguous (fresh : t.Fresh) : contiguous t = true := by
  have zero : t.nb 0 = t.type.size * linearWeight t 0 % 2 ^ 64 := by
    rw [fresh.first, linearWeight, Nat.mul_one]
    cases t.type <;> rfl
  have one : t.nb 1 = t.type.size * linearWeight t 1 % 2 ^ 64 := by
    rw [show t.nb 1 = _ from fresh.next 0]
    exact congrArg (· * t.ne 0 % 2 ^ 64) fresh.first
  have two : t.nb 2 = t.type.size * linearWeight t 2 % 2 ^ 64 := by
    rw [show t.nb 2 = _ from fresh.next 1]
    change t.nb 1 * t.ne 1 % 2 ^ 64 = _
    rw [one, Nat.mod_mul_mod, Nat.mul_assoc]
    rfl
  have three : t.nb 3 = t.type.size * linearWeight t 3 % 2 ^ 64 := by
    rw [show t.nb 3 = _ from fresh.next 2]
    change t.nb 2 * t.ne 2 % 2 ^ 64 = _
    rw [two, Nat.mod_mul_mod, Nat.mul_assoc]
    rfl
  refine decide_eq_true fun k => .inr ?_
  fin_cases k <;> assumption

/-- Inside a buffer the strides of a contiguous tensor are exact. -/
theorem nb_of_contiguous (dense : contiguous t = true) (pos : ∀ k, 0 < t.ne k) (k : Fin 4) :
    t.ne k = 1 ∨ t.nb k = t.type.size * linearWeight t k := by
  have strides := of_decide_eq_true dense
  -- the bytes up to the end of a dimension span that dimension
  have step : ∀ {n nb span bytes : ℕ}, 0 < n → (n = 1 ∨ nb = span % 2 ^ 64) → span ≤ bytes →
      bytes + (n - 1) * nb ≤ maxBufferBytes → span * n ≤ bytes + (n - 1) * nb := by
    intro n nb span bytes positive stride spans fits
    rcases stride with rfl | stride
    · omega
    · simp only [maxBufferBytes] at fits
      rw [Nat.mod_eq_of_lt (by omega)] at stride
      obtain ⟨rest, rfl⟩ := Nat.exists_eq_add_of_le' positive
      rw [stride, Nat.add_sub_cancel, Nat.mul_succ, Nat.mul_comm span]
      omega
  have inside := t.inside
  rw [Fin.sum_univ_four] at inside
  have one := step (pos 0) (strides 0) (by simp only [linearWeight]; omega)
    (show t.type.size + (t.ne 0 - 1) * t.nb 0 ≤ _ by omega)
  simp only [linearWeight, Nat.mul_one] at one
  have two := step (pos 1) (strides 1) one (by omega)
  simp only [linearWeight, Nat.mul_assoc] at two
  have three := step (pos 2) (strides 2) (by simpa only [linearWeight, Nat.mul_assoc] using two)
    (by omega)
  simp only [linearWeight, Nat.mul_assoc] at three
  have small : t.type.size * linearWeight t k ≤ maxBufferBytes := by
    fin_cases k <;> simp only [linearWeight, Nat.mul_assoc] <;> omega
  simp only [maxBufferBytes] at small
  have stride := strides k
  rwa [Nat.mod_eq_of_lt (by omega)] at stride

/-- The elements of a contiguous tensor follow one another. -/
theorem element_of_contiguous (dense : contiguous t = true) (pos : ∀ k, 0 < t.ne k)
    {i : Fin 4 → ℕ} (inside : t.Holds i) :
    t.element i = t.offset / t.type.size + linear t.ne i := by
  have size : 0 < t.type.size := by
    have := t.type.two_le_size
    omega
  have terms : ∀ k, i k * t.stride k = i k * linearWeight t k := by
    intro k
    rcases nb_of_contiguous dense pos k with single | stride
    · have := inside k
      have zero : i k = 0 := by omega
      rw [zero, Nat.zero_mul, Nat.zero_mul]
    · unfold Tensor.stride
      rw [stride, Nat.mul_div_cancel_left _ size]
  unfold Tensor.element linear
  rw [Finset.sum_congr rfl fun k _ => terms k, Fin.sum_univ_four]
  simp only [linearWeight]
  ring

/-- They are apart. -/
theorem apart_of_contiguous (dense : contiguous t = true) (pos : ∀ k, 0 < t.ne k) : t.Apart := by
  intro i j inside inside' same
  rw [element_of_contiguous dense pos inside, element_of_contiguous dense pos inside',
    Nat.add_left_cancel_iff] at same
  rw [← unravel_linear inside, same, unravel_linear inside']

end Contiguous

/-- Element `n` of a copy: element `n` of the source, in the destination's type. -/
def copied (src dst : Tensor) (s0 : Words) (n : ℕ) : UInt32 :=
  conv src.type.kind dst.type.kind (src.type.kind.read s0 (src.nth n))

/-- Every element of the destination that the source has too is written, and by copies of that
element only. -/
def CopiesOnly (src dst : Tensor) : Prop :=
  ∀ n < dst.count, n < src.count → (∃ i, dst.Visited i ∧ dst.element i = dst.nth n) ∧
    ∀ i, dst.Visited i → dst.element i = dst.nth n → copySource src dst i = src.nth n

section Grid

variable {packed : Packed} {count : ℕ}

/-- A thread's element is its number, cut to a word. -/
theorem Packed.Grid.toNat_element (grid : packed.Grid count)
    (thread : Thread packed.gx packed.gy) :
    (element packed.slot thread).toNat =
      ((thread.gidY.val * packed.gx + thread.gidX.val) * threadgroup + thread.lid.val) % 2 ^ 32 := by
  have group : (256 : UInt32).toNat = threadgroup := rfl
  simp only [element, grid.groupsX, UInt32.toNat_add, UInt32.toNat_mul, UInt32.toNat_ofNat', group]
  simp only [Nat.add_mod, Nat.mul_mod, Nat.mod_mod]

/-- Every element below the count has a thread. -/
theorem Packed.Grid.exists_thread (grid : packed.Grid count) {e : ℕ} (less : e < count) :
    ∃ thread : Thread packed.gx packed.gy, (element packed.slot thread).toNat = e := by
  have fits := grid.fits
  have group : e / threadgroup < packed.gy * packed.gx :=
    Nat.div_lt_of_lt_mul (by rw [Nat.mul_comm]; exact less.trans_le grid.covers)
  have columns : 0 < packed.gx := Nat.pos_of_ne_zero fun zero => by simp [zero] at group
  refine ⟨⟨⟨e / threadgroup / packed.gx, Nat.div_lt_of_lt_mul (by rwa [Nat.mul_comm])⟩,
    ⟨e / threadgroup % packed.gx, Nat.mod_lt _ columns⟩,
    ⟨e % threadgroup, Nat.mod_lt _ (by decide)⟩⟩, ?_⟩
  rw [grid.toNat_element]
  simp only [maxWord] at fits
  simp only
  rw [Nat.div_add_mod', Nat.div_add_mod', Nat.mod_eq_of_lt (by omega)]

end Grid

section Store

variable {packed : Packed} {dst : Tensor} {s0 s1 : Words} {value : (Fin 4 → ℕ) → UInt32}

/-- The words that a packed node runs under: its destination in iteration order, and the value of
each of its indices. -/
structure Stores (packed : Packed) (dst : Tensor) (s0 s1 : Words) (value : (Fin 4 → ℕ) → UInt32) :
    Prop where
  pos : ∀ k, 0 < dst.ne k
  ne : ∀ k, (packed.slot.dst.ne k).toNat = dst.ne (dst.order.perm k)
  off4 : ∀ {i : Index} {j : Fin 4 → ℕ}, dst.Holds j →
    (∀ k, numbers i k = j (dst.order.perm k)) → (off4 packed.slot.dst i).toNat = dst.element j
  val : ∀ {j : Fin 4 → ℕ}, dst.Holds j →
    packed.kernel.val packed.slot s0 s1 (index fun k => j (dst.order.perm k)) = value j
  grid : packed.Grid dst.nelements

variable (stores : Stores packed dst s0 s1 value)

include stores

/-- The extents in iteration order hold as many elements. -/
theorem Stores.volume : ∏ k, (packed.slot.dst.ne k).toNat = dst.count := by
  simp only [stores.ne]
  exact (orderOf_bijective dst.ne dst.stride).prod_comp dst.ne

/-- The index of an element below ggml's count is one of the destination in iteration order. -/
theorem Stores.exists_index {e : UInt32} (less : e.toNat < dst.nelements) :
    ∃ j, dst.Visited j ∧ ∀ k, numbers (unravel4 packed.slot.dst e) k = j (dst.order.perm k) := by
  obtain ⟨back, left, right⟩ :=
    Function.bijective_iff_has_inverse.mp (orderOf_bijective dst.ne dst.stride)
  have extents : (fun k => (packed.slot.dst.ne k).toNat) = dst.order.ne := funext stores.ne
  have inside := unravel_lt (fun k => by rw [stores.ne]; exact stores.pos _)
    (less.trans_le (dst.nelements_le_count.trans_eq stores.volume.symm))
  have from_j : ∀ k, unravel dst.order.ne e.toNat (back (dst.order.perm k)) =
      unravel dst.order.ne e.toNat k := fun k => congrArg _ (left k)
  rw [extents] at inside
  rw [numbers_unravel4, extents]
  refine ⟨fun k => unravel dst.order.ne e.toNat (back k), ⟨fun k => ?_, ?_⟩,
    fun k => (from_j k).symm⟩
  · have below := inside (back k)
    rwa [stores.ne, show dst.order.perm (back k) = k from right k] at below
  · rw [funext from_j, linear_unravel]
    exact less

/-- An index that has a thread is that of an element below the count. -/
theorem Stores.exists_element {j : Fin 4 → ℕ} (visited : dst.Visited j) :
    ∃ e < dst.nelements, ∀ word : UInt32, word.toNat = e →
      ∀ k, numbers (unravel4 packed.slot.dst word) k = j (dst.order.perm k) := by
  have extents : (fun k => (packed.slot.dst.ne k).toNat) = dst.order.ne := funext stores.ne
  refine ⟨_, visited.2, fun word word_eq k => ?_⟩
  have inside : ∀ k, j (dst.order.perm k) < dst.order.ne k := fun k => visited.1 _
  rw [numbers_unravel4, extents, word_eq, unravel_linear inside]

/-- A thread of an index writes the value there. -/
theorem Stores.entry32_at {thread : Thread packed.gx packed.gy} {j : Fin 4 → ℕ}
    (inside : dst.Holds j)
    (from_j : ∀ k, numbers (unravel4 packed.slot.dst (element packed.slot thread)) k =
      j (dst.order.perm k))
    (below : (element packed.slot thread).toNat < dst.nelements) :
    entry32 packed.slot (packed.kernel.val packed.slot s0 s1) thread =
      some ⟨dst.element j, fun _ => value j⟩ := by
  have runs : ¬ packed.slot.threads ≤ element packed.slot thread := by
    rw [UInt32.le_iff_toNat_le, stores.grid.threads, toNat_ofNat stores.grid.fits]
    omega
  have index_eq : unravel4 packed.slot.dst (element packed.slot thread) =
      index fun k => j (dst.order.perm k) := by
    rw [← index_numbers (unravel4 _ _)]
    exact congrArg index (funext from_j)
  rw [entry32, if_neg runs, stores.off4 inside from_j, index_eq, stores.val inside]

/-- Every write is of an index that has a thread, to its address. -/
theorem Stores.index_of_entry32 {thread : Thread packed.gx packed.gy} {update : Update ℕ UInt32}
    (doing : entry32 packed.slot (packed.kernel.val packed.slot s0 s1) thread = some update) :
    ∃ j, dst.Visited j ∧ update = ⟨dst.element j, fun _ => value j⟩ := by
  have below : (element packed.slot thread).toNat < dst.nelements := by
    by_contra past
    have returns : packed.slot.threads ≤ element packed.slot thread := by
      rw [UInt32.le_iff_toNat_le, stores.grid.threads, toNat_ofNat stores.grid.fits]
      omega
    rw [entry32, if_pos returns] at doing
    cases doing
  obtain ⟨j, visited, from_j⟩ := stores.exists_index below
  rw [stores.entry32_at visited.1 from_j below, Option.some.injEq] at doing
  exact ⟨j, visited, doing.symm⟩

/-- Every index that has a thread is written, to its address. -/
theorem Stores.entry32_of_index {j : Fin 4 → ℕ} (visited : dst.Visited j) :
    ∃ thread : Thread packed.gx packed.gy,
      entry32 packed.slot (packed.kernel.val packed.slot s0 s1) thread =
        some ⟨dst.element j, fun _ => value j⟩ := by
  obtain ⟨e, below, from_j⟩ := stores.exists_element visited
  obtain ⟨thread, element_eq⟩ := stores.grid.exists_thread below
  exact ⟨thread, stores.entry32_at visited.1 (from_j _ element_eq) (element_eq ▸ below)⟩

/-- However the threads interleave, an address ends with a word just where some index that has a
thread lies there, and every such index has that word for its value. -/
theorem Stores.ends_with_iff {address : ℕ} {word : UInt32} :
    (∀ (buf : Words) (schedule : List (Thread packed.gx packed.gy)),
        (∀ thread, 2 ≤ schedule.count thread) →
          (run (entry32 packed.slot (packed.kernel.val packed.slot s0 s1)) schedule buf).cells
            address = word) ↔
      (∃ i, dst.Visited i ∧ dst.element i = address) ∧
        ∀ i, dst.Visited i → dst.element i = address → value i = word := by
  have constant : ∀ (thread : Thread packed.gx packed.gy) (update : Update ℕ UInt32),
      entry32 packed.slot (packed.kernel.val packed.slot s0 s1) thread = some update →
        ∀ old old', update.make old = update.make old' := by
    intro thread update doing old old'
    obtain ⟨i, -, rfl⟩ := stores.index_of_entry32 doing
    rfl
  have : Nontrivial UInt32 := ⟨0, 1, by decide⟩
  rw [OwnedCells.ends_with_iff mem_threadsOf constant]
  constructor
  · rintro ⟨⟨thread, update, doing, owns⟩, agreed⟩
    obtain ⟨i, visited, rfl⟩ := stores.index_of_entry32 doing
    refine ⟨⟨i, visited, owns⟩, fun i visited owns => ?_⟩
    obtain ⟨thread, doing⟩ := stores.entry32_of_index visited
    exact agreed thread _ doing owns 0
  · rintro ⟨⟨i, visited, owns⟩, agreed⟩
    obtain ⟨thread, doing⟩ := stores.entry32_of_index visited
    refine ⟨⟨thread, _, doing, owns⟩, fun thread update doing owns old => ?_⟩
    obtain ⟨i, visited, rfl⟩ := stores.index_of_entry32 doing
    exact agreed i visited owns

end Store

section Copy

variable {src dst : Tensor} {packed : Packed}

/-- The words that a packed copy runs under. -/
structure Copies (packed : Packed) (src dst : Tensor) : Prop where
  pos : ∀ k, 0 < dst.ne k
  ne : ∀ k, (packed.slot.dst.ne k).toNat = dst.ne (dst.order.perm k)
  off4 : ∀ {i : Index} {j : Fin 4 → ℕ}, dst.Holds j →
    (∀ k, numbers i k = j (dst.order.perm k)) → (off4 packed.slot.dst i).toNat = dst.element j
  val : ∀ (s0 s1 : Words) {j : Fin 4 → ℕ}, dst.Holds j →
    packed.kernel.val packed.slot s0 s1 (index fun k => j (dst.order.perm k)) =
      conv src.type.kind dst.type.kind (src.type.kind.read s0 (copySource src dst j))
  grid : packed.Grid dst.nelements
  source : packed.slot.src0.Of src
  source_pos : ∀ k, 0 < src.ne k
  same : src.nelements = dst.nelements

/-- A packed copy runs under such words. -/
theorem copies_of_pack (packs : Node.pack ⟨dst, .cpy src⟩ = some packed) :
    Copies packed src dst := by
  obtain ⟨supports, kernel, w, runs, kernel_eq, holds, sources, done⟩ := pack_spec packs
  obtain ⟨-, -, dst_eq, -, ordered, grid⟩ := packOp_spec done
  have order := order_of_filled holds
  rw [order] at dst_eq
  obtain ⟨src0, linW⟩ := ordered
  rw [order] at linW
  have bijective := orderOf_bijective dst.ne dst.stride
  simp only [Node.supports, Bool.and_eq_true, beq_iff_eq] at supports
  obtain ⟨⟨⟨⟨-, same⟩, fits⟩, fits_src⟩, -⟩ := supports
  exact {
    pos := Tensor.pos_of_fits fits
    ne := fun k => by
      rw [dst_eq]
      exact holds.ne _
    off4 := fun inside from_j => by
      rw [dst_eq]
      exact holds.toNat_off4_permute bijective inside from_j
    val := fun s0 s1 j _ => by
      rw [kernel_eq]
      exact cpy_val runs fun s d => cpy_eq s0 sources bijective j s d src0 linW
    grid := grid
    source := src0 ▸ sources
    source_pos := Tensor.pos_of_fits fits_src
    same := same }

/-- They store what its threads find in the source. -/
theorem Copies.stores (copies : Copies packed src dst) (s0 s1 : Words) :
    Stores packed dst s0 s1 fun j =>
      conv src.type.kind dst.type.kind (src.type.kind.read s0 (copySource src dst j)) :=
  ⟨copies.pos, copies.ne, copies.off4, copies.val s0 s1, copies.grid⟩

/-- A destination whose elements are apart is copied element by element. -/
theorem Copies.copiesOnly {b : Block} (copies : Copies packed src dst) (holds : b.Of dst)
    (apart : dst.Apart) : CopiesOnly src dst := by
  have exact_count := apart.nelements_eq holds copies.pos
  have few := apart.count_le holds copies.pos
  intro n less less'
  have there : dst.Holds (unravel dst.ne n) := fun k => unravel_lt copies.pos less k
  refine ⟨⟨_, Tensor.visited_of_count exact_count there, rfl⟩, fun i visited same => ?_⟩
  obtain rfl : i = unravel dst.ne n := apart visited.1 there same
  have source := @copySource_eq src dst _ copies.source copies.source_pos (unravel dst.ne n)
  rw [linear_unravel] at source
  exact source (by omega) less'

end Copy

/-! ## Every packed copy -/

section Reshapes

variable {src dst : Tensor} {packed : Packed}

/-- However the threads interleave, element `n` of the destination is a copy of element `n` of the
source. -/
def Reshapes (packed : Packed) (src dst : Tensor) : Prop :=
  ∀ (s0 s1 buf : Words) (schedule : List (Thread packed.gx packed.gy)),
    (∀ thread, 2 ≤ schedule.count thread) → ∀ n < dst.count, n < src.count →
      dst.type.kind.read (run (packed.threads ⟨dst, .cpy src⟩ s0 s1) schedule buf).cells
        (dst.nth n) = copied src dst s0 n

/-- The elements of a packed 16-bit destination are apart. -/
theorem apart_of_sixteen {node : Node} (sixteen : is16 node.dst.type = true)
    (packs : node.pack = some packed) : node.dst.Apart := by
  intro i j inside inside' same
  obtain ⟨supports, kernel, w, -, -, holds, -, done⟩ := pack_spec packs
  obtain ⟨l, -, -, address, into, -⟩ := exists_layout supports sixteen holds done
  have index_eq := (l.address_inj (into _ inside) (into _ inside')).mp
    (((address _).trans same).trans (address _).symm)
  have surjective := (orderOf_bijective node.dst.ne node.dst.stride).surjective
  funext k
  obtain ⟨k, rfl⟩ := surjective k
  exact congrFun index_eq k

/-- A 32-bit element is a word. -/
theorem read_word {type : GgmlType} (narrow : ¬ is16 type = true) (buf : Words) (e : ℕ) :
    type.kind.read buf e = buf e := by
  revert narrow
  cases type <;> intro narrow <;> first | rfl | exact absurd (by decide) narrow

/-- A 16-bit element is half a word. -/
theorem read_half {type : GgmlType} (sixteen : is16 type = true) (buf : Words) (e : ℕ) :
    type.kind.read buf e = half buf e := by
  revert sixteen
  cases type <;> intro sixteen <;> first | rfl | exact absurd sixteen (by decide)

/-- A buffer tells two elements of any kind apart. -/
theorem exists_read_ne (kind : Kind) {a b : ℕ} (differ : a ≠ b) :
    ∃ buf : Words, kind.read buf a = 1 ∧ kind.read buf b = 0 := by
  have whole : ∃ buf : Words, buf a = 1 ∧ buf b = 0 :=
    ⟨fun e => if e = a then 1 else 0, if_pos rfl, if_neg (Ne.symm differ)⟩
  have halves : ∃ buf : Words, half buf a = 1 ∧ half buf b = 0 := by
    refine ⟨fun word => if word = a / 2 then if a % 2 = 0 then 1 else 65536 else 0, ?_, ?_⟩
    · rcases Nat.mod_two_eq_zero_or_one a with even | odd
      · simp [half, even]
        rfl
      · simp [half, odd]
        rfl
    · by_cases word : b / 2 = a / 2
      · rcases Nat.mod_two_eq_zero_or_one a with even | odd
        · have other : b % 2 = 1 := by omega
          simp [half, word, even, other]
          rfl
        · have other : b % 2 = 0 := by omega
          simp [half, word, odd, other]
          rfl
      · simp [half, word]
  cases kind with
  | b32 => exact whole
  | f32 => exact whole
  | b16 => exact halves
  | f16 => exact halves
  | bf16 => exact halves

/-- A copy of either of two elements to a 32-bit destination shows which one it was. -/
theorem exists_copied_ne (narrow : ¬ is16 dst.type = true) {a b : ℕ} (differ : a ≠ b) :
    ∃ s0 : Words, conv src.type.kind dst.type.kind (src.type.kind.read s0 a) ≠
      conv src.type.kind dst.type.kind (src.type.kind.read s0 b) := by
  obtain ⟨s0, one, zero⟩ := exists_read_ne src.type.kind differ
  refine ⟨s0, ?_⟩
  rw [one, zero]
  revert narrow
  cases src.type <;> cases dst.type <;> intro narrow <;>
    first
    | decide
    | exact absurd (by decide) narrow

/-- For every copy that is supported and packed, element `n` of the destination is a copy of element
`n` of the source, for every `n`, exactly when every element of the destination is written and only
by copies of its own element. A 16-bit destination is such, and so is every destination whose
elements are apart. -/
theorem copy_reshapes_iff (packs : Node.pack ⟨dst, .cpy src⟩ = some packed) :
    (Reshapes packed src dst ↔ CopiesOnly src dst) ∧
      (is16 dst.type = true ∨ dst.Apart → CopiesOnly src dst) := by
  have copies := copies_of_pack packs
  obtain ⟨-, -, w, -, -, holds, -⟩ := pack_spec packs
  refine ⟨?_, fun kept => copies.copiesOnly holds
    (kept.elim (fun sixteen => @apart_of_sixteen packed ⟨dst, .cpy src⟩ sixteen packs) id)⟩
  cases sixteen : is16 dst.type with
  | true =>
    have apart := @apart_of_sixteen packed ⟨dst, .cpy src⟩ sixteen packs
    refine iff_of_true (fun s0 s1 buf schedule complete n less less' => ?_)
      (copies.copiesOnly holds apart)
    have inside : dst.Holds (unravel dst.ne n) := fun k => unravel_lt copies.pos less k
    rw [read_half sixteen, Packed.threads, if_pos sixteen, Tensor.nth,
      half_of_packed sixteen packs s0 s1 buf complete inside, Node.value, linear_unravel, copied,
      Tensor.nth]
  | false =>
    have narrow : ¬ is16 dst.type = true := by simp [sixteen]
    have stored (s0 s1 : Words) (n : ℕ) :=
      @Stores.ends_with_iff _ _ _ _ _ (copies.stores s0 s1) (dst.nth n) (copied src dst s0 n)
    constructor
    · intro reshapes n less less'
      have written (s0 : Words) := (stored s0 s0 n).mp fun buf schedule complete => by
        have done := reshapes s0 s0 buf schedule complete n less less'
        rwa [read_word narrow, Packed.threads, if_neg narrow] at done
      refine ⟨(written fun _ => 0).1, fun i visited same => ?_⟩
      by_contra differ
      obtain ⟨s0, shows⟩ := @exists_copied_ne src dst narrow _ _ differ
      exact shows ((written s0).2 i visited same)
    · intro only s0 s1 buf schedule complete n less less'
      obtain ⟨written, agreed⟩ := only n less less'
      rw [read_word narrow, Packed.threads, if_neg narrow]
      refine (stored s0 s1 n).mpr ⟨written, fun i visited same => ?_⟩ buf schedule complete
      rw [agreed i visited same, copied]

theorem two_three_lt : ∀ k, (![2, 3, 1, 1] : Fin 4 → ℕ) k < 2 ^ 63 := by decide

/-- A 2 × 3 tensor, transposed in memory. -/
def transposed : Tensor where
  type := .f32
  ne := ![2, 3, 1, 1]
  nb := ![12, 4, 24, 24]
  offset := 0
  inside := by decide
  ne_lt := two_three_lt

/-- A row of six elements. -/
def row : Tensor where
  type := .f32
  ne := ![6, 1, 1, 1]
  nb := ![4, 24, 24, 24]
  offset := 8
  inside := by decide

/-- The transposed tensor is copied to the row in its own element order. -/
theorem transposed_reshapes :
    ∃ packed, Node.pack ⟨row, .cpy transposed⟩ = some packed ∧ Reshapes packed transposed row := by
  obtain ⟨packed, packs⟩ := Option.isSome_iff_exists.mp
    (show (Node.pack ⟨row, .cpy transposed⟩).isSome = true by decide +kernel)
  obtain ⟨reshapes, apart⟩ := copy_reshapes_iff packs
  have distinct : ∀ m < 6, ∀ n < 6, row.nth m = row.nth n → m = n := by
    decide +kernel
  exact ⟨packed, packs, reshapes.mpr (apart (.inr (Tensor.apart_of_nth distinct)))⟩

/-- Two elements that share one address. -/
def shared : Tensor where
  type := .f32
  ne := ![1, 2, 1, 1]
  nb := ![4, 0, 0, 0]
  offset := 0
  inside := by decide

theorem two_ones_lt : ∀ k, (![2, 1, 1, 1] : Fin 4 → ℕ) k < 2 ^ 63 := by decide

/-- Two elements, one after the other. -/
def pair : Tensor where
  type := .f32
  ne := ![2, 1, 1, 1]
  nb := ![4, 8, 8, 8]
  offset := 0
  inside := by decide
  ne_lt := two_ones_lt

/-- A supported copy of two elements to one address keeps one of them. -/
theorem shared_address_keeps_one :
    ∃ packed, Node.pack ⟨shared, .cpy pair⟩ = some packed ∧ ¬ Reshapes packed pair shared := by
  obtain ⟨packed, packs⟩ := Option.isSome_iff_exists.mp
    (show (Node.pack ⟨shared, .cpy pair⟩).isSome = true by decide +kernel)
  refine ⟨packed, packs, fun reshapes => ?_⟩
  have first := reshapes (fun e => UInt32.ofNat e) (fun _ => 0) (fun _ => 0) _ two_le_count 0
    (by decide) (by decide)
  have second := reshapes (fun e => UInt32.ofNat e) (fun _ => 0) (fun _ => 0) _ two_le_count 1
    (by decide) (by decide)
  have address : shared.nth 1 = shared.nth 0 := by decide
  rw [address, first] at second
  exact absurd second (by decide)

end Reshapes

end DressOn.Ggml.Move
