import DressOn.Ggml.Layout

/-!
# Threads that share words

Two 16-bit elements share a word. Over a nested destination the threads of `entry16`
write distinct words, so in every interleaving each element ends with its own value
and the other halves of the words keep their bits.
-/

namespace DressOn.Ggml.Move

open OwnedCells

/-- Half-word `h` of a buffer. -/
def half (buf : Words) (h : ℕ) : UInt32 :=
  if h % 2 = 0 then buf (h / 2) &&& (65535 : UInt32) else buf (h / 2) >>> 16

section Halves

theorem toNat_and_low (old : UInt32) : (old &&& (65535 : UInt32)).toNat = old.toNat % 65536 := by
  rw [UInt32.toNat_and]
  exact Nat.and_two_pow_sub_one_eq_mod old.toNat 16

theorem toNat_shift_low (old : UInt32) : (old >>> 16 : UInt32).toNat = old.toNat / 65536 := by
  rw [UInt32.toNat_shiftRight, Nat.shiftRight_eq_div_pow]
  rfl

theorem toNat_and_high (old : UInt32) :
    (old &&& (4294901760 : UInt32)).toNat = old.toNat / 65536 * 65536 := by
  have mask : (4294901760 : UInt32).toNat = (2 ^ 16 - 1) <<< 16 := by decide
  have shifted : old.toNat / 65536 * 65536 = (old.toNat >>> 16) <<< 16 := by
    rw [Nat.shiftRight_eq_div_pow, Nat.shiftLeft_eq]
  rw [UInt32.toNat_and, mask, shifted]
  apply Nat.eq_of_testBit_eq
  intro bit
  simp only [Nat.testBit_and, Nat.testBit_shiftLeft, Nat.testBit_two_pow_sub_one,
    Nat.testBit_shiftRight]
  by_cases upper : 16 ≤ bit
  · have back : 16 + (bit - 16) = bit := by omega
    by_cases inside : bit < 32
    · simp [upper, back, show bit - 16 < 16 by omega]
    · have zero : old.toNat.testBit bit = false :=
        Nat.testBit_lt_two_pow (old.toNat_lt.trans_le (Nat.pow_le_pow_right (by omega) (by omega)))
      simp [upper, back, zero]
  · simp [upper]

/-- Halves below 2 ^ 16 are put together side by side. -/
theorem toNat_or_high {low high : UInt32} (small : low.toNat < 65536)
    (small' : high.toNat < 65536) :
    (low ||| (high <<< 16 : UInt32)).toNat = high.toNat * 65536 + low.toNat := by
  have shifted : (high <<< 16 : UInt32).toNat = 2 ^ 16 * high.toNat := by
    rw [UInt32.toNat_shiftLeft, Nat.shiftLeft_eq]
    simp only [UInt32.reduceToNat, Nat.reduceMod]
    omega
  rw [UInt32.toNat_or, shifted, Nat.lor_comm, ← Nat.two_pow_add_eq_or_of_lt small]
  omega

theorem toNat_keep_high {old low : UInt32} (small : low.toNat < 65536) :
    ((old &&& (4294901760 : UInt32)) ||| low).toNat = old.toNat / 65536 * 65536 + low.toNat := by
  rw [UInt32.toNat_or, toNat_and_high, Nat.mul_comm]
  exact (Nat.two_pow_add_eq_or_of_lt (i := 16) small (old.toNat / 65536)).symm

theorem toNat_and_one (e : UInt32) : (e &&& 1 : UInt32).toNat = e.toNat % 2 := by
  rw [UInt32.toNat_and]
  exact Nat.and_two_pow_sub_one_eq_mod e.toNat 1

theorem toNat_shift_one (e : UInt32) : (e >>> 1 : UInt32).toNat = e.toNat / 2 := by
  rw [UInt32.toNat_shiftRight, Nat.shiftRight_eq_div_pow]
  rfl

variable {buf : Words} {h : ℕ}

/-- A half-word as a number. -/
theorem toNat_half : (half buf h).toNat =
    if h % 2 = 0 then (buf (h / 2)).toNat % 65536 else (buf (h / 2)).toNat / 65536 := by
  rw [half]
  split
  · exact toNat_and_low _
  · exact toNat_shift_low _

/-- `ld16` reads a half-word. -/
theorem ld16_eq (buf : Words) (e : UInt32) : ld16 buf e = half buf e.toNat := by
  apply UInt32.toNat_inj.mp
  rw [toNat_half, ld16, toNat_and_low, toNat_shift_one]
  rcases Nat.mod_two_eq_zero_or_one e.toNat with even | odd
  · have low : (e &&& 1 : UInt32) = 0 := UInt32.toNat_inj.mp ((toNat_and_one e).trans even)
    rw [low, if_pos even]
    simp
  · have high : (e &&& 1 : UInt32) = 1 := UInt32.toNat_inj.mp ((toNat_and_one e).trans odd)
    have sixteen : (1 : UInt32) * 16 = 16 := rfl
    rw [high, sixteen, if_neg (by omega), toNat_shift_low, Nat.mod_eq_of_lt]
    have := (buf (e.toNat / 2)).toNat_lt
    omega

end Halves

section Unravel

variable (n : Fin 4 → ℕ)

/-- The index of an element, in numbers. -/
def unravel (e : ℕ) : Fin 4 → ℕ :=
  ![e % n 0, e / n 0 % n 1, e / n 0 / n 1 % n 2, e / n 0 / n 1 / n 2]

/-- The number of an element. -/
def linear (i : Fin 4 → ℕ) : ℕ := i 0 + n 0 * (i 1 + n 1 * (i 2 + n 2 * i 3))

theorem linear_unravel (e : ℕ) : linear n (unravel n e) = e := by
  simp only [linear, unravel, Matrix.cons_val_zero, Matrix.cons_val_one, Matrix.cons_val]
  rw [Nat.mod_add_div, Nat.mod_add_div, Nat.mod_add_div]

variable {n}

theorem unravel_linear {i : Fin 4 → ℕ} (inside : ∀ k, i k < n k) : unravel n (linear n i) = i := by
  have step : ∀ {low extent rest : ℕ}, low < extent →
      (low + extent * rest) % extent = low ∧ (low + extent * rest) / extent = rest :=
    fun {low extent rest} less => ⟨by rw [Nat.add_mul_mod_self_left, Nat.mod_eq_of_lt less],
      by rw [Nat.add_mul_div_left _ _ (by omega), Nat.div_eq_of_lt less, Nat.zero_add]⟩
  funext k
  fin_cases k <;> simp [unravel, linear, (step (inside 0)).1, (step (inside 0)).2,
    (step (inside 1)).1, (step (inside 1)).2, (step (inside 2)).1, (step (inside 2)).2]

theorem unravel_lt {e : ℕ} (pos : ∀ k, 0 < n k) (less : e < ∏ k, n k) (k : Fin 4) :
    unravel n e k < n k := by
  rw [Fin.prod_univ_four] at less
  have upper : e / n 0 / n 1 / n 2 < n 3 := by
    have below := Nat.mul_pos (Nat.mul_pos (pos 0) (pos 1)) (pos 2)
    rw [Nat.div_div_eq_div_mul, Nat.div_div_eq_div_mul, ← Nat.mul_assoc,
      Nat.div_lt_iff_lt_mul below, Nat.mul_comm]
    exact less
  fin_cases k
  · exact Nat.mod_lt _ (pos 0)
  · exact Nat.mod_lt _ (pos 1)
  · exact Nat.mod_lt _ (pos 2)
  · exact upper

theorem linear_lt {i : Fin 4 → ℕ} (inside : ∀ k, i k < n k) : linear n i < ∏ k, n k := by
  have carry : ∀ {low extent rest size : ℕ}, low < extent → rest < size →
      low + extent * rest < extent * size := by
    intro low extent rest size less less'
    calc low + extent * rest < extent * (rest + 1) := by rw [Nat.mul_succ]; omega
      _ ≤ extent * size := Nat.mul_le_mul_left _ less'
  rw [Fin.prod_univ_four, mul_assoc, mul_assoc]
  exact carry (inside 0) (carry (inside 1) (carry (inside 2) (inside 3)))

end Unravel

section Kernel

/-- The words of an index. -/
def index (i : Fin 4 → ℕ) : Index := fun k => UInt32.ofNat (i k)

/-- The index of some words, in numbers. -/
def numbers (i : Index) : Fin 4 → ℕ := fun k => (i k).toNat

@[simp] theorem index_numbers (i : Index) : index (numbers i) = i := by
  funext k
  exact UInt32.ofNat_toNat

theorem numbers_index {i : Fin 4 → ℕ} (small : ∀ k, i k < 2 ^ 32) : numbers (index i) = i := by
  funext k
  exact UInt32.toNat_ofNat_of_lt' (small k)

/-- `unravel4` in numbers. -/
theorem numbers_unravel4 (b : Block) (e : UInt32) :
    numbers (unravel4 b e) = unravel (fun k => (b.ne k).toNat) e.toNat := by
  funext k
  fin_cases k <;> simp [numbers, unravel4, unravel]

/-- `off4` in numbers, cut to a word. -/
theorem toNat_off4_mod (b : Block) (i : Index) :
    (off4 b i).toNat = (b.off.toNat + ∑ k, numbers i k * (b.nb k).toNat) % 2 ^ 32 := by
  rw [Fin.sum_univ_four]
  simp only [off4, UInt32.toNat_add, UInt32.toNat_mul, numbers]
  omega

/-- `off4` in numbers, where it does not wrap. -/
theorem toNat_off4 (b : Block) (i : Index)
    (fits : b.off.toNat + ∑ k, numbers i k * (b.nb k).toNat < 2 ^ 32) :
    (off4 b i).toNat = b.off.toNat + ∑ k, numbers i k * (b.nb k).toNat := by
  rw [toNat_off4_mod, Nat.mod_eq_of_lt fits]

variable {w : Slot} {l : Layout}

/-- A slot whose destination words are those of a layout. -/
structure Slot.Packs (w : Slot) (l : Layout) : Prop where
  ne : ∀ k, (w.dst.ne k).toNat = l.ne k
  nb : ∀ k, (w.dst.nb k).toNat = l.nb k
  off : w.dst.off.toNat = l.off
  merge : w.merge = l.mergeChain
  threads : w.threads.toNat = ∏ k, l.ne k

namespace Slot.Packs

variable (packs : w.Packs l)

include packs

/-- The index a thread unravels. -/
theorem numbers_unravel4 (e : UInt32) :
    numbers (unravel4 w.dst e) = unravel l.ne e.toNat := by
  rw [Move.numbers_unravel4]
  congr
  funext k
  exact packs.ne k

/-- The address a thread computes. -/
theorem toNat_off4 {i : Index} (inside : l.Holds (numbers i)) :
    (off4 w.dst i).toNat = l.address (numbers i) := by
  have reach := l.address_lt inside
  have same : w.dst.off.toNat + ∑ k, numbers i k * (w.dst.nb k).toNat = l.address (numbers i) := by
    rw [Layout.address, packs.off]
    simp only [packs.nb]
  rw [Move.toNat_off4 _ _ (by omega), same]

/-- What `hasPrev` looks for. -/
theorem hasPrev_iff (i : Index) : hasPrev w.merge i = true ↔
    ∃ k : Fin 4, mbit l.mergeChain k.val = true ∧ 0 < numbers i k := by
  rw [packs.merge, Fin.exists_fin_succ, Fin.exists_fin_succ, Fin.exists_fin_two]
  simp [hasPrev, numbers, UInt32.lt_iff_toNat_lt, or_assoc]

/-- The index the carry finds. -/
theorem nextIndex_eq {i : Index} (inside : l.Holds (numbers i)) :
    (nextIndex w.dst w.merge i).map numbers = l.next (numbers i) := by
  have room : ∀ k, (i k).toNat + 1 < 4294967296 := fun k => by
    have := inside k
    have := packs.ne k ▸ (w.dst.ne k).toNat_lt
    simp only [numbers] at *
    omega
  have below : ∀ k, i k + 1 < w.dst.ne k ↔ numbers i k + 1 < l.ne k := fun k => by
    simp [UInt32.lt_iff_toNat_lt, packs.ne, numbers, Nat.mod_eq_of_lt (room k)]
  rw [nextIndex, Layout.next, packs.merge]
  simp only [below]
  split_ifs <;> simp only [Option.map_some, Option.map_none, Option.some.injEq] <;> funext k <;>
    fin_cases k <;> simp [numbers, room]

end Slot.Packs

/-- What the thread of an index does. -/
def Layout.update (l : Layout) (val : Index → UInt32) (i : Fin 4 → ℕ) :
    Option (Update ℕ UInt32) :=
  if l.address i % 2 = 1 then
    if ∃ k : Fin 4, mbit l.mergeChain k.val = true ∧ 0 < i k then none
    else some ⟨l.address i / 2,
      fun old => (old &&& (65535 : UInt32)) ||| (val (index i) <<< 16 : UInt32)⟩
  else
    match l.next i with
    | some k => some ⟨l.address i / 2,
        fun _ => val (index i) ||| (val (index k) <<< 16 : UInt32)⟩
    | none => some ⟨l.address i / 2,
        fun old => (old &&& (4294901760 : UInt32)) ||| val (index i)⟩

/-- The grid of a dispatch has a thread for every element. -/
structure Slot.Covers (w : Slot) (l : Layout) (gx gy : ℕ) : Prop where
  groupsX : w.groupsX.toNat = gx
  covers : ∏ k, l.ne k ≤ gy * gx * threadgroup
  room : gy * gx * threadgroup ≤ 2 ^ 32

/-- `entry16` in numbers. -/
theorem Slot.Packs.entry16_eq {gx gy : ℕ} (packs : w.Packs l) (val : Index → UInt32)
    (thread : Thread gx gy) :
    entry16 w val thread =
      if ∏ k, l.ne k ≤ (element w thread).toNat then none
      else l.update val (unravel l.ne (element w thread).toNat) := by
  rw [entry16, Layout.update]
  simp only [UInt32.le_iff_toNat_le, packs.threads]
  split
  · rfl
  next less =>
    generalize named : unravel4 w.dst (element w thread) = i
    have numbers_eq : unravel l.ne (element w thread).toNat = numbers i := by
      rw [← named, packs.numbers_unravel4]
    have inside : l.Holds (numbers i) := by
      rw [← numbers_eq]
      exact unravel_lt l.pos (Nat.lt_of_not_le less)
    have address := packs.toNat_off4 inside
    have parity : off4 w.dst i &&& 1 ≠ 0 ↔ l.address (numbers i) % 2 = 1 := by
      rw [ne_eq, ← UInt32.toNat_inj, toNat_and_one, address]
      simp
    have carried := packs.nextIndex_eq inside
    simp only [numbers_eq, index_numbers, parity, packs.hasPrev_iff, toNat_shift_one, address]
    split
    · rfl
    · cases found : nextIndex w.dst w.merge i with
      | none => rw [← carried, found, Option.map_none]
      | some k =>
          rw [← carried, found, Option.map_some]
          simp only [index_numbers]

namespace Slot.Covers

variable {gx gy : ℕ} (covers : w.Covers l gx gy)

include covers

/-- A thread's element, where it does not wrap. -/
theorem toNat_element (thread : Thread gx gy) :
    (element w thread).toNat =
      (thread.gidY.val * gx + thread.gidX.val) * threadgroup + thread.lid.val := by
  obtain ⟨y, x, lane⟩ := thread
  have groupsX := covers.groupsX
  have room := covers.room
  have lane_lt := lane.isLt
  have row : y.val * gx + x.val + 1 ≤ gy * gx := by
    calc y.val * gx + x.val + 1 ≤ (y.val + 1) * gx := by rw [Nat.succ_mul]; have := x.isLt; omega
      _ ≤ gy * gx := Nat.mul_le_mul_right _ y.isLt
  have groups := Nat.mul_le_mul_right threadgroup row
  have column := x.isLt
  have cell : y.val ≤ y.val * gx := Nat.le_mul_of_pos_right _ (by omega)
  simp only [threadgroup] at *
  simp only [element, UInt32.toNat_add, UInt32.toNat_mul, groupsX, UInt32.reduceToNat,
    UInt32.toNat_ofNat']
  rw [Nat.mod_eq_of_lt (a := y.val) (by omega), Nat.mod_eq_of_lt (a := x.val) (by omega),
    Nat.mod_eq_of_lt (a := lane.val) (by omega)]
  omega

/-- Threads have distinct elements. -/
theorem element_inj {thread other : Thread gx gy}
    (same : (element w thread).toNat = (element w other).toNat) : thread = other := by
  rw [covers.toNat_element, covers.toNat_element] at same
  obtain ⟨y, x, lane⟩ := thread
  obtain ⟨y', x', lane'⟩ := other
  have := lane.isLt
  have := lane'.isLt
  simp only [threadgroup] at *
  have lanes : lane.val = lane'.val := by omega
  have rows : y.val * gx + x.val = y'.val * gx + x'.val := by omega
  have columns : x.val = x'.val := by
    simpa [Nat.mul_add_mod', Nat.mod_eq_of_lt] using congrArg (· % gx) rows
  rw [columns, Nat.add_right_cancel_iff] at rows
  have positive : 0 < gx := x.pos
  rw [Thread.mk.injEq]
  exact ⟨Fin.ext (Nat.eq_of_mul_eq_mul_right positive rows), Fin.ext columns, Fin.ext lanes⟩

/-- Every element has a thread. -/
theorem exists_thread {e : ℕ} (less : e < ∏ k, l.ne k) :
    ∃ thread : Thread gx gy, (element w thread).toNat = e := by
  have inside := less.trans_le covers.covers
  have row : e / threadgroup < gy * gx := Nat.div_lt_of_lt_mul (by rwa [Nat.mul_comm])
  have columns : 0 < gx := Nat.pos_of_ne_zero fun zero => by simp [zero] at row
  refine ⟨⟨⟨e / threadgroup / gx, Nat.div_lt_of_lt_mul (by rwa [Nat.mul_comm])⟩,
    ⟨e / threadgroup % gx, Nat.mod_lt _ columns⟩,
    ⟨e % threadgroup, Nat.mod_lt _ (by decide)⟩⟩, ?_⟩
  rw [covers.toNat_element]
  simp only
  rw [Nat.div_add_mod', Nat.div_add_mod']

end Slot.Covers

section Threads

variable {gx gy : ℕ} (packs : w.Packs l) (covers : w.Covers l gx gy) (val : Index → UInt32)

/-- A thread that writes owns the word of its address, and no element lies before an odd
one. -/
theorem Layout.update_some {i : Fin 4 → ℕ} {update : Update ℕ UInt32} (inside : l.Holds i)
    (doing : l.update val i = some update) :
    update.cell = l.address i / 2 ∧
      (l.address i % 2 = 1 → ∀ j, l.Holds j → l.address i ≠ l.address j + 1) := by
  rw [Layout.update] at doing
  split at doing
  next odd =>
    split at doing
    next => cases doing
    next first =>
      obtain rfl := Option.some.inj doing
      exact ⟨rfl, fun _ j inside' before =>
        first ((l.exists_address_succ_iff inside).mp ⟨j, inside', before⟩)⟩
  next even =>
    cases found : l.next i <;> rw [found] at doing <;> obtain rfl := Option.some.inj doing <;>
      exact ⟨rfl, fun odd => absurd odd even⟩

include packs in
/-- What a writing thread does, by the index of its element. -/
theorem Slot.Packs.entry16_some {thread : Thread gx gy} {update : Update ℕ UInt32}
    (doing : entry16 w val thread = some update) :
    ∃ i, l.Holds i ∧ linear l.ne i = (element w thread).toNat ∧
      l.update val i = some update := by
  rw [packs.entry16_eq] at doing
  split at doing
  next => cases doing
  next less =>
    exact ⟨_, unravel_lt l.pos (Nat.lt_of_not_le less), linear_unravel _ _, doing⟩

include packs covers in
/-- No two threads write the same word. -/
theorem raceFree_entry16 : RaceFree (entry16 w val : Thread gx gy → Option (Update ℕ UInt32)) := by
  intro thread other update update' doing doing' same
  obtain ⟨i, inside, linear_i, doing⟩ := packs.entry16_some val doing
  obtain ⟨j, inside', linear_j, doing'⟩ := packs.entry16_some val doing'
  obtain ⟨cell, first⟩ := l.update_some val inside doing
  obtain ⟨cell', first'⟩ := l.update_some val inside' doing'
  rw [cell, cell'] at same
  have equal : l.address i = l.address j := by
    by_contra differ
    rcases Nat.mod_two_eq_zero_or_one (l.address i) with even | odd
    · exact first' (by omega) i inside (by omega)
    · exact first odd j inside' (by omega)
  rw [(l.address_inj inside inside').mp equal] at linear_i
  exact covers.element_inj (linear_i.symm.trans linear_j)

include packs covers in
/-- The thread of an element does what its index says. -/
theorem exists_entry16 {i : Fin 4 → ℕ} (inside : l.Holds i) :
    ∃ thread : Thread gx gy, entry16 w val thread = l.update val i := by
  obtain ⟨thread, element_eq⟩ := covers.exists_thread (linear_lt inside)
  refine ⟨thread, ?_⟩
  rw [packs.entry16_eq, element_eq, if_neg (Nat.not_le.mpr (linear_lt inside)),
    unravel_linear inside]

variable {val} (small : ∀ i, (val i).toNat < 65536)

include small in
/-- The half of an element is written by the thread of its word's owner. -/
theorem Layout.exists_writer {i : Fin 4 → ℕ} (inside : l.Holds i) :
    ∃ j update, l.Holds j ∧ l.update val j = some update ∧ update.cell = l.address i / 2 ∧
      ∀ old, (if l.address i % 2 = 0 then (update.make old).toNat % 65536
        else (update.make old).toNat / 65536) = (val (index i)).toNat := by
  have own := small (index i)
  by_cases odd : l.address i % 2 = 1
  · by_cases before : ∃ k : Fin 4, mbit l.mergeChain k.val = true ∧ 0 < i k
    · -- the owner is the thread of the address before it
      obtain ⟨j, inside', neighbours⟩ := (l.exists_address_succ_iff inside).mpr before
      have even : ¬l.address j % 2 = 1 := by omega
      refine ⟨j, _, inside', by rw [update, if_neg even,
        (l.address_succ_iff inside' inside).mp neighbours], by dsimp only; omega, fun old => ?_⟩
      have other := small (index j)
      rw [if_neg (by omega), toNat_or_high other own]
      omega
    · refine ⟨i, _, inside, by rw [update, if_pos odd, if_neg before], rfl, fun old => ?_⟩
      rw [if_neg (by omega), toNat_or_high (by rw [toNat_and_low]; omega) own, toNat_and_low]
      omega
  · cases found : l.next i with
    | none =>
        refine ⟨i, _, inside, by rw [update, if_neg odd, found], rfl, fun old => ?_⟩
        rw [if_pos (by omega), toNat_keep_high own]
        omega
    | some k =>
        refine ⟨i, _, inside, by rw [update, if_neg odd, found], rfl, fun old => ?_⟩
        rw [if_pos (by omega), toNat_or_high own (small (index k))]
        omega

include small in
/-- A half that a thread does not own an element of keeps its bits. -/
theorem Layout.update_keeps {i : Fin 4 → ℕ} {update : Update ℕ UInt32} (inside : l.Holds i)
    (doing : l.update val i = some update) {h : ℕ} (cell : update.cell = h / 2)
    (free : ∀ j, l.Holds j → l.address j ≠ h) (old : UInt32) :
    (if h % 2 = 0 then (update.make old).toNat % 65536 else (update.make old).toNat / 65536) =
      if h % 2 = 0 then old.toNat % 65536 else old.toNat / 65536 := by
  have here := free i inside
  have own := small (index i)
  have old_lt := old.toNat_lt
  rw [(l.update_some val inside doing).1] at cell
  rw [Layout.update] at doing
  split at doing
  next odd =>
    split at doing
    next => cases doing
    next =>
      obtain rfl := Option.some.inj doing
      rw [if_pos (by omega), if_pos (by omega),
        toNat_or_high (by rw [toNat_and_low]; omega) own, toNat_and_low]
      omega
  next even =>
    cases found : l.next i with
    | none =>
        rw [found] at doing
        obtain rfl := Option.some.inj doing
        rw [if_neg (by omega), if_neg (by omega), toNat_keep_high own]
        omega
    | some k =>
        have inside' := l.holds_of_next inside found
        have neighbours := (l.address_succ_iff inside inside').mpr found
        have := free k inside'
        omega

variable {schedule : List (Thread gx gy)} (complete : ∀ thread, 2 ≤ schedule.count thread)
  (buf : Words)

include packs covers small complete in
/-- Every element ends with its own value. -/
theorem half_of_element {i : Fin 4 → ℕ} (inside : l.Holds i) :
    half (run (entry16 w val) schedule buf).cells (l.address i) = val (index i) := by
  obtain ⟨j, update, inside', doing, cell, made⟩ := l.exists_writer small inside
  obtain ⟨thread, does⟩ := exists_entry16 packs covers val inside'
  have written := run_cells_of_owner (raceFree_entry16 packs covers val) (does.trans doing)
    (complete thread) buf
  apply UInt32.toNat_inj.mp
  rw [toNat_half, ← cell, written]
  exact made _

include packs covers small complete in
/-- A half that is no element's keeps its bits. -/
theorem half_of_gap {h : ℕ} (free : ∀ i, l.Holds i → l.address i ≠ h) :
    half (run (entry16 w val) schedule buf).cells h = half buf h := by
  apply UInt32.toNat_inj.mp
  rw [toNat_half, toNat_half]
  by_cases owned : ∃ (thread : Thread gx gy) (update : _), entry16 w val thread = some update ∧ update.cell = h / 2
  · obtain ⟨thread, update, doing, cell⟩ := owned
    obtain ⟨i, inside, -, does⟩ := packs.entry16_some val doing
    have written := run_cells_of_owner (raceFree_entry16 packs covers val) doing
      (complete thread) buf
    rw [← cell, written]
    exact l.update_keeps small inside does cell free _
  · have unowned : ∀ thread update, entry16 w val thread = some update → update.cell ≠ h / 2 :=
      fun thread update doing cell => owned ⟨thread, update, doing, cell⟩
    rw [run_cells_of_unowned unowned schedule buf]

end Threads

end Kernel

end DressOn.Ggml.Move
