import DressOn.Ggml.MoveKernels
import DressOn.Lib.NestedAxes
import Mathlib.Algebra.Order.BigOperators.Group.Finset
import Mathlib.Tactic.FinCases

/-!
# Nested destinations

A destination in iteration order is a nested list of axes followed by dimensions of
one index. The merge chain marks the axes over which the next address is a carry.
-/

namespace DressOn.Ggml.Move

open NestedAxes

/-- A destination in iteration order, as the packing accepts it. -/
structure Layout extends Order where
  off : ℕ
  few : nontrivial ≤ 4
  pos : ∀ k, 0 < ne k
  inner : ∀ k : Fin 4, k.val < nontrivial ↔ 1 < ne k
  isNested : toOrder.nested = true
  reach : off + ∑ k, (ne k - 1) * nb k < 2 ^ 31

namespace Layout

variable (l : Layout) {i j : Fin 4 → ℕ}

/-- An index inside the extents. -/
abbrev Holds (i : Fin 4 → ℕ) : Prop := ∀ k, i k < l.ne k

/-- The address of an index, in elements. -/
def address (i : Fin 4 → ℕ) : ℕ := l.off + ∑ k, i k * l.nb k

/-- The dimensions of more than one index. -/
def axes : List Axis :=
  ((List.finRange 4).take l.nontrivial).map fun k => ⟨l.ne k, l.nb k⟩

/-- An index on those dimensions. -/
def coords (i : Fin 4 → ℕ) : List ℕ := ((List.finRange 4).take l.nontrivial).map i

theorem nested_apply (k : Fin 4) (inside : k.val < l.nontrivial) :
    l.nb k ≠ 0 ∧ (0 < k → l.ne (k - 1) * l.nb (k - 1) ≤ l.nb k) :=
  of_decide_eq_true l.isNested k inside

/-- Past the axes there is one index only. -/
theorem eq_zero_of_outer (inside : l.Holds i) {k : Fin 4} (outer : l.nontrivial ≤ k.val) :
    i k = 0 := by
  have := inside k
  have := (l.inner k).not.mp (by omega)
  omega

/-- There are at most four axes. -/
theorem count_cases : l.nontrivial = 0 ∨ l.nontrivial = 1 ∨ l.nontrivial = 2 ∨
    l.nontrivial = 3 ∨ l.nontrivial = 4 := by
  have := l.few
  omega

theorem finRange_four : List.finRange 4 = [0, 1, 2, 3] := rfl

/-- The axes are nested. -/
theorem nested_axes : Nested l.axes := by
  have h0 := l.nested_apply 0
  have h1 := l.nested_apply 1
  have h2 := l.nested_apply 2
  have h3 := l.nested_apply 3
  rw [axes, finRange_four]
  rcases l.count_cases with count | count | count | count | count <;>
    simp_all [Nested, pitch, Nat.pos_iff_ne_zero]

/-- An index inside the extents is inside the axes. -/
theorem within_coords (inside : l.Holds i) : Within l.axes (l.coords i) := by
  rw [Within, axes, coords, List.forall₂_map_left_iff, List.forall₂_map_right_iff]
  exact List.forall₂_same.mpr fun k _ => inside k

/-- The axes say where an index lies. -/
theorem address_eq (inside : l.Holds i) :
    l.address i = l.off + NestedAxes.address l.axes (l.coords i) := by
  have outer := fun k => l.eq_zero_of_outer inside (k := k)
  have h0 := outer 0
  have h1 := outer 1
  have h2 := outer 2
  have h3 := outer 3
  rw [address, axes, coords, finRange_four, Fin.sum_univ_four]
  rcases l.count_cases with count | count | count | count | count <;>
    simp_all [NestedAxes.address] <;> omega

/-- The axes tell the indices inside the extents apart. -/
theorem coords_inj (inside : l.Holds i) (inside' : l.Holds j) :
    l.coords i = l.coords j ↔ i = j := by
  refine ⟨fun same => ?_, fun same => same ▸ rfl⟩
  funext k
  by_cases inner : k.val < l.nontrivial
  · have listed : k ∈ (List.finRange 4).take l.nontrivial :=
      List.mem_take_iff_getElem.mpr ⟨k.val, by simp [inner], by simp⟩
    exact List.map_inj_left.mp same k listed
  · rw [l.eq_zero_of_outer inside (Nat.le_of_not_lt inner),
      l.eq_zero_of_outer inside' (Nat.le_of_not_lt inner)]

/-- Every index of the axes is one of the destination. -/
theorem exists_coords {index : List ℕ} (within : Within l.axes index) :
    ∃ i, l.Holds i ∧ l.coords i = index := by
  have few := l.few
  have length : index.length = l.nontrivial := by
    simpa [axes, few] using within.length_eq.symm
  refine ⟨fun k => index.getD k 0, fun k => ?_, ?_⟩
  · by_cases inner : k.val < l.nontrivial
    · have bound := (List.forall₂_iff_get.mp within).2 k.val (by simp [axes, few, inner])
        (by rwa [length])
      simpa [axes, length, inner] using bound
    · have default := List.getD_eq_default index 0 (n := k.val) (by omega)
      simpa only [default] using l.pos k
  · apply List.ext_getElem
    · simp [coords, few, length]
    · intro n _ inside
      simp [coords, inside]

/-- No two elements share an address. -/
theorem address_inj (inside : l.Holds i) (inside' : l.Holds j) :
    l.address i = l.address j ↔ i = j := by
  rw [l.address_eq inside, l.address_eq inside', Nat.add_left_cancel_iff,
    NestedAxes.address_inj l.nested_axes (l.within_coords inside) (l.within_coords inside'),
    l.coords_inj inside inside']

/-- The carry over the dimensions in the merge chain. -/
def next (i : Fin 4 → ℕ) : Option (Fin 4 → ℕ) :=
  if mbit l.mergeChain 0 ∧ i 0 + 1 < l.ne 0 then some ![i 0 + 1, i 1, i 2, i 3]
  else if mbit l.mergeChain 1 ∧ i 1 + 1 < l.ne 1 then some ![0, i 1 + 1, i 2, i 3]
  else if mbit l.mergeChain 2 ∧ i 2 + 1 < l.ne 2 then some ![0, 0, i 2 + 1, i 3]
  else if mbit l.mergeChain 3 ∧ i 3 + 1 < l.ne 3 then some ![0, 0, 0, i 3 + 1]
  else none

/-- The bits of word 55. -/
theorem mbit_mergeChain (k : Fin 4) :
    mbit l.mergeChain k.val = true ↔ ∀ j ≤ k, j.val < l.nontrivial ∧ l.link j = true := by
  have bits : ∀ (p : Fin 4 → Bool) (k : Fin 4),
      mbit (((List.finRange 4).takeWhile p).foldl
        (fun m k => m ||| UInt32.ofNat (2 ^ k.val)) 0) k.val = true ↔ ∀ j ≤ k, p j = true := by
    decide +kernel
  rw [Order.mergeChain, bits]
  simp

theorem mbit_zero : mbit l.mergeChain 0 = true ↔ 0 < l.nontrivial ∧ l.nb 0 = 1 := by
  simpa [Order.link] using l.mbit_mergeChain 0

/-- A dimension is in the chain when it continues one that is. -/
theorem mbit_succ (k : Fin 3) : mbit l.mergeChain (k.val + 1) = true ↔
    mbit l.mergeChain k.val = true ∧ k.val + 1 < l.nontrivial ∧
      l.nb k.succ = l.ne k.castSucc * l.nb k.castSucc := by
  have upper := l.mbit_mergeChain k.succ
  have lower := l.mbit_mergeChain k.castSucc
  rw [Fin.val_succ] at upper
  rw [Fin.val_castSucc] at lower
  rw [upper, lower]
  constructor
  · intro chained
    obtain ⟨inner, link⟩ := chained k.succ le_rfl
    refine ⟨fun j below => chained j (below.trans Fin.castSucc_lt_succ.le), inner, ?_⟩
    have pred : k.succ - 1 = k.castSucc := by fin_cases k <;> rfl
    simpa [Order.link, pred] using link
  · rintro ⟨chained, inner, link⟩ j below
    by_cases same : j = k.succ
    · subst same
      have pred : k.succ - 1 = k.castSucc := by fin_cases k <;> rfl
      exact ⟨inner, by simpa [Order.link, pred] using link⟩
    · exact chained j (Fin.le_castSucc_iff.mpr (lt_of_le_of_ne below same))

/-- The carry over the merge chain is the carry over the axes. -/
theorem next_coords (unit : mbit l.mergeChain 0 = true) (i : Fin 4 → ℕ) :
    NestedAxes.next l.axes (l.coords i) = (l.next i).map l.coords := by
  have o1 := l.inner 1
  have o2 := l.inner 2
  have o3 := l.inner 3
  have b1 := l.mbit_succ 0
  have b2 := l.mbit_succ 1
  have b3 := l.mbit_succ 2
  have unit' := l.mbit_zero.mp unit
  rw [axes, next]
  rcases l.count_cases with count | count | count | count | count
  · omega
  all_goals
    have coords_eq : ∀ i, l.coords i = ([0, 1, 2, 3].take l.nontrivial).map i := fun _ => rfl
    simp only [count, List.take, List.map] at coords_eq
    simp only [count, unit, unit', Fin.isValue, Fin.val_zero, Fin.val_one, Fin.val_two,
      Fin.reduceSucc, Fin.reduceCastSucc, Nat.reduceAdd, Nat.reduceLT, true_and, false_and,
      and_false, mul_one] at b1 b2 b3
    simp only [finRange_four, count, List.take, List.map, coords_eq, NestedAxes.next, Linked,
      pitch, unit, unit', b1, b2, b3, true_and, false_and, if_false, mul_one]
  · split_ifs <;> simp_all
  · split_ifs <;> simp_all
  · split_ifs <;> simp_all
    split_ifs <;> simp_all <;> omega
  · split_ifs <;> simp_all
    split_ifs <;> simp_all <;> omega

/-- An index past the start of a chained dimension has one before it on the axes. -/
theorem hasPrevious_coords (unit : mbit l.mergeChain 0 = true) (i : Fin 4 → ℕ) :
    HasPrevious l.axes (l.coords i) ↔ ∃ k : Fin 4, mbit l.mergeChain k.val = true ∧ 0 < i k := by
  have b1 := l.mbit_succ 0
  have b2 := l.mbit_succ 1
  have b3 := l.mbit_succ 2
  have unit' := l.mbit_zero.mp unit
  rw [axes, coords, Fin.exists_fin_succ, Fin.exists_fin_succ, Fin.exists_fin_two]
  rcases l.count_cases with count | count | count | count | count
  · omega
  all_goals
    simp only [count, unit, unit', Fin.isValue, Fin.val_zero, Fin.val_one, Fin.val_two,
      Fin.reduceSucc, Fin.reduceCastSucc, Nat.reduceAdd, Nat.reduceLT, true_and, false_and,
      and_false, mul_one] at b1 b2 b3
    simp [finRange_four, count, HasPrevious, Linked, pitch, unit, unit', b1, b2, b3]
  all_goals grind

/-- The carry stays inside the extents. -/
theorem holds_of_next (inside : l.Holds i) (found : l.next i = some j) : l.Holds j := by
  have h0 := inside 0
  have h1 := inside 1
  have h2 := inside 2
  have h3 := inside 3
  rw [next] at found
  split_ifs at found with c0 c1 c2 c3 <;> obtain rfl := Option.some.inj found <;> intro k <;>
    fin_cases k <;> simp <;> omega

/-- The pitch of the axes is the stride of the first dimension. -/
theorem pitch_axes (some : 0 < l.nontrivial) : pitch l.axes = l.nb 0 := by
  obtain ⟨n, count⟩ : ∃ n, l.nontrivial = n + 1 := ⟨_, (Nat.sub_add_cancel some).symm⟩
  simp [axes, finRange_four, count]

/-- Without the first dimension the chain is empty. -/
theorem mbit_eq_false (unit : mbit l.mergeChain 0 ≠ true) (k : Fin 4) :
    mbit l.mergeChain k.val = false := by
  rw [← Bool.not_eq_true]
  intro chained
  exact unit ((l.mbit_mergeChain 0).mpr fun j below =>
    (l.mbit_mergeChain k).mp chained j (below.trans (Fin.zero_le k)))

/-- Where the first dimension leaves gaps, no two addresses are neighbours. -/
theorem address_ne_succ (unit : mbit l.mergeChain 0 ≠ true) (inside : l.Holds i)
    (inside' : l.Holds j) : l.address j ≠ l.address i + 1 := by
  intro neighbours
  rw [l.address_eq inside, l.address_eq inside'] at neighbours
  have apart := address_add_pitch_le l.nested_axes (l.within_coords inside)
    (l.within_coords inside') (by omega)
  rw [ne_eq, l.mbit_zero] at unit
  by_cases some : 0 < l.nontrivial
  · rw [l.pitch_axes some] at apart
    have := (l.nested_apply 0 some).1
    omega
  · have single : i = j := by
      funext k
      rw [l.eq_zero_of_outer inside (by omega), l.eq_zero_of_outer inside' (by omega)]
    rw [single] at neighbours
    omega

/-- The next address is an element's exactly when the carry finds it. -/
theorem address_succ_iff (inside : l.Holds i) (inside' : l.Holds j) :
    l.address j = l.address i + 1 ↔ l.next i = some j := by
  by_cases unit : mbit l.mergeChain 0 = true
  · have carry := address_eq_add_pitch_iff l.nested_axes (l.within_coords inside)
      (l.within_coords inside')
    obtain ⟨some, stride⟩ := l.mbit_zero.mp unit
    rw [l.pitch_axes some, stride, l.next_coords unit] at carry
    rw [l.address_eq inside, l.address_eq inside', Nat.add_assoc, Nat.add_left_cancel_iff, carry,
      Option.map_eq_some_iff]
    constructor
    · rintro ⟨found, next_eq, same⟩
      rw [next_eq, (l.coords_inj (l.holds_of_next inside next_eq) inside').mp same]
    · exact fun next_eq => ⟨j, next_eq, rfl⟩
  · have stops : l.next i = none := by
      have empty := l.mbit_eq_false unit
      have e0 := empty 0
      have e1 := empty 1
      have e2 := empty 2
      have e3 := empty 3
      simp_all [next]
    rw [stops]
    exact iff_of_false (l.address_ne_succ unit inside inside') (by simp)

/-- The previous address is an element's exactly when a chained dimension is past its
start. -/
theorem exists_address_succ_iff (inside : l.Holds i) :
    (∃ j, l.Holds j ∧ l.address i = l.address j + 1) ↔
      ∃ k : Fin 4, mbit l.mergeChain k.val = true ∧ 0 < i k := by
  by_cases unit : mbit l.mergeChain 0 = true
  · rw [← l.hasPrevious_coords unit, hasPrevious_iff (l.within_coords inside)]
    constructor
    · rintro ⟨j, inside', neighbours⟩
      refine ⟨l.coords j, l.within_coords inside', ?_⟩
      rw [l.next_coords unit, (l.address_succ_iff inside' inside).mp neighbours, Option.map_some]
    · rintro ⟨other, within, found⟩
      obtain ⟨j, inside', rfl⟩ := l.exists_coords within
      refine ⟨j, inside', (l.address_succ_iff inside' inside).mpr ?_⟩
      rw [l.next_coords unit] at found
      obtain ⟨k, next_eq, same⟩ := Option.map_eq_some_iff.mp found
      rw [next_eq, (l.coords_inj (l.holds_of_next inside' next_eq) inside).mp same]
  · constructor
    · rintro ⟨j, inside', neighbours⟩
      exact absurd neighbours (l.address_ne_succ unit inside' inside)
    · rintro ⟨k, chained, -⟩
      rw [l.mbit_eq_false unit k] at chained
      cases chained

/-- Past the axes there is one index only. -/
theorem ne_eq_one {k : Fin 4} (outer : l.nontrivial ≤ k.val) : l.ne k = 1 := by
  have := l.pos k
  have := (l.inner k).not.mp (by omega)
  omega

/-- The axes hold all the elements. -/
theorem volume_axes : volume l.axes = ∏ k, l.ne k := by
  have outer := fun k => l.ne_eq_one (k := k)
  have o0 := outer 0
  have o1 := outer 1
  have o2 := outer 2
  have o3 := outer 3
  rw [axes, finRange_four, Fin.prod_univ_four]
  rcases l.count_cases with count | count | count | count | count <;>
    simp_all [volume, mul_assoc]

/-- The axes reach as far as the extents. -/
theorem top_axes : top l.axes = ∑ k, (l.ne k - 1) * l.nb k := by
  have outer := fun k => l.ne_eq_one (k := k)
  have o0 := outer 0
  have o1 := outer 1
  have o2 := outer 2
  have o3 := outer 3
  rw [axes, finRange_four, Fin.sum_univ_four]
  rcases l.count_cases with count | count | count | count | count <;>
    simp_all [top, add_assoc]

/-- There are no more elements than addresses. -/
theorem nelements_le : ∏ k, l.ne k ≤ 2 ^ 31 := by
  have reach := l.reach
  have extents : ∀ axis ∈ l.axes, 0 < axis.extent := by
    intro axis member
    obtain ⟨k, -, rfl⟩ := List.mem_map.mp member
    exact l.pos k
  have enough := volume_mul_pitch_le l.nested_axes extents
  rw [volume_axes, top_axes] at enough
  have pitch_pos : 0 < pitch l.axes := by
    by_cases some : 0 < l.nontrivial
    · rw [l.pitch_axes some]
      exact Nat.pos_of_ne_zero (l.nested_apply 0 some).1
    · simp [axes, Nat.eq_zero_of_not_pos some, pitch]
  by_contra more
  have : (2 ^ 31 + 1) * pitch l.axes ≤ (∏ k, l.ne k) * pitch l.axes :=
    Nat.mul_le_mul_right _ (by omega)
  have : 2 ^ 31 * 1 ≤ 2 ^ 31 * pitch l.axes := Nat.mul_le_mul_left _ pitch_pos
  rw [Nat.succ_mul] at *
  omega

/-- Every address is within reach. -/
theorem address_lt (inside : l.Holds i) : l.address i < 2 ^ 31 := by
  refine lt_of_le_of_lt (Nat.add_le_add_left ?_ l.off) l.reach
  exact Finset.sum_le_sum fun k _ => Nat.mul_le_mul_right _ (Nat.le_sub_one_of_lt (inside k))

end Layout

end DressOn.Ggml.Move
