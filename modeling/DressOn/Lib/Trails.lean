import Mathlib.Algebra.Group.Even
import Mathlib.Algebra.Group.Nat.Even
import Mathlib.Data.List.Nodup
import Mathlib.Data.List.Perm.Basic
import Mathlib.Data.List.Range

/-!
# Trails

Paths through joints of two bones in a graph with loops and parallel edges, given by its lists of
neighbours. Such a path never comes back to a joint, and two that run from one end to the other
meet only where they are the same path, in the same direction or the other one.
-/

namespace DressOn.Trails

variable {V : Type*} {adj : V → List V}

/-- A path from a joint that has not two neighbours, through `m` joints that have. -/
structure Trail (adj : V → List V) (x : ℕ → V) (m : ℕ) : Prop where
  start : (adj (x 0)).length ≠ 2
  through : ∀ i < m, (adj (x (i + 1))).Perm [x i, x (i + 2)]

/-- A trail up to the next joint that has not two neighbours. -/
structure Ended (adj : V → List V) (x : ℕ → V) (m : ℕ) : Prop extends Trail adj x m where
  stop : (adj (x (m + 1))).length ≠ 2

/-- Two pairs of the same members. -/
theorem eq_or_swap_of_perm {a b c d : V} (same : [a, b].Perm [c, d]) :
    a = c ∧ b = d ∨ a = d ∧ b = c := by
  have member : a ∈ [c, d] := same.mem_iff.mp List.mem_cons_self
  rcases List.mem_pair.mp member with rfl | rfl
  · rw [List.perm_cons, List.perm_singleton] at same
    exact .inl ⟨rfl, List.singleton_inj.mp same⟩
  · have turned := same.trans (List.Perm.swap a c [])
    rw [List.perm_cons, List.perm_singleton] at turned
    exact .inr ⟨rfl, List.singleton_inj.mp turned⟩

namespace Trail

variable {x y : ℕ → V} {m m' : ℕ}

/-- Inside, joints have two neighbours. -/
theorem length_inside (trail : Trail adj x m) {i : ℕ} (inside : i < m) :
    (adj (x (i + 1))).length = 2 := (trail.through i inside).length_eq

/-- The start is not inside. -/
theorem start_ne (trail : Trail adj x m) {i : ℕ} (inside : i < m) : x 0 ≠ x (i + 1) := fun same =>
  trail.start (same ▸ trail.length_inside inside)

/-- The neighbours of equal joints are equal one step back in both or towards each other. -/
theorem back_or_towards (trail : Trail adj x m) (other : Trail adj y m') {i j : ℕ}
    (inside : i < m) (inside' : j < m') (same : x (i + 1) = y (j + 1)) :
    x i = y j ∧ x (i + 2) = y (j + 2) ∨ x i = y (j + 2) ∧ x (i + 2) = y j :=
  eq_or_swap_of_perm ((trail.through i inside).symm.trans
    (same ▸ other.through j inside'))

/-- Two trails through one edge in one direction have the same start and have come as far. -/
theorem eq_of_succ (trail : Trail adj x m) (other : Trail adj y m') {i j : ℕ} (inside : i < m)
    (inside' : j < m') (same : x (i + 1) = y (j + 1)) (next : x (i + 2) = y (j + 2)) :
    i = j ∧ x 0 = y 0 ∧ x 1 = y 1 := by
  have back : ∀ i j, i < m → j < m' → x (i + 1) = y (j + 1) → x (i + 2) = y (j + 2) →
      x i = y j := by
    intro i j inside inside' same next
    rcases trail.back_or_towards other inside inside' same with ⟨back, -⟩ | ⟨back, next'⟩
    · exact back
    · rw [back, ← next, next']
  induction i generalizing j with
  | zero =>
    cases j with
    | zero => exact ⟨rfl, back 0 0 inside inside' same next, same⟩
    | succ j =>
      have start := back 0 (j + 1) inside inside' same next
      have two := other.length_inside (Nat.lt_of_succ_lt inside')
      exact absurd (start ▸ two) trail.start
  | succ i inductionHypothesis =>
    cases j with
    | zero =>
      have start := back (i + 1) 0 inside inside' same next
      have two := trail.length_inside (Nat.lt_of_succ_lt inside)
      exact absurd (start ▸ two) other.start
    | succ j =>
      obtain ⟨index, start⟩ := inductionHypothesis (Nat.lt_of_succ_lt inside)
        (Nat.lt_of_succ_lt inside') (back _ _ inside inside' same next) same
      exact ⟨congrArg (· + 1) index, start⟩

/-- Two trails with the same start and the same first joint go the same way. -/
theorem eq_of_start (trail : Trail adj x m) (other : Trail adj y m') (start : x 0 = y 0)
    (first : x 1 = y 1) : ∀ t ≤ m, t ≤ m' → x t = y t ∧ x (t + 1) = y (t + 1) := by
  intro t
  induction t with
  | zero => exact fun _ _ => ⟨start, first⟩
  | succ t inductionHypothesis =>
    intro inside inside'
    obtain ⟨before, here⟩ := inductionHypothesis (Nat.le_of_succ_le inside)
      (Nat.le_of_succ_le inside')
    refine ⟨here, ?_⟩
    rcases trail.back_or_towards other inside inside' here with ⟨-, next⟩ | ⟨back, next⟩
    · exact next
    · rw [next, ← before, back]

end Trail

namespace Ended

variable {x y : ℕ → V} {m m' : ℕ}

/-- A trail runs both ways. -/
theorem reverse (ended : Ended adj x m) : Ended adj (fun t => x (m + 1 - t)) m where
  start := ended.stop
  through i inside := by
    obtain ⟨d, rfl⟩ : ∃ d, m = i + 1 + d := ⟨m - (i + 1), by omega⟩
    have turned := (ended.through d (by omega)).trans (List.Perm.swap _ _ [])
    have here : i + 1 + d + 1 - (i + 1) = d + 1 := by omega
    have before : i + 1 + d + 1 - i = d + 2 := by omega
    have after : i + 1 + d + 1 - (i + 2) = d := by omega
    rwa [here, before, after]
  stop := by
    rw [Nat.sub_self]
    exact ended.start

/-- Two trails with the same start and the same first joint are the same. -/
theorem eq_of_start (ended : Ended adj x m) (other : Ended adj y m') (start : x 0 = y 0)
    (first : x 1 = y 1) : m = m' ∧ ∀ t ≤ m + 1, x t = y t := by
  have agree := ended.toTrail.eq_of_start other.toTrail start first
  have length : m = m' := by
    rcases Nat.lt_trichotomy m m' with less | equal | greater
    · have two := other.length_inside less
      rw [← (agree m le_rfl less.le).2] at two
      exact absurd two ended.stop
    · exact equal
    · have two := ended.length_inside greater
      rw [(agree m' greater.le le_rfl).2] at two
      exact absurd two other.stop
  subst length
  refine ⟨rfl, fun t inside => ?_⟩
  cases t with
  | zero => exact start
  | succ t => exact (agree t (Nat.le_of_succ_le_succ inside) (Nat.le_of_succ_le_succ inside)).2

/-- Two trails that share a joint inside are the same, or each is the other one backwards. -/
theorem same_or_reverse (ended : Ended adj x m) (other : Ended adj y m') {i j : ℕ} (inside : i < m)
    (inside' : j < m') (shared : x (i + 1) = y (j + 1)) :
    m = m' ∧ ((∀ t ≤ m + 1, x t = y t) ∨ ∀ t ≤ m + 1, x t = y (m + 1 - t)) := by
  rcases ended.back_or_towards other.toTrail inside inside' shared with ⟨-, next⟩ | ⟨-, next⟩
  · obtain ⟨-, start, first⟩ := ended.eq_of_succ other.toTrail inside inside' shared next
    obtain ⟨length, same⟩ := ended.eq_of_start other start first
    exact ⟨length, .inl same⟩
  · obtain ⟨d, rfl⟩ : ∃ d, m' = j + 1 + d := ⟨m' - (j + 1), by omega⟩
    have here : x (i + 1) = y (j + 1 + d + 1 - (d + 1)) := by
      rw [show j + 1 + d + 1 - (d + 1) = j + 1 by omega, shared]
    have after : x (i + 2) = y (j + 1 + d + 1 - (d + 2)) := by
      rw [show j + 1 + d + 1 - (d + 2) = j by omega, next]
    obtain ⟨-, start, first⟩ := ended.eq_of_succ other.reverse.toTrail inside (by omega) here after
    obtain ⟨length, same⟩ := ended.eq_of_start other.reverse start first
    refine ⟨length, .inr fun t inside => ?_⟩
    rw [same t inside, length]

end Ended

variable [DecidableEq V]

/-- Every edge is in the lists of both of its ends, a loop twice in its own. -/
structure Undirected (adj : V → List V) : Prop where
  count_comm : ∀ x y, (adj x).count y = (adj y).count x
  even_self : ∀ x, Even ((adj x).count x)

namespace Trail

variable {x : ℕ → V} {m : ℕ}

/-- No joint inside is its own neighbour on the trail. -/
theorem ne_succ (undirected : Undirected adj) (trail : Trail adj x m) {i : ℕ} (inside : i < m) :
    x (i + 1) ≠ x (i + 2) := by
  have back : ∀ i < m, x (i + 1) = x (i + 2) → x i = x (i + 1) := fun i inside stays => by
    have even := undirected.even_self (x (i + 1))
    rw [(trail.through i inside).count_eq, ← stays] at even
    by_contra differ
    rw [List.count_cons_of_ne differ, List.count_singleton_self] at even
    exact absurd even (by decide)
  induction i with
  | zero => exact fun stays => trail.start_ne inside (back 0 inside stays)
  | succ i inductionHypothesis =>
    exact fun stays => inductionHypothesis (Nat.lt_of_succ_lt inside) (back (i + 1) inside stays)

/-- The trail does not turn back inside. -/
theorem ne_add_two (undirected : Undirected adj) (trail : Trail adj x m) {i : ℕ}
    (inside : i + 1 < m) : x (i + 1) ≠ x (i + 3) := by
  have back : ∀ i, i + 1 < m → x (i + 1) = x (i + 3) → x i = x (i + 2) := fun i inside turns => by
    have twice := undirected.count_comm (x (i + 1)) (x (i + 2))
    rw [(trail.through (i + 1) inside).count_eq, ← turns,
      (trail.through i (Nat.lt_of_succ_lt inside)).count_eq] at twice
    by_contra differ
    rw [List.count_cons_of_ne differ, List.count_singleton_self, List.count_cons_self,
      List.count_singleton_self] at twice
    exact absurd twice (by decide)
  induction i with
  | zero => exact fun turns => trail.start_ne inside (back 0 inside turns)
  | succ i inductionHypothesis =>
    exact fun turns => inductionHypothesis (Nat.lt_of_succ_lt inside) (back (i + 1) inside turns)

/-- The joints inside are all different. -/
theorem ne_of_lt (undirected : Undirected adj) (trail : Trail adj x m) {i j : ℕ} (less : i < j)
    (inside : j < m) : x (i + 1) ≠ x (j + 1) := by
  induction size : j - i using Nat.strong_induction_on generalizing i j with
  | _ gap closer =>
    have towards : ∀ i j, i < j → j < m → j - i = gap → x (i + 1) = x (j + 1) →
        x (i + 2) ≠ x j := by
      intro i j less inside gap same towards
      obtain ⟨d, rfl⟩ : ∃ d, j = i + 1 + d := ⟨j - (i + 1), by omega⟩
      match d with
      | 0 => exact trail.ne_succ undirected (by omega) same
      | 1 => exact trail.ne_add_two undirected (Nat.lt_of_succ_lt inside) same
      | d + 2 =>
        exact closer (d + 1) (by omega) (show i + 1 < i + 1 + (d + 1) by omega) (by omega)
          (by omega) towards
    induction i generalizing j with
    | zero =>
      intro same
      rcases trail.back_or_towards trail (less.trans inside) inside same with ⟨back, -⟩ | ⟨-, next⟩
      · obtain ⟨j, rfl⟩ : ∃ before, j = before + 1 := ⟨j - 1, by omega⟩
        exact trail.start_ne (Nat.lt_of_succ_lt inside) back
      · exact towards 0 j less inside size same next
    | succ i further =>
      intro same
      rcases trail.back_or_towards trail (less.trans inside) inside same with ⟨back, -⟩ | ⟨-, next⟩
      · obtain ⟨j, rfl⟩ : ∃ before, j = before + 1 := ⟨j - 1, by omega⟩
        exact further (Nat.lt_of_succ_lt_succ less) (Nat.lt_of_succ_lt inside) (by omega) back
      · exact towards (i + 1) j less inside size same next

/-- The start and the joints inside are all different. -/
theorem nodup (undirected : Undirected adj) (trail : Trail adj x m) :
    ((List.range (m + 1)).map x).Nodup := by
  have lower : ∀ i j, i < j → j < m + 1 → x i ≠ x j := by
    intro i j less inside
    obtain ⟨j, rfl⟩ : ∃ before, j = before + 1 := ⟨j - 1, by omega⟩
    cases i with
    | zero => exact trail.start_ne (Nat.lt_of_succ_lt_succ inside)
    | succ i => exact trail.ne_of_lt undirected (Nat.lt_of_succ_lt_succ less) (by omega)
  refine List.Nodup.map_on (fun i inside j inside' same => ?_) List.nodup_range
  rw [List.mem_range] at inside inside'
  rcases Nat.lt_trichotomy i j with less | equal | greater
  · exact absurd same (lower i j less inside')
  · exact equal
  · exact absurd same.symm (lower j i greater inside)

/-- A trail of two joints inside leaves its start by an edge that no other one is parallel to. -/
theorem count_first (undirected : Undirected adj) (trail : Trail adj x m) (long : 2 ≤ m) :
    (adj (x 0)).count (x 1) = 1 := by
  have differ : x 2 ≠ x 0 := (trail.start_ne (show 1 < m by omega)).symm
  rw [undirected.count_comm, (trail.through 0 (by omega)).count_eq, List.count_cons_self,
    List.count_singleton, beq_eq_false_iff_ne.mpr differ]
  rfl

end Trail

end DressOn.Trails
