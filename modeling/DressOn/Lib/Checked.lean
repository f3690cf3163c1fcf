import DressOn.Lib.Numerals
import Mathlib.Algebra.Order.Field.Basic
import Mathlib.LinearAlgebra.CrossProduct
import Mathlib.LinearAlgebra.Matrix.DotProduct
import Mathlib.Tactic.FieldSimp
import Mathlib.Tactic.LinearCombination
import Mathlib.Tactic.Linarith

/-!
# Arithmetic that can fail

A division by zero and the square root of a negative number give nothing. The geometry of a
triangle divides by one number alone, its area: the squares of the determinant of its edges and
of Heron's formula are the Gram determinant, which is zero just where the corners are on a line.
-/

namespace DressOn.Checked

section Lists

variable {ι β : Type*} {f : ι → Option β}

/-- A list maps just where each of its members does. -/
theorem mapM_isSome (items : List ι) :
    (items.mapM f).isSome ↔ ∀ item ∈ items, (f item).isSome := by
  induction items with
  | nil => simp
  | cons item rest inductionHypothesis =>
    rw [List.mapM_cons, List.forall_mem_cons, ← inductionHypothesis]
    cases f item with
    | none => simp
    | some value =>
      cases rest.mapM f with
      | none => simp
      | some values => simp

/-- What the members of a list map to, one by one. -/
theorem forall₂_of_mapM {items : List ι} {values : List β} (mapped : items.mapM f = some values) :
    List.Forall₂ (fun item value => f item = some value) items values := by
  induction items generalizing values with
  | nil =>
    rw [List.mapM_nil] at mapped
    cases mapped
    exact .nil
  | cons item rest inductionHypothesis =>
    rw [List.mapM_cons] at mapped
    obtain ⟨value, here, mapped⟩ := Option.bind_eq_some_iff.1 mapped
    obtain ⟨later, there, mapped⟩ := Option.bind_eq_some_iff.1 mapped
    cases mapped
    exact .cons here (inductionHypothesis there)

/-- Members that all map do so as a list. -/
theorem exists_mapM {items : List ι} (maps : ∀ item ∈ items, ∃ value, f item = some value) :
    ∃ values, items.mapM f = some values :=
  Option.isSome_iff_exists.1 ((mapM_isSome items).2 fun item member =>
    Option.isSome_iff_exists.2 (maps item member))

/-- A list with a member that does not map does not either. -/
theorem mapM_eq_none {items : List ι} {item : ι} (member : item ∈ items) (fails : f item = none) :
    items.mapM f = none := by
  refine Option.not_isSome_iff_eq_none.1 fun isSome => ?_
  have here := (mapM_isSome items).1 isSome item member
  rw [fails] at here
  exact nomatch here

/-- What holds of what the members map to holds of the values. -/
theorem forall_of_mapM {items : List ι} {values : List β} {P : β → Prop}
    (mapped : items.mapM f = some values)
    (holds : ∀ item ∈ items, ∀ value, f item = some value → P value) :
    ∀ value ∈ values, P value := by
  have paired := forall₂_of_mapM mapped
  clear mapped
  induction paired with
  | nil => exact fun _ member => nomatch member
  | cons here _ inductionHypothesis =>
    refine List.forall_mem_cons.2 ⟨holds _ List.mem_cons_self _ here, inductionHypothesis ?_⟩
    exact fun item member => holds item (List.mem_cons_of_mem _ member)

/-- A loop whose steps all give a state ends in one. -/
theorem exists_foldlM {step : β → ι → Option β}
    (steps : ∀ state item, ∃ next, step state item = some next) (items : List ι) (state : β) :
    ∃ last, items.foldlM step state = some last := by
  induction items generalizing state with
  | nil => exact ⟨state, rfl⟩
  | cons item items inductionHypothesis =>
    obtain ⟨next, here⟩ := steps state item
    rw [List.foldlM_cons, here]
    exact inductionHypothesis next

end Lists

section Numbers

variable {α : Type*} [Field α] [LinearOrder α]

/-- Division, where the divisor is not zero. -/
def quotient (a b : α) : Option α := if b = 0 then none else some (a / b)

/-- By a number other than zero the quotient is the field's. -/
theorem quotient_of_ne {b : α} (nonzero : b ≠ 0) (a : α) : quotient a b = some (a / b) :=
  if_neg nonzero

/-- There is a quotient by every number but zero. -/
theorem quotient_isSome {a b : α} : (quotient a b).isSome ↔ b ≠ 0 := by
  unfold quotient
  split
  · next zero => simp [zero]
  · next nonzero => simp [nonzero]

variable (α) in
/-- The square root of the numbers that have one. -/
structure SquareRoot where
  sqrt : α → α
  nonneg : ∀ x, 0 ≤ x → 0 ≤ sqrt x
  square : ∀ x, 0 ≤ x → sqrt x * sqrt x = x

namespace SquareRoot

variable (root : SquareRoot α)

/-- The square root, where the number is not negative. -/
def of (x : α) : Option α := if x < 0 then none else some (root.sqrt x)

/-- The root of a number that is not negative. -/
theorem of_nonneg {x : α} (nonneg : 0 ≤ x) : root.of x = some (root.sqrt x) :=
  if_neg (not_lt.2 nonneg)

/-- The root of a positive number is not zero. -/
theorem sqrt_ne_zero {x : α} (positive : 0 < x) : root.sqrt x ≠ 0 := fun zero =>
  positive.ne' (by rw [← root.square x positive.le, zero, mul_zero])

/-- The root of a positive number is positive. -/
theorem sqrt_pos {x : α} (positive : 0 < x) : 0 < root.sqrt x :=
  lt_of_le_of_ne (root.nonneg x positive.le) (root.sqrt_ne_zero positive).symm

end SquareRoot

end Numbers

section Vectors

open Matrix

variable {α : Type*} [Field α]

/-- The Gram determinant of two vectors. -/
def gram (u v : Fin 3 → α) : α := (u ⬝ᵥ u) * (v ⬝ᵥ v) - (u ⬝ᵥ v) * (u ⬝ᵥ v)

/-- It is the square of the length of their cross product. -/
theorem gram_eq_cross (u v : Fin 3 → α) : gram u v = (u ⨯₃ v) ⬝ᵥ (u ⨯₃ v) := by
  rw [cross_dot_cross, gram, dotProduct_comm v u]

/-- The ways from the other corners of a triangle to one corner make the same determinant. -/
theorem gram_turn (p q r : Fin 3 → α) : gram (r - q) (p - q) = gram (q - p) (r - p) := by
  simp only [gram, dotProduct_sub, sub_dotProduct, dotProduct_comm r p, dotProduct_comm r q,
    dotProduct_comm q p]
  ring

/-- The Gram determinant of two vectors, in either order. -/
theorem gram_comm (u v : Fin 3 → α) : gram v u = gram u v := by
  rw [gram, gram, dotProduct_comm v u, mul_comm (v ⬝ᵥ v)]

/-- The part of a vector across another one. -/
theorem across_dot {e0 e1 : Fin 3 → α} {n : α} (length : n * n = e0 ⬝ᵥ e0) (nonzero : n ≠ 0) :
    (e1 - (e1 ⬝ᵥ n⁻¹ • e0) • n⁻¹ • e0) ⬝ᵥ e0 = 0 := by
  simp only [sub_dotProduct, smul_dotProduct, dotProduct_smul, smul_eq_mul, ← length]
  field_simp
  ring

variable [LinearOrder α] (root : SquareRoot α)

/-- The length of a vector. -/
def norm (u : Fin 3 → α) : Option α := root.of (u ⬝ᵥ u)

/-- The vector of length one; a zero vector stays zero. -/
def normalized (u : Fin 3 → α) : Option (Fin 3 → α) :=
  if 0 < u ⬝ᵥ u then do
    let n ← norm root u
    return ![← quotient (u 0) n, ← quotient (u 1) n, ← quotient (u 2) n]
  else some u

variable [IsStrictOrderedRing α]

/-- A vector's square is not negative. -/
theorem dot_self_nonneg (u : Fin 3 → α) : 0 ≤ u ⬝ᵥ u :=
  Finset.sum_nonneg fun k _ => mul_self_nonneg (u k)

/-- The Gram determinant is not negative. -/
theorem gram_nonneg (u v : Fin 3 → α) : 0 ≤ gram u v := gram_eq_cross u v ▸ dot_self_nonneg _

/-- The Gram determinant is zero for parallel vectors only. -/
theorem gram_eq_zero_iff {u v : Fin 3 → α} : gram u v = 0 ↔ u ⨯₃ v = 0 := by
  rw [gram_eq_cross, dotProduct_self_eq_zero]

/-- The Gram determinant is positive for all others. -/
theorem gram_pos_iff {u v : Fin 3 → α} : 0 < gram u v ↔ u ⨯₃ v ≠ 0 := by
  rw [(gram_nonneg u v).lt_iff_ne, ne_comm, Ne, gram_eq_zero_iff]

/-- A length is always a number. -/
theorem norm_eq (u : Fin 3 → α) : norm root u = some (root.sqrt (u ⬝ᵥ u)) :=
  root.of_nonneg (dot_self_nonneg u)

/-- The square of a length. -/
theorem sqrt_dot_sq (u : Fin 3 → α) :
    root.sqrt (u ⬝ᵥ u) * root.sqrt (u ⬝ᵥ u) = u ⬝ᵥ u :=
  root.square _ (dot_self_nonneg u)

/-- A vector always has its direction: a multiple of the vector by the inverse of its length. -/
theorem normalized_eq (u : Fin 3 → α) :
    normalized root u = some ((root.sqrt (u ⬝ᵥ u))⁻¹ • u) := by
  unfold normalized
  split
  · next positive =>
    have nonzero := root.sqrt_ne_zero positive
    rw [norm_eq]
    simp only [Option.bind_eq_bind, Option.bind_some, quotient_of_ne nonzero]
    refine congrArg some ?_
    funext k
    fin_cases k <;> simp [div_eq_inv_mul]
  · next zero =>
    have vanishes : u = 0 :=
      dotProduct_self_eq_zero.1 (le_antisymm (not_lt.1 zero) (dot_self_nonneg u))
    rw [vanishes, smul_zero]

/-- The determinant of two edges in the frame made from them: its square is the Gram determinant. -/
theorem det_sq {e0 e1 first second : Fin 3 → α} (one : normalized root e0 = some first)
    (two : normalized root (e1 - (e1 ⬝ᵥ first) • first) = some second) :
    (first ⬝ᵥ e0 * (second ⬝ᵥ e1) - second ⬝ᵥ e0 * (first ⬝ᵥ e1)) *
      (first ⬝ᵥ e0 * (second ⬝ᵥ e1) - second ⬝ᵥ e0 * (first ⬝ᵥ e1)) = gram e0 e1 := by
  rw [normalized_eq] at one two
  obtain rfl := Option.some.inj one
  obtain rfl := Option.some.inj two
  have length := sqrt_dot_sq root e0
  generalize root.sqrt (e0 ⬝ᵥ e0) = n at length
  by_cases zero : n = 0
  · have vanishes : e0 = 0 := dotProduct_self_eq_zero.1 (by rw [← length, zero, mul_zero])
    simp [vanishes, gram]
  have across : (e1 - (e1 ⬝ᵥ n⁻¹ • e0) • n⁻¹ • e0) ⬝ᵥ e0 = 0 := across_dot length zero
  generalize rest : e1 - (e1 ⬝ᵥ n⁻¹ • e0) • n⁻¹ • e0 = w at across
  have split : e1 = w + (n⁻¹ * n⁻¹ * (e1 ⬝ᵥ e0)) • e0 := by
    rw [← rest, dotProduct_smul, smul_smul, smul_eq_mul, mul_right_comm, sub_add_cancel]
  have height := sqrt_dot_sq root w
  generalize root.sqrt (w ⬝ᵥ w) = m at height
  generalize n⁻¹ * n⁻¹ * (e1 ⬝ᵥ e0) = c at split
  have across' : e0 ⬝ᵥ w = 0 := by rw [dotProduct_comm, across]
  have determinant : n⁻¹ • e0 ⬝ᵥ e0 * (m⁻¹ • w ⬝ᵥ e1) - m⁻¹ • w ⬝ᵥ e0 * (n⁻¹ • e0 ⬝ᵥ e1) = n * m := by
    simp only [split, dotProduct_add, smul_dotProduct, dotProduct_smul, smul_eq_mul, across,
      ← length, ← height]
    by_cases flat : m = 0
    · simp [flat]
    · field_simp
      ring
  rw [determinant]
  simp only [gram, split, dotProduct_add, add_dotProduct, smul_dotProduct, dotProduct_smul,
    smul_eq_mul, across, across', ← length, ← height]
  ring

/-- Heron's product over numbers that square to the squared lengths of the edges. -/
theorem heron_eq {p q r : Fin 3 → α} {a b c : α} (first : a * a = (q - p) ⬝ᵥ (q - p))
    (second : b * b = (r - p) ⬝ᵥ (r - p)) (third : c * c = (q - r) ⬝ᵥ (q - r)) :
    1 / 2 * (a + b + c) * (1 / 2 * (a + b + c) - a) * (1 / 2 * (a + b + c) - b) *
      (1 / 2 * (a + b + c) - c) = gram (q - p) (r - p) / 4 := by
  have cosine : a * a + b * b - c * c = 2 * ((q - p) ⬝ᵥ (r - p)) := by
    rw [first, second, third, ← sub_sub_sub_cancel_right q r p]
    generalize q - p = u
    generalize r - p = v
    rw [sub_dotProduct, dotProduct_sub, dotProduct_sub, dotProduct_comm v u]
    ring
  calc 1 / 2 * (a + b + c) * (1 / 2 * (a + b + c) - a) * (1 / 2 * (a + b + c) - b) *
        (1 / 2 * (a + b + c) - c)
      = (4 * (a * a) * (b * b)
          - (a * a + b * b - c * c) * (a * a + b * b - c * c)) / 16 := by ring
    _ = gram (q - p) (r - p) / 4 := by
        rw [cosine, first, second, gram]
        ring

end Vectors

end DressOn.Checked
