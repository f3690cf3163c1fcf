import Mathlib

/-!
# The online softmax

A weighted mean of values, each weighted by the exponential of its score, taken in one pass: the sum
of the weights and the weighted sum are kept relative to the largest score so far, and are rescaled
when a larger one comes. A score may be missing. The sum of the weights that is left is at least one.
-/

namespace DressOn.OnlineSoftmax

/-- The weight of a score relative to a top; a missing score has none. -/
noncomputable def weight : WithBot ℝ → WithBot ℝ → ℝ
  | (score : ℝ), (top : ℝ) => Real.exp (score - top)
  | _, _ => 0

@[simp] theorem weight_coe (score top : ℝ) :
    weight score top = Real.exp (score - top) := rfl

@[simp] theorem weight_bot (top : WithBot ℝ) : weight ⊥ top = 0 := rfl

/-- Under no top score every weight is zero. -/
theorem weight_top_bot (score : WithBot ℝ) : weight score ⊥ = 0 := by
  cases score with
  | bot => rfl
  | coe score => rfl

/-- A weight is not negative. -/
theorem weight_nonneg (score top : WithBot ℝ) : 0 ≤ weight score top := by
  cases score with
  | bot => exact le_rfl
  | coe score =>
      cases top with
      | bot => exact le_rfl
      | coe top => exact (Real.exp_pos _).le

/-- A weight is moved to another top. -/
theorem weight_mul_weight {score top : WithBot ℝ} (below : score ≤ top) (other : WithBot ℝ) :
    weight score top * weight top other = weight score other := by
  cases score with
  | bot => rw [weight_bot, weight_bot, zero_mul]
  | coe score =>
      cases top with
      | bot => exact absurd (le_bot_iff.1 below) (WithBot.coe_ne_bot)
      | coe top =>
          cases other with
          | bot => rw [weight_top_bot, weight_top_bot, mul_zero]
          | coe other =>
              rw [weight_coe, weight_coe, weight_coe, ← Real.exp_add]
              congr 1
              ring

variable {score : ℕ → WithBot ℝ} {value : ℕ → ℝ} {n : ℕ} {top : WithBot ℝ} {total weighted : ℝ}

/-- What is kept after `n` scores. -/
structure Stands (score : ℕ → WithBot ℝ) (value : ℕ → ℝ) (n : ℕ) (top : WithBot ℝ)
    (total weighted : ℝ) : Prop where
  top_eq : top = (Finset.range n).sup score
  total_eq : total = ∑ j ∈ Finset.range n, weight (score j) top
  weighted_eq : weighted = ∑ j ∈ Finset.range n, weight (score j) top * value j

/-- Nothing is kept at the start. -/
theorem Stands.start : Stands score value 0 ⊥ 0 0 := ⟨rfl, rfl, rfl⟩

/-- The top after some scores more. -/
theorem sup_range_add (score : ℕ → WithBot ℝ) (n width : ℕ) :
    (Finset.range (n + width)).sup score =
      (Finset.range n).sup score ⊔ (Finset.range width).sup fun j => score (n + j) := by
  induction width with
  | zero => rw [Nat.add_zero, Finset.range_zero, Finset.sup_empty, sup_bot_eq]
  | succ width inductionHypothesis =>
      rw [← Nat.add_assoc, Finset.range_add_one, Finset.sup_insert, inductionHypothesis,
        Finset.range_add_one, Finset.sup_insert, sup_left_comm]

/-- A tile of scores: what is kept is rescaled to the new top, and the tile is added. -/
theorem Stands.tile (stands : Stands score value n top total weighted) (width : ℕ) {next : WithBot ℝ}
    (next_eq : next = top ⊔ (Finset.range width).sup fun j => score (n + j)) :
    Stands score value (n + width) next
      (total * weight top next + ∑ j ∈ Finset.range width, weight (score (n + j)) next)
      (weighted * weight top next +
        ∑ j ∈ Finset.range width, weight (score (n + j)) next * value (n + j)) := by
  have moved (j : ℕ) (seen : j ∈ Finset.range n) :
      weight (score j) top * weight top next = weight (score j) next :=
    weight_mul_weight (stands.top_eq ▸ Finset.le_sup seen) next
  constructor
  · rw [next_eq, stands.top_eq, sup_range_add]
  · rw [Finset.sum_range_add, stands.total_eq, Finset.sum_mul]
    rw [Finset.sum_congr rfl moved]
  · rw [Finset.sum_range_add, stands.weighted_eq, Finset.sum_mul]
    refine (add_left_inj _).2 (Finset.sum_congr rfl fun j seen => ?_)
    rw [mul_right_comm, moved j seen]

/-- The weighted mean of the first values. -/
noncomputable def softmaxMean (score value : ℕ → ℝ) (count : ℕ) : ℝ :=
  (∑ j ∈ Finset.range count, Real.exp (score j) * value j) /
    ∑ j ∈ Finset.range count, Real.exp (score j)

/-- What is kept is at least one: the largest score has weight one. -/
theorem Stands.one_le (stands : Stands score value n top total weighted) {x : ℝ} (known : top = x) :
    1 ≤ total := by
  subst known
  have some_score : (Finset.range n).Nonempty := by
    rw [Finset.nonempty_iff_ne_empty]
    intro none_
    exact WithBot.coe_ne_bot (stands.top_eq.trans (none_ ▸ Finset.sup_empty))
  obtain ⟨j, seen, largest⟩ := Finset.exists_mem_eq_sup _ some_score score
  have one : weight (score j) x = 1 := by
    rw [← largest, ← stands.top_eq, weight_coe, sub_self, Real.exp_zero]
  rw [stands.total_eq, ← one]
  exact Finset.single_le_sum (fun i _ => weight_nonneg (score i) x) seen

/-- Of scores of which the first are there, the quotient is the weighted mean. -/
theorem Stands.quotient (stands : Stands score value n top total weighted) {count : ℕ} {known : ℕ → ℝ}
    (some_score : 0 < count) (few : count ≤ n) (there : ∀ j < count, score j = known j)
    (missing : ∀ j, count ≤ j → score j = ⊥) :
    1 ≤ total ∧ weighted / total = softmaxMean known value count := by
  have some_top : top ≠ ⊥ := by
    intro none_
    have first : score 0 ≤ ⊥ := by
      rw [← none_, stands.top_eq]
      exact Finset.le_sup (Finset.mem_range.2 (some_score.trans_le few))
    rw [there 0 some_score] at first
    exact WithBot.coe_ne_bot (le_bot_iff.1 first)
  obtain ⟨x, rfl⟩ := WithBot.ne_bot_iff_exists.1 some_top
  refine ⟨stands.one_le rfl, ?_⟩
  have rest (g : ℕ → ℝ) : ∑ j ∈ Finset.range n, weight (score j) x * g j =
      Real.exp (-x) * ∑ j ∈ Finset.range count, Real.exp (known j) * g j := by
    obtain ⟨width, rfl⟩ := Nat.exists_eq_add_of_le few
    rw [Finset.sum_range_add, Finset.mul_sum]
    have none_ : ∑ j ∈ Finset.range width, weight (score (count + j)) x * g (count + j) = 0 :=
      Finset.sum_eq_zero fun j _ => by
        rw [missing _ (Nat.le_add_right _ _), weight_bot, zero_mul]
    rw [none_, add_zero]
    refine Finset.sum_congr rfl fun j seen => ?_
    rw [there j (Finset.mem_range.1 seen), weight_coe, sub_eq_neg_add, Real.exp_add, mul_assoc]
  have total_eq : total = Real.exp (-x) * ∑ j ∈ Finset.range count, Real.exp (known j) := by
    have ones := rest fun _ => 1
    simp only [mul_one] at ones
    rw [stands.total_eq, ones]
  rw [stands.weighted_eq, total_eq, rest value, softmaxMean,
    mul_div_mul_left _ _ (Real.exp_pos (-x)).ne']

end DressOn.OnlineSoftmax
