import Mathlib.Logic.Function.Iterate
import Mathlib.Order.Nat

/-!
# Machines that stand still

A machine in small turns against one in large steps. A turn of the first is any number of steps of
the second, also none at all. Where the turns without a step lower a rank, the first machine gets
as far as the second.
-/

namespace DressOn.Stutter

variable {Plain World : Type*} {advance : Plain → Plain} {next : World → World}
  {Related : Plain → World → Prop}

/-- After any number of turns the first machine is where the second one comes to. -/
theorem exists_steps
    (turns : ∀ plain world, Related plain world →
      ∃ count, Related (advance^[count] plain) (next world))
    {plain : Plain} {world : World} (start : Related plain world) (total : ℕ) :
    ∃ count, Related (advance^[count] plain) (next^[total] world) := by
  induction total generalizing plain world with
  | zero => exact ⟨0, start⟩
  | succ total inductionHypothesis =>
    obtain ⟨first, middle⟩ := turns plain world start
    obtain ⟨rest, last⟩ := inductionHypothesis middle
    refine ⟨rest + first, ?_⟩
    rwa [Function.iterate_add_apply]

/-- Turns without a step come to an end. -/
theorem exists_turns {rank : World → ℕ}
    (turns : ∀ plain world, Related plain world →
      ∃ count, Related (advance^[count] plain) (next world) ∧
        (count = 0 → rank (next world) < rank world))
    {plain : Plain} {world : World} (start : Related plain world) (wanted : ℕ) :
    ∃ total count, wanted ≤ count ∧ Related (advance^[count] plain) (next^[total] world) := by
  induction wanted with
  | zero => exact ⟨0, 0, le_rfl, start⟩
  | succ wanted inductionHypothesis =>
    obtain ⟨total, count, reached, related⟩ := inductionHypothesis
    generalize place : next^[total] world = middle at related
    -- the turns up to the next step, by the rank
    induction bound : rank middle using Nat.strong_induction_on generalizing total middle with
    | h _ lower =>
      obtain ⟨more, later, falls⟩ := turns _ middle related
      have placed : next^[total + 1] world = next middle := by
        rw [Function.iterate_succ_apply', place]
      cases more with
      | zero => exact lower _ (bound ▸ falls rfl) (total + 1) (next middle) placed later rfl
      | succ more =>
        refine ⟨total + 1, more + 1 + count, by omega, ?_⟩
        rwa [placed, Function.iterate_add_apply]

end DressOn.Stutter
