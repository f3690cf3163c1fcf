import Mathlib.Logic.Relation

/-!
# Runs under a condition

A machine that takes one operation after another, a condition on each operation in
the state it meets, and the invariants that hold as long as the condition does.
-/

namespace DressOn.Runs

variable {σ ι : Type*} {step : σ → ι → σ} {allowed : σ → ι → Prop}

/-- Every operation of a list is allowed in the state it meets. -/
def Along (step : σ → ι → σ) (allowed : σ → ι → Prop) : σ → List ι → Prop
  | _, [] => True
  | state, op :: rest => allowed state op ∧ Along step allowed (step state op) rest

/-- A decidable condition is decidable along a run. -/
instance Along.decidable [∀ state op, Decidable (allowed state op)] :
    ∀ (state : σ) (ops : List ι), Decidable (Along step allowed state ops)
  | _, [] => isTrue trivial
  | state, op :: rest =>
      have := Along.decidable (step state op) rest
      inferInstanceAs (Decidable (allowed state op ∧ Along step allowed (step state op) rest))

/-- What every allowed operation keeps holds at the end of the run. -/
theorem Along.invariant {kept : σ → Prop}
    (keeps : ∀ state op, kept state → allowed state op → kept (step state op))
    {state : σ} {ops : List ι} (start : kept state) (along : Along step allowed state ops) :
    kept (ops.foldl step state) := by
  induction ops generalizing state with
  | nil => exact start
  | cons op rest ih => exact ih (keeps state op start along.1) along.2

/-- A condition on the operations alone joins one on the states they meet. -/
theorem Along.and_forall {other : ι → Prop} {state : σ} {ops : List ι}
    (along : Along step allowed state ops) (all : ∀ op ∈ ops, other op) :
    Along step (fun state op => allowed state op ∧ other op) state ops := by
  induction ops generalizing state with
  | nil => trivial
  | cons op rest ih =>
      exact ⟨⟨along.1, all op List.mem_cons_self⟩,
        ih along.2 fun op member => all op (List.mem_cons_of_mem _ member)⟩

/-- What a move keeps is kept by any number of moves. -/
theorem kept_of_moves {move : σ → σ → Prop} {kept : σ → Prop}
    (keeps : ∀ before after, move before after → kept before → kept after)
    {first last : σ} (moves : Relation.ReflTransGen move first last) (start : kept first) :
    kept last := by
  induction moves with
  | refl => exact start
  | tail _ next ih => exact keeps _ _ next ih

end DressOn.Runs
