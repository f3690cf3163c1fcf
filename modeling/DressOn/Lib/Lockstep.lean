import DressOn.Lib.Runs
import Mathlib.Data.List.Forall2

/-!
# Machines in lockstep

Two machines that answer every operation. A relation between their states that
each operation keeps, and under which their answers agree, relates their whole
traces.
-/

namespace DressOn.Lockstep

variable {σ τ ι o p : Type*}

/-- The answers to a list of operations, in order. -/
def trace (step : σ → ι → σ × o) : σ → List ι → List o
  | _, [] => []
  | state, op :: rest => (step state op).2 :: trace step (step state op).1 rest

/-- Related machines answer every list of operations alike. -/
theorem forall₂_trace (related : σ → τ → Prop) {left : σ → ι → σ × o} {right : τ → ι → τ × p}
    {agree : o → p → Prop}
    (kept : ∀ state state' op, related state state' →
      related (left state op).1 (right state' op).1 ∧
        agree (left state op).2 (right state' op).2)
    {state : σ} {state' : τ} (start : related state state') (ops : List ι) :
    List.Forall₂ agree (trace left state ops) (trace right state' ops) := by
  induction ops generalizing state state' with
  | nil => exact List.Forall₂.nil
  | cons op rest ih =>
      obtain ⟨next, answers⟩ := kept state state' op start
      exact List.Forall₂.cons answers (ih next)

/-- Machines that answer alike as long as a condition on the first one's run holds. -/
theorem trace_eq_of_along (related : σ → τ → Prop) {left : σ → ι → σ × o} {right : τ → ι → τ × o}
    {allowed : σ → ι → Prop}
    (kept : ∀ state state' op, related state state' → allowed state op →
      related (left state op).1 (right state' op).1 ∧ (left state op).2 = (right state' op).2)
    {state : σ} {state' : τ} (start : related state state') {ops : List ι}
    (along : Runs.Along (fun state op => (left state op).1) allowed state ops) :
    trace left state ops = trace right state' ops := by
  induction ops generalizing state state' with
  | nil => rfl
  | cons op rest ih =>
      obtain ⟨here, along⟩ := along
      obtain ⟨next, answers⟩ := kept state state' op start here
      rw [trace, trace, answers, ih next along]

end DressOn.Lockstep
