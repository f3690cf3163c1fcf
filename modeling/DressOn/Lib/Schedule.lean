import Mathlib.Data.List.Perm.Basic
import Mathlib.Data.Set.Basic

/-!
# Reordering actions that do not conflict

Actions on a store are run one after another in some order. Two orders of the
same actions end in the same store when every pair they disagree on commutes.
`Footprint` gives the usual reason to commute: an action changes only the cells
it writes, and what it writes depends only on the cells it reads or writes.
-/

namespace DressOn.Schedule

universe u v w

variable {ι : Type u} {σ : Type v}

/-- Run the named actions left to right. -/
def run (act : ι → σ → σ) (order : List ι) (start : σ) : σ :=
  order.foldl (fun state index => act index state) start

@[simp] theorem run_nil (act : ι → σ → σ) (start : σ) : run act [] start = start := rfl

@[simp] theorem run_cons (act : ι → σ → σ) (index : ι) (order : List ι) (start : σ) :
    run act (index :: order) start = run act order (act index start) := rfl

theorem run_append (act : ι → σ → σ) (first second : List ι) (start : σ) :
    run act (first ++ second) start = run act second (run act first start) := by
  simp [run, List.foldl_append]

/-- Two actions whose order does not matter. -/
def Commutes (act : ι → σ → σ) (left right : ι) : Prop :=
  ∀ state, act left (act right state) = act right (act left state)

/-- `left` is run before `right` in `order`. -/
def Before (order : List ι) (left right : ι) : Prop := [left, right].Sublist order

/-- An action that commutes with all of a prefix can be moved to its front. -/
theorem run_move_front {act : ι → σ → σ} {index : ι} {before : List ι}
    (commutes : ∀ other ∈ before, Commutes act index other) (start : σ) :
    act index (run act before start) = run act before (act index start) := by
  induction before generalizing start with
  | nil => rfl
  | cons head tail ih =>
      have tailCommutes : ∀ other ∈ tail, Commutes act index other :=
        fun other member => commutes other (List.mem_cons_of_mem _ member)
      have headCommutes : act index (act head start) = act head (act index start) :=
        commutes head List.mem_cons_self start
      rw [run_cons, ih tailCommutes, headCommutes, run_cons]

/-- Two orders of the same actions agree when every pair they invert commutes. -/
theorem run_eq_of_perm {act : ι → σ → σ} {order graph : List ι} (same : order.Perm graph)
    (inverted : ∀ left right, Before order left right → Before graph right left →
      Commutes act left right) (start : σ) :
    run act order start = run act graph start := by
  induction order generalizing graph start with
  | nil => rw [List.nil_perm.mp same]
  | cons head rest ih =>
      obtain ⟨before, after, rfl⟩ := List.append_of_mem (same.subset List.mem_cons_self)
      have restSame : rest.Perm (before ++ after) :=
        (List.perm_cons head).mp (same.trans List.perm_middle)
      -- Everything the graph order runs ahead of `head` runs after it here.
      have headCommutes : ∀ other ∈ before, Commutes act head other := by
        intro other member
        have later : other ∈ rest :=
          restSame.mem_iff.mpr (List.mem_append_left after member)
        have inOrder : Before (head :: rest) head other :=
          (List.singleton_sublist.mpr later).cons_cons head
        have inGraph : Before (before ++ head :: after) other head :=
          (List.singleton_sublist.mpr member).append
            (List.singleton_sublist.mpr List.mem_cons_self)
        exact inverted head other inOrder inGraph
      have restInverted : ∀ left right, Before rest left right →
          Before (before ++ after) right left → Commutes act left right := by
        intro left right inRest inGraph
        refine inverted left right (inRest.cons head) ?_
        exact inGraph.trans ((List.Sublist.refl before).append (List.sublist_cons_self head after))
      rw [run_cons, ih restSame restInverted, run_append, run_append, run_cons,
        run_move_front headCommutes]

/-- A nodup order cannot run two actions both ways round. -/
theorem Before.asymm {order : List ι} (nodup : order.Nodup) {left right : ι}
    (before : Before order left right) : ¬ Before order right left := by
  intro reversed
  induction order with
  | nil => cases before
  | cons head rest ih =>
      obtain ⟨fresh, restNodup⟩ := List.nodup_cons.mp nodup
      cases before with
      | cons _ inRest =>
          cases reversed with
          | cons _ reversedRest => exact ih restNodup inRest reversedRest
          | cons_cons _ _ => exact fresh (inRest.subset (by simp))
      | cons_cons _ tailRest =>
          cases reversed with
          | cons _ reversedRest => exact fresh (reversedRest.subset (by simp))
          | cons_cons _ _ => exact fresh (tailRest.subset (by simp))

/-- In the natural order of indices, earlier means smaller. -/
theorem Before.lt_of_range {count left right : Nat}
    (before : Before (List.range count) left right) : left < right := by
  have sorted : ([left, right] : List Nat).Pairwise (· < ·) :=
    List.pairwise_lt_range.sublist before
  simpa using sorted

section Footprints

variable {κ : Type u} {β : Type w}

/-- What an action on a store of cells may touch: it leaves every cell outside
`writes` alone, and the cells of `writes` receive values that depend only on
the cells of `reads` and `writes`. -/
structure Footprint (act : (κ → β) → κ → β) (reads writes : Set κ) : Prop where
  frame : ∀ store cell, cell ∉ writes → act store cell = store cell
  local_ : ∀ store other, (∀ cell, cell ∈ reads ∪ writes → store cell = other cell) →
    ∀ cell ∈ writes, act store cell = act other cell

/-- Actions neither of which writes a cell the other touches commute. -/
theorem Footprint.commute {act act' : (κ → β) → κ → β} {reads writes reads' writes' : Set κ}
    (first : Footprint act reads writes) (second : Footprint act' reads' writes')
    (apart : ∀ cell ∈ writes, cell ∉ reads' ∪ writes')
    (apart' : ∀ cell ∈ writes', cell ∉ reads ∪ writes) (store : κ → β) :
    act (act' store) = act' (act store) := by
  funext cell
  by_cases written : cell ∈ writes
  · have untouched : cell ∉ writes' := fun other => apart cell written (Or.inr other)
    rw [second.frame _ _ untouched]
    refine first.local_ _ _ (fun seen touched => ?_) cell written
    exact second.frame _ _ fun other => apart' seen other touched
  · rw [first.frame _ _ written]
    by_cases written' : cell ∈ writes'
    · refine second.local_ _ _ (fun seen touched => ?_) cell written'
      exact (first.frame _ _ fun other => apart seen other touched).symm
    · rw [second.frame _ _ written', second.frame _ _ written', first.frame _ _ written]

/-- Updating an owned cell from its own value stays inside the footprint. -/
theorem Footprint.update [DecidableEq κ] {reads writes : Set κ} {cell : κ}
    (owned : cell ∈ writes) (f : β → β) :
    Footprint (fun store => Function.update store cell (f (store cell))) reads writes where
  frame := by
    intro store other outside
    have distinct : other ≠ cell := fun same => outside (by rwa [same])
    exact Function.update_of_ne distinct _ _
  local_ := by
    intro store other agree seen written
    by_cases same : seen = cell
    · subst same
      simp [agree seen (Or.inr owned)]
    · simp [same, agree seen (Or.inr written)]

end Footprints

end DressOn.Schedule
