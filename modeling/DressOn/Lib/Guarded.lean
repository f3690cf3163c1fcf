import Mathlib.Data.List.Basic

/-!
# Guarded reading

Computations that read lists by index and can refuse their input. A read out of range is a fault,
which is told apart from a refusal, and `Safe` says of a computation that it has no fault and what
holds of its result where it is not refused.
-/

namespace DressOn.Guarded

variable {ε α β σ ι : Type}

/-- How a computation fails. -/
inductive Failure (ε : Type) where
  | fault
  | refused (reason : ε)
  deriving DecidableEq

/-- A computation that reads and can refuse. -/
abbrev Attempt (ε α : Type) := Except (Failure ε) α

/-- The input is refused. -/
def refuse (reason : ε) : Attempt ε α := .error (.refused reason)

/-- The input is refused in one case. -/
def refuseIf (bad : Prop) [Decidable bad] (reason : ε) : Attempt ε Unit :=
  if bad then refuse reason else .ok ()

/-- A value that has to be there. -/
def need : Option α → Attempt ε α
  | some value => .ok value
  | none => .error .fault

/-- A member of a list. -/
def read (items : List α) (i : Nat) : Attempt ε α := need items[i]?

/-- There is no fault, and a result has the property. -/
def Safe (computation : Attempt ε α) (post : α → Prop) : Prop :=
  match computation with
  | .ok value => post value
  | .error .fault => False
  | .error (.refused _) => True

variable {computation : Attempt ε α} {post : α → Prop}

/-- What is not refused is not bad. -/
theorem safe_refuseIf {bad : Prop} [Decidable bad] (reason : ε) :
    Safe (refuseIf bad reason) fun _ => ¬ bad := by
  rw [refuseIf]
  split
  next => trivial
  next good => exact good

/-- What is needed is there. -/
theorem safe_need {found : Option α} {value : α} (there : found = some value) (holds : post value) :
    Safe (ε := ε) (need found) post := by
  subst there
  exact holds

/-- A cell inside is read. -/
theorem safe_read {items : List α} {i : Nat} (inside : i < items.length)
    (holds : ∀ value, items[i]? = some value → post value) : Safe (ε := ε) (read items i) post :=
  safe_need (List.getElem?_eq_getElem inside) (holds _ (List.getElem?_eq_getElem inside))

/-- What is read is in the list. -/
theorem safe_read_mem {items : List α} {i : Nat} (inside : i < items.length) :
    Safe (ε := ε) (read items i) (· ∈ items) :=
  safe_read inside fun _ found => List.mem_of_getElem? found

/-- A safe computation after another. -/
theorem Safe.bind {next : α → Attempt ε β} {post' : β → Prop} (safe : Safe computation post)
    (then_ : ∀ value, computation = .ok value → post value → Safe (next value) post') :
    Safe (computation >>= next) post' := by
  cases computation with
  | ok value => exact then_ value rfl safe
  | error failure =>
    cases failure with
    | fault => exact safe
    | refused => trivial

/-- A weaker promise. -/
theorem Safe.weaken {post' : α → Prop} (safe : Safe computation post)
    (weaker : ∀ value, post value → post' value) : Safe computation post' := by
  cases computation with
  | ok value => exact weaker value safe
  | error failure =>
    cases failure with
    | fault => exact safe
    | refused => trivial

/-- What holds of every result. -/
theorem Safe.of_eq {value : α} (safe : Safe computation post) (done : computation = .ok value) :
    post value := by
  subst done
  exact safe

/-- A loop whose turns keep an invariant. -/
theorem safe_foldlM {step : σ → ι → Attempt ε σ} {items : List ι} (invariant : σ → Prop)
    (turn : ∀ state, ∀ item ∈ items, invariant state → Safe (step state item) invariant)
    {state : σ} (start : invariant state) : Safe (items.foldlM step state) invariant := by
  induction items generalizing state with
  | nil => exact start
  | cons item items inductionHypothesis =>
    rw [List.foldlM_cons]
    refine (turn state item List.mem_cons_self start).bind fun next _ kept => ?_
    exact inductionHypothesis (fun state other member =>
      turn state other (List.mem_cons_of_mem _ member)) kept

/-- What is checked of each member of a list. -/
theorem safe_forM {check : ι → Attempt ε PUnit} {items : List ι} {good : ι → Prop}
    (each : ∀ item ∈ items, Safe (check item) fun _ => good item) :
    Safe (items.forM check) fun _ => ∀ item ∈ items, good item := by
  induction items with
  | nil => exact fun _ member => nomatch member
  | cons item items inductionHypothesis =>
    change Safe (check item >>= fun _ => items.forM check) _
    refine (each item List.mem_cons_self).bind fun _ _ first => ?_
    refine (inductionHypothesis fun other member =>
      each other (List.mem_cons_of_mem _ member)).weaken fun _ rest => ?_
    exact List.forall_mem_cons.mpr ⟨first, rest⟩

/-- What a list maps to, one by one. -/
theorem safe_mapM {f : ι → Attempt ε α} {items : List ι} {related : ι → α → Prop}
    (each : ∀ item ∈ items, Safe (f item) (related item)) :
    Safe (items.mapM f) (List.Forall₂ related items) := by
  induction items with
  | nil => exact .nil
  | cons item items inductionHypothesis =>
    rw [List.mapM_cons]
    refine (each item List.mem_cons_self).bind fun value _ first => ?_
    refine (inductionHypothesis fun other member =>
      each other (List.mem_cons_of_mem _ member)).bind fun values _ rest => ?_
    exact .cons first rest

/-- Reading at places that are all in range gives values. -/
theorem exists_mapM_read {items : List α} {places : List Nat}
    (inside : ∀ i ∈ places, i < items.length) :
    ∃ values, places.mapM (read items) = (.ok values : Attempt ε (List α)) := by
  induction places with
  | nil => exact ⟨[], rfl⟩
  | cons i places inductionHypothesis =>
    rw [List.forall_mem_cons] at inside
    obtain ⟨values, rest⟩ := inductionHypothesis inside.2
    refine ⟨items.get ⟨i, inside.1⟩ :: values, ?_⟩
    rw [List.mapM_cons, rest]
    change (need items[i]? >>= _) = _
    rw [List.getElem?_eq_getElem inside.1]
    rfl

end DressOn.Guarded
