import Mathlib.Algebra.Order.Group.Multiset
import Mathlib.Data.List.Basic
import Mathlib.Data.Multiset.Count

/-!
# Closed walks

A list of directed edges is taken apart into walks: each starts with the first edge left, goes on
by any edge that leaves where it is, and ends where it began or where no edge leaves. Where as many
edges enter every vertex as leave it no walk ends early, and the walks use every edge once.
-/

namespace DressOn.ClosedWalks

variable {V : Type*}

/-- The edges of a walk through the vertices of a list to a last one. -/
def steps (loop : List V) (last : V) : List (V × V) := loop.zip (loop.tail ++ [last])

/-- The edges of a walk through the vertices of a list and back to the first. -/
def closing : List V → List (V × V)
  | [] => []
  | start :: rest => steps (start :: rest) start

theorem steps_snoc (loop : List V) (at' last : V) :
    steps (loop ++ [at']) last = steps loop at' ++ [(at', last)] := by
  cases loop with
  | nil => rfl
  | cons start rest =>
    unfold steps
    exact List.zip_append (by simp)

/-- As many edges enter every vertex as leave it. -/
def Balanced (edges : List (V × V)) : Prop :=
  (edges.map Prod.fst : Multiset V) = (edges.map Prod.snd : Multiset V)

/-- What a container of edges by their start gives: some edge that leaves a vertex, if any does. -/
structure Chooser (V : Type*) where
  choose : List (V × V) → V → Option (V × V)
  leaves : ∀ {edges at' edge}, choose edges at' = some edge → edge ∈ edges ∧ edge.1 = at'
  stuck : ∀ {edges at'}, choose edges at' = none → ∀ edge ∈ edges, edge.1 ≠ at'

variable [DecidableEq V]

/-- The container that gives the first. -/
def Chooser.first : Chooser V where
  choose edges at' := edges.find? fun edge => edge.1 = at'
  leaves found := ⟨List.mem_of_find?_eq_some found, by simpa using List.find?_some found⟩
  stuck missed edge member := of_decide_eq_false
    (Bool.eq_false_iff.mpr (List.find?_eq_none.mp missed edge member))

/-- A walk back to its start, and the edges it leaves. -/
def walk (chooser : Chooser V) (start : V) :
    Nat → List (V × V) → V → List V → List V × List (V × V)
  | 0, next, at', loop => (if at' = start then loop else loop ++ [at'], next)
  | fuel + 1, next, at', loop =>
    if at' = start then (loop, next)
    else
      match chooser.choose next at' with
      | none => (loop ++ [at'], next)
      | some edge => walk chooser start fuel (next.erase edge) edge.2 (loop ++ [at'])

/-- The walks of all edges. -/
def walks (chooser : Chooser V) : Nat → List (V × V) → List (List V)
  | 0, _ => []
  | _ + 1, [] => []
  | fuel + 1, edge :: next =>
    let (loop, next) := walk chooser edge.1 next.length next edge.2 [edge.1]
    loop :: walks chooser fuel next

/-- As many edges enter as leave, but that a walk from `start` has come to `at'`. -/
def Owing (start at' : V) (edges : List (V × V)) : Prop :=
  (edges.map Prod.fst : Multiset V) + {start} = (edges.map Prod.snd : Multiset V) + {at'}

omit [DecidableEq V] in
theorem owing_self {start : V} {edges : List (V × V)} : Owing start start edges ↔ Balanced edges :=
  add_left_inj _

omit [DecidableEq V] in
/-- A walk's first edge. -/
theorem owing_of_balanced {edge : V × V} {next : List (V × V)} (balanced : Balanced (edge :: next)) :
    Owing edge.1 edge.2 next := by
  unfold Balanced at balanced
  unfold Owing
  rw [List.map_cons, List.map_cons, ← Multiset.cons_coe, ← Multiset.cons_coe,
    ← Multiset.singleton_add, ← Multiset.singleton_add] at balanced
  rw [add_comm, balanced, add_comm]

/-- A walk's further edge. -/
theorem owing_erase {start : V} {edge : V × V} {next : List (V × V)} (member : edge ∈ next)
    (owing : Owing start edge.1 next) : Owing start edge.2 (next.erase edge) := by
  have reordered := List.perm_cons_erase member
  have starts := Multiset.coe_eq_coe.mpr (reordered.map Prod.fst)
  have ends := Multiset.coe_eq_coe.mpr (reordered.map Prod.snd)
  unfold Owing at owing ⊢
  rw [starts, ends, List.map_cons, List.map_cons, ← Multiset.cons_coe, ← Multiset.cons_coe,
    ← Multiset.singleton_add, ← Multiset.singleton_add] at owing
  refine add_left_cancel (a := ({edge.1} : Multiset V)) ?_
  rw [← add_assoc, owing]
  ac_rfl

omit [DecidableEq V] in
/-- A walk that is not back at its start can go on. -/
theorem leaves_of_owing {start at' : V} {next : List (V × V)} (away : at' ≠ start)
    (owing : Owing start at' next) : ∃ edge ∈ next, edge.1 = at' := by
  have here : at' ∈ (next.map Prod.fst : Multiset V) + {start} := by
    rw [owing]
    exact Multiset.mem_add.mpr (.inr (Multiset.mem_singleton_self _))
  rcases Multiset.mem_add.mp here with here | here
  · exact List.mem_map.mp (Multiset.mem_coe.mp here)
  · exact absurd (Multiset.mem_singleton.mp here) away

/-- What a walk gives: a closed walk from its start that uses up just its edges. -/
theorem walk_spec (chooser : Chooser V) {start : V} {fuel : Nat} {next : List (V × V)} {at' : V}
    {loop : List V} (enough : next.length ≤ fuel) (owing : Owing start at' next)
    (begun : loop.head? = some start) :
    let (loop', next') := walk chooser start fuel next at' loop
    (closing loop' ++ next').Perm (steps loop at' ++ next) ∧ Balanced next' ∧
      loop'.head? = some start ∧ next'.length ≤ next.length := by
  have closed : ∀ {loop : List V}, loop.head? = some start → closing loop = steps loop start := by
    intro loop begun
    cases loop with
    | nil => exact absurd begun (by simp)
    | cons first rest =>
      obtain rfl := Option.some.inj begun
      rfl
  induction fuel generalizing next at' loop with
  | zero =>
    have empty := List.length_eq_zero_iff.mp (Nat.le_zero.mp enough)
    subst empty
    have back : at' = start := by
      by_contra away
      obtain ⟨edge, member, _⟩ := leaves_of_owing away owing
      exact List.not_mem_nil member
    subst back
    unfold walk
    rw [if_pos rfl]
    exact ⟨(by rw [closed begun]), owing_self.mp owing, begun, Nat.le_refl _⟩
  | succ fuel inductionHypothesis =>
    unfold walk
    by_cases back : at' = start
    · subst back
      rw [if_pos rfl]
      exact ⟨(by rw [closed begun]), owing_self.mp owing, begun, Nat.le_refl _⟩
    · rw [if_neg back]
      cases chosen : chooser.choose next at' with
      | none =>
        obtain ⟨edge, member, leaves⟩ := leaves_of_owing back owing
        exact absurd leaves (chooser.stuck chosen edge member)
      | some edge =>
        obtain ⟨member, leaves⟩ := chooser.leaves chosen
        subst leaves
        have shorter := List.length_erase_of_mem member
        have begun' : (loop ++ [edge.1]).head? = some start := by
          rw [List.head?_append, begun]
          rfl
        have rest := inductionHypothesis (by omega) (owing_erase member owing) begun'
        obtain ⟨used, balanced, head, length⟩ := rest
        refine ⟨used.trans ?_, balanced, head, by omega⟩
        rw [steps_snoc, List.append_assoc]
        exact (List.perm_cons_erase member).symm.append_left _

/-- The walks of balanced edges are closed and use every edge once. -/
theorem walks_spec (chooser : Chooser V) {fuel : Nat} {edges : List (V × V)}
    (enough : edges.length ≤ fuel) (balanced : Balanced edges) :
    ((walks chooser fuel edges).flatMap closing).Perm edges ∧
      ∀ loop ∈ walks chooser fuel edges, loop ≠ [] := by
  induction fuel generalizing edges with
  | zero =>
    obtain rfl := List.length_eq_zero_iff.mp (Nat.le_zero.mp enough)
    exact ⟨.refl _, fun loop member => nomatch member⟩
  | succ fuel inductionHypothesis =>
    cases edges with
    | nil => exact ⟨.refl _, fun loop member => nomatch member⟩
    | cons edge next =>
      have begun : [edge.1].head? = some edge.1 := rfl
      have spec := walk_spec chooser (Nat.le_refl next.length) (owing_of_balanced balanced) begun
      unfold walks
      generalize walk chooser edge.1 next.length next edge.2 [edge.1] = result at spec ⊢
      obtain ⟨loop, next'⟩ := result
      obtain ⟨used, balanced', head, length⟩ := spec
      rw [List.length_cons] at enough
      obtain ⟨rest, nonempty⟩ := inductionHypothesis (by omega) balanced'
      refine ⟨?_, fun other member => ?_⟩
      · exact (rest.append_left _).trans used
      · rcases List.mem_cons.mp member with rfl | member
        · rintro rfl
          exact absurd head (by simp)
        · exact nonempty other member

end DressOn.ClosedWalks
