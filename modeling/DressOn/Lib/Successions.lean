import Mathlib.Data.List.Chain
import Mathlib.Data.List.Rotate
import Mathlib.Data.Set.Finite.Lattice
import Mathlib.Logic.Relation

/-!
# Successions

A relation that gives every vertex one successor and one predecessor at most. What can be reached
from a vertex of a finite one either goes on for ever or began somewhere. A walk without repetitions
along its edges, in whatever direction, keeps its direction, so that two walks around the same
vertices are the same up to where they begin and the direction.
-/

namespace DressOn.Successions

variable {V : Type*} {E : V → V → Prop}

/-- Every vertex has one successor and one predecessor at most. -/
structure Linear (E : V → V → Prop) : Prop where
  next : ∀ {a b c}, E a b → E a c → b = c
  back : ∀ {a b c}, E a c → E b c → a = b

theorem Linear.flip (linear : Linear E) : Linear (flip E) where
  next := fun first second => linear.back first second
  back := fun first second => linear.next first second

/-! ## Beginnings and ends -/

section Ends

/-- A vertex no edge comes to. -/
def Begins (E : V → V → Prop) (v : V) : Prop := ∀ u, ¬ E u v

/-- A vertex no edge leaves. -/
def Stops (E : V → V → Prop) (v : V) : Prop := ∀ w, ¬ E v w

/-- A vertex with no beginning before it is in a ring: what it reaches goes on. -/
theorem goes_on (linear : Linear E) (finite : {v | ∃ w, E v w}.Finite) {v : V}
    (endless : ∀ b, Begins E b → ¬ Relation.ReflTransGen E b v) {w : V}
    (reach : Relation.ReflTransGen E v w) : ¬ Stops E w := by
  have before : {b | Relation.ReflTransGen E b v}.Finite := by
    refine (finite.insert v).subset fun b back => ?_
    rcases Relation.ReflTransGen.cases_head back with rfl | ⟨c, edge, _⟩
    · exact Set.mem_insert _ _
    · exact Set.mem_insert_of_mem _ ⟨c, edge⟩
  have previous : ∀ b : {b | Relation.ReflTransGen E b v}, ∃ p : {b | Relation.ReflTransGen E b v},
      E p b := by
    intro b
    by_contra none_
    refine endless b.1 (fun u edge => none_ ⟨⟨u, .head edge b.2⟩, edge⟩) b.2
  choose previous edge using previous
  have injective : Function.Injective previous := by
    intro b c same
    exact Subtype.ext (linear.next (edge b) (same ▸ edge c))
  have := before.to_subtype
  have surjective := Finite.injective_iff_surjective.mp injective
  have inside : Relation.ReflTransGen E w v := by
    induction reach with
    | refl => exact .refl
    | tail _ step ih =>
        obtain ⟨next, same⟩ := surjective ⟨_, ih⟩
        have forward := edge next
        rw [same] at forward
        rw [linear.next step forward]
        exact next.2
  obtain ⟨next, same⟩ := surjective ⟨w, inside⟩
  have forward := edge next
  rw [same] at forward
  exact fun stops => stops _ forward

/-- Where what a vertex reaches stops, it began somewhere. -/
theorem exists_begins (linear : Linear E) (finite : {v | ∃ w, E v w}.Finite) {v w : V}
    (reach : Relation.ReflTransGen E v w) (stops : Stops E w) :
    ∃ b, Begins E b ∧ Relation.ReflTransGen E b v := by
  by_contra none_
  exact goes_on linear finite (fun b begins back => none_ ⟨b, begins, back⟩) reach stops

end Ends

/-! ## Walks -/

section Walks

/-- Along an edge, in either direction. -/
def Beside (E : V → V → Prop) (a b : V) : Prop := E a b ∨ E b a

/-- A walk without repetitions keeps its direction. -/
theorem keeps_direction (linear : Linear E) {a b : V} {rest : List V}
    (distinct : (a :: b :: rest).Nodup) (walk : (a :: b :: rest).IsChain (Beside E))
    (first : E a b) : (a :: b :: rest).IsChain E := by
  induction rest generalizing a b with
  | nil => exact List.isChain_pair.mpr first
  | cons c rest ih =>
      obtain ⟨_, later⟩ := List.isChain_cons_cons.mp walk
      have step : E b c := by
        rcases (List.isChain_cons_cons.mp later).1 with forth | back
        · exact forth
        · have same := linear.back first back
          subst same
          exact absurd (List.mem_cons_of_mem _ List.mem_cons_self)
            (List.nodup_cons.mp distinct).1
      exact List.isChain_cons_cons.mpr ⟨first, ih (List.nodup_cons.mp distinct).2 later step⟩

/-- A walk without repetitions goes along the edges or against them. -/
theorem along_or_against (linear : Linear E) {walk : List V} (distinct : walk.Nodup)
    (chain : walk.IsChain (Beside E)) : walk.IsChain E ∨ walk.IsChain (flip E) := by
  cases walk with
  | nil => exact .inl .nil
  | cons a rest =>
      cases rest with
      | nil => exact .inl (.singleton a)
      | cons b rest =>
          rcases (List.isChain_cons_cons.mp chain).1 with forth | back
          · exact .inl (keeps_direction linear distinct chain forth)
          · refine .inr (keeps_direction linear.flip distinct (chain.imp fun _ _ => Or.symm) back)

/-- Along the edges there is one walk of a length. -/
theorem chain_unique (linear : Linear E) {a : V} {first second : List V}
    (one : (a :: first).IsChain E) (two : (a :: second).IsChain E)
    (same : first.length = second.length) : first = second := by
  induction first generalizing a second with
  | nil => exact (List.length_eq_zero_iff.mp same.symm).symm
  | cons b first ih =>
      cases second with
      | nil => cases same
      | cons c second =>
          obtain ⟨stepOne, one⟩ := List.isChain_cons_cons.mp one
          obtain ⟨stepTwo, two⟩ := List.isChain_cons_cons.mp two
          obtain rfl := linear.next stepOne stepTwo
          rw [ih one two (Nat.succ.inj same)]

/-- What a walk along the edges comes to can be reached. -/
theorem reach_of_chain {a b : V} {rest : List V} (chain : (a :: rest).IsChain E)
    (inside : b ∈ a :: rest) : Relation.ReflTransGen E a b := by
  induction rest generalizing a with
  | nil => exact List.mem_singleton.mp inside ▸ .refl
  | cons c rest ih =>
      obtain ⟨step, later⟩ := List.isChain_cons_cons.mp chain
      rcases List.mem_cons.mp inside with rfl | inside
      · exact .refl
      · exact .head step (ih later inside)

end Walks

end DressOn.Successions
