import Mathlib.Data.Finset.Card
import Mathlib.Data.Fintype.Quotient
import Mathlib.Logic.Function.Basic
import Mathlib.Logic.Relation
import Mathlib.SetTheory.Cardinal.Finite

/-!
# Union and find

A forest of parent links, the walk to a root that halves its path, and what linking roots does to
the classes. A forest is described by the root of each node: halving changes no root, a link gives
the nodes of one tree the root of another. Whatever direction a program links its roots in, the
classes are those that its links generate.
-/

namespace DressOn.UnionFind

/-- The walk to a root: each node it leaves is hung under its grandparent. -/
def find : Nat → (Nat → Nat) → Nat → (Nat → Nat) × Nat
  | 0, parent, x => (parent, x)
  | fuel + 1, parent, x =>
    if parent x = x then (parent, x)
    else
      let parent := Function.update parent x (parent (parent x))
      find fuel parent (parent x)

/-- Every node goes up to its own root. -/
def Descends (parent height : Nat → Nat) : Prop :=
  ∀ x, parent x ≠ x → height (parent x) < height x

/-- A forest over the first `n` numbers, and the root of each. -/
structure Forest (n : Nat) (parent label : Nat → Nat) : Prop where
  inside : ∀ x, x < n → parent x < n
  outside : ∀ x, n ≤ x → parent x = x
  up : ∀ x, label (parent x) = label x
  fixed : ∀ x, parent x = x → label x = x
  acyclic : ∃ height, Descends parent height

section Forests

variable {n : Nat} {parent label : Nat → Nat}

/-- At first every node is a root. -/
theorem Forest.start (n : Nat) : Forest n (fun x => x) (fun x => x) where
  inside := fun _ inside => inside
  outside := fun _ _ => rfl
  up := fun _ => rfl
  fixed := fun _ _ => rfl
  acyclic := ⟨fun _ => 0, fun _ moved => absurd rfl moved⟩

/-- What holds of the roots and comes down the links holds of all. -/
theorem Forest.induct (forest : Forest n parent label) (fact : Nat → Prop)
    (root : ∀ x, parent x = x → fact x) (down : ∀ x, fact (parent x) → fact x) (x : Nat) :
    fact x := by
  obtain ⟨height, descends⟩ := forest.acyclic
  generalize same : height x = bound
  induction bound using Nat.strongRecOn generalizing x with
  | ind bound inductionHypothesis =>
    by_cases fixed : parent x = x
    · exact root x fixed
    · exact down x (inductionHypothesis _ (same ▸ descends x fixed) _ rfl)

theorem Forest.parent_label (forest : Forest n parent label) (x : Nat) :
    parent (label x) = label x := by
  refine forest.induct (fun x => parent (label x) = label x) ?_ ?_ x
  · intro x fixed
    rw [forest.fixed x fixed, fixed]
  · intro x above
    rwa [forest.up] at above

theorem Forest.label_label (forest : Forest n parent label) (x : Nat) :
    label (label x) = label x := forest.fixed _ (forest.parent_label x)

theorem Forest.label_lt (forest : Forest n parent label) {x : Nat} (inside : x < n) :
    label x < n := by
  refine forest.induct (fun x => x < n → label x < n) ?_ ?_ x inside
  · intro x fixed inside
    rwa [forest.fixed x fixed]
  · intro x above inside
    have := above (forest.inside x inside)
    rwa [forest.up] at this

/-- Halving keeps every root. -/
theorem Forest.halve (forest : Forest n parent label) {height : Nat → Nat}
    (descends : Descends parent height) {x : Nat} (moved : parent x ≠ x) :
    Forest n (Function.update parent x (parent (parent x))) label ∧
      Descends (Function.update parent x (parent (parent x))) height := by
  have inside : x < n := Nat.lt_of_not_le fun outside => moved (forest.outside x outside)
  have lower : height (parent (parent x)) < height x := by
    by_cases top : parent (parent x) = parent x
    · rw [top]
      exact descends x moved
    · exact (descends _ top).trans (descends x moved)
  have descends' : Descends (Function.update parent x (parent (parent x))) height := by
    intro y
    by_cases here : y = x
    · subst here
      rw [Function.update_self]
      exact fun _ => lower
    · rw [Function.update_of_ne here]
      exact descends y
  refine ⟨⟨fun y bound => ?_, fun y bound => ?_, fun y => ?_, fun y fixed => ?_,
    height, descends'⟩, descends'⟩
  · by_cases here : y = x
    · subst here
      rw [Function.update_self]
      exact forest.inside _ (forest.inside _ bound)
    · rw [Function.update_of_ne here]
      exact forest.inside y bound
  · rw [Function.update_of_ne (by omega)]
    exact forest.outside y bound
  · by_cases here : y = x
    · subst here
      rw [Function.update_self, forest.up, forest.up]
    · rw [Function.update_of_ne here, forest.up]
  · by_cases here : y = x
    · subst here
      rw [Function.update_self] at fixed
      exact absurd lower (by rw [fixed]; exact Nat.lt_irrefl _)
    · rw [Function.update_of_ne here] at fixed
      exact forest.fixed y fixed

/-- A walk with as many steps as the node is high ends at the root. -/
theorem Forest.find_of_height (forest : Forest n parent label) {height : Nat → Nat}
    (descends : Descends parent height) {fuel x : Nat} (enough : height x ≤ fuel) :
    (find fuel parent x).2 = label x ∧ Forest n (find fuel parent x).1 label := by
  induction fuel generalizing parent x with
  | zero =>
    have root : parent x = x := by
      by_contra moved
      have := descends x moved
      omega
    exact ⟨(forest.fixed x root).symm, forest⟩
  | succ fuel inductionHypothesis =>
    unfold find
    by_cases root : parent x = x
    · rw [if_pos root]
      exact ⟨(forest.fixed x root).symm, forest⟩
    · rw [if_neg root]
      obtain ⟨halved, descends'⟩ := forest.halve descends root
      have lower : height (parent x) < height x := descends x root
      have next : (Function.update parent x (parent (parent x))) x = parent (parent x) :=
        Function.update_self ..
      have bound : height (parent (parent x)) ≤ fuel := by
        by_cases top : parent (parent x) = parent x
        · rw [top]
          omega
        · have := descends _ top
          omega
      obtain ⟨found, after⟩ := inductionHypothesis halved descends' bound
      rw [forest.up, forest.up] at found
      simp only [next]
      exact ⟨found, after⟩

/-- How many of the first `n` nodes are lower. -/
def rank (height : Nat → Nat) (n x : Nat) : Nat :=
  ((Finset.range n).filter fun y => height y < height x).card

/-- Heights need be no more than there are nodes. -/
theorem Forest.descends_rank (forest : Forest n parent label) {height : Nat → Nat}
    (descends : Descends parent height) : Descends parent (rank height n) := by
  intro x moved
  have inside : x < n := Nat.lt_of_not_le fun outside => moved (forest.outside x outside)
  have lower := descends x moved
  refine Finset.card_lt_card (Finset.ssubset_iff_of_subset ?_ |>.mpr ⟨parent x, ?_, ?_⟩)
  · intro y member
    obtain ⟨bound, below⟩ := Finset.mem_filter.mp member
    exact Finset.mem_filter.mpr ⟨bound, below.trans lower⟩
  · exact Finset.mem_filter.mpr ⟨Finset.mem_range.mpr (forest.inside x inside), lower⟩
  · intro member
    exact Nat.lt_irrefl _ (Finset.mem_filter.mp member).2

/-- As many steps as there are nodes find the root, and change none. -/
theorem Forest.find (forest : Forest n parent label) (x : Nat) :
    (UnionFind.find n parent x).2 = label x ∧ Forest n (UnionFind.find n parent x).1 label := by
  obtain ⟨height, descends⟩ := forest.acyclic
  refine forest.find_of_height (forest.descends_rank descends) ?_
  exact (Finset.card_filter_le _ _).trans (Finset.card_range n).le

/-- The roots once the tree of `a` hangs under `b`. -/
def relabel (label : Nat → Nat) (a b : Nat) : Nat → Nat := fun x =>
  if label x = a then b else label x

/-- Hanging one root under another gives its tree the other root. -/
theorem Forest.link (forest : Forest n parent label) {a b : Nat} (insideA : a < n) (insideB : b < n)
    (rootA : label a = a) (rootB : label b = b) :
    Forest n (Function.update parent a b) (relabel label a b) := by
  obtain ⟨height, descends⟩ := forest.acyclic
  refine ⟨fun y bound => ?_, fun y bound => ?_, fun y => ?_, fun y fixed => ?_,
    fun y => if label y = a then height y + height b + 1 else height y, fun y => ?_⟩
  · by_cases here : y = a
    · rw [here, Function.update_self]
      exact insideB
    · rw [Function.update_of_ne here]
      exact forest.inside y bound
  · rw [Function.update_of_ne (by omega)]
    exact forest.outside y bound
  · by_cases here : y = a
    · subst here
      unfold relabel
      rw [Function.update_self, if_pos rootA, rootB, ite_self]
    · unfold relabel
      rw [Function.update_of_ne here, forest.up]
  · unfold relabel
    by_cases here : y = a
    · subst here
      rw [Function.update_self] at fixed
      rw [if_pos rootA, fixed]
    · rw [Function.update_of_ne here] at fixed
      have own := forest.fixed y fixed
      rw [own, if_neg here]
  · intro moved
    by_cases here : y = a
    · subst here
      rw [Function.update_self] at moved ⊢
      beta_reduce
      rw [rootB, if_neg moved, if_pos rootA]
      omega
    · rw [Function.update_of_ne here] at moved ⊢
      have lower := descends y moved
      beta_reduce
      rw [forest.up]
      by_cases tree : label y = a
      · rw [if_pos tree, if_pos tree]
        omega
      · rw [if_neg tree, if_neg tree]
        exact lower

end Forests

section Classes

/-- The classes after a link: those of its ends are one. -/
def Merged (label label' : Nat → Nat) (a b : Nat) : Prop :=
  ∀ x y, label' x = label' y ↔ label x = label y ∨ (label x = label a ∧ label y = label b) ∨
    (label x = label b ∧ label y = label a)

theorem merged_relabel (label : Nat → Nat) (a b : Nat) :
    Merged label (relabel label (label a) (label b)) a b := by
  intro x y
  unfold relabel
  split <;> split <;> omega

theorem Merged.symm {label label' : Nat → Nat} {a b : Nat} (merged : Merged label label' b a) :
    Merged label label' a b := by
  intro x y
  rw [merged x y, or_comm (a := label x = label b ∧ label y = label a)]

/-- A step that joins the classes of two nodes, whichever way it links their roots. -/
def Joins (n : Nat) (a b : Nat) (parent parent' : Nat → Nat) : Prop :=
  ∀ label, Forest n parent label → ∃ label', Forest n parent' label' ∧ Merged label label' a b

/-- Two nodes are connected by the links. -/
def Connected (links : List (Nat × Nat)) : Nat → Nat → Prop :=
  Relation.EqvGen fun a b => (a, b) ∈ links

/-- A forest whose classes are those of the links. -/
def Represents (n : Nat) (links : List (Nat × Nat)) (parent label : Nat → Nat) : Prop :=
  Forest n parent label ∧ ∀ x y, label x = label y ↔ Connected links x y

theorem connected_mono {links more : List (Nat × Nat)} (subset : links ⊆ more) {x y : Nat}
    (connected : Connected links x y) : Connected more x y :=
  Relation.EqvGen.mono (fun _ _ member => subset member) x y connected

/-- Connected nodes are alike in whatever both ends of each link are. -/
theorem Connected.iff {links : List (Nat × Nat)} (fact : Nat → Prop)
    (ends : ∀ a b, (a, b) ∈ links → (fact a ↔ fact b)) {x y : Nat}
    (connected : Connected links x y) : fact x ↔ fact y := by
  induction connected with
  | rel a b member => exact ends a b member
  | refl a => exact Iff.rfl
  | symm a b _ inductionHypothesis => exact inductionHypothesis.symm
  | trans a b c _ _ first second => exact first.trans second

theorem represents_start (n : Nat) : Represents n [] (fun x => x) (fun x => x) := by
  refine ⟨Forest.start n, fun x y => ⟨fun same => ?_, fun connected => ?_⟩⟩
  · have same : x = y := same
    subst same
    exact .refl _
  · refine (Connected.iff (fun z => x = z) ?_ connected).mp rfl
    intro a b member
    exact absurd member List.not_mem_nil

/-- One more link. -/
theorem Represents.join {n : Nat} {links : List (Nat × Nat)} {parent label parent' : Nat → Nat}
    {a b : Nat} (represents : Represents n links parent label) (joins : Joins n a b parent parent') :
    ∃ label', Represents n (links ++ [(a, b)]) parent' label' := by
  obtain ⟨forest, classes⟩ := represents
  obtain ⟨label', forest', merged⟩ := joins label forest
  have old : ∀ {x y}, label x = label y → Connected (links ++ [(a, b)]) x y := fun same =>
    connected_mono (List.subset_append_left _ _) ((classes _ _).mp same)
  have new : Connected (links ++ [(a, b)]) a b :=
    .rel _ _ (List.mem_append_right _ (List.mem_singleton_self _))
  refine ⟨label', forest', fun x y => ⟨fun same => ?_, fun connected => ?_⟩⟩
  · rcases (merged x y).mp same with here | ⟨left, right⟩ | ⟨left, right⟩
    · exact old here
    · exact .trans _ _ _ (old left) (.trans _ _ _ new (old right.symm))
    · exact .trans _ _ _ (old left) (.trans _ _ _ (.symm _ _ new) (old right.symm))
  · refine (Connected.iff (fun z => label' x = label' z) ?_ connected).mp rfl
    intro c d member
    have same : label' c = label' d := by
      rcases List.mem_append.mp member with member | member
      · exact (merged c d).mpr (.inl ((classes c d).mpr (.rel _ _ member)))
      · obtain ⟨rfl, rfl⟩ := Prod.mk.inj (List.mem_singleton.mp member)
        exact (merged c d).mpr (.inr (.inl ⟨rfl, rfl⟩))
    rw [same]

/-- All links of a list, each joined by a step. -/
theorem represents_foldl {n : Nat} {join : (Nat → Nat) → Nat × Nat → Nat → Nat}
    {links : List (Nat × Nat)}
    (joins : ∀ link ∈ links, ∀ parent, Joins n link.1 link.2 parent (join parent link)) :
    ∃ label, Represents n links (links.foldl join fun x => x) label := by
  induction links using List.reverseRecOn with
  | nil => exact ⟨_, represents_start n⟩
  | append_singleton links link inductionHypothesis =>
    obtain ⟨label, represents⟩ := inductionHypothesis fun link member =>
      joins link (List.mem_append_left _ member)
    rw [List.foldl_append]
    exact represents.join (joins link (List.mem_append_right _ (List.mem_singleton_self _)) _)

end Classes

section Counting

/-- The components of the nodes that satisfy a predicate. -/
def componentSetoid (links : List (Nat × Nat)) (used : Nat → Prop) : Setoid {x // used x} where
  r x y := Connected links x y
  iseqv := ⟨fun _ => .refl _, fun connected => .symm _ _ connected,
    fun first second => .trans _ _ _ first second⟩

/-- There are as many components of the used nodes as used roots. -/
theorem Represents.card_components {n : Nat} {links : List (Nat × Nat)} {parent label : Nat → Nat}
    (represents : Represents n links parent label) {used : Nat → Prop} [DecidablePred used]
    (inside : ∀ x, used x → x < n) (ends : ∀ a b, (a, b) ∈ links → (used a ↔ used b)) :
    Nat.card (Quotient (componentSetoid links used))
      = ((Finset.range n).filter fun x => used x ∧ label x = x).card := by
  obtain ⟨forest, classes⟩ := represents
  have root : ∀ x, used x → used (label x) := fun x use =>
    (Connected.iff used ends ((classes x (label x)).mp (forest.label_label x).symm)).mp use
  let toRoot : Quotient (componentSetoid links used) →
      {x // x ∈ (Finset.range n).filter fun x => used x ∧ label x = x} :=
    Quotient.lift (fun x => ⟨label x.1, Finset.mem_filter.mpr
      ⟨Finset.mem_range.mpr (forest.label_lt (inside x.1 x.2)), root x.1 x.2,
        forest.label_label x.1⟩⟩)
      fun x y connected => Subtype.ext ((classes x.1 y.1).mpr connected)
  have bijective : Function.Bijective toRoot := by
    constructor
    · intro one two
      refine Quotient.inductionOn₂ one two fun x y same => Quotient.sound ?_
      exact (classes x.1 y.1).mp (Subtype.mk.inj same)
    · rintro ⟨x, member⟩
      obtain ⟨_, use, own⟩ := Finset.mem_filter.mp member
      exact ⟨Quotient.mk _ ⟨x, use⟩, Subtype.ext own⟩
  rw [Nat.card_eq_of_bijective toRoot bijective, Nat.card_eq_fintype_card, Fintype.card_coe]

end Counting

end DressOn.UnionFind
