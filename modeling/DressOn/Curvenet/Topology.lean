import Mathlib
import DressOn.Lib.ClosedWalks
import DressOn.Lib.Tallies
import DressOn.Lib.UnionFind

/-!
# Boundary loops and components

`topology` of `curvenet_api.cpp`: the edges that one triangle uses are taken apart into walks, and
the components counted by union and find. A `std::map` is a tally in the order of its keys, a
`std::multimap` the list of its edges in order; which of several edges its `find` gives is left
open.
-/

namespace DressOn.Curvenet

open ClosedWalks Tallies UnionFind

/-- A triangle: three places of the index list. -/
structure Tri where
  a : Nat
  b : Nat
  c : Nat
deriving DecidableEq, Repr

/-- A directed edge, in the order of `std::pair`. -/
abbrev Edge := Nat ×ₗ Nat

/-- The directed edges of a triangle. -/
def Tri.edges (tri : Tri) : List (Nat × Nat) := [(tri.a, tri.b), (tri.b, tri.c), (tri.c, tri.a)]

/-- The vertices of a triangle. -/
def Tri.corners (tri : Tri) : List Nat := [tri.a, tri.b, tri.c]

/-- `{ min(a, b), max(a, b) }`. -/
def unordered (edge : Nat × Nat) : Edge := toLex (min edge.1 edge.2, max edge.1 edge.2)

/-- Each use of a directed edge. -/
def uses (f : List Tri) : List (Nat × Nat) := f.flatMap Tri.edges

/-- `directed`. -/
def directed (f : List Tri) : List (Edge × Nat) := tally ((uses f).map toLex)

/-- `undirected`. -/
def undirected (f : List Tri) : List (Edge × Nat) := tally ((uses f).map unordered)

/-- `next`: the directed edges whose undirected one is used once. -/
def next (f : List Tri) : List (Nat × Nat) :=
  ((directed f).filter fun kv => counted (unordered (ofLex kv.1)) (undirected f) == 1).map
    fun kv => ofLex kv.1

/-- The parents after one turn of the loop over the corners: the lower root stays one. -/
def joinRoots (nv : Nat) (parent : Nat → Nat) (edge : Nat × Nat) : Nat → Nat :=
  let (parent, a) := find nv parent edge.1
  let (parent, b) := find nv parent edge.2
  if a ≠ b then Function.update parent (max a b) (min a b) else parent

/-- One turn of the loop over the corners: `used` and `parent`. -/
def joinStep (nv : Nat) (state : (Nat → Bool) × (Nat → Nat)) (edge : Nat × Nat) :
    (Nat → Bool) × (Nat → Nat) :=
  (Function.update state.1 edge.1 true, joinRoots nv state.2 edge)

/-- One turn of the loop that counts: `parent` and `components`. -/
def countStep (nv : Nat) (used : Nat → Bool) (state : (Nat → Nat) × Nat) (i : Nat) :
    (Nat → Nat) × Nat :=
  if used i then
    let (parent, root) := find nv state.1 i
    (parent, if root = i then state.2 + 1 else state.2)
  else state

/-- `components`. -/
def components (nv : Nat) (f : List Tri) : Nat :=
  let (used, parent) := (uses f).foldl (joinStep nv) (fun _ => false, fun i => i)
  ((List.range nv).foldl (countStep nv used) (parent, 0)).2

/-- What `topology` finds out of a mesh. -/
structure Found where
  edges : Nat
  loops : List (List Nat)
  components : Nat
deriving DecidableEq, Repr

/-- `topology`, of `nv` vertices and the triangles `f`. -/
def topology (chooser : Chooser Nat) (nv : Nat) (f : List Tri) : Found where
  edges := (undirected f).length
  loops := walks chooser (next f).length (next f)
  components := components nv f

section Boundary

variable {f : List Tri}

/-- How often the triangles use an edge, in either direction. -/
def eitherWay (f : List Tri) (edge : Nat × Nat) : Nat :=
  (uses f).countP fun other => other == edge || other == edge.swap

/-- A directed edge that one triangle uses, and no other triangle in either direction. -/
def Boundary (f : List Tri) (edge : Nat × Nat) : Prop := edge ∈ uses f ∧ eitherWay f edge = 1

/-- Each undirected edge is used at most twice, and then in opposite directions. -/
def Oriented (f : List Tri) : Prop :=
  ∀ a b, eitherWay f (a, b) ≤ 2 ∧
    (eitherWay f (a, b) = 2 → a = b ∨ ((uses f).count (a, b) = 1 ∧ (uses f).count (b, a) = 1))

theorem unordered_eq_iff {one two : Nat × Nat} :
    unordered one = unordered two ↔ one = two ∨ one = two.swap := by
  obtain ⟨a, b⟩ := one
  obtain ⟨c, d⟩ := two
  unfold unordered
  rw [toLex.injective.eq_iff]
  simp only [Prod.mk.injEq, Prod.swap]
  omega

/-- `undirected` counts both directions. -/
theorem counted_undirected (f : List Tri) (edge : Nat × Nat) :
    counted (unordered edge) (undirected f) = eitherWay f edge := by
  unfold undirected eitherWay
  rw [counted_tally]
  unfold List.count
  rw [List.countP_map]
  refine List.countP_congr fun other _ => ?_
  simp only [Function.comp_apply, beq_iff_eq, Bool.or_eq_true, unordered_eq_iff]

theorem mem_next_iff {edge : Nat × Nat} : edge ∈ next f ↔ Boundary f edge := by
  have keys : edge ∈ next f ↔ toLex edge ∈ (directed f).map Prod.fst ∧
      counted (unordered edge) (undirected f) = 1 := by
    unfold next
    simp only [List.mem_map, List.mem_filter, beq_iff_eq]
    constructor
    · rintro ⟨kv, ⟨member, once⟩, rfl⟩
      exact ⟨⟨kv, member, rfl⟩, once⟩
    · rintro ⟨⟨kv, member, same⟩, once⟩
      refine ⟨kv, ⟨member, ?_⟩, ?_⟩
      · rw [same]
        exact once
      · rw [same]
        rfl
  rw [keys, counted_undirected]
  unfold directed Boundary
  rw [mem_keys_tally, List.mem_map_of_injective toLex.injective]

theorem nodup_next : (next f).Nodup := by
  unfold next
  have keys := nodup_keys_tally ((uses f).map toLex)
  refine List.Nodup.of_map toLex ?_
  rw [List.map_map]
  exact keys.sublist ((List.filter_sublist ..).map _)

theorem eitherWay_swap (f : List Tri) (edge : Nat × Nat) :
    eitherWay f edge.swap = eitherWay f edge := by
  unfold eitherWay
  refine List.countP_congr fun other _ => ?_
  rw [Prod.swap_swap, Bool.or_comm]

/-- An undirected edge is used as often as its two directions. -/
theorem eitherWay_eq_add (f : List Tri) {a b : Nat} (away : a ≠ b) :
    eitherWay f (a, b) = (uses f).count (a, b) + (uses f).count (b, a) := by
  unfold eitherWay
  generalize uses f = edges
  induction edges with
  | nil => rfl
  | cons edge rest inductionHypothesis =>
    rw [List.countP_cons, List.count_cons, List.count_cons, inductionHypothesis]
    by_cases forth : edge = (a, b)
    · have back : edge ≠ (b, a) := by
        rw [forth]
        exact fun same => away (Prod.mk.inj same).1
      rw [if_pos (by simp [forth]), if_pos (by simp [forth]), if_neg (by simp [back])]
      omega
    · by_cases back : edge = (b, a)
      · rw [if_pos (by simp [back]), if_neg (by simp [forth]), if_pos (by simp [back])]
        omega
      · rw [if_neg (by simp [forth, back]), if_neg (by simp [forth]), if_neg (by simp [back])]
        omega

/-- A direction is used no more often than the edge. -/
theorem count_le_eitherWay (f : List Tri) (edge : Nat × Nat) :
    (uses f).count edge ≤ eitherWay f edge := by
  unfold eitherWay
  rw [List.count_eq_countP]
  refine List.countP_mono_left fun other _ same => ?_
  rw [same]
  rfl

/-- The edges in use are all that need be looked at. -/
theorem oriented_iff : Oriented f ↔ ∀ edge ∈ uses f, eitherWay f edge ≤ 2 ∧
    (eitherWay f edge = 2 →
      edge.1 = edge.2 ∨ ((uses f).count edge = 1 ∧ (uses f).count edge.swap = 1)) := by
  constructor
  · exact fun oriented edge _ => oriented edge.1 edge.2
  · intro checked a b
    by_cases forth : (a, b) ∈ uses f
    · exact checked _ forth
    · by_cases back : (b, a) ∈ uses f
      · obtain ⟨most, both⟩ := checked _ back
        have swapped := eitherWay_swap f (a, b)
        rw [Prod.swap_prod_mk] at swapped
        rw [swapped] at most both
        exact ⟨most, fun two => (both two).imp Eq.symm And.symm⟩
      · have none : eitherWay f (a, b) = 0 := by
          refine List.countP_eq_zero.mpr fun other member => ?_
          simp only [Bool.or_eq_true, beq_iff_eq, Prod.swap_prod_mk]
          rintro (rfl | rfl)
          · exact forth member
          · exact back member
        rw [none]
        exact ⟨Nat.zero_le 2, nofun⟩

instance (f : List Tri) : Decidable (Oriented f) := decidable_of_iff _ oriented_iff.symm

/-- A triangle leaves each of its corners as often as it comes to it. -/
theorem balanced_uses (f : List Tri) : ClosedWalks.Balanced (uses f) := by
  unfold ClosedWalks.Balanced
  refine Multiset.coe_eq_coe.mpr ?_
  induction f with
  | nil => exact .refl _
  | cons tri rest inductionHypothesis =>
    have turn : (tri.edges.map Prod.fst).Perm (tri.edges.map Prod.snd) :=
      @List.perm_append_comm _ [tri.a] [tri.b, tri.c]
    unfold uses at inductionHypothesis ⊢
    rw [List.flatMap_cons, List.map_append, List.map_append]
    exact turn.append inductionHypothesis

/-- The edges used more than once are used as often either way. -/
theorem balanced_inner (oriented : Oriented f) :
    ClosedWalks.Balanced ((uses f).filter fun edge => !(eitherWay f edge == 1)) := by
  have symmetric : (((uses f).filter fun edge => !(eitherWay f edge == 1)).map Prod.swap).Perm
      ((uses f).filter fun edge => !(eitherWay f edge == 1)) := by
    refine List.perm_iff_count.mpr fun edge => ?_
    obtain ⟨a, b⟩ := edge
    have swapped : (a, b) = (b, a).swap := rfl
    rw [swapped, List.count_map_of_injective _ _ Prod.swap_injective, ← swapped]
    by_cases single : eitherWay f (a, b) = 1
    · have single' : eitherWay f (b, a) = 1 := (eitherWay_swap f (a, b)).trans single
      rw [List.count_eq_zero_of_not_mem (by simp [single']),
        List.count_eq_zero_of_not_mem (by simp [single])]
    · have several : eitherWay f (b, a) ≠ 1 := by
        rw [show (b, a) = (a, b).swap from rfl, eitherWay_swap]
        exact single
      rw [List.count_filter (by simp [several]), List.count_filter (by simp [single])]
      obtain ⟨most, both⟩ := oriented a b
      by_cases away : a = b
      · rw [away]
      · have sum := eitherWay_eq_add f away
        by_cases two : eitherWay f (a, b) = 2
        · rcases both two with same | ⟨forth, back⟩
          · exact absurd same away
          · rw [forth, back]
        · omega
  unfold ClosedWalks.Balanced
  rw [← Multiset.coe_eq_coe.mpr (symmetric.map Prod.snd), List.map_map]
  rfl

/-- As many boundary edges leave every vertex as come to it. -/
theorem balanced_next (oriented : Oriented f) : ClosedWalks.Balanced (next f) := by
  have once : ((uses f).filter fun edge => eitherWay f edge == 1).Nodup := by
    refine List.nodup_iff_count_le_one.mpr fun edge => ?_
    by_cases single : eitherWay f edge = 1
    · rw [List.count_filter (by simp [single]), ← single]
      exact count_le_eitherWay f edge
    · rw [List.count_eq_zero_of_not_mem (by simp [single])]
      exact Nat.zero_le 1
  have outer : (next f).Perm ((uses f).filter fun edge => eitherWay f edge == 1) := by
    refine (List.perm_ext_iff_of_nodup nodup_next once).mpr fun edge => ?_
    rw [mem_next_iff, List.mem_filter, beq_iff_eq]
    exact Iff.rfl
  have parted := (outer.append_right _).trans
    (List.filter_append_perm (fun edge => eitherWay f edge == 1) (uses f))
  have starts := Multiset.coe_eq_coe.mpr (parted.map Prod.fst)
  have ends := Multiset.coe_eq_coe.mpr (parted.map Prod.snd)
  have total := (starts.trans (balanced_uses f)).trans ends.symm
  rw [List.map_append, List.map_append, ← Multiset.coe_add, ← Multiset.coe_add] at total
  have inner := balanced_inner oriented
  unfold ClosedWalks.Balanced at inner
  rw [inner] at total
  exact add_right_cancel total

end Boundary

section Components

variable {f : List Tri} {nv : Nat}

/-- A vertex of some triangle. -/
def Used (f : List Tri) (v : Nat) : Prop := ∃ tri ∈ f, v ∈ tri.corners

/-- Every index names a vertex. -/
def InRange (nv : Nat) (f : List Tri) : Prop := ∀ v, Used f v → v < nv

instance (nv : Nat) (f : List Tri) : Decidable (InRange nv f) :=
  decidable_of_iff (∀ tri ∈ f, ∀ v ∈ tri.corners, v < nv)
    ⟨fun bounds v ⟨tri, member, corner⟩ => bounds tri member v corner,
      fun inRange tri member v corner => inRange v ⟨tri, member, corner⟩⟩

/-- The vertices are those that edges leave, and those they come to. -/
theorem used_iff_fst {v : Nat} : Used f v ↔ ∃ edge ∈ uses f, edge.1 = v := by
  unfold Used uses
  simp only [List.mem_flatMap, Tri.corners, Tri.edges]
  constructor
  · rintro ⟨tri, member, corner⟩
    rcases List.mem_map.mp (show v ∈ tri.edges.map Prod.fst from corner) with ⟨edge, of, same⟩
    exact ⟨edge, ⟨tri, member, of⟩, same⟩
  · rintro ⟨edge, ⟨tri, member, of⟩, same⟩
    exact ⟨tri, member, List.mem_map.mpr ⟨edge, of, same⟩⟩

theorem used_ends {edge : Nat × Nat} (member : edge ∈ uses f) : Used f edge.1 ∧ Used f edge.2 := by
  obtain ⟨tri, here, of⟩ := List.mem_flatMap.mp member
  simp only [Tri.edges, List.mem_cons, List.not_mem_nil, or_false] at of
  rcases of with rfl | rfl | rfl <;> exact ⟨⟨tri, here, by simp [Tri.corners]⟩,
    ⟨tri, here, by simp [Tri.corners]⟩⟩

/-- A turn of the loop joins the classes of its edge. -/
theorem joins_joinRoots {edge : Nat × Nat} (parent : Nat → Nat) (first : edge.1 < nv)
    (second : edge.2 < nv) : Joins nv edge.1 edge.2 parent (joinRoots nv parent edge) := by
  intro label forest
  obtain ⟨a, forestA⟩ := forest.find edge.1
  obtain ⟨b, forestB⟩ := forestA.find edge.2
  unfold joinRoots
  generalize UnionFind.find nv parent edge.1 = foundA at a forestA b forestB
  obtain ⟨parentA, rootA⟩ := foundA
  dsimp only at a forestA b forestB ⊢
  generalize UnionFind.find nv parentA edge.2 = foundB at b forestB
  obtain ⟨parentB, rootB⟩ := foundB
  dsimp only at b forestB ⊢
  subst a b
  have insideA := forest.label_lt first
  have insideB := forest.label_lt second
  have topA := forest.label_label edge.1
  have topB := forest.label_label edge.2
  by_cases same : label edge.1 = label edge.2
  · rw [if_neg (not_not.mpr same)]
    refine ⟨label, forestB, fun x y => ?_⟩
    rw [same]
    omega
  · rw [if_pos same]
    rcases Nat.lt_or_gt_of_ne same with less | greater
    · rw [max_eq_right less.le, min_eq_left less.le]
      exact ⟨_, forestB.link insideB insideA topB topA, (merged_relabel label edge.2 edge.1).symm⟩
    · rw [max_eq_left greater.le, min_eq_right greater.le]
      exact ⟨_, forestB.link insideA insideB topA topB, merged_relabel label edge.1 edge.2⟩

/-- The loop over the corners marks what is used, and joins the classes of all edges. -/
theorem foldl_joinStep (edges : List (Nat × Nat)) (used : Nat → Bool) (parent : Nat → Nat) :
    edges.foldl (joinStep nv) (used, parent)
      = (edges.foldl (fun used edge => Function.update used edge.1 true) used,
          edges.foldl (joinRoots nv) parent) := by
  induction edges generalizing used parent with
  | nil => rfl
  | cons edge rest inductionHypothesis => exact inductionHypothesis _ _

theorem foldl_mark (edges : List (Nat × Nat)) (used : Nat → Bool) (v : Nat) :
    edges.foldl (fun used edge => Function.update used edge.1 true) used v = true ↔
      used v = true ∨ ∃ edge ∈ edges, edge.1 = v := by
  induction edges generalizing used with
  | nil => simp
  | cons edge rest inductionHypothesis =>
    rw [List.foldl_cons, inductionHypothesis]
    by_cases here : v = edge.1
    · subst here
      simp
    · rw [Function.update_of_ne here]
      simp [Ne.symm here]

/-- A turn of the loop that counts counts a used root. -/
theorem countStep_spec {label : Nat → Nat} (used : Nat → Bool) (i : Nat) {parent : Nat → Nat}
    (forest : Forest nv parent label) (count : Nat) :
    ∃ parent', Forest nv parent' label ∧ countStep nv used (parent, count) i
      = (parent', count + if (used i && label i == i) = true then 1 else 0) := by
  unfold countStep
  cases marked : used i with
  | false => exact ⟨parent, forest, rfl⟩
  | true =>
    obtain ⟨root, after⟩ := forest.find i
    generalize UnionFind.find nv parent i = found at root after
    obtain ⟨parent', top⟩ := found
    dsimp only at root after ⊢
    subst root
    refine ⟨parent', after, ?_⟩
    rw [if_pos rfl, Bool.true_and]
    simp only [beq_iff_eq]
    split <;> rfl

/-- The loop that counts counts the used roots. -/
theorem foldl_countStep {label : Nat → Nat} (used : Nat → Bool) (vertices : List Nat)
    {parent : Nat → Nat} (forest : Forest nv parent label) (count : Nat) :
    (vertices.foldl (countStep nv used) (parent, count)).2
      = count + vertices.countP fun i => used i && label i == i := by
  induction vertices generalizing parent count with
  | nil => rfl
  | cons i rest inductionHypothesis =>
    obtain ⟨parent', after, step⟩ := countStep_spec used i forest count
    rw [List.foldl_cons, step, inductionHypothesis after, List.countP_cons]
    omega

/-- `components` counts the connected components of the vertices that triangles use. -/
theorem components_eq_card (inRange : InRange nv f) :
    components nv f = Nat.card (Quotient (componentSetoid (uses f) (Used f))) := by
  classical
  have joins : ∀ link ∈ uses f, ∀ parent,
      Joins nv link.1 link.2 parent (joinRoots nv parent link) :=
    fun link member parent => joins_joinRoots parent (inRange _ (used_ends member).1)
      (inRange _ (used_ends member).2)
  obtain ⟨label, represents⟩ := represents_foldl joins
  have ends : ∀ a b, (a, b) ∈ uses f → (Used f a ↔ Used f b) := fun a b member =>
    iff_of_true (used_ends member).1 (used_ends member).2
  rw [represents.card_components inRange ends]
  unfold components
  rw [foldl_joinStep]
  dsimp only
  rw [foldl_countStep _ _ represents.1, Nat.zero_add, List.countP_eq_length_filter]
  have marks : ∀ v, (uses f).foldl (fun used edge => Function.update used edge.1 true)
      (fun _ => false) v = true ↔ Used f v := by
    intro v
    rw [foldl_mark, used_iff_fst]
    simp
  have roots : (Finset.range nv).filter (fun v => Used f v ∧ label v = v)
      = ((List.range nv).filter fun i =>
          (uses f).foldl (fun used edge => Function.update used edge.1 true) (fun _ => false) i
            && label i == i).toFinset := by
    ext v
    simp only [Finset.mem_filter, Finset.mem_range, List.mem_toFinset, List.mem_filter,
      List.mem_range, Bool.and_eq_true, beq_iff_eq, marks]
  rw [roots, List.toFinset_card_of_nodup (List.nodup_range.filter _)]

/-- The loops are closed walks along boundary edges, every boundary edge is in one of them, once,
and the components are those of the vertices in use. -/
theorem topology_covers (chooser : Chooser Nat) (nv : Nat) (f : List Tri) (inRange : InRange nv f)
    (oriented : Oriented f) :
    (∀ loop ∈ (topology chooser nv f).loops,
        loop ≠ [] ∧ ∀ edge ∈ closing loop, Boundary f edge) ∧
      (∀ edge, Boundary f edge →
        ((topology chooser nv f).loops.flatMap closing).count edge = 1) ∧
      (topology chooser nv f).components
        = Nat.card (Quotient (componentSetoid (uses f) (Used f))) := by
  obtain ⟨covers, nonempty⟩ :=
    walks_spec chooser (Nat.le_refl (next f).length) (balanced_next oriented)
  refine ⟨fun loop member => ⟨nonempty loop member, fun edge step => ?_⟩, fun edge boundary => ?_,
    components_eq_card inRange⟩
  · exact mem_next_iff.mp (covers.mem_iff.mp (List.mem_flatMap.mpr ⟨loop, member, step⟩))
  · exact (covers.count_eq edge).trans
      (List.count_eq_one_of_mem nodup_next (mem_next_iff.mpr boundary))

/-- Two triangles that touch at a vertex, which four boundary edges meet. -/
theorem topology_covers_bow :
    InRange 5 [⟨0, 1, 2⟩, ⟨0, 3, 4⟩] ∧ Oriented [⟨0, 1, 2⟩, ⟨0, 3, 4⟩] ∧
      (topology .first 5 [⟨0, 1, 2⟩, ⟨0, 3, 4⟩]).loops = [[0, 1, 2], [0, 3, 4]] ∧
      (topology .first 5 [⟨0, 1, 2⟩, ⟨0, 3, 4⟩]).components
        = Nat.card (Quotient (componentSetoid (uses [⟨0, 1, 2⟩, ⟨0, 3, 4⟩])
            (Used [⟨0, 1, 2⟩, ⟨0, 3, 4⟩]))) :=
  ⟨by decide, by decide +kernel, by decide +kernel,
    (topology_covers .first 5 _ (by decide) (by decide +kernel)).2.2⟩

end Components

end DressOn.Curvenet
