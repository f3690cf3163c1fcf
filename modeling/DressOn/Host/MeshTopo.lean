import DressOn.Curvenet.Topology
import DressOn.Lib.Explorations
import DressOn.Lib.Keyed

/-!
# Mesh topology on the host

`boundary_loops` and `components` of `mesh_topo.gd`, and when they answer what `topology` of the
guest does. A `Dictionary` is the list of its entries, in the order in which their keys came in.
-/

namespace DressOn.Host.MeshTopo

open Curvenet Explorations Keyed OpenWalks Rounds Successions Tallies UnionFind

/-- `count[key] += 1`. -/
def oneMore (old _entry : Edge × Nat) : Edge × Nat := (old.1, old.2 + 1)

/-- `count`: how often each undirected edge is used. -/
def count (tris : List Tri) : List (Edge × Nat) :=
  putAll Prod.fst oneMore ((uses tris).map fun edge => (unordered edge, 1))

/-- `nxt[pair[0]].append(pair[1])`. -/
def append (old pair : Nat × List Nat) : Nat × List Nat := (old.1, old.2 ++ pair.2)

/-- `nxt`: the boundary neighbours of each boundary vertex. -/
def nxt (tris : List Tri) : List (Nat × List Nat) :=
  putAll Prod.fst append
    (((count tris).filter fun entry => entry.2 == 1).flatMap fun entry =>
      let key := ofLex entry.1
      [(key.1, [key.2]), (key.2, [key.1])])

/-- `nxt[cur]`. -/
def neighbours (tris : List Tri) (cur : Nat) : List Nat := ((nxt tris).lookup cur).getD []

/-- `boundary_loops`. -/
def boundary_loops (tris : List Tri) : List (List Nat) :=
  explorations (neighbours tris) ((nxt tris).map Prod.fst)

/-- A key put into a dictionary that is used as a set. -/
def mark (keys : List Nat) (key : Nat) : List Nat := if key ∈ keys then keys else keys ++ [key]

/-- `_union`. -/
def union (nv : Nat) (parent : Nat → Nat) (link : Nat × Nat) : Nat → Nat :=
  let (parent, ra) := find nv parent link.1
  let (parent, rb) := find nv parent link.2
  if ra ≠ rb then Function.update parent ra rb else parent

/-- One turn of the loop over the triangles: `used` and `parent`. -/
def unionStep (nv : Nat) (state : List Nat × (Nat → Nat)) (tri : Tri) : List Nat × (Nat → Nat) :=
  (tri.corners.foldl mark state.1, union nv (union nv state.2 (tri.a, tri.b)) (tri.a, tri.c))

/-- One turn of the loop over what is used: `parent` and `roots`. -/
def rootStep (nv : Nat) (state : (Nat → Nat) × List Nat) (i : Nat) : (Nat → Nat) × List Nat :=
  let (parent, root) := find nv state.1 i
  (parent, mark state.2 root)

/-- `components`. -/
def components (nv : Nat) (tris : List Tri) : Nat :=
  let (used, parent) := tris.foldl (unionStep nv) ([], fun i => i)
  (used.foldl (rootStep nv) (parent, [])).2.length

/-! ## Components -/

section Components

variable {tris : List Tri} {nv : Nat}

/-- What `_union` is called on. -/
def links (tris : List Tri) : List (Nat × Nat) :=
  tris.flatMap fun tri => [(tri.a, tri.b), (tri.a, tri.c)]

/-- Two sides of a triangle join what its three sides do. -/
theorem connected_links (x y : Nat) : Connected (links tris) x y ↔ Connected (uses tris) x y := by
  have extend {fewer more : List (Nat × Nat)}
      (each : ∀ a b, (a, b) ∈ fewer → Connected more a b) (joined : Connected fewer x y) :
      Connected more x y := by
    induction joined with
    | rel a b member => exact each a b member
    | refl a => exact .refl a
    | symm a b _ ih => exact .symm _ _ ih
    | trans a b c _ _ first second => exact .trans _ _ _ first second
  constructor
  · refine extend fun a b member => ?_
    obtain ⟨tri, here, side⟩ := List.mem_flatMap.mp member
    have joins (edge : Nat × Nat) (of : edge ∈ tri.edges) : Connected (uses tris) edge.1 edge.2 :=
      .rel _ _ (List.mem_flatMap.mpr ⟨tri, here, of⟩)
    simp only [List.mem_cons, Prod.mk.injEq, List.not_mem_nil, or_false] at side
    rcases side with ⟨rfl, rfl⟩ | ⟨rfl, rfl⟩
    · exact joins (tri.a, tri.b) (by simp [Tri.edges])
    · exact .symm _ _ (joins (tri.c, tri.a) (by simp [Tri.edges]))
  · refine extend fun a b member => ?_
    obtain ⟨tri, here, side⟩ := List.mem_flatMap.mp member
    have toB : Connected (links tris) tri.a tri.b :=
      .rel _ _ (List.mem_flatMap.mpr ⟨tri, here, by simp⟩)
    have toC : Connected (links tris) tri.a tri.c :=
      .rel _ _ (List.mem_flatMap.mpr ⟨tri, here, by simp⟩)
    simp only [Tri.edges, List.mem_cons, Prod.mk.injEq, List.not_mem_nil, or_false] at side
    rcases side with ⟨rfl, rfl⟩ | ⟨rfl, rfl⟩ | ⟨rfl, rfl⟩
    · exact toB
    · exact .trans _ _ _ (.symm _ _ toB) toC
    · exact .symm _ _ toC

/-- `_union` joins the classes of its two vertices. -/
theorem joins_union {link : Nat × Nat} (parent : Nat → Nat) (first : link.1 < nv)
    (second : link.2 < nv) : Joins nv link.1 link.2 parent (union nv parent link) := by
  intro label forest
  obtain ⟨a, forestA⟩ := forest.find link.1
  obtain ⟨b, forestB⟩ := forestA.find link.2
  unfold union
  generalize UnionFind.find nv parent link.1 = foundA at a forestA b forestB
  obtain ⟨parentA, rootA⟩ := foundA
  dsimp only at a forestA b forestB ⊢
  generalize UnionFind.find nv parentA link.2 = foundB at b forestB
  obtain ⟨parentB, rootB⟩ := foundB
  dsimp only at b forestB ⊢
  subst a b
  by_cases same : label link.1 = label link.2
  · rw [if_neg (not_not.mpr same)]
    refine ⟨label, forestB, fun x y => ?_⟩
    rw [same]
    omega
  · rw [if_pos same]
    exact ⟨_, forestB.link (forest.label_lt first) (forest.label_lt second)
      (forest.label_label link.1) (forest.label_label link.2), merged_relabel label link.1 link.2⟩

theorem foldl_mark {keys : List Nat} (distinct : keys.Nodup) (more : List Nat) :
    (more.foldl mark keys).Nodup ∧ ∀ v, v ∈ more.foldl mark keys ↔ v ∈ keys ∨ v ∈ more := by
  induction more generalizing keys with
  | nil => exact ⟨distinct, fun v => by simp⟩
  | cons key rest ih =>
      have marked : (mark keys key).Nodup ∧ ∀ v, v ∈ mark keys key ↔ v ∈ keys ∨ v = key := by
        unfold mark
        split
        next there => exact ⟨distinct, fun v => ⟨.inl, fun here => here.elim id (· ▸ there)⟩⟩
        next fresh =>
          refine ⟨List.nodup_append.mpr ⟨distinct, List.nodup_singleton key, ?_⟩, fun v => ?_⟩
          · intro v here w last same
            exact fresh (List.mem_singleton.mp last ▸ same ▸ here)
          · rw [List.mem_append, List.mem_singleton]
      obtain ⟨once, members⟩ := ih marked.1
      refine ⟨once, fun v => (members v).trans ?_⟩
      rw [marked.2, List.mem_cons, or_assoc]

/-- The loop over the triangles marks their corners, and joins along their links. -/
theorem foldl_unionStep (tris : List Tri) (used : List Nat) (parent : Nat → Nat) :
    tris.foldl (unionStep nv) (used, parent)
      = ((tris.flatMap Tri.corners).foldl mark used, (links tris).foldl (union nv) parent) := by
  induction tris generalizing used parent with
  | nil => rfl
  | cons tri rest ih =>
      rw [List.foldl_cons, unionStep, ih]
      unfold links
      rw [List.flatMap_cons, List.flatMap_cons, List.foldl_append, List.foldl_append]
      rfl

/-- The loop over what is used marks the root of each. -/
theorem foldl_rootStep {parent label : Nat → Nat} (forest : Forest nv parent label)
    (used roots : List Nat) :
    (used.foldl (rootStep nv) (parent, roots)).2 = (used.map label).foldl mark roots := by
  induction used generalizing parent roots with
  | nil => rfl
  | cons i rest ih =>
      obtain ⟨root, after⟩ := forest.find i
      rw [List.foldl_cons, List.map_cons, List.foldl_cons, ← root]
      exact ih after _

theorem mem_corners {v : Nat} : v ∈ tris.flatMap Tri.corners ↔ Used tris v := List.mem_flatMap

/-- `components` counts the connected components of the vertices that triangles use. -/
theorem components_eq_card (inRange : InRange nv tris) :
    components nv tris = Nat.card (Quotient (componentSetoid (links tris) (Used tris))) := by
  classical
  have ends : ∀ a b, (a, b) ∈ links tris → Used tris a ∧ Used tris b := by
    intro a b member
    obtain ⟨tri, here, side⟩ := List.mem_flatMap.mp member
    simp only [List.mem_cons, Prod.mk.injEq, List.not_mem_nil, or_false] at side
    rcases side with ⟨rfl, rfl⟩ | ⟨rfl, rfl⟩ <;> exact
      ⟨⟨tri, here, by simp [Tri.corners]⟩, tri, here, by simp [Tri.corners]⟩
  have both : ∀ a b, (a, b) ∈ links tris → (Used tris a ↔ Used tris b) := fun a b member =>
    iff_of_true (ends a b member).1 (ends a b member).2
  obtain ⟨label, represents⟩ : ∃ label,
      Represents nv (links tris) ((links tris).foldl (union nv) fun x => x) label :=
    represents_foldl fun link member parent => joins_union parent
      (inRange _ (ends link.1 link.2 member).1) (inRange _ (ends link.1 link.2 member).2)
  have classes := represents.2
  rw [represents.card_components inRange both]
  unfold components
  rw [foldl_unionStep]
  dsimp only
  rw [foldl_rootStep represents.1]
  obtain ⟨_, corners⟩ := foldl_mark List.nodup_nil (tris.flatMap Tri.corners)
  obtain ⟨once, roots⟩ := foldl_mark List.nodup_nil
    (((tris.flatMap Tri.corners).foldl mark []).map label)
  rw [← List.toFinset_card_of_nodup once]
  congr 1
  ext v
  rw [List.mem_toFinset, roots, Finset.mem_filter, Finset.mem_range]
  simp only [List.not_mem_nil, false_or, List.mem_map, corners, mem_corners]
  constructor
  · rintro ⟨u, use, rfl⟩
    have own := represents.1.label_label u
    have used : Used tris (label u) :=
      (Connected.iff (Used tris) both ((classes u (label u)).mp own.symm)).mp use
    exact ⟨inRange _ used, used, own⟩
  · rintro ⟨_, use, own⟩
    exact ⟨v, use, own⟩

/-- The host counts as many components as the guest. -/
theorem components_eq (inRange : InRange nv tris) :
    components nv tris = Curvenet.components nv tris := by
  have same : componentSetoid (links tris) (Used tris) = componentSetoid (uses tris) (Used tris) :=
    Setoid.ext fun x y => connected_links x.1 y.1
  rw [components_eq_card inRange, Curvenet.components_eq_card inRange, same]

end Components

/-! ## Boundary loops -/

section Boundary

variable {tris : List Tri}

/-- From a vertex to the next along a boundary edge. -/
def Follows (tris : List Tri) (a b : Nat) : Prop := Boundary tris (a, b)

/-- The edges that are used once, in the order of their use. -/
def once (tris : List Tri) : List (Nat × Nat) :=
  ((uses tris).filter fun edge => eitherWay tris edge == 1).map fun edge => ofLex (unordered edge)

/-- The ends of the edges that are used once, in the order of their use. -/
def ends (tris : List Tri) : List Nat := (once tris).flatMap fun edge => [edge.1, edge.2]

theorem oneMore_fst (old entry : Edge × Nat) : (oneMore old entry).1 = old.1 := rfl

theorem append_fst (old pair : Nat × List Nat) : (append old pair).1 = old.1 := rfl

/-- `count` counts. -/
theorem count_spec {entry : Edge × Nat} (member : entry ∈ count tris) :
    entry.2 = ((uses tris).map unordered).count entry.1 := by
  obtain ⟨first, rest, same, made⟩ := mem_putAll oneMore_fst member
  have sum (rest : List (Edge × Nat)) (first : Edge × Nat) :
      (rest.foldl oneMore first).2 = first.2 + rest.length := by
    induction rest generalizing first with
    | nil => rfl
    | cons other rest ih =>
        rw [List.foldl_cons, ih, List.length_cons, oneMore]
        omega
  have one : first.2 = 1 := by
    have among : first ∈ (uses tris).map fun edge => (unordered edge, 1) :=
      List.mem_of_mem_filter (same ▸ List.mem_cons_self)
    obtain ⟨edge, _, rfl⟩ := List.mem_map.mp among
    rfl
  have number := congrArg List.length same
  rw [← List.countP_eq_length_filter, List.countP_map] at number
  rw [made, sum, one, ← made, List.count_eq_countP, List.countP_map]
  refine (Nat.add_comm _ _).trans (number.symm.trans (List.countP_congr fun edge _ => ?_))
  simp

/-- The keys that are counted once are the edges that are used once. -/
theorem count_once :
    ((count tris).filter fun entry => entry.2 == 1).map (fun entry => ofLex entry.1)
      = once tris := by
  have uses_ : (fun edge : Nat × Nat => ((uses tris).map unordered).count (unordered edge))
      = eitherWay tris := by
    funext edge
    unfold eitherWay
    rw [List.count_eq_countP, List.countP_map]
    refine List.countP_congr fun other _ => ?_
    simp only [Function.comp_apply, beq_iff_eq, Bool.or_eq_true, unordered_eq_iff]
  have kind : ((count tris).filter fun entry => entry.2 == 1).map Prod.fst
      = ((count tris).map Prod.fst).filter fun k => ((uses tris).map unordered).count k == 1 := by
    rw [List.filter_map]
    refine congrArg (List.map Prod.fst) (List.filter_congr fun entry member => ?_)
    rw [Function.comp_apply, count_spec member]
  have raw : ((uses tris).map fun edge => (unordered edge, 1)).map Prod.fst
      = (uses tris).map unordered := by
    rw [List.map_map]
    rfl
  have keys : ((count tris).filter fun entry => entry.2 == 1).map Prod.fst
      = ((uses tris).filter fun edge => eitherWay tris edge == 1).map unordered := by
    unfold count at kind ⊢
    rw [kind, filter_map_putAll oneMore_fst, raw, List.filter_map]
    · refine congrArg (List.map unordered) (List.filter_congr fun edge _ => ?_)
      rw [Function.comp_apply]
      exact congrArg (· == 1) (congrFun uses_ edge)
    · intro k is
      rw [raw]
      exact le_of_eq_of_le (List.countP_congr fun other _ => by simp) (beq_iff_eq.mp is).le
  calc ((count tris).filter fun entry => entry.2 == 1).map (fun entry => ofLex entry.1)
      = (((count tris).filter fun entry => entry.2 == 1).map Prod.fst).map ofLex := by
        rw [List.map_map]
        rfl
    _ = once tris := by
        rw [keys, List.map_map]
        rfl

/-- `nxt` is made of the ends of the edges that are used once. -/
theorem nxt_eq : nxt tris
    = putAll Prod.fst append
        ((once tris).flatMap fun key => [(key.1, [key.2]), (key.2, [key.1])]) := by
  unfold nxt
  rw [← count_once, List.flatMap_map]

theorem map_fst_pairs : ((once tris).flatMap fun key =>
    [(key.1, [key.2]), (key.2, [key.1])]).map Prod.fst = ends tris := by
  rw [List.map_flatMap]
  rfl

/-- The boundary vertices are the ends of the edges that are used once, -/
theorem mem_keys (v : Nat) : v ∈ (nxt tris).map Prod.fst ↔ v ∈ ends tris := by
  rw [nxt_eq, mem_map_putAll append_fst, map_fst_pairs]

/-- in the order of their use. -/
theorem idxOf_keys (u v : Nat) :
    ((nxt tris).map Prod.fst).idxOf u < ((nxt tris).map Prod.fst).idxOf v
      ↔ (ends tris).idxOf u < (ends tris).idxOf v := by
  rw [nxt_eq, idxOf_map_putAll append_fst, map_fst_pairs]

/-- The edges that are used once are boundary edges in one direction. -/
theorem mem_once (a b : Nat) :
    (a, b) ∈ once tris ∨ (b, a) ∈ once tris ↔ Beside (Follows tris) a b := by
  have ends (edge : Nat × Nat) : edge ∈ once tris ↔
      ∃ use, Boundary tris use ∧ (min use.1 use.2, max use.1 use.2) = edge := by
    unfold once Boundary
    simp only [List.mem_map, List.mem_filter, beq_iff_eq]
    rfl
  constructor
  · rintro (here | here) <;> obtain ⟨⟨c, d⟩, boundary, same⟩ := (ends _).mp here <;>
      rcases le_total c d with low | high
    · rw [min_eq_left low, max_eq_right low] at same
      cases same
      exact .inl boundary
    · rw [min_eq_right high, max_eq_left high] at same
      cases same
      exact .inr boundary
    · rw [min_eq_left low, max_eq_right low] at same
      cases same
      exact .inr boundary
    · rw [min_eq_right high, max_eq_left high] at same
      cases same
      exact .inl boundary
  · rw [ends, ends]
    rintro (forth | back) <;> rcases le_total a b with low | high
    · exact .inl ⟨_, forth, by rw [min_eq_left low, max_eq_right low]⟩
    · exact .inr ⟨_, forth, by rw [min_eq_right high, max_eq_left high]⟩
    · exact .inl ⟨_, back, by rw [min_eq_right low, max_eq_left low]⟩
    · exact .inr ⟨_, back, by rw [min_eq_left high, max_eq_right high]⟩

/-- The neighbours of a vertex are those beside it. -/
theorem mem_neighbours (v w : Nat) :
    w ∈ neighbours tris v ↔ Beside (Follows tris) v w := by
  rw [← mem_once]
  have pairs (pair : Nat × List Nat) : pair ∈ ((once tris).flatMap fun key =>
      [(key.1, [key.2]), (key.2, [key.1])]) ↔
        ∃ c, pair.2 = [c] ∧ ((pair.1, c) ∈ once tris ∨ (c, pair.1) ∈ once tris) := by
    rw [List.mem_flatMap]
    constructor
    · rintro ⟨key, member, side⟩
      simp only [List.mem_cons, List.not_mem_nil, or_false] at side
      rcases side with rfl | rfl
      · exact ⟨key.2, rfl, .inl member⟩
      · exact ⟨key.1, rfl, .inr member⟩
    · obtain ⟨a, list⟩ := pair
      rintro ⟨c, rfl, forth | back⟩
      · exact ⟨_, forth, by simp⟩
      · exact ⟨_, back, by simp⟩
  have collects (rest : List (Nat × List Nat)) (first : Nat × List Nat) :
      (rest.foldl append first).2
        = (first :: rest).flatMap Prod.snd := by
    induction rest generalizing first with
    | nil => simp
    | cons pair rest ih =>
        rw [List.foldl_cons, ih]
        simp [append]
  unfold neighbours
  cases found : (nxt tris).lookup v with
  | none =>
      have absent := List.lookup_eq_none_iff.mp found
      refine iff_of_false List.not_mem_nil fun beside => ?_
      have vertex : v ∈ (nxt tris).map Prod.fst := by
        rw [nxt_eq, mem_map_putAll append_fst]
        exact List.mem_map.mpr ⟨(v, [w]), (pairs _).mpr ⟨w, rfl, beside⟩, rfl⟩
      obtain ⟨entry, member, rfl⟩ := List.mem_map.mp vertex
      simpa using absent entry member
  | some list =>
      obtain ⟨front, back, cut, _⟩ := List.lookup_eq_some_iff.mp found
      have member : (v, list) ∈ nxt tris := cut ▸ by simp
      rw [nxt_eq] at member
      obtain ⟨first, rest, same, made⟩ := mem_putAll append_fst member
      have all : list = (first :: rest).flatMap Prod.snd := by
        rw [← collects, ← made]
      rw [Option.getD_some, all, ← same, List.mem_flatMap]
      constructor
      · rintro ⟨pair, among, inside⟩
        obtain ⟨here, own⟩ := List.mem_filter.mp among
        obtain ⟨c, single, beside⟩ := (pairs pair).mp here
        rw [single, List.mem_singleton] at inside
        rw [of_decide_eq_true own] at beside
        exact inside ▸ beside
      · intro beside
        exact ⟨(v, [w]), List.mem_filter.mpr
          ⟨(pairs _).mpr ⟨w, rfl, beside⟩, decide_eq_true rfl⟩, List.mem_singleton_self w⟩

/-- Boundary vertices are those beside another. -/
theorem mem_keys_iff (v : Nat) :
    v ∈ (nxt tris).map Prod.fst ↔ ∃ w, Beside (Follows tris) v w := by
  simp only [mem_keys, ends, ← mem_once, List.mem_flatMap, List.mem_cons, List.not_mem_nil,
    or_false]
  constructor
  · rintro ⟨⟨a, b⟩, member, rfl | rfl⟩
    · exact ⟨b, .inl member⟩
    · exact ⟨a, .inr member⟩
  · rintro ⟨w, forth | back⟩
    · exact ⟨_, forth, .inl rfl⟩
    · exact ⟨_, back, .inr rfl⟩

/-- The loops of the host are explored one after the other, and go through all boundary vertices. -/
theorem explored_boundary_loops :
    Explored (neighbours tris) ((nxt tris).map Prod.fst) (boundary_loops tris) ∧
      ∀ v, v ∈ (boundary_loops tris).flatten ↔ v ∈ (nxt tris).map Prod.fst :=
  explored_explorations fun v _ c near =>
    (mem_keys_iff c).mpr ⟨v, ((mem_neighbours v c).mp near).symm⟩

end Boundary

/-! ## The loops of both sides -/

section Sides

variable {tris : List Tri}

/-- What the boundary needs to be for both sides to walk it alike. -/
structure Agreeable (tris : List Tri) : Prop where
  /-- One boundary edge leaves a vertex, and one comes to it, at most. -/
  linear : Linear (Follows tris)
  /-- A chain that is not closed begins with the lowest of the vertices its edges leave. -/
  lowest : ∀ b v, Begins (Follows tris) b → Relation.ReflTransGen (Follows tris) b v →
    ¬ Stops (Follows tris) v → b ≤ v
  /-- Of a chain that is not closed an end is used before any vertex between the ends. -/
  early : ∀ b v, Begins (Follows tris) b → Relation.ReflTransGen (Follows tris) b v →
    ¬ Stops (Follows tris) v → v ≠ b → ∃ e, Relation.ReflTransGen (Follows tris) b e ∧
      (e = b ∨ Stops (Follows tris) e) ∧ (ends tris).idxOf e < (ends tris).idxOf v

/-- The edges that the guest walks. -/
theorem next_eq : (fun a b => (a, b) ∈ next tris) = Follows tris := by
  funext a b
  exact propext mem_next_iff

theorem sorted_next : (next tris).Pairwise fun one two => one.1 ≤ two.1 := by
  unfold next
  refine List.pairwise_map.mpr ((List.Pairwise.imp (fun {one two} less => ?_)
    (ordered_tally ((uses tris).map toLex)).sorted).filter _)
  rcases Prod.Lex.lt_iff.mp less with lower | ⟨same, _⟩
  · exact lower.le
  · exact same.le

/-- The vertices that edges leave are finitely many, and so are those that edges come to. -/
theorem finite_next : {v | ∃ w, Follows tris v w}.Finite ∧ {v | ∃ u, Follows tris u v}.Finite := by
  constructor
  · refine ((next tris).map Prod.fst).finite_toSet.subset ?_
    rintro v ⟨w, edge⟩
    exact List.mem_map.mpr ⟨_, mem_next_iff.mpr edge, rfl⟩
  · refine ((next tris).map Prod.snd).finite_toSet.subset ?_
    rintro v ⟨u, edge⟩
    exact List.mem_map.mpr ⟨_, mem_next_iff.mpr edge, rfl⟩

variable (chooser : ClosedWalks.Chooser Nat) (nv : Nat)

/-- The guest takes all boundary edges apart into walks. -/
theorem walked_topology : Walked (next tris) (topology chooser nv tris).loops :=
  walked_walks chooser le_rfl

/-- Where the boundary is so, both sides find the same loops. -/
theorem Agreeable.sameRounds (agreeable : Agreeable tris) :
    SameRounds (boundary_loops tris) (topology chooser nv tris).loops := by
  obtain ⟨explored, visited⟩ := @explored_boundary_loops tris
  have walked := @walked_topology tris chooser nv
  have hostWhole := explored.whole agreeable.linear finite_next.1 mem_neighbours
    (fun v w beside => (mem_keys_iff v).mpr ⟨w, beside⟩) fun b u begins reach goes apart => by
      obtain ⟨e, toEnd, isEnd, earlier⟩ := agreeable.early b u begins reach goes apart
      exact ⟨e, toEnd, isEnd, (idxOf_keys e u).mpr earlier⟩
  have guestOnce : (topology chooser nv tris).loops.flatten.Nodup ∧
      ∀ v ∈ (topology chooser nv tris).loops.flatten, ∃ edge ∈ next tris,
        edge.1 = v ∨ edge.2 = v :=
    walked.distinct (next_eq ▸ agreeable.linear)
      (finite_next.1.subset fun v ⟨w, edge⟩ => ⟨w, mem_next_iff.mp edge⟩)
      (next_eq ▸ agreeable.lowest)
      ⟨fun _ member => member, fun ab bc => iff_of_true ab bc⟩ nodup_next sorted_next
  have guestWhole : ∀ loop ∈ (topology chooser nv tris).loops, Whole (Follows tris) loop :=
    next_eq ▸ walked.whole sorted_next guestOnce.1
  refine sameRounds_of_each explored.distinct guestOnce.1
    (fun none_ => (walked.isChain [] none_).1 rfl) (fun v inside => ?_) fun loop member => ?_
  · obtain ⟨⟨a, b⟩, edge, here⟩ := guestOnce.2 v inside
    have follows : Follows tris a b := mem_next_iff.mp edge
    refine (visited v).mpr ((mem_keys_iff v).mpr ?_)
    rcases here with rfl | rfl
    · exact ⟨b, .inl follows⟩
    · exact ⟨a, .inr follows⟩
  · have whole := hostWhole loop member
    refine ⟨whole.some_, ?_⟩
    obtain ⟨v, inside⟩ := List.exists_mem_of_ne_nil loop whole.some_
    have vertex := (visited v).mp (List.mem_flatten.mpr ⟨loop, member, inside⟩)
    obtain ⟨w, beside⟩ := (mem_keys_iff v).mp vertex
    obtain ⟨other, among, there⟩ : ∃ other ∈ (topology chooser nv tris).loops, v ∈ other := by
      rcases beside with forth | back
      · obtain ⟨other, among, closes, _⟩ :=
          walked.covers sorted_next (v, w) (mem_next_iff.mpr forth)
        exact ⟨other, among, (mem_of_closing closes).1⟩
      · obtain ⟨other, among, closes, _⟩ :=
          walked.covers sorted_next (w, v) (mem_next_iff.mpr back)
        exact ⟨other, among, (mem_of_closing closes).2⟩
    exact ⟨other, among, whole.sameRound agreeable.linear (guestWhole other among) inside there⟩

/-- Where both sides find the same loops, the boundary is so. -/
theorem agreeable_of_sameRounds
    (same : SameRounds (boundary_loops tris) (topology chooser nv tris).loops) :
    Agreeable tris := by
  obtain ⟨explored, visited⟩ := @explored_boundary_loops tris
  have walked := @walked_topology tris chooser nv
  have guestOnce := same.perm.nodup_iff.mp explored.distinct
  have linear : Linear (Follows tris) := next_eq ▸ walked.linear sorted_next guestOnce
  have guestWhole : ∀ loop ∈ (topology chooser nv tris).loops, Whole (Follows tris) loop :=
    next_eq ▸ walked.whole sorted_next guestOnce
  have hostWhole : ∀ loop ∈ boundary_loops tris, Whole (Follows tris) loop := by
    intro loop member
    obtain ⟨start, rest, rfl, _, walk, _⟩ := explored.begun loop member
    obtain ⟨other, among, alike⟩ := same.exists_of_mem member
    have whole := guestWhole other among
    exact ⟨List.cons_ne_nil _ _, (List.nodup_flatten.mp explored.distinct).1 _ member,
      walk.imp fun a b => (mem_neighbours a b).mp, fun inside beside =>
        alike.perm.mem_iff.mpr (whole.closed (alike.perm.mem_iff.mp inside) beside)⟩
  refine ⟨linear, fun b v begins reach goes => ?_, fun b v begins reach goes apart => ?_⟩
  · rw [← next_eq] at begins reach goes
    exact walked.lowest sorted_next guestOnce begins reach goes
  · have vertex : v ∈ (nxt tris).map Prod.fst := by
      obtain ⟨w, step⟩ : ∃ w, Follows tris v w := by simpa [Stops] using goes
      exact (mem_keys_iff v).mpr ⟨w, .inl step⟩
    obtain ⟨e, toEnd, isEnd, earlier⟩ := explored.early linear finite_next.2 mem_neighbours
      hostWhole begins reach goes apart vertex ((visited v).mpr vertex)
    exact ⟨e, toEnd, isEnd, (idxOf_keys e v).mp earlier⟩

/-- Host and guest find the same boundary loops, up to where each begins and its direction, and as
many components, just where the boundary is agreeable. -/
theorem boundary_agrees_iff (tris : List Tri) (inRange : InRange nv tris) :
    (SameRounds (boundary_loops tris) (topology chooser nv tris).loops ∧
        components nv tris = (topology chooser nv tris).components) ↔ Agreeable tris :=
  ⟨fun agrees => agreeable_of_sameRounds chooser nv agrees.1, fun agreeable =>
    ⟨agreeable.sameRounds chooser nv, components_eq inRange⟩⟩

/-- One triangle has one loop on both sides. -/
theorem boundary_agrees_triangle :
    InRange 3 [⟨0, 1, 2⟩] ∧ boundary_loops [⟨0, 1, 2⟩] = [[0, 1, 2]] ∧ Agreeable [⟨0, 1, 2⟩] :=
  ⟨by decide, by decide +kernel,
    (boundary_agrees_iff .first 3 [⟨0, 1, 2⟩] (by decide)).mp
      ⟨⟨[[0, 1, 2]], by decide +kernel, .cons (.inl (.refl _)) .nil⟩, by decide +kernel⟩⟩

/-- Of two triangles that touch at a vertex the host walks one, and two edges of the other. -/
theorem boundary_loops_bow :
    ¬ ∀ (chooser : ClosedWalks.Chooser Nat) (nv : Nat) (tris : List Tri), InRange nv tris →
      SameRounds (boundary_loops tris) (topology chooser nv tris).loops ∧
        components nv tris = (topology chooser nv tris).components := by
  intro claim
  have same := (claim .first 5 [⟨0, 1, 2⟩, ⟨0, 3, 4⟩] (by decide)).1
  have host : boundary_loops [⟨0, 1, 2⟩, ⟨0, 3, 4⟩] = [[0, 1, 2], [3, 4]] := by decide +kernel
  have guest : (topology .first 5 [⟨0, 1, 2⟩, ⟨0, 3, 4⟩]).loops = [[0, 1, 2], [0, 3, 4]] := by
    decide +kernel
  rw [host, guest] at same
  exact absurd same.perm.length_eq (by decide)

end Sides

end DressOn.Host.MeshTopo
