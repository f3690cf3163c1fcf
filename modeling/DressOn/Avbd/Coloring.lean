import Mathlib.Order.Bounds.Basic
import Mathlib.Data.List.Perm.Subperm
import DressOn.Avbd.Csr

/-!
# First-fit colouring

Both colourings give every vertex the least colour no earlier neighbour has
(`IsGreedy`), and that pins the colours down (`IsGreedy.unique`). The batches
are then a counting sort of the vertices by colour.
-/

namespace DressOn.Avbd

open CountingSort

/-- Some constraint names both vertices. -/
def Shares (cons : List (List Nat)) (u v : Nat) : Prop := ∃ inc ∈ cons, u ∈ inc ∧ v ∈ inc

/-- Sharing a constraint goes both ways. -/
theorem Shares.symm {cons : List (List Nat)} {u v : Nat} (shares : Shares cons u v) :
    Shares cons v u := by
  obtain ⟨inc, member, inU, inV⟩ := shares
  exact ⟨inc, member, inV, inU⟩

/-- The first `n` colours are first fit: each is the least no earlier neighbour has. -/
def IsGreedy (near : Nat → Nat → Prop) (n : Nat) (color : Nat → Nat) : Prop :=
  ∀ v < n, IsLeast {c | ∀ u < v, near u v → color u ≠ c} (color v)

section Greedy

variable {near : Nat → Nat → Prop} {n : Nat} {color other : Nat → Nat}

/-- First-fit colours are unique. -/
theorem IsGreedy.unique (greedy : IsGreedy near n color) (greedy' : IsGreedy near n other) :
    ∀ v < n, color v = other v := by
  intro v
  induction v using Nat.strong_induction_on with
  | _ v ih =>
      intro inside
      have same : {c | ∀ u < v, near u v → color u ≠ c} =
          {c | ∀ u < v, near u v → other u ≠ c} := by
        ext c
        refine forall_congr' fun u => forall_congr' fun below => ?_
        rw [ih u below (below.trans inside)]
      exact (same ▸ greedy v inside).unique (greedy' v inside)

/-- Among the first `v + 1` colours one is free of the `v` earlier vertices. -/
theorem exists_free_le (near : Nat → Nat → Prop) (color : Nat → Nat) (v : Nat) :
    ∃ c ≤ v, ∀ u < v, near u v → color u ≠ c := by
  by_contra taken
  push Not at taken
  have inside : List.range (v + 1) ⊆ (List.range v).map color := by
    intro c member
    obtain ⟨u, below, -, here⟩ := taken c (by simpa using Nat.lt_succ_iff.mp (List.mem_range.mp member))
    exact List.mem_map.mpr ⟨u, List.mem_range.mpr below, here⟩
  have short := (List.nodup_range.subperm inside).length_le
  rw [List.length_range, List.length_map, List.length_range] at short
  omega

/-- Neighbours have different colours. -/
theorem IsGreedy.ne_of_near (greedy : IsGreedy near n color)
    (symm : ∀ {u v}, near u v → near v u) {u v : Nat} (distinct : u ≠ v) (uInside : u < n)
    (vInside : v < n) (adjacent : near u v) : color u ≠ color v := by
  rcases Nat.lt_or_gt_of_ne distinct with below | above
  · exact (greedy v vInside).1 u below adjacent
  · exact ((greedy u uInside).1 v above (symm adjacent)).symm

/-- Colouring one more vertex with its least free colour stays first fit. -/
theorem IsGreedy.succ (greedy : IsGreedy near n color) (kept : ∀ v < n, other v = color v)
    (least : IsLeast {c | ∀ u < n, near u n → color u ≠ c} (other n)) :
    IsGreedy near (n + 1) other := by
  intro v inside
  have same : {c | ∀ u < v, near u v → other u ≠ c} = {c | ∀ u < v, near u v → color u ≠ c} := by
    ext c
    refine forall_congr' fun u => forall_congr' fun below => ?_
    rw [kept u (by omega)]
  rw [same]
  rcases Nat.lt_succ_iff_lt_or_eq.mp inside with below | rfl
  · rw [kept v below]
    exact greedy v below
  · exact least

end Greedy

/-- The unordered pairs of positions of a list. -/
def pairsOf : List Nat → List (Nat × Nat)
  | [] => []
  | x :: rest => rest.map (fun y => (x, y)) ++ pairsOf rest

/-- A pair of a stencil has both its vertices there. -/
theorem mem_of_mem_pairsOf {inc : List Nat} {e : Nat × Nat} (member : e ∈ pairsOf inc) :
    e.1 ∈ inc ∧ e.2 ∈ inc := by
  induction inc with
  | nil => simp [pairsOf] at member
  | cons x rest ih =>
      rcases List.mem_append.mp member with first | later
      · obtain ⟨y, inRest, rfl⟩ := List.mem_map.mp first
        exact ⟨List.mem_cons_self, List.mem_cons_of_mem _ inRest⟩
      · obtain ⟨left, right⟩ := ih later
        exact ⟨List.mem_cons_of_mem _ left, List.mem_cons_of_mem _ right⟩

/-- Two different members of a list are one of its pairs, one way round. -/
theorem mem_pairsOf {inc : List Nat} {u v : Nat} (distinct : u ≠ v) :
    ((u, v) ∈ pairsOf inc ∨ (v, u) ∈ pairsOf inc) ↔ u ∈ inc ∧ v ∈ inc := by
  constructor
  · rintro (member | member)
    · exact mem_of_mem_pairsOf member
    · exact (mem_of_mem_pairsOf member).symm
  · rintro ⟨inU, inV⟩
    induction inc with
    | nil => simp at inU
    | cons x rest ih =>
        simp only [pairsOf, List.mem_append, List.mem_map, Prod.mk.injEq]
        rcases List.mem_cons.mp inU with rfl | uRest <;> rcases List.mem_cons.mp inV with rfl | vRest
        · exact absurd rfl distinct
        · exact Or.inl (Or.inl ⟨v, vRest, rfl, rfl⟩)
        · exact Or.inr (Or.inl ⟨u, uRest, rfl, rfl⟩)
        · rcases ih uRest vRest with member | member
          · exact Or.inl (Or.inr member)
          · exact Or.inr (Or.inr member)

section Adjacency

/-- An edge adds no vertex. -/
@[simp] theorem size_edge (adj : Array (Array Nat)) (a b : Nat) : (edge adj a b).size = adj.size := by
  unfold edge
  split <;> simp

/-- An edge makes its two ends neighbours, unless they are one vertex. -/
theorem mem_edge {adj : Array (Array Nat)} {a b u v : Nat} (aBound : a < adj.size)
    (bBound : b < adj.size) :
    u ∈ (edge adj a b)[v]! ↔ u ∈ adj[v]! ∨ a ≠ b ∧ (v = a ∧ u = b ∨ v = b ∧ u = a) := by
  unfold edge
  by_cases same : a = b
  · simp [same]
  · rw [if_neg same, getElem!_modify, getElem!_modify, Array.size_modify]
    by_cases vA : v = a
    · subst vA
      simp [Ne.symm same, aBound, same]
    · by_cases vB : v = b
      · subst vB
        simp [same, bBound, vA]
      · simp [Ne.symm vA, Ne.symm vB, vA, vB]

/-- What the edges of a list add to the adjacency. -/
theorem mem_foldl_edge {edges : List (Nat × Nat)} {adj : Array (Array Nat)} {u v : Nat}
    (inside : ∀ e ∈ edges, e.1 < adj.size ∧ e.2 < adj.size) :
    u ∈ (edges.foldl (fun adj e => edge adj e.1 e.2) adj)[v]! ↔
      u ∈ adj[v]! ∨ ∃ e ∈ edges, e.1 ≠ e.2 ∧ (v = e.1 ∧ u = e.2 ∨ v = e.2 ∧ u = e.1) := by
  induction edges generalizing adj with
  | nil => simp
  | cons e rest ih =>
      obtain ⟨aBound, bBound⟩ := inside e List.mem_cons_self
      rw [List.foldl_cons, ih fun other member => by
        simpa using inside other (List.mem_cons_of_mem _ member), mem_edge aBound bBound]
      simp only [List.exists_mem_cons_iff, or_assoc]

/-- The adjacency is that of all pairs, edge after edge. -/
theorem adjacencyPass_eq (nV : Nat) (s : Stencils) :
    adjacencyPass nV s =
      (s.constraints.flatMap pairsOf).foldl (fun adj e => edge adj e.1 e.2)
        (Array.replicate nV #[]) := by
  simp [adjacencyPass, Stencils.constraints, List.foldl_flatMap, List.flatMap_append,
    List.foldl_append, List.foldl_map, List.range_eq_range', Stencils.spring, Stencils.triangle,
    Stencils.bending, pairsOf]

/-- The adjacency lists exactly the other vertices a constraint is shared with. -/
theorem mem_adjacencyPass {nV : Nat} {s : Stencils} (inRange : s.InRange nV) {u v : Nat} :
    u ∈ (adjacencyPass nV s)[v]! ↔ u ≠ v ∧ Shares s.constraints u v := by
  have inside : ∀ e ∈ s.constraints.flatMap pairsOf,
      e.1 < (Array.replicate nV (#[] : Array Nat)).size ∧
        e.2 < (Array.replicate nV (#[] : Array Nat)).size := by
    intro e member
    obtain ⟨inc, listed, pair⟩ := List.mem_flatMap.mp member
    obtain ⟨left, right⟩ := mem_of_mem_pairsOf pair
    simpa using ⟨inRange inc listed _ left, inRange inc listed _ right⟩
  have empty : u ∉ (Array.replicate nV (#[] : Array Nat))[v]! := by
    simp only [getElem!_def, Array.getElem?_replicate]
    by_cases below : v < nV
    · simp [below]
    · rw [if_neg below]
      exact Array.not_mem_empty u
  rw [adjacencyPass_eq, mem_foldl_edge inside]
  constructor
  · rintro (absurd_ | ⟨⟨a, b⟩, member, distinct, here⟩)
    · exact absurd absurd_ empty
    · obtain ⟨inc, listed, pair⟩ := List.mem_flatMap.mp member
      obtain ⟨left, right⟩ := mem_of_mem_pairsOf pair
      rcases here with ⟨rfl, rfl⟩ | ⟨rfl, rfl⟩
      · exact ⟨distinct.symm, inc, listed, right, left⟩
      · exact ⟨distinct, inc, listed, left, right⟩
  · rintro ⟨distinct, inc, listed, inU, inV⟩
    refine Or.inr ?_
    rcases (mem_pairsOf distinct).mpr ⟨inU, inV⟩ with pair | pair
    · exact ⟨_, List.mem_flatMap.mpr ⟨inc, listed, pair⟩, distinct, Or.inr ⟨rfl, rfl⟩⟩
    · exact ⟨_, List.mem_flatMap.mpr ⟨inc, listed, pair⟩, distinct.symm, Or.inl ⟨rfl, rfl⟩⟩

end Adjacency

section FirstFit

/-- One turn of the loop of `usedPass`. -/
def markColor (color : Array Int) (used : Array Bool) (n : Nat) : Array Bool :=
  if 0 ≤ color[n]! ∧ color[n]!.toNat < used.size then used.set! color[n]!.toNat true else used

/-- The used colours are marked neighbour after neighbour. -/
theorem usedPass_eq (color : Array Int) (neighbours : Array Nat) :
    usedPass color neighbours =
      neighbours.toList.foldl (markColor color) (Array.replicate (neighbours.size + 1) false) := by
  simp only [usedPass, ← apply_ite, Array.forIn_pure_yield_eq_foldl, bind_pure, Id.run_pure,
    Array.foldl_toList]
  rfl

/-- A mark adds no colour. -/
@[simp] theorem size_markColor (color : Array Int) (used : Array Bool) (n : Nat) :
    (markColor color used n).size = used.size := by
  unfold markColor
  split <;> simp

/-- A mark sets the neighbour's colour and no other. -/
theorem markColor_spec {color : Array Int} {used : Array Bool} {n c : Nat} (inside : c < used.size) :
    (markColor color used n)[c]! = true ↔ used[c]! = true ∨ color[n]! = (c : Int) := by
  unfold markColor
  split
  · next known =>
    rw [getElem!_set!]
    have here : color[n]!.toNat = c ↔ color[n]! = (c : Int) := by omega
    by_cases same : color[n]! = (c : Int)
    · simp [inside, same]
    · rw [if_neg fun both => same (here.mp both.1)]
      simp [same]
  · next unknown =>
    have unseen : color[n]! ≠ (c : Int) := by omega
    simp [unseen]

/-- A flag of `usedPass` is up exactly when a neighbour has that colour. -/
theorem usedPass_spec (color : Array Int) (neighbours : Array Nat) :
    (usedPass color neighbours).size = neighbours.size + 1 ∧
      ∀ c < neighbours.size + 1,
        (usedPass color neighbours)[c]! = true ↔ ∃ n ∈ neighbours, color[n]! = (c : Int) := by
  have marked : ∀ (seen : List Nat) (used : Array Bool),
      (seen.foldl (markColor color) used).size = used.size ∧
        ∀ c < used.size, (seen.foldl (markColor color) used)[c]! = true ↔
          used[c]! = true ∨ ∃ n ∈ seen, color[n]! = (c : Int) := by
    intro seen
    induction seen with
    | nil => intro used; simp
    | cons n rest ih =>
        intro used
        obtain ⟨size, flags⟩ := ih (markColor color used n)
        rw [size_markColor] at size flags
        refine ⟨size, fun c inside => ?_⟩
        rw [List.foldl_cons, flags c inside, markColor_spec inside, List.exists_mem_cons_iff, or_assoc]
  obtain ⟨size, flags⟩ := marked neighbours.toList (Array.replicate (neighbours.size + 1) false)
  rw [usedPass_eq]
  rw [Array.size_replicate] at size flags
  refine ⟨size, fun c inside => ?_⟩
  rw [flags c inside]
  have down : (Array.replicate (neighbours.size + 1) false)[c]! = false := by
    simp only [getElem!_def, Array.getElem?_replicate, if_pos inside]
  simp [down, Array.mem_toList_iff]

/-- `firstFree` stops at the first flag that is down, or past the end. -/
theorem firstFree_spec (used : Array Bool) (c : Nat) (start : c ≤ used.size) :
    c ≤ firstFree used c ∧ firstFree used c ≤ used.size ∧
      (∀ i, c ≤ i → i < firstFree used c → used[i]! = true) ∧
      (firstFree used c < used.size → used[firstFree used c]! = false) := by
  fun_induction firstFree used c with
  | case1 c inside up ih =>
      obtain ⟨low, high, before, stop⟩ := ih (by omega)
      refine ⟨by omega, high, fun i above below => ?_, stop⟩
      by_cases same : i = c
      · subst same
        rw [getElem!_pos used i inside]
        exact up
      · exact before i (by omega) below
  | case2 c inside down =>
      refine ⟨le_rfl, by omega, fun i above below => by omega, fun _ => ?_⟩
      rw [getElem!_pos used c inside]
      simpa using down
  | case3 c outside => exact ⟨le_rfl, start, fun i above below => by omega, fun h => by omega⟩

/-- The colour taken is the least that no coloured neighbour has. -/
theorem firstFree_usedPass (color : Array Int) (neighbours : Array Nat) :
    IsLeast {c : Nat | ∀ n ∈ neighbours, color[n]! ≠ (c : Int)}
      (firstFree (usedPass color neighbours) 0) := by
  obtain ⟨size, flags⟩ := usedPass_spec color neighbours
  obtain ⟨-, high, before, stop⟩ := firstFree_spec (usedPass color neighbours) 0 (Nat.zero_le _)
  -- One flag more than there are neighbours, so not all of them are up.
  have below : firstFree (usedPass color neighbours) 0 ≤ neighbours.size := by
    have inside : List.range (firstFree (usedPass color neighbours) 0) ⊆
        neighbours.toList.map fun n => color[n]!.toNat := by
      intro c member
      have low := List.mem_range.mp member
      obtain ⟨n, listed, here⟩ := (flags c (by omega)).mp (before c (Nat.zero_le c) low)
      exact List.mem_map.mpr ⟨n, Array.mem_toList_iff.mpr listed, by omega⟩
    have short := (List.nodup_range.subperm inside).length_le
    rwa [List.length_range, List.length_map, Array.length_toList] at short
  refine ⟨fun n listed same => ?_, fun c free => ?_⟩
  · have up := (flags _ (by omega)).mpr ⟨n, listed, same⟩
    rw [stop (by omega)] at up
    exact Bool.false_ne_true up
  · by_contra low
    obtain ⟨n, listed, same⟩ := (flags c (by omega)).mp (before c (Nat.zero_le c) (by omega))
    exact free n listed same

/-- The colours as numbers. -/
def colorOf (color : Array Int) (v : Nat) : Nat := color[v]!.toNat

/-- The colouring loop assigns first-fit colours. -/
theorem colorPass_spec (nV : Nat) (adj : Array (Array Nat)) (near : Nat → Nat → Prop)
    (listed : ∀ u v, v < nV → (u ∈ adj[v]! ↔ near u v))
    (irrefl : ∀ v, ¬ near v v) (inside : ∀ u v, near u v → u < nV) :
    (colorPass nV adj).size = nV ∧ (∀ v < nV, (colorPass nV adj)[v]! = colorOf (colorPass nV adj) v) ∧
      IsGreedy near nV (colorOf (colorPass nV adj)) := by
  have loop : ∀ m ≤ nV,
      let color := (List.range m).foldl (fun color v =>
        color.set! v (firstFree (usedPass color adj[v]!) 0 : Nat)) (Array.replicate nV (-1 : Int))
      color.size = nV ∧ (∀ v < m, color[v]! = colorOf color v) ∧
        (∀ v < nV, m ≤ v → color[v]! = -1) ∧ IsGreedy near m (colorOf color) := by
    intro m
    induction m with
    | zero =>
        intro _
        refine ⟨by simp, fun v low => by omega, fun v below _ => ?_, fun v low => by omega⟩
        simp [below]
    | succ m ih =>
        intro bound
        obtain ⟨size, known, unknown, greedy⟩ := ih (by omega)
        rw [List.range_succ, List.foldl_append, List.foldl_cons, List.foldl_nil]
        generalize (List.range m).foldl _ _ = color at size known unknown greedy ⊢
        have least := firstFree_usedPass color adj[m]!
        generalize firstFree (usedPass color adj[m]!) 0 = next at least ⊢
        have cell : ∀ v, (color.set! m (next : Int))[v]! =
            if m = v ∧ v < nV then (next : Int) else color[v]! := by
          intro v
          rw [getElem!_set!, size]
        have top : colorOf (color.set! m (next : Int)) m = next := by
          rw [colorOf, cell, if_pos ⟨rfl, by omega⟩, Int.toNat_natCast]
        have kept : ∀ v < m, colorOf (color.set! m (next : Int)) v = colorOf color v := by
          intro v below
          rw [colorOf, cell, if_neg (by omega), colorOf]
        refine ⟨by simpa using size, fun v low => ?_, fun v below above => ?_, ?_⟩
        · rcases Nat.lt_succ_iff_lt_or_eq.mp low with below | rfl
          · rw [kept v below, cell, if_neg (by omega), known v below]
          · rw [top, cell, if_pos ⟨rfl, by omega⟩]
        · rw [cell, if_neg (by omega)]
          exact unknown v below (by omega)
        · refine greedy.succ kept ?_
          rw [top]
          -- A neighbour is earlier and coloured, or later and still at -1.
          have same : {c : Nat | ∀ n ∈ adj[m]!, color[n]! ≠ (c : Int)} =
              {c | ∀ u < m, near u m → colorOf color u ≠ c} := by
            ext c
            constructor
            · intro free u below adjacent same
              refine free u ((listed u m (by omega)).mpr adjacent) ?_
              rw [known u below, same]
            · intro free n member same
              have adjacent := (listed n m (by omega)).mp member
              rcases Nat.lt_trichotomy n m with below | here | above
              · exact free n below adjacent (by rw [colorOf, same, Int.toNat_natCast])
              · exact irrefl m (here ▸ adjacent)
              · have blank := unknown n (inside n m adjacent) (by omega)
                omega
          exact same ▸ least
  have color : colorPass nV adj = (List.range nV).foldl (fun color v =>
      color.set! v (firstFree (usedPass color adj[v]!) 0 : Nat)) (Array.replicate nV (-1 : Int)) := by
    simp [colorPass, List.range_eq_range']
  obtain ⟨size, known, -, greedy⟩ := loop nV le_rfl
  rw [color]
  exact ⟨size, known, greedy⟩

end FirstFit

section LeanColors

open Cloth.Coloring

/-- The pairs of a stencil, one after the other. -/
theorem addPairs_eq (adj : Array (Array Nat)) (inc : List Nat) :
    addPairs adj inc =
      ((List.range inc.length).flatMap fun i => (List.range inc.length).map fun j => (i, j)).foldl
        (fun adj e => if e.1 != e.2 then adj.modify inc[e.1]! (·.push inc[e.2]!) else adj) adj := by
  simp only [addPairs, Std.Legacy.Range.forIn_eq_forIn_range', ← apply_ite,
    List.forIn_pure_yield_eq_foldl, bind_pure_comp, map_pure, bind_pure, Id.run_pure,
    Std.Legacy.Range.size, Nat.sub_zero, Nat.add_sub_cancel, Nat.div_one, ← List.range_eq_range',
    List.size_toArray, List.getElem!_toArray, List.foldl_flatMap, List.foldl_map]

/-- Pairs of positions pushed onto an adjacency. -/
theorem mem_foldl_pairs (inc : List Nat) (u : Nat) {v : Nat} (pairs : List (Nat × Nat))
    (adj : Array (Array Nat)) (vBound : v < adj.size) :
    let out := pairs.foldl
      (fun adj e => if e.1 != e.2 then adj.modify inc[e.1]! (·.push inc[e.2]!) else adj) adj
    out.size = adj.size ∧
      (u ∈ out[v]! ↔ u ∈ adj[v]! ∨
        ∃ e ∈ pairs, e.1 ≠ e.2 ∧ inc[e.1]! = v ∧ inc[e.2]! = u) := by
  induction pairs generalizing adj with
  | nil => simp
  | cons e rest ih =>
      rw [List.foldl_cons]
      by_cases same : e.1 = e.2
      · obtain ⟨size, members⟩ := ih adj vBound
        simp only [same, bne_self_eq_false, Bool.false_eq_true, if_false]
        refine ⟨size, members.trans ?_⟩
        simp [same]
      · have differ : (e.1 != e.2) = true := bne_iff_ne.mpr same
        obtain ⟨size, members⟩ := ih (adj.modify inc[e.1]! (·.push inc[e.2]!)) (by simpa using vBound)
        rw [if_pos differ]
        refine ⟨by simpa using size, members.trans ?_⟩
        rw [getElem!_modify, List.exists_mem_cons_iff, ← or_assoc]
        refine or_congr_left ?_
        by_cases here : inc[e.1]! = v
        · rw [if_pos ⟨here, vBound⟩, Array.mem_push]
          exact or_congr_right ⟨fun last => ⟨same, here, last.symm⟩, fun both => both.2.2.symm⟩
        · rw [if_neg fun both => here both.1]
          exact ⟨Or.inl, fun either => either.resolve_right fun both => here both.2.1⟩

/-- The pairs of one incidence list add its other members to each member. -/
theorem mem_addPairs (inc : List Nat) {u v : Nat} (adj : Array (Array Nat)) (vBound : v < adj.size)
    (distinct : u ≠ v) :
    (addPairs adj inc).size = adj.size ∧
      (u ∈ (addPairs adj inc)[v]! ↔ u ∈ adj[v]! ∨ u ∈ inc ∧ v ∈ inc) := by
  obtain ⟨size, members⟩ := mem_foldl_pairs inc u
    ((List.range inc.length).flatMap fun i => (List.range inc.length).map fun j => (i, j)) adj vBound
  rw [addPairs_eq]
  refine ⟨size, members.trans (or_congr_right ?_)⟩
  constructor
  · rintro ⟨⟨i, j⟩, member, -, atI, atJ⟩
    simp only [List.mem_flatMap, List.mem_map, List.mem_range, Prod.mk.injEq] at member
    obtain ⟨_, iBound, _, jBound, rfl, rfl⟩ := member
    rw [getElem!_pos inc _ iBound] at atI
    rw [getElem!_pos inc _ jBound] at atJ
    exact ⟨atJ ▸ List.getElem_mem jBound, atI ▸ List.getElem_mem iBound⟩
  · rintro ⟨inU, inV⟩
    obtain ⟨j, jBound, atJ⟩ := List.getElem_of_mem inU
    obtain ⟨i, iBound, atI⟩ := List.getElem_of_mem inV
    refine ⟨(i, j), ?_, fun same => ?_, ?_, ?_⟩
    · simp [iBound, jBound]
    · simp only at same
      subst same
      exact distinct (atJ.symm.trans atI)
    · rw [getElem!_pos inc i iBound, atI]
    · rw [getElem!_pos inc j jBound, atJ]

/-- The Lean adjacency agrees with the solver's on distinct vertices. -/
theorem mem_buildAdj {nV : Nat} {cons : List (List Nat)} {u v : Nat} (vBound : v < nV)
    (distinct : u ≠ v) : u ∈ (buildAdj nV cons)[v]! ↔ Shares cons u v := by
  have collected : ∀ (cons : List (List Nat)) (adj : Array (Array Nat)), v < adj.size →
      (u ∈ (cons.foldl addPairs adj)[v]! ↔ u ∈ adj[v]! ∨ Shares cons u v) := by
    intro cons
    induction cons with
    | nil => intro adj _; simp [Shares]
    | cons inc rest ih =>
        intro adj inside
        obtain ⟨size, members⟩ := mem_addPairs inc adj inside distinct
        rw [List.foldl_cons, ih _ (by omega), members, or_assoc]
        simp [Shares]
  have fold : buildAdj nV cons = cons.foldl addPairs (Array.replicate nV #[]) := by
    simp [buildAdj]
  have empty : u ∉ (Array.replicate nV (#[] : Array Nat))[v]! := by simp [vBound]
  rw [fold, collected cons _ (by simpa using vBound)]
  simp [empty]

/-- A flag of `markUsed` is up exactly when an earlier neighbour has that colour. -/
theorem markUsed_spec (nV v : Nat) (color neighbours : Array Nat) {c : Nat} (inside : c ≤ nV) :
    (markUsed nV v color neighbours)[c]! = true ↔ ∃ n ∈ neighbours, n < v ∧ color[n]! = c := by
  have marked : ∀ (seen : List Nat) (used : Array Bool), c < used.size →
      ((seen.foldl (fun used n => if n < v then used.set! color[n]! true else used) used)[c]! = true ↔
        used[c]! = true ∨ ∃ n ∈ seen, n < v ∧ color[n]! = c) := by
    intro seen
    induction seen with
    | nil => intro used _; simp
    | cons n rest ih =>
        intro used bound
        rw [List.foldl_cons, List.exists_mem_cons_iff, ← or_assoc]
        by_cases earlier : n < v
        · rw [if_pos earlier, ih _ (by simpa using bound), getElem!_set!]
          refine or_congr_left ?_
          by_cases same : color[n]! = c <;> simp [same, bound, earlier]
        · rw [if_neg earlier, ih _ bound]
          simp [earlier]
  have fold : markUsed nV v color neighbours = neighbours.toList.foldl
      (fun used n => if n < v then used.set! color[n]! true else used)
      (Array.replicate (nV + 1) false) := by
    simp only [markUsed, ← apply_ite, Array.forIn_pure_yield_eq_foldl, bind_pure, Id.run_pure,
      Array.foldl_toList]
  have down : (Array.replicate (nV + 1) false)[c]! = false := by
    simp [Nat.lt_succ_of_le inside]
  rw [fold, marked _ _ (by simpa using Nat.lt_succ_of_le inside)]
  simp [down, Array.mem_toList_iff]

/-- The scan with its `found` flag stops at the least flag that is down. -/
theorem smallestUnused_spec (nV : Nat) (used : Array Bool)
    (some_ : ∃ c ≤ nV, used[c]! = false) :
    IsLeast {c | used[c]! = false} (smallestUnused nV used) := by
  have scan : ∀ n, let s := (List.range n).foldl (fun s cand =>
        if (!s.2 && !used[cand]!) = true then (cand, true) else s) ((0 : Nat), false)
      (s.2 = false ∧ ∀ c < n, used[c]! = true) ∨
        s.2 = true ∧ IsLeast {c | used[c]! = false} s.1 := by
    intro n
    induction n with
    | zero => exact Or.inl ⟨rfl, fun c low => by omega⟩
    | succ n ih =>
        rw [List.range_succ, List.foldl_append, List.foldl_cons, List.foldl_nil]
        generalize (List.range n).foldl _ _ = s at ih ⊢
        rcases ih with ⟨searching, up⟩ | ⟨found, least⟩
        · by_cases flag : used[n]! = true
          · refine Or.inl ?_
            simp only [searching, flag, Bool.not_true, Bool.and_false, Bool.false_eq_true, if_false,
              true_and]
            intro c low
            rcases Nat.lt_succ_iff_lt_or_eq.mp low with below | rfl
            · exact up c below
            · exact flag
          · refine Or.inr ?_
            have down : used[n]! = false := by simpa using flag
            simp only [searching, down, Bool.not_false, Bool.and_self, if_true, true_and]
            refine ⟨down, fun c free => ?_⟩
            by_contra below
            have taken := up c (by omega)
            rw [free] at taken
            exact Bool.false_ne_true taken
        · refine Or.inr ?_
          simp only [found, Bool.not_true, Bool.false_and, Bool.false_eq_true, if_false, true_and]
          exact least
  have fold : smallestUnused nV used = ((List.range (nV + 1)).foldl (fun s cand =>
      if (!s.2 && !used[cand]!) = true then (cand, true) else s) ((0 : Nat), false)).1 := by
    simp only [smallestUnused, Std.Legacy.Range.forIn_eq_forIn_range', ← apply_ite,
      List.forIn_pure_yield_eq_foldl, bind_pure_comp, map_pure, Id.run_pure, Std.Legacy.Range.size,
      Nat.sub_zero, Nat.add_sub_cancel, Nat.div_one, ← List.range_eq_range']
  rw [fold]
  rcases scan (nV + 1) with ⟨-, up⟩ | ⟨-, least⟩
  · obtain ⟨c, low, down⟩ := some_
    have taken := up c (by omega)
    rw [down] at taken
    exact absurd taken Bool.false_ne_true
  · exact least

/-- How many colours the first `n` vertices use, counted up vertex by vertex. -/
def colorsUsed (color : Nat → Nat) (n : Nat) : Nat :=
  (List.range n).foldl (fun nc v => if color v + 1 > nc then color v + 1 else nc) 0

/-- One vertex more. -/
theorem colorsUsed_succ (color : Nat → Nat) (n : Nat) :
    colorsUsed color (n + 1) =
      if color n + 1 > colorsUsed color n then color n + 1 else colorsUsed color n := by
  simp [colorsUsed, List.range_succ]

/-- A vertex's colour is below the number of colours. -/
theorem lt_colorsUsed (color : Nat → Nat) {n v : Nat} (inside : v < n) :
    color v < colorsUsed color n := by
  induction n with
  | zero => omega
  | succ n ih =>
      rw [colorsUsed_succ]
      rcases Nat.lt_succ_iff_lt_or_eq.mp inside with below | rfl
      · have prior := ih below
        split <;> omega
      · split <;> omega

/-- The same colours have the same number. -/
theorem colorsUsed_congr {color other : Nat → Nat} {n : Nat} (same : ∀ v < n, color v = other v) :
    colorsUsed color n = colorsUsed other n := by
  induction n with
  | zero => rfl
  | succ n ih =>
      rw [colorsUsed_succ, colorsUsed_succ, ih fun v below => same v (by omega), same n (by omega)]

/-- The Lean colouring loop assigns first-fit colours and counts them. -/
theorem colorLoop_spec (nV : Nat) (adj : Array (Array Nat)) (near : Nat → Nat → Prop)
    (listed : ∀ u v, v < nV → u < v → (u ∈ adj[v]! ↔ near u v)) :
    (colorLoop nV adj).1.size = nV ∧ IsGreedy near nV (fun v => (colorLoop nV adj).1[v]!) ∧
      (colorLoop nV adj).2 = colorsUsed (fun v => (colorLoop nV adj).1[v]!) nV := by
  have loop : ∀ m ≤ nV,
      let s := (List.range m).foldl (fun s v =>
        (s.1.set! v (smallestUnused nV (markUsed nV v s.1 adj[v]!)),
          if smallestUnused nV (markUsed nV v s.1 adj[v]!) + 1 > s.2 then
            smallestUnused nV (markUsed nV v s.1 adj[v]!) + 1 else s.2))
        (Array.replicate nV 0, 0)
      s.1.size = nV ∧ IsGreedy near m (fun v => s.1[v]!) ∧ s.2 = colorsUsed (fun v => s.1[v]!) m := by
    intro m
    induction m with
    | zero => exact fun _ => ⟨by simp, fun v low => by omega, rfl⟩
    | succ m ih =>
        intro bound
        obtain ⟨size, greedy, count⟩ := ih (by omega)
        rw [List.range_succ, List.foldl_append, List.foldl_cons, List.foldl_nil]
        generalize (List.range m).foldl _ _ = s at size greedy count ⊢
        obtain ⟨color, nc⟩ := s
        simp only at size greedy count ⊢
        have flags : ∀ c ≤ nV, (markUsed nV m color adj[m]!)[c]! = false ↔
            ∀ u < m, near u m → color[u]! ≠ c := by
          intro c low
          rw [← Bool.not_eq_true, markUsed_spec nV m color _ low]
          constructor
          · intro free u below adjacent same
            exact free ⟨u, (listed u m (by omega) below).mpr adjacent, below, same⟩
          · rintro free ⟨u, member, below, same⟩
            exact free u below ((listed u m (by omega) below).mp member) same
        obtain ⟨c, low, free⟩ := exists_free_le near (fun v => color[v]!) m
        have scan := smallestUnused_spec nV (markUsed nV m color adj[m]!)
          ⟨c, by omega, (flags c (by omega)).mpr free⟩
        generalize smallestUnused nV (markUsed nV m color adj[m]!) = next at scan ⊢
        have nextLow : next ≤ nV := (scan.2 ((flags c (by omega)).mpr free)).trans (by omega)
        have cell : ∀ v, (color.set! m next)[v]! = if m = v ∧ v < nV then next else color[v]! := by
          intro v
          rw [getElem!_set!, size]
        have top : (color.set! m next)[m]! = next := by rw [cell, if_pos ⟨rfl, by omega⟩]
        have kept : ∀ v < m, (color.set! m next)[v]! = color[v]! := by
          intro v below
          rw [cell, if_neg (by omega)]
        refine ⟨by simpa using size, greedy.succ kept ?_, ?_⟩
        · rw [top]
          refine ⟨(flags next nextLow).mp scan.1, fun c free => ?_⟩
          by_cases low : c ≤ nV
          · exact scan.2 ((flags c low).mpr free)
          · omega
        · rw [colorsUsed_succ, top, count, colorsUsed_congr kept]
  have fold : colorLoop nV adj = (List.range nV).foldl (fun s v =>
        (s.1.set! v (smallestUnused nV (markUsed nV v s.1 adj[v]!)),
          if smallestUnused nV (markUsed nV v s.1 adj[v]!) + 1 > s.2 then
            smallestUnused nV (markUsed nV v s.1 adj[v]!) + 1 else s.2))
        (Array.replicate nV 0, 0) := by
    simp only [colorLoop, Std.Legacy.Range.forIn_eq_forIn_range', ← apply_ite,
      List.forIn_pure_yield_eq_foldl, bind_pure_comp, map_pure, Id.run_pure, Std.Legacy.Range.size,
      Nat.sub_zero, Nat.add_sub_cancel, Nat.div_one, ← List.range_eq_range']
  rw [fold]
  exact loop nV le_rfl

end LeanColors

end DressOn.Avbd
