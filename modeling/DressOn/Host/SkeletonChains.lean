import DressOn.Host.Skeleton15
import DressOn.Lib.Trails
import Mathlib.Data.List.GetD

/-!
# The chains of a rig

What the walks of the topology path find in any bone graph, with cycles, repeated bones and
self-bones: no walk reads out of range, and two chains meet only end to end or as one loop. So the
slots of an answer are a rig's joints, and they are different joints just where a few ends are.
-/

namespace DressOn.Host.Skeleton15

open DressOn.Guarded DressOn.Trails

/-- The neighbours of a joint. -/
def nbrs (adj : List (List Nat)) (i : Nat) : List Nat := adj.getD i []

/-- The lists of neighbours after some bones. -/
def linkAll (n : Nat) (ends : List (Nat × Nat)) : List (List Nat) :=
  ends.foldl (fun adj bone => link adj bone.1 bone.2) (List.replicate n [])

section Joined

variable {n : Nat} {adj : List (List Nat)} {ends : List (Nat × Nat)}

/-- Bones between joints that are there. -/
def Inside (n : Nat) (ends : List (Nat × Nat)) : Prop := ∀ bone ∈ ends, bone.1 < n ∧ bone.2 < n

/-- A link adds no joint. -/
theorem length_link (adj : List (List Nat)) (a c : Nat) : (link adj a c).length = adj.length := by
  rw [link, List.length_modify, List.length_modify]

/-- A bone adds each of its joints to the list of the other. -/
theorem nbrs_link {a c : Nat} (inside : a < adj.length) (inside' : c < adj.length) (x : Nat) :
    nbrs (link adj a c) x =
      nbrs adj x ++ (if x = a then [c] else []) ++ if x = c then [a] else [] := by
  rw [nbrs, link, List.getD_eq_getElem?_getD, List.getElem?_modify, List.getElem?_modify]
  by_cases here : x < adj.length
  · rw [List.getElem?_eq_getElem here, nbrs, List.getD_eq_getElem _ _ here]
    by_cases at_a : a = x <;> by_cases at_c : c = x <;> simp [at_a, at_c, Ne.symm]
  · have other : x ≠ a := by omega
    have other' : x ≠ c := by omega
    simp [nbrs, here, other, other']

/-- The table has a row for each joint. -/
theorem length_linkAll (n : Nat) (ends : List (Nat × Nat)) : (linkAll n ends).length = n := by
  induction ends using List.reverseRecOn with
  | nil => exact List.length_replicate
  | append_singleton ends bone inductionHypothesis =>
    rw [linkAll, List.foldl_concat, length_link]
    exact inductionHypothesis

/-- How often a list of at most one entry holds a value. -/
theorem count_ite (holds : Prop) [Decidable holds] (c y : Nat) :
    (if holds then [c] else []).count y = if holds ∧ c = y then 1 else 0 := by
  by_cases there : holds
  · simp [there, List.count_singleton]
  · simp [there]

/-- A joint is in the list of another once for each bone between them. -/
theorem count_nbrs_linkAll (inside : Inside n ends) (x y : Nat) :
    (nbrs (linkAll n ends) x).count y = ends.count (x, y) + ends.count (y, x) := by
  induction ends using List.reverseRecOn with
  | nil =>
    have none_there : nbrs (linkAll n []) x = [] := by
      rw [linkAll, List.foldl_nil, nbrs, List.getD_eq_getElem?_getD, List.getElem?_replicate]
      split <;> rfl
    simp [none_there]
  | append_singleton ends bone inductionHypothesis =>
    have here := inside bone (by simp)
    have before := inductionHypothesis fun bone member =>
      inside bone (List.mem_append_left _ member)
    have length := length_linkAll n ends
    obtain ⟨a, c⟩ := bone
    have added : linkAll n (ends ++ [(a, c)]) = link (linkAll n ends) a c := List.foldl_concat ..
    rw [added, nbrs_link (here.1.trans_eq length.symm) (here.2.trans_eq length.symm),
      List.count_append, List.count_append,
      before, List.count_append, List.count_append, List.count_singleton, List.count_singleton]
    have first : (if x = a then [c] else []).count y = if (a, c) == (x, y) then 1 else 0 := by
      rw [count_ite]
      exact if_congr (by rw [beq_iff_eq, Prod.mk.injEq, @eq_comm _ x a]) rfl rfl
    have second : (if x = c then [a] else []).count y = if (a, c) == (y, x) then 1 else 0 := by
      rw [count_ite]
      exact if_congr (by rw [beq_iff_eq, Prod.mk.injEq, and_comm, @eq_comm _ x c]) rfl rfl
    rw [first, second]
    omega

/-- The lists of neighbours of a rig's bones. -/
structure Linked (n : Nat) (adj : List (List Nat)) (ends : List (Nat × Nat)) : Prop where
  adj_eq : adj = linkAll n ends
  inside : Inside n ends

namespace Linked

variable (linked : Linked n adj ends)

include linked

/-- The table has a row for each joint. -/
theorem length : adj.length = n := by rw [linked.adj_eq, length_linkAll]

/-- A joint stands as often among the others as there are bones between them. -/
theorem count_eq (x y : Nat) : (nbrs adj x).count y = ends.count (x, y) + ends.count (y, x) := by
  rw [linked.adj_eq, count_nbrs_linkAll linked.inside]

/-- A bone is known at both of its ends. -/
theorem undirected : Undirected (nbrs adj) where
  count_comm x y := by rw [linked.count_eq, linked.count_eq, Nat.add_comm]
  even_self x := by
    rw [linked.count_eq]
    exact Even.add_self _

/-- The neighbours are the other ends of the bones. -/
theorem mem_nbrs {x y : Nat} : y ∈ nbrs adj x ↔ (x, y) ∈ ends ∨ (y, x) ∈ ends := by
  rw [← List.count_pos_iff, linked.count_eq, ← List.count_pos_iff, ← List.count_pos_iff]
  omega

/-- Neighbours are joints, of each other. -/
theorem lt_of_mem {x y : Nat} (member : y ∈ nbrs adj x) : y < n := by
  rcases linked.mem_nbrs.mp member with forth | back
  · exact (linked.inside _ forth).2
  · exact (linked.inside _ back).1

/-- A neighbour has the joint as its neighbour. -/
theorem mem_comm {x y : Nat} (member : y ∈ nbrs adj x) : x ∈ nbrs adj y :=
  linked.mem_nbrs.mpr (linked.mem_nbrs.mp member).symm

/-- The row of a joint is its neighbours. -/
theorem getElem?_eq {i : Nat} (inside : i < n) : adj[i]? = some (nbrs adj i) := by
  rw [nbrs, List.getD_eq_getElem _ _ (inside.trans_eq linked.length.symm),
    List.getElem?_eq_getElem (inside.trans_eq linked.length.symm)]

/-- A joint's row is read. -/
theorem read_eq {i : Nat} (inside : i < n) :
    read adj i = (.ok (nbrs adj i) : Attempt String _) := by
  show need adj[i]? = _
  rw [linked.getElem?_eq inside]
  rfl

end Linked

/-- The bones of a rig are linked, or one is out of range. -/
theorem safe_neighbours (n : Nat) (bones : List Int) :
    Safe (neighbours n bones) fun adj => ∃ ends, Linked n adj ends ∧
      pairs bones = ends.map fun bone => ((bone.1 : Int), (bone.2 : Int)) := by
  rw [neighbours]
  generalize pairs bones = bones
  induction bones using List.reverseRecOn with
  | nil => exact ⟨[], ⟨rfl, nofun⟩, rfl⟩
  | append_singleton bones bone inductionHypothesis =>
    rw [List.foldlM_append]
    refine inductionHypothesis.bind fun adj _ => ?_
    rintro ⟨ends, linked, rfl⟩
    rw [List.foldlM_cons, joinBone]
    split
    next => trivial
    next good =>
      obtain ⟨a, c⟩ := bone
      simp only [not_or, Int.not_lt, Int.not_le] at good
      obtain ⟨a_nonneg, c_nonneg, a_less, c_less⟩ := good
      refine ⟨ends ++ [(a.toNat, c.toNat)], ⟨?_, ?_⟩, ?_⟩
      · rw [linkAll, List.foldl_concat, ← linkAll, linked.adj_eq]
      · intro bone member
        rcases List.mem_append.mp member with old | new
        · exact linked.inside bone old
        · obtain rfl := List.mem_singleton.mp new
          constructor <;> dsimp only <;> omega
      · simp [Int.toNat_of_nonneg a_nonneg, Int.toNat_of_nonneg c_nonneg]

/-- The branch joints are those of three bones or more. -/
theorem branches_eq (linked : Linked n adj ends) :
    branches n adj = .ok ((List.range n).filter fun i => decide (3 ≤ (nbrs adj i).length)) := by
  have general : ∀ m ≤ n, (List.range m).foldlM (fun branch i => do
      let nbs ← read adj i
      return if 3 ≤ nbs.length then branch ++ [i] else branch) [] =
      (.ok ((List.range m).filter fun i => decide (3 ≤ (nbrs adj i).length)) :
        Attempt String (List Nat)) := by
    intro m
    induction m with
    | zero => exact fun _ => rfl
    | succ m inductionHypothesis =>
      intro inside
      rw [List.range_succ, List.foldlM_append, inductionHypothesis (Nat.le_of_succ_le inside),
        List.filter_append]
      change (read adj m >>= _) >>= _ = _
      rw [linked.read_eq inside]
      by_cases many : 3 ≤ (nbrs adj m).length
      · simp [many]
      · simp [many]
  exact general n le_rfl

/-- A list of joints is a chain that leaves a joint: an ended trail without its start. -/
structure Along (n : Nat) (adj : List (List Nat)) (start : Nat) (joints : List Nat) (x : ℕ → ℕ)
    (m : ℕ) : Prop where
  ended : Ended (nbrs adj) x m
  start_eq : x 0 = start
  joints_eq : joints = (List.range (m + 1)).map fun t => x (t + 1)
  inside : ∀ t ≤ m + 1, x t < n

/-- Different joints are no more than there are. -/
theorem length_le_of_nodup {joints : List Nat} (nodup : joints.Nodup)
    (inside : ∀ i ∈ joints, i < n) : joints.length ≤ n := by
  have subset : joints.toFinset ⊆ Finset.range n := fun i member =>
    Finset.mem_range.mpr (inside i (List.mem_toFinset.mp member))
  have card := Finset.card_le_card subset
  rwa [List.toFinset_card_of_nodup nodup, Finset.card_range] at card

/-- The other one of two neighbours. -/
theorem perm_other {one two before : Nat} (member : before ∈ [one, two]) :
    [one, two].Perm [before, if one ≠ before then one else two] := by
  by_cases same : one = before
  · rw [if_neg (not_not_intro same), same]
  · rw [if_pos same]
    obtain rfl : before = two := (List.mem_pair.mp member).resolve_left (Ne.symm same)
    exact List.Perm.swap _ _ _

/-- A trail goes on through a joint of two bones. -/
theorem trail_update {x : ℕ → ℕ} {m : ℕ} (trail : Trail (nbrs adj) x m) {next : Nat}
    (pair : (nbrs adj (x (m + 1))).Perm [x m, next]) :
    Trail (nbrs adj) (Function.update x (m + 2) next) (m + 1) where
  start := by
    rw [Function.update_of_ne (by omega)]
    exact trail.start
  through i inside := by
    rw [@Function.update_of_ne _ _ _ (i + 1) _ (by omega),
      @Function.update_of_ne _ _ _ i _ (by omega)]
    by_cases last : i = m
    · subst last
      rwa [Function.update_self]
    · rw [Function.update_of_ne (by omega)]
      exact trail.through i (by omega)

/-- The walk goes on to the end of the trail that it is on. -/
theorem chainFrom_spec (linked : Linked n adj ends) (fuel : ℕ) (x : ℕ → ℕ) (m : ℕ)
    (trail : Trail (nbrs adj) x m) (next : x (m + 1) ∈ nbrs adj (x m))
    (inside : ∀ t ≤ m + 1, x t < n) (left : fuel + m = n) :
    ∃ y k, Ended (nbrs adj) y (m + k) ∧ (∀ t ≤ m + 1, y t = x t) ∧ (∀ t ≤ m + k + 1, y t < n) ∧
      chainFrom adj fuel (x m) (x (m + 1)) =
        .ok ((List.range (k + 1)).map fun t => y (m + 1 + t)) := by
  induction fuel generalizing x m with
  | zero =>
    -- all joints are on the trail already
    have few := length_le_of_nodup (trail.nodup linked.undirected) (n := n) fun i member => by
      obtain ⟨t, less, rfl⟩ := List.mem_map.mp member
      exact inside t (List.mem_range.mp less).le
    rw [List.length_map, List.length_range] at few
    omega
  | succ fuel inductionHypothesis =>
    have goes_on {α β : Type} (value : α) (next : α → Attempt String β) :
        (Except.ok value >>= next) = next value := rfl
    rw [chainFrom, linked.read_eq (inside (m + 1) le_rfl), goes_on]
    split
    next one two two_there =>
      have back : x m ∈ [one, two] := two_there ▸ linked.mem_comm next
      have pair := perm_other back
      generalize (if one ≠ x m then one else two) = after at pair
      have there : after ∈ nbrs adj (x (m + 1)) := by
        rw [two_there, pair.mem_iff]
        simp
      have kept : ∀ t ≤ m + 1, Function.update x (m + 2) after t = x t := fun t less =>
        Function.update_of_ne (by omega) _ _
      have here : Function.update x (m + 2) after (m + 1) = x (m + 1) := kept (m + 1) le_rfl
      have further : Function.update x (m + 2) after (m + 2) = after := Function.update_self ..
      obtain ⟨y, k, ended, agree, within, walked⟩ := inductionHypothesis
        (Function.update x (m + 2) after) (m + 1) (trail_update trail (two_there ▸ pair))
        (by rwa [further, here]) (fun t less => by
          rcases Nat.lt_or_eq_of_le less with less | rfl
          · rw [kept t (Nat.le_of_lt_succ less)]
            exact inside t (Nat.le_of_lt_succ less)
          · rw [further]
            exact linked.lt_of_mem there) (by omega)
      rw [here, further] at walked
      refine ⟨y, k + 1, by rwa [Nat.add_right_comm] at ended, fun t less => ?_,
        fun t less => ?_, ?_⟩
      · rw [agree t (by omega), kept t less]
      · exact within t (by omega)
      · have list_eq : (List.range (k + 1 + 1)).map (fun t => y (m + 1 + t)) =
            x (m + 1) :: (List.range (k + 1)).map fun t => y (m + 1 + 1 + t) := by
          rw [List.range_succ_eq_map, List.map_cons, List.map_map, Nat.add_zero,
            agree _ (by omega), here]
          refine congrArg (x (m + 1) :: ·) (List.map_congr_left fun t _ => congrArg y ?_)
          omega
        rw [walked, list_eq]
        rfl
    next other =>
      refine ⟨x, 0, ⟨trail, fun two => ?_⟩, fun _ _ => rfl, inside, by simp; rfl⟩
      obtain ⟨one, two, pair⟩ := List.length_eq_two.mp two
      exact other one two pair

/-- A chain is a trail from a branch joint by one of its bones, up to the next joint that has not
two. -/
theorem chain_spec (linked : Linked n adj ends) {start first : Nat} (here : start < n)
    (branch : (nbrs adj start).length ≠ 2) (there : first ∈ nbrs adj start) :
    ∃ joints x m, chain adj start first = .ok joints ∧ Along n adj start joints x m ∧
      x 1 = first := by
  let x : ℕ → ℕ := fun t => if t = 0 then start else first
  obtain ⟨y, k, ended, agree, inside, walked⟩ := chainFrom_spec linked n x 0
    ⟨branch, fun _ less => absurd less (Nat.not_lt_zero _)⟩ there
    (fun t less => by
      by_cases zero : t = 0
      · exact (if_pos zero).trans_lt here
      · exact (if_neg zero).trans_lt (linked.lt_of_mem there))
    (Nat.add_zero n)
  rw [Nat.zero_add] at ended inside
  refine ⟨_, y, k, ?_, ⟨ended, agree 0 (by omega), rfl, inside⟩, agree 1 (by omega)⟩
  rw [chain, linked.length]
  refine walked.trans (congrArg Except.ok (List.map_congr_left fun t _ => congrArg y ?_))
  omega

/-- A chain that leaves a joint by one of its bones. -/
def Leaves (n : Nat) (adj : List (List Nat)) (start first : Nat) (joints : List Nat) : Prop :=
  ∃ x m, Along n adj start joints x m ∧ x 1 = first

/-- The joints of a chain are joints of the skeleton. -/
theorem Leaves.lt_of_mem {start first : Nat} {joints : List Nat}
    (leaves : Leaves n adj start first joints) : ∀ i ∈ joints, i < n := by
  obtain ⟨x, m, along, -⟩ := leaves
  intro i member
  rw [along.joints_eq] at member
  obtain ⟨t, less, rfl⟩ := List.mem_map.mp member
  exact along.inside _ (Nat.succ_le_of_lt (List.mem_range.mp less))

/-- Two chains of three joints or more that leave a joint by different neighbours. -/
def Twins (n : Nat) (adj : List (List Nat)) (start : Nat) (one two : List Nat) : Prop :=
  ∃ x m y k, Along n adj start one x m ∧ Along n adj start two y k ∧ 2 ≤ m ∧ 2 ≤ k ∧ x 1 ≠ y 1

/-- Of two twin chains either may come first. -/
theorem Twins.symm {start : Nat} {one two : List Nat} (twins : Twins n adj start one two) :
    Twins n adj start two one := by
  obtain ⟨x, m, y, k, along, along', long, long', differ⟩ := twins
  exact ⟨y, k, x, m, along', along, long', long, differ.symm⟩

namespace Along

variable {start : Nat} {joints : List Nat} {x : ℕ → ℕ} {m : ℕ}

/-- A walk of `m` steps has one joint more. -/
theorem length (along : Along n adj start joints x m) : joints.length = m + 1 := by
  rw [along.joints_eq, List.length_map, List.length_range]

/-- The joints of a walk, by their places. -/
theorem getElem?_eq (along : Along n adj start joints x m) {t : ℕ} (inside : t ≤ m) :
    joints[t]? = some (x (t + 1)) := by
  rw [along.joints_eq, List.getElem?_map, List.getElem?_range (Nat.lt_succ_of_le inside)]
  rfl

/-- A joint of a walk is read. -/
theorem read_eq (along : Along n adj start joints x m) {t : ℕ} (inside : t ≤ m) :
    read joints t = (.ok (x (t + 1)) : Attempt String Nat) := by
  show need joints[t]? = _
  rw [along.getElem?_eq inside]
  rfl

/-- A joint of a walk is read from its end. -/
theorem readBack_eq (along : Along n adj start joints x m) {t : ℕ} (inside : t ≤ m) :
    readBack joints (t + 1) = .ok (x (m + 1 - t)) := by
  rw [readBack, along.length, if_pos (Nat.succ_le_succ inside), along.read_eq (by omega)]
  exact congrArg (fun t => Except.ok (x t)) (show m + 1 - (t + 1) + 1 = m + 1 - t by omega)

end Along

/-- Chains by different bones leave by different neighbours, if they are long. -/
theorem twins_of_leaves (linked : Linked n adj ends) {start first second : Nat}
    {one two : List Nat} (bones : [first, second].Sublist (nbrs adj start))
    (leaves : Leaves n adj start first one) (leaves' : Leaves n adj start second two)
    (long : 3 ≤ one.length) (long' : 3 ≤ two.length) : Twins n adj start one two := by
  obtain ⟨x, m, along, rfl⟩ := leaves
  obtain ⟨y, k, along', rfl⟩ := leaves'
  rw [along.length] at long
  rw [along'.length] at long'
  refine ⟨x, m, y, k, along, along', by omega, by omega, fun same => ?_⟩
  have alone := along.ended.count_first linked.undirected (by omega)
  have twice := bones.count_le (x 1)
  rw [along.start_eq] at alone
  rw [alone, ← same, List.count_cons_self, List.count_singleton_self] at twice
  exact absurd twice (by decide)

/-- The chains that leave a branch joint. -/
theorem safe_leaving (linked : Linked n adj ends) {start : Nat} (here : start < n)
    (branch : (nbrs adj start).length ≠ 2) (toward : Nat) :
    Safe (leaving adj start toward)
      (List.Forall₂ (Leaves n adj start) ((nbrs adj start).filter (· ≠ toward))) := by
  rw [leaving, linked.read_eq here]
  refine safe_mapM fun first member => ?_
  obtain ⟨joints, x, m, walked, along, first_eq⟩ := chain_spec linked here branch
    (List.mem_of_mem_filter member)
  rw [walked]
  exact ⟨x, m, along, first_eq⟩

end Joined

/-! ## The body -/

section Body

variable {α : Type} {n : Nat} {adj : List (List Nat)} {ends : List (Nat × Nat)}

/-- What the bone graph says of a body is about one: its trunk are two branch joints, and its chains
leave them. -/
structure Formed (n : Nat) (adj : List (List Nat)) (body : Body) : Prop where
  pelvis : body.pelvis < n
  chest : body.chest < n
  pelvis_branch : (nbrs adj body.pelvis).length ≠ 2
  chest_branch : (nbrs adj body.chest).length ≠ 2
  differ : body.pelvis ≠ body.chest
  head : ∃ x m, Along n adj body.chest body.head x m
  arms : Twins n adj body.chest body.leftArm body.rightArm
  legs : Twins n adj body.pelvis body.leftLeg body.rightLeg

variable {pos : List (Vector3 α)}

/-- The mean is taken without an error. -/
theorem safe_meanX [Zero α] [Add α] [Div α] [NatCast α] {joints : List Nat} (inside : ∀ i ∈ joints, i < pos.length) :
    Safe (meanX pos joints) fun _ => True := by
  refine (safe_foldlM (fun _ => True) (fun sum i member _ => ?_) trivial).bind fun _ _ _ => trivial
  exact (safe_read (inside i member) fun _ _ => trivial).bind fun _ _ _ => trivial

variable [LT α] [DecidableLT α]

/-- The lowest and the highest joint of a branch are found in it. -/
theorem safe_extremes {branch : List Nat} {first : Nat} (inside : ∀ i ∈ branch, i < pos.length)
    (member : first ∈ branch) :
    Safe (extremes pos branch first) fun trunk => trunk.1 ∈ branch ∧ trunk.2 ∈ branch := by
  refine safe_foldlM (fun trunk : Nat × Nat => trunk.1 ∈ branch ∧ trunk.2 ∈ branch) ?_
    ⟨member, member⟩
  rintro ⟨pelvis, chest⟩ i here ⟨low, high⟩
  refine (safe_read (inside i here) fun _ _ => trivial).bind fun here' _ _ => ?_
  refine (safe_read (inside pelvis low) fun _ _ => trivial).bind fun low' _ _ => ?_
  refine (safe_read (inside chest high) fun _ _ => trivial).bind fun high' _ _ => ?_
  constructor <;> dsimp only <;> split <;> assumption

/-- The highest of three chains is one of them. -/
theorem safe_highest {up : List (List Nat)} (three : up.length = 3)
    (tips : ∀ joints ∈ up, ∃ tip, readBack joints 1 = .ok tip ∧ tip < pos.length) :
    Safe (highest pos up) (· < 3) := by
  have safe_tip : ∀ k < 3, Safe (tip pos up k) fun _ => True := by
    intro k less
    refine (safe_read_mem (less.trans_eq three.symm)).bind fun joints _ member => ?_
    obtain ⟨tip, tip_eq, inside⟩ := tips joints member
    rw [tip_eq]
    exact safe_read inside fun _ _ => trivial
  refine safe_foldlM (· < 3) (fun hi k member low => ?_) (by decide)
  have less : k < 3 := by
    simp only [List.mem_cons, List.not_mem_nil, or_false] at member
    omega
  refine (safe_tip k less).bind fun _ _ _ => (safe_tip hi low).bind fun _ _ _ => ?_
  change (if _ then k else hi) < 3
  split <;> assumption

variable [Zero α] [Add α] [Div α] [NatCast α]

/-- Two chains are ordered by their sides without an error. -/
theorem safe_leftFirst {one two : List Nat} (inside : ∀ i ∈ one, i < pos.length)
    (inside' : ∀ i ∈ two, i < pos.length) :
    Safe (leftFirst pos one two) fun pair => pair = (one, two) ∨ pair = (two, one) := by
  refine (safe_meanX inside).bind fun _ _ _ => (safe_meanX inside').bind fun _ _ _ => ?_
  change (if _ then _ else _) = _ ∨ _
  split
  · exact .inr rfl
  · exact .inl rfl

/-- The neighbours of joints are joints. -/
theorem Linked.within (linked : Linked n adj ends) :
    BreadthFirst.Within (adj[·]?) (Finset.range n) where
  exists_nbs c here := ⟨nbrs adj c, linked.getElem?_eq (Finset.mem_range.mp here),
    fun _ member => Finset.mem_range.mpr (linked.lt_of_mem member)⟩

/-- The search for the spine answers. -/
theorem safe_path (linked : Linked n adj ends) {a : Nat} (here : a < n) (b : Nat) :
    Safe (path adj a b) fun spine => spine = [] ∧ (∀ way, ¬ BreadthFirst.Path (adj[·]?) a b way) ∨
      BreadthFirst.Path (adj[·]?) a b spine := by
  obtain ⟨spine, found, spine_spec⟩ := BreadthFirst.exists_path linked.within
    (Finset.mem_range.mpr here) (adj.length + 1)
    (by rw [Finset.card_range, linked.length]; exact n.lt_succ_self) b
  exact safe_need found spine_spec

/-- A value of a mapped list has its item. -/
theorem exists_of_forall₂ {ι β : Type} {related : ι → β → Prop} {items : List ι} {values : List β}
    (mapped : List.Forall₂ related items values) {value : β} (member : value ∈ values) :
    ∃ item, related item value := by
  induction mapped with
  | nil => cases member
  | cons here _ inductionHypothesis =>
    rcases List.mem_cons.mp member with rfl | member
    · exact ⟨_, here⟩
    · exact inductionHypothesis member

/-- A path between different joints has two joints or more. -/
theorem two_le_of_path {a b : Nat} {way : List Nat} (is_path : BreadthFirst.Path (adj[·]?) a b way)
    (differ : a ≠ b) : 2 ≤ way.length := by
  match way, is_path.head, is_path.last with
  | [one], head, last =>
    cases head
    exact absurd (Option.some.inj last) differ
  | _ :: _ :: _, _, _ => exact Nat.le_add_left _ _

/-- Within a chain the read from its end has no error. -/
theorem safe_readBack {joints : List Nat} {k : Nat} (pos : 0 < k) (inside : k ≤ joints.length) :
    Safe (readBack joints k) fun _ => True := by
  rw [readBack, if_pos inside]
  exact safe_read (by omega) fun _ _ => trivial

/-- The three chains from the chest: one of them is the head, and the other two leave by different
bones. -/
theorem exists_arms {start : Nat} {firsts : List Nat} {up : List (List Nat)}
    (leaves : List.Forall₂ (Leaves n adj start) firsts up) (bones : firsts.Sublist (nbrs adj start))
    (three : up.length = 3) {hi : Nat} (inside : hi < 3) :
    ∃ head first second one two, up[hi]? = some head ∧ up.eraseIdx hi = [one, two] ∧
      (∃ bone, Leaves n adj start bone head) ∧ [first, second].Sublist (nbrs adj start) ∧
      Leaves n adj start first one ∧ Leaves n adj start second two := by
  obtain ⟨u0, u1, u2, rfl⟩ := List.length_eq_three.mp three
  match firsts, leaves with
  | [f0, f1, f2], .cons l0 (.cons l1 (.cons l2 .nil)) =>
    have drop0 : [f1, f2].Sublist [f0, f1, f2] := List.sublist_cons_self _ _
    have drop1 : [f0, f2].Sublist [f0, f1, f2] := (List.sublist_cons_self f1 [f2]).cons_cons f0
    have drop2 : [f0, f1].Sublist [f0, f1, f2] := List.sublist_append_left [f0, f1] [f2]
    match hi, inside with
    | 0, _ => exact ⟨u0, f1, f2, u1, u2, rfl, rfl, ⟨f0, l0⟩, drop0.trans bones, l1, l2⟩
    | 1, _ => exact ⟨u1, f0, f2, u0, u2, rfl, rfl, ⟨f1, l1⟩, drop1.trans bones, l0, l2⟩
    | 2, _ => exact ⟨u2, f0, f1, u0, u1, rfl, rfl, ⟨f2, l2⟩, drop2.trans bones, l0, l1⟩

/-- The walks through the bone graph read nothing out of range, and make a body. -/
theorem safe_anatomy (pos : List (Vector3 α)) (bones : List Int) :
    Safe (anatomy pos bones) fun body => ∃ adj ends, Linked pos.length adj ends ∧
      Formed pos.length adj body := by
  rw [anatomy]
  refine (safe_refuseIf _).bind fun _ _ _ => ?_
  refine (safe_neighbours pos.length bones).bind fun adj _ ⟨ends, linked, _⟩ => ?_
  rw [branches_eq linked]
  generalize branch_eq :
    (List.range pos.length).filter (fun i => decide (3 ≤ (nbrs adj i).length)) = branch
  have member_iff : ∀ i ∈ branch, i < pos.length ∧ (nbrs adj i).length ≠ 2 := by
    intro i member
    rw [← branch_eq, List.mem_filter, List.mem_range, decide_eq_true_iff] at member
    exact ⟨member.1, by omega⟩
  refine (show Safe (.ok branch) (· = branch) from rfl).bind fun found _ found_eq => ?_
  subst found_eq
  refine (safe_refuseIf _).bind fun _ _ filled => ?_
  refine (safe_read_mem (List.length_pos_iff.mpr filled)).bind fun first _ first_in => ?_
  refine (safe_extremes (fun i member => (member_iff i member).1) first_in).bind fun
    | (pelvis, chest), _, ⟨low, high⟩ => ?_
  obtain ⟨pelvis_in, pelvis_branch⟩ := member_iff pelvis low
  obtain ⟨chest_in, chest_branch⟩ := member_iff chest high
  refine (safe_refuseIf _).bind fun _ _ differ => ?_
  refine (safe_path linked pelvis_in chest).bind fun spine _ spine_spec => ?_
  refine (safe_refuseIf _).bind fun _ _ connected => ?_
  have long := two_le_of_path (spine_spec.resolve_left fun none_there => connected none_there.1)
    differ
  refine (safe_read_mem (show 1 < spine.length from long)).bind fun towardChest _ _ => ?_
  refine (safe_readBack (by decide) long).bind fun towardPelvis _ _ => ?_
  refine (safe_leaving linked chest_in chest_branch towardPelvis).bind fun up _ up_leave => ?_
  refine (safe_leaving linked pelvis_in pelvis_branch towardChest).bind fun down _ down_leave => ?_
  refine (safe_refuseIf _).bind fun _ _ three => (safe_refuseIf _).bind fun _ _ two => ?_
  rw [not_not] at three two
  have tips : ∀ joints ∈ up, ∃ tip, readBack joints 1 = .ok tip ∧ tip < pos.length := by
    intro joints member
    obtain ⟨first, x, m, along, -⟩ := exists_of_forall₂ up_leave member
    exact ⟨_, along.readBack_eq (Nat.zero_le m), along.inside _ le_rfl⟩
  refine (safe_highest three tips).bind fun hi _ hi_in => ?_
  obtain ⟨head, first, second, one, other, head_eq, arms_eq, ⟨bone, x, m, along, -⟩, arm_bones,
    one_leaves, other_leaves⟩ := exists_arms up_leave List.filter_sublist three hi_in
  refine (show Safe (read up hi) (· = head) from safe_need head_eq rfl).bind fun _ _ same => ?_
  subst same
  rw [arms_eq]
  refine (show Safe (read [one, other] 0) (· = one) from rfl).bind fun _ _ same => ?_
  subst same
  refine (show Safe (read [_, other] 1) (· = other) from rfl).bind fun _ _ same => ?_
  subst same
  refine (safe_leftFirst one_leaves.lt_of_mem other_leaves.lt_of_mem).bind fun
    | (leftArm, rightArm), _, arms_two => ?_
  obtain ⟨leg, otherLeg, rfl⟩ := List.length_eq_two.mp two
  obtain ⟨hip, otherHip, hips, leg_leaves, otherLeg_leaves⟩ : ∃ hip otherHip,
      [hip, otherHip].Sublist (nbrs adj pelvis) ∧
        Leaves pos.length adj pelvis hip leg ∧ Leaves pos.length adj pelvis otherHip otherLeg := by
    have bones := (nbrs adj pelvis).filter_sublist (p := fun nb => decide (nb ≠ towardChest))
    match (nbrs adj pelvis).filter (· ≠ towardChest), down_leave, bones with
    | [hip, otherHip], .cons leaves (.cons leaves' .nil), bones =>
      exact ⟨hip, otherHip, bones, leaves, leaves'⟩
  refine (show Safe (read [leg, otherLeg] 0) (· = leg) from rfl).bind fun _ _ same => ?_
  subst same
  refine (show Safe (read [_, otherLeg] 1) (· = otherLeg) from rfl).bind fun _ _ same => ?_
  subst same
  refine (safe_leftFirst leg_leaves.lt_of_mem otherLeg_leaves.lt_of_mem).bind fun
    | (leftLeg, rightLeg), _, legs_two => ?_
  refine (safe_forM fun limb _ => safe_refuseIf _).bind fun _ _ limbs => ?_
  simp only [List.forall_mem_cons, Nat.not_lt] at limbs
  obtain ⟨leftArm_long, rightArm_long, leftLeg_long, rightLeg_long, -⟩ := limbs
  refine ⟨adj, ends, linked, pelvis_in, chest_in, pelvis_branch, chest_branch, differ,
    ⟨x, m, along⟩, ?_, ?_⟩
  · rcases arms_two with same | same
    · cases same
      exact twins_of_leaves linked arm_bones one_leaves other_leaves leftArm_long rightArm_long
    · cases same
      exact (twins_of_leaves linked arm_bones one_leaves other_leaves rightArm_long
        leftArm_long).symm
  · rcases legs_two with same | same
    · cases same
      exact twins_of_leaves linked hips leg_leaves otherLeg_leaves leftLeg_long rightLeg_long
    · cases same
      exact (twins_of_leaves linked hips leg_leaves otherLeg_leaves rightLeg_long
        leftLeg_long).symm

end Body

end DressOn.Host.Skeleton15
