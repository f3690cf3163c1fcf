import DressOn.Lib.Rounds

/-!
# Walks that end early

Walks that use every edge of a list once, some of which end where no edge is left. They use each
vertex once if the edges are linear and each walk begins where its edges do.
-/

namespace DressOn.OpenWalks

open ClosedWalks Rounds Successions

variable {V : Type*}

/-- A walk from `start` and the edges it leaves: it is back, or stuck. -/
def Ended (start : V) (next : List (V × V)) (body : List V) (last : V) (loop : List V) : Prop :=
  last = start ∧ loop = body ∨
    last ≠ start ∧ loop = body ++ [last] ∧ ∀ edge ∈ next, edge.1 ≠ last

/-- Walks of a list of edges, one after the other. -/
inductive Walked : List (V × V) → List (List V) → Prop where
  | nil : Walked [] []
  | cons {first : V × V} {rest next : List (V × V)} {body : List V} {last : V} {loop : List V}
      {loops : List (List V)} (begun : body.head? = some first.1)
      (used : (steps body last ++ next).Perm (first :: rest)) (left : next.Sublist rest)
      (ended : Ended first.1 next body last loop) (others : Walked next loops) :
      Walked (first :: rest) (loop :: loops)

section Edges

/-- The edges of a walk go from its vertices, -/
theorem map_fst_steps (body : List V) (last : V) : (steps body last).map Prod.fst = body :=
  List.map_fst_zip (by cases body <;> simp)

/-- to the next and the last. -/
theorem map_snd_steps {body : List V} (some_ : body ≠ []) (last : V) :
    (steps body last).map Prod.snd = body.tail ++ [last] := by
  refine List.map_snd_zip ?_
  cases body with
  | nil => exact absurd rfl some_
  | cons first rest => simp

/-- A walk goes along its edges. -/
theorem isChain_steps (body : List V) (last : V) :
    (body ++ [last]).IsChain fun a b => (a, b) ∈ steps body last := by
  induction body with
  | nil => exact .singleton last
  | cons a rest ih =>
      cases rest with
      | nil => exact List.isChain_pair.mpr List.mem_cons_self
      | cons b rest =>
          exact List.isChain_cons_cons.mpr
            ⟨List.mem_cons_self, ih.imp fun _ _ => List.mem_cons_of_mem (a, b)⟩

variable {first : V × V} {next : List (V × V)} {body : List V} {last : V} {loop : List V}

/-- Closing a walk that has ended keeps its edges. -/
theorem Ended.steps_subset (ended : Ended first.1 next body last loop)
    (begun : body.head? = some first.1) : ∀ edge ∈ steps body last, edge ∈ closing loop := by
  obtain ⟨rest, rfl⟩ := List.head?_eq_some_iff.mp begun
  intro edge inside
  rcases ended with ⟨rfl, rfl⟩ | ⟨_, rfl, _⟩
  · exact inside
  · show edge ∈ steps ((first.1 :: rest) ++ [last]) first.1
    rw [steps_snoc]
    exact List.mem_append_left _ inside

/-- A walk that has ended goes along its edges. -/
theorem Ended.isChain (ended : Ended first.1 next body last loop) :
    loop.IsChain fun a b => (a, b) ∈ steps body last := by
  rcases ended with ⟨_, rfl⟩ | ⟨_, rfl, _⟩
  · exact (isChain_steps loop last).left_of_append
  · exact isChain_steps body last

/-- The vertices of a walk are ends of its edges. -/
theorem Ended.mem_iff (ended : Ended first.1 next body last loop)
    (begun : body.head? = some first.1) {v : V} :
    v ∈ loop ↔ ∃ edge ∈ steps body last, edge.1 = v ∨ edge.2 = v := by
  have some_ : body ≠ [] := fun none_ => by simp [none_] at begun
  have starts : v ∈ body ↔ ∃ edge ∈ steps body last, edge.1 = v := by
    rw [← List.mem_map, map_fst_steps]
  have goals : v ∈ body.tail ++ [last] ↔ ∃ edge ∈ steps body last, edge.2 = v := by
    rw [← List.mem_map, map_snd_steps some_]
  have both : (∃ edge ∈ steps body last, edge.1 = v ∨ edge.2 = v) ↔
      v ∈ body ∨ v ∈ body.tail ++ [last] := by
    rw [starts, goals]
    constructor
    · rintro ⟨edge, inside, here | there⟩
      · exact .inl ⟨edge, inside, here⟩
      · exact .inr ⟨edge, inside, there⟩
    · rintro (⟨edge, inside, here⟩ | ⟨edge, inside, there⟩)
      · exact ⟨edge, inside, .inl here⟩
      · exact ⟨edge, inside, .inr there⟩
  rw [both, List.mem_append, List.mem_singleton]
  have tail : v ∈ body.tail → v ∈ body := List.mem_of_mem_tail
  rcases ended with ⟨rfl, rfl⟩ | ⟨_, rfl, _⟩
  · have head : first.1 ∈ loop := List.mem_of_head? begun
    constructor
    · exact .inl
    · rintro (here | later | rfl)
      · exact here
      · exact tail later
      · exact head
  · rw [List.mem_append, List.mem_singleton]
    constructor
    · rintro (here | rfl)
      · exact .inl here
      · exact .inr (.inr rfl)
    · rintro (here | later | rfl)
      · exact .inl here
      · exact .inl (tail later)
      · exact .inr rfl

end Edges

/-! ## What the walks are -/

section Walks

variable [DecidableEq V] (chooser : Chooser V)

/-- How a walk ends. -/
theorem walk_ended {start : V} {fuel : Nat} {next : List (V × V)} {at' : V} {loop : List V}
    (enough : next.length ≤ fuel) (begun : loop.head? = some start) :
    let (loop', next') := walk chooser start fuel next at' loop
    ∃ body last, body.head? = some start ∧
      (steps body last ++ next').Perm (steps loop at' ++ next) ∧ next'.Sublist next ∧
      Ended start next' body last loop' := by
  induction fuel generalizing next at' loop with
  | zero =>
      obtain rfl := List.length_eq_zero_iff.mp (Nat.le_zero.mp enough)
      unfold walk
      by_cases back : at' = start
      · rw [if_pos back]
        exact ⟨loop, at', begun, .refl _, .refl _, .inl ⟨back, rfl⟩⟩
      · rw [if_neg back]
        exact ⟨loop, at', begun, .refl _, .refl _, .inr ⟨back, rfl, fun _ member => absurd member List.not_mem_nil⟩⟩
  | succ fuel ih =>
      unfold walk
      by_cases back : at' = start
      · rw [if_pos back]
        exact ⟨loop, at', begun, .refl _, .refl _, .inl ⟨back, rfl⟩⟩
      · rw [if_neg back]
        cases chosen : chooser.choose next at' with
        | none =>
            exact ⟨loop, at', begun, .refl _, .refl _, .inr ⟨back, rfl, chooser.stuck chosen⟩⟩
        | some edge =>
            obtain ⟨member, rfl⟩ := chooser.leaves chosen
            have shorter := List.length_erase_of_mem member
            have begun' : (loop ++ [edge.1]).head? = some start := by
              rw [List.head?_append, begun]
              rfl
            obtain ⟨body, last, head, used, left, ended⟩ :=
              @ih (next.erase edge) edge.2 (loop ++ [edge.1]) (by omega) begun'
            refine ⟨body, last, head, used.trans ?_, left.trans List.erase_sublist, ended⟩
            rw [steps_snoc, List.append_assoc]
            exact (List.perm_cons_erase member).symm.append_left _

/-- The walks of all edges are such walks. -/
theorem walked_walks {fuel : Nat} {edges : List (V × V)} (enough : edges.length ≤ fuel) :
    Walked edges (walks chooser fuel edges) := by
  induction fuel generalizing edges with
  | zero =>
      obtain rfl := List.length_eq_zero_iff.mp (Nat.le_zero.mp enough)
      exact .nil
  | succ fuel ih =>
      cases edges with
      | nil => exact .nil
      | cons edge next =>
          have begun : [edge.1].head? = some edge.1 := rfl
          have spec := @walk_ended _ _ chooser edge.1 next.length next edge.2 [edge.1] le_rfl begun
          unfold walks
          generalize walk chooser edge.1 next.length next edge.2 [edge.1] = result at spec ⊢
          obtain ⟨loop, next'⟩ := result
          obtain ⟨body, last, head, used, left, ended⟩ := spec
          have shorter := left.length_le
          rw [List.length_cons] at enough
          exact .cons head used left ended (ih (by omega))

end Walks

/-! ## What the walks use -/

section Used

theorem Ended.head?_eq {first : V × V} {next : List (V × V)} {body : List V} {last : V}
    {loop : List V} (ended : Ended first.1 next body last loop)
    (begun : body.head? = some first.1) : loop.head? = some first.1 := by
  rcases ended with ⟨_, rfl⟩ | ⟨_, rfl, _⟩
  · exact begun
  · rw [List.head?_append, begun]
    rfl

/-- Walks go along the edges. -/
theorem Walked.isChain {edges : List (V × V)} {loops : List (List V)}
    (walked : Walked edges loops) :
    ∀ loop ∈ loops, loop ≠ [] ∧ loop.IsChain fun a b => (a, b) ∈ edges := by
  induction walked with
  | nil => exact nofun
  | cons begun used left ended _ ih =>
      intro other member
      rcases List.mem_cons.mp member with rfl | later
      · refine ⟨fun none_ => ?_, ended.isChain.imp fun a b inside =>
          used.mem_iff.mp (List.mem_append_left _ inside)⟩
        have head := ended.head?_eq begun
        rw [none_] at head
        cases head
      · obtain ⟨some_, chain⟩ := ih other later
        exact ⟨some_, chain.imp fun a b inside => List.mem_cons_of_mem _ (left.subset inside)⟩

variable [LinearOrder V]

/-- Every edge is in the walk that takes it, which begins no higher. -/
theorem Walked.covers {edges : List (V × V)} {loops : List (List V)} (walked : Walked edges loops)
    (sorted : edges.Pairwise fun one two => one.1 ≤ two.1) :
    ∀ edge ∈ edges, ∃ loop ∈ loops, edge ∈ closing loop ∧ ∀ v ∈ loop.head?, v ≤ edge.1 := by
  induction walked with
  | nil => exact nofun
  | @cons first rest next body last loop loops begun used left ended _ ih =>
      intro edge inside
      obtain ⟨lowest, sorted⟩ := List.pairwise_cons.mp sorted
      rcases List.mem_append.mp (used.mem_iff.mpr inside) with here | later
      · refine ⟨loop, List.mem_cons_self, ended.steps_subset begun edge here, fun v head => ?_⟩
        rw [ended.head?_eq begun] at head
        cases head
        rcases List.mem_cons.mp inside with rfl | inRest
        · exact le_rfl
        · exact lowest edge inRest
      · obtain ⟨other, member, closes, low⟩ := ih (sorted.sublist left) edge later
        exact ⟨other, List.mem_cons_of_mem _ member, closes, low⟩

/-- Some of the edges, with all that hang together with them. -/
structure Part (edges part : List (V × V)) : Prop where
  subset : ∀ edge ∈ part, edge ∈ edges
  joined : ∀ {a b c}, (a, b) ∈ edges → (b, c) ∈ edges → ((a, b) ∈ part ↔ (b, c) ∈ part)

omit [LinearOrder V] in
/-- What is before an edge of a part is in it. -/
theorem Part.back {edges part : List (V × V)} (is : Part edges part) {u v w : V}
    (reach : Relation.ReflTransGen (fun a b => (a, b) ∈ edges) u v) (inside : (v, w) ∈ part) :
    ∃ x, (u, x) ∈ part := by
  induction reach using Relation.ReflTransGen.head_induction_on with
  | refl => exact ⟨w, inside⟩
  | head step _ ih =>
      obtain ⟨x, later⟩ := ih
      exact ⟨_, (is.joined step (is.subset _ later)).mpr later⟩

section Linear

variable {edges : List (V × V)} (linear : Linear fun a b => (a, b) ∈ edges)

include linear

omit [LinearOrder V] in
theorem eq_of_fst {one two : V × V} (inOne : one ∈ edges) (inTwo : two ∈ edges)
    (same : one.1 = two.1) : one = two :=
  Prod.ext same (linear.next inOne (same ▸ inTwo))

omit [LinearOrder V] in
theorem eq_of_snd {one two : V × V} (inOne : one ∈ edges) (inTwo : two ∈ edges)
    (same : one.2 = two.2) : one = two :=
  Prod.ext (linear.back inOne (same ▸ inTwo)) same

variable {first : V × V} {rest next : List (V × V)} {body : List V} {last : V} {loop : List V}

omit [LinearOrder V] in
/-- A walk does not come to a vertex twice. -/
theorem body_once (inside : ∀ edge ∈ steps body last, edge ∈ edges)
    (once : (steps body last).Nodup) (some_ : body ≠ []) :
    body.Nodup ∧ (body.tail ++ [last]).Nodup := by
  constructor
  · rw [← map_fst_steps body last]
    exact List.Nodup.map_on
      (fun one inOne two inTwo => eq_of_fst linear (inside one inOne) (inside two inTwo)) once
  · rw [← map_snd_steps some_]
    exact List.Nodup.map_on
      (fun one inOne two inTwo => eq_of_snd linear (inside one inOne) (inside two inTwo)) once

/-- What a walk leaves hangs together: a walk that is stuck began where its edges do. -/
theorem part_next (finite : {v | ∃ w, (v, w) ∈ edges}.Finite)
    (lowest : ∀ b v, Begins (fun a b => (a, b) ∈ edges) b →
      Relation.ReflTransGen (fun a b => (a, b) ∈ edges) b v →
      ¬ Stops (fun a b => (a, b) ∈ edges) v → b ≤ v)
    (is : Part edges (first :: rest)) (nodup : (first :: rest).Nodup)
    (sorted : (first :: rest).Pairwise fun one two => one.1 ≤ two.1)
    (begun : body.head? = some first.1) (used : (steps body last ++ next).Perm (first :: rest))
    (ended : Ended first.1 next body last loop) : Part edges next := by
  obtain ⟨once, _, apart⟩ := List.nodup_append.mp (used.nodup_iff.mpr nodup)
  have some_ : body ≠ [] := fun none_ => by simp [none_] at begun
  have inSteps : ∀ edge ∈ steps body last, edge ∈ first :: rest := fun edge inside =>
    used.mem_iff.mp (List.mem_append_left _ inside)
  have inNext : ∀ edge ∈ next, edge ∈ first :: rest := fun edge inside =>
    used.mem_iff.mp (List.mem_append_right _ inside)
  obtain ⟨bodyOnce, goalsOnce⟩ :=
    body_once linear (fun edge inside => is.subset _ (inSteps edge inside)) once some_
  have leaves {v : V} (inside : v ∈ body) : ∃ w, (v, w) ∈ steps body last := by
    rw [← map_fst_steps body last] at inside
    obtain ⟨⟨_, w⟩, edge, rfl⟩ := List.mem_map.mp inside
    exact ⟨w, edge⟩
  have comes {v : V} (inside : v ∈ body.tail ++ [last]) : ∃ u, (u, v) ∈ steps body last := by
    rw [← map_snd_steps some_ last] at inside
    obtain ⟨⟨u, _⟩, edge, rfl⟩ := List.mem_map.mp inside
    exact ⟨u, edge⟩
  obtain ⟨tail, rfl⟩ := List.head?_eq_some_iff.mp begun
  have parted {edge : V × V} (inside : edge ∈ first :: rest) :
      edge ∈ steps (first.1 :: tail) last ∨ edge ∈ next :=
    List.mem_append.mp (used.mem_iff.mpr inside)
  refine ⟨fun edge inside => is.subset _ (inNext edge inside),
    fun {a b c} ab bc => ⟨fun before => ?_, fun after => ?_⟩⟩
  · rcases parted ((is.joined ab bc).mp (inNext _ before)) with here | later
    · exfalso
      have notCome : ¬ ∃ u, (u, b) ∈ steps (first.1 :: tail) last := fun ⟨u, edge⟩ =>
        apart _ edge _ before
          (eq_of_snd linear (is.subset _ (inSteps _ edge)) (is.subset _ (inNext _ before)) rfl)
      have inBody : b ∈ first.1 :: tail := by
        rw [← map_fst_steps (first.1 :: tail) last]
        exact List.mem_map_of_mem (f := Prod.fst) here
      rcases List.mem_cons.mp inBody with rfl | inTail
      · rcases ended with ⟨rfl, _⟩ | ⟨away, _, stuck⟩
        · exact notCome (comes (List.mem_append_right _ (List.mem_singleton_self _)))
        · -- a walk that is stuck is in an open chain, whose lowest is its beginning
          have stops : Stops (fun a b => (a, b) ∈ edges) last := by
            intro w edge
            obtain ⟨p, step⟩ := comes (List.mem_append_right _ (List.mem_singleton_self _))
            rcases parted ((is.joined (is.subset _ (inSteps _ step)) edge).mp (inSteps _ step))
              with here | later
            · have back : last ∈ first.1 :: tail := by
                rw [← map_fst_steps (first.1 :: tail) last]
                exact List.mem_map_of_mem (f := Prod.fst) here
              rcases List.mem_cons.mp back with same | inTail
              · exact away same
              · exact (List.nodup_append.mp goalsOnce).2.2 last inTail last
                  (List.mem_singleton_self _) rfl
            · exact stuck _ later rfl
          have reach : Relation.ReflTransGen (fun a b => (a, b) ∈ edges) first.1 last :=
            reach_of_chain ((isChain_steps (first.1 :: tail) last).imp fun _ _ inside =>
              is.subset _ (inSteps _ inside)) (by simp)
          obtain ⟨b₀, begins, back⟩ := exists_begins linear finite reach stops
          have inside : (first.1, first.2) ∈ first :: rest := List.mem_cons_self
          have low := lowest b₀ first.1 begins back fun stops => stops first.2 (is.subset _ inside)
          obtain ⟨x, edge⟩ := is.back back inside
          have high : first.1 ≤ b₀ := by
            rcases List.mem_cons.mp edge with same | inRest
            · rw [← same]
            · exact (List.pairwise_cons.mp sorted).1 _ inRest
          exact begins a (le_antisymm low high ▸ ab)
      · exact notCome (comes (List.mem_append_left _ inTail))
    · exact later
  · rcases parted ((is.joined ab bc).mpr (inNext _ after)) with here | later
    · exfalso
      have notLeave : ¬ ∃ w, (b, w) ∈ steps (first.1 :: tail) last := fun ⟨w, edge⟩ =>
        apart _ edge _ after
          (eq_of_fst linear (is.subset _ (inSteps _ edge)) (is.subset _ (inNext _ after)) rfl)
      have inGoals : b ∈ tail ++ [last] := by
        rw [show tail = (first.1 :: tail).tail from rfl, ← map_snd_steps some_]
        exact List.mem_map_of_mem (f := Prod.snd) here
      rcases List.mem_append.mp inGoals with inTail | isLast
      · exact notLeave (leaves (List.mem_cons_of_mem _ inTail))
      · cases List.mem_singleton.mp isLast
        rcases ended with ⟨rfl, _⟩ | ⟨_, _, stuck⟩
        · exact notLeave (leaves List.mem_cons_self)
        · exact stuck _ after rfl
    · exact later

omit [LinearOrder V] in
/-- A walk uses each vertex once. -/
theorem loop_once (is : Part edges (first :: rest)) (nodup : (first :: rest).Nodup)
    (begun : body.head? = some first.1) (used : (steps body last ++ next).Perm (first :: rest))
    (ended : Ended first.1 next body last loop) : loop.Nodup := by
  obtain ⟨once, _, _⟩ := List.nodup_append.mp (used.nodup_iff.mpr nodup)
  have some_ : body ≠ [] := fun none_ => by simp [none_] at begun
  obtain ⟨bodyOnce, goalsOnce⟩ := body_once linear (fun edge inside =>
    is.subset _ (used.mem_iff.mp (List.mem_append_left _ inside))) once some_
  rcases ended with ⟨_, rfl⟩ | ⟨away, rfl, _⟩
  · exact bodyOnce
  · obtain ⟨tail, rfl⟩ := List.head?_eq_some_iff.mp begun
    refine List.nodup_append.mpr ⟨bodyOnce, List.nodup_cons.mpr ⟨nofun, .nil⟩, ?_⟩
    rintro v inBody _ one rfl
    cases List.mem_singleton.mp one
    rcases List.mem_cons.mp inBody with same | inTail
    · exact away same
    · exact (List.nodup_append.mp goalsOnce).2.2 last inTail last (List.mem_singleton_self _) rfl

/-- Walks of linear edges whose beginnings are lower than what is behind use each vertex once. -/
theorem Walked.distinct {part : List (V × V)} {loops : List (List V)}
    (finite : {v | ∃ w, (v, w) ∈ edges}.Finite)
    (lowest : ∀ b v, Begins (fun a b => (a, b) ∈ edges) b →
      Relation.ReflTransGen (fun a b => (a, b) ∈ edges) b v →
      ¬ Stops (fun a b => (a, b) ∈ edges) v → b ≤ v)
    (walked : Walked part loops) (is : Part edges part) (nodup : part.Nodup)
    (sorted : part.Pairwise fun one two => one.1 ≤ two.1) :
    loops.flatten.Nodup ∧ ∀ v ∈ loops.flatten, ∃ edge ∈ part, edge.1 = v ∨ edge.2 = v := by
  induction walked with
  | nil => exact ⟨List.nodup_nil, nofun⟩
  | @cons first rest next body last loop loops begun used left ended others ih =>
      obtain ⟨_, nodupNext, apart⟩ := List.nodup_append.mp (used.nodup_iff.mpr nodup)
      have is' := part_next linear finite lowest is nodup sorted begun used ended
      obtain ⟨later, ends⟩ := ih is' nodupNext ((List.pairwise_cons.mp sorted).2.sublist left)
      have inSteps : ∀ edge ∈ steps body last, edge ∈ edges := fun edge inside =>
        is.subset _ (used.mem_iff.mp (List.mem_append_left _ inside))
      refine ⟨List.nodup_append.mpr ⟨loop_once linear is nodup begun used ended, later, ?_⟩, ?_⟩
      · rintro v inLoop _ inLater rfl
        obtain ⟨one, inOne, atOne⟩ := (ended.mem_iff begun).mp inLoop
        obtain ⟨two, inTwo, atTwo⟩ := ends v inLater
        refine apart one inOne two inTwo ?_
        have ofOne := inSteps one inOne
        have ofTwo := is'.subset two inTwo
        rcases atOne with rfl | rfl <;> rcases atTwo with same | same
        · exact eq_of_fst linear ofOne ofTwo same.symm
        · have next_ : one ∈ next :=
            (is'.joined (show (two.1, one.1) ∈ edges from same ▸ ofTwo) ofOne).mp (same ▸ inTwo)
          exact absurd rfl (apart one inOne one next_)
        · have next_ : one ∈ next :=
            (is'.joined ofOne (show (one.2, two.2) ∈ edges from same ▸ ofTwo)).mpr (same ▸ inTwo)
          exact absurd rfl (apart one inOne one next_)
        · exact eq_of_snd linear ofOne ofTwo same.symm
      · intro v inside
        rcases List.mem_append.mp inside with inLoop | inLater
        · obtain ⟨edge, inEdge, at_⟩ := (ended.mem_iff begun).mp inLoop
          exact ⟨edge, used.mem_iff.mp (List.mem_append_left _ inEdge), at_⟩
        · obtain ⟨edge, inEdge, at_⟩ := ends v inLater
          exact ⟨edge, List.mem_cons_of_mem _ (left.subset inEdge), at_⟩

end Linear

/-! ## Walks without common vertices -/

variable {edges : List (V × V)} {loops : List (List V)}

omit [LinearOrder V] in
/-- The edges of a loop are between its vertices. -/
theorem mem_of_closing {loop : List V} {edge : V × V} (inside : edge ∈ closing loop) :
    edge.1 ∈ loop ∧ edge.2 ∈ loop := by
  have starts := List.mem_map_of_mem (f := Prod.fst) inside
  have goals := List.mem_map_of_mem (f := Prod.snd) inside
  rw [map_fst_closing] at starts
  rw [map_snd_closing, List.mem_rotate] at goals
  exact ⟨starts, goals⟩

omit [LinearOrder V] in
/-- A vertex is in one of them. -/
theorem same_loop (distinct : loops.flatten.Nodup) {one two : List V} (inOne : one ∈ loops)
    (inTwo : two ∈ loops) {v : V} (here : v ∈ one) (there : v ∈ two) : one = two := by
  induction loops with
  | nil => cases inOne
  | cons loop rest ih =>
      obtain ⟨_, later, apart⟩ :=
        List.nodup_append.mp (show (loop ++ rest.flatten).Nodup from distinct)
      rcases List.mem_cons.mp inOne with rfl | restOne <;>
        rcases List.mem_cons.mp inTwo with rfl | restTwo
      · rfl
      · exact absurd rfl (apart v here v (List.mem_flatten.mpr ⟨two, restTwo, there⟩))
      · exact absurd rfl (apart v there v (List.mem_flatten.mpr ⟨one, restOne, here⟩))
      · exact ih later restOne restTwo

/-- Walks without common vertices go through all that hangs together with them. -/
theorem Walked.whole (walked : Walked edges loops)
    (sorted : edges.Pairwise fun one two => one.1 ≤ two.1) (distinct : loops.flatten.Nodup) :
    ∀ loop ∈ loops, Whole (fun a b => (a, b) ∈ edges) loop := by
  intro loop member
  obtain ⟨some_, chain⟩ := walked.isChain loop member
  refine ⟨some_, (List.nodup_flatten.mp distinct).1 loop member, chain.imp fun _ _ => .inl,
    fun {a b} inside beside => ?_⟩
  rcases beside with forth | back
  · obtain ⟨other, member', closes, _⟩ := walked.covers sorted _ forth
    rw [same_loop distinct member member' inside (mem_of_closing closes).1]
    exact (mem_of_closing closes).2
  · obtain ⟨other, member', closes, _⟩ := walked.covers sorted _ back
    rw [same_loop distinct member member' inside (mem_of_closing closes).2]
    exact (mem_of_closing closes).1

/-- They have linear edges, -/
theorem Walked.linear (walked : Walked edges loops)
    (sorted : edges.Pairwise fun one two => one.1 ≤ two.1) (distinct : loops.flatten.Nodup) :
    Linear fun a b => (a, b) ∈ edges where
  next := by
    intro a b c first second
    obtain ⟨one, inOne, closes, _⟩ := walked.covers sorted _ first
    obtain ⟨two, inTwo, closes', _⟩ := walked.covers sorted _ second
    obtain rfl :=
      same_loop distinct inOne inTwo (mem_of_closing closes).1 (mem_of_closing closes').1
    exact (linear_closing ((List.nodup_flatten.mp distinct).1 one inOne)).next closes closes'
  back := by
    intro a b c first second
    obtain ⟨one, inOne, closes, _⟩ := walked.covers sorted _ first
    obtain ⟨two, inTwo, closes', _⟩ := walked.covers sorted _ second
    obtain rfl :=
      same_loop distinct inOne inTwo (mem_of_closing closes).2 (mem_of_closing closes').2
    exact (linear_closing ((List.nodup_flatten.mp distinct).1 one inOne)).back closes closes'

omit [LinearOrder V] in
/-- What has no edge to it is the first of a walk along the edges. -/
theorem head_of_begins {E : V → V → Prop} {first v : V} {rest : List V}
    (chain : (first :: rest).IsChain E) (inside : v ∈ first :: rest) (begins : Begins E v) :
    v = first := by
  induction rest generalizing first with
  | nil => exact List.mem_singleton.mp inside
  | cons next rest ih =>
      obtain ⟨step, later⟩ := List.isChain_cons_cons.mp chain
      rcases List.mem_cons.mp inside with here | there
      · exact here
      · obtain rfl := ih later there
        exact absurd step (begins first)

/-- and their beginnings are lower than what is behind. -/
theorem Walked.lowest (walked : Walked edges loops)
    (sorted : edges.Pairwise fun one two => one.1 ≤ two.1) (distinct : loops.flatten.Nodup)
    {b v : V} (begins : Begins (fun a b => (a, b) ∈ edges) b)
    (reach : Relation.ReflTransGen (fun a b => (a, b) ∈ edges) b v)
    (goes : ¬ Stops (fun a b => (a, b) ∈ edges) v) : b ≤ v := by
  obtain ⟨w, edge⟩ : ∃ w, (v, w) ∈ edges := by
    simpa [Stops] using goes
  obtain ⟨loop, member, closes, low⟩ := walked.covers sorted _ edge
  have whole := walked.whole sorted distinct loop member
  have inside : b ∈ loop := by
    clear begins
    induction reach using Relation.ReflTransGen.head_induction_on with
    | refl => exact (mem_of_closing closes).1
    | head step _ ih => exact whole.closed ih (.inr step)
  obtain ⟨_, chain⟩ := walked.isChain loop member
  cases loop with
  | nil => cases inside
  | cons first rest =>
      rw [head_of_begins chain inside begins]
      exact low first rfl

end Used

end DressOn.OpenWalks
