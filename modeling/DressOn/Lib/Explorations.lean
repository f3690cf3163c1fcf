import DressOn.Lib.OpenWalks

/-!
# Explorations

Vertices are taken in a given order; from each that was not visited yet a walk goes on to the first
neighbour that was not visited, for as long as there is one.
-/

namespace DressOn.Explorations

open Rounds Successions

variable {V : Type*} [DecidableEq V] (neighbours : V → List V)

/-- The vertices behind `cur`: each time the first neighbour that is not where the walk came from
and was not visited. -/
def onwards : Nat → List V → Option V → V → List V
  | 0, _, _, _ => []
  | fuel + 1, used, prev, cur =>
    match (neighbours cur).find? fun c => some c ≠ prev && !used.contains c with
    | none => []
    | some step => step :: onwards fuel (step :: used) (some cur) step

/-- A walk from a vertex that was not visited: what is visited, and the loops. -/
def explore (fuel : Nat) (state : List V × List (List V)) (start : V) : List V × List (List V) :=
  if state.1.contains start then state
  else
    let loop := start :: onwards neighbours fuel (start :: state.1) none start
    (loop ++ state.1, state.2 ++ [loop])

/-- The loops from all vertices, in order. -/
def explorations (vertices : List V) : List (List V) :=
  (vertices.foldl (explore neighbours vertices.length) ([], [])).2

/-- Loops that were found one after the other: each begins with the first vertex that was not
visited, and stops where all neighbours were. -/
inductive Explored (vertices : List V) : List (List V) → Prop where
  | nil : Explored vertices []
  | snoc {loops : List (List V)} {start : V} {rest : List V} (before : Explored vertices loops)
      (member : start ∈ vertices)
      (visited : ∀ u ∈ vertices, vertices.idxOf u < vertices.idxOf start → u ∈ loops.flatten)
      (distinct : (start :: rest).Nodup) (fresh : ∀ v ∈ start :: rest, v ∉ loops.flatten)
      (walk : (start :: rest).IsChain fun a b => b ∈ neighbours a)
      (stuck : ∀ last ∈ (start :: rest).getLast?, ∀ c ∈ neighbours last,
        c ∈ loops.flatten ∨ c ∈ start :: rest) :
      Explored vertices (loops ++ [start :: rest])

variable {neighbours}

/-- Where a walk goes: to fresh vertices, until there is no other. -/
theorem onwards_spec {vertices : List V} (closed : ∀ v ∈ vertices, ∀ c ∈ neighbours v, c ∈ vertices)
    {fuel : Nat} {used : List V} {prev : Option V} {cur : V} (inside : ∀ v ∈ used, v ∈ vertices)
    (distinct : used.Nodup) (here : cur ∈ used) (came : ∀ p ∈ prev, p ∈ used)
    (enough : vertices.length ≤ used.length + fuel) :
    let rest := onwards neighbours fuel used prev cur
    rest.Nodup ∧ (∀ v ∈ rest, v ∉ used) ∧ (∀ v ∈ rest, v ∈ vertices) ∧
      (cur :: rest).IsChain (fun a b => b ∈ neighbours a) ∧
      ∀ last ∈ (cur :: rest).getLast?, ∀ c ∈ neighbours last, c ∈ used ∨ c ∈ rest := by
  induction fuel generalizing used prev cur with
  | zero =>
      refine ⟨List.nodup_nil, nofun, nofun, .singleton cur, fun last isLast c near => .inl ?_⟩
      cases isLast
      have all : vertices ⊆ used :=
        ((distinct.subperm inside).perm_of_length_le (by omega)).symm.subset
      exact all (closed cur (inside cur here) c near)
  | succ fuel ih =>
      unfold onwards
      cases found : (neighbours cur).find? fun c => some c ≠ prev && !used.contains c with
      | none =>
          refine ⟨List.nodup_nil, nofun, nofun, .singleton cur, fun last isLast c near => .inl ?_⟩
          cases isLast
          have passed := List.find?_eq_none.mp found c near
          simp only [Bool.and_eq_true, decide_eq_true_eq, Bool.not_eq_true', not_and,
            Bool.not_eq_false, List.contains_iff_mem] at passed
          by_cases back : some c = prev
          · exact came c back.symm
          · exact passed back
      | some step =>
          have near := List.mem_of_find?_eq_some found
          have takes := List.find?_some found
          simp only [Bool.and_eq_true, decide_eq_true_eq, Bool.not_eq_true'] at takes
          have fresh : step ∉ used := by
            intro visited
            rw [List.contains_iff_mem.mpr visited] at takes
            exact nomatch takes.2
          have next := closed cur (inside cur here) step near
          obtain ⟨once, apart, within, walk, stuck⟩ := @ih (step :: used) (some cur) step
            (fun v member => (List.mem_cons.mp member).elim (fun same => same ▸ next) (inside v))
            (List.nodup_cons.mpr ⟨fresh, distinct⟩) List.mem_cons_self
            (fun p same => by cases same; exact List.mem_cons_of_mem _ here)
            (by simp only [List.length_cons]; omega)
          dsimp only
          refine ⟨List.nodup_cons.mpr ⟨fun again => apart _ again List.mem_cons_self, once⟩, ?_, ?_,
            List.isChain_cons_cons.mpr ⟨near, walk⟩, fun last isLast c beside => ?_⟩
          · intro v member visited
            rcases List.mem_cons.mp member with rfl | later
            · exact fresh visited
            · exact apart v later (List.mem_cons_of_mem _ visited)
          · intro v member
            exact (List.mem_cons.mp member).elim (fun same => same ▸ next) (within v)
          · rw [List.getLast?_cons_cons] at isLast
            rcases stuck last isLast c beside with visited | later
            · rcases List.mem_cons.mp visited with rfl | visited
              · exact .inr List.mem_cons_self
              · exact .inl visited
            · exact .inr (List.mem_cons_of_mem _ later)

/-- The loops are found one after the other, and go through all vertices. -/
theorem explored_explorations {vertices : List V}
    (closed : ∀ v ∈ vertices, ∀ c ∈ neighbours v, c ∈ vertices) :
    Explored neighbours vertices (explorations neighbours vertices) ∧
      ∀ v, v ∈ (explorations neighbours vertices).flatten ↔ v ∈ vertices := by
  have run : ∀ front back, front ++ back = vertices →
      ∀ state : List V × List (List V), state.1.Nodup → (∀ v, v ∈ state.1 ↔ v ∈ state.2.flatten) →
        (∀ v ∈ state.1, v ∈ vertices) → (∀ v ∈ front, v ∈ state.1) →
        Explored neighbours vertices state.2 →
      let last := back.foldl (explore neighbours vertices.length) state
      Explored neighbours vertices last.2 ∧ ∀ v, v ∈ last.2.flatten ↔ v ∈ vertices := by
    intro front back cut
    induction back generalizing front with
    | nil =>
        intro state once same inside visited explored
        refine ⟨explored, fun v => ?_⟩
        rw [List.append_nil] at cut
        exact (same v).symm.trans ⟨inside v, fun member => visited v (cut ▸ member)⟩
    | cons start back ih =>
        intro state once same inside visited explored
        have cut' : (front ++ [start]) ++ back = vertices := by simpa using cut
        have member : start ∈ vertices := cut ▸ by simp
        rw [List.foldl_cons]
        by_cases seen : state.1.contains start = true
        · rw [explore, if_pos seen]
          refine ih (front ++ [start]) cut' state once same inside (fun v among => ?_) explored
          rcases List.mem_append.mp among with before | here
          · exact visited v before
          · cases List.mem_singleton.mp here
            exact List.contains_iff_mem.mp seen
        · rw [explore, if_neg seen]
          have fresh : start ∉ state.1 := fun again => seen (List.contains_iff_mem.mpr again)
          obtain ⟨onceRest, apart, within, walk, stuck⟩ :=
            @onwards_spec _ _ neighbours vertices closed vertices.length (start :: state.1) none
              start
              (fun v among => (List.mem_cons.mp among).elim (fun here => here ▸ member) (inside v))
              (List.nodup_cons.mpr ⟨fresh, once⟩) List.mem_cons_self nofun (by omega)
          generalize onwards neighbours vertices.length (start :: state.1) none start = rest at *
          have onceLoop : (start :: rest).Nodup :=
            List.nodup_cons.mpr ⟨fun again => apart start again List.mem_cons_self, onceRest⟩
          have freshLoop : ∀ v ∈ start :: rest, v ∉ state.1 := by
            intro v among
            rcases List.mem_cons.mp among with rfl | later
            · exact fresh
            · exact fun again => apart v later (List.mem_cons_of_mem _ again)
          refine ih (front ++ [start]) cut' _ ?_ ?_ ?_ ?_ ?_
          · exact List.nodup_append.mpr ⟨onceLoop, once, fun v among _ again same =>
              freshLoop v among (same ▸ again)⟩
          · intro v
            simp only [List.mem_append, List.flatten_append, List.flatten_singleton, same v]
            exact or_comm
          · intro v among
            rcases List.mem_append.mp among with here | before
            · exact (List.mem_cons.mp here).elim (fun first => first ▸ member) (within v)
            · exact inside v before
          · intro v among
            rcases List.mem_append.mp among with before | here
            · exact List.mem_append_right _ (visited v before)
            · cases List.mem_singleton.mp here
              exact List.mem_append_left _ List.mem_cons_self
          · refine .snoc explored member (fun u among earlier => ?_) onceLoop
              (fun v among again => freshLoop v among ((same v).mpr again)) walk
              fun last isLast c near => ?_
            · refine (same u).mp (visited u ?_)
              by_contra behind
              rw [← cut, List.idxOf_append_of_notMem behind,
                List.idxOf_append_of_notMem fun again => fresh (visited start again),
                List.idxOf_cons_self] at earlier
              omega
            · rcases stuck last isLast c near with before | later
              · rcases List.mem_cons.mp before with rfl | before
                · exact .inr List.mem_cons_self
                · exact .inl ((same c).mp before)
              · exact .inr (List.mem_cons_of_mem _ later)
  have start := run [] vertices rfl ([], []) List.nodup_nil (fun v => by simp) nofun nofun .nil
  exact start

/-- No vertex is visited twice. -/
theorem Explored.distinct {vertices : List V} {loops : List (List V)}
    (explored : Explored neighbours vertices loops) : loops.flatten.Nodup := by
  induction explored with
  | nil => exact List.nodup_nil
  | snoc _ _ _ distinct fresh _ _ ih =>
      rw [List.flatten_append, List.flatten_singleton]
      exact List.nodup_append.mpr
        ⟨ih, distinct, fun v before w here same => fresh w here (same ▸ before)⟩

/-- Each loop begins with the first of its vertices. -/
theorem Explored.begun {vertices : List V} {loops : List (List V)}
    (explored : Explored neighbours vertices loops) : ∀ loop ∈ loops,
      ∃ start rest, loop = start :: rest ∧ start ∈ vertices ∧
        (loop.IsChain fun a b => b ∈ neighbours a) ∧
        ∀ v ∈ loop, v ∈ vertices → vertices.idxOf start ≤ vertices.idxOf v := by
  induction explored with
  | nil => exact nofun
  | @snoc loops start rest _ member visited _ fresh walk _ ih =>
      intro loop among
      rcases List.mem_append.mp among with old | new
      · exact ih loop old
      · cases List.mem_singleton.mp new
        refine ⟨start, rest, rfl, member, walk, fun v inside vertex => ?_⟩
        by_contra earlier
        exact fresh v inside (visited v vertex (Nat.lt_of_not_le earlier))

/-! ## Linear neighbours -/

section Linear

variable {E : V → V → Prop}

omit [DecidableEq V]

/-- A walk along the edges has the neighbours of its vertices but of its ends. -/
theorem start_of_open (linear : Linear E) {start : V} {rest : List V}
    (chain : (start :: rest).IsChain E) {a c : V} (inside : a ∈ start :: rest)
    (notLast : a ∉ (start :: rest).getLast?) (outside : c ∉ start :: rest) (beside : Beside E a c) :
    a = start ∧ E c start ∧ ∃ n, E start n := by
  obtain ⟨front, back, cut⟩ := List.append_of_mem inside
  cases back with
  | nil =>
      rw [cut] at notLast
      exact absurd (by simp) notLast
  | cons n back =>
      have step : E a n := by
        rw [cut] at chain
        exact (List.isChain_append_cons_cons.mp chain).2.1
      have member : n ∈ start :: rest := cut ▸ by simp
      rcases beside with forth | back
      · exact absurd (linear.next step forth ▸ member) outside
      · rcases List.eq_nil_or_concat front with rfl | ⟨front, p, rfl⟩
        · cases cut
          exact ⟨rfl, back, n, step⟩
        · have both := cut
          simp only [List.concat_eq_append, List.append_assoc, List.singleton_append] at both
          have previous : E p a := by
            rw [both] at chain
            exact (List.isChain_append_cons_cons.mp chain).2.1
          have inWalk : p ∈ start :: rest := both ▸ by simp
          exact absurd (linear.back previous back ▸ inWalk) outside

/-- A walk along the edges whose start has a vertex before it ends where no edge leaves. -/
theorem stops_of_open (linear : Linear E) {start : V} {rest : List V}
    (chain : (start :: rest).IsChain E) (distinct : (start :: rest).Nodup) {c last : V}
    (outside : c ∉ start :: rest) (edge : E c start) (isLast : last ∈ (start :: rest).getLast?)
    (inside : ∀ w, E last w → w ∈ start :: rest) : Stops E last := by
  intro w step
  obtain ⟨front, cut⟩ := List.getLast?_eq_some_iff.mp isLast
  have member : last ∈ start :: rest := cut ▸ by simp
  have closes := mem_closing_of_edge linear distinct chain member (inside w step) step
  have back : (last, start) ∈ ClosedWalks.closing (start :: rest) := by
    show (last, start) ∈ ClosedWalks.steps (start :: rest) start
    rw [cut, ClosedWalks.steps_snoc]
    exact List.mem_append_right _ (List.mem_singleton_self _)
  cases (linear_closing distinct).next closes back
  exact outside (linear.back step edge ▸ member)

/-- What is reached from a vertex and what reaches it are walked through together. -/
theorem mem_of_reach {seen : List V} (closed : ∀ {a b}, a ∈ seen → Beside E a b → b ∈ seen)
    {u v : V} (reach : Relation.ReflTransGen E u v) : u ∈ seen ↔ v ∈ seen := by
  induction reach with
  | refl => exact Iff.rfl
  | tail _ step ih =>
      exact ih.trans ⟨fun here => closed here (.inl step), fun there => closed there (.inr step)⟩

end Linear

/-- Loops among linear edges are whole, where the first vertex of each open chain is an end. -/
theorem Explored.whole {E : V → V → Prop} (linear : Linear E)
    (finite : {v | ∃ w, E v w}.Finite) {vertices : List V} {loops : List (List V)}
    (beside : ∀ v w, w ∈ neighbours v ↔ Beside E v w)
    (all : ∀ v w, Beside E v w → v ∈ vertices)
    (first : ∀ b u, Begins E b → Relation.ReflTransGen E b u → ¬ Stops E u → u ≠ b →
      ∃ e, Relation.ReflTransGen E b e ∧ (e = b ∨ Stops E e) ∧
        vertices.idxOf e < vertices.idxOf u)
    (explored : Explored neighbours vertices loops) : ∀ loop ∈ loops, Whole E loop := by
  induction explored with
  | nil => exact nofun
  | @snoc loops start rest before member visited distinct fresh walk stuck ih =>
      have closed : ∀ {a b}, a ∈ loops.flatten → Beside E a b → b ∈ loops.flatten := by
        intro a b inside near
        obtain ⟨loop, among, here⟩ := List.mem_flatten.mp inside
        exact List.mem_flatten.mpr ⟨loop, among, (ih loop among).closed here near⟩
      have chain : (start :: rest).IsChain (Beside E) := walk.imp fun a b => (beside a b).mp
      intro loop among
      rcases List.mem_append.mp among with old | new
      · exact ih loop old
      · cases List.mem_singleton.mp new
        refine ⟨List.cons_ne_nil _ _, distinct, chain, fun {a c} inside near => ?_⟩
        by_contra outside
        have notSeen : c ∉ loops.flatten := fun again => fresh a inside (closed again near.symm)
        have notLast : a ∉ (start :: rest).getLast? := fun isLast =>
          (stuck a isLast c ((beside a c).mpr near)).elim notSeen outside
        obtain ⟨last, isLast⟩ : ∃ last, last ∈ (start :: rest).getLast? :=
          ⟨_, List.getLast?_eq_some_getLast (List.cons_ne_nil start rest)⟩
        have lastMember : last ∈ start :: rest := List.mem_of_getLast? isLast
        have ends : ∀ w, Beside E last w → w ∈ start :: rest := by
          intro w near'
          refine (stuck last isLast w ((beside last w).mpr near')).resolve_left fun again => ?_
          exact fresh last lastMember (closed again near'.symm)
        -- a start inside an open chain has an end of the chain before it
        have inner (b : V) (begins : Begins E b) (back : Relation.ReflTransGen E b start)
            (goes : ¬ Stops E start) (apart : start ≠ b) : False := by
          obtain ⟨e, reach, _, earlier⟩ := first b start begins back goes apart
          have vertex : e ∈ vertices := by
            rcases Relation.ReflTransGen.cases_tail reach with same | ⟨d, _, step⟩
            · rcases Relation.ReflTransGen.cases_head back with same' | ⟨d, step, _⟩
              · exact absurd same'.symm apart
              · exact all e d (.inl (same ▸ step))
            · exact all e d (.inr step)
          have seen := (mem_of_reach closed reach).mpr (visited e vertex earlier)
          exact fresh start List.mem_cons_self ((mem_of_reach closed back).mp seen)
        rcases along_or_against linear distinct chain with forth | against
        · obtain ⟨rfl, edge, n, step⟩ := start_of_open linear forth inside notLast outside near
          have stops := stops_of_open linear forth distinct outside edge isLast
            fun w step => ends w (.inl step)
          obtain ⟨b, begins, back⟩ :=
            exists_begins linear finite (reach_of_chain forth lastMember) stops
          exact inner b begins back (fun stops => stops n step) fun same => begins c (same ▸ edge)
        · obtain ⟨rfl, edge, n, step⟩ :=
            start_of_open linear.flip against inside notLast outside near.symm
          have begins := stops_of_open linear.flip against distinct outside edge isLast
            fun w step => ends w (.inr step)
          have back := Relation.reflTransGen_swap.mp (reach_of_chain against lastMember)
          exact inner last begins back (fun stops => stops c edge) fun same =>
            begins n (same ▸ step)

/-- Where the loops are whole, the first vertex of each open chain is an end. -/
theorem Explored.early {E : V → V → Prop} (linear : Linear E)
    (finite : {v | ∃ u, E u v}.Finite) {vertices : List V} {loops : List (List V)}
    (beside : ∀ v w, w ∈ neighbours v ↔ Beside E v w)
    (explored : Explored neighbours vertices loops)
    (wholes : ∀ loop ∈ loops, Whole E loop) {b v : V} (begins : Begins E b)
    (reach : Relation.ReflTransGen E b v) (goes : ¬ Stops E v) (apart : v ≠ b)
    (vertex : v ∈ vertices) (seen : v ∈ loops.flatten) :
    ∃ e, Relation.ReflTransGen E b e ∧ (e = b ∨ Stops E e) ∧
      vertices.idxOf e < vertices.idxOf v := by
  obtain ⟨loop, member, inside⟩ := List.mem_flatten.mp seen
  have whole := wholes loop member
  obtain ⟨start, rest, rfl, first, walk, lowest⟩ := explored.begun loop member
  have chain : (start :: rest).IsChain (Beside E) := walk.imp fun a b => (beside a b).mp
  have beginning : b ∈ start :: rest := (mem_of_reach whole.closed reach).mpr inside
  -- the start is an end of the chain, whichever direction the walk took
  have isEnd : Relation.ReflTransGen E b start ∧ (start = b ∨ Stops E start) := by
    rcases along_or_against linear whole.distinct chain with forth | against
    · have same := OpenWalks.head_of_begins forth beginning begins
      exact ⟨same ▸ .refl, .inl same.symm⟩
    · obtain ⟨t, stops, back⟩ := exists_begins linear.flip finite (.refl (a := b)) begins
      have forth := Relation.reflTransGen_swap.mp back
      have inLoop : t ∈ start :: rest := (mem_of_reach whole.closed forth).mp beginning
      have same := OpenWalks.head_of_begins against inLoop stops
      exact same ▸ ⟨forth, .inr stops⟩
  refine ⟨start, isEnd.1, isEnd.2, lt_of_le_of_ne (lowest v inside vertex) fun same => ?_⟩
  have here : start = v := (List.idxOf_inj first).mp same
  rcases isEnd.2 with atBeginning | stops
  · exact apart (here ▸ atBeginning)
  · exact goes (here ▸ stops)

end DressOn.Explorations
