import Mathlib.Data.List.Perm.Basic

/-!
# Depth-first working of a queue

A worker visits the node at the head of its queue. What the visit asks for below the node goes in
front of the queue, what it asks for behind goes to the end. Worked until nothing is left, the
queue visits the nodes in depth-first order.
-/

namespace DressOn.DepthFirst

variable {State Node Visit : Type*}

/-- What a visit does to the state, and the nodes that it asks for. -/
structure Worker (State Node Visit : Type*) where
  Visits : State → Node → Visit → State → Prop
  below : Visit → List Node
  behind : Visit → List Node

variable {worker : Worker State Node Visit}

/-- The worker makes some visits and leaves a queue. -/
inductive Works (worker : Worker State Node Visit) :
    State → List Node → List Visit → State → List Node → Prop
  | idle {state queue} : Works worker state queue [] state queue
  | visit {state node visit next queue visits last left}
      (visited : worker.Visits state node visit next)
      (rest : Works worker next (worker.below visit ++ queue ++ worker.behind visit) visits
        last left) :
      Works worker state (node :: queue) (visit :: visits) last left

/-- Every node of a list is visited, and all that is below it before the next one. -/
inductive Preorder (worker : Worker State Node Visit) :
    State → List Node → List Visit → State → Prop
  | nil {state} : Preorder worker state [] [] state
  | node {state node visit next siblings inner middle outer last}
      (visited : worker.Visits state node visit next)
      (under : Preorder worker next (worker.below visit) inner middle)
      (rest : Preorder worker middle siblings outer last) :
      Preorder worker state (node :: siblings) (visit :: (inner ++ outer)) last

/-- The depth-first expansion of a list of roots. What its visits ask for behind are the roots of
the next round. -/
inductive Expansion (worker : Worker State Node Visit) :
    State → List Node → List Visit → State → Prop
  | nil {state} : Expansion worker state [] [] state
  | round {state roots visits middle more last}
      (walk : Preorder worker state roots visits middle)
      (later : Expansion worker middle (visits.flatMap worker.behind) more last) :
      Expansion worker state roots (visits ++ more) last

/-- Two stretches of work compose. -/
theorem Works.trans {first middle last : State} {queue between left : List Node}
    {early late : List Visit} (before : Works worker first queue early middle between)
    (after : Works worker middle between late last left) :
    Works worker first queue (early ++ late) last left := by
  induction before with
  | idle => exact after
  | visit visited _ inductionHypothesis => exact .visit visited (inductionHypothesis after)

/-- A walk over two lists of siblings is a walk over the first and then one over the second. -/
theorem Preorder.split {state last : State} {left right : List Node} {visits : List Visit}
    (walk : Preorder worker state (left ++ right) visits last) :
    ∃ early middle late, visits = early ++ late ∧ Preorder worker state left early middle ∧
      Preorder worker middle right late last := by
  induction left generalizing state visits with
  | nil => exact ⟨[], state, visits, rfl, .nil, walk⟩
  | cons node left inductionHypothesis =>
    cases walk with
    | node visited under rest =>
      obtain ⟨early, middle, late, rfl, first, second⟩ := inductionHypothesis rest
      exact ⟨_, middle, late, by simp, .node visited under first, second⟩

/-- A walk over at least one node makes a visit. -/
theorem Preorder.visits_ne_nil {state last : State} {roots : List Node} {visits : List Visit}
    (walk : Preorder worker state roots visits last) (some_root : roots ≠ []) : visits ≠ [] := by
  cases walk with
  | nil => exact absurd rfl some_root
  | node => simp

/-- Work that empties the queue walks its front first, and goes on with the rest and what the walk
asked for behind. -/
theorem Works.walk {visits : List Visit} {state last : State} {front back : List Node}
    (works : Works worker state (front ++ back) visits last []) :
    ∃ early middle late, visits = early ++ late ∧ Preorder worker state front early middle ∧
      Works worker middle (back ++ early.flatMap worker.behind) late last [] := by
  -- each visit leaves one visit less, whatever it puts in front
  induction visits generalizing state front back with
  | nil =>
    cases front with
    | nil => exact ⟨[], state, [], rfl, .nil, by simpa using works⟩
    | cons node front => nomatch works
  | cons visit visits inductionHypothesis =>
    cases front with
    | nil => exact ⟨[], state, visit :: visits, rfl, .nil, by simpa using works⟩
    | cons node front =>
      cases works with
      | @visit _ _ _ next _ _ _ _ visited rest =>
        have spliced : Works worker next
            ((worker.below visit ++ front) ++ (back ++ worker.behind visit)) visits last [] := by
          simpa using rest
        obtain ⟨early, middle, late, rfl, walk, after⟩ := inductionHypothesis spliced
        obtain ⟨inner, between, outer, rfl, under, siblings⟩ := walk.split
        exact ⟨visit :: (inner ++ outer), middle, late, rfl, .node visited under siblings,
          by simpa using after⟩

/-- Work that empties the queue is the depth-first expansion of the queue. -/
theorem Works.expansion {state last : State} {queue : List Node} {visits : List Visit}
    (works : Works worker state queue visits last []) : Expansion worker state queue visits last := by
  induction size : visits.length using Nat.strongRecOn generalizing state queue visits with
  | _ size inductionHypothesis =>
    by_cases none_left : queue = []
    · subst none_left
      cases works
      exact .nil
    · have whole : Works worker state (queue ++ []) visits last [] := by simpa using works
      obtain ⟨early, middle, late, rfl, walk, after⟩ := whole.walk
      have progress : 0 < early.length := List.length_pos_iff.mpr (walk.visits_ne_nil none_left)
      rw [List.length_append] at size
      exact .round walk (inductionHypothesis late.length (by omega) (by simpa using after) rfl)

/-- What is visited and what is left are together what was queued at the start or by a visit. -/
theorem Works.perm (node : Visit → Node)
    (names : ∀ {state visited visit next}, worker.Visits state visited visit next →
      node visit = visited)
    {state last : State} {queue left : List Node} {visits : List Visit}
    (works : Works worker state queue visits last left) :
    (visits.map node ++ left).Perm
      (queue ++ visits.flatMap fun visit => worker.below visit ++ worker.behind visit) := by
  induction works with
  | idle => simp
  | @visit state head visit next queue visits last left visited rest inductionHypothesis =>
    simp only [List.map_cons, names visited, List.cons_append, List.flatMap_cons]
    refine (inductionHypothesis.cons head).trans (List.Perm.cons head ?_)
    calc
      (worker.below visit ++ queue ++ worker.behind visit ++ _).Perm
          (queue ++ worker.below visit ++ worker.behind visit ++ _) :=
        ((List.perm_append_comm).append_right _).append_right _
      _ = queue ++ (worker.below visit ++ worker.behind visit ++ _) := by
        simp only [List.append_assoc]

/-- Where visits of one node in one state agree on what `seen` shows, on what they ask for and on
the next state, two workings that empty one queue agree on what is seen. -/
theorem Works.deterministic {Seen : Type*} (seen : Visit → Seen)
    (agree : ∀ {state node visit next visit' next'}, worker.Visits state node visit next →
      worker.Visits state node visit' next' → next = next' ∧ seen visit = seen visit' ∧
        worker.below visit = worker.below visit' ∧ worker.behind visit = worker.behind visit')
    {state last last' : State} {queue : List Node} {visits visits' : List Visit}
    (works : Works worker state queue visits last [])
    (works' : Works worker state queue visits' last' []) :
    visits.map seen = visits'.map seen ∧ last = last' := by
  induction visits generalizing state queue visits' with
  | nil =>
    cases works
    cases works'
    exact ⟨rfl, rfl⟩
  | cons visit visits inductionHypothesis =>
    cases works with
    | visit visited rest =>
      cases works' with
      | visit visited' rest' =>
        obtain ⟨rfl, saw, below, behind⟩ := agree visited visited'
        rw [← below, ← behind] at rest'
        obtain ⟨same, final⟩ := inductionHypothesis rest rest'
        exact ⟨by simp [saw, same], final⟩

end DressOn.DepthFirst
