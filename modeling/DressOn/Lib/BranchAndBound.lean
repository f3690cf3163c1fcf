import Mathlib.Algebra.BigOperators.Group.List.Basic
import Mathlib.Logic.Relation
import Mathlib.Algebra.GroupWithZero.Nat

/-!
# Branch and bound with a stack

A search of a tree whose labels say something of the leaves under them. The trees still to search
wait on a stack of limited room; a tree whose label rules all its leaves out is dropped unsearched.
What a search leaves unvisited was ruled out, and a tree of small height never fills the stack.
-/

namespace DressOn.BranchAndBound

/-- A tree with labels, and loads at its leaves. -/
inductive Tree (β γ : Type*) where
  | leaf (label : β) (load : γ)
  | node (label : β) (left right : Tree β γ)

namespace Tree

variable {β γ : Type*}

/-- The label at the root. -/
def label : Tree β γ → β
  | leaf label _ => label
  | node label _ _ => label

/-- The loads of the leaves, from left to right. -/
def loads : Tree β γ → List γ
  | leaf _ load => [load]
  | node _ left right => left.loads ++ right.loads

/-- The number of nodes. -/
def size : Tree β γ → Nat
  | leaf _ _ => 1
  | node _ left right => 1 + left.size + right.size

/-- The most edges from the root to a leaf. -/
def height : Tree β γ → Nat
  | leaf _ _ => 0
  | node _ left right => 1 + max left.height right.height

/-- Every label covers the loads under it. -/
def Sound (covers : β → γ → Prop) : Tree β γ → Prop
  | leaf label load => covers label load
  | node label left right =>
      (∀ load ∈ left.loads ++ right.loads, covers label load) ∧ left.Sound covers ∧
        right.Sound covers

/-- The label at the root covers every load. -/
theorem Sound.root {covers : β → γ → Prop} {tree : Tree β γ} (sound : tree.Sound covers) :
    ∀ load ∈ tree.loads, covers tree.label load := by
  cases tree with
  | leaf label load =>
    intro other member
    rw [List.mem_singleton.1 member]
    exact sound
  | node label left right => exact sound.1

end Tree

/-- How a search goes on: which trees it drops, what a visit does, and which subtree is next. -/
structure Strategy (β γ σ : Type*) where
  /-- Whether no leaf under the label can matter any more. -/
  drops : β → σ → Bool
  visit : γ → σ → σ
  /-- Whether the left subtree is searched before the right one. -/
  leftFirst : β → β → Bool

/-- What one turn of the loop comes to. -/
inductive Turn (β γ σ : Type*) where
  | goes (stack : List (Tree β γ)) (state : σ)
  | ends (state : σ)
  | full (state : σ)

variable {β γ σ : Type*} (strategy : Strategy β γ σ) (room : Nat)

/-- One turn of the loop: the tree on top of the stack. -/
def turn : List (Tree β γ) → σ → Turn β γ σ
  | [], state => .ends state
  | tree :: rest, state =>
      if strategy.drops tree.label state then .goes rest state
      else
        match tree with
        | .leaf _ load => .goes rest (strategy.visit load state)
        | .node _ left right =>
            if room < rest.length + 2 then .full state
            else if strategy.leftFirst left.label right.label then
              .goes (left :: right :: rest) state
            else .goes (right :: left :: rest) state

/-- The search, and whether it broke off for want of room. -/
def search : Nat → List (Tree β γ) → σ → Option (σ × Bool)
  | 0, _, _ => none
  | fuel + 1, stack, state =>
      match turn strategy room stack state with
      | .goes stack state => search fuel stack state
      | .ends state => some (state, false)
      | .full state => some (state, true)

/-- The stack has at most so many trees below each tree that they and its height stay in a bound. -/
def Fits (bound : Nat) : List (Tree β γ) → Prop
  | [] => True
  | tree :: rest => tree.height + rest.length ≤ bound ∧ Fits bound rest

/-- The nodes that wait. -/
def waiting (stack : List (Tree β γ)) : Nat := (stack.map Tree.size).sum

variable {strategy room}

/-- A stack that fits is short. -/
theorem Fits.length_le {bound : Nat} {stack : List (Tree β γ)} (fits : Fits bound stack) :
    stack.length ≤ bound + 1 := by
  cases stack with
  | nil => exact Nat.zero_le _
  | cons tree rest =>
    have top := fits.1
    simp only [List.length_cons]
    omega

/-- What a turn that goes on does. -/
theorem turn_cases {stack stack' : List (Tree β γ)} {state state' : σ}
    (goes : turn strategy room stack state = .goes stack' state') :
    ∃ tree rest, stack = tree :: rest ∧
      ((strategy.drops tree.label state = true ∧ stack' = rest ∧ state' = state) ∨
        (∃ label load, tree = .leaf label load ∧ stack' = rest ∧
          state' = strategy.visit load state) ∨
        (∃ label left right, tree = .node label left right ∧ state' = state ∧
          (stack' = left :: right :: rest ∨ stack' = right :: left :: rest))) := by
  cases stack with
  | nil => simp [turn] at goes
  | cons tree rest =>
    refine ⟨tree, rest, rfl, ?_⟩
    unfold turn at goes
    dsimp only at goes
    by_cases drop : strategy.drops tree.label state = true
    · rw [if_pos drop] at goes
      injection goes with stackEq stateEq
      exact .inl ⟨drop, stackEq.symm, stateEq.symm⟩
    · rw [if_neg drop] at goes
      cases tree with
      | leaf label load =>
        injection goes with stackEq stateEq
        exact .inr (.inl ⟨label, load, rfl, stackEq.symm, stateEq.symm⟩)
      | node label left right =>
        dsimp only at goes
        split at goes
        · cases goes
        split at goes
        · injection goes with stackEq stateEq
          exact .inr (.inr ⟨label, left, right, rfl, stateEq.symm, .inl stackEq.symm⟩)
        · injection goes with stackEq stateEq
          exact .inr (.inr ⟨label, left, right, rfl, stateEq.symm, .inr stackEq.symm⟩)

/-- A turn keeps the stack within its bound. -/
theorem Fits.turn {bound : Nat} {stack stack' : List (Tree β γ)} {state state' : σ}
    (fits : Fits bound stack)
    (goes : BranchAndBound.turn strategy room stack state = .goes stack' state') :
    Fits bound stack' := by
  obtain ⟨tree, rest, rfl, ⟨_, rfl, _⟩ | ⟨_, _, _, rfl, _⟩ | ⟨_, left, right, rfl, _, pushed⟩⟩ :=
    turn_cases goes
  · exact fits.2
  · exact fits.2
  · obtain ⟨top, below⟩ := fits
    simp only [Tree.height] at top
    obtain rfl | rfl := pushed
    · exact ⟨by simp only [List.length_cons]; omega, by omega, below⟩
    · exact ⟨by simp only [List.length_cons]; omega, by omega, below⟩

/-- A stack within a bound below its room is never full. -/
theorem Fits.not_full {bound : Nat} {stack : List (Tree β γ)} {state state' : σ}
    (fits : Fits bound stack) (large : bound < room) :
    BranchAndBound.turn strategy room stack state ≠ .full state' := by
  intro full
  cases stack with
  | nil => simp [BranchAndBound.turn] at full
  | cons tree rest =>
    unfold BranchAndBound.turn at full
    dsimp only at full
    split at full
    · cases full
    cases tree with
    | leaf label load => cases full
    | node label left right =>
      obtain ⟨top, _⟩ := fits
      simp only [Tree.height] at top
      dsimp only at full
      rw [if_neg (by omega)] at full
      split at full <;> cases full

/-- A turn leaves fewer nodes waiting. -/
theorem waiting_lt {stack stack' : List (Tree β γ)} {state state' : σ}
    (goes : turn strategy room stack state = .goes stack' state') :
    waiting stack' < waiting stack := by
  have pos : ∀ tree : Tree β γ, 0 < tree.size := by
    intro tree
    cases tree <;> simp only [Tree.size] <;> omega
  obtain ⟨tree, rest, rfl, ⟨_, rfl, _⟩ | ⟨_, _, _, rfl, _⟩ | ⟨_, left, right, rfl, _, pushed⟩⟩ :=
    turn_cases goes
  · have := pos tree
    simp only [waiting, List.map_cons, List.sum_cons]
    omega
  · have := pos tree
    simp only [waiting, List.map_cons, List.sum_cons]
    omega
  · obtain rfl | rfl := pushed <;>
      simp only [waiting, List.map_cons, List.sum_cons, Tree.size] <;> omega

/-- Only an empty stack ends a search. -/
theorem turn_ends {stack : List (Tree β γ)} {state state' : σ}
    (ends : turn strategy room stack state = .ends state') : stack = [] ∧ state' = state := by
  cases stack with
  | nil =>
    simp only [turn, Turn.ends.injEq] at ends
    exact ⟨rfl, ends.symm⟩
  | cons tree rest =>
    unfold turn at ends
    dsimp only at ends
    split at ends
    · cases ends
    cases tree with
    | leaf label load => cases ends
    | node label left right =>
      dsimp only at ends
      split at ends
      · cases ends
      · split at ends <;> cases ends

/-- With fuel for every node and a stack within its room, the search ends with nothing left to
search, and what every turn keeps holds at the end. -/
theorem search_ends {invariant : List (Tree β γ) → σ → Prop}
    (kept : ∀ stack state stack' state', invariant stack state →
      turn strategy room stack state = .goes stack' state' → invariant stack' state')
    {bound : Nat} (large : bound < room) (fuel : Nat) {stack : List (Tree β γ)} {state : σ}
    (enough : waiting stack < fuel) (fits : Fits bound stack) (holds : invariant stack state) :
    ∃ state', search strategy room fuel stack state = some (state', false) ∧
      invariant [] state' := by
  induction fuel generalizing stack state with
  | zero => omega
  | succ fuel inductionHypothesis =>
    rw [search]
    cases result : turn strategy room stack state with
    | goes stack' state' =>
      exact inductionHypothesis (by have := waiting_lt result; omega) (fits.turn result)
        (kept _ _ _ _ holds result)
    | ends state' =>
      obtain ⟨rfl, rfl⟩ := turn_ends result
      exact ⟨state', rfl, holds⟩
    | full state' => exact absurd result (fits.not_full large)

/-- More fuel changes nothing. -/
theorem search_mono {fuel more : Nat} (le : fuel ≤ more) {stack : List (Tree β γ)} {state : σ}
    {result : σ × Bool} (found : search strategy room fuel stack state = some result) :
    search strategy room more stack state = some result := by
  induction fuel generalizing more stack state with
  | zero => cases found
  | succ fuel inductionHypothesis =>
    obtain ⟨more, rfl⟩ : ∃ before, more = before + 1 := ⟨more - 1, by omega⟩
    rw [search] at found ⊢
    cases here : turn strategy room stack state with
    | goes stack' state' =>
      rw [here] at found
      exact inductionHypothesis (by omega) found
    | ends state' =>
      rw [here] at found
      exact found
    | full state' =>
      rw [here] at found
      exact found

section Rule

variable (strategy) (covers : β → γ → Prop) (settled : γ → σ → Prop)

/-- What settles a load: a visit does, later visits leave it so, and a label that is dropped has
only settled loads under it. -/
structure Rule : Prop where
  visited : ∀ load state, settled load (strategy.visit load state)
  kept : ∀ load other state, settled load state → settled load (strategy.visit other state)
  dropped : ∀ label load state, strategy.drops label state = true → covers label load →
    settled load state

/-- Every load is settled or waits, and every tree that waits is sound and holds such loads. -/
structure Pending (all : List γ) (stack : List (Tree β γ)) (state : σ) : Prop where
  each : ∀ load ∈ all, settled load state ∨ ∃ tree ∈ stack, load ∈ tree.loads
  sound : ∀ tree ∈ stack, tree.Sound covers
  within : ∀ tree ∈ stack, ∀ load ∈ tree.loads, load ∈ all

variable {strategy covers settled}

/-- A turn leaves every load settled or waiting. -/
theorem Pending.turn {all : List γ} {stack stack' : List (Tree β γ)} {state state' : σ}
    (rule : Rule strategy covers settled) (pending : Pending covers settled all stack state)
    (goes : BranchAndBound.turn strategy room stack state = .goes stack' state') :
    Pending covers settled all stack' state' := by
  obtain ⟨tree, rest, rfl, ⟨drop, rfl, rfl⟩ | ⟨_, load, rfl, rfl, rfl⟩ |
    ⟨_, left, right, rfl, rfl, pushed⟩⟩ := turn_cases goes
  · refine ⟨fun load member => ?_, fun tree inRest => pending.sound tree (by simp [inRest]),
      fun tree inRest => pending.within tree (by simp [inRest])⟩
    obtain done | ⟨holder, inStack, under⟩ := pending.each load member
    · exact .inl done
    · obtain rfl | inRest := List.mem_cons.1 inStack
      · exact .inl (rule.dropped _ _ _ drop ((pending.sound _ inStack).root _ under))
      · exact .inr ⟨holder, inRest, under⟩
  · refine ⟨fun other member => ?_, fun tree inRest => pending.sound tree (by simp [inRest]),
      fun tree inRest => pending.within tree (by simp [inRest])⟩
    obtain done | ⟨holder, inStack, under⟩ := pending.each other member
    · exact .inl (rule.kept _ _ _ done)
    · obtain rfl | inRest := List.mem_cons.1 inStack
      · rw [Tree.loads, List.mem_singleton] at under
        exact .inl (under ▸ rule.visited _ _)
      · exact .inr ⟨holder, inRest, under⟩
  · have members : ∀ tree, tree ∈ stack' ↔ tree = left ∨ tree = right ∨ tree ∈ rest := by
      intro tree
      obtain rfl | rfl := pushed
      · simp
      · simp only [List.mem_cons]
        tauto
    obtain ⟨_, soundLeft, soundRight⟩ := pending.sound _ List.mem_cons_self
    refine ⟨fun load member => ?_, fun tree inStack => ?_, fun tree inStack load under => ?_⟩
    · obtain done | ⟨holder, inStack, under⟩ := pending.each load member
      · exact .inl done
      · obtain rfl | inRest := List.mem_cons.1 inStack
        · obtain inLeft | inRight := List.mem_append.1 under
          · exact .inr ⟨left, (members _).2 (.inl rfl), inLeft⟩
          · exact .inr ⟨right, (members _).2 (.inr (.inl rfl)), inRight⟩
        · exact .inr ⟨holder, (members _).2 (.inr (.inr inRest)), under⟩
    · obtain rfl | rfl | inRest := (members tree).1 inStack
      · exact soundLeft
      · exact soundRight
      · exact pending.sound _ (by simp [inRest])
    · obtain rfl | rfl | inRest := (members tree).1 inStack
      · exact pending.within _ List.mem_cons_self _ (List.mem_append_left _ under)
      · exact pending.within _ List.mem_cons_self _ (List.mem_append_right _ under)
      · exact pending.within _ (by simp [inRest]) _ under

/-- A search of a sound tree settles every load, and keeps what visits of its loads keep. -/
theorem search_settles {tree : Tree β γ} {state : σ} {fact : σ → Prop} {fuel : Nat}
    (rule : Rule strategy covers settled) (sound : tree.Sound covers)
    (low : tree.height < room) (enough : tree.size < fuel) (start : fact state)
    (visits : ∀ load ∈ tree.loads, ∀ state, fact state → fact (strategy.visit load state)) :
    ∃ state', search strategy room fuel [tree] state = some (state', false) ∧ fact state' ∧
      ∀ load ∈ tree.loads, settled load state' := by
  have run := @search_ends _ _ _ strategy room
    (fun stack state => Pending covers settled tree.loads stack state ∧ fact state)
    (by
      rintro stack state stack' state' ⟨pending, holds⟩ goes
      refine ⟨pending.turn rule goes, ?_⟩
      obtain ⟨tree, rest, rfl, ⟨_, _, rfl⟩ | ⟨_, load, rfl, _, rfl⟩ | ⟨_, _, _, _, rfl, _⟩⟩ :=
        turn_cases goes
      · exact holds
      · exact visits load (pending.within _ List.mem_cons_self _ (by simp [Tree.loads])) _ holds
      · exact holds)
    tree.height low fuel [tree] state (by simpa [waiting] using enough) (by simp [Fits])
    ⟨⟨fun load member => .inr ⟨tree, by simp, member⟩, by simpa using sound, by simp⟩, start⟩
  obtain ⟨state', result, pending, holds⟩ := run
  refine ⟨state', result, holds, fun load member => ?_⟩
  obtain done | ⟨_, inNone, _⟩ := pending.each load member
  · exact done
  · exact absurd inNone (List.not_mem_nil)

end Rule

end DressOn.BranchAndBound
