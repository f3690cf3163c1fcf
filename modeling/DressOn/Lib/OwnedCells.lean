import Mathlib.Data.List.Count
import Mathlib.Data.List.Induction
import Mathlib.Logic.Function.Basic

/-!
# Threads that own their cells

Each thread updates at most one cell, in two moves: it reads the cell, and on a
later turn it writes what it made of it. When no two threads update the same cell,
every interleaving of their turns leaves in each cell what its owner alone would
have left there.
-/

namespace DressOn.OwnedCells

variable {τ κ M : Type*} [DecidableEq τ] [DecidableEq κ]

/-- What a thread does: the cell it updates and what it makes of the old value. -/
structure Update (κ M : Type*) where
  cell : κ
  make : M → M

/-- The cells, and what each thread that has begun is about to write. -/
structure Machine (τ κ M : Type*) where
  cells : κ → M
  begun : τ → Option M
  ended : τ → Bool

/-- No thread has begun. -/
def Machine.start (cells : κ → M) : Machine τ κ M where
  cells := cells
  begun := fun _ => none
  ended := fun _ => false

variable (updates : τ → Option (Update κ M))

/-- One turn of one thread. -/
def turn (machine : Machine τ κ M) (thread : τ) : Machine τ κ M :=
  match updates thread with
  | none => machine
  | some update =>
      match machine.begun thread with
      | none =>
          { machine with
            begun := Function.update machine.begun thread
              (some (update.make (machine.cells update.cell))) }
      | some made =>
          if machine.ended thread then machine
          else
            { machine with
              cells := Function.update machine.cells update.cell made
              ended := Function.update machine.ended thread true }

/-- The turns of a schedule, in order. -/
def run (schedule : List τ) (cells : κ → M) : Machine τ κ M :=
  schedule.foldl (turn updates) (Machine.start cells)

/-- The last turn of a schedule comes after the others. -/
theorem run_concat (schedule : List τ) (thread : τ) (cells : κ → M) :
    run updates (schedule ++ [thread]) cells =
      turn updates (run updates schedule cells) thread := by
  rw [run, List.foldl_append, List.foldl_cons, List.foldl_nil, ← run]

/-- No two threads update the same cell. -/
def RaceFree : Prop :=
  ∀ thread other update update', updates thread = some update → updates other = some update' →
    update.cell = update'.cell → thread = other

variable {updates} {thread : τ} {update : Update κ M}

/-- What is known of a thread after some turns of it: nothing before the first, what
it is about to write after it, and its cell written from the second on. -/
structure Progress (cells : κ → M) (update : Update κ M) (turns : ℕ)
    (machine : Machine τ κ M) (thread : τ) : Prop where
  begun : machine.begun thread = if turns = 0 then none else some (update.make (cells update.cell))
  ended : machine.ended thread = decide (2 ≤ turns)
  cell : machine.cells update.cell =
    if 2 ≤ turns then update.make (cells update.cell) else cells update.cell

/-- A thread's own turn moves it on. -/
theorem Progress.own {cells : κ → M} {turns : ℕ} {machine : Machine τ κ M}
    (doing : updates thread = some update) (so_far : Progress cells update turns machine thread) :
    Progress cells update (turns + 1) (turn updates machine thread) thread := by
  obtain ⟨begun, ended, cell⟩ := so_far
  rw [turn, doing]
  match turns with
  | 0 =>
      rw [if_pos rfl] at begun
      rw [if_neg (by omega)] at cell
      rw [begun]
      exact ⟨by simp [cell], by simpa using ended, by simpa using cell⟩
  | 1 =>
      rw [if_neg (by omega)] at begun
      rw [begun]
      simp only [ended, Nat.reduceLeDiff, decide_false, Bool.false_eq_true, if_false]
      exact ⟨by simp [begun], by simp, by simp⟩
  | turns + 2 =>
      rw [if_neg (by omega)] at begun
      rw [begun]
      simp only [ended, Nat.le_add_left, decide_true, if_true]
      exact ⟨by simp [begun], by simp [ended], by simpa using cell⟩

/-- Another thread's turn leaves a thread and its cell alone. -/
theorem Progress.other (raceFree : RaceFree updates) {cells : κ → M} {turns : ℕ}
    {machine : Machine τ κ M} {other : τ} (differ : thread ≠ other)
    (doing : updates thread = some update) (so_far : Progress cells update turns machine thread) :
    Progress cells update turns (turn updates machine other) thread := by
  obtain ⟨begun, ended, cell⟩ := so_far
  rw [turn]
  cases found : updates other with
  | none => exact ⟨begun, ended, cell⟩
  | some update' =>
      have apart : update.cell ≠ update'.cell := fun same =>
        differ (raceFree thread other update update' doing found same)
      cases machine.begun other with
      | none => exact ⟨by simpa [differ] using begun, ended, cell⟩
      | some made =>
          dsimp only
          split
          · exact ⟨begun, ended, cell⟩
          · exact ⟨begun, by simpa [differ] using ended, by simpa [apart] using cell⟩

/-- How far a schedule brings a thread depends on its own turns only. -/
theorem run_progress (raceFree : RaceFree updates) (doing : updates thread = some update)
    (schedule : List τ) (cells : κ → M) :
    Progress cells update (schedule.count thread) (run updates schedule cells) thread := by
  induction schedule using List.reverseRecOn with
  | nil => exact ⟨rfl, rfl, rfl⟩
  | append_singleton schedule other ih =>
      rw [run_concat, List.count_append, List.count_singleton]
      by_cases same : other = thread
      · subst same
        simpa using ih.own doing
      · simpa [same] using ih.other raceFree (Ne.symm same) doing

/-- A thread that has had its turns has updated its cell, whatever ran in between. -/
theorem run_cells_of_owner (raceFree : RaceFree updates) (doing : updates thread = some update)
    {schedule : List τ} (complete : 2 ≤ schedule.count thread) (cells : κ → M) :
    (run updates schedule cells).cells update.cell = update.make (cells update.cell) := by
  rw [(run_progress raceFree doing schedule cells).cell, if_pos complete]

/-- A cell that no thread updates is as it was. -/
theorem run_cells_of_unowned {cell : κ}
    (unowned : ∀ thread update, updates thread = some update → update.cell ≠ cell)
    (schedule : List τ) (cells : κ → M) :
    (run updates schedule cells).cells cell = cells cell := by
  induction schedule using List.reverseRecOn with
  | nil => rfl
  | append_singleton schedule thread ih =>
      rw [run_concat, ← ih, turn]
      cases found : updates thread with
      | none => rfl
      | some update =>
          have apart := unowned thread update found
          cases (run updates schedule cells).begun thread with
          | none => rfl
          | some made =>
              dsimp only
              split
              · rfl
              · simp [Ne.symm apart]

/-- A thread has begun from its first turn on, and has ended from its second. -/
theorem run_turns (doing : updates thread = some update) (schedule : List τ) (cells : κ → M) :
    ((run updates schedule cells).begun thread = none ↔ schedule.count thread = 0) ∧
      (run updates schedule cells).ended thread = decide (2 ≤ schedule.count thread) := by
  induction schedule using List.reverseRecOn with
  | nil => simp [run, Machine.start]
  | append_singleton schedule other ih =>
      obtain ⟨begun, ended⟩ := ih
      rw [run_concat, List.count_append, List.count_singleton, turn]
      generalize run updates schedule cells = machine at begun ended ⊢
      by_cases same : other = thread
      · subst same
        rw [doing]
        cases made : machine.begun other with
        | none =>
            rw [made, eq_self, true_iff] at begun
            simp [begun, ended]
        | some value =>
            rw [made] at begun
            have some_turn : schedule.count other ≠ 0 := fun none_yet => by
              simp [none_yet] at begun
            dsimp only
            split
            next ended_already =>
              have enough := of_decide_eq_true (ended.symm.trans ended_already)
              simp only [made, ended, beq_self_eq_true, if_true]
              exact ⟨by simp, by simp [enough, Nat.le_succ_of_le enough]⟩
            next =>
              have first : 2 ≤ schedule.count other + 1 := by omega
              simp [made, first]
      · have differ : (other == thread) = false := by simpa using same
        simp only [differ, Bool.false_eq_true, if_false, Nat.add_zero]
        cases updates other with
        | none => exact ⟨begun, ended⟩
        | some update' =>
            cases machine.begun other with
            | none => exact ⟨by simpa [Ne.symm same] using begun, ended⟩
            | some made =>
                dsimp only
                split
                · exact ⟨begun, ended⟩
                · exact ⟨begun, by simpa [Ne.symm same] using ended⟩

/-- A thread that has its two turns after all others leaves in its cell what it makes of what they
left there. -/
theorem run_cells_of_last (doing : updates thread = some update) {before : List τ}
    (absent : thread ∉ before) (cells : κ → M) :
    (run updates (before ++ [thread] ++ [thread]) cells).cells update.cell =
      update.make ((run updates before cells).cells update.cell) := by
  obtain ⟨begun, ended⟩ := run_turns doing before cells
  rw [List.count_eq_zero.mpr absent] at begun ended
  rw [run_concat, run_concat]
  generalize run updates before cells = machine at begun ended ⊢
  simp [turn, doing, begun.mpr rfl, ended]

/-- Any thread can be the last one to have its turns. -/
theorem exists_last {threads : List τ} (listed : ∀ thread, thread ∈ threads) (last : τ) :
    ∃ before : List τ, last ∉ before ∧
      ∀ thread, 2 ≤ (before ++ [last] ++ [last]).count thread := by
  let others := threads.filter fun thread => thread ≠ last
  refine ⟨others ++ others, by simp [others], fun thread => ?_⟩
  by_cases same : thread = last
  · subst same
    simp only [List.count_append, List.count_singleton_self]
    omega
  · have member : thread ∈ others := List.mem_filter.mpr ⟨listed thread, by simpa using same⟩
    have once := List.count_pos_iff.mpr member
    simp only [List.count_append]
    omega

/-- Where the threads that update a cell agree on what they write, the cell has that value once
one of them has had its turns. -/
theorem run_cells_of_agreed {cell : κ} {value : M}
    (agreed : ∀ thread update, updates thread = some update → update.cell = cell →
      ∀ old, update.make old = value)
    (doing : updates thread = some update) (owns : update.cell = cell) {schedule : List τ}
    (complete : 2 ≤ schedule.count thread) (cells : κ → M) :
    (run updates schedule cells).cells cell = value := by
  have written : (∀ thread update made, updates thread = some update → update.cell = cell →
        (run updates schedule cells).begun thread = some made → made = value) ∧
      ((∃ thread update, updates thread = some update ∧ update.cell = cell ∧
        (run updates schedule cells).ended thread = true) →
          (run updates schedule cells).cells cell = value) := by
    clear complete
    induction schedule using List.reverseRecOn with
    | nil => simp [run, Machine.start]
    | append_singleton schedule other ih =>
        obtain ⟨about, done⟩ := ih
        rw [run_concat, turn]
        generalize run updates schedule cells = machine at about done ⊢
        cases found : updates other with
        | none => exact ⟨about, done⟩
        | some update' =>
            cases made : machine.begun other with
            | none =>
                refine ⟨fun thread update value' doing' owns' begun => ?_, done⟩
                dsimp only at begun
                by_cases same : thread = other
                · subst same
                  rw [Function.update_self, Option.some.injEq] at begun
                  rw [← begun, ← agreed thread update doing' owns' (machine.cells update'.cell)]
                  rw [found, Option.some.injEq] at doing'
                  rw [doing']
                · rw [Function.update_of_ne same] at begun
                  exact about thread update value' doing' owns' begun
            | some value' =>
                dsimp only
                split
                · exact ⟨about, done⟩
                · refine ⟨about, fun ended => ?_⟩
                  dsimp only at ended ⊢
                  by_cases here : update'.cell = cell
                  · rw [here, Function.update_self]
                    exact about other update' value' found here made
                  · rw [Function.update_of_ne (Ne.symm here)]
                    obtain ⟨thread, update, doing', owns', ended'⟩ := ended
                    have differ : thread ≠ other := by
                      rintro rfl
                      rw [found, Option.some.injEq] at doing'
                      exact here (doing' ▸ owns')
                    rw [Function.update_of_ne differ] at ended'
                    exact done ⟨thread, update, doing', owns', ended'⟩
  have ended := (run_turns doing schedule cells).2
  exact written.2 ⟨thread, update, doing, owns, by simpa [complete] using ended⟩

/-- Among threads that write without a look at what was there, a cell ends with a value from every
start and in every order of the turns just where some thread updates it, and every one that does
writes that value. -/
theorem ends_with_iff [Nontrivial M] {threads : List τ} (listed : ∀ thread, thread ∈ threads)
    (constant : ∀ thread update, updates thread = some update →
      ∀ old old', update.make old = update.make old') {cell : κ} {value : M} :
    (∀ (cells : κ → M) (schedule : List τ), (∀ thread, 2 ≤ schedule.count thread) →
        (run updates schedule cells).cells cell = value) ↔
      (∃ thread update, updates thread = some update ∧ update.cell = cell) ∧
        ∀ thread update, updates thread = some update → update.cell = cell →
          ∀ old, update.make old = value := by
  constructor
  · intro ends
    constructor
    · -- a cell that no thread updates keeps whatever it had
      by_contra none_owns
      have unowned : ∀ thread update, updates thread = some update → update.cell ≠ cell :=
        fun thread update doing owns => none_owns ⟨thread, update, doing, owns⟩
      obtain ⟨other, differs⟩ := exists_ne value
      have twice : ∀ thread, 2 ≤ (threads ++ threads).count thread := fun thread => by
        have once := List.count_pos_iff.mpr (listed thread)
        rw [List.count_append]
        omega
      have ended := ends (fun _ => other) _ twice
      rw [run_cells_of_unowned unowned] at ended
      exact differs ended
    · rintro thread update doing rfl old
      obtain ⟨before, absent, complete⟩ := exists_last listed thread
      have ended := ends (fun _ => old) _ complete
      rw [run_cells_of_last doing absent] at ended
      rw [constant thread update doing old, ended]
  · rintro ⟨⟨thread, update, doing, owns⟩, agreed⟩ cells schedule complete
    exact run_cells_of_agreed agreed doing owns (complete thread) cells

end DressOn.OwnedCells
