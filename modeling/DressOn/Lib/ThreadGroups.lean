import Mathlib

/-!
# Groups of threads

Threads load and store the cells of one memory, and the threads of a group wait for each other at
barriers. Every order of their turns is a run. A group whose threads keep out of each other's cells
between two barriers ends as if each thread ran the whole phase alone; groups that keep out of each
other's cells end as if each group were alone.
-/

namespace DressOn.ThreadGroups

universe u

/-- What a thread still does. A thread that spins is never done. -/
inductive Code (κ β ρ : Type u) : Type u
  | done (value : ρ)
  | load (cell : κ) (next : β → Code κ β ρ)
  | store (cell : κ) (value : β) (next : Code κ β ρ)
  | sync (next : Code κ β ρ)
  | spin

namespace Code

variable {κ β ρ τ : Type u}

/-- One code after another. -/
def andThen : Code κ β ρ → (ρ → Code κ β τ) → Code κ β τ
  | done value, after => after value
  | load cell next, after => load cell fun value => (next value).andThen after
  | store cell value next, after => store cell value (next.andThen after)
  | sync next, after => sync (next.andThen after)
  | spin, _ => spin

instance : Monad (Code κ β) where
  pure := done
  bind := andThen

/-- Load a cell. -/
def read (cell : κ) : Code κ β β := load cell done

/-- Store to a cell. -/
def write (cell : κ) (value : β) : Code κ β PUnit := store cell value (done ⟨⟩)

/-- Wait for the group. -/
def barrier : Code κ β PUnit := sync (done ⟨⟩)

@[simp] theorem pure_eq (value : ρ) : (pure value : Code κ β ρ) = done value := rfl

@[simp] theorem done_bind (value : ρ) (after : ρ → Code κ β τ) :
    (done value >>= after) = after value := rfl

@[simp] theorem load_bind (cell : κ) (next : β → Code κ β ρ) (after : ρ → Code κ β τ) :
    (load cell next >>= after) = load cell fun value => next value >>= after := rfl

@[simp] theorem store_bind (cell : κ) (value : β) (next : Code κ β ρ) (after : ρ → Code κ β τ) :
    (store cell value next >>= after) = store cell value (next >>= after) := rfl

@[simp] theorem sync_bind (next : Code κ β ρ) (after : ρ → Code κ β τ) :
    (sync next >>= after) = sync (next >>= after) := rfl

@[simp] theorem spin_bind (after : ρ → Code κ β τ) : ((spin : Code κ β ρ) >>= after) = spin := rfl

@[simp] theorem barrier_bind (after : PUnit → Code κ β τ) :
    (barrier >>= after) = sync (after ⟨⟩) := rfl

/-- Nothing after a code is the code. -/
theorem bind_done (code : Code κ β ρ) : (code >>= done) = code := by
  induction code with
  | done value => rfl
  | load cell next inductionHypothesis => exact congrArg (load cell) (funext inductionHypothesis)
  | store cell value next inductionHypothesis =>
      exact congrArg (store cell value) inductionHypothesis
  | sync next inductionHypothesis => exact congrArg sync inductionHypothesis
  | spin => rfl

/-- Three codes, one after the other. -/
theorem bind_bind {σ : Type u} (code : Code κ β ρ) (first : ρ → Code κ β τ)
    (second : τ → Code κ β σ) :
    (code >>= first >>= second) = code >>= fun value => first value >>= second := by
  induction code with
  | done value => rfl
  | load cell next inductionHypothesis => exact congrArg (load cell) (funext inductionHypothesis)
  | store cell value next inductionHypothesis =>
      exact congrArg (store cell value) inductionHypothesis
  | sync next inductionHypothesis => exact congrArg sync inductionHypothesis
  | spin => rfl

instance : LawfulMonad (Code κ β) :=
  LawfulMonad.mk' _ bind_done (fun _ _ => rfl) bind_bind

variable [DecidableEq κ]

/-- A thread's next turn, unless it waits or is done. -/
def move : Code κ β ρ → (κ → β) → Option (Code κ β ρ × (κ → β))
  | load cell next, cells => some (next (cells cell), cells)
  | store cell value next, cells => some (next, Function.update cells cell value)
  | spin, cells => some (spin, cells)
  | done _, _ | sync _, _ => none

/-- How many turns a thread takes alone, up to its next barrier. -/
def turns : Code κ β ρ → (κ → β) → ℕ
  | load cell next, cells => (next (cells cell)).turns cells + 1
  | store cell value next, cells => next.turns (Function.update cells cell value) + 1
  | done _, _ | sync _, _ | spin, _ => 0

end Code

open Code

variable {κ β ρ τ : Type u} [DecidableEq κ]

/-- Cells that may be loaded, and cells that may be stored to. -/
structure Territory (κ : Type u) where
  reads : Set κ
  writes : Set κ

namespace Territory

/-- All cells of a territory. -/
def cells (area : Territory κ) : Set κ := area.reads ∪ area.writes

/-- One stores to no cell of the other. -/
def Spares (area other : Territory κ) : Prop := Disjoint area.writes other.cells

end Territory

variable (area : Territory κ)

/-- Alone, the thread keeps to its territory up to its next barrier or its end, where its code and
the memory are of `post`. -/
def Until : Code κ β ρ → (κ → β) → (Code κ β ρ → (κ → β) → Prop) → Prop
  | done value, cells, post => post (done value) cells
  | load cell next, cells, post => cell ∈ area.cells ∧ Until (next (cells cell)) cells post
  | store cell value next, cells, post =>
      cell ∈ area.writes ∧ Until next (Function.update cells cell value) post
  | sync next, cells, post => post (sync next) cells
  | spin, _, _ => False

/-- Alone, the thread keeps to its territory and comes to its end before a barrier, with a value and
a memory of `post`. -/
def Returns : Code κ β ρ → (κ → β) → (ρ → (κ → β) → Prop) → Prop
  | done value, cells, post => post value cells
  | load cell next, cells, post => cell ∈ area.cells ∧ Returns (next (cells cell)) cells post
  | store cell value next, cells, post =>
      cell ∈ area.writes ∧ Returns next (Function.update cells cell value) post
  | sync _, _, _ | spin, _, _ => False

/-! ## A thread alone -/

section Alone

variable {area} {code : Code κ β ρ} {cells : κ → β}

/-- A weaker statement of the end holds too. -/
theorem Returns.weaken {post post' : ρ → (κ → β) → Prop} (returns : Returns area code cells post)
    (weaker : ∀ value after, post value after → post' value after) :
    Returns area code cells post' := by
  induction code generalizing cells with
  | done value => exact weaker _ _ returns
  | load cell next inductionHypothesis =>
      exact ⟨returns.1, inductionHypothesis _ returns.2⟩
  | store cell value next inductionHypothesis =>
      exact ⟨returns.1, inductionHypothesis returns.2⟩
  | sync next => exact returns
  | spin => exact returns

/-- A thread that keeps to a territory keeps to a larger one. -/
theorem Returns.mono {post : ρ → (κ → β) → Prop} (returns : Returns area code cells post)
    {larger : Territory κ} (more : area.cells ⊆ larger.cells)
    (writes : area.writes ⊆ larger.writes) : Returns larger code cells post := by
  induction code generalizing cells with
  | done value => exact returns
  | load cell next inductionHypothesis =>
      exact ⟨more returns.1, inductionHypothesis _ returns.2⟩
  | store cell value next inductionHypothesis =>
      exact ⟨writes returns.1, inductionHypothesis returns.2⟩
  | sync next => exact returns
  | spin => exact returns

/-- Two codes, one after the other: the second starts where the first ends. -/
theorem Returns.bind {next : ρ → Code κ β τ} {post : τ → (κ → β) → Prop}
    (returns : Returns area code cells fun value after => Returns area (next value) after post) :
    Returns area (code >>= next) cells post := by
  induction code generalizing cells with
  | done value => exact returns
  | load cell first inductionHypothesis => exact ⟨returns.1, inductionHypothesis _ returns.2⟩
  | store cell value first inductionHypothesis => exact ⟨returns.1, inductionHypothesis returns.2⟩
  | sync first => exact returns.elim
  | spin => exact returns.elim

/-- A part that only looks leaves its value. -/
theorem Returns.look {reads : Set κ} (known : reads ⊆ area.cells) {value : ρ}
    (looks : Returns ⟨reads, ∅⟩ code cells fun result after => result = value ∧ after = cells)
    {next : ρ → Code κ β τ} {post : τ → (κ → β) → Prop}
    (later : Returns area (next value) cells post) : Returns area (code >>= next) cells post := by
  refine Returns.bind ((looks.mono ?_ (Set.empty_subset _)).weaken ?_)
  · exact Set.union_subset known (Set.empty_subset _)
  · rintro result after ⟨rfl, rfl⟩
    exact later

/-- A read in the territory goes on with the value. -/
theorem Returns.read {cell : κ} (known : cell ∈ area.cells) {next : β → Code κ β τ}
    {post : τ → (κ → β) → Prop} (later : Returns area (next (cells cell)) cells post) :
    Returns area (Code.read cell >>= next) cells post := ⟨known, later⟩

/-- A write in the territory goes on with the value in its cell. -/
theorem Returns.write {cell : κ} (own : cell ∈ area.writes) {value : β}
    {next : PUnit → Code κ β τ} {post : τ → (κ → β) → Prop}
    (later : Returns area (next ⟨⟩) (Function.update cells cell value) post) :
    Returns area (Code.write cell value >>= next) cells post := ⟨own, later⟩

/-- A code that returns and then one that comes to a barrier. -/
theorem Returns.until {next : ρ → Code κ β τ} {post : Code κ β τ → (κ → β) → Prop}
    (returns : Returns area code cells fun value after => Until area (next value) after post) :
    Until area (code >>= next) cells post := by
  induction code generalizing cells with
  | done value => exact returns
  | load cell first inductionHypothesis => exact ⟨returns.1, inductionHypothesis _ returns.2⟩
  | store cell value first inductionHypothesis => exact ⟨returns.1, inductionHypothesis returns.2⟩
  | sync first => exact returns.elim
  | spin => exact returns.elim

/-- A loop keeps what each of its turns keeps. -/
theorem Returns.foldlM {σ : Type u} {ι : Type*} {body : σ → ι → Code κ β σ} {items : List ι}
    (kept : List ι → σ → (κ → β) → Prop)
    (turn : ∀ before item later, items = before ++ item :: later → ∀ state cells,
      kept before state cells →
        Returns area (body state item) cells (kept (before ++ [item]))) {state : σ}
    {post : σ → (κ → β) → Prop} (start : kept [] state cells)
    (ends : ∀ state cells, kept items state cells → post state cells) :
    Returns area (items.foldlM body state) cells post := by
  suffices all : ∀ later before, items = before ++ later → ∀ state cells, kept before state cells →
      Returns area (later.foldlM body state) cells (kept items) from
    (all items [] rfl state cells start).weaken ends
  intro later
  induction later with
  | nil =>
      intro before split state cells holds
      rw [split, List.append_nil]
      exact holds
  | cons item later inductionHypothesis =>
      intro before split state cells holds
      rw [List.foldlM_cons]
      refine Returns.bind ((turn before item later split state cells holds).weaken ?_)
      intro state cells holds
      exact inductionHypothesis (before ++ [item]) (by rw [split, List.append_assoc]; rfl) _ _ holds

/-- Components that are each computed from themselves and from what is looked up. -/
theorem Returns.components {α : Type u} {n : ℕ} {reads : Set κ} (body : Fin n → α → Code κ β α)
    {start : Fin n → α} (value : Fin n → α)
    (each : ∀ p, Returns ⟨reads, ∅⟩ (body p (start p)) cells fun v m => v = value p ∧ m = cells) :
    Returns ⟨reads, ∅⟩ ((List.finRange n).foldlM (fun xs p => do
      let v ← body p (xs p)
      return Function.update xs p v) start) cells fun xs m => xs = value ∧ m = cells := by
  refine Returns.foldlM (fun before xs m => m = cells ∧
    ∀ p, xs p = if p ∈ before then value p else start p) ?_ ⟨rfl, fun p => rfl⟩ ?_
  · rintro before p later split xs m ⟨rfl, filled⟩
    have fresh : p ∉ before := by
      have distinct := List.nodup_finRange n
      rw [split, List.nodup_append] at distinct
      exact fun seen => distinct.2.2 p seen p List.mem_cons_self rfl
    have own : xs p = start p := (filled p).trans (if_neg fresh)
    refine Returns.look Set.subset_union_left (own ▸ each p) ⟨rfl, fun p' => ?_⟩
    by_cases last : p' = p
    · subst last
      rw [Function.update_self, if_pos (List.mem_append_right _ List.mem_cons_self)]
    · rw [Function.update_of_ne last, filled p']
      simp only [List.mem_append, List.mem_singleton, last, or_false]
  · rintro xs m ⟨rfl, filled⟩
    exact ⟨funext fun p => (filled p).trans (if_pos (List.mem_finRange p)), rfl⟩

/-- Stores, each under its guard, that give a cell one value. -/
theorem returns_writes {ι : Type*} {items : List ι} {body : PUnit → ι → Code κ β PUnit}
    {guard : ι → Prop} [DecidablePred guard] {place : ι → κ} {value : ι → β}
    (stores : ∀ state i, body state i =
      if guard i then Code.write (place i) (value i) else pure ⟨⟩)
    (own : ∀ i ∈ items, guard i → place i ∈ area.writes)
    (one : ∀ i ∈ items, ∀ j ∈ items, guard i → guard j → place i = place j → value i = value j) :
    Returns area (items.foldlM body ⟨⟩) cells fun _ m =>
      ∀ i ∈ items, guard i → m (place i) = value i := by
  refine Returns.foldlM (fun before _ m => ∀ i ∈ before, guard i → m (place i) = value i) ?_
    (fun i none_ => absurd none_ List.not_mem_nil) fun _ _ ends => ends
  intro before j later split state m stored
  have listed : j ∈ items := split ▸ List.mem_append_cons_self
  rw [stores]
  split
  next there =>
    refine ⟨own j listed there, fun i member guarded => ?_⟩
    by_cases again : place i = place j
    · have early : i ∈ items := by
        rw [split]
        rcases List.mem_append.1 member with earlier | last
        · exact List.mem_append_left _ earlier
        · exact List.mem_append_right _ (List.mem_singleton.1 last ▸ List.mem_cons_self)
      rw [again, Function.update_self, one i early j listed guarded there again]
    · rw [Function.update_of_ne again]
      rcases List.mem_append.1 member with earlier | last
      · exact stored i earlier guarded
      · exact absurd (congrArg place (List.mem_singleton.1 last)) again
  next none_ =>
    refine fun i member guarded => ?_
    rcases List.mem_append.1 member with earlier | last
    · exact stored i earlier guarded
    · exact absurd (List.mem_singleton.1 last ▸ guarded) none_

/-- A list of writes that agree leaves all their values. -/
theorem returns_all_writes {ι : Type*} {items : List ι} {place : ι → κ} {value : ι → β}
    (own : ∀ i ∈ items, place i ∈ area.writes)
    (one : ∀ i ∈ items, ∀ j ∈ items, place i = place j → value i = value j) :
    Returns area (items.foldlM (fun _ i => Code.write (place i) (value i)) ⟨⟩) cells fun _ m =>
      ∀ i ∈ items, m (place i) = value i := by
  have always (state : PUnit) (i : ι) : (Code.write (place i) (value i) : Code κ β PUnit) =
      if True then Code.write (place i) (value i) else pure ⟨⟩ := (if_pos trivial).symm
  refine (returns_writes always (fun i listed _ => own i listed)
    fun i listed j listed' _ _ same => one i listed j listed' same).weaken ?_
  exact fun _ m written i listed => written i listed trivial

/-- Turns of a loop that each fill their own places with one content. -/
theorem returns_fills {ι : Type*} {items : List ι} {body : PUnit → ι → Code κ β PUnit}
    {reads own : Set κ} (content : κ → β) (places : ι → Set κ)
    (unread : ∀ i ∈ items, ∀ cell ∈ places i, cell ∉ reads)
    (fills : ∀ i ∈ items, ∀ m, (∀ cell ∈ reads, m cell = cells cell) →
      Returns ⟨reads, own⟩ (body ⟨⟩ i) m fun _ after =>
        (∀ cell ∉ places i, after cell = m cell) ∧ ∀ cell ∈ places i, after cell = content cell) :
    Returns ⟨reads, own⟩ (items.foldlM body ⟨⟩) cells fun _ m =>
      ∀ i ∈ items, ∀ cell ∈ places i, m cell = content cell := by
  refine Returns.foldlM (fun before _ m => (∀ cell ∈ reads, m cell = cells cell) ∧
    ∀ i ∈ before, ∀ cell ∈ places i, m cell = content cell) ?_
    ⟨fun _ _ => rfl, fun i none_ => absurd none_ List.not_mem_nil⟩ fun _ _ ends => ends.2
  rintro before i later split ⟨⟩ m ⟨kept, filled⟩
  have listed : i ∈ items := split ▸ List.mem_append_cons_self
  refine (fills i listed m kept).weaken ?_
  rintro - after ⟨others, here⟩
  refine ⟨fun cell source => ?_, fun i' member cell inside => ?_⟩
  · exact (others cell fun inside => unread i listed cell inside source).trans (kept cell source)
  · by_cases again : cell ∈ places i
    · exact here cell again
    · rcases List.mem_append.1 member with earlier | last
      · exact (others cell again).trans (filled i' earlier cell inside)
      · exact absurd (List.mem_singleton.1 last ▸ inside) again

/-- A thread alone looks at its own territory only. -/
theorem Until.congr {other : κ → β} {post : Code κ β ρ → (κ → β) → Prop}
    (runs : Until area code cells post) (same : ∀ cell ∈ area.cells, cells cell = other cell) :
    Until area code other (fun stop after => ∃ after', post stop after' ∧
      ∀ cell ∈ area.cells, after' cell = after cell) ∧ code.turns cells = code.turns other := by
  induction code generalizing cells other with
  | done value => exact ⟨⟨cells, runs, same⟩, rfl⟩
  | load cell next inductionHypothesis =>
      have next_same := inductionHypothesis (cells cell) runs.2 same
      rw [turns, turns, ← same cell runs.1]
      refine ⟨⟨runs.1, ?_⟩, congrArg (· + 1) next_same.2⟩
      rw [← same cell runs.1]
      exact next_same.1
  | store cell value next inductionHypothesis =>
      have agree : ∀ place ∈ area.cells,
          Function.update cells cell value place = Function.update other cell value place := by
        intro place inside
        by_cases here : place = cell
        · rw [here, Function.update_self, Function.update_self]
        · rw [Function.update_of_ne here, Function.update_of_ne here, same place inside]
      have next_same := inductionHypothesis runs.2 agree
      exact ⟨⟨runs.1, next_same.1⟩, congrArg (· + 1) next_same.2⟩
  | sync next => exact ⟨⟨cells, runs, same⟩, rfl⟩
  | spin => exact runs.elim

/-- A turn of a thread that keeps to its territory. -/
theorem Until.move {post : Code κ β ρ → (κ → β) → Prop} (runs : Until area code cells post)
    {next : Code κ β ρ} {after : κ → β} (moves : code.move cells = some (next, after)) :
    Until area next after post ∧ code.turns cells = next.turns after + 1 ∧
      ∀ cell ∉ area.writes, after cell = cells cell := by
  cases code with
  | done value => cases moves
  | load cell later =>
      cases moves
      exact ⟨runs.2, rfl, fun _ _ => rfl⟩
  | store cell value later =>
      cases moves
      refine ⟨runs.2, rfl, fun place outside => Function.update_of_ne ?_ _ _⟩
      rintro rfl
      exact outside runs.1
  | sync later => cases moves
  | spin => exact runs.elim

/-- A thread that has no turn is at a barrier or at its end. -/
theorem Until.rest {post : Code κ β ρ → (κ → β) → Prop} (runs : Until area code cells post)
    (still : code.move cells = none) : post code cells := by
  cases code with
  | done value => exact runs
  | load cell later => cases still
  | store cell value later => cases still
  | sync later => exact runs
  | spin => cases still

/-- A weaker statement of the stop holds too. -/
theorem Until.weaken {post post' : Code κ β ρ → (κ → β) → Prop} (runs : Until area code cells post)
    (weaker : ∀ stop after, post stop after → post' stop after) : Until area code cells post' := by
  induction code generalizing cells with
  | done value => exact weaker _ _ runs
  | load cell next inductionHypothesis => exact ⟨runs.1, inductionHypothesis _ runs.2⟩
  | store cell value next inductionHypothesis => exact ⟨runs.1, inductionHypothesis runs.2⟩
  | sync next => exact weaker _ _ runs
  | spin => exact runs

end Alone

/-! ## A group alone -/

variable {ι : Type*} [Fintype ι] [DecidableEq ι]

/-- A group that runs in its territory alone, with the turns it takes: between two barriers no
thread stores to a cell of another's. -/
inductive Solo : ℕ → (ι → Code κ β PUnit) → (κ → β) → (κ → β) → Prop
  | ended {code : ι → Code κ β PUnit} {cells final : κ → β} (done : ∀ i, code i = .done ⟨⟩)
      (same : ∀ cell ∈ area.writes, cells cell = final cell) : Solo 0 code cells final
  | sync {n : ℕ} {next : ι → Code κ β PUnit} {cells final : κ → β}
      (later : Solo n next cells final) : Solo (n + 1) (fun i => .sync (next i)) cells final
  | phase {n : ℕ} {code stop : ι → Code κ β PUnit} {cells after final : κ → β}
      (foot : ι → Territory κ)
      (inside : ∀ i, (foot i).cells ⊆ area.cells ∧ (foot i).writes ⊆ area.writes)
      (apart : Pairwise fun i j => (foot i).Spares (foot j))
      (runs : ∀ i, Until (foot i) (code i) cells fun c m =>
        c = stop i ∧ ∀ cell ∈ (foot i).writes, m cell = after cell)
      (rest : ∀ cell, (∀ i, cell ∉ (foot i).writes) → after cell = cells cell)
      (later : Solo n stop after final) :
      Solo (n + ∑ i, (code i).turns cells) code cells final

section Group

variable {area} {n : ℕ} {code : ι → Code κ β PUnit} {cells final : κ → β}

omit [DecidableEq ι] in
/-- A group looks at its territory only. -/
theorem Solo.congr (solo : Solo area n code cells final) {other : κ → β}
    (same : ∀ cell ∈ area.cells, cells cell = other cell) : Solo area n code other final := by
  classical
  induction solo generalizing other with
  | ended done ends =>
      exact .ended done fun cell inside => (same cell (.inr inside)).symm.trans (ends cell inside)
  | sync later inductionHypothesis => exact .sync (inductionHypothesis same)
  | @phase n code stop cells after final foot inside apart runs rest later inductionHypothesis =>
      have kept (i : ι) := (runs i).congr fun cell mine => same cell ((inside i).1 mine)
      have turns : ∑ i, (code i).turns cells = ∑ i, (code i).turns other :=
        Finset.sum_congr rfl fun i _ => (kept i).2
      rw [turns]
      let after' : κ → β := fun cell =>
        if ∃ i, cell ∈ (foot i).writes then after cell else other cell
      have written {i : ι} {cell : κ} (mine : cell ∈ (foot i).writes) : after' cell = after cell :=
        if_pos ⟨i, mine⟩
      have onward : Solo area n stop after' final := inductionHypothesis fun cell mine => by
        by_cases stored : ∃ i, cell ∈ (foot i).writes
        · exact (if_pos stored).symm
        · rw [rest cell fun i mine => stored ⟨i, mine⟩, same cell mine]
          exact (if_neg stored).symm
      refine .phase foot inside apart (fun i => (kept i).1.weaken ?_) (fun cell unwritten => ?_)
        onward
      · rintro c m ⟨m', ⟨rfl, stored⟩, agree⟩
        refine ⟨rfl, fun cell mine => ?_⟩
        rw [written mine, ← stored cell mine, agree cell (.inr mine)]
      · exact if_neg (not_exists.2 unwritten)

omit [DecidableEq ι] in
/-- Only the cells that the group may store to count at its end. -/
theorem Solo.target (solo : Solo area n code cells final) {other : κ → β}
    (same : ∀ cell ∈ area.writes, other cell = final cell) : Solo area n code cells other := by
  induction solo with
  | ended done ends =>
      exact .ended done fun cell mine => (ends cell mine).trans (same cell mine).symm
  | sync _ inductionHypothesis => exact .sync (inductionHypothesis same)
  | phase foot inside apart runs rest _ inductionHypothesis =>
      exact .phase foot inside apart runs rest (inductionHypothesis same)

/-- A thread's turn brings the group one turn nearer to its end. -/
theorem Solo.turn (solo : Solo area n code cells final) {i : ι} {next : Code κ β PUnit}
    {after : κ → β} (moves : (code i).move cells = some (next, after)) :
    (∃ left, n = left + 1 ∧ Solo area left (Function.update code i next) after final) ∧
      ∀ cell ∉ area.writes, after cell = cells cell := by
  cases solo with
  | ended done same =>
      rw [done i] at moves
      cases moves
  | sync later => cases moves
  | @phase n code stop cells after' final foot inside apart runs rest later =>
      obtain ⟨onward, fewer, kept⟩ := (runs i).move moves
      have agree (j : ι) (other : j ≠ i) : ∀ cell ∈ (foot j).cells, cells cell = after cell :=
        fun cell mine =>
          (kept cell fun stored => (Set.disjoint_left.1 (apart other.symm)) stored mine).symm
      have others (j : ι) (other : j ≠ i) := (runs j).congr (agree j other)
      have turns (j : ι) : (code j).turns cells =
          (Function.update code i next j).turns after + if j = i then 1 else 0 := by
        by_cases here : j = i
        · subst here
          rw [Function.update_self, if_pos rfl, fewer]
        · rw [Function.update_of_ne here, if_neg here, (others j here).2, Nat.add_zero]
      refine ⟨⟨n + ∑ j, (Function.update code i next j).turns after, ?_, ?_⟩,
        fun cell outside => kept cell fun mine => outside ((inside i).2 mine)⟩
      · rw [Finset.sum_congr rfl fun j _ => turns j, Finset.sum_add_distrib, Finset.sum_ite_eq',
          if_pos (Finset.mem_univ i), Nat.add_assoc]
      · refine .phase foot inside apart (fun j => ?_) (fun cell unwritten => ?_) later
        · by_cases here : j = i
          · subst here
            rw [Function.update_self]
            exact onward
          · rw [Function.update_of_ne here]
            refine (others j here).1.weaken ?_
            rintro c m ⟨m', ⟨rfl, stored⟩, agree⟩
            exact ⟨rfl, fun cell mine => by rw [← stored cell mine, agree cell (.inr mine)]⟩
        · rw [rest cell unwritten, kept cell (unwritten i)]

omit [DecidableEq ι] in
/-- A group none of whose threads has a turn is at its end, or at a barrier. -/
theorem Solo.rest (solo : Solo area n code cells final)
    (still : ∀ i, (code i).move cells = none) :
    ((∀ i, code i = .done ⟨⟩) ∧ ∀ cell ∈ area.writes, cells cell = final cell) ∨
      ∃ (left : ℕ) (next : ι → Code κ β PUnit), n = left + 1 ∧ code = (fun i => .sync (next i)) ∧
        Solo area left next cells final := by
  induction solo with
  | ended done same => exact .inl ⟨done, same⟩
  | sync later => exact .inr ⟨_, _, rfl, rfl, later⟩
  | @phase n code stop cells after final foot inside apart runs rest later inductionHypothesis =>
      have ends (i : ι) := (runs i).rest (still i)
      obtain rfl : code = stop := funext fun i => (ends i).1
      obtain rfl : after = cells := funext fun cell => by
        by_cases stored : ∃ i, cell ∈ (foot i).writes
        · obtain ⟨i, mine⟩ := stored
          exact ((ends i).2 cell mine).symm
        · exact rest cell fun i mine => stored ⟨i, mine⟩
      have none_left : ∑ i, (code i).turns after = 0 :=
        Finset.sum_eq_zero fun i _ => by
          have quiet := still i
          revert quiet
          cases code i <;> simp [Code.move, Code.turns]
      rw [none_left, Nat.add_zero]
      exact inductionHypothesis still

end Group

/-! ## All groups -/

/-- The threads of the groups, and the memory. -/
structure State (γ : Type*) (ι : Type*) (κ β : Type u) where
  code : γ → ι → Code κ β PUnit
  cells : κ → β

variable {γ : Type*} [Fintype γ] [DecidableEq γ]

/-- A thread takes a turn, or a group whose threads all wait goes on. -/
inductive Step : State γ ι κ β → State γ ι κ β → Prop
  | turn {state : State γ ι κ β} {group : γ} {thread : ι} {next : Code κ β PUnit} {cells : κ → β}
      (moves : (state.code group thread).move state.cells = some (next, cells)) :
      Step state ⟨Function.update state.code group
        (Function.update (state.code group) thread next), cells⟩
  | release {state : State γ ι κ β} {group : γ} {next : ι → Code κ β PUnit}
      (waiting : state.code group = fun thread => .sync (next thread)) :
      Step state ⟨Function.update state.code group next, state.cells⟩

/-- No run goes on for ever, and every run that cannot go on has ended in a state of `post`. -/
def Settles {σ : Type*} (step : σ → σ → Prop) (start : σ) (post : σ → Prop) : Prop :=
  Acc (fun next state => step state next) start ∧
    ∀ state, Relation.ReflTransGen step start state → (∀ next, ¬ step state next) → post state

/-- A group ends alone, with a memory of `post` on the cells it may store to. -/
def Finishes (area : Territory κ) (code : ι → Code κ β PUnit) (cells : κ → β)
    (post : (κ → β) → Prop) : Prop :=
  ∃ n final, Solo area n code cells final ∧ post final

section Stages

variable {area} {code : ι → Code κ β PUnit} {cells : κ → β} {post : (κ → β) → Prop}

omit [DecidableEq ι] in
/-- The threads do a part of their code each, and wait for each other. -/
theorem Finishes.stage {body : ι → Code κ β ρ} {next : ι → ρ → Code κ β PUnit}
    (foot : ι → Territory κ) (value : ι → ρ) (after : κ → β)
    (inside : ∀ i, (foot i).cells ⊆ area.cells ∧ (foot i).writes ⊆ area.writes)
    (apart : Pairwise fun i j => (foot i).Spares (foot j))
    (returns : ∀ i, Returns (foot i) (body i) cells fun result m =>
      result = value i ∧ ∀ cell ∈ (foot i).writes, m cell = after cell)
    (rest : ∀ cell, (∀ i, cell ∉ (foot i).writes) → after cell = cells cell)
    (later : Finishes area (fun i => next i (value i)) after post) :
    Finishes area (fun i => body i >>= fun result => Code.barrier >>= fun _ => next i result)
      cells post := by
  obtain ⟨n, final, solo, ends⟩ := later
  refine ⟨_, final, .phase foot inside apart (fun i => ?_) rest (.sync solo), ends⟩
  refine ((returns i).weaken ?_).until
  rintro result m ⟨rfl, stored⟩
  exact ⟨rfl, stored⟩

omit [DecidableEq ι] in
/-- The threads do what is left of their code. -/
theorem Finishes.last {body : ι → Code κ β PUnit} (foot : ι → Territory κ) (after : κ → β)
    (inside : ∀ i, (foot i).cells ⊆ area.cells ∧ (foot i).writes ⊆ area.writes)
    (apart : Pairwise fun i j => (foot i).Spares (foot j))
    (returns : ∀ i, Returns (foot i) (body i) cells fun _ m =>
      ∀ cell ∈ (foot i).writes, m cell = after cell)
    (rest : ∀ cell, (∀ i, cell ∉ (foot i).writes) → after cell = cells cell) (ends : post after) :
    Finishes area body cells post := by
  have ended : Solo area 0 (fun _ : ι => .done ⟨⟩) after after :=
    .ended (fun _ => rfl) fun _ _ => rfl
  refine ⟨_, after, .phase foot inside apart (fun i => ?_) rest ended, ends⟩
  rw [← Code.bind_done (body i)]
  refine ((returns i).weaken fun _ m stored => ?_).until
  exact ⟨rfl, stored⟩

omit [DecidableEq κ] [DecidableEq ι] in
/-- The memory after threads have stored to the cells that have an owner. -/
def owned (owner : κ → Option ι) (content cells : κ → β) (cell : κ) : β :=
  if (owner cell).isSome then content cell else cells cell

omit [DecidableEq κ] [Fintype ι] [DecidableEq ι] in
/-- A cell of an owner has the owner's content. -/
theorem owned_of_some {owner : κ → Option ι} {content cells : κ → β} {cell : κ} {i : ι}
    (mine : owner cell = some i) : owned owner content cells cell = content cell :=
  if_pos (mine ▸ rfl)

omit [DecidableEq κ] [Fintype ι] [DecidableEq ι] in
/-- A cell of no owner stays. -/
theorem owned_of_none {owner : κ → Option ι} {content cells : κ → β} {cell : κ}
    (unowned : owner cell = none) : owned owner content cells cell = cells cell :=
  if_neg (by rw [unowned]; exact Bool.false_ne_true)

section Owners

variable {owner : κ → Option ι} {content : κ → β} {reads : Set κ}

omit [DecidableEq κ] [Fintype ι] [DecidableEq ι] in
/-- Threads that store to their own cells only keep out of each other's. -/
theorem owners_apart (unowned : ∀ cell ∈ reads, owner cell = none) :
    Pairwise fun i j : ι => Territory.Spares (⟨reads, {cell | owner cell = some i}⟩ : Territory κ)
      ⟨reads, {cell | owner cell = some j}⟩ := by
  intro i j other
  refine Set.disjoint_left.2 ?_
  rintro cell mine (source | yours)
  · exact Option.some_ne_none i (mine.symm.trans (unowned cell source))
  · exact other (Option.some.inj (mine.symm.trans yours))

omit [DecidableEq ι] in
/-- The threads each store to their own cells, and wait for each other. -/
theorem Finishes.fill {body : ι → Code κ β ρ} {next : ι → ρ → Code κ β PUnit}
    (owner : κ → Option ι) (content : κ → β) (value : ι → ρ)
    (known : reads ⊆ area.cells) (own : ∀ cell i, owner cell = some i → cell ∈ area.writes)
    (unowned : ∀ cell ∈ reads, owner cell = none)
    (returns : ∀ i, Returns ⟨reads, {cell | owner cell = some i}⟩ (body i) cells fun result m =>
      result = value i ∧ ∀ cell, owner cell = some i → m cell = content cell)
    (later : Finishes area (fun i => next i (value i)) (owned owner content cells) post) :
    Finishes area (fun i => body i >>= fun result => Code.barrier >>= fun _ => next i result)
      cells post := by
  refine .stage (fun i => ⟨reads, {cell | owner cell = some i}⟩) value _
    (fun i => ⟨?_, fun cell => own cell i⟩) (owners_apart unowned)
    (fun i => (returns i).weaken ?_) (fun cell unwritten => ?_) later
  · exact Set.union_subset known fun cell mine => .inr (own cell i mine)
  · rintro result m ⟨rfl, stored⟩
    exact ⟨rfl, fun cell mine => (stored cell mine).trans (owned_of_some mine).symm⟩
  · exact owned_of_none (Option.eq_none_iff_forall_not_mem.2 fun i mine => unwritten i mine)

omit [DecidableEq ι] in
/-- The threads each store to their own cells, and are done. -/
theorem Finishes.fillLast {body : ι → Code κ β PUnit} (owner : κ → Option ι) (content : κ → β)
    (known : reads ⊆ area.cells)
    (own : ∀ cell i, owner cell = some i → cell ∈ area.writes)
    (unowned : ∀ cell ∈ reads, owner cell = none)
    (returns : ∀ i, Returns ⟨reads, {cell | owner cell = some i}⟩ (body i) cells fun _ m =>
      ∀ cell, owner cell = some i → m cell = content cell)
    (ends : post (owned owner content cells)) : Finishes area body cells post := by
  refine .last (fun i => ⟨reads, {cell | owner cell = some i}⟩) _
    (fun i => ⟨?_, fun cell => own cell i⟩) (owners_apart unowned)
    (fun i => (returns i).weaken ?_) (fun cell unwritten => ?_) ends
  · exact Set.union_subset known fun cell mine => .inr (own cell i mine)
  · exact fun _ m stored cell mine => (stored cell mine).trans (owned_of_some mine).symm
  · exact owned_of_none (Option.eq_none_iff_forall_not_mem.2 fun i mine => unwritten i mine)

end Owners

omit [DecidableEq ι] in
/-- Turn after turn of a loop that all threads take. -/
theorem Finishes.loop {σ : Type u} {α : Type*} {body : ι → σ → α → Code κ β σ}
    {next : ι → σ → Code κ β PUnit} (items : List α) (state : List α → ι → σ)
    (memory : List α → κ → β)
    (turn : ∀ before item later, items = before ++ item :: later →
      ∀ onward : ι → σ → Code κ β PUnit,
        Finishes area (fun i => onward i (state (before ++ [item]) i)) (memory (before ++ [item]))
          post →
        Finishes area (fun i => body i (state before i) item >>= onward i) (memory before) post)
    (later : Finishes area (fun i => next i (state items i)) (memory items) post) :
    Finishes area (fun i => items.foldlM (body i) (state [] i) >>= next i) (memory []) post := by
  suffices all : ∀ later before, items = before ++ later →
      Finishes area (fun i => later.foldlM (body i) (state before i) >>= next i) (memory before)
        post from all items [] rfl
  intro left
  induction left with
  | nil =>
      intro before split
      rw [List.append_nil] at split
      exact split ▸ later
  | cons item left inductionHypothesis =>
      intro before split
      simp only [List.foldlM_cons, bind_assoc]
      exact turn before item left split _
        (inductionHypothesis (before ++ [item]) (by rw [split, List.append_assoc]; rfl))

end Stages

/-- What holds of a dispatch after any of its steps: each group still ends as it would alone. -/
structure Underway (areas : γ → Territory κ) (final : κ → β) (n : γ → ℕ)
    (state : State γ ι κ β) : Prop where
  solo : ∀ g, Solo (areas g) (n g) (state.code g) state.cells final
  rest : ∀ cell, (∀ g, cell ∉ (areas g).writes) → state.cells cell = final cell

section Dispatch

variable {areas : γ → Territory κ} {final : κ → β} {n : γ → ℕ} {state next : State γ ι κ β}

/-- One step takes one turn of one group. -/
theorem Underway.step [Nonempty ι] (underway : Underway areas final n state)
    (apart : Pairwise fun g h => (areas g).Spares (areas h)) (steps : Step state next) :
    ∃ m, Underway areas final m next ∧ ∑ g, n g = ∑ g, m g + 1 := by
  have counted {group : γ} {left : ℕ} (one : n group = left + 1) :
      ∑ g, n g = ∑ g, Function.update n group left g + 1 := by
    have each (g : γ) : n g = Function.update n group left g + if g = group then 1 else 0 := by
      by_cases here : g = group
      · subst here
        rw [Function.update_self, if_pos rfl, one]
      · rw [Function.update_of_ne here, if_neg here, Nat.add_zero]
    rw [Finset.sum_congr rfl fun g _ => each g, Finset.sum_add_distrib, Finset.sum_ite_eq',
      if_pos (Finset.mem_univ group)]
  cases steps with
  | @turn group thread code cells moves =>
      obtain ⟨⟨left, one, onward⟩, kept⟩ := (underway.solo group).turn moves
      refine ⟨Function.update n group left, ⟨fun g => ?_, fun cell outside => ?_⟩, counted one⟩
      · by_cases here : g = group
        · subst here
          simp only [Function.update_self]
          exact onward
        · simp only [Function.update_of_ne here]
          exact (underway.solo g).congr fun cell mine =>
            (kept cell fun stored => Set.disjoint_left.1 (apart (Ne.symm here)) stored mine).symm
      · exact (kept cell (outside group)).trans (underway.rest cell outside)
  | @release group code waiting =>
      have still (i : ι) : (state.code group i).move state.cells = none := by
        rw [waiting]
        rfl
      rcases (underway.solo group).rest still with ⟨done, -⟩ | ⟨left, next, one, here, later⟩
      · have ended := done (Classical.arbitrary ι)
        rw [waiting] at ended
        cases ended
      · obtain rfl : next = code := funext fun i => by
          have both := congrFun (here.symm.trans waiting) i
          exact Code.sync.inj both
        refine ⟨Function.update n group left, ⟨fun g => ?_, underway.rest⟩, counted one⟩
        by_cases here : g = group
        · subst here
          simp only [Function.update_self]
          exact later
        · simp only [Function.update_of_ne here]
          exact underway.solo g

/-- A dispatch that cannot go on has ended. -/
theorem Underway.ended (underway : Underway areas final n state)
    (stuck : ∀ next, ¬ Step state next) :
    (∀ g i, state.code g i = .done ⟨⟩) ∧ state.cells = final := by
  have at_end (g : γ) : (∀ i, state.code g i = .done ⟨⟩) ∧
      ∀ cell ∈ (areas g).writes, state.cells cell = final cell := by
    have still (i : ι) : (state.code g i).move state.cells = none := by
      cases moves : (state.code g i).move state.cells with
      | none => rfl
      | some moved =>
          obtain ⟨next, cells⟩ := moved
          exact (stuck _ (.turn moves)).elim
    rcases (underway.solo g).rest still with ended | ⟨left, next, -, waiting, -⟩
    · exact ended
    · exact (stuck _ (.release waiting)).elim
  refine ⟨fun g => (at_end g).1, funext fun cell => ?_⟩
  by_cases stored : ∃ g, cell ∈ (areas g).writes
  · obtain ⟨g, mine⟩ := stored
    exact (at_end g).2 cell mine
  · exact underway.rest cell fun g mine => stored ⟨g, mine⟩

/-- Groups that keep out of each other's cells, and each of which ends alone, end together in every
order of their turns. -/
theorem settles_of_finishes [Nonempty ι] {code : γ → ι → Code κ β PUnit} {cells : κ → β}
    {post : γ → (κ → β) → Prop} (apart : Pairwise fun g h => (areas g).Spares (areas h))
    (finishes : ∀ g, Finishes (areas g) (code g) cells (post g)) :
    Settles Step ⟨code, cells⟩ fun state : State γ ι κ β =>
      (∀ g i, state.code g i = .done ⟨⟩) ∧
        (∀ g, ∃ final, post g final ∧ ∀ cell ∈ (areas g).writes, state.cells cell = final cell) ∧
        ∀ cell, (∀ g, cell ∉ (areas g).writes) → state.cells cell = cells cell := by
  classical
  choose n final solo ends using finishes
  -- the memory that all groups leave together
  let all : κ → β := fun cell =>
    if stored : ∃ g, cell ∈ (areas g).writes then final stored.choose cell else cells cell
  have all_of (g : γ) (cell : κ) (mine : cell ∈ (areas g).writes) : all cell = final g cell := by
    have stored : ∃ g, cell ∈ (areas g).writes := ⟨g, mine⟩
    have same : stored.choose = g := by
      by_contra other
      exact Set.disjoint_left.1 (apart other) stored.choose_spec (.inr mine)
    rw [show all cell = final stored.choose cell from dif_pos stored, same]
  have all_off (cell : κ) (outside : ∀ g, cell ∉ (areas g).writes) : all cell = cells cell :=
    dif_neg (not_exists.2 outside)
  have start : Underway areas all n (⟨code, cells⟩ : State γ ι κ β) :=
    ⟨fun g => (solo g).target (all_of g), fun cell outside => (all_off cell outside).symm⟩
  constructor
  · -- each step takes one turn of those that are left
    obtain ⟨left, counted⟩ : ∃ left, ∑ g, n g = left := ⟨_, rfl⟩
    revert start counted
    generalize (⟨code, cells⟩ : State γ ι κ β) = state
    intro start counted
    clear solo
    induction left generalizing n state with
    | zero =>
        refine ⟨_, fun next steps => ?_⟩
        obtain ⟨m, -, one⟩ := start.step apart steps
        omega
    | succ left inductionHypothesis =>
        refine ⟨_, fun next steps => ?_⟩
        obtain ⟨m, onward, one⟩ := start.step apart steps
        exact inductionHypothesis m next onward (by omega)
  · intro state run stuck
    obtain ⟨m, underway⟩ : ∃ m, Underway areas all m state := by
      clear stuck
      induction run with
      | refl => exact ⟨n, start⟩
      | tail _ steps inductionHypothesis =>
          obtain ⟨m, underway⟩ := inductionHypothesis
          obtain ⟨m', onward, -⟩ := underway.step apart steps
          exact ⟨m', onward⟩
    obtain ⟨done, same⟩ := underway.ended stuck
    refine ⟨done, fun g => ⟨final g, ends g, fun cell mine => ?_⟩, fun cell outside => ?_⟩
    · rw [same, all_of g cell mine]
    · rw [same, all_off cell outside]

/-- Groups that each have their own cells, and leave in the cells of their results what they are to
hold, leave all results together in every order of their turns, and every other cell alone. -/
theorem settles_of_homes [Nonempty ι] {δ : Type*} {code : γ → ι → Code κ β PUnit} {cells : κ → β}
    (name : γ → δ) (injective : Function.Injective name) (home : κ → Option δ) {reads : Set κ}
    (unowned : ∀ cell ∈ reads, home cell = none) {result : κ → Prop} {content : κ → β}
    (finishes : ∀ g, Finishes ⟨reads, {cell | home cell = some (name g)}⟩ (code g) cells fun m =>
      ∀ cell, home cell = some (name g) → result cell → m cell = content cell) :
    Settles Step ⟨code, cells⟩ fun state : State γ ι κ β =>
      (∀ g i, state.code g i = .done ⟨⟩) ∧
        (∀ cell g, home cell = some (name g) → result cell → state.cells cell = content cell) ∧
        ∀ cell, (∀ g, home cell ≠ some (name g)) → state.cells cell = cells cell := by
  have apart : Pairwise fun g h : γ => Territory.Spares
      (⟨reads, {cell | home cell = some (name g)}⟩ : Territory κ)
      ⟨reads, {cell | home cell = some (name h)}⟩ := by
    intro g h other
    refine Set.disjoint_left.2 ?_
    rintro cell mine (source | yours)
    · exact Option.some_ne_none _ (mine.symm.trans (unowned cell source))
    · exact other (injective (Option.some.inj (mine.symm.trans yours)))
  obtain ⟨ends, all⟩ := settles_of_finishes apart finishes
  refine ⟨ends, fun state run stuck => ?_⟩
  obtain ⟨done, left, kept⟩ := all state run stuck
  refine ⟨done, fun cell g mine wanted => ?_, kept⟩
  obtain ⟨final, holds, same⟩ := left g
  exact (same cell mine).trans (holds cell mine wanted)

end Dispatch
end DressOn.ThreadGroups
