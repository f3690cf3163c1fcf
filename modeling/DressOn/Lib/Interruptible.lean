/-!
# Code that may be killed between any two steps

Guest code works on a memory of its own and calls a host. Whoever runs it may kill it at any
point: the memory then stays as the last step left it, and so does the host. `Safe` says of a code
what holds at every such point and what holds at its end, and follows the code's structure.
-/

namespace DressOn.Interruptible

/-- Guest code: it returns, traps, works on its memory or calls the host. -/
inductive Code (Memory Call : Type) (Answer : Call → Type) (α : Type) : Type
  | done (value : α)
  | trap
  | memory (work : Memory → Memory) (rest : Memory → Code Memory Call Answer α)
  | host (call : Call) (rest : Answer call → Code Memory Call Answer α)

variable {Memory Call World : Type} {Answer : Call → Type} {α β : Type}

namespace Code

/-- One code after another. -/
def andThen (next : α → Code Memory Call Answer β) :
    Code Memory Call Answer α → Code Memory Call Answer β
  | done value => next value
  | trap => trap
  | memory work rest => memory work fun after => andThen next (rest after)
  | host call rest => host call fun answer => andThen next (rest answer)

instance : Monad (Code Memory Call Answer) where
  pure := done
  bind code next := andThen next code

/-- Read the memory. -/
def read : Code Memory Call Answer Memory := memory id done

/-- Change the memory. -/
def modify (work : Memory → Memory) : Code Memory Call Answer Unit := memory work fun _ => done ()

/-- Call the host. -/
def ask (call : Call) : Code Memory Call Answer (Answer call) := host call done

/-- The host call that a code is about to make. -/
def next : Code Memory Call Answer α → Option Call
  | host call _ => some call
  | _ => none

@[simp] theorem next_done (value : α) :
    (done value : Code Memory Call Answer α).next = none := rfl

@[simp] theorem next_trap : (trap : Code Memory Call Answer α).next = none := rfl

@[simp] theorem next_memory (work : Memory → Memory) (rest : Memory → Code Memory Call Answer α) :
    (memory work rest).next = none := rfl

@[simp] theorem next_host (call : Call) (rest : Answer call → Code Memory Call Answer α) :
    (host call rest).next = some call := rfl

@[simp] theorem pure_eq (value : α) :
    (pure value : Code Memory Call Answer α) = done value := rfl

@[simp] theorem done_bind (value : α) (after : α → Code Memory Call Answer β) :
    (done value >>= after) = after value := rfl

@[simp] theorem trap_bind (after : α → Code Memory Call Answer β) :
    ((trap : Code Memory Call Answer α) >>= after) = trap := rfl

@[simp] theorem memory_bind (work : Memory → Memory) (rest : Memory → Code Memory Call Answer α)
    (after : α → Code Memory Call Answer β) :
    (memory work rest >>= after) = memory work fun changed => rest changed >>= after := rfl

@[simp] theorem host_bind (call : Call) (rest : Answer call → Code Memory Call Answer α)
    (after : α → Code Memory Call Answer β) :
    (host call rest >>= after) = host call fun answer => rest answer >>= after := rfl

@[simp] theorem modify_bind (work : Memory → Memory) (after : Unit → Code Memory Call Answer β) :
    (modify work >>= after) = memory work fun _ => after () := rfl

@[simp] theorem read_bind (after : Memory → Code Memory Call Answer β) :
    (read >>= after) = memory id after := rfl

@[simp] theorem ask_bind (call : Call) (after : Answer call → Code Memory Call Answer β) :
    (ask call >>= after) = host call after := rfl

end Code

/-- How a host answers a call and what it becomes. -/
abbrev Answers (Call : Type) (Answer : Call → Type) (World : Type) :=
  (call : Call) → World → Answer call × World

/-- A code run for some steps has a rest left, a memory and a world. -/
inductive Reaches (answers : Answers Call Answer World) :
    Code Memory Call Answer α → Memory → World → Code Memory Call Answer α → Memory → World → Prop
  | here {code memory world} : Reaches answers code memory world code memory world
  | memory {work rest memory world left last final}
      (run : Reaches answers (rest (work memory)) (work memory) world left last final) :
      Reaches answers (.memory work rest) memory world left last final
  | host {call rest memory world left last final}
      (run : Reaches answers (rest (answers call world).1) memory (answers call world).2
        left last final) :
      Reaches answers (.host call rest) memory world left last final

/-- At every point of a code `point` holds, with the host call that comes next, and at its end
`finish` holds. -/
def Safe (answers : Answers Call Answer World) (point : Option Call → Memory → World → Prop)
    (finish : α → Memory → World → Prop) :
    Code Memory Call Answer α → Memory → World → Prop
  | .done value, memory, world => point none memory world ∧ finish value memory world
  | .trap, memory, world => point none memory world
  | .memory work rest, memory, world =>
      point none memory world ∧
        Safe answers point finish (rest (work memory)) (work memory) world
  | .host call rest, memory, world =>
      point (some call) memory world ∧
        Safe answers point finish (rest (answers call world).1) memory (answers call world).2

section

variable {answers : Answers Call Answer World} {point : Option Call → Memory → World → Prop}
  {finish weaker : α → Memory → World → Prop} {last : β → Memory → World → Prop}

/-- What holds at every point holds wherever the code is killed. -/
theorem Safe.at_point {code left : Code Memory Call Answer α} {memory final : Memory}
    {world reached : World} (safe : Safe answers point finish code memory world)
    (run : Reaches answers code memory world left final reached) :
    point left.next final reached := by
  induction run with
  | @here code _ _ =>
    cases code with
    | done value => exact safe.1
    | trap => exact safe
    | memory work rest => exact safe.1
    | host call rest => exact safe.1
  | memory _ inductionHypothesis => exact inductionHypothesis safe.2
  | host _ inductionHypothesis => exact inductionHypothesis safe.2

/-- What holds at the end holds once the code has returned. -/
theorem Safe.at_end {code : Code Memory Call Answer α} {value : α} {memory final : Memory}
    {world reached : World} (safe : Safe answers point finish code memory world)
    (run : Reaches answers code memory world (.done value) final reached) :
    finish value final reached := by
  generalize target : (Code.done value : Code Memory Call Answer α) = left at run
  induction run with
  | here =>
    subst target
    exact safe.2
  | memory _ inductionHypothesis => exact inductionHypothesis safe.2 target
  | host _ inductionHypothesis => exact inductionHypothesis safe.2 target

/-- A code may promise less at its end. -/
theorem Safe.weaken {code : Code Memory Call Answer α} {memory : Memory} {world : World}
    (safe : Safe answers point finish code memory world)
    (implies : ∀ value after reached, finish value after reached → weaker value after reached) :
    Safe answers point weaker code memory world := by
  induction code generalizing memory world with
  | done value => exact ⟨safe.1, implies _ _ _ safe.2⟩
  | trap => exact safe
  | memory work rest inductionHypothesis => exact ⟨safe.1, inductionHypothesis _ safe.2⟩
  | host call rest inductionHypothesis => exact ⟨safe.1, inductionHypothesis _ safe.2⟩

/-- Two codes, one after the other: the second starts where the first ends. -/
theorem Safe.bind {code : Code Memory Call Answer α} {after : α → Code Memory Call Answer β}
    {memory : Memory} {world : World} (safe : Safe answers point finish code memory world)
    (then_safe : ∀ value middle reached, finish value middle reached →
      Safe answers point last (after value) middle reached) :
    Safe answers point last (code >>= after) memory world := by
  induction code generalizing memory world with
  | done value => exact then_safe _ _ _ safe.2
  | trap => exact safe
  | memory work rest inductionHypothesis => exact ⟨safe.1, inductionHypothesis _ safe.2⟩
  | host call rest inductionHypothesis => exact ⟨safe.1, inductionHypothesis _ safe.2⟩

end

/-- A point of two codes in sequence is a point of the first or one of the second. -/
theorem Reaches.of_bind {answers : Answers Call Answer World} {code : Code Memory Call Answer α}
    {after : α → Code Memory Call Answer β} {left : Code Memory Call Answer β}
    {memory final : Memory} {world reached : World}
    (run : Reaches answers (code >>= after) memory world left final reached) :
    (∃ rest, left = rest >>= after ∧ Reaches answers code memory world rest final reached) ∨
      ∃ value middle between, Reaches answers code memory world (.done value) middle between ∧
        Reaches answers (after value) middle between left final reached := by
  induction code generalizing memory world with
  | done value => exact .inr ⟨value, memory, world, .here, run⟩
  | trap => exact .inl ⟨.trap, by cases run; rfl, by cases run; exact .here⟩
  | memory work rest inductionHypothesis =>
    cases run with
    | here => exact .inl ⟨.memory work rest, rfl, .here⟩
    | memory run =>
      obtain ⟨left, same, first⟩ | ⟨value, middle, between, first, second⟩ :=
        inductionHypothesis _ run
      · exact .inl ⟨left, same, .memory first⟩
      · exact .inr ⟨value, middle, between, .memory first, second⟩
  | host call rest inductionHypothesis =>
    cases run with
    | here => exact .inl ⟨.host call rest, rfl, .here⟩
    | host run =>
      obtain ⟨left, same, first⟩ | ⟨value, middle, between, first, second⟩ :=
        inductionHypothesis _ run
      · exact .inl ⟨left, same, .host first⟩
      · exact .inr ⟨value, middle, between, .host first, second⟩

/-- The code returns: on the way it asks only for what is `allowed`, and at its end `finish`
holds. -/
def Returns (answers : Answers Call Answer World) (allowed : Call → Prop)
    (finish : α → Memory → World → Prop) : Code Memory Call Answer α → Memory → World → Prop
  | .done value, memory, world => finish value memory world
  | .trap, _, _ => False
  | .memory work rest, memory, world =>
      Returns answers allowed finish (rest (work memory)) (work memory) world
  | .host call rest, memory, world =>
      allowed call ∧
        Returns answers allowed finish (rest (answers call world).1) memory (answers call world).2

section

variable {answers : Answers Call Answer World} {allowed other : Call → Prop}
  {finish weaker : α → Memory → World → Prop} {last : β → Memory → World → Prop}

/-- A code may promise less at its end. -/
theorem Returns.weaken {code : Code Memory Call Answer α} {memory : Memory} {world : World}
    (returns : Returns answers allowed finish code memory world)
    (implies : ∀ value after reached, finish value after reached → weaker value after reached) :
    Returns answers allowed weaker code memory world := by
  induction code generalizing memory world with
  | done value => exact implies _ _ _ returns
  | trap => exact returns
  | memory work rest inductionHypothesis => exact inductionHypothesis _ returns
  | host call rest inductionHypothesis => exact ⟨returns.1, inductionHypothesis _ returns.2⟩

/-- Two codes, one after the other: the second starts where the first ends. -/
theorem Returns.bind {code : Code Memory Call Answer α} {after : α → Code Memory Call Answer β}
    {memory : Memory} {world : World} (returns : Returns answers allowed finish code memory world)
    (then_returns : ∀ value middle reached, finish value middle reached →
      Returns answers allowed last (after value) middle reached) :
    Returns answers allowed last (code >>= after) memory world := by
  induction code generalizing memory world with
  | done value => exact then_returns _ _ _ returns
  | trap => exact returns.elim
  | memory work rest inductionHypothesis => exact inductionHypothesis _ returns
  | host call rest inductionHypothesis => exact ⟨returns.1, inductionHypothesis _ returns.2⟩

/-- Where two codes return one after the other, the first ends where the second returns. -/
theorem Returns.of_bind {code : Code Memory Call Answer α} {after : α → Code Memory Call Answer β}
    {memory : Memory} {world : World}
    (both : Returns answers allowed last (code >>= after) memory world) :
    Returns answers allowed
      (fun value middle reached => Returns answers allowed last (after value) middle reached)
      code memory world := by
  induction code generalizing memory world with
  | done value => exact both
  | trap => exact both.elim
  | memory work rest inductionHypothesis => exact inductionHypothesis _ both
  | host call rest inductionHypothesis => exact ⟨both.1, inductionHypothesis _ both.2⟩

/-- A code ends in one place. -/
theorem Returns.meet {code : Code Memory Call Answer α} {memory : Memory} {world : World}
    (one : Returns answers allowed finish code memory world)
    (two : Returns answers other weaker code memory world) :
    ∃ value final reached, finish value final reached ∧ weaker value final reached := by
  induction code generalizing memory world with
  | done value => exact ⟨value, memory, world, one, two⟩
  | trap => exact one.elim
  | memory work rest inductionHypothesis => exact inductionHypothesis _ one two
  | host call rest inductionHypothesis => exact inductionHypothesis _ one.2 two.2

end

end DressOn.Interruptible
