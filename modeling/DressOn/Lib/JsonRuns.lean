import DressOn.Lib.JsonTexts
import Mathlib.Algebra.GroupWithZero.Nat

/-!
# Runs of the JSON machine

What a list of tokens does depends on the containers around it only at its ends. A run inside a
container is a run without it; a run in an object does not look at the members it has.
-/

namespace DressOn.JsonTexts

/-! ## Lists of characters and tokens -/

/-- Two pieces of a text are lexed one after the other. -/
theorem lex_append (state : Lex) (first second : List Char) :
    lex state (first ++ second) = (lex state first).bind fun middle =>
      (lex middle.1 second).map fun last => (last.1, middle.2 ++ last.2) := by
  induction first generalizing state with
  | nil => simp [lex]
  | cons c rest ih =>
      simp only [List.cons_append, lex]
      cases lexStep state c with
      | none => rfl
      | some next =>
          simp only [Option.bind_some, ih, Option.map_bind, Option.bind_map]
          cases lex next.1 rest with
          | none => rfl
          | some middle =>
              simp [Function.comp_def, List.append_assoc]

/-- Two runs of tokens are read one after the other. -/
theorem read_append (syn : Syn) (first second : List Token) :
    read syn (first ++ second) = (read syn first).bind fun middle => read middle second :=
  List.foldlM_append

/-- The first token is read first. -/
theorem read_cons (syn : Syn) (token : Token) (rest : List Token) :
    read syn (token :: rest) = (synStep syn token).bind fun next => read next rest :=
  List.foldlM_cons

/-! ## Inside a container -/

section Under

/-- The machine is not at its end. -/
def Syn.Running (syn : Syn) : Prop := ∀ value, syn.mode ≠ .final value

/-- The machine inside other containers: its last value is one of theirs. -/
def Syn.under (base : List Frame) (syn : Syn) : Syn :=
  match syn.mode with
  | .final value => complete value base
  | mode => ⟨syn.stack ++ base, mode⟩

/-- A running state over further frames has them below its own. -/
theorem Syn.under_of_running {syn : Syn} (running : syn.Running) (base : List Frame) :
    syn.under base = ⟨syn.stack ++ base, syn.mode⟩ := by
  unfold Syn.under
  split
  next value final => exact absurd final (running value)
  · rfl

/-- A value is completed over further frames as without them. -/
@[simp] theorem complete_under (value : Json) (stack base : List Frame) :
    (complete value stack).under base = complete value (stack ++ base) := by
  cases stack with
  | nil => rfl
  | cons frame stack => cases frame <;> rfl

/-- A value is begun over further frames as without them. -/
theorem valueStep_under (stack base : List Frame) (token : Token) :
    valueStep (stack ++ base) token = (valueStep stack token).map (Syn.under base) := by
  cases token <;> first | rfl | exact congrArg some (complete_under _ _ _).symm

/-- A new array is an array once its first item begins. -/
theorem synStep_item (stack : List Frame) {token : Token} (other : token ≠ .closeBracket) :
    synStep ⟨stack, .item⟩ token = valueStep (.array [] :: stack) token := by
  cases token with
  | closeBracket => exact absurd rfl other
  | _ => rfl

/-- A step inside containers is a step without them. -/
theorem synStep_under {syn : Syn} (running : syn.Running) (base : List Frame) (token : Token) :
    synStep (syn.under base) token = (synStep syn token).map (Syn.under base) := by
  rw [Syn.under_of_running running]
  obtain ⟨stack, mode⟩ := syn
  cases mode with
  | value => exact valueStep_under stack base token
  | item =>
      by_cases closes : token = .closeBracket
      · subst closes
        exact congrArg some (complete_under _ _ _).symm
      · rw [synStep_item _ closes, synStep_item _ closes]
        exact valueStep_under (.array [] :: stack) base token
  | key members first =>
      cases token <;> cases first <;>
        first | rfl | exact congrArg some (complete_under _ _ _).symm
  | colon members key => cases token <;> rfl
  | inArray items =>
      cases token <;> first | rfl | exact congrArg some (complete_under _ _ _).symm
  | inObject members =>
      cases token <;> first | rfl | exact congrArg some (complete_under _ _ _).symm
  | final value => exact absurd rfl (running value)

/-- Nothing follows the end. -/
theorem running_of_step {syn next : Syn} {token : Token} (step : synStep syn token = some next) :
    syn.Running := by
  intro value final
  unfold synStep at step
  rw [final] at step
  cases step

/-- At its end the machine is in no container. -/
theorem synStep_final {syn next : Syn} {token : Token} {value : Json}
    (step : synStep syn token = some next) (final : next.mode = .final value) :
    next = ⟨[], .final value⟩ := by
  have completes {other : Json} {stack : List Frame}
      (final : (complete other stack).mode = .final value) :
      complete other stack = ⟨[], .final value⟩ := by
    cases stack with
    | nil => exact congrArg _ final
    | cons frame stack => cases frame <;> cases final
  have values {stack : List Frame} (step : valueStep stack token = some next) :
      next = ⟨[], .final value⟩ := by
    cases token <;> cases step <;> first | exact completes final | cases final
  obtain ⟨stack, mode⟩ := syn
  cases mode with
  | value => exact values step
  | item =>
      by_cases closes : token = .closeBracket
      · subst closes
        cases step
        exact completes final
      · rw [synStep_item _ closes] at step
        exact values step
  | key members first =>
      cases token <;> cases first <;> cases step <;> first | exact completes final | cases final
  | final value => cases step
  | _ => cases token <;> cases step <;> first | exact completes final | cases final

/-- A text that is read to its end leaves no frame. -/
theorem read_final {syn last : Syn} {tokens : List Token} {value : Json} (running : syn.Running)
    (reads : read syn tokens = some last) (final : last.mode = .final value) :
    last = ⟨[], .final value⟩ := by
  induction tokens generalizing syn with
  | nil =>
      cases reads
      exact absurd final (running value)
  | cons token rest ih =>
      rw [read_cons] at reads
      obtain ⟨next, step, later⟩ := Option.bind_eq_some_iff.mp reads
      by_cases going : next.Running
      · exact ih going later
      · obtain ⟨whole, ended⟩ : ∃ value, next.mode = .final value := by
          simpa [Syn.Running] using going
        cases synStep_final step ended
        cases rest with
        | nil =>
            cases later
            cases final
            rfl
        | cons token rest => cases later

/-- What a run from the start ends with. -/
theorem value?_iff {tokens : List Token} {value : Json} :
    (read start tokens).bind Syn.value? = some value ↔
      read start tokens = some ⟨[], .final value⟩ := by
  constructor
  · intro ends
    obtain ⟨last, reads, ends⟩ := Option.bind_eq_some_iff.mp ends
    have final : last.mode = .final value := by
      unfold Syn.value? at ends
      split at ends
      next whole final => rw [final, Option.some.inj ends]
      · cases ends
    rw [reads, read_final (show start.Running from nofun) reads final]
  · intro reads
    rw [reads]
    rfl

/-- A string and a word side by side are nothing. -/
theorem read_adjacent (syn : Syn) (units : Units) (value : Scalar) (rest : List Token) :
    read syn (.string units :: .scalar value :: rest) = none := by
  have completed (other : Json) (stack : List Frame) :
      synStep (complete other stack) (.scalar value) = none := by
    cases stack with
    | nil => rfl
    | cons frame stack => cases frame <;> rfl
  obtain ⟨stack, mode⟩ := syn
  rw [read_cons]
  cases mode with
  | value =>
      show read (complete (.string units) stack) _ = none
      rw [read_cons, completed]
      rfl
  | item =>
      show read (complete (.string units) (.array [] :: stack)) _ = none
      rw [read_cons, completed]
      rfl
  | key members first => rfl
  | _ => rfl

/-- What is read is read over further frames too. -/
theorem read_under {syn last : Syn} {tokens : List Token} (base : List Frame)
    (reads : read syn tokens = some last) :
    read (syn.under base) tokens = some (last.under base) := by
  induction tokens generalizing syn with
  | nil =>
      cases reads
      rfl
  | cons token rest ih =>
      rw [read_cons] at reads ⊢
      obtain ⟨next, step, reads⟩ := Option.bind_eq_some_iff.mp reads
      rw [synStep_under (running_of_step step), step]
      exact ih reads

/-- What stays inside a member's value is a run without the containers around. -/
theorem read_of_under {syn last : Syn} {tokens : List Token} {members : List Member} {key : Units}
    {stack : List Frame} (comma : Token.comma ∉ tokens) (brace : Token.closeBrace ∉ tokens)
    (reads : read (syn.under (.member members key :: stack)) tokens = some last) :
    ∃ inner, read syn tokens = some inner ∧ last = inner.under (.member members key :: stack) := by
  induction tokens generalizing syn with
  | nil =>
      cases reads
      exact ⟨syn, rfl, rfl⟩
  | cons token rest ih =>
      rw [read_cons] at reads
      obtain ⟨next, step, reads⟩ := Option.bind_eq_some_iff.mp reads
      by_cases running : syn.Running
      · rw [synStep_under running] at step
        obtain ⟨inner, innerStep, rfl⟩ := Option.map_eq_some_iff.mp step
        obtain ⟨last, innerReads, same⟩ := ih (fun member => comma (List.mem_cons_of_mem _ member))
          (fun member => brace (List.mem_cons_of_mem _ member)) reads
        refine ⟨last, ?_, same⟩
        rw [read_cons, innerStep]
        exact innerReads
      · obtain ⟨value, final⟩ : ∃ value, syn.mode = .final value := by
          simpa [Syn.Running] using running
        simp only [Syn.under, final, complete] at step
        cases token with
        | comma => exact absurd List.mem_cons_self comma
        | closeBrace => exact absurd List.mem_cons_self brace
        | _ => cases step

end Under

/-! ## Depth -/

section Depth

/-- The containers a mode is in by itself. -/
def Mode.depth : Mode → Nat
  | .value | .final _ => 0
  | _ => 1

/-- The number of open containers. -/
def Syn.depth (syn : Syn) : Nat := syn.stack.length + syn.mode.depth

/-- The containers a token opens. -/
def Token.opens : Token → Nat
  | .openBrace | .openBracket => 1
  | _ => 0

/-- The containers a token closes. -/
def Token.closes : Token → Nat
  | .closeBrace | .closeBracket => 1
  | _ => 0

@[simp] theorem depth_mk (stack : List Frame) (mode : Mode) :
    (⟨stack, mode⟩ : Syn).depth = stack.length + mode.depth := rfl

/-- A completed value ends at the depth of its frames. -/
@[simp] theorem depth_complete (value : Json) (stack : List Frame) :
    (complete value stack).depth = stack.length := by
  cases stack with
  | nil => rfl
  | cons frame stack => cases frame <;> rfl

/-- A value's first token opens and closes as it says. -/
theorem valueStep_depth {stack : List Frame} {next : Syn} {token : Token}
    (step : valueStep stack token = some next) :
    next.depth + token.closes = stack.length + token.opens := by
  cases token <;> cases step <;>
    simp [Mode.depth, Token.opens, Token.closes]

/-- A token opens and closes as it says. -/
theorem synStep_depth {syn next : Syn} {token : Token} (step : synStep syn token = some next) :
    next.depth + token.closes = syn.depth + token.opens := by
  obtain ⟨stack, mode⟩ := syn
  cases mode with
  | value => exact valueStep_depth step
  | item =>
      by_cases closes : token = .closeBracket
      · subst closes
        cases step
        simp [Mode.depth, Token.opens, Token.closes]
      · rw [synStep_item _ closes] at step
        exact valueStep_depth step
  | key members first =>
      cases token <;> cases first <;> cases step <;>
        simp [Mode.depth, Token.opens, Token.closes]
  | colon members key =>
      cases token <;> cases step
      simp [Mode.depth, Token.opens, Token.closes]
  | inArray items =>
      cases token <;> cases step <;> simp [Mode.depth, Token.opens, Token.closes]
  | inObject members =>
      cases token <;> cases step <;> simp [Mode.depth, Token.opens, Token.closes]
  | final value => cases step

/-- How deep a run ends depends on its tokens and on how deep it starts. -/
theorem read_depth {syn last : Syn} {tokens : List Token} (reads : read syn tokens = some last) :
    last.depth + (tokens.map Token.closes).sum = syn.depth + (tokens.map Token.opens).sum := by
  induction tokens generalizing syn with
  | nil =>
      cases reads
      rfl
  | cons token rest ih =>
      rw [read_cons] at reads
      obtain ⟨next, step, reads⟩ := Option.bind_eq_some_iff.mp reads
      have one := synStep_depth step
      have others := ih reads
      simp only [List.map_cons, List.sum_cons]
      omega

/-- Further frames add their depth, or the text has ended. -/
theorem Syn.depth_under (syn : Syn) (base : List Frame) :
    (syn.under base).depth = syn.depth + base.length ∨ ∃ value, syn.mode = .final value := by
  by_cases running : syn.Running
  · left
    rw [Syn.under_of_running running]
    simp only [Syn.depth, List.length_append]
    omega
  · right
    simpa [Syn.Running] using running

end Depth

/-! ## The object at the root -/

section Root

/-- Where a run stands whose root is an object: at a key, a colon, behind a value, inside the value
of a key, or at the end. -/
inductive Rest where
  | key (first : Bool)
  | colon (key : Units)
  | inside
  | framed (key : Units) (inner : Syn)
  | final

/-- A value in an object is not at its end. -/
def Rest.Running : Rest → Prop
  | .framed _ inner => inner.Running
  | _ => True

/-- The machine in an object that has some members already. -/
def atRoot (members : List Member) : Rest → Syn
  | .key first => ⟨[], .key members first⟩
  | .colon key => ⟨[], .colon members key⟩
  | .inside => ⟨[], .inObject members⟩
  | .framed key inner => inner.under [.member members key]
  | .final => ⟨[], .final (.object members)⟩

/-- A step in the object does not look at its members. -/
theorem synStep_atRoot {rest : Rest} (running : rest.Running) (token : Token) :
    (∃ next extra, next.Running ∧
      ∀ members, synStep (atRoot members rest) token = some (atRoot (members ++ extra) next)) ∨
    ∀ members, synStep (atRoot members rest) token = none := by
  cases rest with
  | key first =>
      cases token with
      | string key => exact .inl ⟨.colon key, [], trivial, fun _ => by simp [atRoot, synStep]⟩
      | closeBrace =>
          cases first with
          | true => exact .inl ⟨.final, [], trivial, fun _ => by simp [atRoot, synStep, complete]⟩
          | false => exact .inr fun _ => rfl
      | _ => exact .inr fun _ => rfl
  | colon key =>
      cases token with
      | colon =>
          exact .inl ⟨.framed key start, [], nofun, fun _ => by
            simp [atRoot, synStep, Syn.under, start]⟩
      | _ => exact .inr fun _ => rfl
  | inside =>
      cases token with
      | comma => exact .inl ⟨.key false, [], trivial, fun _ => by simp [atRoot, synStep]⟩
      | closeBrace => exact .inl ⟨.final, [], trivial, fun _ => by simp [atRoot, synStep, complete]⟩
      | _ => exact .inr fun _ => rfl
  | framed key inner =>
      have step : ∀ members, synStep (atRoot members (.framed key inner)) token =
          (synStep inner token).map (Syn.under [.member members key]) :=
        fun members => synStep_under running [.member members key] token
      cases taken : synStep inner token with
      | none =>
          refine .inr fun members => ?_
          rw [step, taken]
          rfl
      | some next =>
          left
          by_cases runs : next.Running
          · refine ⟨.framed key next, [], runs, fun members => ?_⟩
            rw [step, taken, List.append_nil]
            rfl
          · obtain ⟨value, final⟩ : ∃ value, next.mode = .final value := by
              simpa [Syn.Running] using runs
            refine ⟨.inside, [(key, value)], trivial, fun members => ?_⟩
            rw [step, taken]
            simp [Syn.under, final, complete, atRoot]
  | final => exact .inr fun _ => rfl

/-- A run in the object does not look at its members. -/
theorem read_atRoot {rest : Rest} (running : rest.Running) (tokens : List Token) :
    (∃ next extra, next.Running ∧
      ∀ members, read (atRoot members rest) tokens = some (atRoot (members ++ extra) next)) ∨
    ∀ members, read (atRoot members rest) tokens = none := by
  induction tokens generalizing rest with
  | nil => exact .inl ⟨rest, [], running, fun members => by rw [List.append_nil]; rfl⟩
  | cons token later ih =>
      simp only [read_cons]
      rcases synStep_atRoot running token with ⟨next, extra, runs, step⟩ | dead
      · rcases ih runs with ⟨last, others, lasts, reads⟩ | dead
        · refine .inl ⟨last, extra ++ others, lasts, fun members => ?_⟩
          rw [step, Option.bind_some, reads, List.append_assoc]
        · exact .inr fun members => by rw [step, Option.bind_some, dead]
      · exact .inr fun members => by rw [dead, Option.bind_none]

/-- A run in the object ends with all its members, or has no value. -/
theorem atRoot_value {rest : Rest} (running : rest.Running) (members : List Member) :
    rest = .final ∨ (atRoot members rest).Running := by
  cases rest with
  | final => exact .inl rfl
  | framed key inner =>
      right
      rw [atRoot, Syn.under_of_running running]
      exact running
  | _ => exact .inr nofun

end Root

end DressOn.JsonTexts
