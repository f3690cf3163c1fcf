import DressOn.Lib.JsonRuns
import Mathlib.Algebra.BigOperators.Ring.List
import Mathlib.Algebra.Order.BigOperators.Group.List
import Mathlib.Tactic.Ring

/-!
# Edits of a JSON text

Two edits of a text seen from the machine: one value put in another's place, and one member put in
front of every object. The first changes the value it stands in unless both are the same; the second
changes every value that has an object.
-/

namespace DressOn.JsonTexts

/-! ## Sizes -/

section Sizes

/-- The values are those of their parts. -/
theorem Json.induct {motive : Json → Prop} (scalar : ∀ value, motive (.scalar value))
    (string : ∀ units, motive (.string units))
    (array : ∀ items, (∀ item ∈ items, motive item) → motive (.array items))
    (object : ∀ members, (∀ m ∈ members, motive m.2) → motive (.object members)) :
    ∀ value, motive value
  | .scalar value => scalar value
  | .string units => string units
  | .array items => array items fun item _ => Json.induct scalar string array object item
  | .object members => object members fun m _ => Json.induct scalar string array object m.2
termination_by value => sizeOf value
decreasing_by
  · have := List.sizeOf_lt_of_mem ‹item ∈ items›
    simp
    omega
  · have := List.sizeOf_lt_of_mem ‹m ∈ members›
    obtain ⟨key, value⟩ := m
    simp at this ⊢
    omega

/-- A sum over the parts of a value, with a weight for each kind of them. -/
def Json.count (object array leaf : Nat) : Json → Nat
  | .scalar _ | .string _ => leaf
  | .array items => array + (items.attach.map fun item => item.1.count object array leaf).sum
  | .object members => object + (members.attach.map fun m => m.1.2.count object array leaf).sum
termination_by value => sizeOf value
decreasing_by
  · have := List.sizeOf_lt_of_mem item.2
    simp
    omega
  · have := List.sizeOf_lt_of_mem m.2
    obtain ⟨⟨key, value⟩, member⟩ := m
    simp at this ⊢
    omega

variable (o a l : Nat)

@[simp] theorem count_scalar (value : Scalar) : (Json.scalar value).count o a l = l := by
  rw [Json.count]

@[simp] theorem count_string (units : Units) : (Json.string units).count o a l = l := by
  rw [Json.count]

@[simp] theorem count_array (items : List Json) :
    (Json.array items).count o a l = a + (items.map fun item => item.count o a l).sum := by
  rw [Json.count, List.attach_map_val (f := fun item : Json => item.count o a l)]

@[simp] theorem count_object (members : List Member) :
    (Json.object members).count o a l = o + (members.map fun m => m.2.count o a l).sum := by
  rw [Json.count, List.attach_map_val (f := fun m : Member => m.2.count o a l)]

/-- The number of values in a value, itself included. -/
def Json.nodes (value : Json) : Nat := value.count 1 1 1

/-- The number of objects in a value. -/
def Json.objects (value : Json) : Nat := value.count 1 0 0

theorem nodes_pos (value : Json) : 0 < value.nodes := by
  cases value with
  | scalar value => simp [Json.nodes]
  | string units => simp [Json.nodes]
  | array items =>
      rw [Json.nodes, count_array]
      omega
  | object members =>
      rw [Json.nodes, count_object]
      omega

end Sizes

/-! ## A member in front of every object -/

section Inflated

variable (member : Member)

/-- A value with the member in front of each of its objects. -/
def Json.inflate : Json → Json
  | .scalar value => .scalar value
  | .string units => .string units
  | .array items => .array (items.attach.map fun item => item.1.inflate)
  | .object members => .object (member :: members.attach.map fun m => (m.1.1, m.1.2.inflate))
termination_by value => sizeOf value
decreasing_by
  · have := List.sizeOf_lt_of_mem item.2
    simp
    omega
  · have := List.sizeOf_lt_of_mem m.2
    obtain ⟨⟨key, value⟩, inside⟩ := m
    simp at this ⊢
    omega

/-- The members of an object with the member in front of each object in them. -/
def inflateMembers (members : List Member) : List Member :=
  members.map fun m => (m.1, m.2.inflate member)

@[simp] theorem inflate_scalar (value : Scalar) :
    (Json.scalar value).inflate member = .scalar value := by
  rw [Json.inflate]

@[simp] theorem inflate_string (units : Units) :
    (Json.string units).inflate member = .string units := by
  rw [Json.inflate]

@[simp] theorem inflate_array (items : List Json) :
    (Json.array items).inflate member = .array (items.map (Json.inflate member)) := by
  rw [Json.inflate, List.attach_map_val (f := Json.inflate member)]

@[simp] theorem inflate_object (members : List Member) :
    (Json.object members).inflate member = .object (member :: inflateMembers member members) := by
  rw [Json.inflate, inflateMembers,
    List.attach_map_val (f := fun m : Member => (m.1, m.2.inflate member))]

/-- Every object makes the value larger by the member's value. -/
theorem nodes_inflate (value : Json) :
    (value.inflate member).nodes = value.nodes + value.objects * member.2.nodes := by
  induction value using Json.induct with
  | scalar value => simp [Json.nodes, Json.objects]
  | string units => simp [Json.nodes, Json.objects]
  | array items ih =>
      rw [inflate_array]
      simp only [Json.nodes, Json.objects, count_array, List.map_map] at ih ⊢
      have parts : (items.map ((fun item => Json.count 1 1 1 item) ∘ Json.inflate member)).sum =
          (items.map fun item => Json.count 1 1 1 item).sum +
            (items.map fun item => Json.count 1 0 0 item).sum * Json.count 1 1 1 member.2 := by
        rw [← List.sum_map_mul_right, ← List.sum_map_add]
        exact congrArg List.sum (List.map_congr_left ih)
      rw [parts]
      ring
  | object members ih =>
      rw [inflate_object]
      simp only [Json.nodes, Json.objects, count_object, List.map_cons, List.sum_cons,
        inflateMembers, List.map_map] at ih ⊢
      have parts : (members.map ((fun m : Member => Json.count 1 1 1 m.2) ∘
          fun m => (m.1, m.2.inflate member))).sum =
          (members.map fun m => Json.count 1 1 1 m.2).sum +
            (members.map fun m => Json.count 1 0 0 m.2).sum * Json.count 1 1 1 member.2 := by
        rw [← List.sum_map_mul_right, ← List.sum_map_add]
        exact congrArg List.sum (List.map_congr_left ih)
      rw [parts]
      ring

/-- Only a value without objects stays as it is, -/
theorem objects_of_inflate_eq {value : Json} (same : value.inflate member = value) :
    value.objects = 0 := by
  have size := nodes_inflate member value
  rw [same] at size
  have positive := nodes_pos member.2
  have none_ : value.objects * member.2.nodes = 0 := by omega
  exact (Nat.mul_eq_zero.mp none_).resolve_right (by omega)

/-- and only such a value becomes the member's. -/
theorem objects_of_inflate_eq_member {value : Json} (same : value.inflate member = member.2) :
    value.objects = 0 := by
  have size := nodes_inflate member value
  rw [same] at size
  by_contra some_
  have more : member.2.nodes ≤ value.objects * member.2.nodes :=
    Nat.le_mul_of_pos_left _ (Nat.pos_of_ne_zero some_)
  have positive := nodes_pos value
  omega

/-- A value without objects stays as it is. -/
theorem inflate_of_objects {value : Json} (flat : value.objects = 0) :
    value.inflate member = value := by
  induction value using Json.induct with
  | scalar value => simp
  | string units => simp
  | array items ih =>
      simp only [Json.objects, count_array, Nat.zero_add, List.sum_eq_zero_iff, List.mem_map,
        forall_exists_index, and_imp, forall_apply_eq_imp_iff₂] at flat ih
      rw [inflate_array, List.map_congr_left fun item inside => ih item inside (flat item inside),
        List.map_id']
  | object members ih =>
      rw [Json.objects, count_object] at flat
      omega

/-- A container with the member in front of each object. -/
def Frame.inflate (member : Member) : Frame → Frame
  | .array items => .array (items.map (Json.inflate member))
  | .member members key => .member (member :: inflateMembers member members) key

/-- The mode with the member in front of each object: no object is new. -/
def Mode.inflate (member : Member) : Mode → Mode
  | .value => .value
  | .item => .item
  | .key members _ => .key (member :: inflateMembers member members) false
  | .colon members name => .colon (member :: inflateMembers member members) name
  | .inArray items => .inArray (items.map (Json.inflate member))
  | .inObject members => .inObject (member :: inflateMembers member members)
  | .final whole => .final (whole.inflate member)

/-- The machine with the member in front of each object. -/
def Syn.inflate (member : Member) (syn : Syn) : Syn :=
  ⟨syn.stack.map (Frame.inflate member), syn.mode.inflate member⟩

/-- The tokens with some more behind every brace. -/
def inflateTokens (insert : List Token) (tokens : List Token) : List Token :=
  tokens.flatMap fun
    | .openBrace => .openBrace :: insert
    | token => [token]

theorem complete_inflate (value : Json) (stack : List Frame) :
    (complete value stack).inflate member =
      complete (value.inflate member) (stack.map (Frame.inflate member)) := by
  cases stack with
  | nil => rfl
  | cons frame stack =>
      cases frame <;>
        simp [complete, Syn.inflate, Mode.inflate, Frame.inflate, inflateMembers]

/-- No object is new. -/
def Syn.Begun (syn : Syn) : Prop := ∀ members, syn.mode ≠ .key members true

theorem complete_begun (value : Json) (stack : List Frame) : (complete value stack).Begun := by
  cases stack with
  | nil => exact nofun
  | cons frame stack => cases frame <;> exact nofun

theorem valueStep_begun {stack : List Frame} {next : Syn} {token : Token}
    (step : valueStep stack token = some next) (other : token ≠ .openBrace) : next.Begun := by
  cases token with
  | openBrace => exact absurd rfl other
  | openBracket =>
      cases step
      exact nofun
  | scalar value =>
      cases step
      exact complete_begun _ _
  | string units =>
      cases step
      exact complete_begun _ _
  | _ => cases step

/-- Only a brace opens an object. -/
theorem synStep_begun {syn next : Syn} {token : Token} (step : synStep syn token = some next)
    (other : token ≠ .openBrace) : next.Begun := by
  obtain ⟨stack, mode⟩ := syn
  cases mode with
  | value => exact valueStep_begun step other
  | item =>
      by_cases closes : token = .closeBracket
      · subst closes
        cases step
        exact complete_begun _ _
      · rw [synStep_item _ closes] at step
        exact valueStep_begun step other
  | key members first =>
      cases token <;> cases first <;> cases step <;> first | exact complete_begun _ _ | exact nofun
  | colon members key =>
      cases token <;> cases step
      exact nofun
  | inArray items =>
      cases token <;> cases step <;> first | exact complete_begun _ _ | exact nofun
  | inObject members =>
      cases token <;> cases step <;> first | exact complete_begun _ _ | exact nofun
  | final value => cases step

theorem valueStep_inflate {stack : List Frame} {next : Syn} {token : Token}
    (step : valueStep stack token = some next) (other : token ≠ .openBrace) :
    valueStep (stack.map (Frame.inflate member)) token = some (next.inflate member) := by
  cases token with
  | openBrace => exact absurd rfl other
  | openBracket =>
      cases step
      rfl
  | scalar value =>
      cases step
      rw [complete_inflate, inflate_scalar]
      rfl
  | string units =>
      cases step
      rw [complete_inflate, inflate_string]
      rfl
  | _ => cases step

/-- A step past another token than a brace, where no object is new. -/
theorem synStep_inflate {syn next : Syn} {token : Token} (step : synStep syn token = some next)
    (other : token ≠ .openBrace) (begun : syn.Begun) :
    synStep (syn.inflate member) token = some (next.inflate member) := by
  obtain ⟨stack, mode⟩ := syn
  cases mode with
  | value => exact valueStep_inflate member step other
  | item =>
      show synStep ⟨stack.map (Frame.inflate member), .item⟩ token = _
      by_cases closes : token = .closeBracket
      · subst closes
        cases step
        rw [complete_inflate, inflate_array]
        rfl
      · rw [synStep_item _ closes] at step ⊢
        exact valueStep_inflate member step other
  | key members first =>
      cases first with
      | true => exact absurd rfl (begun members)
      | false =>
          cases token <;> cases step
          rfl
  | colon members key =>
      cases token <;> cases step
      rfl
  | inArray items =>
      cases token <;> cases step
      · rw [complete_inflate, inflate_array]
        rfl
      · rfl
  | inObject members =>
      cases token <;> cases step
      · rw [complete_inflate, inflate_object]
        rfl
      · rfl
  | final value => cases step

/-- The end of a new object, which has a member now and a comma behind it. -/
theorem synStep_inflate_new {stack : List Frame} {members : List Member} {token : Token} :
    synStep (Syn.inflate member ⟨stack, .key members true⟩) token =
      match token with
      | .string key =>
          some ⟨stack.map (Frame.inflate member),
            .colon (member :: inflateMembers member members) key⟩
      | _ => none := by
  cases token <;> rfl

/-- A brace and the member behind it. -/
theorem read_insert {syn next : Syn} (step : synStep syn .openBrace = some next)
    {tokens : List Token} (value : read start tokens = some ⟨[], .final member.2⟩) :
    read (syn.inflate member) (.openBrace :: .string member.1 :: .colon :: (tokens ++ [.comma])) =
      some (next.inflate member) := by
  have member_ (stack : List Frame) : read ⟨stack, .key [] true⟩
      (.string member.1 :: .colon :: (tokens ++ [.comma])) = some ⟨stack, .key [member] false⟩ := by
    have inside := read_under (.member [] member.1 :: stack) value
    rw [Syn.under_of_running (show start.Running from nofun)] at inside
    show read ⟨.member [] member.1 :: stack, .value⟩ (tokens ++ [.comma]) = _
    rw [read_append, show read ⟨.member [] member.1 :: stack, .value⟩ tokens = _ from inside]
    rfl
  obtain ⟨stack, mode⟩ := syn
  rw [read_cons]
  cases mode with
  | value =>
      cases step
      exact member_ _
  | item =>
      cases step
      exact member_ _
  | key members first => cases first <;> cases step
  | _ => cases step

/-- A run with the member behind every brace ends like the run without, or in none: an empty object
has a comma at its end then. -/
theorem read_inflate {syn last : Syn} {tokens insert : List Token}
    (value : read start insert = some ⟨[], .final member.2⟩) (reads : read syn tokens = some last) :
    let more := .string member.1 :: .colon :: (insert ++ [.comma])
    read (syn.inflate member) (inflateTokens more tokens) = some (last.inflate member) ∨
      read (syn.inflate member) (inflateTokens more tokens) = none := by
  intro more
  induction tokens generalizing syn with
  | nil =>
      cases reads
      exact .inl rfl
  | cons token rest ih =>
      rw [read_cons] at reads
      obtain ⟨next, step, later⟩ := Option.bind_eq_some_iff.mp reads
      by_cases brace : token = .openBrace
      · subst brace
        show read _ ((.openBrace :: more) ++ inflateTokens more rest) = _ ∨
          read _ ((.openBrace :: more) ++ inflateTokens more rest) = _
        rw [read_append, read_insert member step value]
        exact ih later
      · have single : inflateTokens more (token :: rest) = token :: inflateTokens more rest := by
          cases token with
          | openBrace => exact absurd rfl brace
          | _ => rfl
        rw [single, read_cons]
        by_cases begun : syn.Begun
        · rw [synStep_inflate member step brace begun]
          exact ih later
        · obtain ⟨stack, mode⟩ := syn
          obtain ⟨members, new⟩ : ∃ members, mode = .key members true := by
            simpa [Syn.Begun] using begun
          subst new
          rw [synStep_inflate_new]
          cases token with
          | string key =>
              cases step
              exact ih later
          | _ => exact .inr rfl

/-- A run without braces that begins in a new object and does not end it empty. -/
theorem read_inflate_flat {members : List Member} {tokens : List Token}
    (reads : read ⟨[], .key [] true⟩ tokens = some ⟨[], .final (.object members)⟩)
    (flat : Token.openBrace ∉ tokens) (some_ : members ≠ []) :
    read ⟨[], .key [member] false⟩ tokens =
      some ⟨[], .final (.object (member :: inflateMembers member members))⟩ := by
  have later : ∀ {syn last : Syn} {tokens : List Token}, syn.Begun → Token.openBrace ∉ tokens →
      read syn tokens = some last →
      read (syn.inflate member) tokens = some (last.inflate member) := by
    intro syn last tokens begun flat reads
    induction tokens generalizing syn with
    | nil =>
        cases reads
        rfl
    | cons token rest ih =>
        rw [read_cons] at reads ⊢
        obtain ⟨next, step, reads⟩ := Option.bind_eq_some_iff.mp reads
        obtain ⟨other, flat⟩ := not_or.mp (List.mem_cons.not.mp flat)
        rw [synStep_inflate member step (Ne.symm other) begun]
        exact ih (synStep_begun step (Ne.symm other)) flat reads
  cases tokens with
  | nil => cases reads
  | cons token rest =>
      rw [read_cons] at reads ⊢
      obtain ⟨next, step, others⟩ := Option.bind_eq_some_iff.mp reads
      have calm := (not_or.mp (List.mem_cons.not.mp flat)).2
      cases token with
      | string key =>
          cases step
          have run := later (show Syn.Begun ⟨[], .colon [] key⟩ from nofun) calm others
          rw [Syn.inflate, Mode.inflate, Syn.inflate, Mode.inflate, inflate_object] at run
          exact run
      | closeBrace =>
          cases step
          cases rest with
          | nil =>
              cases others
              exact absurd rfl some_
          | cons token rest => cases others
      | _ => cases step

end Inflated

/-! ## The objects of a run -/

section Objects

/-- The objects of a list of values. -/
def Frame.objects : Frame → Nat
  | .array items => (items.map Json.objects).sum
  | .member members _ => 1 + (members.map fun m => m.2.objects).sum

/-- The objects a mode has by itself. -/
def Mode.objects : Mode → Nat
  | .value | .item => 0
  | .key members _ | .colon members _ | .inObject members =>
      1 + (members.map fun m => m.2.objects).sum
  | .inArray items => (items.map Json.objects).sum
  | .final whole => whole.objects

/-- The objects begun so far. -/
def Syn.objects (syn : Syn) : Nat := (syn.stack.map Frame.objects).sum + syn.mode.objects

/-- The objects a token begins. -/
def Token.braces : Token → Nat
  | .openBrace => 1
  | _ => 0

@[simp] theorem objects_mk (stack : List Frame) (mode : Mode) :
    (⟨stack, mode⟩ : Syn).objects = (stack.map Frame.objects).sum + mode.objects := rfl

@[simp] theorem objects_complete (value : Json) (stack : List Frame) :
    (complete value stack).objects = (stack.map Frame.objects).sum + value.objects := by
  cases stack with
  | nil => rfl
  | cons frame stack =>
      cases frame <;> simp [complete, Mode.objects, Frame.objects] <;> omega

theorem valueStep_objects {stack : List Frame} {next : Syn} {token : Token}
    (step : valueStep stack token = some next) :
    next.objects = (stack.map Frame.objects).sum + token.braces := by
  cases token <;> cases step <;> simp [Mode.objects, Token.braces, Json.objects]

theorem synStep_objects {syn next : Syn} {token : Token} (step : synStep syn token = some next) :
    next.objects = syn.objects + token.braces := by
  obtain ⟨stack, mode⟩ := syn
  cases mode with
  | value =>
      rw [valueStep_objects step]
      rfl
  | item =>
      by_cases closes : token = .closeBracket
      · subst closes
        cases step
        simp [Mode.objects, Token.braces, Json.objects]
      · rw [synStep_item _ closes] at step
        rw [valueStep_objects step]
        simp [Mode.objects, Frame.objects]
  | key members first =>
      cases token <;> cases first <;> cases step <;>
        simp [Mode.objects, Token.braces, Json.objects]
  | colon members key =>
      cases token <;> cases step
      simp [Mode.objects, Token.braces, Frame.objects]
      omega
  | inArray items =>
      cases token <;> cases step
      · rw [objects_complete, Json.objects, count_array, Nat.zero_add]
        rfl
      · simp [Mode.objects, Token.braces, Frame.objects]
        omega
  | inObject members =>
      cases token <;> cases step <;> simp [Mode.objects, Token.braces, Json.objects]
  | final value => cases step

/-- A run begins as many objects as it has braces. -/
theorem read_objects {syn last : Syn} {tokens : List Token} (reads : read syn tokens = some last) :
    last.objects = syn.objects + (tokens.map Token.braces).sum := by
  induction tokens generalizing syn with
  | nil =>
      cases reads
      rfl
  | cons token rest ih =>
      rw [read_cons] at reads
      obtain ⟨next, step, reads⟩ := Option.bind_eq_some_iff.mp reads
      rw [ih reads, synStep_objects step, List.map_cons, List.sum_cons]
      omega

end Objects

/-! ## One value in another's place -/

section Filled

/-- The machine at its end inside other containers. -/
theorem Syn.under_of_final {syn : Syn} {value : Json} (final : syn.mode = .final value)
    (base : List Frame) : syn.under base = complete value base := by
  rw [Syn.under, final]

/-- A run inside containers stays inside or leaves the innermost with a value. -/
theorem read_split {syn last : Syn} {tokens : List Token} {base : List Frame}
    (reads : read (syn.under base) tokens = some last) :
    (∃ inner, read syn tokens = some inner ∧ last = inner.under base) ∨
      ∃ first second inner value, tokens = first ++ second ∧ read syn first = some inner ∧
        inner.mode = .final value ∧ read (complete value base) second = some last := by
  induction tokens generalizing syn with
  | nil =>
      cases reads
      exact .inl ⟨syn, rfl, rfl⟩
  | cons token rest ih =>
      by_cases running : syn.Running
      · rw [read_cons, synStep_under running] at reads
        obtain ⟨_, outer, later⟩ := Option.bind_eq_some_iff.mp reads
        obtain ⟨next, step, rfl⟩ := Option.map_eq_some_iff.mp outer
        have enter (tokens : List Token) : read syn (token :: tokens) = read next tokens := by
          rw [read_cons, step]
          rfl
        rcases ih later with ⟨inner, run, same⟩ | ⟨first, second, inner, value, cut, run, leaves⟩
        · exact .inl ⟨inner, by rw [enter, run], same⟩
        · exact .inr ⟨token :: first, second, inner, value, by rw [cut]; rfl, by rw [enter, run],
            leaves⟩
      · obtain ⟨value, final⟩ : ∃ value, syn.mode = .final value := by
          simpa [Syn.Running] using running
        refine .inr ⟨[], token :: rest, syn, value, rfl, rfl, final, ?_⟩
        rwa [Syn.under_of_final final] at reads

/-- A run inside a container is not at its end. -/
theorem under_running (syn : Syn) (frame : Frame) (base : List Frame) :
    (syn.under (frame :: base)).Running := by
  intro value same
  by_cases running : syn.Running
  · rw [Syn.under_of_running running] at same
    exact running value same
  · obtain ⟨inner, final⟩ : ∃ value, syn.mode = .final value := by
      simpa [Syn.Running] using running
    rw [Syn.under_of_final final] at same
    cases frame <;> simp [complete] at same

/-- A run that begins in a container and ends leaves it. -/
theorem read_leaves {syn : Syn} {tokens : List Token} {frame : Frame} {base : List Frame}
    {last : Syn} {whole : Json} (reads : read (syn.under (frame :: base)) tokens = some last)
    (ends : last.mode = .final whole) :
    ∃ first second inner value, tokens = first ++ second ∧ read syn first = some inner ∧
      inner.mode = .final value ∧ read (complete value (frame :: base)) second = some last := by
  rcases read_split reads with ⟨inner, _, rfl⟩ | leaves
  · exact absurd ends (under_running inner frame base whole)
  · exact leaves

/-- The end of an array, which does not look at the items before. -/
theorem read_items {items : List Json} {tokens : List Token} {last : Syn} {whole : Json}
    (reads : read ⟨[], .inArray items⟩ tokens = some last) (ends : last.mode = .final whole) :
    ∃ extra, whole = .array (items ++ extra) ∧ ∀ others,
      read ⟨[], .inArray others⟩ tokens = some ⟨[], .final (.array (others ++ extra))⟩ := by
  induction size : tokens.length using Nat.strongRecOn generalizing items tokens with
  | ind size ih =>
      subst size
      cases tokens with
      | nil =>
          cases reads
          cases ends
      | cons token rest =>
          cases token with
          | comma =>
              have inside : read (start.under [.array items]) rest = some last := reads
              obtain ⟨first, second, inner, value, rfl, run, final, later⟩ :=
                read_leaves inside ends
              obtain ⟨extra, same, others⟩ :=
                ih second.length (by simp only [List.length_cons, List.length_append]; omega) later
                  rfl
              refine ⟨value :: extra, by simp [same], fun items' => ?_⟩
              have entered := read_under [.array items'] run
              rw [Syn.under_of_final final] at entered
              show read (start.under [.array items']) (first ++ second) = _
              rw [read_append, entered]
              show read ⟨[], .inArray (items' ++ [value])⟩ second = _
              rw [others, List.append_assoc]
              rfl
          | closeBracket =>
              cases rest with
              | nil =>
                  cases reads
                  cases ends
                  exact ⟨[], by simp, fun others => by rw [List.append_nil]; rfl⟩
              | cons token rest => cases reads
          | _ => cases reads

/-- The end of an object, which does not look at the members before. -/
theorem read_members {members : List Member} {tokens : List Token} {last : Syn} {whole : Json}
    (reads : read ⟨[], .inObject members⟩ tokens = some last) (ends : last.mode = .final whole) :
    ∃ extra, whole = .object (members ++ extra) ∧ ∀ others,
      read ⟨[], .inObject others⟩ tokens = some ⟨[], .final (.object (others ++ extra))⟩ := by
  rcases read_atRoot (show Rest.inside.Running from trivial) tokens with
    ⟨next, extra, running, run⟩ | dead
  · have same := Option.some.inj ((run members).symm.trans reads)
    rcases atRoot_value running (members ++ extra) with rfl | going
    · rw [← same] at ends
      cases ends
      exact ⟨extra, rfl, run⟩
    · rw [same] at going
      exact absurd ends (going whole)
  · exact absurd ((dead members).symm.trans reads) nofun

/-- A text that begins with a bracket is an array. -/
theorem array_of_item {tokens : List Token} {last : Syn} {whole : Json}
    (reads : read ⟨[], .item⟩ tokens = some last) (ends : last.mode = .final whole) :
    ∃ items, whole = .array items := by
  cases tokens with
  | nil =>
      cases reads
      cases ends
  | cons token rest =>
      by_cases closes : token = .closeBracket
      · subst closes
        cases rest with
        | nil =>
            cases reads
            cases ends
            exact ⟨[], rfl⟩
        | cons token rest => cases reads
      · have inside : read (start.under [.array []]) (token :: rest) = some last := by
          rw [read_cons, synStep_item _ closes] at reads
          exact reads
        obtain ⟨_, second, _, value, _, _, _, later⟩ := read_leaves inside ends
        obtain ⟨extra, same, _⟩ := read_items later ends
        exact ⟨_, same⟩

/-- A text that is an object begins with a brace. -/
theorem brace_of_object {tokens : List Token} {members : List Member}
    (reads : read start tokens = some ⟨[], .final (.object members)⟩) :
    ∃ rest, tokens = .openBrace :: rest ∧
      read ⟨[], .key [] true⟩ rest = some ⟨[], .final (.object members)⟩ := by
  cases tokens with
  | nil => cases reads
  | cons token rest =>
      have single {other : Json} (reads : read ⟨[], .final other⟩ rest =
          some ⟨[], .final (.object members)⟩) : other = .object members := by
        cases rest with
        | nil =>
            cases reads
            rfl
        | cons token rest => cases reads
      cases token with
      | openBrace => exact ⟨rest, rfl, reads⟩
      | openBracket =>
          obtain ⟨items, same⟩ :=
            array_of_item (show read ⟨[], .item⟩ rest = some ⟨[], .final _⟩ from reads) rfl
          cases same
      | scalar value => cases single reads
      | string units => cases single reads
      | _ => cases reads

/-- An object without members is only its braces. -/
theorem closeBrace_of_empty {tokens : List Token}
    (reads : read ⟨[], .key [] true⟩ tokens = some ⟨[], .final (.object [])⟩) :
    tokens = [.closeBrace] := by
  cases tokens with
  | nil => cases reads
  | cons token rest =>
      cases token with
      | closeBrace =>
          cases rest with
          | nil => rfl
          | cons token rest => cases reads
      | string key =>
          cases rest with
          | nil => cases reads
          | cons token rest =>
              cases token with
              | colon =>
                  have inside : read (start.under [.member [] key]) rest = some _ := reads
                  obtain ⟨_, second, _, value, _, _, _, later⟩ := read_leaves inside rfl
                  obtain ⟨extra, same, _⟩ := read_members later rfl
                  cases same
              | _ => cases reads
      | _ => cases reads

/-- The containers of a value in an object are inside of it. -/
theorem stack_of_object {tokens : List Token} {frame : Frame} {stack : List Frame} {mode : Mode}
    (reads : read ⟨[], .key [] true⟩ tokens = some ⟨frame :: stack, mode⟩) :
    ∃ frames root key, frame :: stack = frames ++ [.member root key] := by
  rcases read_atRoot (show (Rest.key true).Running from trivial) tokens with
    ⟨next, extra, running, run⟩ | dead
  · have same := Option.some.inj ((run []).symm.trans reads)
    cases next with
    | framed key inner =>
        rw [atRoot, Syn.under_of_running running] at same
        exact ⟨inner.stack, [] ++ extra, key, (congrArg Syn.stack same).symm⟩
    | _ => cases same
  · cases (dead []).symm.trans reads

/-- A key and its colon are in an object. -/
theorem frame_of_key {syn last : Syn} {key : Units}
    (reads : read syn [.string key, .colon] = some last) :
    ∃ members stack, last = ⟨.member members key :: stack, .value⟩ := by
  have completed (other : Json) (stack : List Frame) :
      synStep (complete other stack) .colon = none := by
    cases stack with
    | nil => rfl
    | cons frame stack => cases frame <;> rfl
  obtain ⟨next, step, later⟩ := Option.bind_eq_some_iff.mp ((read_cons _ _ _).symm.trans reads)
  obtain ⟨final, colon, same⟩ := Option.bind_eq_some_iff.mp ((read_cons _ _ _).symm.trans later)
  cases same
  obtain ⟨stack, mode⟩ := syn
  cases mode with
  | value =>
      cases step
      exact absurd (completed _ _ ▸ colon) nofun
  | item =>
      cases step
      exact absurd (completed _ _ ▸ colon) nofun
  | key members first =>
      cases step
      cases colon
      exact ⟨members, stack, rfl⟩
  | _ => cases step

/-- No step comes back to the start. -/
theorem synStep_ne_start {syn : Syn} {token : Token} : synStep syn token ≠ some start := by
  have complete_ne (value : Json) (stack : List Frame) : complete value stack ≠ start := by
    cases stack with
    | nil => exact nofun
    | cons frame stack => cases frame <;> exact nofun
  have value_ne (stack : List Frame) : valueStep stack token ≠ some start := by
    cases token <;>
      first
      | exact fun same => complete_ne _ _ (Option.some.inj same)
      | exact fun same => by cases same
  obtain ⟨stack, mode⟩ := syn
  cases mode with
  | value => exact value_ne stack
  | item =>
      by_cases closes : token = .closeBracket
      · subst closes
        exact fun same => complete_ne _ _ (Option.some.inj same)
      · rw [synStep_item _ closes]
        exact value_ne _
  | key members first =>
      cases token <;> cases first <;>
        first
        | exact fun same => complete_ne _ _ (Option.some.inj same)
        | exact fun same => by cases same
  | _ =>
      cases token <;>
        first
        | exact fun same => complete_ne _ _ (Option.some.inj same)
        | exact fun same => by cases same

/-- A run never comes back to the start. -/
theorem ne_start_of_read {syn last : Syn} {tokens : List Token} (some_ : tokens ≠ [])
    (reads : read syn tokens = some last) : last ≠ start := by
  induction tokens generalizing syn with
  | nil => exact absurd rfl some_
  | cons token rest ih =>
      rw [read_cons] at reads
      obtain ⟨next, first, later⟩ := Option.bind_eq_some_iff.mp reads
      by_cases more : rest = []
      · subst more
        cases later
        exact fun same => synStep_ne_start (same ▸ first)
      · exact ih more later

/-- What is in a member's value and as deep as the member's end is a value. -/
theorem value_of_depth {tokens later : List Token} {members : List Member} {key : Units}
    {stack : List Frame} {value : Json} {last other : Syn} {first second : Json}
    (some_ : tokens ≠ []) (comma : Token.comma ∉ tokens) (brace : Token.closeBrace ∉ tokens)
    (reads : read ⟨.member members key :: stack, .value⟩ (tokens ++ later) = some last)
    (ends : last = ⟨[], .final first⟩)
    (runs : read (complete value (.member members key :: stack)) later = some other)
    (stops : other = ⟨[], .final second⟩) :
    ∃ inner, read start tokens = some ⟨[], .final inner⟩ := by
  rw [read_append] at reads
  obtain ⟨middle, run, rest⟩ := Option.bind_eq_some_iff.mp reads
  obtain ⟨inner, inside, rfl⟩ :=
    read_of_under comma brace (show read (start.under _) _ = _ from run)
  have depth := read_depth rest
  have other_ := read_depth runs
  subst ends stops
  rw [depth_complete] at other_
  rcases inner.depth_under (.member members key :: stack) with sum | ⟨value, final⟩
  · obtain ⟨frames, mode⟩ := inner
    have none_ : frames.length + mode.depth = 0 := by
      rw [sum] at depth
      simp only [depth_mk, List.length_nil, Mode.depth] at depth other_ ⊢
      omega
    cases List.length_eq_zero_iff.mp (Nat.eq_zero_of_add_eq_zero_right none_)
    cases mode with
    | value => exact absurd rfl (ne_start_of_read some_ inside)
    | final value => exact ⟨value, inside⟩
    | _ => cases none_
  · exact ⟨value, by rw [inside, read_final (show start.Running from fun _ ends => by cases ends) inside final]⟩

/-- A value is found again in a larger one. -/
structure Holds (place : Json → Json) : Prop where
  injective : ∀ first second, place first = place second → first = second
  nodes_le : ∀ value, value.nodes ≤ (place value).nodes

/-- A value in an array. -/
theorem holds_array {place : Json → Json} (holds : Holds place) (items extra : List Json) :
    Holds (fun value => place (.array (items ++ value :: extra))) ∧
      ∀ value : Json, value.nodes < (place (.array (items ++ value :: extra))).nodes := by
  have more (value : Json) : value.nodes < (place (.array (items ++ value :: extra))).nodes := by
    have outer := holds.nodes_le (.array (items ++ value :: extra))
    simp only [Json.nodes, count_array, List.map_append, List.map_cons, List.sum_append,
      List.sum_cons] at outer ⊢
    omega
  refine ⟨⟨fun first second same => ?_, fun value => Nat.le_of_lt (more value)⟩, more⟩
  simpa using holds.injective _ _ same

/-- A value in an object. -/
theorem holds_object {place : Json → Json} (holds : Holds place) (members extra : List Member)
    (key : Units) : Holds (fun value => place (.object (members ++ (key, value) :: extra))) ∧
      ∀ value : Json, value.nodes < (place (.object (members ++ (key, value) :: extra))).nodes := by
  have more (value : Json) :
      value.nodes < (place (.object (members ++ (key, value) :: extra))).nodes := by
    have outer := holds.nodes_le (.object (members ++ (key, value) :: extra))
    simp only [Json.nodes, count_object, List.map_append, List.map_cons, List.sum_append,
      List.sum_cons] at outer ⊢
    omega
  refine ⟨⟨fun first second same => ?_, fun value => Nat.le_of_lt (more value)⟩, more⟩
  simpa using holds.injective _ _ same

/-- A run behind a value, which may be any other: the value ends in the member of the root it began
in, below it where there are more containers. -/
theorem read_filled (frames : List Frame) {root : List Member} {key : Units} {tokens : List Token}
    {value whole : Json} {last : Syn}
    (reads : read (complete value (frames ++ [.member root key])) tokens = some last)
    (ends : last.mode = .final whole) :
    ∃ place extra, Holds place ∧ (frames = [] → place = id) ∧
      (frames ≠ [] → ∀ other : Json, other.nodes < (place other).nodes) ∧
      ∀ other, read (complete other (frames ++ [.member root key])) tokens =
        some ⟨[], .final (.object (root ++ (key, place other) :: extra))⟩ := by
  induction frames generalizing value tokens with
  | nil =>
      obtain ⟨extra, _, others⟩ := read_members reads ends
      refine ⟨id, extra, ⟨fun _ _ same => same, fun _ => le_rfl⟩, fun _ => rfl, fun some_ =>
        absurd rfl some_, fun other => ?_⟩
      show read ⟨[], .inObject (root ++ [(key, other)])⟩ tokens = _
      rw [others, List.append_assoc]
      rfl
  | cons frame frames ih =>
      have outer (other : Json) : complete other (frame :: frames ++ [.member root key]) =
          (complete other [frame]).under (frames ++ [.member root key]) := by
        rw [complete_under]
        rfl
      simp only [outer] at reads ⊢
      obtain ⟨first, second, inner, within, rfl, run, final, later⟩ :
          ∃ first second inner within, tokens = first ++ second ∧
            read (complete value [frame]) first = some inner ∧ inner.mode = .final within ∧
            read (complete within (frames ++ [.member root key])) second = some last := by
        cases frames with
        | nil => exact read_leaves reads ends
        | cons next frames => exact read_leaves reads ends
      obtain ⟨place, extra, holds, _, _, rest⟩ := ih later
      have through {syn : Syn} {other : Json} (reads : read syn first = some ⟨[], .final other⟩) :
          read (syn.under (frames ++ [.member root key])) (first ++ second) =
            some ⟨[], .final (.object (root ++ (key, place other) :: extra))⟩ := by
        rw [read_append, read_under _ reads]
        exact rest other
      cases frame with
      | array items =>
          obtain ⟨more, _, others⟩ := read_items run final
          have found := holds_array holds items more
          refine ⟨_, extra, found.1, nofun, fun _ => found.2, fun other => through ?_⟩
          show read ⟨[], .inArray (items ++ [other])⟩ first = _
          rw [others, List.append_assoc]
          rfl
      | member members name =>
          obtain ⟨more, _, others⟩ := read_members run final
          have found := holds_object holds members more name
          refine ⟨_, extra, found.1, nofun, fun _ => found.2, fun other => through ?_⟩
          show read ⟨[], .inObject (members ++ [(name, other)])⟩ first = _
          rw [others, List.append_assoc]
          rfl

end Filled

end DressOn.JsonTexts
