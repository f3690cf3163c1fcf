import DressOn.Lib.JsonLexing
import Mathlib.Data.List.TakeWhile

/-!
# Overrides of the fit configuration

The fit stage edits the text of its configuration: for each override it looks for the key in quotes
with a value behind, and puts the new value in the place of the first, or the key behind every
brace where there is none. The text still is the object with the key set if the first occurrence is
the key of the object itself, with a value the pattern takes as a whole.
-/

namespace DressOn.Host.FitOverrides

open DressOn.JsonTexts

/-! ## The pattern -/

section Pattern

/-- A text. -/
abbrev Text := List Char

/-- The white space of a pattern: `\s`. -/
def isWhite (c : Char) : Bool :=
  c == ' ' || c == '\t' || c == '\n' || c == '\r' || c == '\x0b' || c == '\x0c'

/-- The characters that end a value: those `[^,}\n]` leaves out. -/
def isEnd (c : Char) : Bool := c == ',' || c == '}' || c == '\n'

/-- A match with what is before and behind: its group is the head. -/
structure Match where
  before : Text
  head : Text
  value : Text
  after : Text

/-- `[^,}\n]+` behind some white space of the head. -/
def valueAt (rest : Text) (white : Nat) : Option Match :=
  let value := (rest.drop white).takeWhile (!isEnd ·)
  if value.isEmpty then none
  else some ⟨[], rest.take white, value, (rest.drop white).dropWhile (!isEnd ·)⟩

/-- `\s*` takes what it can and gives back what the value needs. -/
def giveBack (rest : Text) : Nat → Option Match
  | 0 => valueAt rest 0
  | white + 1 => (valueAt rest (white + 1)).or (giveBack rest white)

/-- The key in quotes. -/
def quoted (key : Text) : Text := '"' :: key ++ ['"']

/-- The pattern at one place of the text: only a colon follows the white space behind the key. -/
def matchAt (key text : Text) : Option Match :=
  if (quoted key).isPrefixOf text then
    let rest := text.drop (quoted key).length
    match rest.dropWhile isWhite with
    | ':' :: value =>
        (giveBack value (value.takeWhile isWhite).length).map fun found =>
          { found with head := quoted key ++ (rest.takeWhile isWhite ++ ':' :: found.head) }
    | _ => none
  else none

/-- The first match of the pattern. -/
def search (key : Text) : Text → Option Match
  | [] => none
  | c :: rest =>
      (matchAt key (c :: rest)).or
        ((search key rest).map fun found => { found with before := c :: found.before })

/-- The characters a pattern gives a meaning to. -/
def isMeta (c : Char) : Bool :=
  ['\\', '^', '$', '.', '[', '|', '(', ')', '?', '*', '+', '{'].contains c

/-- A key that stands for itself in the pattern and in a string. -/
def isPlain (key : Text) : Bool := key.all fun c => isLiteral c && !isMeta c

/-- The engine that compiles the pattern and expands `${1}` with the value behind. -/
structure RegEx where
  search : Text → Text → Option Match
  expand : Text → Text → Text
  search_plain : ∀ key, isPlain key = true → search key = FitOverrides.search key
  expand_plain : ∀ head value, '$' ∉ value → expand head value = head ++ value

/-- The engine of texts that stand for themselves. -/
def RegEx.verbatim : RegEx := ⟨FitOverrides.search, (· ++ ·), fun _ _ => rfl, fun _ _ _ => rfl⟩

end Pattern

/-! ## The edit -/

section Edit

/-- An override: a key and the literal of its value. -/
structure Override where
  key : Text
  literal : Text
  value : Json
  reads : parse literal = some value

/-- The key and its value as the first member of an object. -/
def insertion (o : Override) : Text := quoted o.key ++ ([':', ' '] ++ (o.literal ++ [',', ' ']))

variable (regex : RegEx)

/-- One override. -/
def applyOverride (cfgText : Text) (o : Override) : Text :=
  match regex.search o.key cfgText with
  | none => insertAt (insertion o) cfgText
  | some found => found.before ++ (regex.expand found.head o.literal ++ found.after)

/-- `_apply_overrides` -/
def applyOverrides (overrides : List Override) (cfgText : Text) : Text :=
  overrides.foldl (applyOverride regex) cfgText

end Edit

/-! ## Matches -/

section Matches

/-- A match of the pattern for a key. -/
structure Match.Of (key text : Text) (found : Match) : Prop where
  split : text = found.before ++ (found.head ++ (found.value ++ found.after))
  head : ∃ white later, found.head = quoted key ++ (white ++ ':' :: later) ∧
    white.all isWhite = true ∧ later.all isWhite = true
  value : ∀ c ∈ found.value, isEnd c = false
  after : ∀ c ∈ found.after.head?, isEnd c = true
  begins : (∃ c ∈ found.value.head?, isWhite c = false) ∨ ∃ white rest,
    found.value ++ found.after = white ++ rest ∧ white.all isWhite = true ∧
      ∀ c ∈ rest.head?, c = ',' ∨ c = '}'

theorem mem_head?_dropWhile {p : Char → Bool} {text : Text} {c : Char}
    (inside : c ∈ (text.dropWhile p).head?) : p c = false := by
  have head := List.head?_dropWhile_not p text
  rw [show (text.dropWhile p).head? = some c from inside] at head
  exact head

/-- What is behind some of the white space. -/
theorem valueAt_spec {rest : Text} {white : Nat} {found : Match}
    (at_ : valueAt rest white = some found) : found.before = [] ∧
      found.head = rest.take white ∧ found.value ++ found.after = rest.drop white ∧
      found.value ≠ [] ∧ (∀ c ∈ found.value, isEnd c = false) ∧
      ∀ c ∈ found.after.head?, isEnd c = true := by
  unfold valueAt at at_
  dsimp only at at_
  split at at_
  · cases at_
  next some_ =>
    cases at_
    exact ⟨rfl, rfl, List.takeWhile_append_dropWhile,
      fun none_ => some_ (List.isEmpty_iff.mpr none_),
      fun c inside => by simpa using List.mem_takeWhile_imp inside,
      fun c inside => by simpa using mem_head?_dropWhile inside⟩

/-- There is no value at the end and in front of a comma, a brace or a new line. -/
theorem head?_of_valueAt {rest : Text} {white : Nat} (at_ : valueAt rest white = none) :
    ∀ c ∈ (rest.drop white).head?, isEnd c = true := by
  intro c inside
  unfold valueAt at at_
  dsimp only at at_
  split at at_
  next none_ =>
    obtain ⟨others, cut⟩ := List.head?_eq_some_iff.mp inside
    rw [cut, List.takeWhile_cons] at none_
    by_contra notEnd
    simp [notEnd] at none_
  · cases at_

/-- What the white space gives back. -/
theorem giveBack_spec {rest : Text} {most : Nat} {found : Match}
    (gives : giveBack rest most = some found) :
    ∃ white ≤ most, valueAt rest white = some found ∧
      (white < most → valueAt rest most = none) := by
  induction most with
  | zero => exact ⟨0, le_rfl, gives, fun less => absurd less (lt_irrefl 0)⟩
  | succ most ih =>
      cases most_ : valueAt rest (most + 1) with
      | some first =>
          rw [giveBack, most_, Option.some_or] at gives
          exact ⟨most + 1, le_rfl, most_.trans gives, fun less => absurd less (lt_irrefl _)⟩
      | none =>
          rw [giveBack, most_, Option.none_or] at gives
          obtain ⟨white, below, at_, _⟩ := ih gives
          exact ⟨white, by omega, at_, fun _ => rfl⟩

/-- A place where the pattern matches. -/
theorem matchAt_spec {key text : Text} {found : Match} (matches_ : matchAt key text = some found) :
    found.before = [] ∧ found.Of key text := by
  unfold matchAt at matches_
  split at matches_
  next starts =>
    dsimp only at matches_
    split at matches_
    next rest value colon =>
      obtain ⟨inner, gives, rfl⟩ := Option.map_eq_some_iff.mp matches_
      obtain ⟨white, below, at_, less⟩ := giveBack_spec gives
      obtain ⟨none_, head, parts, some_, ends, after⟩ := valueAt_spec at_
      have front : text = quoted key ++ text.drop (quoted key).length := by
        obtain ⟨others, same⟩ := List.isPrefixOf_iff_prefix.mp starts
        rw [← same, List.drop_left]
      have rest : text.drop (quoted key).length =
          (text.drop (quoted key).length).takeWhile isWhite ++ ':' :: value := by
        rw [← colon, List.takeWhile_append_dropWhile]
      have white_ : (value.takeWhile isWhite).all isWhite = true :=
        List.all_eq_true.mpr fun c inside => List.mem_takeWhile_imp inside
      have both := List.takeWhile_append_dropWhile (p := isWhite) (l := value)
      have taken : value.take white = (value.takeWhile isWhite).take white := by
        calc
          value.take white = (value.takeWhile isWhite ++ value.dropWhile isWhite).take white := by
            rw [both]
          _ = (value.takeWhile isWhite).take white := List.take_append_of_le_length below
      have dropped : value.drop white =
          (value.takeWhile isWhite).drop white ++ value.dropWhile isWhite := by
        rw [← List.drop_append_of_le_length below, both]
      have whole : value.drop (value.takeWhile isWhite).length = value.dropWhile isWhite := by
        calc
          value.drop (value.takeWhile isWhite).length =
              (value.takeWhile isWhite ++ value.dropWhile isWhite).drop
                (value.takeWhile isWhite).length := by rw [both]
          _ = value.dropWhile isWhite := List.drop_left
      refine ⟨none_, ?_, ⟨_, value.take white, by rw [head], ?_, ?_⟩, ends, after, ?_⟩
      · dsimp only
        rw [none_, head, parts]
        simp only [List.nil_append, List.append_assoc, List.cons_append, List.take_append_drop]
        rw [← rest, ← front]
      · exact List.all_eq_true.mpr fun c inside => List.mem_takeWhile_imp inside
      · rw [taken]
        exact List.all_eq_true.mpr fun c inside =>
          List.all_eq_true.mp white_ c (List.mem_of_mem_take inside)
      · rcases Nat.lt_or_ge white (value.takeWhile isWhite).length with more | all
        · refine .inr ⟨_, value.dropWhile isWhite, parts.trans dropped, ?_, fun c inside => ?_⟩
          · exact List.all_eq_true.mpr fun c inside =>
              List.all_eq_true.mp white_ c (List.mem_of_mem_drop inside)
          · have notWhite := mem_head?_dropWhile inside
            have stop := head?_of_valueAt (less more) c (by rwa [whole])
            simp only [isEnd, Bool.or_eq_true, beq_iff_eq] at stop
            rcases stop with bound | rfl
            · exact bound
            · exact absurd notWhite (by decide)
        · left
          rw [Nat.le_antisymm below all, whole] at parts
          obtain ⟨c, others, cut⟩ := List.exists_cons_of_ne_nil some_
          refine ⟨c, by simp [cut], @mem_head?_dropWhile isWhite value c ?_⟩
          rw [← parts, cut]
          rfl
    · cases matches_
  · cases matches_

theorem search_spec {key text : Text} {found : Match} (searches : search key text = some found) :
    found.Of key text := by
  induction text generalizing found with
  | nil => cases searches
  | cons c rest ih =>
      rw [search] at searches
      rcases Option.or_eq_some_iff.mp searches with here | ⟨_, later⟩
      · exact (matchAt_spec here).2
      · obtain ⟨inner, found, rfl⟩ := Option.map_eq_some_iff.mp later
        obtain ⟨split, head, value, after, begins⟩ := ih found
        exact ⟨congrArg (c :: ·) split, head, value, after, begins⟩

end Matches

/-! ## The tokens of a match -/

section Tokens

/-- White space has no tokens. -/
theorem lex_white {white : Text} (all : white.all isWhite = true) :
    lex .blank white = some (.blank, []) ∨ lex .blank white = none := by
  induction white with
  | nil => exact .inl rfl
  | cons c rest ih =>
      obtain ⟨first, others⟩ := Bool.and_eq_true_iff.mp (List.all_cons ▸ all)
      have step : lexStep .blank c = some (.blank, []) ∨ lexStep .blank c = none := by
        simp only [isWhite, Bool.or_eq_true, beq_iff_eq] at first
        rcases first with ((((rfl | rfl) | rfl) | rfl) | rfl) | rfl <;>
          first | exact .inl rfl | exact .inr rfl
      rw [lex_cons]
      rcases step with step | step <;> rw [step]
      · rcases ih others with run | dead
        · exact .inl (by simp [run])
        · exact .inr (by simp [dead])
      · exact .inr rfl

theorem stop_of_end {c : Char} (end_ : isEnd c = true) : isBare c = false := by
  simp only [isEnd, Bool.or_eq_true, beq_iff_eq] at end_
  rcases end_ with (rfl | rfl) | rfl <;> rfl

/-- A literal in front of the end of a value has its own tokens. -/
theorem tokensFrom_literal {literal after : Text} {value : Json}
    (parses : parse literal = some value) (ends : ∀ c ∈ after.head?, isEnd c = true) :
    ∃ tokens, tokensFrom .blank literal = some tokens ∧
      read start tokens = some ⟨[], .final value⟩ ∧
      tokensFrom .blank (literal ++ after) = (tokensFrom .blank after).map (tokens ++ ·) := by
  obtain ⟨tokens, lexes, reads⟩ := parse_eq_some.mp parses
  refine ⟨tokens, lexes, reads, ?_⟩
  obtain ⟨⟨last, front⟩, run, ended⟩ := Option.bind_eq_some_iff.mp lexes
  obtain ⟨word, flushed, rfl⟩ := Option.map_eq_some_iff.mp ended
  rw [tokensFrom_append, run, Option.bind_some,
    tokensFrom_stop (flush_outside flushed) fun c inside => stop_of_end (ends c inside), flushed]
  cases tokensFrom .blank after <;> simp

/-- A value behind a key. -/
theorem read_value {tokens later : List Token} {members : List Member} {key : Units}
    {stack : List Frame} {value : Json} (reads : read start tokens = some ⟨[], .final value⟩) :
    read ⟨.member members key :: stack, .value⟩ (tokens ++ later) =
      read (complete value (.member members key :: stack)) later := by
  have inside := read_under (.member members key :: stack) reads
  rw [read_append, show read ⟨.member members key :: stack, .value⟩ tokens = _ from inside]
  rfl

/-- Where only white space stands there is no value. -/
theorem read_no_value {white rest : Text} (all : white.all isWhite = true)
    (stops : ∀ c ∈ rest.head?, c = ',' ∨ c = '}') {tokens : List Token}
    (lexes : tokensFrom .blank (white ++ rest) = some tokens) (stack : List Frame)
    (whole : Json) : read ⟨stack, .value⟩ tokens ≠ some ⟨[], .final whole⟩ := by
  rw [tokensFrom_append] at lexes
  rcases lex_white all with run | dead
  · rw [run] at lexes
    obtain ⟨others, later, rfl⟩ := Option.map_eq_some_iff.mp lexes
    cases rest with
    | nil =>
        cases later
        exact nofun
    | cons c rest =>
        rw [tokensFrom_cons] at later
        rcases stops c rfl with rfl | rfl
        · obtain ⟨more, _, rfl⟩ := Option.map_eq_some_iff.mp later
          exact nofun
        · obtain ⟨more, _, rfl⟩ := Option.map_eq_some_iff.mp later
          exact nofun
  · rw [dead] at lexes
    cases lexes

/-- A string that has begun does not end with the value of a match. -/
theorem inside_dead {state : Lex} (inside : ¬ state.Outside) {after : Text}
    (ends : ∀ c ∈ after.head?, isEnd c = true) {later : List Token}
    (lexesAfter : tokensFrom .blank after = some later) : tokensFrom state after = none := by
  have short {state : Lex} (flushes : flush state = none)
      (steps : ∀ c, isEnd c = true → lexStep state c = none) : tokensFrom state after = none := by
    cases after with
    | nil => rw [tokensFrom, lex, Option.bind_some, flushes, Option.map_none]
    | cons c rest => rw [tokensFrom_cons, steps c (ends c rfl), Option.bind_none]
  cases state with
  | blank => exact absurd trivial inside
  | bare text => exact absurd trivial inside
  | string units =>
      exact (tokensFrom_opposite after (show Lex.Outside .blank from trivial) units).resolve_right
        fun dead => absurd (lexesAfter.symm.trans dead) (Option.some_ne_none _)
  | slash units =>
      refine short rfl fun c end_ => ?_
      simp only [isEnd, Bool.or_eq_true, beq_iff_eq] at end_
      rcases end_ with (rfl | rfl) | rfl <;> rfl
  | hex units digits =>
      refine short rfl fun c end_ => ?_
      simp only [isEnd, Bool.or_eq_true, beq_iff_eq] at end_
      rcases end_ with (rfl | rfl) | rfl <;> rfl

/-- In a text with the value of a match replaced, the value was one: it does not end in a string,
and is as deep at its end as at its start. -/
theorem parse_value {key text : Text} {found : Match} (is : found.Of key text)
    {members : List Member} {name : Units} {stack : List Frame} {value first second : Json}
    {tokens later : List Token}
    (lexes : tokensFrom .blank (found.value ++ found.after) = some tokens)
    (reads : read ⟨.member members name :: stack, .value⟩ tokens = some ⟨[], .final first⟩)
    (lexesAfter : tokensFrom .blank found.after = some later)
    (readsAfter : read (complete value (.member members name :: stack)) later =
      some ⟨[], .final second⟩) :
    ∃ inner, parse found.value = some inner := by
  have both := lexes
  rw [tokensFrom_append] at lexes
  obtain ⟨⟨last, front⟩, run, rest⟩ := Option.bind_eq_some_iff.mp lexes
  obtain ⟨others, lexesOthers, rfl⟩ := Option.map_eq_some_iff.mp rest
  dsimp only at lexesOthers reads
  by_cases outside : last.Outside
  · rw [tokensFrom_stop outside fun c inside => stop_of_end (is.after c inside), lexesAfter]
      at lexesOthers
    obtain ⟨word, flushed, same⟩ := Option.bind_eq_some_iff.mp lexesOthers
    cases same
    have whole : tokensFrom .blank found.value = some (front ++ word) := by
      rw [tokensFrom, run, Option.bind_some, flushed]
      rfl
    rw [← List.append_assoc] at reads
    have plain {token : Token} {c : Char} (char : token.char = some c) (end_ : isEnd c = true) :
        token ∉ front ++ word := by
      intro inside
      rcases List.mem_append.mp inside with inFront | inWord
      · have value := is.value c (lex_char run inFront char)
        rw [end_] at value
        cases value
      · rw [flush_char flushed inWord] at char
        cases char
    have some_ : front ++ word ≠ [] := by
      rcases is.begins with ⟨c, first_, notWhite⟩ | ⟨white, rest, cut, all, stops⟩
      · refine tokens_ne_nil whole (.inr ⟨c, first_, ?_⟩)
        simp only [isWhite, Bool.or_eq_false_iff] at notWhite
        simp [isSpace, notWhite]
      · rw [cut] at both
        rw [← List.append_assoc] at both
        exact absurd reads (read_no_value all stops both _ _)
    obtain ⟨inner, reads⟩ := value_of_depth some_ (plain rfl rfl) (plain rfl rfl) reads rfl
      readsAfter rfl
    exact ⟨inner, parse_eq_some.mpr ⟨_, whole, reads⟩⟩
  · rw [inside_dead outside is.after lexesAfter] at lexesOthers
    cases lexesOthers

/-- A text behind a lead. -/
theorem parse_lead {lead tail : Text} {front : List Token} {syn : Syn} {whole : Json}
    (lexes : lex .blank lead = some (.blank, front)) (reads : read start front = some syn) :
    parse (lead ++ tail) = some whole ↔ ∃ tokens, tokensFrom .blank tail = some tokens ∧
      read syn tokens = some ⟨[], .final whole⟩ := by
  rw [parse_eq_some, tokensFrom_append, lexes, Option.bind_some]
  constructor
  · rintro ⟨tokens, lexes, run⟩
    obtain ⟨others, later, rfl⟩ := Option.map_eq_some_iff.mp lexes
    rw [read_append, reads] at run
    exact ⟨others, later, run⟩
  · rintro ⟨tokens, later, run⟩
    refine ⟨front ++ tokens, by rw [later]; rfl, ?_⟩
    rw [read_append, reads]
    exact run

/-- A literal behind a key. -/
theorem parse_literal {lead literal after : Text} {front : List Token} {members : List Member}
    {key : Units} {stack : List Frame} {value whole : Json}
    (lexes : lex .blank lead = some (.blank, front))
    (reads : read start front = some ⟨.member members key :: stack, .value⟩)
    (parses : parse literal = some value) (ends : ∀ c ∈ after.head?, isEnd c = true) :
    parse (lead ++ (literal ++ after)) = some whole ↔
      ∃ later, tokensFrom .blank after = some later ∧
        read (complete value (.member members key :: stack)) later =
          some ⟨[], .final whole⟩ := by
  rw [parse_lead lexes reads]
  obtain ⟨tokens, _, value_, both⟩ := tokensFrom_literal parses ends
  rw [both]
  constructor
  · rintro ⟨_, lexes, run⟩
    obtain ⟨later, lexesAfter, rfl⟩ := Option.map_eq_some_iff.mp lexes
    exact ⟨later, lexesAfter, by rwa [read_value value_] at run⟩
  · rintro ⟨later, lexes, run⟩
    exact ⟨tokens ++ later, by rw [lexes]; rfl, by rwa [read_value value_]⟩

/-- A word in quotes with a colon behind ends a key of some object of the text. -/
theorem lead_of_word {key text : Text} {found : Match} (is : found.Of key text)
    (word : isWord key = true) {whole : Json} (parses : parse text = some whole) :
    ∃ front members name stack,
      lex .blank (found.before ++ found.head) = some (.blank, front) ∧
      read start front = some ⟨.member members name :: stack, .value⟩ := by
  obtain ⟨tokens, lexes, reads⟩ := parse_eq_some.mp parses
  obtain ⟨white, white', head, all, all'⟩ := is.head
  have cut : text = found.before ++ (quoted key ++ (white ++ ([':'] ++ (white' ++
      (found.value ++ found.after))))) := by
    rw [is.split, head]
    simp
  rw [cut] at lexes
  obtain ⟨state, before, afterBefore, runBefore, lexesQuoted, rfl⟩ := cut_tokensFrom lexes
  obtain ⟨state', inQuotes, afterQuotes, runQuoted, lexesWhite, rfl⟩ := cut_tokensFrom lexesQuoted
  obtain ⟨last, blank, afterWhite, runWhite, lexesColon, rfl⟩ := cut_tokensFrom lexesWhite
  rcases lex_quoted word state with dead | ⟨front, name, run⟩ | ⟨first, second, run⟩
  · exact nomatch runQuoted.symm.trans dead
  · cases runQuoted.symm.trans run
    have clean {white : Text} {next : Lex} {tokens : List Token} (all : white.all isWhite = true)
        (run : lex .blank white = some (next, tokens)) : next = .blank ∧ tokens = [] := by
      rcases lex_white all with same | dead
      · cases run.symm.trans same
        exact ⟨rfl, rfl⟩
      · exact nomatch run.symm.trans dead
    obtain ⟨rfl, rfl⟩ := clean all runWhite
    have colon : lex .blank [':'] = some (.blank, [.colon]) := rfl
    obtain ⟨_, _, afterColon, runColon, lexesMore, rfl⟩ := cut_tokensFrom lexesColon
    cases runColon.symm.trans colon
    obtain ⟨next, blank', rest, runMore, lexesValue, rfl⟩ := cut_tokensFrom lexesMore
    obtain ⟨rfl, rfl⟩ := clean all' runMore
    have regroup : before ++ (front ++ [.string name] ++ ([] ++ ([.colon] ++ ([] ++ rest)))) =
        (before ++ front) ++ ([.string name, .colon] ++ rest) := by simp
    rw [regroup, read_append] at reads
    obtain ⟨syn, early, reads⟩ := Option.bind_eq_some_iff.mp reads
    rw [read_append] at reads
    obtain ⟨syn', keyed, late⟩ := Option.bind_eq_some_iff.mp reads
    obtain ⟨members, stack, rfl⟩ := frame_of_key keyed
    refine ⟨before ++ front ++ [.string name, .colon], members, name, stack, ?_, ?_⟩
    · have lead :=
        lex_trans runBefore (lex_trans run (lex_trans runWhite (lex_trans colon runMore)))
      rw [head]
      simpa [quoted] using lead
    · rw [read_append, early]
      exact keyed
  · cases runQuoted.symm.trans run
    rw [read_append] at reads
    obtain ⟨syn, _, late⟩ := Option.bind_eq_some_iff.mp reads
    exact nomatch (read_adjacent syn first second _).symm.trans late

/-- What the text is with another literal in the place of the value of a match: the value is in a
member of the object, or is one. -/
theorem parse_replaced {key text : Text} {found : Match} (is : found.Of key text)
    {front : List Token} {members before : List Member} {name : Units} {stack : List Frame}
    {inner : Json} (parses : parse text = some (.object members))
    (lexes : lex .blank (found.before ++ found.head) = some (.blank, front))
    (reads : read start front = some ⟨.member before name :: stack, .value⟩)
    (value : parse found.value = some inner) :
    ∃ frames root rootKey place extra,
      .member before name :: stack = frames ++ [.member root rootKey] ∧ Holds place ∧
      (frames = [] → place = id) ∧
      (frames ≠ [] → ∀ other : Json, other.nodes < (place other).nodes) ∧
      members = root ++ (rootKey, place inner) :: extra ∧
      ∀ literal json, parse literal = some json →
        parse (found.before ++ (found.head ++ literal ++ found.after)) =
          some (.object (root ++ (rootKey, place json) :: extra)) := by
  have inText : parse (found.before ++ found.head ++ (found.value ++ found.after)) =
      some (.object members) := by
    rw [List.append_assoc, ← is.split]
    exact parses
  obtain ⟨later, lexesAfter, run⟩ := (parse_literal lexes reads value is.after).mp inText
  obtain ⟨frames, root, rootKey, inside⟩ :
      ∃ frames root rootKey, .member before name :: stack = frames ++ [.member root rootKey] := by
    obtain ⟨tokens, both, whole⟩ := parse_eq_some.mp inText
    rw [tokensFrom_append, lexes, Option.bind_some] at both
    obtain ⟨others, _, rfl⟩ := Option.map_eq_some_iff.mp both
    obtain ⟨rest, brace, _⟩ := brace_of_object whole
    cases front with
    | nil => cases reads
    | cons token front =>
        cases brace
        exact stack_of_object (show read ⟨[], .key [] true⟩ front = _ from reads)
  obtain ⟨place, extra, holds, flat, deep, others⟩ := read_filled frames (inside ▸ run) rfl
  refine ⟨frames, root, rootKey, place, extra, inside, holds, flat, deep, ?_,
    fun literal json literal_ => ?_⟩
  · have same := (others inner).symm.trans (inside ▸ run)
    cases same
    rfl
  · rw [List.append_assoc, ← List.append_assoc]
    exact (parse_literal lexes reads literal_ is.after).mpr
      ⟨later, lexesAfter, inside ▸ others json⟩

end Tokens

/-! ## What an override sets -/

section Sets

/-- An edited object: the overrides set, and the other members as they were. -/
structure Sets (overrides : List Override) (members edited : List Member) : Prop where
  others : edited.filter (fun m => m.1 ∉ overrides.map fun o => units o.key) =
    members.filter fun m => m.1 ∉ overrides.map fun o => units o.key
  present : ∀ o ∈ overrides, ∃ m ∈ edited, m.1 = units o.key
  values : ∀ o ∈ overrides, ∀ m ∈ edited, m.1 = units o.key → m.2 = o.value

/-- No member has another value for the key. -/
def Already (o : Override) (members : List Member) : Prop :=
  ∀ m ∈ members, m.1 = units o.key → m.2 = o.value

/-- The match is the key of the object itself, behind some of its members. -/
def Own (o : Override) (found : Match) (before : List Member) : Prop :=
  ∃ tokens, lex .blank (found.before ++ found.head) = some (.blank, tokens) ∧
    read start tokens = some ⟨[.member before (units o.key)], .value⟩

/-- An override a text is edited right for. The first match, if there is one, is the key of the
object itself, what the pattern takes is all of its value, and no second member has the key; or it
is somewhere else, where the value is the same. If there is none, the only brace is that of the
object, which is not empty. -/
def Fits (o : Override) (text : Text) : Prop :=
  isPlain o.key = true ∧ '$' ∉ o.literal ∧ ∃ members, parse text = some (.object members) ∧
    match search o.key text with
    | some found => ∃ value, parse found.value = some value ∧
        ((∃ before, Own o found before ∧ Already o (members.eraseIdx before.length)) ∨
          isWord o.key = true ∧ value = o.value ∧ Already o members ∧
            ∃ m ∈ members, m.1 = units o.key)
    | none => text.count '{' = 1 ∧ members ≠ [] ∧ Already o members

/-- The members with one other in its place. -/
theorem sets_middle {o : Override} {before extra : List Member} {inner : Json}
    (already : Already o (before ++ extra)) :
    Sets [o] (before ++ (units o.key, inner) :: extra)
      (before ++ (units o.key, o.value) :: extra) := by
  refine ⟨by simp [List.filter_append], fun other one => ?_, fun other one m inside named => ?_⟩
  · cases List.mem_singleton.mp one
    exact ⟨(units o.key, o.value), by simp, rfl⟩
  · cases List.mem_singleton.mp one
    rcases List.mem_append.mp inside with first | second
    · exact already m (List.mem_append_left _ first) named
    · rcases List.mem_cons.mp second with rfl | later
      · rfl
      · exact already m (List.mem_append_right _ later) named

/-- A new member in front. -/
theorem sets_first {o : Override} {members : List Member} (already : Already o members) :
    Sets [o] members ((units o.key, o.value) :: members) := by
  refine ⟨by simp, fun other one => ?_, fun other one m inside named => ?_⟩
  · cases List.mem_singleton.mp one
    exact ⟨(units o.key, o.value), List.mem_cons_self, rfl⟩
  · cases List.mem_singleton.mp one
    rcases List.mem_cons.mp inside with rfl | later
    · rfl
    · exact already m later named

theorem sets_self {o : Override} {members : List Member} (already : Already o members)
    (present : ∃ m ∈ members, m.1 = units o.key) : Sets [o] members members :=
  ⟨rfl, fun _ one => List.mem_singleton.mp one ▸ present,
    fun _ one => List.mem_singleton.mp one ▸ already⟩

/-- Where a match is replaced right, it is the key's own, or nothing has changed: what is inside of
another member would change that one, or be its own part. -/
theorem match_of_sets {text : Text} {o : Override} {found : Match} {members edited : List Member}
    (is : found.Of o.key text) (word : isWord o.key = true)
    (parses : parse text = some (.object members))
    (after : parse (found.before ++ (found.head ++ o.literal ++ found.after)) =
      some (.object edited)) (sets : Sets [o] members edited) :
    ∃ value, parse found.value = some value ∧
      ((∃ before, Own o found before ∧ Already o (members.eraseIdx before.length)) ∨
        isWord o.key = true ∧ value = o.value ∧ Already o members ∧
          ∃ m ∈ members, m.1 = units o.key) := by
  obtain ⟨front, before, name, stack, lexes, reads⟩ := lead_of_word is word parses
  obtain ⟨inner, value⟩ : ∃ inner, parse found.value = some inner := by
    have first : parse (found.before ++ found.head ++ (found.value ++ found.after)) =
        some (.object members) := by
      rw [List.append_assoc, ← is.split]
      exact parses
    have second : parse (found.before ++ found.head ++ (o.literal ++ found.after)) =
        some (.object edited) := by
      rw [← after]
      simp
    obtain ⟨tokens, lexesBoth, readsBoth⟩ := (parse_lead lexes reads).mp first
    obtain ⟨later, lexesAfter, readsAfter⟩ :=
      (parse_literal lexes reads o.reads is.after).mp second
    exact parse_value is lexesBoth readsBoth lexesAfter readsAfter
  obtain ⟨frames, root, rootKey, place, extra, inside, holds, flat, deep, rfl, replaced⟩ :=
    parse_replaced is parses lexes reads value
  cases (replaced o.literal o.value o.reads).symm.trans after
  have only := List.mem_singleton_self o
  refine ⟨inner, value, ?_⟩
  by_cases named : rootKey = units o.key
  · left
    have whole : place o.value = o.value := sets.values o only (rootKey, _) (by simp) named
    cases frames with
    | cons frame frames => exact absurd whole (ne_of_apply_ne Json.nodes (deep nofun _).ne')
    | nil =>
        cases inside
        subst named
        refine ⟨before, ⟨front, lexes, reads⟩, ?_⟩
        rw [List.eraseIdx_append_of_length_le le_rfl, Nat.sub_self, List.eraseIdx_cons_zero]
        intro m among
        refine sets.values o only m ?_
        rcases List.mem_append.mp among with first | second
        · exact List.mem_append_left _ first
        · exact List.mem_append_right _ (List.mem_cons_of_mem _ second)
  · right
    have same : inner = o.value := by
      have others := sets.others
      simp only [List.filter_append] at others
      rw [List.filter_cons_of_pos (by simpa using named),
        List.filter_cons_of_pos (by simpa using named)] at others
      have both := List.append_cancel_left others
      exact holds.injective _ _ (congrArg Prod.snd (List.cons.inj both).1).symm
    subst same
    exact ⟨word, rfl, sets.values o only, sets.present o only⟩

theorem literal_of_plain {key : Text} (plain : isPlain key = true) : key.all isLiteral = true :=
  List.all_eq_true.mpr fun c inside =>
    (Bool.and_eq_true_iff.mp (List.all_eq_true.mp plain c inside)).1

/-- The tokens that are inserted. -/
theorem lex_insertion {o : Override} (plain : isPlain o.key = true) :
    ∃ tokens, read start tokens = some ⟨[], .final o.value⟩ ∧
      lex .blank (insertion o) =
        some (.blank, .string (units o.key) :: .colon :: (tokens ++ [.comma])) := by
  obtain ⟨tokens, lexes, reads⟩ := parse_eq_some.mp o.reads
  obtain ⟨⟨last, front⟩, run, ended⟩ := Option.bind_eq_some_iff.mp lexes
  obtain ⟨word, flushed, rfl⟩ := Option.map_eq_some_iff.mp ended
  refine ⟨front ++ word, reads, ?_⟩
  have key : lex .blank (quoted o.key) = some (.blank, [.string (units o.key)]) := by
    show (lex (.string []) (o.key ++ ['"'])).map _ = _
    rw [lex_string (literal_of_plain plain)]
    rfl
  have comma : lex last [',', ' '] = some (.blank, word ++ [.comma]) := by
    rw [lex_cons, lexStep_stop (flush_outside flushed) rfl, flushed]
    show some (Lex.blank, word ++ [.comma] ++ []) = _
    rw [List.append_nil]
  have colon : lex .blank [':', ' '] = some (.blank, [.colon]) := rfl
  simpa [insertion] using lex_trans key (lex_trans colon (lex_trans run comma))

/-- The braces of an object are as many as its objects. -/
theorem braces_of_object {tokens : List Token} {members : List Member}
    (reads : read start tokens = some ⟨[], .final (.object members)⟩) :
    bracesOf tokens = 1 + (members.map fun m => m.2.objects).sum := by
  have objects := read_objects reads
  simp only [objects_mk, start, Mode.objects, List.map_nil, List.sum_nil, Json.objects,
    count_object] at objects
  simp only [bracesOf, Json.objects]
  omega

/-- An object whose only brace is its own has no objects in it. -/
theorem inflateMembers_of_flat (member : Member) {members : List Member}
    (flat : (members.map fun m => m.2.objects).sum = 0) :
    inflateMembers member members = members := by
  have none_ := List.sum_eq_zero_iff.mp flat
  refine (List.map_congr_left fun m inside => ?_).trans (List.map_id members)
  rw [inflate_of_objects member (none_ _ (List.mem_map_of_mem inside))]
  rfl

/-- Where there is no match and only one brace, the key becomes the first of the object. -/
theorem sets_of_no_match {text : Text} {o : Override} {members : List Member}
    (plain : isPlain o.key = true) (parses : parse text = some (.object members))
    (one : text.count '{' = 1) (some_ : members ≠ []) (already : Already o members) :
    ∃ edited, parse (insertAt (insertion o) text) = some (.object edited) ∧
      Sets [o] members edited := by
  obtain ⟨tokens, lexes, reads⟩ := parse_eq_some.mp parses
  obtain ⟨value, readsValue, inserted⟩ := lex_insertion plain
  have braces := braces_of_object reads
  have all : bracesOf tokens = text.count '{' := by
    have below := braces_le lexes
    omega
  obtain ⟨rest, rfl, inside⟩ := brace_of_object reads
  have flat : (members.map fun m => m.2.objects).sum = 0 := by omega
  have calm : .openBrace ∉ rest := by
    intro second
    have none_ : bracesOf rest = 0 := by
      rw [flat, show bracesOf (.openBrace :: rest) = 1 + bracesOf rest from rfl] at braces
      omega
    exact nomatch List.sum_eq_zero_iff.mp none_ _ (List.mem_map_of_mem (f := Token.braces) second)
  refine ⟨(units o.key, o.value) :: members, parse_eq_some.mpr
    ⟨_, tokensFrom_insertAt inserted lexes all, ?_⟩, ?_⟩
  · have step := read_insert (units o.key, o.value)
      (show synStep start .openBrace = some ⟨[], .key [] true⟩ from rfl) readsValue
    have run := read_inflate_flat (units o.key, o.value) inside calm some_
    rw [inflateMembers_of_flat _ flat] at run
    have cut (more : List Token) : inflateTokens more (.openBrace :: rest) =
        (.openBrace :: more) ++ rest := by
      rw [show Token.openBrace :: rest = [.openBrace] ++ rest from rfl, inflateTokens_append,
        inflateTokens_of_not_mem _ calm]
      simp [inflateTokens]
    rw [cut, read_append, show read start (.openBrace :: _) = _ from step]
    exact run
  · exact sets_first already

/-- Where there is no match, the key is only set by one brace: a brace in a string ends it, and one
of an object inside changes that object. -/
theorem flat_of_sets {text : Text} {o : Override} {members edited : List Member}
    (plain : isPlain o.key = true) (word : isWord o.key = true)
    (parses : parse text = some (.object members))
    (after : parse (insertAt (insertion o) text) = some (.object edited))
    (sets : Sets [o] members edited) :
    text.count '{' = 1 ∧ members ≠ [] ∧ Already o members := by
  obtain ⟨tokens, lexes, reads⟩ := parse_eq_some.mp parses
  obtain ⟨value, readsValue, inserted⟩ := lex_insertion plain
  obtain ⟨others, lexesAfter, readsAfter⟩ := parse_eq_some.mp after
  have braces := braces_of_object reads
  have all : bracesOf tokens = text.count '{' := by
    refine Nat.le_antisymm (braces_le lexes) (Nat.le_of_not_lt fun fewer => ?_)
    rcases tokensFrom_insertAt_inside word lexes fewer rfl inserted with
      dead | ⟨front, first, second, rest, run⟩
    · cases lexesAfter.symm.trans dead
    · cases lexesAfter.symm.trans run
      rw [read_append] at readsAfter
      obtain ⟨syn, _, late⟩ := Option.bind_eq_some_iff.mp readsAfter
      cases (read_adjacent syn first second rest).symm.trans late
  cases lexesAfter.symm.trans (tokensFrom_insertAt inserted lexes all)
  have edited_ : edited =
      (units o.key, o.value) :: inflateMembers (units o.key, o.value) members := by
    rcases read_inflate (units o.key, o.value) readsValue reads with run | dead
    · have same := congrArg Syn.mode (Option.some.inj (readsAfter.symm.trans run))
      rw [Syn.inflate, Mode.inflate, inflate_object] at same
      simpa using same
    · cases readsAfter.symm.trans dead
  subst edited_
  have flat : ∀ m ∈ members, m.2.objects = 0 := by
    intro m inside
    by_cases named : m.1 = units o.key
    · refine objects_of_inflate_eq_member (units o.key, o.value) (sets.values o
        (List.mem_singleton_self o) (m.1, m.2.inflate (units o.key, o.value)) ?_ named)
      exact List.mem_cons_of_mem _ (List.mem_map_of_mem inside)
    · have others := sets.others
      rw [List.filter_cons_of_neg (by simp), inflateMembers, List.filter_map] at others
      have kept : m ∈ members.filter fun m => m.1 ∉ [o].map fun o => units o.key :=
        List.mem_filter.mpr ⟨inside, by simpa using named⟩
      have same := List.map_inj_left.mp (others.trans (List.map_id _).symm) m kept
      exact objects_of_inflate_eq _ (congrArg Prod.snd same)
  refine ⟨?_, ?_, fun m inside named => ?_⟩
  · have none_ : (members.map fun m => m.2.objects).sum = 0 := by
      refine List.sum_eq_zero_iff.mpr fun _ inside => ?_
      obtain ⟨m, among, rfl⟩ := List.mem_map.mp inside
      exact flat m among
    rw [← all, braces, none_]
  · rintro rfl
    obtain ⟨rest, rfl, inside⟩ := brace_of_object reads
    cases closeBrace_of_empty inside
    have step := read_insert (units o.key, o.value)
      (show synStep start .openBrace = some ⟨[], .key [] true⟩ from rfl) readsValue
    have cut (more : List Token) : inflateTokens more [.openBrace, .closeBrace] =
        (.openBrace :: more) ++ [.closeBrace] := by simp [inflateTokens]
    rw [cut, read_append, show read start (.openBrace :: _) = _ from step] at readsAfter
    cases readsAfter
  · have same := sets.values o (List.mem_singleton_self o)
      (m.1, m.2.inflate (units o.key, o.value))
      (List.mem_cons_of_mem _ (List.mem_map_of_mem inside)) named
    rwa [inflate_of_objects _ (flat m inside)] at same

variable (regex : RegEx)

/-- What the code does with a match. -/
theorem applyOverride_of_some {text : Text} {o : Override} {found : Match}
    (plain : isPlain o.key = true) (noDollar : '$' ∉ o.literal)
    (searches : search o.key text = some found) :
    applyOverride regex text o = found.before ++ (found.head ++ o.literal ++ found.after) := by
  rw [applyOverride, regex.search_plain _ plain, searches]
  dsimp only
  rw [regex.expand_plain _ _ noDollar]

theorem applyOverride_of_none {text : Text} {o : Override} (plain : isPlain o.key = true)
    (searches : search o.key text = none) :
    applyOverride regex text o = insertAt (insertion o) text := by
  rw [applyOverride, regex.search_plain _ plain, searches]

/-- Where the first match is the key's own, or has the value already, the override sets the key. -/
theorem sets_of_match {text : Text} {o : Override} {found : Match} {members : List Member}
    {inner : Json} (is : found.Of o.key text) (parses : parse text = some (.object members))
    (value : parse found.value = some inner)
    (fits : (∃ before, Own o found before ∧ Already o (members.eraseIdx before.length)) ∨
      isWord o.key = true ∧ inner = o.value ∧ Already o members ∧
        ∃ m ∈ members, m.1 = units o.key) :
    ∃ edited, parse (found.before ++ (found.head ++ o.literal ++ found.after)) =
      some (.object edited) ∧ Sets [o] members edited := by
  rcases fits with ⟨before, ⟨tokens, lexes, reads⟩, already⟩ | ⟨word, rfl, already, present⟩
  · obtain ⟨frames, root, rootKey, place, extra, inside, _, flat, _, rfl, replaced⟩ :=
      parse_replaced is parses lexes reads value
    obtain ⟨rfl, same⟩ :
        frames = [] ∧ Frame.member before (units o.key) = .member root rootKey := by
      cases frames with
      | nil => exact ⟨rfl, (List.cons.inj inside).1⟩
      | cons frame frames => simp at inside
    cases same
    cases flat rfl
    refine ⟨_, replaced o.literal o.value o.reads, sets_middle ?_⟩
    rwa [List.eraseIdx_append_of_length_le le_rfl, Nat.sub_self, List.eraseIdx_cons_zero] at already
  · obtain ⟨front, before, name, stack, lexes, reads⟩ := lead_of_word is word parses
    obtain ⟨frames, root, rootKey, place, extra, _, _, _, _, same, replaced⟩ :=
      parse_replaced is parses lexes reads value
    refine ⟨members, ?_, sets_self already present⟩
    rw [same]
    exact replaced o.literal o.value o.reads

/-- An override that fits a text sets its key and nothing else, -/
theorem sets_of_fits {text : Text} {o : Override} {members : List Member}
    (parses : parse text = some (.object members)) (fits : Fits o text) :
    ∃ edited, parse (applyOverride regex text o) = some (.object edited) ∧
      Sets [o] members edited := by
  obtain ⟨plain, noDollar, members', parses', fits⟩ := fits
  cases parses.symm.trans parses'
  cases searches : search o.key text with
  | none =>
      rw [searches] at fits
      obtain ⟨one, some_, already⟩ := fits
      rw [applyOverride_of_none regex plain searches]
      exact sets_of_no_match plain parses one some_ already
  | some found =>
      rw [searches] at fits
      obtain ⟨inner, value, fits⟩ := fits
      rw [applyOverride_of_some regex plain noDollar searches]
      exact sets_of_match (search_spec searches) parses value fits

/-- and of the words only one that fits does. -/
theorem fits_of_sets {text : Text} {o : Override} {members edited : List Member}
    (plain : isPlain o.key = true) (word : isWord o.key = true) (noDollar : '$' ∉ o.literal)
    (parses : parse text = some (.object members))
    (after : parse (applyOverride regex text o) = some (.object edited))
    (sets : Sets [o] members edited) : Fits o text := by
  refine ⟨plain, noDollar, members, parses, ?_⟩
  cases searches : search o.key text with
  | none =>
      rw [applyOverride_of_none regex plain searches] at after
      exact flat_of_sets plain word parses after sets
  | some found =>
      rw [applyOverride_of_some regex plain noDollar searches] at after
      exact match_of_sets (search_spec searches) word parses after sets

end Sets

/-! ## A dictionary of overrides -/

section Dictionary

variable (regex : RegEx)

/-- A dictionary whose overrides each fit the text they find. -/
def AllFit : List Override → Text → Prop
  | [], _ => True
  | o :: rest, text => Fits o text ∧ AllFit rest (applyOverride regex text o)

/-- One override and the others behind it. -/
theorem Sets.cons {o : Override} {rest : List Override} {members middle edited : List Member}
    (fresh : o.key ∉ rest.map Override.key) (first : Sets [o] members middle)
    (others : Sets rest middle edited) : Sets (o :: rest) members edited := by
  have apart : units o.key ∉ rest.map fun o => units o.key := by
    intro inside
    obtain ⟨other, member, same⟩ := List.mem_map.mp inside
    exact fresh (units_injective same ▸ List.mem_map_of_mem member)
  have kept (m : Member) (named : m.1 = units o.key) : m ∈ edited ↔ m ∈ middle := by
    have away : decide (m.1 ∉ rest.map fun o => units o.key) = true := by
      rw [named]
      exact decide_eq_true apart
    have same : m ∈ edited.filter (fun m => m.1 ∉ rest.map fun o => units o.key) ↔
        m ∈ middle.filter fun m => m.1 ∉ rest.map fun o => units o.key := by
      rw [others.others]
    simpa only [List.mem_filter, away, and_true] using same
  have inner (list : List Member) :
      list.filter (fun m => m.1 ∉ (o :: rest).map fun o => units o.key) =
        (list.filter fun m => m.1 ∉ rest.map fun o => units o.key).filter
          fun m => m.1 ∉ [o].map fun o => units o.key := by
    rw [List.filter_filter]
    refine List.filter_congr fun m _ => ?_
    simp
  have outer (list : List Member) :
      list.filter (fun m => m.1 ∉ (o :: rest).map fun o => units o.key) =
        (list.filter fun m => m.1 ∉ [o].map fun o => units o.key).filter
          fun m => m.1 ∉ rest.map fun o => units o.key := by
    rw [List.filter_filter]
    refine List.filter_congr fun m _ => ?_
    simp [Bool.and_comm]
  refine ⟨?_, fun other inside => ?_, fun other inside m member named => ?_⟩
  · rw [inner edited, others.others, ← inner, outer, first.others, ← outer]
  · rcases List.mem_cons.mp inside with rfl | later
    · obtain ⟨m, member, named⟩ := first.present other (List.mem_singleton_self other)
      exact ⟨m, (kept m named).mpr member, named⟩
    · exact others.present other later
  · rcases List.mem_cons.mp inside with rfl | later
    · exact first.values other (List.mem_singleton_self other) m ((kept m named).mp member) named
    · exact others.values other later m member named

/-- A dictionary that fits sets its keys and nothing else. -/
theorem sets_of_allFit {overrides : List Override} {text : Text} {members : List Member}
    (distinct : (overrides.map Override.key).Nodup) (parses : parse text = some (.object members))
    (fits : AllFit regex overrides text) :
    ∃ edited, parse (applyOverrides regex overrides text) = some (.object edited) ∧
      Sets overrides members edited := by
  induction overrides generalizing text members with
  | nil => exact ⟨members, parses, rfl, nofun, nofun⟩
  | cons o rest ih =>
      obtain ⟨fresh, distinct⟩ := List.nodup_cons.mp distinct
      obtain ⟨middle, parses, first⟩ := sets_of_fits regex parses fits.1
      obtain ⟨edited, parses, others⟩ := ih distinct parses fits.2
      exact ⟨edited, parses, first.cons fresh others⟩

/-- A dictionary of overrides sets its keys in the object of a text and nothing else where each of
its overrides fits the text the ones before leave, and a word alone only where it fits. -/
theorem overrides_set_iff :
    (∀ (overrides : List Override) (text : Text) (members : List Member),
      (overrides.map Override.key).Nodup → parse text = some (.object members) →
      AllFit regex overrides text →
      ∃ edited, parse (applyOverrides regex overrides text) = some (.object edited) ∧
        Sets overrides members edited) ∧
      ∀ (o : Override) (text : Text) (members : List Member), isPlain o.key = true →
        isWord o.key = true → '$' ∉ o.literal → parse text = some (.object members) →
        ((∃ edited, parse (applyOverrides regex [o] text) = some (.object edited) ∧
          Sets [o] members edited) ↔ Fits o text) := by
  refine ⟨fun overrides text members distinct parses fits =>
    sets_of_allFit regex distinct parses fits,
    fun o text members plain word noDollar parses => ⟨?_, ?_⟩⟩
  · rintro ⟨edited, after, sets⟩
    exact fits_of_sets regex plain word noDollar parses after sets
  · exact sets_of_fits regex parses

/-- The fit weight set to zero. -/
def noFitWeight : Override :=
  ⟨"fit_weight".toList, "0".toList, .scalar (.number "0".toList), rfl⟩

/-- A configuration with the fit weight in front and once more in an object. -/
def weighted : Text := "\x7b\"fit_weight\": 1, \"step\": \x7b\"fit_weight\": 2\x7d\x7d".toList

/-- The same members the other way round. -/
def weightedInside : Text :=
  "\x7b\"step\": \x7b\"fit_weight\": 2\x7d, \"fit_weight\": 1\x7d".toList

/-- The weight in front is the one that is set. -/
theorem overrides_set_iff_weighted :
    (∃ members edited, parse weighted = some (.object members) ∧
      parse (applyOverrides RegEx.verbatim [noFitWeight] weighted) = some (.object edited) ∧
      Sets [noFitWeight] members edited) ∧ Fits noFitWeight weighted := by
  have fits : Fits noFitWeight weighted := by
    refine ⟨rfl, by decide, _, rfl, ⟨_, rfl, .inl ⟨[], ⟨_, rfl, rfl⟩, ?_⟩⟩⟩
    intro m inside named
    cases List.mem_singleton.mp inside
    exact absurd named (by decide)
  obtain ⟨edited, after, sets⟩ := (overrides_set_iff RegEx.verbatim).1 [noFitWeight] weighted _
    (by decide) rfl ⟨fits, trivial⟩
  exact ⟨⟨_, edited, rfl, after, sets⟩, ((overrides_set_iff RegEx.verbatim).2 noFitWeight weighted _
    rfl rfl (by decide) rfl).mp ⟨edited, after, sets⟩⟩

/-- Where the key is in an object in front of the own one, that one is set instead. -/
theorem inner_weight_set : ¬ ∀ (regex : RegEx) (overrides : List Override) (text : Text)
    (members : List Member), (overrides.map Override.key).Nodup →
    parse text = some (.object members) →
    ∃ edited, parse (applyOverrides regex overrides text) = some (.object edited) ∧
      Sets overrides members edited := by
  intro claim
  obtain ⟨edited, after, sets⟩ := claim RegEx.verbatim [noFitWeight] weightedInside _
    (by decide) rfl
  have edit : parse (applyOverrides RegEx.verbatim [noFitWeight] weightedInside) =
      some (.object [
        (units "step".toList, .object [(units noFitWeight.key, noFitWeight.value)]),
        (units noFitWeight.key, .scalar (.number "1".toList))]) := rfl
  cases after.symm.trans edit
  have kept := sets.values noFitWeight (List.mem_singleton_self _)
    (units noFitWeight.key, .scalar (.number "1".toList)) (by simp) rfl
  injection kept with kept
  injection kept with digits
  exact absurd digits (by decide)

end Dictionary

end DressOn.Host.FitOverrides
