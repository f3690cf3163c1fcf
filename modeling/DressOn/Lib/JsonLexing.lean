import DressOn.Lib.JsonEdits

/-!
# Characters and tokens of a JSON text

What the tokens of a text owe to its characters: a text cut into pieces has the tokens of the
pieces, a piece without commas has none, and a quote too many turns the rest inside out.
-/

namespace DressOn.JsonTexts

/-! ## The rest of a text -/

section Rest

/-- The tokens of the rest of a text. -/
def tokensFrom (state : Lex) (text : List Char) : Option (List Token) :=
  (lex state text).bind fun last => (flush last.1).map (last.2 ++ ·)

theorem tokensFrom_append (state : Lex) (first second : List Char) :
    tokensFrom state (first ++ second) = (lex state first).bind fun middle =>
      (tokensFrom middle.1 second).map (middle.2 ++ ·) := by
  unfold tokensFrom
  rw [lex_append]
  cases lex state first with
  | none => rfl
  | some middle =>
      simp only [Option.bind_some, Option.bind_map, Option.map_bind, Function.comp_def,
        Option.map_map, List.append_assoc]

/-- Two texts, one behind the other. -/
theorem lex_trans {state middle last : Lex} {first second : List Char} {front back : List Token}
    (begins : lex state first = some (middle, front))
    (ends : lex middle second = some (last, back)) :
    lex state (first ++ second) = some (last, front ++ back) := by
  rw [lex_append, begins, Option.bind_some, ends]
  rfl

/-- The tokens of a text cut in two. -/
theorem cut_tokensFrom {state : Lex} {first second : List Char} {tokens : List Token}
    (lexes : tokensFrom state (first ++ second) = some tokens) :
    ∃ middle front back, lex state first = some (middle, front) ∧
      tokensFrom middle second = some back ∧ tokens = front ++ back := by
  rw [tokensFrom_append] at lexes
  obtain ⟨⟨middle, front⟩, run, rest⟩ := Option.bind_eq_some_iff.mp lexes
  obtain ⟨back, later, same⟩ := Option.map_eq_some_iff.mp rest
  exact ⟨middle, front, back, run, later, same.symm⟩

theorem tokensFrom_cons (state : Lex) (c : Char) (rest : List Char) :
    tokensFrom state (c :: rest) = (lexStep state c).bind fun next =>
      (tokensFrom next.1 rest).map (next.2 ++ ·) := by
  unfold tokensFrom
  rw [lex]
  cases lexStep state c with
  | none => rfl
  | some next =>
      simp only [Option.bind_some, Option.bind_map, Option.map_bind, Function.comp_def,
        Option.map_map, List.append_assoc]

theorem lex_cons (state : Lex) (c : Char) (rest : List Char) :
    lex state (c :: rest) = (lexStep state c).bind fun next =>
      (lex next.1 rest).map fun last => (last.1, next.2 ++ last.2) := rfl

/-- The value of a text by its tokens. -/
theorem parse_eq_some {text : List Char} {value : Json} :
    parse text = some value ↔ ∃ tokens, tokensFrom .blank text = some tokens ∧
      read start tokens = some ⟨[], .final value⟩ := by
  show ((tokensFrom .blank text).bind (read start)).bind Syn.value? = _ ↔ _
  cases tokensFrom .blank text with
  | none => simp
  | some tokens => simp [value?_iff]

/-- The lexer is not in a string. -/
def Lex.Outside : Lex → Prop
  | .blank | .bare _ => True
  | _ => False

theorem flush_outside {state : Lex} {word : List Token} (ends : flush state = some word) :
    state.Outside := by
  cases state <;> trivial

/-- A character that ends a bare word. -/
theorem lexStep_stop {state : Lex} {c : Char} (outside : state.Outside) (stop : isBare c = false) :
    lexStep state c = (flush state).bind fun word =>
      (blankStep c).map fun next => (next.1, word ++ next.2) := by
  cases state with
  | blank =>
      show blankStep c = (blankStep c).map fun next => (next.1, [] ++ next.2)
      cases blankStep c <;> rfl
  | bare text =>
      rw [lexStep, stop]
      rfl
  | _ => exact absurd outside not_false

/-- A word ends at the end of the text and at a character that is not of words. -/
theorem tokensFrom_stop {state : Lex} (outside : state.Outside) {text : List Char}
    (stop : ∀ c ∈ text.head?, isBare c = false) :
    tokensFrom state text = (flush state).bind fun word =>
      (tokensFrom .blank text).map (word ++ ·) := by
  cases text with
  | nil =>
      show ((flush state).map fun word => [] ++ word) =
        (flush state).bind fun word => some (word ++ [])
      cases flush state <;> simp
  | cons c rest =>
      rw [tokensFrom_cons, tokensFrom_cons, lexStep_stop outside (stop c rfl)]
      show _ = (flush state).bind fun word => ((blankStep c).bind _).map (word ++ ·)
      cases flush state with
      | none => rfl
      | some word =>
          cases blankStep c with
          | none => rfl
          | some next =>
              simp only [Option.bind_some, Option.map_some, Option.map_map, Function.comp_def,
                List.append_assoc]

end Rest

/-! ## What a character gives -/

section Steps

/-- The character of a token that is one. -/
def Token.char : Token → Option Char
  | .openBrace => some '{'
  | .closeBrace => some '}'
  | .comma => some ','
  | _ => none

theorem blankStep_char {c d : Char} {next : Lex × List Token} {token : Token}
    (step : blankStep c = some next) (inside : token ∈ next.2) (char : token.char = some d) :
    c = d := by
  unfold blankStep at step
  iterate 9
    split at step
    · cases step
      grind [Token.char]
  cases step

theorem flush_char {state : Lex} {word : List Token} {token : Token}
    (ends : flush state = some word) (inside : token ∈ word) : token.char = none := by
  cases state with
  | blank =>
      cases ends
      cases inside
  | bare text =>
      obtain ⟨value, _, rfl⟩ := Option.map_eq_some_iff.mp ends
      rw [List.mem_singleton.mp inside]
      rfl
  | _ => cases ends

/-- What a step in a string completes. -/
theorem lexStep_inside {state : Lex} {c : Char} {next : Lex × List Token}
    (inside : ¬ state.Outside) (step : lexStep state c = some next) :
    next.2 = [] ∧ next.1 ≠ .blank ∨ ∃ units, c = '"' ∧ next = (.blank, [.string units]) := by
  cases state with
  | blank => exact absurd trivial inside
  | bare text => exact absurd trivial inside
  | string units =>
      rw [lexStep] at step
      split at step
      next quote => exact .inr ⟨units, quote, (Option.some.inj step).symm⟩
      · left
        split at step
        · cases step
          exact ⟨rfl, nofun⟩
        · split at step <;> cases step
          exact ⟨rfl, nofun⟩
  | slash units =>
      left
      rw [lexStep] at step
      split at step
      · cases step
        exact ⟨rfl, nofun⟩
      · obtain ⟨unit, _, rfl⟩ := Option.map_eq_some_iff.mp step
        exact ⟨rfl, nofun⟩
  | hex units digits =>
      left
      obtain ⟨digit, _, same⟩ := Option.map_eq_some_iff.mp step
      split at same <;> cases same <;> exact ⟨rfl, nofun⟩

theorem isSpace_of_isBare {c : Char} (word : isBare c = true) : isSpace c = false := by
  cases space : isSpace c with
  | false => rfl
  | true =>
      simp only [isSpace, Bool.or_eq_true, beq_iff_eq] at space
      rcases space with ((rfl | rfl) | rfl) | rfl <;> exact absurd word (by decide)

/-- A step outside of strings stays in a word, or ends it and begins anew. -/
theorem lexStep_outside {state : Lex} {c : Char} {next : Lex × List Token}
    (outside : state.Outside) (step : lexStep state c = some next) :
    isBare c = true ∧ next.2 = [] ∧ (∃ text, next.1 = .bare text) ∨
      ∃ word fresh, flush state = some word ∧ blankStep c = some fresh ∧
        next = (fresh.1, word ++ fresh.2) := by
  by_cases word : isBare c = true
  · left
    cases state with
    | blank =>
        simp only [lexStep, blankStep, isSpace_of_isBare word, word, Bool.false_eq_true, if_false,
          if_true] at step
        cases step
        exact ⟨word, rfl, _, rfl⟩
    | bare text =>
        simp only [lexStep, word, if_true] at step
        cases step
        exact ⟨word, rfl, _, rfl⟩
    | _ => exact absurd outside not_false
  · right
    rw [lexStep_stop outside (Bool.not_eq_true _ ▸ word)] at step
    obtain ⟨word, ends, step⟩ := Option.bind_eq_some_iff.mp step
    obtain ⟨fresh, begins, rfl⟩ := Option.map_eq_some_iff.mp step
    exact ⟨word, fresh, ends, begins, rfl⟩

/-- The braces and the commas among the tokens of a step are its character. -/
theorem lexStep_char {state : Lex} {c d : Char} {next : Lex × List Token} {token : Token}
    (step : lexStep state c = some next) (inside : token ∈ next.2)
    (char : token.char = some d) : c = d := by
  by_cases outside : state.Outside
  · rcases lexStep_outside outside step with ⟨_, none_, _⟩ | ⟨word, fresh, ends, begins, rfl⟩
    · rw [none_] at inside
      cases inside
    · rcases List.mem_append.mp inside with old | new
      · rw [flush_char ends old] at char
        cases char
      · exact blankStep_char begins new char
  · rcases lexStep_inside outside step with ⟨none_, _⟩ | ⟨units, _, rfl⟩
    · rw [none_] at inside
      cases inside
    · rw [List.mem_singleton.mp inside] at char
      cases char

/-- The braces and the commas among the tokens of a text are its own. -/
theorem lex_char {state last : Lex} {text : List Char} {tokens : List Token} {token : Token}
    {d : Char} (lexes : lex state text = some (last, tokens)) (inside : token ∈ tokens)
    (char : token.char = some d) : d ∈ text := by
  induction text generalizing state tokens with
  | nil =>
      cases lexes
      cases inside
  | cons c rest ih =>
      obtain ⟨next, step, later⟩ := Option.bind_eq_some_iff.mp lexes
      obtain ⟨⟨final, others⟩, run, same⟩ := Option.map_eq_some_iff.mp later
      cases same
      rcases List.mem_append.mp inside with now | later
      · exact lexStep_char step now char ▸ List.mem_cons_self
      · exact List.mem_cons_of_mem _ (ih run later)

/-- A step gives a token, is behind one that has begun, or is white space. -/
theorem lexStep_begun {state : Lex} {c : Char} {next : Lex × List Token}
    (step : lexStep state c = some next) (begun : state ≠ .blank ∨ isSpace c = false) :
    next.2 ≠ [] ∨ next.1 ≠ .blank := by
  by_cases outside : state.Outside
  · rcases lexStep_outside outside step with ⟨_, _, text, bare⟩ | ⟨word, fresh, ends, begins, rfl⟩
    · rw [bare]
      exact .inr nofun
    · cases state with
      | blank =>
          have notSpace : isSpace c = false := begun.resolve_left (not_not_intro rfl)
          simp only [blankStep, notSpace, Bool.false_eq_true, if_false] at begins
          cases ends
          iterate 8
            split at begins
            · cases begins
              simp
          cases begins
      | bare text =>
          obtain ⟨value, _, rfl⟩ := Option.map_eq_some_iff.mp ends
          exact .inl nofun
      | _ => exact absurd outside not_false
  · rcases lexStep_inside outside step with ⟨_, inside⟩ | ⟨units, _, rfl⟩
    · exact .inr inside
    · exact .inl nofun

/-- A word or a string that has begun ends as a token, and so does what begins with one. -/
theorem tokens_ne_nil {state : Lex} {text : List Char} {tokens : List Token}
    (lexes : tokensFrom state text = some tokens)
    (begun : state ≠ .blank ∨ ∃ c ∈ text.head?, isSpace c = false) : tokens ≠ [] := by
  induction text generalizing state tokens with
  | nil =>
      have some_ : state ≠ .blank := begun.resolve_right nofun
      obtain ⟨word, ends, rfl⟩ := Option.map_eq_some_iff.mp lexes
      cases state with
      | blank => exact absurd rfl some_
      | bare text =>
          obtain ⟨value, _, rfl⟩ := Option.map_eq_some_iff.mp ends
          exact nofun
      | _ => cases ends
  | cons c rest ih =>
      rw [tokensFrom_cons] at lexes
      obtain ⟨next, step, later⟩ := Option.bind_eq_some_iff.mp lexes
      obtain ⟨others, run, rfl⟩ := Option.map_eq_some_iff.mp later
      have first : state ≠ .blank ∨ isSpace c = false := by
        simpa using begun
      rcases lexStep_begun step first with now | going
      · exact fun none_ => now (List.append_eq_nil_iff.mp none_).1
      · exact fun none_ => ih run (.inl going) (List.append_eq_nil_iff.mp none_).2

end Steps

/-! ## Strings -/

section Strings

/-- The characters that stand for themselves in a string. -/
def isLiteral (c : Char) : Bool := c != '"' && c != '\\' && !decide (c < ' ')

/-- A character that stands for itself. -/
theorem lexStep_literal {c : Char} (plain : isLiteral c = true) (units : Units) :
    lexStep (.string units) c = some (.string (units ++ utf16 c), []) := by
  simp only [isLiteral, Bool.and_eq_true, bne_iff_ne, Bool.not_eq_true', decide_eq_false_iff_not]
    at plain
  rw [lexStep, if_neg plain.1.1, if_neg plain.1.2, if_neg plain.2]

/-- Characters that stand for themselves. -/
theorem lex_literal {text : List Char} (plain : text.all isLiteral = true) (start : Units) :
    lex (.string start) text = some (.string (start ++ units text), []) := by
  induction text generalizing start with
  | nil => simp [lex, units]
  | cons c rest ih =>
      obtain ⟨first, others⟩ := Bool.and_eq_true_iff.mp (List.all_cons ▸ plain)
      rw [lex_cons, lexStep_literal first, Option.bind_some, ih others]
      simp [units]

/-- The closing quote of a string that stands for itself. -/
theorem lex_string {text : List Char} (plain : text.all isLiteral = true) (start : Units) :
    lex (.string start) (text ++ ['"']) = some (.blank, [.string (start ++ units text)]) := by
  rw [lex_append, lex_literal plain]
  rfl

/-- Outside of strings a quote begins one, no other character does, and there is no backslash. -/
theorem lexStep_leaves {state : Lex} {c : Char} {next : Lex × List Token}
    (outside : state.Outside) (step : lexStep state c = some next) :
    (if c = '"' then next.1 = .string [] else next.1.Outside) ∧ c ≠ '\\' := by
  rcases lexStep_outside outside step with ⟨word, _, text, bare⟩ | ⟨word, fresh, _, begins, rfl⟩
  · rw [if_neg (fun quote => absurd (quote ▸ word) (by decide)), bare]
    exact ⟨trivial, fun slash => absurd (slash ▸ word) (by decide)⟩
  · refine ⟨?_, fun slash => by subst slash; cases begins⟩
    unfold blankStep at begins
    iterate 9
      split at begins
      · cases begins
        split <;> first | trivial | simp_all [isSpace, isBare]
    cases begins

/-- Of two lexers one in a string and the other not, one ends in a string: a quote only swaps
them. -/
theorem tokensFrom_opposite (text : List Char) {state : Lex} (outside : state.Outside)
    (units : Units) : tokensFrom (.string units) text = none ∨ tokensFrom state text = none := by
  induction text generalizing state units with
  | nil => exact .inl rfl
  | cons c rest ih =>
      simp only [tokensFrom_cons]
      cases step : lexStep state c with
      | none => exact .inr rfl
      | some next =>
          obtain ⟨leaves, noSlash⟩ := lexStep_leaves outside step
          by_cases quote : c = '"'
          · subst quote
            rcases ih (show Lex.Outside .blank from trivial) [] with dead | dead
            · exact .inr (by simp [show next.1 = .string [] from leaves, dead])
            · exact .inl (by simp [lexStep, dead])
          · rw [if_neg quote] at leaves
            by_cases control : c < ' '
            · exact .inl (by simp [lexStep, quote, noSlash, control])
            · have literal : isLiteral c = true := by simp [isLiteral, quote, noSlash, control]
              rcases ih leaves (units ++ utf16 c) with dead | dead
              · exact .inl (by simp [lexStep_literal literal, dead])
              · exact .inr (by simp [dead])

/-- The units of a character are not those of another with more behind. -/
theorem utf16_append {c d : Char} {first second : Units}
    (same : utf16 c ++ first = utf16 d ++ second) : c = d ∧ first = second := by
  have char {c d : Char} (same : c.toNat = d.toNat) : c = d := Char.ext (UInt32.toNat_inj.mp same)
  have validC : c.toNat < 0xD800 ∨ 0xDFFF < c.toNat ∧ c.toNat < 0x110000 := c.valid
  have validD : d.toNat < 0xD800 ∨ 0xDFFF < d.toNat ∧ d.toNat < 0x110000 := d.valid
  unfold utf16 at same
  split at same <;> split at same <;>
    simp only [List.cons_append, List.nil_append, List.cons.injEq] at same
  · exact ⟨char same.1, same.2⟩
  · omega
  · omega
  · exact ⟨char (by omega), same.2.2⟩

/-- Texts with the same units are the same. -/
theorem units_injective {first second : List Char} (same : units first = units second) :
    first = second := by
  have some_ (c : Char) (rest : List Char) : units (c :: rest) ≠ [] := by
    intro none_
    have head := (List.append_eq_nil_iff.mp none_).1
    unfold utf16 at head
    split at head <;> cases head
  induction first generalizing second with
  | nil =>
      cases second with
      | nil => rfl
      | cons d rest => exact absurd same.symm (some_ d rest)
  | cons c first ih =>
      cases second with
      | nil => exact absurd same (some_ c first)
      | cons d second =>
          obtain ⟨rfl, rest⟩ := utf16_append same
          rw [ih rest]

end Strings

/-! ## Words in quotes -/

section Words

/-- The characters between tokens that are tokens themselves. -/
def isPunct (c : Char) : Bool :=
  c == '{' || c == '}' || c == '[' || c == ']' || c == ',' || c == ':'

/-- The characters of a word: in a string they stand for themselves, outside of one for at most a
part of a bare word. -/
def isWordChar (c : Char) : Bool := isLiteral c && !isSpace c && !isPunct c

/-- Words. -/
def isWord (text : List Char) : Bool := !text.isEmpty && text.all isWordChar

theorem literal_of_word {text : List Char} (word : isWord text = true) :
    text.all isLiteral = true :=
  List.all_eq_true.mpr fun c inside =>
    (Bool.and_eq_true_iff.mp (Bool.and_eq_true_iff.mp
      (List.all_eq_true.mp (Bool.and_eq_true_iff.mp word).2 c inside)).1).1

theorem blankStep_word {c : Char} (word : isWordChar c = true) (notBare : isBare c = false) :
    blankStep c = none := by
  simp only [isWordChar, isLiteral, isPunct, Bool.and_eq_true, bne_iff_ne, Bool.not_eq_true',
    Bool.or_eq_false_iff, beq_eq_false_iff_ne] at word
  simp [blankStep, word, notBare]

/-- A word that is not in quotes, and a quote. -/
theorem lex_bare {text : List Char} (word : text.all isWordChar = true) (begun : List Char) :
    lex (.bare begun) (text ++ ['"']) = none ∨
      ∃ value, lex (.bare begun) (text ++ ['"']) = some (.string [], [.scalar value]) := by
  induction text generalizing begun with
  | nil =>
      show (((scalar begun).map fun value => [Token.scalar value]).bind _).bind _ = none ∨
        ∃ value, (((scalar begun).map fun value => [Token.scalar value]).bind _).bind _ = _
      cases scalar begun with
      | none => exact .inl rfl
      | some value => exact .inr ⟨value, rfl⟩
  | cons c rest ih =>
      obtain ⟨first, others⟩ := Bool.and_eq_true_iff.mp (List.all_cons ▸ word)
      rw [List.cons_append, lex_cons]
      by_cases bare : isBare c = true
      · rw [lexStep, if_pos bare]
        rcases ih others (begun ++ [c]) with dead | ⟨value, run⟩
        · exact .inl (by simp [dead])
        · exact .inr ⟨value, by simp [run]⟩
      · left
        rw [lexStep, if_neg bare, blankStep_word first (Bool.not_eq_true _ ▸ bare)]
        cases flush (.bare begun) <;> rfl

/-- In a string the quotes are those of two others, and the word is outside. -/
theorem lex_quoted_inside {text : List Char} (word : isWord text = true) (start : Units) :
    lex (.string start) ('"' :: text ++ ['"']) = none ∨ ∃ value,
      lex (.string start) ('"' :: text ++ ['"']) =
        some (.string [], [.string start, .scalar value]) := by
  obtain ⟨some_, chars⟩ := Bool.and_eq_true_iff.mp word
  cases text with
  | nil => cases some_
  | cons c rest =>
      show (lex .blank (c :: (rest ++ ['"']))).map _ = none ∨ ∃ value,
        (lex .blank (c :: (rest ++ ['"']))).map _ = _
      obtain ⟨first, others⟩ := Bool.and_eq_true_iff.mp (List.all_cons ▸ chars)
      rw [lex_cons]
      by_cases bare : isBare c = true
      · rw [lexStep, blankStep, isSpace_of_isBare bare, bare]
        rcases lex_bare others [c] with dead | ⟨value, run⟩
        · exact .inl (by simp [dead])
        · exact .inr ⟨value, by simp [run]⟩
      · rw [lexStep, blankStep_word first (Bool.not_eq_true _ ▸ bare)]
        exact .inl rfl

/-- A word in quotes is a string, the end of a longer one, or outside of two. -/
theorem lex_quoted {text : List Char} (word : isWord text = true) (state : Lex) :
    lex state ('"' :: text ++ ['"']) = none ∨
      (∃ front key, lex state ('"' :: text ++ ['"']) = some (.blank, front ++ [.string key])) ∨
      ∃ first second, lex state ('"' :: text ++ ['"']) =
        some (.string [], [.string first, .scalar second]) := by
  have string := lex_string (literal_of_word word)
  cases state with
  | blank =>
      refine .inr (.inl ⟨[], units text, ?_⟩)
      show (lex (.string []) (text ++ ['"'])).map _ = _
      rw [string]
      rfl
  | bare begun =>
      have step : lexStep (.bare begun) '"' =
          ((scalar begun).map fun value => [.scalar value]).bind fun word =>
            some (.string [], word ++ []) := rfl
      rw [List.cons_append, lex_cons, step]
      cases scalar begun with
      | none => exact .inl rfl
      | some value =>
          refine .inr (.inl ⟨[.scalar value], units text, ?_⟩)
          show (lex (.string []) (text ++ ['"'])).map _ = _
          rw [string]
          rfl
  | string start =>
      rcases lex_quoted_inside word start with dead | ⟨value, run⟩
      · exact .inl dead
      · exact .inr (.inr ⟨start, value, run⟩)
  | slash start =>
      refine .inr (.inl ⟨[], start ++ 34 :: units text, ?_⟩)
      show (lex (.string (start ++ [34])) (text ++ ['"'])).map _ = _
      rw [string, List.append_assoc]
      rfl
  | hex start digits => exact .inl rfl

end Words

/-! ## Something behind every brace -/

section Insertions

/-- The braces among some tokens. -/
def bracesOf (tokens : List Token) : Nat := (tokens.map Token.braces).sum

@[simp] theorem bracesOf_append (first second : List Token) :
    bracesOf (first ++ second) = bracesOf first + bracesOf second := by
  simp [bracesOf]

@[simp] theorem inflateTokens_append (insert first second : List Token) :
    inflateTokens insert (first ++ second) =
      inflateTokens insert first ++ inflateTokens insert second := by
  simp [inflateTokens]

theorem braces_eq_zero {tokens : List Token} (none_ : .openBrace ∉ tokens) :
    bracesOf tokens = 0 := by
  refine List.sum_eq_zero_iff.mpr fun count inside => ?_
  obtain ⟨token, among, rfl⟩ := List.mem_map.mp inside
  cases token <;> first | rfl | exact absurd among none_

theorem inflateTokens_of_not_mem (insert : List Token) {tokens : List Token}
    (none_ : .openBrace ∉ tokens) : inflateTokens insert tokens = tokens := by
  induction tokens with
  | nil => rfl
  | cons token rest ih =>
      obtain ⟨other, others⟩ := not_or.mp (List.mem_cons.not.mp none_)
      show _ ++ inflateTokens insert rest = _
      rw [ih others]
      cases token <;> first | rfl | exact absurd rfl other

/-- A brace outside of strings is a token, and a unit of a string in one. -/
theorem lexStep_brace {state : Lex} {next : Lex × List Token}
    (step : lexStep state '{' = some next) :
    (∃ word, flush state = some word ∧ next = (.blank, word ++ [.openBrace])) ∨
      ∃ start, state = .string start ∧ next = (.string (start ++ [123]), []) := by
  cases state with
  | blank =>
      cases step
      exact .inl ⟨[], rfl, rfl⟩
  | bare text =>
      obtain ⟨word, ends, same⟩ := Option.bind_eq_some_iff.mp step
      cases same
      exact .inl ⟨word, ends, rfl⟩
  | string start =>
      cases step
      exact .inr ⟨start, rfl, rfl⟩
  | slash start => cases step
  | hex start digits => cases step

theorem not_mem_of_ne {state : Lex} {c : Char} {next : Lex × List Token}
    (step : lexStep state c = some next) (other : c ≠ '{') : .openBrace ∉ next.2 :=
  fun inside => other (lexStep_char step inside rfl)

/-- The tokens have no more braces than the text. -/
theorem braces_le {state : Lex} {text : List Char} {tokens : List Token}
    (lexes : tokensFrom state text = some tokens) : bracesOf tokens ≤ text.count '{' := by
  induction text generalizing state tokens with
  | nil =>
      obtain ⟨word, ends, rfl⟩ := Option.map_eq_some_iff.mp lexes
      have none_ : .openBrace ∉ [] ++ word := fun inside => nomatch flush_char ends inside
      rw [braces_eq_zero none_]
      exact Nat.zero_le _
  | cons c rest ih =>
      rw [tokensFrom_cons] at lexes
      obtain ⟨next, step, later⟩ := Option.bind_eq_some_iff.mp lexes
      obtain ⟨others, run, rfl⟩ := Option.map_eq_some_iff.mp later
      have below := ih run
      by_cases brace : c = '{'
      · subst brace
        rw [List.count_cons_self, bracesOf_append]
        rcases lexStep_brace step with ⟨word, ends, rfl⟩ | ⟨start, rfl, rfl⟩
        · have none_ : .openBrace ∉ word := fun inside => nomatch flush_char ends inside
          rw [bracesOf_append, braces_eq_zero none_, show bracesOf [.openBrace] = 1 from rfl]
          omega
        · rw [show bracesOf [] = 0 from rfl]
          omega
      · rw [List.count_cons_of_ne brace, bracesOf_append,
          braces_eq_zero (not_mem_of_ne step brace)]
        omega

/-- The text with another behind every brace. -/
def insertAt (insert text : List Char) : List Char :=
  text.flatMap fun c => if c = '{' then '{' :: insert else [c]

variable {insert : List Char} {more : List Token}

theorem insertAt_brace (rest : List Char) :
    insertAt insert ('{' :: rest) = '{' :: (insert ++ insertAt insert rest) := rfl

theorem insertAt_other {c : Char} (other : c ≠ '{') (rest : List Char) :
    insertAt insert (c :: rest) = c :: insertAt insert rest := by
  simp [insertAt, other]

/-- Where no brace is in a string, the tokens have the inserted ones behind theirs. -/
theorem tokensFrom_insertAt (inserted : lex .blank insert = some (.blank, more)) {state : Lex}
    {text : List Char} {tokens : List Token} (lexes : tokensFrom state text = some tokens)
    (all : bracesOf tokens = text.count '{') :
    tokensFrom state (insertAt insert text) = some (inflateTokens more tokens) := by
  induction text generalizing state tokens with
  | nil =>
      obtain ⟨word, ends, rfl⟩ := Option.map_eq_some_iff.mp lexes
      have none_ : .openBrace ∉ [] ++ word := fun inside => nomatch flush_char ends inside
      rw [inflateTokens_of_not_mem _ none_]
      exact lexes
  | cons c rest ih =>
      rw [tokensFrom_cons] at lexes
      obtain ⟨next, step, later⟩ := Option.bind_eq_some_iff.mp lexes
      obtain ⟨others, run, rfl⟩ := Option.map_eq_some_iff.mp later
      have below := braces_le run
      by_cases brace : c = '{'
      · subst brace
        rw [List.count_cons_self, bracesOf_append] at all
        rcases lexStep_brace step with ⟨word, ends, rfl⟩ | ⟨start, rfl, rfl⟩
        · have none_ : .openBrace ∉ word := fun inside => nomatch flush_char ends inside
          rw [bracesOf_append, braces_eq_zero none_, show bracesOf [.openBrace] = 1 from rfl] at all
          rw [insertAt_brace, tokensFrom_cons, step, Option.bind_some, tokensFrom_append, inserted,
            Option.bind_some, ih run (by omega)]
          rw [inflateTokens_append, inflateTokens_append, inflateTokens_of_not_mem _ none_,
            show inflateTokens more [.openBrace] = .openBrace :: more by simp [inflateTokens]]
          simp
        · rw [show bracesOf [] = 0 from rfl] at all
          omega
      · have none_ := not_mem_of_ne step brace
        rw [List.count_cons_of_ne brace, bracesOf_append, braces_eq_zero none_] at all
        rw [insertAt_other brace, tokensFrom_cons, step, Option.bind_some, ih run (by omega),
          inflateTokens_append, inflateTokens_of_not_mem _ none_]
        rfl

/-- Where a brace is in a string, the string ends behind it and a word follows. -/
theorem tokensFrom_insertAt_inside {key value : List Char}
    (word : isWord key = true) {state : Lex} {text : List Char} {tokens : List Token}
    (lexes : tokensFrom state text = some tokens) (fewer : bracesOf tokens < text.count '{')
    (begins : insert = '"' :: key ++ ['"'] ++ value)
    (inserted : lex .blank insert = some (.blank, more)) :
    tokensFrom state (insertAt insert text) = none ∨ ∃ front first second rest,
      tokensFrom state (insertAt insert text) =
        some (front ++ .string first :: .scalar second :: rest) := by
  induction text generalizing state tokens with
  | nil => cases fewer
  | cons c rest ih =>
      rw [tokensFrom_cons] at lexes
      obtain ⟨next, step, later⟩ := Option.bind_eq_some_iff.mp lexes
      obtain ⟨others, run, rfl⟩ := Option.map_eq_some_iff.mp later
      by_cases brace : c = '{'
      · subst brace
        rw [List.count_cons_self, bracesOf_append] at fewer
        rw [insertAt_brace, tokensFrom_cons, step, Option.bind_some, tokensFrom_append]
        rcases lexStep_brace step with ⟨front, ends, rfl⟩ | ⟨start, rfl, rfl⟩
        · have none_ : .openBrace ∉ front := fun inside => nomatch flush_char ends inside
          rw [bracesOf_append, braces_eq_zero none_, show bracesOf [.openBrace] = 1 from rfl]
            at fewer
          rw [inserted, Option.bind_some]
          rcases ih run (by omega) with dead | ⟨front', first, second, last, run⟩
          · exact .inl (by simp [dead])
          · exact .inr ⟨front ++ .openBrace :: (more ++ front'), first, second, last,
              by simp [run]⟩
        · have closes : lex (.string (start ++ [123])) insert = none ∨ ∃ last scalar more,
              lex (.string (start ++ [123])) insert =
                some (last, .string (start ++ [123]) :: .scalar scalar :: more) := by
            rw [begins, lex_append]
            rcases lex_quoted_inside word (start ++ [123]) with dead | ⟨scalar, run⟩
            · exact .inl (by rw [dead]; rfl)
            · rw [run, Option.bind_some]
              cases lex (.string []) value with
              | none => exact .inl rfl
              | some last => exact .inr ⟨last.1, scalar, last.2, rfl⟩
          rcases closes with dead | ⟨last, scalar, more', run⟩
          · exact .inl (by rw [dead]; rfl)
          · rw [run, Option.bind_some]
            cases tokensFrom last (insertAt insert rest) with
            | none => exact .inl rfl
            | some others => exact .inr ⟨[], start ++ [123], scalar, more' ++ others, rfl⟩
      · rw [List.count_cons_of_ne brace, bracesOf_append,
          braces_eq_zero (not_mem_of_ne step brace)] at fewer
        rw [insertAt_other brace, tokensFrom_cons, step, Option.bind_some]
        rcases ih run (by omega) with dead | ⟨front, first, second, last, run⟩
        · exact .inl (by simp [dead])
        · exact .inr ⟨next.2 ++ front, first, second, last, by simp [run]⟩

end Insertions

end DressOn.JsonTexts
