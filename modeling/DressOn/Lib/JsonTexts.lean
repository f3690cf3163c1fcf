import Mathlib.Data.List.Basic

/-!
# JSON texts

A text is read character by character by a lexer, whose tokens a stack machine puts together.
Strings are their UTF-16 code units, numbers are kept as they are written, and an object is the
list of its members in the order of the text.
-/

namespace DressOn.JsonTexts

section Values

/-- The contents of a string. -/
abbrev Units := List Nat

/-- A value that is written as a bare word. -/
inductive Scalar where
  | null
  | bool (b : Bool)
  | number (literal : List Char)

/-- A value. -/
inductive Json where
  | scalar (value : Scalar)
  | string (units : Units)
  | array (items : List Json)
  | object (members : List (Units × Json))

/-- A member of an object. -/
abbrev Member := Units × Json

/-- The UTF-16 code units of a character. -/
def utf16 (c : Char) : Units :=
  if c.toNat < 0x10000 then [c.toNat]
  else [0xD800 + (c.toNat - 0x10000) / 0x400, 0xDC00 + (c.toNat - 0x10000) % 0x400]

/-- The contents of a string without escapes. -/
def units (text : List Char) : Units := text.flatMap utf16

/-- What follows the fraction of a number: an exponent or nothing. -/
def exponent : List Char → Bool
  | [] => true
  | e :: rest =>
      let digits := if rest.head? = some '+' ∨ rest.head? = some '-' then rest.tail else rest
      (e == 'e' || e == 'E') && !digits.isEmpty && digits.all Char.isDigit

/-- What follows the whole part of a number. -/
def fraction : List Char → Bool
  | '.' :: rest => !(rest.takeWhile Char.isDigit).isEmpty && exponent (rest.dropWhile Char.isDigit)
  | rest => exponent rest

/-- The number literals. -/
def isNumber (text : List Char) : Bool :=
  let text := if text.head? = some '-' then text.tail else text
  let whole := text.takeWhile Char.isDigit
  !whole.isEmpty && (whole.head? != some '0' || whole.length == 1) &&
    fraction (text.dropWhile Char.isDigit)

/-- The value of a bare word. -/
def scalar (text : List Char) : Option Scalar :=
  if text = ['n', 'u', 'l', 'l'] then some .null
  else if text = ['t', 'r', 'u', 'e'] then some (.bool true)
  else if text = ['f', 'a', 'l', 's', 'e'] then some (.bool false)
  else if isNumber text then some (.number text)
  else none

end Values

section Lexer

/-- A token. -/
inductive Token where
  | openBrace | closeBrace | openBracket | closeBracket | comma | colon
  | scalar (value : Scalar)
  | string (units : Units)

/-- Where the lexer stands: between tokens, in a bare word, in a string, behind its backslash or in
the digits of a `\u`. -/
inductive Lex where
  | blank
  | bare (text : List Char)
  | string (units : Units)
  | slash (units : Units)
  | hex (units : Units) (digits : List Nat)

/-- White space. -/
def isSpace (c : Char) : Bool := c == ' ' || c == '\t' || c == '\n' || c == '\r'

/-- The characters of a bare word. -/
def isBare (c : Char) : Bool := c.isAlphanum || c == '+' || c == '-' || c == '.'

/-- The character of a short escape. -/
def escape (c : Char) : Option Nat :=
  if c = '"' ∨ c = '\\' ∨ c = '/' then some c.toNat
  else if c = 'b' then some 8
  else if c = 'f' then some 12
  else if c = 'n' then some 10
  else if c = 'r' then some 13
  else if c = 't' then some 9
  else none

/-- The value of a hexadecimal digit. -/
def hexDigit (c : Char) : Option Nat :=
  if c.isDigit then some (c.toNat - '0'.toNat)
  else if 'a' ≤ c ∧ c ≤ 'f' then some (c.toNat - 'a'.toNat + 10)
  else if 'A' ≤ c ∧ c ≤ 'F' then some (c.toNat - 'A'.toNat + 10)
  else none

/-- One character between tokens. -/
def blankStep (c : Char) : Option (Lex × List Token) :=
  if isSpace c then some (.blank, [])
  else if isBare c then some (.bare [c], [])
  else if c = '"' then some (.string [], [])
  else if c = '{' then some (.blank, [.openBrace])
  else if c = '}' then some (.blank, [.closeBrace])
  else if c = '[' then some (.blank, [.openBracket])
  else if c = ']' then some (.blank, [.closeBracket])
  else if c = ',' then some (.blank, [.comma])
  else if c = ':' then some (.blank, [.colon])
  else none

/-- The token a bare word ends as; none inside a string. -/
def flush : Lex → Option (List Token)
  | .blank => some []
  | .bare text => (scalar text).map fun value => [.scalar value]
  | _ => none

/-- One character, with the tokens it completes. -/
def lexStep : Lex → Char → Option (Lex × List Token)
  | .blank, c => blankStep c
  | .bare text, c =>
      if isBare c then some (.bare (text ++ [c]), [])
      else (flush (.bare text)).bind fun word =>
        (blankStep c).map fun next => (next.1, word ++ next.2)
  | .string units, c =>
      if c = '"' then some (.blank, [.string units])
      else if c = '\\' then some (.slash units, [])
      else if c < ' ' then none
      else some (.string (units ++ utf16 c), [])
  | .slash units, c =>
      if c = 'u' then some (.hex units [], [])
      else (escape c).map fun unit => (.string (units ++ [unit]), [])
  | .hex units digits, c =>
      (hexDigit c).map fun digit =>
        if digits.length = 3 then
          (.string (units ++ [(digits ++ [digit]).foldl (fun value d => 16 * value + d) 0]), [])
        else (.hex units (digits ++ [digit]), [])

/-- The tokens of a text. -/
def lex : Lex → List Char → Option (Lex × List Token)
  | state, [] => some (state, [])
  | state, c :: rest =>
      (lexStep state c).bind fun next =>
        (lex next.1 rest).map fun last => (last.1, next.2 ++ last.2)

/-- The tokens of a whole text. -/
def tokenize (text : List Char) : Option (List Token) :=
  (lex .blank text).bind fun last => (flush last.1).map (last.2 ++ ·)

end Lexer

section Machine

/-- A container that waits for a value: an array, or an object behind a key. -/
inductive Frame where
  | array (items : List Json)
  | member (members : List Member) (key : Units)

/-- What comes next: a value; a value or the end of a new array; a key, or the end of a new object;
a colon; what follows a value in an array and in an object; or nothing. -/
inductive Mode where
  | value
  | item
  | key (members : List Member) (first : Bool)
  | colon (members : List Member) (key : Units)
  | inArray (items : List Json)
  | inObject (members : List Member)
  | final (value : Json)

/-- The machine: the containers that wait for a value, the innermost first. -/
structure Syn where
  stack : List Frame
  mode : Mode

/-- A value is complete. -/
def complete (value : Json) : List Frame → Syn
  | [] => ⟨[], .final value⟩
  | .array items :: stack => ⟨stack, .inArray (items ++ [value])⟩
  | .member members key :: stack => ⟨stack, .inObject (members ++ [(key, value)])⟩

/-- A token where a value is due. -/
def valueStep (stack : List Frame) : Token → Option Syn
  | .openBrace => some ⟨stack, .key [] true⟩
  | .openBracket => some ⟨stack, .item⟩
  | .scalar value => some (complete (.scalar value) stack)
  | .string units => some (complete (.string units) stack)
  | _ => none

/-- One token. -/
def synStep (syn : Syn) (token : Token) : Option Syn :=
  match syn.mode, token with
  | .value, token => valueStep syn.stack token
  | .item, .closeBracket => some (complete (.array []) syn.stack)
  | .item, token => valueStep (.array [] :: syn.stack) token
  | .key members _, .string key => some ⟨syn.stack, .colon members key⟩
  | .key members true, .closeBrace => some (complete (.object members) syn.stack)
  | .colon members key, .colon => some ⟨.member members key :: syn.stack, .value⟩
  | .inArray items, .comma => some ⟨.array items :: syn.stack, .value⟩
  | .inArray items, .closeBracket => some (complete (.array items) syn.stack)
  | .inObject members, .comma => some ⟨syn.stack, .key members false⟩
  | .inObject members, .closeBrace => some (complete (.object members) syn.stack)
  | _, _ => none

/-- A list of tokens. -/
def read (syn : Syn) (tokens : List Token) : Option Syn := tokens.foldlM synStep syn

/-- The machine before a text. -/
def start : Syn := ⟨[], .value⟩

/-- The value the machine ends with. -/
def Syn.value? (syn : Syn) : Option Json :=
  match syn.mode with
  | .final value => some value
  | _ => none

/-- The value of a text. -/
def parse (text : List Char) : Option Json :=
  ((tokenize text).bind (read start)).bind Syn.value?

end Machine

end DressOn.JsonTexts
