import Mathlib.Data.Nat.Notation

/-!
# Texts

Texts as lists of letters, with the tests that programs make on them.
-/

namespace DressOn.Texts

/-- Text, letter by letter. -/
abbrev Text := List Char

/-- Texts are compared letter by letter. -/
instance lawfulBEq_text : LawfulBEq Text := inferInstance

/-- A number in decimal digits. -/
def decimal (number : Nat) : Text := Nat.toDigits 10 number

/-- The text starts with another one. -/
def beginsWith (text start : Text) : Bool := start.isPrefixOf text

/-- The text has another one in it. -/
def holds : Text → Text → Bool
  | [], part => part.isEmpty
  | letter :: rest, part => part.isPrefixOf (letter :: rest) || holds rest part

/-- A number holds no line's end. -/
theorem newline_notMem_decimal (number : Nat) : '\n' ∉ decimal number := by
  intro member
  have digit : '\n'.isDigit = true :=
    @Nat.isDigit_of_mem_toDigits 10 number '\n' (by decide) (by decide) member
  exact absurd digit (by decide)

/-- A text begins with what it is put together from. -/
@[simp] theorem beginsWith_append (start rest : Text) :
    beginsWith (start ++ rest) start = true :=
  List.isPrefixOf_iff_prefix.mpr (List.prefix_append start rest)

end DressOn.Texts
