import Mathlib.Algebra.GroupWithZero.Nat
import Mathlib.Data.Nat.Cast.Defs

/-!
# Small numerals

Numerals of small index types and of fields, each by one named instance: a definition then holds
the instance's name, whatever modules it is read with.
-/

namespace DressOn.Numerals

/-- Coordinates of a vector. -/
instance neZero_three : NeZero 3 := ⟨by decide⟩

/-- Axes of a tensor, and vertices of a hinge. -/
instance neZero_four : NeZero 4 := ⟨by decide⟩

/-- Entries of a symmetric matrix. -/
instance neZero_six : NeZero 6 := ⟨by decide⟩

/-- A triangle has corners. -/
theorem zero_lt_three : 0 < 3 := by decide

/-- Two in a semiring. -/
instance atLeastTwo_two : Nat.AtLeastTwo 2 := ⟨by decide⟩

/-- Three in a semiring. -/
instance atLeastTwo_three : Nat.AtLeastTwo 3 := ⟨by decide⟩

/-- Ten in a semiring. -/
instance atLeastTwo_ten : Nat.AtLeastTwo 10 := ⟨by decide⟩

/-- A hundred in a semiring. -/
instance atLeastTwo_hundred : Nat.AtLeastTwo 100 := ⟨by decide⟩

end DressOn.Numerals
