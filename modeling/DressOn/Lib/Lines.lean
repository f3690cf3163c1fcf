import Mathlib.Data.List.Basic
import Mathlib.Data.List.TakeWhile

/-!
# Lines of text

Texts cut into lines at a separator, lines cut in two at a mark, and what joining pieces and
cutting the text again gives back.
-/

namespace DressOn.Lines

variable {α : Type} [DecidableEq α]

/-- A list of pieces without its last one if that is empty. -/
def trimmed (pieces : List (List α)) : List (List α) :=
  if pieces.getLast? = some [] then pieces.dropLast else pieces

/-- The lines of a text, each ended by the separator. What stands behind the last separator is a
line as well, unless it is empty. -/
def lines (separator : α) (text : List α) : List (List α) := trimmed (text.splitOn separator)

/-- A line cut at its first mark. -/
def cutAt (mark : α) (line : List α) : Option (List α × List α) :=
  if mark ∈ line then
    some (line.takeWhile (· ≠ mark), (line.dropWhile (· ≠ mark)).tail)
  else none

/-- No piece of a text holds the separator it was cut at. -/
theorem notMem_of_mem_splitOn {separator : α} {text piece : List α}
    (member : piece ∈ text.splitOn separator) : separator ∉ piece := by
  induction text generalizing piece with
  | nil =>
    obtain rfl : piece = [] := by simpa using member
    exact List.not_mem_nil
  | cons head tail inductionHypothesis =>
    rw [List.splitOn_cons_eq_if_modifyHead] at member
    by_cases ends : head = separator
    · rw [if_pos (by simp [ends])] at member
      rcases List.mem_cons.mp member with rfl | member
      · exact List.not_mem_nil
      · exact inductionHypothesis member
    · rw [if_neg (by simp [ends])] at member
      cases pieces : tail.splitOn separator with
      | nil => exact absurd pieces (List.splitOn_ne_nil separator tail)
      | cons first others =>
        rw [pieces, List.modifyHead_cons] at member
        rcases List.mem_cons.mp member with rfl | member
        · have rest := @inductionHypothesis first (by simp [pieces])
          simpa [rest] using fun same => ends same.symm
        · exact inductionHypothesis (by simp [pieces, member])

/-- No line holds the separator. -/
theorem notMem_of_mem_lines {separator : α} {text line : List α}
    (member : line ∈ lines separator text) : separator ∉ line := by
  apply @notMem_of_mem_splitOn _ _ separator text line
  simp only [lines, trimmed] at member
  split at member
  · exact List.dropLast_subset _ member
  · exact member

/-- Joined pieces without a separator are cut apart again, but for an empty last one. -/
theorem lines_intercalate {separator : α} {pieces : List (List α)}
    (plain : ∀ piece ∈ pieces, separator ∉ piece) :
    lines separator ([separator].intercalate pieces) = trimmed pieces := by
  cases pieces with
  | nil => simp [lines, trimmed]
  | cons first others => rw [lines, List.splitOn_intercalate separator plain nofun]

/-- Pieces that are not empty are all kept. -/
theorem trimmed_of_ne_nil {pieces : List (List α)} (filled : ∀ piece ∈ pieces, piece ≠ []) :
    trimmed pieces = pieces := by
  refine if_neg fun last => ?_
  exact filled [] (List.mem_of_getLast? last) rfl

/-- Trimming keeps the pieces or loses an empty one. -/
theorem trimmed_eq (pieces : List (List α)) :
    trimmed pieces = pieces ∨ trimmed pieces ++ [[]] = pieces := by
  unfold trimmed
  split
  · next last =>
    right
    have filled : pieces ≠ [] := by
      rintro rfl
      cases last
    have last_eq : pieces.getLast filled = [] := by
      simpa [List.getLast?_eq_some_getLast filled] using last
    rw [← last_eq, List.dropLast_append_getLast filled]
  · exact Or.inl rfl

/-- A line that is a key, the mark and a value is cut there if the key holds no mark. -/
theorem cutAt_append {mark : α} {key value : List α} (plain : mark ∉ key) :
    cutAt mark (key ++ mark :: value) = some (key, value) := by
  have all_differ : ∀ letter ∈ key, decide (letter ≠ mark) = true := by
    intro letter member
    simp only [ne_eq, decide_not, Bool.not_eq_true', decide_eq_false_iff_not]
    rintro rfl
    exact plain member
  rw [cutAt, if_pos (by simp), List.takeWhile_append_of_pos all_differ,
    List.dropWhile_append_of_pos all_differ]
  simp

/-- The part in front of the first mark holds no mark, and both parts are of the line. -/
theorem of_cutAt {mark : α} {line key value : List α} (cut : cutAt mark line = some (key, value)) :
    mark ∉ key ∧ key ⊆ line ∧ value ⊆ line := by
  unfold cutAt at cut
  split at cut
  · simp only [Option.some.injEq, Prod.mk.injEq] at cut
    obtain ⟨rfl, rfl⟩ := cut
    refine ⟨fun member => ?_, (List.takeWhile_prefix _).subset, ?_⟩
    · simpa using List.mem_takeWhile_imp member
    · exact List.Subset.trans (List.tail_sublist _).subset (List.dropWhile_suffix _).subset
  · cases cut

end DressOn.Lines
