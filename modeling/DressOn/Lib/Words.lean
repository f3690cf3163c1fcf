import DressOn.Lib.Texts
import Mathlib.Data.List.DropRight

/-!
# Words and lines

The methods of Python's `str` that cut a text apart: `splitlines`, `strip` and `split`, with its
line ends and its white space, and what they give for a text put together from lines and words.
-/

namespace DressOn.Words

open DressOn.Texts

/-- `isspace` of one letter. -/
def isSpace (letter : Char) : Bool :=
  let n := letter.toNat
  (9 ≤ n && n ≤ 13) || (28 ≤ n && n ≤ 32) || n == 0x85 || n == 0xa0 || n == 0x1680 ||
    (0x2000 ≤ n && n ≤ 0x200a) || n == 0x2028 || n == 0x2029 || n == 0x202f || n == 0x205f ||
    n == 0x3000

/-- The letters that end a line. -/
def isBreak (letter : Char) : Bool :=
  let n := letter.toNat
  (10 ≤ n && n ≤ 13) || (28 ≤ n && n ≤ 30) || n == 0x85 || n == 0x2028 || n == 0x2029

/-- A line's end is white space. -/
theorem isSpace_of_isBreak {letter : Char} (ends : isBreak letter = true) :
    isSpace letter = true := by
  simp only [isBreak, isSpace, Bool.or_eq_true, Bool.and_eq_true, decide_eq_true_eq,
    beq_iff_eq] at ends ⊢
  omega

/-- `splitlines` behind the first letters of a line. A carriage return and a line feed are one
line's end. -/
def splitlinesFrom (line : Text) : Text → List Text
  | [] => if line.isEmpty then [] else [line]
  | '\r' :: '\n' :: rest => line :: splitlinesFrom [] rest
  | letter :: rest =>
    if isBreak letter then line :: splitlinesFrom [] rest
    else splitlinesFrom (line ++ [letter]) rest

/-- `splitlines`. -/
def splitlines (text : Text) : List Text := splitlinesFrom [] text

/-- `strip`. -/
def strip (text : Text) : Text := (text.dropWhile isSpace).rdropWhile isSpace

/-- `split` at white space. -/
def words (text : Text) : List Text := (text.splitOnP isSpace).filter fun word => !word.isEmpty

/-- A text without white space in it. -/
def Plain (text : Text) : Prop := ∀ letter ∈ text, isSpace letter = false

/-- A plain text ends no line. -/
theorem not_isBreak {text : Text} (plain : Plain text) :
    ∀ letter ∈ text, isBreak letter = false := fun letter member => by
  by_contra ends
  have space := isSpace_of_isBreak (by simpa using ends)
  rw [plain letter member] at space
  cases space

/-! ## Lines -/

/-- A line is cut off at its end. -/
theorem splitlinesFrom_append {front : Text} (whole : ∀ letter ∈ front, isBreak letter = false)
    (line rest : Text) :
    splitlinesFrom line (front ++ '\n' :: rest) = (line ++ front) :: splitlinesFrom [] rest := by
  induction front generalizing line with
  | nil =>
    rw [List.nil_append, splitlinesFrom, if_pos (by decide), List.append_nil]
    exact fun _ carriage => absurd carriage (by decide)
  | cons letter front inductionHypothesis =>
    have keeps := whole letter List.mem_cons_self
    rw [List.cons_append, splitlinesFrom, if_neg (by simp [keeps]),
      inductionHypothesis fun other member => whole other (List.mem_cons_of_mem _ member)]
    · simp
    · rintro _ rfl
      exact absurd keeps (by decide)

/-- Lines that are put together with line feeds come apart again. -/
theorem splitlines_flatMap {lines : List Text}
    (whole : ∀ line ∈ lines, ∀ letter ∈ line, isBreak letter = false) :
    splitlines (lines.flatMap (· ++ ['\n'])) = lines := by
  induction lines with
  | nil => rfl
  | cons line lines inductionHypothesis =>
    rw [List.forall_mem_cons] at whole
    rw [List.flatMap_cons, List.append_assoc, List.singleton_append, splitlines,
      splitlinesFrom_append whole.1, List.nil_append, ← splitlines, inductionHypothesis whole.2]

/-- So do lines with line feeds between them and one at the end. -/
theorem splitlines_intercalate {lines : List Text} (some_line : lines ≠ [])
    (whole : ∀ line ∈ lines, ∀ letter ∈ line, isBreak letter = false) :
    splitlines (['\n'].intercalate lines ++ ['\n']) = lines := by
  have joined : ['\n'].intercalate lines ++ ['\n'] = lines.flatMap (· ++ ['\n']) := by
    induction lines with
    | nil => exact absurd rfl some_line
    | cons line lines inductionHypothesis =>
      cases lines with
      | nil => simp [List.intercalate]
      | cons next lines =>
        have rest := inductionHypothesis nofun fun line member =>
          whole line (List.mem_cons_of_mem _ member)
        rw [List.flatMap_cons, ← rest]
        simp [List.intercalate, List.intersperse]
  rw [joined, splitlines_flatMap whole]

/-! ## Words -/

/-- A text with plain ends is stripped already. -/
theorem strip_of_ends {front back : Text} (plain : Plain front) (plain' : Plain back)
    (filled : front ≠ []) (filled' : back ≠ []) (middle : Text) :
    strip (front ++ (middle ++ back)) = front ++ (middle ++ back) := by
  have first : (front ++ (middle ++ back)).dropWhile isSpace = front ++ (middle ++ back) := by
    cases front with
    | nil => exact absurd rfl filled
    | cons letter front => simp [plain letter List.mem_cons_self]
  rw [strip, first, List.rdropWhile_eq_self_iff]
  intro some_letter
  have last : (front ++ (middle ++ back)).getLast some_letter = back.getLast filled' := by
    rw [List.getLast_append_of_ne_nil _ (by simp [filled']), List.getLast_append_of_ne_nil]
  rw [last, plain' _ (List.getLast_mem filled')]
  exact Bool.false_ne_true

/-- A word in front of a space. -/
theorem words_cons {word : Text} (plain : Plain word) (filled : word ≠ []) (rest : Text) :
    words (word ++ ' ' :: rest) = word :: words rest := by
  rw [words, List.splitOnP_append_cons_of_forall_mem plain ' ' (by decide),
    List.filter_cons_of_pos (by simpa using filled), words]

/-- A word by itself. -/
theorem words_self {word : Text} (plain : Plain word) (filled : word ≠ []) :
    words word = [word] := by
  rw [words, List.splitOnP_eq_singleton plain, List.filter_cons_of_pos (by simpa using filled),
    List.filter_nil]

end DressOn.Words
