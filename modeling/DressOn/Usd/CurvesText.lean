import DressOn.Lib.Words
import Mathlib.Data.List.Forall2

/-!
# Curves as text

`parse_curves` and `format_curves` of `curves_usd.py`: strokes as blocks of lines, a header with
the number of points and then one line for each point. The parser takes the sequences of such
blocks and no other text, and reads back what the formatter writes.
-/

namespace DressOn.Usd.CurvesText

open DressOn.Texts DressOn.Words

variable {φ : Type}

/-! ## The code -/

/-- A point of a stroke. -/
abbrev Point (φ : Type) := φ × φ × φ

/-- Why a text is refused. -/
inductive Refusal where
  /-- `line %d: stroke %d has %d of %d points`. -/
  | short (line stroke points want : Nat)
  /-- `line %d: bad count %r`. -/
  | badCount (line : Nat) (text : Text)
  /-- `line %d: a stroke needs 2 or more points, not %d`. -/
  | tooFew (line : Nat) (want : Int)
  /-- `line %d: expected 'x y z' inside a stroke, got %r`. -/
  | notAPoint (line : Nat) (text : Text)
  /-- `line %d: stroke %d has more than %d points`. -/
  | tooMany (line stroke want : Nat)
  /-- The `ValueError` of `float`. -/
  | badNumber
  /-- `stroke %d ends with %d of %d points`. -/
  | endsShort (stroke points want : Nat)
  deriving DecidableEq

/-- `strokes`, `want` and `cur`. -/
structure Reader (φ : Type) where
  strokes : List (List (Point φ))
  want : Nat
  cur : List (Point φ)

/-- `line[2:]` of a line that starts with `v `. -/
def countText : Text → Option Text
  | 'v' :: ' ' :: rest => some rest
  | _ => none

/-- The strokes with the one that is being read. -/
def Reader.closed (reader : Reader φ) : List (List (Point φ)) :=
  if reader.want ≠ 0 then reader.strokes ++ [reader.cur] else reader.strokes

section Parser

-- `int`, and `float` as a 32-bit float, give nothing where they raise `ValueError`
variable (int : Text → Option Int) (float : Text → Option φ)

/-- A header. -/
def Reader.header (reader : Reader φ) (n : Nat) (line count : Text) :
    Except Refusal (Reader φ) :=
  if reader.cur.length ≠ reader.want then
    .error (.short n reader.strokes.length reader.cur.length reader.want)
  else
    match int count with
    | none => .error (.badCount n line)
    | some want =>
      if want < 2 then .error (.tooFew n want) else .ok ⟨reader.closed, want.toNat, []⟩

/-- Any other line that is not blank. -/
def Reader.point (reader : Reader φ) (n : Nat) (line : Text) : Except Refusal (Reader φ) :=
  match words line with
  | [x, y, z] =>
    if reader.want = 0 then .error (.notAPoint n line)
    else if reader.cur.length = reader.want then
      .error (.tooMany n reader.strokes.length reader.want)
    else
      match float x, float y, float z with
      | some x, some y, some z => .ok { reader with cur := reader.cur ++ [(x, y, z)] }
      | _, _, _ => .error .badNumber
  | _ => .error (.notAPoint n line)

/-- The turn of the loop for a line and its number. -/
def Reader.step (reader : Reader φ) (numbered : Text × Nat) : Except Refusal (Reader φ) :=
  let line := strip numbered.1
  if line = [] then .ok reader
  else
    match countText line with
    | some count => reader.header int numbered.2 line count
    | none => reader.point float numbered.2 line

/-- The checks behind the loop. -/
def Reader.finish (reader : Reader φ) : Except Refusal (List (List (Point φ))) :=
  if reader.cur.length ≠ reader.want then
    .error (.endsShort reader.strokes.length reader.cur.length reader.want)
  else .ok reader.closed

/-- The loop and what is behind it. -/
def Reader.read (reader : Reader φ) (numbered : List (Text × Nat)) :
    Except Refusal (List (List (Point φ))) :=
  numbered.foldlM (Reader.step int float) reader >>= Reader.finish

/-- `parse_curves`. -/
def parseCurves (text : Text) : Except Refusal (List (List (Point φ))) :=
  Reader.read int float ⟨[], 0, []⟩ ((splitlines text).zipIdx 1)

end Parser

/-- `"%.9g %.9g %.9g"`, with `%.9g` as a parameter. -/
def pointLine (g9 : φ → Text) (point : Point φ) : Text :=
  g9 point.1 ++ ' ' :: (g9 point.2.1 ++ ' ' :: g9 point.2.2)

/-- `"v %d"`. -/
def headerLine (n : Nat) : Text := 'v' :: ' ' :: decimal n

/-- The lines of a stroke. -/
def strokeLines (g9 : φ → Text) (stroke : List (Point φ)) : List Text :=
  headerLine stroke.length :: stroke.map (pointLine g9)

/-- `format_curves`. -/
def formatCurves (g9 : φ → Text) (strokes : List (List (Point φ))) : Text :=
  ['\n'].intercalate (strokes.flatMap (strokeLines g9)) ++ ['\n']

/-! ## Blocks -/

section Blocks

variable (int : Text → Option Int) (float : Text → Option φ)

/-- The lines of a text that are not blank, stripped. -/
def lines (text : Text) : List Text := ((splitlines text).map strip).filter (· ≠ [])

/-- A header `v n`. -/
def IsHeader (line : Text) (n : Nat) : Prop :=
  ∃ count, line = 'v' :: ' ' :: count ∧ int count = some (n : Int)

/-- A line of three numbers. -/
def IsPoint (line : Text) (point : Point φ) : Prop :=
  ∃ x y z, words line = [x, y, z] ∧ float x = some point.1 ∧ float y = some point.2.1 ∧
    float z = some point.2.2

/-- Lines that are a sequence of blocks, each a header with a number from 2 on and then as many
lines of three numbers. -/
inductive Blocks : List Text → List (List (Point φ)) → Prop
  | nil : Blocks [] []
  | cons {line : Text} {points : List Text} {stroke : List (Point φ)} {rest : List Text}
      {strokes : List (List (Point φ))} (header : IsHeader int line stroke.length)
      (enough : 2 ≤ stroke.length) (body : List.Forall₂ (IsPoint float) points stroke)
      (later : Blocks rest strokes) : Blocks (line :: (points ++ rest)) (stroke :: strokes)

end Blocks

section Parser

variable {int : Text → Option Int} {float : Text → Option φ}

theorem countText_eq_some {line count : Text} :
    countText line = some count ↔ line = 'v' :: ' ' :: count := by
  constructor
  · intro found
    rw [countText.eq_def] at found
    split at found
    next rest => rw [Option.some.inj found]
    next => cases found
  · rintro rfl
    rfl

/-- A header is a line of that form. -/
theorem isHeader_iff {line count : Text} (found : countText line = some count) {n : Nat} :
    IsHeader int line n ↔ int count = some (n : Int) := by
  rw [countText_eq_some] at found
  constructor
  · rintro ⟨other, same, number⟩
    rw [found] at same
    obtain rfl : count = other := by simpa using same
    exact number
  · exact fun number => ⟨count, found, number⟩

/-- A line of another form is none. -/
theorem not_isHeader {line : Text} (other : countText line = none) {n : Nat} :
    ¬ IsHeader int line n := by
  rintro ⟨count, same, -⟩
  rw [countText_eq_some.mpr same] at other
  cases other

/-- A header is no line of three numbers, since `v` is no number. -/
theorem not_isPoint (vee : float ['v'] = none) {line count : Text}
    (found : countText line = some count) {point : Point φ} : ¬ IsPoint float line point := by
  rintro ⟨x, y, z, words_eq, x_eq, -⟩
  rw [countText_eq_some] at found
  have first : words line = ['v'] :: words count := by
    rw [found]
    exact @words_cons ['v'] (by simp [Plain]; decide) nofun count
  rw [first, List.cons.injEq] at words_eq
  rw [← words_eq.1, vee] at x_eq
  cases x_eq

/-- A sequence of blocks starts with a header and its lines. -/
theorem blocks_cons {line : Text} {later : List Text} {result : List (List (Point φ))} :
    Blocks int float (line :: later) result ↔
      ∃ points stroke rest strokes, later = points ++ rest ∧ result = stroke :: strokes ∧
        IsHeader int line stroke.length ∧ 2 ≤ stroke.length ∧
        List.Forall₂ (IsPoint float) points stroke ∧ Blocks int float rest strokes := by
  constructor
  · intro blocks
    cases blocks with
    | cons header enough body later => exact ⟨_, _, _, _, rfl, rfl, header, enough, body, later⟩
  · rintro ⟨points, stroke, rest, strokes, rfl, rfl, header, enough, body, later⟩
    exact .cons header enough body later

/-- What the loop has to meet from a state on: the points that the stroke still wants, and then
blocks. -/
def Continues (int : Text → Option Int) (float : Text → Option φ) (reader : Reader φ)
    (lines : List Text) (result : List (List (Point φ))) : Prop :=
  ∃ points more rest strokes, lines = points ++ rest ∧ List.Forall₂ (IsPoint float) points more ∧
    reader.cur.length + more.length = reader.want ∧ Blocks int float rest strokes ∧
    result = { reader with cur := reader.cur ++ more }.closed ++ strokes

/-- At the start the loop has to meet blocks. -/
theorem continues_start {lines : List Text} {result : List (List (Point φ))} :
    Continues int float ⟨[], 0, []⟩ lines result ↔ Blocks int float lines result := by
  constructor
  · rintro ⟨points, more, rest, strokes, rfl, body, length, blocks, rfl⟩
    obtain rfl : more = [] := List.length_eq_zero_iff.mp (by simpa using length)
    cases body
    exact blocks
  · exact fun blocks => ⟨[], [], lines, result, rfl, .nil, rfl, blocks, rfl⟩

/-- At the end it wants nothing more. -/
theorem continues_nil {reader : Reader φ} {result : List (List (Point φ))} :
    Continues int float reader [] result ↔ reader.finish = .ok result := by
  constructor
  · rintro ⟨points, more, rest, strokes, empty, body, length, blocks, rfl⟩
    obtain ⟨rfl, rfl⟩ := List.append_eq_nil_iff.mp empty.symm
    cases body
    cases blocks
    rw [List.length_nil, Nat.add_zero] at length
    rw [Reader.finish, if_neg (not_not_intro length), List.append_nil, List.append_nil]
  · intro done
    rw [Reader.finish] at done
    split at done
    next => cases done
    next whole =>
      cases done
      refine ⟨[], [], [], [], rfl, .nil, by simpa using whole, .nil, ?_⟩
      rw [List.append_nil, List.append_nil]

/-- A header is taken just where the loop may meet it. -/
theorem continues_header (vee : float ['v'] = none) {reader : Reader φ} {line count : Text}
    (found : countText line = some count) (n : Nat) {later : List Text}
    {result : List (List (Point φ))} :
    Continues int float reader (line :: later) result ↔
      ∃ next, reader.header int n line count = .ok next ∧
        Continues int float next later result := by
  constructor
  · rintro ⟨points, more, rest, strokes, split, body, length, blocks, rfl⟩
    cases body with
    | cons point =>
      obtain ⟨rfl, -⟩ := List.cons.inj split
      exact absurd point (not_isPoint vee found)
    | nil =>
      rw [List.nil_append] at split
      rw [List.length_nil, Nat.add_zero] at length
      subst split
      obtain ⟨points, stroke, rest, strokes, rfl, rfl, header, enough, body, later⟩ :=
        blocks_cons.mp blocks
      rw [isHeader_iff found] at header
      refine ⟨⟨reader.closed, stroke.length, []⟩, ?_, points, stroke, rest, strokes, rfl, body,
        Nat.zero_add _, later, ?_⟩
      · rw [Reader.header, if_neg (not_not_intro length), header]
        exact if_neg (by omega)
      · simp [Reader.closed, show stroke ≠ [] by rintro rfl; simp at enough]
  · rintro ⟨next, taken, points, more, rest, strokes, rfl, body, length, blocks, rfl⟩
    rw [Reader.header] at taken
    split at taken
    next => cases taken
    next whole =>
      split at taken
      next => cases taken
      next want number =>
        split at taken
        next => cases taken
        next enough =>
          cases taken
          have more_length : more.length = want.toNat := by simpa using length
          refine ⟨[], [], line :: (points ++ rest), more :: strokes, rfl, .nil,
            not_not.mp whole, .cons ?_ (by omega) body blocks, ?_⟩
          · rw [isHeader_iff found, number, more_length]
            exact congrArg some (by omega)
          · simp [Reader.closed, show want.toNat ≠ 0 by omega]

/-- Any other line is taken just where the loop may meet it. -/
theorem continues_point {reader : Reader φ} {line : Text} (other : countText line = none) (n : Nat)
    {later : List Text} {result : List (List (Point φ))} :
    Continues int float reader (line :: later) result ↔
      ∃ next, reader.point float n line = .ok next ∧ Continues int float next later result := by
  constructor
  · rintro ⟨points, more, rest, strokes, split, body, length, blocks, rfl⟩
    cases body with
    | nil =>
      rw [List.nil_append] at split
      subst split
      obtain ⟨_, _, _, _, -, -, header, -⟩ := blocks_cons.mp blocks
      exact absurd header (not_isHeader other)
    | @cons _ point points more here body =>
      obtain ⟨rfl, rfl⟩ := List.cons.inj split
      obtain ⟨x, y, z, words_eq, x_eq, y_eq, z_eq⟩ := here
      rw [List.length_cons] at length
      refine ⟨{ reader with cur := reader.cur ++ [point] }, ?_, points, more, rest, strokes, rfl,
        body, ?_, blocks, ?_⟩
      · rw [Reader.point, words_eq]
        dsimp only
        rw [if_neg (by omega), if_neg (by omega), x_eq, y_eq, z_eq]
      · rw [List.length_append, List.length_singleton]
        dsimp only
        omega
      · rw [List.append_assoc, List.singleton_append]
  · rintro ⟨next, taken, points, more, rest, strokes, rfl, body, length, blocks, rfl⟩
    rw [Reader.point] at taken
    split at taken
    next x y z words_eq =>
      split at taken
      next => cases taken
      next =>
        split at taken
        next => cases taken
        next =>
          split at taken
          next a b c x_eq y_eq z_eq =>
            cases taken
            refine ⟨line :: points, (a, b, c) :: more, rest, strokes, rfl,
              .cons ⟨x, y, z, words_eq, x_eq, y_eq, z_eq⟩ body, ?_, blocks, ?_⟩
            · rw [← length, List.length_append, List.length_singleton, List.length_cons]
              omega
            · rw [List.append_assoc, List.singleton_append]
          next => cases taken
    next => cases taken

/-- The turn for a line, and the rest of the loop. -/
theorem read_cons (line : Text × Nat) (numbered : List (Text × Nat)) (reader : Reader φ)
    (result : List (List (Point φ))) :
    reader.read int float (line :: numbered) = .ok result ↔
      ∃ next, reader.step int float line = .ok next ∧
        next.read int float numbered = .ok result := by
  rw [Reader.read, List.foldlM_cons, bind_assoc]
  cases reader.step int float line with
  | error refusal => exact ⟨nofun, fun ⟨_, taken, _⟩ => nomatch taken⟩
  | ok next =>
    constructor
    · exact fun done => ⟨next, rfl, done⟩
    · rintro ⟨other, taken, done⟩
      cases taken
      exact done

/-- The loop ends well just where it meets what it has to. -/
theorem read_iff (vee : float ['v'] = none) (numbered : List (Text × Nat)) (reader : Reader φ)
    (result : List (List (Point φ))) :
    reader.read int float numbered = .ok result ↔ Continues int float reader
      ((numbered.map fun line => strip line.1).filter (· ≠ [])) result := by
  induction numbered generalizing reader with
  | nil => exact continues_nil.symm
  | cons line numbered inductionHypothesis =>
    simp only [read_cons, inductionHypothesis, List.map_cons, Reader.step]
    by_cases blank : strip line.1 = []
    · rw [List.filter_cons_of_neg (by simpa using blank), if_pos blank]
      constructor
      · rintro ⟨next, taken, continues⟩
        cases taken
        exact continues
      · exact fun continues => ⟨reader, rfl, continues⟩
    · rw [List.filter_cons_of_pos (by simpa using blank), if_neg blank]
      cases found : countText (strip line.1) with
      | some count => exact (continues_header vee found line.2).symm
      | none => exact (continues_point found line.2).symm

/-- A text is parsed to strokes just where its lines are blocks of these strokes. -/
theorem parseCurves_iff (vee : float ['v'] = none) (text : Text)
    (strokes : List (List (Point φ))) :
    parseCurves int float text = .ok strokes ↔ Blocks int float (lines text) strokes := by
  have stripped : ((splitlines text).zipIdx 1).map (fun line => strip line.1) =
      (splitlines text).map strip := by
    rw [show (fun line : Text × Nat => strip line.1) = strip ∘ Prod.fst from rfl, ← List.map_map,
      List.zipIdx_map_fst]
  rw [parseCurves, read_iff vee, continues_start, stripped, lines]

end Parser

/-! ## Reading back what is written -/

section Written

variable {int : Text → Option Int} {float : Text → Option φ} {g9 : φ → Text}

/-- The number texts round-trip: `%d` through `int` and `%.9g` through `float`, and `%.9g` writes no
white space. -/
structure RoundTrip (int : Text → Option Int) (float : Text → Option φ) (g9 : φ → Text) : Prop where
  int : ∀ n : Nat, int (decimal n) = some (n : Int)
  float : ∀ x, float (g9 x) = some x
  plain : ∀ x, Plain (g9 x)
  filled : ∀ x, g9 x ≠ []

/-- A number has no white space in it. -/
theorem plain_decimal (n : Nat) : Plain (decimal n) := by
  intro letter member
  have digit := @Nat.isDigit_of_mem_toDigits 10 n letter (by decide) (by decide) member
  simp only [Char.isDigit, Bool.and_eq_true, decide_eq_true_eq, UInt32.le_iff_toNat_le,
    ge_iff_le] at digit
  have low : 48 ≤ letter.toNat := digit.1
  have high : letter.toNat ≤ 57 := digit.2
  by_contra space
  simp only [isSpace, Bool.not_eq_false, Bool.or_eq_true, Bool.and_eq_true, decide_eq_true_eq,
    beq_iff_eq] at space
  omega

theorem decimal_ne_nil (n : Nat) : decimal n ≠ [] := Nat.toDigits_ne_nil

/-- A line that stays as it is when the text is cut into lines and stripped. -/
structure Stays (line : Text) : Prop where
  stripped : strip line = line
  filled : line ≠ []
  whole : ∀ letter ∈ line, isBreak letter = false

/-- Plain words with text between them that ends no line. -/
theorem stays_of_ends {front middle back : Text} (plain : Plain front) (plain' : Plain back)
    (filled : front ≠ []) (filled' : back ≠ [])
    (whole : ∀ letter ∈ middle, isBreak letter = false) : Stays (front ++ (middle ++ back)) := by
  refine ⟨strip_of_ends plain plain' filled filled' middle, by simp [filled],
    fun letter member => ?_⟩
  rcases List.mem_append.mp member with here | later
  · exact not_isBreak plain letter here
  · rcases List.mem_append.mp later with here | here
    · exact whole letter here
    · exact not_isBreak plain' letter here

theorem stays_headerLine (n : Nat) : Stays (headerLine n) :=
  @stays_of_ends ['v'] [' '] (decimal n) (by simp [Plain]; decide) (plain_decimal n) nofun
    (decimal_ne_nil n) (by simp; decide)

variable (numbers : RoundTrip int float g9)

include numbers

theorem stays_pointLine (point : Point φ) : Stays (pointLine g9 point) := by
  have whole : ∀ letter ∈ ' ' :: (g9 point.2.1 ++ [' ']), isBreak letter = false := by
    intro letter member
    simp only [List.mem_cons, List.mem_append, List.not_mem_nil, or_false] at member
    rcases member with rfl | member | rfl
    · decide
    · exact not_isBreak (numbers.plain _) letter member
    · decide
  have stays := stays_of_ends (numbers.plain point.1) (numbers.plain point.2.2)
    (numbers.filled _) (numbers.filled _) whole
  simpa [pointLine] using stays

theorem isPoint_pointLine (point : Point φ) : IsPoint float (pointLine g9 point) point := by
  refine ⟨g9 point.1, g9 point.2.1, g9 point.2.2, ?_, numbers.float _, numbers.float _,
    numbers.float _⟩
  rw [pointLine, words_cons (numbers.plain _) (numbers.filled _),
    words_cons (numbers.plain _) (numbers.filled _), words_self (numbers.plain _)
    (numbers.filled _)]

/-- The lines of strokes are blocks. -/
theorem blocks_strokeLines {strokes : List (List (Point φ))}
    (enough : ∀ stroke ∈ strokes, 2 ≤ stroke.length) :
    Blocks int float (strokes.flatMap (strokeLines g9)) strokes := by
  induction strokes with
  | nil => exact .nil
  | cons stroke strokes inductionHypothesis =>
    rw [List.forall_mem_cons] at enough
    refine .cons ⟨_, rfl, numbers.int _⟩ enough.1 ?_ (inductionHypothesis enough.2)
    rw [List.forall₂_map_left_iff, List.forall₂_same]
    exact fun point _ => isPoint_pointLine numbers point

/-- The lines of the text are those of the strokes. -/
theorem lines_formatCurves (strokes : List (List (Point φ))) :
    lines (formatCurves g9 strokes) = strokes.flatMap (strokeLines g9) := by
  have stays : ∀ line ∈ strokes.flatMap (strokeLines g9), Stays line := by
    intro line member
    obtain ⟨stroke, -, member⟩ := List.mem_flatMap.mp member
    rcases List.mem_cons.mp member with rfl | member
    · exact stays_headerLine _
    · obtain ⟨point, -, rfl⟩ := List.mem_map.mp member
      exact stays_pointLine numbers point
  rw [lines, formatCurves]
  generalize strokes.flatMap (strokeLines g9) = written at stays
  by_cases empty : written = []
  · subst empty
    decide
  · rw [splitlines_intercalate empty fun line member => (stays line member).whole,
      List.map_congr_left fun line member => (stays line member).stripped, List.map_id',
      List.filter_eq_self]
    exact fun line member => by simpa using (stays line member).filled

end Written

/-- A text is parsed to strokes just where its lines that are not blank are a sequence of blocks of
these strokes, and strokes of two points or more are read back from the text that is written of
them. -/
theorem parseCurves_formatCurves {int : Text → Option Int} {float : Text → Option φ}
    (vee : float ['v'] = none) :
    (∀ text strokes, parseCurves int float text = .ok strokes ↔
      Blocks int float (lines text) strokes) ∧
    ∀ g9, RoundTrip int float g9 → ∀ strokes : List (List (Point φ)),
      (∀ stroke ∈ strokes, 2 ≤ stroke.length) →
        parseCurves int float (formatCurves g9 strokes) = .ok strokes := by
  refine ⟨parseCurves_iff vee, fun g9 numbers strokes enough => ?_⟩
  rw [parseCurves_iff vee, lines_formatCurves numbers]
  exact blocks_strokeLines numbers enough

/-- A number in decimal digits. -/
def digits (text : Text) : Option Nat :=
  if text ≠ [] ∧ text.all Char.isDigit then some (Nat.ofDigitChars 10 text 0) else none

/-- A number reads as it is written. -/
theorem digits_decimal (n : Nat) : digits (decimal n) = some n := by
  have all : (decimal n).all Char.isDigit := List.all_eq_true.mpr fun letter member =>
    Nat.isDigit_of_mem_toDigits (by decide) (by decide) member
  rw [digits, if_pos ⟨decimal_ne_nil n, all⟩, decimal, Nat.ofDigitChars_toDigits] <;> decide

/-- Two strokes, of two points and of three, are read back. -/
theorem parseCurves_formatCurves_digits :
    parseCurves (fun text => (digits text).map Int.ofNat) digits
        (formatCurves decimal [[(0, 0, 0), (1, 2, 3)], [(4, 5, 6), (7, 8, 9), (10, 11, 12)]]) =
      .ok [[(0, 0, 0), (1, 2, 3)], [(4, 5, 6), (7, 8, 9), (10, 11, 12)]] := by
  refine (parseCurves_formatCurves (by decide)).2 decimal
    ⟨fun n => ?_, digits_decimal, plain_decimal, decimal_ne_nil⟩ _ (by decide)
  rw [digits_decimal, Option.map_some, Int.ofNat_eq_natCast]

end DressOn.Usd.CurvesText
