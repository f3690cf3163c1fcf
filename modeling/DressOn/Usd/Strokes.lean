import DressOn.Lib.Keyed
import DressOn.Lib.Lines
import DressOn.Lib.Texts
import Mathlib.Algebra.GroupWithZero.Nat

/-!
# Strokes to OpenUSD and back

How `strokes_usd.gd` writes strokes through the usd guest and reads them again, with the lines in
which names and metadata cross, and which strokes come back as they were.
-/

namespace DressOn.Usd

open DressOn.Lines DressOn.Keyed DressOn.Texts

/-- A point of a stroke. -/
structure Vec3 (R : Type) where
  /-- First coordinate. -/
  x : R
  /-- Second coordinate. -/
  y : R
  /-- Third coordinate. -/
  z : R
  deriving DecidableEq

/-- A stroke as the pipeline holds it. -/
structure Stroke (R : Type) where
  /-- The text of its `name`, if it has one. -/
  name : Option Text
  /-- Drawn in boundary mode. -/
  boundary : Bool
  /-- Its points. -/
  points : List (Vec3 R)
  deriving DecidableEq

/-- A stroke as `curve` answers it. -/
structure Curve (R : Type) where
  /-- Its name. -/
  name : Text
  /-- Its boundary flag. -/
  boundary : Bool
  /-- Its points. -/
  points : List (Vec3 R)
  deriving DecidableEq

/-- A `BasisCurves` prim under `/Creation`. -/
structure Prim (R : Type) where
  /-- Its name. -/
  name : Text
  /-- The `points` attribute. -/
  points : List (Vec3 R)
  /-- The `curveVertexCounts` attribute. -/
  curveVertexCounts : List Nat
  /-- The `boundary` primvar where it is authored. -/
  boundary : Option Bool
  deriving DecidableEq

/-- A stage: the curves under `/Creation` in the order of their definition, and the layer's custom
data. A dictionary is a list of entries, in the order of their first assignment. -/
structure Stage (R : Type) where
  /-- The prims. -/
  curves : List (Prim R)
  /-- `customLayerData`, whose values are texts here. -/
  layerData : List (Text × Text)
  deriving DecidableEq

/-- The metadata dictionary, by the texts of its keys and values. -/
abbrev Meta := List (Text × Text)

/-- What is used of OpenUSD, with what it promises: an exported layer opens as the stage it was
exported from, and its text starts as such texts do. -/
structure OpenUsd (R : Type) where
  /-- `SdfPath::IsValidIdentifier`. -/
  isValidIdentifier : Text → Bool
  /-- `ExportToString` of the root layer. -/
  exportToString : Stage R → Option Text
  /-- The error that an export left, as text. -/
  firstError : Stage R → Text
  /-- A package opened and its stage read, or the text of the error. -/
  openLayer : Text → Except Text (Stage R)
  /-- An exported stage opens unchanged. -/
  opens : ∀ stage text, exportToString stage = some text → openLayer text = .ok stage
  /-- Exported text starts with the format's header. -/
  header : ∀ stage text, exportToString stage = some text → "#usda 1.0".toList <+: text

variable {R : Type}

/-- `"stroke_%03d" % k`. -/
def defaultName (k : Nat) : Text :=
  "stroke_".toList ++ List.replicate (3 - (decimal k).length) '0' ++ decimal k

/-- The coordinates of points, as a packed array of floats holds them. -/
def flatten (points : List (Vec3 R)) : List R :=
  points.flatMap fun point => [point.x, point.y, point.z]

/-- The whole points of a packed array of floats. -/
def vectors : List R → List (Vec3 R)
  | x :: y :: z :: rest => ⟨x, y, z⟩ :: vectors rest
  | _ => []

/-- `lines_of`. -/
def linesOf (text : Text) : List Text := lines '\n' text

/-- The metadata lines, each cut at its first `=`; the line that has none. -/
def metaOf : List Text → Except Text (List (Text × Text))
  | [] => .ok []
  | line :: others =>
    match cutAt '=' line with
    | none => .error line
    | some entry => (metaOf others).map (entry :: ·)

/-- A name of the vector of names, or the default for a curve without one. -/
def nameOf (names : List Text) (k : Nat) : Text :=
  if names.isEmpty then defaultName k else names.getD k []

/-- What authoring a curve on a prim that is there already leaves: its attributes are set anew, and
a `boundary` that is not authored now stays as it was. -/
def author (old new : Prim R) : Prim R :=
  { name := old.name
    points := new.points
    curveVertexCounts := new.curveVertexCounts
    boundary := new.boundary <|> old.boundary }

/-- The loop of `write_curves` over the curves from `k` on, with the points that are left.
`Define` gives the prim that is at the path already. -/
def defineCurves (usd : OpenUsd R) (names : List Text) (marked : List Nat) :
    Nat → List Nat → List (Vec3 R) → List (Prim R) → Except Text (List (Prim R))
  | _, [], _, prims => .ok prims
  | k, count :: counts, points, prims =>
    let name := nameOf names k
    if !usd.isValidIdentifier name then
      .error ("ERR: curve ".toList ++ decimal k ++ ": '".toList ++ name
        ++ "' is not a valid prim name".toList)
    else
      defineCurves usd names marked (k + 1) counts (points.drop count)
        (put Prim.name author prims
          { name := name
            points := points.take count
            curveVertexCounts := [count]
            boundary := if k ∈ marked then some true else none })

/-- The checks of `write_curves` in front of the stage, as the error that they answer. -/
def refusal (points : List (Vec3 R)) (counts : List Nat) (names : List Text)
    (boundary : List Nat) : Option Text :=
  if names ≠ [] ∧ names.length ≠ counts.length then
    some ("ERR: ".toList ++ decimal names.length ++ " names for ".toList
      ++ decimal counts.length ++ " curves".toList)
  else
    match counts.zipIdx.find? fun entry => entry.1 < 2 with
    | some (count, k) =>
      some ("ERR: curve ".toList ++ decimal k ++ " has ".toList ++ decimal count
        ++ " point(s); a stroke needs 2 or more".toList)
    | none =>
      if counts.sum ≠ points.length then
        some ("ERR: counts sum ".toList ++ decimal counts.sum ++ " != points ".toList
          ++ decimal points.length)
      else
        match boundary.find? fun mark => counts.length ≤ mark with
        | some mark =>
          some ("ERR: boundary index ".toList ++ decimal mark ++ " out of range".toList)
        | none => none

/-- The guest's `write_curves`: the layer's text, or an error's. -/
def writeCurves (usd : OpenUsd R) (points : List (Vec3 R)) (counts : List Nat)
    (names : List Text) (boundary : List Nat) (entries : List (Text × Text)) : Text :=
  match refusal points counts names boundary with
  | some error => error
  | none =>
    match defineCurves usd names boundary 0 counts points [] with
    | .error error => error
    | .ok prims =>
      let stage : Stage R :=
        ⟨prims, putAll Prod.fst (fun old new => (old.1, new.2)) entries⟩
      match usd.exportToString stage with
      | none => "ERR: export failed: ".toList ++ usd.firstError stage
      | some text => text

/-- `usd_write_curves`: the call as it crosses, floats and lines. -/
def usdWriteCurves (usd : OpenUsd R) (points : List R) (counts boundary : List Nat)
    (names entries : Text) : Text :=
  if points.length % 3 ≠ 0 then
    "FAIL: usd_write_curves: ".toList ++ decimal points.length
      ++ " floats is not whole xyz points".toList
  else
    match metaOf (linesOf entries) with
    | .error line =>
      "FAIL: usd_write_curves: meta line '".toList ++ line ++ "' has no '='".toList
    | .ok entries => writeCurves usd (vectors points) counts (linesOf names) boundary entries

/-- The name that the host gives a stroke. -/
def Stroke.givenName (k : Nat) (stroke : Stroke R) : Text := stroke.name.getD (defaultName k)

/-- The names that the host hands over. -/
def givenNames (strokes : List (Stroke R)) : List Text := strokes.mapIdx Stroke.givenName

/-- The places of the boundary strokes. -/
def boundaryOf (strokes : List (Stroke R)) : List Nat :=
  strokes.zipIdx.filterMap fun entry => if entry.1.boundary then some entry.2 else none

/-- A metadata entry as a line. -/
def metaLine (entry : Text × Text) : Text := entry.1 ++ '=' :: entry.2

/-- `to_usda`: the layer's text, or an error. -/
def toUsda (usd : OpenUsd R) (strokes : List (Stroke R)) (data : Meta) : Except Text Text :=
  let text := usdWriteCurves usd (flatten (strokes.flatMap Stroke.points))
    (strokes.map fun stroke => stroke.points.length) (boundaryOf strokes)
    (['\n'].intercalate (givenNames strokes)) (['\n'].intercalate (data.map metaLine))
  if "ERR".toList <+: text ∨ "FAIL".toList <+: text then .error text else .ok text

/-- `add_curves`: the curves of a prim. -/
def addCurves (prim : Prim R) : Except Text (List (Curve R)) :=
  match prim.curveVertexCounts.find? (· < 2) with
  | some count =>
    .error ("a curve has ".toList ++ decimal count ++ " point(s); a stroke needs 2 or more".toList)
  | none =>
    if prim.curveVertexCounts.sum ≠ prim.points.length then
      .error ("curveVertexCounts sum ".toList ++ decimal prim.curveVertexCounts.sum
        ++ " != points ".toList ++ decimal prim.points.length)
    else
      let name (k : Nat) : Text :=
        if prim.curveVertexCounts.length = 1 then prim.name else prim.name ++ '_' :: decimal k
      .ok (prim.curveVertexCounts.mapIdx fun k count =>
        ⟨name k, prim.boundary.getD false,
          (prim.points.drop (prim.curveVertexCounts.take k).sum).take count⟩)

/-- The tables that opening a document fills. -/
structure Document (R : Type) where
  /-- The curves. -/
  curves : List (Curve R)
  /-- `layer_data`. -/
  layerData : List (Text × Text)

/-- The curves of all prims in the order of the traversal, or the first error. -/
def curvesOf : List (Prim R) → Except Text (List (Curve R))
  | [] => .ok []
  | prim :: prims =>
    match addCurves prim with
    | .error error => .error ("ERR: curves /Creation/".toList ++ prim.name ++ ": ".toList ++ error)
    | .ok curves => (curvesOf prims).map (curves ++ ·)

/-- `open` on the bytes of a document. -/
def openBytes (usd : OpenUsd R) (bytes : Text) : Except Text (Document R) :=
  if bytes = [] then .error "ERR: empty package".toList
  else
    match usd.openLayer bytes with
    | .error error => .error ("ERR: ".toList ++ error)
    | .ok stage => (curvesOf stage.curves).map (⟨·, stage.layerData⟩)

/-- `kWholeLimit`: the bytes that an array answered whole may hold. -/
def wholeLimit : Nat := 15 * 2 ^ 20

/-- `usd_curve_points`: the floats of a curve, answered whole. -/
def usdCurvePoints (curve : Curve R) : Except Text (List R) :=
  if wholeLimit < curve.points.length * 3 * 4 then
    .error ("FAIL: usd_curve_points: ".toList ++ decimal (curve.points.length * 3 * 4)
      ++ " bytes is past the 16 MiB view, use slices".toList)
  else .ok (flatten curve.points)

/-- `curve`: one stroke of the open document as the host reads it. -/
def readCurve (curve : Curve R) : Except Text (Curve R) :=
  (usdCurvePoints curve).map fun floats => ⟨curve.name, curve.boundary, vectors floats⟩

/-- The strokes of the open document from place `k` on, or the first error. -/
def readCurves (k : Nat) : List (Curve R) → Except Text (List (Curve R))
  | [] => .ok []
  | curve :: curves =>
    match readCurve curve with
    | .error error => .error ("curve ".toList ++ decimal k ++ ": ".toList ++ error)
    | .ok stroke => (readCurves (k + 1) curves).map (stroke :: ·)

/-- What `from_usda` answers. -/
structure Read (R : Type) where
  /-- The strokes. -/
  strokes : List (Curve R)
  /-- The layer's data. -/
  data : Meta
  deriving DecidableEq

/-- `from_usda`. -/
def fromUsda (usd : OpenUsd R) (bytes : Text) : Except Text (Read R) :=
  match openBytes usd bytes with
  | .error error => .error error
  | .ok document => (readCurves 0 document.curves).map (⟨·, document.layerData⟩)

/-- A stroke as it should come back. -/
def Stroke.expected (k : Nat) (stroke : Stroke R) : Curve R :=
  ⟨stroke.givenName k, stroke.boundary, stroke.points⟩

/-- Strokes and metadata survive the round trip: reading the written text gives the same strokes in
the same order, and the same metadata in some order. -/
def Survives (usd : OpenUsd R) (strokes : List (Stroke R)) (data : Meta) (text : Text) : Prop :=
  ∃ back, fromUsda usd text = .ok back ∧ back.strokes = strokes.mapIdx Stroke.expected ∧
    back.data.Perm data

/-- Strokes and metadata that the lines and the stage keep apart. -/
structure KeptApart (strokes : List (Stroke R)) (data : Meta) : Prop where
  /-- No two strokes get one name. -/
  names_distinct : (givenNames strokes).Nodup
  /-- No given name breaks its line. -/
  names_plain : ∀ name ∈ strokes.map Stroke.name, ∀ letters, name = some letters → '\n' ∉ letters
  /-- The only stroke is not given the empty name. -/
  name_filled : strokes.map Stroke.name ≠ [some []]
  /-- Every stroke is answered whole. -/
  fits : ∀ stroke ∈ strokes, stroke.points.length * 3 * 4 ≤ wholeLimit
  /-- No two keys have one text. -/
  keys_distinct : (data.map Prod.fst).Nodup
  /-- No key holds the sign that ends it, or breaks its line. -/
  keys_plain : ∀ entry ∈ data, '=' ∉ entry.1 ∧ '\n' ∉ entry.1
  /-- No value breaks its line. -/
  values_plain : ∀ entry ∈ data, '\n' ∉ entry.2

/-! ### Floats and points -/

/-- Three floats for every point. -/
theorem length_flatten (points : List (Vec3 R)) : (flatten points).length = points.length * 3 := by
  induction points with
  | nil => rfl
  | cons point points inductionHypothesis =>
    simp only [flatten, List.flatMap_cons, List.length_append] at inductionHypothesis ⊢
    simp only [inductionHypothesis, List.length_cons, List.length_nil]
    omega

/-- The points come back from their floats. -/
theorem vectors_flatten (points : List (Vec3 R)) : vectors (flatten points) = points := by
  induction points with
  | nil => rfl
  | cons point points inductionHypothesis =>
    simpa [flatten, vectors] using inductionHypothesis

/-! ### Names and lines -/

/-- A default name is not empty. -/
theorem defaultName_ne_nil (k : Nat) : defaultName k ≠ [] := by
  exact List.append_ne_nil_of_right_ne_nil _ Nat.toDigits_ne_nil

/-- A default name stays on its line. -/
theorem newline_notMem_defaultName (k : Nat) : '\n' ∉ defaultName k := by
  have start : '\n' ∉ "stroke_".toList := by decide
  have zeros : '\n' ∉ List.replicate (3 - (decimal k).length) '0' := fun member =>
    absurd (List.eq_of_mem_replicate member) (by decide)
  intro member
  rcases List.mem_append.mp member with member | member
  · exact (List.mem_append.mp member).elim start zeros
  · exact newline_notMem_decimal k member

/-! ### What is written -/

/-- The prim that a stroke's curve is authored as. -/
def Stroke.prim (names : List Text) (k : Nat) (stroke : Stroke R) : Prim R :=
  { name := nameOf names k
    points := stroke.points
    curveVertexCounts := [stroke.points.length]
    boundary := if stroke.boundary then some true else none }

/-- The prims of all strokes, as they are authored one after the other. -/
def primsOf (names : List Text) (strokes : List (Stroke R)) : List (Prim R) :=
  strokes.mapIdx (Stroke.prim names)

/-- The marked places are those of the boundary strokes. -/
theorem mem_boundaryOf {strokes : List (Stroke R)} {k : Nat} {stroke : Stroke R}
    (here : strokes[k]? = some stroke) : k ∈ boundaryOf strokes ↔ stroke.boundary = true := by
  simp only [boundaryOf, List.mem_filterMap, Prod.exists, List.mem_zipIdx_iff_getElem?]
  constructor
  · rintro ⟨other, place, there, marked⟩
    by_cases flag : other.boundary
    · rw [if_pos flag, Option.some.injEq] at marked
      rw [marked, here, Option.some.injEq] at there
      rwa [there]
    · rw [if_neg flag] at marked
      cases marked
  · intro flag
    exact ⟨stroke, k, here, by rw [if_pos flag]⟩

/-- The loop over the strokes from place `k` on puts in their prims, if it gets through. -/
theorem defineCurves_ok {usd : OpenUsd R} {names : List Text} {strokes : List (Stroke R)}
    {k : Nat} {prims out : List (Prim R)}
    (through : defineCurves usd names (boundaryOf strokes) k
      ((strokes.drop k).map fun stroke => stroke.points.length)
      ((strokes.drop k).flatMap Stroke.points) prims = .ok out) :
    out = ((strokes.drop k).mapIdx fun place => Stroke.prim names (k + place)).foldl
      (put Prim.name author) prims := by
  generalize rest_eq : strokes.drop k = rest at through
  induction rest generalizing k prims with
  | nil =>
    simp only [List.map_nil, defineCurves, Except.ok.injEq] at through
    simp [through]
  | cons stroke rest inductionHypothesis =>
    have here : strokes[k]? = some stroke := by
      rw [← List.head?_drop, rest_eq, List.head?_cons]
    have rest_next : strokes.drop (k + 1) = rest := by
      rw [← List.tail_drop, rest_eq, List.tail_cons]
    simp only [List.map_cons, List.flatMap_cons, defineCurves, mem_boundaryOf here,
      List.take_left, List.drop_left] at through
    split at through
    · cases through
    · rw [List.mapIdx_cons, List.foldl_cons, inductionHypothesis rest_next through]
      simp only [Nat.add_zero, Nat.add_assoc, Nat.add_comm 1]
      rfl

/-- A refusal in front of the stage is an error, and without one the counts fit names and
points. -/
theorem refusal_spec (points : List (Vec3 R)) (counts : List Nat) (names : List Text)
    (boundary : List Nat) :
    (∃ error, refusal points counts names boundary = some error ∧ "ERR".toList <+: error) ∨
      (refusal points counts names boundary = none ∧
        (names = [] ∨ names.length = counts.length) ∧ ∀ count ∈ counts, 2 ≤ count) := by
  unfold refusal
  split
  · exact Or.inl ⟨_, rfl, by simp⟩
  · next named =>
    split
    · exact Or.inl ⟨_, rfl, by simp⟩
    · next none_short =>
      split
      · exact Or.inl ⟨_, rfl, by simp⟩
      · split
        · exact Or.inl ⟨_, rfl, by simp⟩
        · refine Or.inr ⟨rfl, by tauto, fun count member => ?_⟩
          obtain ⟨place, bound, rfl⟩ := List.mem_iff_getElem.mp member
          have listed : (counts[place], place) ∈ counts.zipIdx :=
            List.mk_mem_zipIdx_iff_getElem?.mpr (List.getElem?_eq_getElem bound)
          have long := List.find?_eq_none.mp none_short _ listed
          simp only [decide_eq_true_eq] at long
          omega

/-- An error of the loop is an error. -/
theorem error_of_defineCurves {usd : OpenUsd R} {names : List Text} {marked : List Nat} {k : Nat}
    {counts : List Nat} {points : List (Vec3 R)} {prims : List (Prim R)} {error : Text}
    (stopped : defineCurves usd names marked k counts points prims = .error error) :
    "ERR".toList <+: error := by
  induction counts generalizing k points prims with
  | nil => cases stopped
  | cons count counts inductionHypothesis =>
    simp only [defineCurves] at stopped
    split at stopped
    · cases stopped
      simp
    · exact inductionHypothesis stopped

/-- The stage that strokes with the given lines make. -/
def written (names : List Text) (strokes : List (Stroke R)) (entries : List (Text × Text)) :
    Stage R :=
  ⟨putAll Prim.name author (primsOf names strokes),
    putAll Prod.fst (fun old new => (old.1, new.2)) entries⟩

/-- The lines in which the names of strokes reach the guest. -/
def nameLines (strokes : List (Stroke R)) : List Text :=
  linesOf (['\n'].intercalate (givenNames strokes))

/-- The lines in which the metadata reaches the guest. -/
def metaLines (data : Meta) : List Text := linesOf (['\n'].intercalate (data.map metaLine))

/-- What is accepted has been exported: the names fit the strokes, the metadata has been cut, and
no stroke is too short. -/
theorem toUsda_ok {usd : OpenUsd R} {strokes : List (Stroke R)} {data : Meta} {text : Text}
    (accepted : toUsda usd strokes data = .ok text) :
    ∃ entries, metaOf (metaLines data) = .ok entries ∧
      (nameLines strokes = [] ∨ (nameLines strokes).length = strokes.length) ∧
      (∀ stroke ∈ strokes, 2 ≤ stroke.points.length) ∧
      usd.exportToString (written (nameLines strokes) strokes entries) = some text := by
  simp only [toUsda] at accepted
  split at accepted
  · cases accepted
  next unmarked =>
  simp only [Except.ok.injEq] at accepted
  have not_error : ¬ "ERR".toList <+: text := fun starts => unmarked (Or.inl (accepted ▸ starts))
  have not_fail : ¬ "FAIL".toList <+: text := fun starts => unmarked (Or.inr (accepted ▸ starts))
  clear unmarked
  rw [usdWriteCurves, if_neg (by rw [length_flatten]; omega)] at accepted
  change (match metaOf (metaLines data) with | .error line => _ | .ok entries => _) = text
    at accepted
  split at accepted
  · exact absurd (by rw [← accepted]; simp) not_fail
  next entries cut =>
  rw [vectors_flatten, writeCurves] at accepted
  have checks := refusal_spec (strokes.flatMap Stroke.points)
    (strokes.map fun stroke => stroke.points.length) (nameLines strokes) (boundaryOf strokes)
  rcases checks with ⟨error, refused, starts⟩ | ⟨passed, named, long⟩
  · simp only [nameLines] at refused
    rw [refused] at accepted
    exact absurd (accepted ▸ starts) not_error
  · simp only [nameLines] at passed
    rw [passed] at accepted
    dsimp only at accepted
    split at accepted
    · next error stopped =>
      exact absurd (accepted ▸ error_of_defineCurves stopped) not_error
    next prims through =>
    have prims_eq := @defineCurves_ok R usd (nameLines strokes) strokes 0 [] prims through
    have stage_eq : (⟨prims, putAll Prod.fst (fun old new => (old.1, new.2)) entries⟩ : Stage R)
        = written (nameLines strokes) strokes entries := by
      rw [prims_eq]
      simp [written, putAll, primsOf]
    rw [stage_eq] at accepted
    split at accepted
    · exact absurd (by rw [← accepted]; simp) not_error
    next exported export_eq =>
    refine ⟨entries, cut, by simpa using named, ?_, by rw [export_eq, accepted]⟩
    intro stroke member
    exact long _ (List.mem_map_of_mem member)

/-! ### What is read -/

/-- A prim of one curve, as the writer authors them. -/
structure Prim.OneCurve (prim : Prim R) : Prop where
  /-- All its points are of the curve. -/
  counts : prim.curveVertexCounts = [prim.points.length]
  /-- They are enough. -/
  long : 2 ≤ prim.points.length

/-- The curve of a prim that has one. -/
def Prim.curve (prim : Prim R) : Curve R := ⟨prim.name, prim.boundary.getD false, prim.points⟩

/-- Such a prim is read as its curve. -/
theorem addCurves_of_oneCurve {prim : Prim R} (one : prim.OneCurve) :
    addCurves prim = .ok [prim.curve] := by
  have none_short : [prim.points.length].find? (· < 2) = none := by
    have long := one.long
    rw [List.find?_singleton, if_neg]
    simp only [decide_eq_true_eq]
    omega
  rw [addCurves, one.counts]
  simp only [none_short, List.sum_singleton]
  simp [Prim.curve]

/-- A document of such prims lists their curves. -/
theorem curvesOf_of_oneCurve {prims : List (Prim R)} (each : ∀ prim ∈ prims, prim.OneCurve) :
    curvesOf prims = .ok (prims.map Prim.curve) := by
  induction prims with
  | nil => rfl
  | cons prim prims inductionHypothesis =>
    rw [curvesOf, addCurves_of_oneCurve (each prim (by simp)),
      inductionHypothesis fun other member => each other (by simp [member])]
    rfl

/-- All curves are read exactly if each of them fits in a whole answer. -/
theorem readCurves_ok_iff {k : Nat} {curves strokes : List (Curve R)} :
    readCurves k curves = .ok strokes ↔
      strokes = curves ∧ ∀ curve ∈ curves, curve.points.length * 3 * 4 ≤ wholeLimit := by
  induction curves generalizing k strokes with
  | nil => simp [readCurves, eq_comm]
  | cons curve curves inductionHypothesis =>
    rw [readCurves, readCurve, usdCurvePoints]
    by_cases long : wholeLimit < curve.points.length * 3 * 4
    · rw [if_pos long]
      simp only [Except.map, reduceCtorEq, false_iff, not_and]
      rintro rfl all_fit
      exact Nat.not_le_of_lt long (all_fit curve (by simp))
    · rw [if_neg long]
      simp only [Except.map, vectors_flatten]
      cases rest : readCurves (k + 1) curves with
      | error message =>
        simp only [reduceCtorEq, false_iff, not_and]
        rintro rfl all_fit
        have read_rest := (@inductionHypothesis (k + 1) curves).mpr
          ⟨rfl, fun other member => all_fit other (by simp [member])⟩
        rw [rest] at read_rest
        cases read_rest
      | ok others =>
        obtain ⟨rfl, fit⟩ := inductionHypothesis.mp rest
        simp only [Except.ok.injEq]
        constructor
        · rintro rfl
          refine ⟨rfl, fun other member => ?_⟩
          rcases List.mem_cons.mp member with rfl | member
          · exact Nat.le_of_not_lt long
          · exact fit other member
        · rintro ⟨rfl, -⟩
          rfl

/-- Merged prims stay prims of one curve. -/
theorem Prim.OneCurve.author {old new : Prim R} (one : new.OneCurve) :
    (author old new).OneCurve := ⟨one.counts, one.long⟩

/-- An exported stage opens as the document of its prims' curves. -/
theorem openBytes_written {usd : OpenUsd R} {strokes : List (Stroke R)} {text : Text}
    {names : List Text} {entries : List (Text × Text)}
    (long : ∀ stroke ∈ strokes, 2 ≤ stroke.points.length)
    (exported : usd.exportToString (written names strokes entries) = some text) :
    openBytes usd text = .ok ⟨(written names strokes entries).curves.map Prim.curve,
      (written names strokes entries).layerData⟩ := by
  have filled : text ≠ [] := by
    rintro rfl
    exact absurd (usd.header _ _ exported) (by decide)
  have each : ∀ prim ∈ (written names strokes entries).curves, prim.OneCurve := by
    refine forall_putAll (fun old new _ one => one.author) fun prim member => ?_
    obtain ⟨k, bound, rfl⟩ := List.mem_mapIdx.mp member
    exact ⟨rfl, long _ (List.getElem_mem bound)⟩
  rw [openBytes, if_neg filled, usd.opens _ _ exported]
  dsimp only
  rw [curvesOf_of_oneCurve each]
  rfl

/-- The strokes fit as they should come back exactly if they fit. -/
theorem expected_fits_iff {strokes : List (Stroke R)} :
    (∀ curve ∈ strokes.mapIdx Stroke.expected, curve.points.length * 3 * 4 ≤ wholeLimit) ↔
      ∀ stroke ∈ strokes, stroke.points.length * 3 * 4 ≤ wholeLimit := by
  constructor
  · intro fit stroke member
    obtain ⟨k, bound, rfl⟩ := List.mem_iff_getElem.mp member
    exact fit (strokes[k].expected k) (List.mem_mapIdx.mpr ⟨k, bound, rfl⟩)
  · intro fit curve member
    obtain ⟨k, bound, rfl⟩ := List.mem_mapIdx.mp member
    exact fit _ (List.getElem_mem bound)

/-- What an accepted list of strokes is read back as: the curves of its prims, if they all fit. -/
theorem survives_iff {usd : OpenUsd R} {strokes : List (Stroke R)} {data : Meta} {text : Text}
    {names : List Text} {entries : List (Text × Text)}
    (long : ∀ stroke ∈ strokes, 2 ≤ stroke.points.length)
    (exported : usd.exportToString (written names strokes entries) = some text) :
    Survives usd strokes data text ↔
      (written names strokes entries).curves.map Prim.curve = strokes.mapIdx Stroke.expected ∧
        (∀ stroke ∈ strokes, stroke.points.length * 3 * 4 ≤ wholeLimit) ∧
        (written names strokes entries).layerData.Perm data := by
  rw [Survives, fromUsda, openBytes_written long exported]
  dsimp only
  cases read : readCurves 0 ((written names strokes entries).curves.map Prim.curve) with
  | error message =>
    simp only [Except.map, reduceCtorEq, false_and, exists_false, false_iff, not_and]
    intro same fit
    rw [same] at read
    have all_read := (@readCurves_ok_iff R 0 _ (strokes.mapIdx Stroke.expected)).mpr
      ⟨rfl, expected_fits_iff.mpr fit⟩
    rw [read] at all_read
    cases all_read
  | ok curves =>
    obtain ⟨rfl, fit⟩ := readCurves_ok_iff.mp read
    simp only [Except.map, Except.ok.injEq, exists_eq_left']
    constructor
    · rintro ⟨same, kept⟩
      exact ⟨same, expected_fits_iff.mp (same ▸ fit), kept⟩
    · rintro ⟨same, -, kept⟩
      exact ⟨same, kept⟩

/-! ### Names and metadata kept apart -/

/-- The texts of the default name and of a given one that stays on its line. -/
theorem givenName_plain {k : Nat} {stroke : Stroke R}
    (plain : ∀ letters, stroke.name = some letters → '\n' ∉ letters) :
    '\n' ∉ stroke.givenName k := by
  unfold Stroke.givenName
  cases named : stroke.name with
  | none => exact newline_notMem_defaultName k
  | some letters => exact plain letters named

/-- An empty name has been given. -/
theorem name_of_givenName_eq_nil {k : Nat} {stroke : Stroke R} (empty : stroke.givenName k = []) :
    stroke.name = some [] := by
  unfold Stroke.givenName at empty
  cases named : stroke.name with
  | none =>
    rw [named] at empty
    exact absurd empty (defaultName_ne_nil k)
  | some letters =>
    rw [named] at empty
    exact congrArg some empty

/-- As many names as strokes. -/
@[simp] theorem length_givenNames (strokes : List (Stroke R)) :
    (givenNames strokes).length = strokes.length := List.length_mapIdx

/-- Plain names arrive as they are given, if they are accepted and not the one empty name. -/
theorem nameLines_eq {strokes : List (Stroke R)}
    (named : nameLines strokes = [] ∨ (nameLines strokes).length = strokes.length)
    (plain : ∀ name ∈ strokes.map Stroke.name, ∀ letters, name = some letters → '\n' ∉ letters)
    (filled : strokes.map Stroke.name ≠ [some []]) : nameLines strokes = givenNames strokes := by
  have all_plain : ∀ name ∈ givenNames strokes, '\n' ∉ name := by
    intro name member
    obtain ⟨k, bound, rfl⟩ := List.mem_mapIdx.mp member
    exact givenName_plain (plain _ (List.mem_map_of_mem (List.getElem_mem bound)))
  have lines_eq : nameLines strokes = trimmed (givenNames strokes) := lines_intercalate all_plain
  rcases trimmed_eq (givenNames strokes) with same | cut
  · rw [lines_eq, same]
  · rw [← lines_eq] at cut
    have lengths := congrArg List.length cut
    simp only [List.length_append, List.length_singleton, length_givenNames] at lengths
    rcases named with empty | full
    · -- the one line that was lost was the only one
      rw [empty, List.nil_append] at cut
      rw [empty] at lengths
      obtain ⟨stroke, rfl⟩ := List.length_eq_one_iff.mp lengths.symm
      refine absurd ?_ filled
      simp only [givenNames, List.mapIdx_cons, List.mapIdx_nil, List.cons.injEq, and_true] at cut
      simp [name_of_givenName_eq_nil cut.symm]
    · omega

/-- With the given names on their lines, the guest names curves as the host names strokes. -/
theorem nameOf_givenNames {strokes : List (Stroke R)} {k : Nat} (bound : k < strokes.length) :
    nameOf (givenNames strokes) k = strokes[k].givenName k := by
  have filled : givenNames strokes ≠ [] := by
    intro empty
    have lengths := congrArg List.length empty
    simp only [length_givenNames, List.length_nil] at lengths
    omega
  rw [nameOf, if_neg (by simpa using filled)]
  simp [givenNames, bound]

/-- The strokes' curves come back exactly if the names are kept apart. -/
theorem curves_eq_iff {strokes : List (Stroke R)} {entries : List (Text × Text)}
    (named : nameLines strokes = [] ∨ (nameLines strokes).length = strokes.length) :
    (written (nameLines strokes) strokes entries).curves.map Prim.curve
        = strokes.mapIdx Stroke.expected ↔
      (givenNames strokes).Nodup ∧
        (∀ name ∈ strokes.map Stroke.name, ∀ letters, name = some letters → '\n' ∉ letters) ∧
        strokes.map Stroke.name ≠ [some []] := by
  constructor
  · intro same
    have names_eq : (written (nameLines strokes) strokes entries).curves.map Prim.name
        = givenNames strokes := by
      have names := congrArg (List.map Curve.name) same
      rw [List.map_map] at names
      refine names.trans (List.ext_getElem (by simp) fun k _ _ => ?_)
      simp [givenNames, Stroke.expected]
    have from_lines : ∀ name ∈ givenNames strokes, ∃ k, name = nameOf (nameLines strokes) k := by
      rw [← names_eq]
      intro name member
      obtain ⟨prim, prim_member, rfl⟩ := List.mem_map.mp member
      refine @forall_putAll (Prim R) Text _ Prim.name author
        (fun prim => ∃ k, prim.name = nameOf (nameLines strokes) k) (fun _ _ kept _ => kept)
        (primsOf (nameLines strokes) strokes) ?_ prim prim_member
      intro prim member
      obtain ⟨k, bound, rfl⟩ := List.mem_mapIdx.mp member
      exact ⟨k, rfl⟩
    have not_empty : [] ∉ givenNames strokes ∨ nameLines strokes ≠ [] := by
      refine or_iff_not_imp_right.mpr fun none_left member => ?_
      obtain ⟨k, name_eq⟩ := from_lines _ member
      rw [not_not.mp none_left] at name_eq
      exact defaultName_ne_nil k name_eq.symm
    have distinct : ((written (nameLines strokes) strokes entries).curves.map Prim.name).Nodup :=
      @nodup_putAll _ _ _ Prim.name author (fun _ _ => rfl) _
    refine ⟨names_eq ▸ distinct, ?_, ?_⟩
    · intro name member letters name_eq newline
      obtain ⟨stroke, stroke_member, rfl⟩ := List.mem_map.mp member
      obtain ⟨k, bound, rfl⟩ := List.mem_iff_getElem.mp stroke_member
      have given : letters ∈ givenNames strokes :=
        List.mem_mapIdx.mpr ⟨k, bound, by simp [Stroke.givenName, name_eq]⟩
      obtain ⟨place, letters_eq⟩ := from_lines letters given
      unfold nameOf at letters_eq
      split at letters_eq
      · exact newline_notMem_defaultName place (letters_eq ▸ newline)
      · rw [List.getD_eq_getElem?_getD] at letters_eq
        cases there : (nameLines strokes)[place]? with
        | none =>
          rw [letters_eq, there] at newline
          exact List.not_mem_nil newline
        | some line =>
          rw [letters_eq, there] at newline
          exact notMem_of_mem_lines (List.mem_of_getElem? there) newline
    · intro lone
      obtain ⟨stroke, rfl⟩ := List.length_eq_one_iff.mp (by simpa using congrArg List.length lone)
      have empty : stroke.name = some [] := by simpa using lone
      have given : givenNames [stroke] = [[]] := by
        simp [givenNames, Stroke.givenName, empty]
      have none_left : nameLines [stroke] = [] := by
        rw [nameLines, given]
        rfl
      exact not_empty.elim (fun outside => outside (by simp [given])) fun left => left none_left
  · rintro ⟨distinct, plain, filled⟩
    rw [nameLines_eq named plain filled]
    have prims_eq : (primsOf (givenNames strokes) strokes).map Prim.name = givenNames strokes := by
      refine List.ext_getElem (by simp [primsOf]) fun k bound _ => ?_
      have inside : k < strokes.length := by simpa [primsOf] using bound
      simpa [primsOf, Stroke.prim, givenNames] using nameOf_givenNames inside
    rw [written, putAll_of_nodup (by rwa [prims_eq])]
    refine List.ext_getElem (by simp [primsOf]) fun k bound _ => ?_
    have inside : k < strokes.length := by simpa [primsOf] using bound
    have name_eq := nameOf_givenNames inside
    cases flag : strokes[k].boundary <;>
      simp [primsOf, Stroke.prim, Stroke.expected, Prim.curve, name_eq, flag]

/-- What the guest makes of metadata lines holds no sign that ends a key or a line. -/
theorem plain_of_metaOf {lines : List Text} {entries : List (Text × Text)}
    (cut : metaOf lines = .ok entries) (lines_plain : ∀ line ∈ lines, '\n' ∉ line) :
    ∀ entry ∈ entries, ('=' ∉ entry.1 ∧ '\n' ∉ entry.1) ∧ '\n' ∉ entry.2 := by
  induction lines generalizing entries with
  | nil =>
    simp only [metaOf, Except.ok.injEq] at cut
    simp [← cut]
  | cons line others inductionHypothesis =>
    rw [metaOf] at cut
    cases here : cutAt '=' line with
    | none => simp [here] at cut
    | some entry =>
      cases rest : metaOf others with
      | error message => simp [here, rest, Except.map] at cut
      | ok more =>
        simp only [here, rest, Except.map, Except.ok.injEq] at cut
        rw [← cut]
        intro result member
        rcases List.mem_cons.mp member with rfl | member
        · obtain ⟨no_mark, key_part, value_part⟩ := of_cutAt here
          have plain := lines_plain line (by simp)
          exact ⟨⟨no_mark, fun inside => plain (key_part inside)⟩,
            fun inside => plain (value_part inside)⟩
        · exact inductionHypothesis rest (fun other inside => lines_plain other (by simp [inside]))
            result member

/-- Lines of keys without a `=` are cut back into their entries. -/
theorem metaOf_metaLine {data : Meta} (plain : ∀ entry ∈ data, '=' ∉ entry.1) :
    metaOf (data.map metaLine) = .ok data := by
  induction data with
  | nil => rfl
  | cons entry data inductionHypothesis =>
    rw [List.map_cons, metaOf, metaLine, cutAt_append (plain entry (by simp)),
      inductionHypothesis fun other member => plain other (by simp [member])]
    rfl

/-- Metadata of plain keys and values reaches the guest line by line. -/
theorem metaLines_eq {data : Meta}
    (plain : ∀ entry ∈ data, '\n' ∉ entry.1 ∧ '\n' ∉ entry.2) :
    metaLines data = data.map metaLine := by
  have lines_plain : ∀ line ∈ data.map metaLine, '\n' ∉ line := by
    intro line member
    obtain ⟨entry, entry_member, rfl⟩ := List.mem_map.mp member
    have both := plain entry entry_member
    simp [metaLine, both.1, both.2]
  rw [metaLines, linesOf, lines_intercalate lines_plain, trimmed_of_ne_nil]
  intro line member
  obtain ⟨entry, -, rfl⟩ := List.mem_map.mp member
  simp [metaLine]

/-- The metadata comes back exactly if its keys and values are kept apart. -/
theorem layerData_perm_iff {data : Meta} {names : List Text} {strokes : List (Stroke R)}
    {entries : List (Text × Text)} (cut : metaOf (metaLines data) = .ok entries) :
    (written names strokes entries).layerData.Perm data ↔
      (data.map Prod.fst).Nodup ∧ (∀ entry ∈ data, '=' ∉ entry.1 ∧ '\n' ∉ entry.1) ∧
        ∀ entry ∈ data, '\n' ∉ entry.2 := by
  constructor
  · intro kept
    have lines_plain : ∀ line ∈ metaLines data, '\n' ∉ line := fun line => notMem_of_mem_lines
    have distinct : ((written names strokes entries).layerData.map Prod.fst).Nodup :=
      @nodup_putAll _ _ _ Prod.fst (fun old new => (old.1, new.2)) (fun _ _ => rfl) _
    have plain : ∀ entry ∈ (written names strokes entries).layerData,
        ('=' ∉ entry.1 ∧ '\n' ∉ entry.1) ∧ '\n' ∉ entry.2 :=
      forall_putAll (fun _ _ old new => ⟨old.1, new.2⟩) (plain_of_metaOf cut lines_plain)
    exact ⟨(kept.map Prod.fst).nodup_iff.mp distinct,
      fun entry member => (plain entry (kept.mem_iff.mpr member)).1,
      fun entry member => (plain entry (kept.mem_iff.mpr member)).2⟩
  · rintro ⟨distinct, keys_plain, values_plain⟩
    rw [metaLines_eq fun entry member =>
        ⟨(keys_plain entry member).2, values_plain entry member⟩,
      metaOf_metaLine fun entry member => (keys_plain entry member).1] at cut
    cases cut
    exact List.Perm.of_eq (putAll_of_nodup distinct)

/-- Accepted strokes and metadata survive the round trip exactly if lines and stage keep them
apart. -/
theorem survives_iff_keptApart (usd : OpenUsd R) (strokes : List (Stroke R)) (data : Meta)
    (text : Text) (accepted : toUsda usd strokes data = .ok text) :
    Survives usd strokes data text ↔ KeptApart strokes data := by
  obtain ⟨entries, cut, named, long, exported⟩ := toUsda_ok accepted
  rw [survives_iff long exported, curves_eq_iff named, layerData_perm_iff cut]
  constructor
  · rintro ⟨⟨distinct, plain, filled⟩, fits, keys_distinct, keys_plain, values_plain⟩
    exact ⟨distinct, plain, filled, fits, keys_distinct, keys_plain, values_plain⟩
  · rintro ⟨distinct, plain, filled, fits, keys_distinct, keys_plain, values_plain⟩
    exact ⟨⟨distinct, plain, filled⟩, fits, keys_distinct, keys_plain, values_plain⟩

/-! ### One stage and its text -/

/-- The library as far as one stage and the rest of its text go. -/
def OpenUsd.recorded (stage : Stage Nat) (rest : Text) : OpenUsd Nat where
  isValidIdentifier name :=
    name.all (fun letter => letter.isAlphanum || letter == '_') &&
      name.head?.any fun letter => !letter.isDigit
  exportToString other := if other = stage then some ("#usda 1.0".toList ++ rest) else none
  firstError _ := []
  openLayer text :=
    if text = "#usda 1.0".toList ++ rest then .ok stage else .error "usda open failed: ".toList
  opens other text exported := by
    split at exported
    · next same =>
      cases exported
      rw [if_pos rfl, same]
    · cases exported
  header other text exported := by
    split at exported
    · cases exported
      exact List.prefix_append _ _
    · cases exported

/-- A boundary stroke with a name and a stroke without. -/
def seams : List (Stroke Nat) :=
  [⟨some "hem".toList, true, [⟨0, 1, 0⟩, ⟨1, 1, 0⟩]⟩, ⟨none, false, [⟨0, 2, 0⟩, ⟨1, 2, 0⟩]⟩]

/-- The stage that they make. -/
def seamsStage : Stage Nat :=
  ⟨[⟨"hem".toList, [⟨0, 1, 0⟩, ⟨1, 1, 0⟩], [2], some true⟩,
    ⟨"stroke_001".toList, [⟨0, 2, 0⟩, ⟨1, 2, 0⟩], [2], none⟩], [("body".toList, "a=b".toList)]⟩

/-- The text of that stage behind its header. -/
def seamsRest : Text :=
  "\n(\n    customLayerData = \x7b\n        string body = \"a=b\"\n    \x7d\n".toList
    ++ "    defaultPrim = \"Creation\"\n    metersPerUnit = 1\n    upAxis = \"Y\"\n)\n\n".toList
    ++ "def Xform \"Creation\"\n\x7b\n    def BasisCurves \"hem\"\n    \x7b\n".toList
    ++ "        int[] curveVertexCounts = [2]\n".toList
    ++ "        point3f[] points = [(0, 1, 0), (1, 1, 0)]\n".toList
    ++ "        bool primvars:boundary = 1 (\n            interpolation = \"uniform\"\n".toList
    ++ "        )\n        uniform token type = \"linear\"\n    \x7d\n\n".toList
    ++ "    def BasisCurves \"stroke_001\"\n    \x7b\n".toList
    ++ "        int[] curveVertexCounts = [2]\n".toList
    ++ "        point3f[] points = [(0, 2, 0), (1, 2, 0)]\n".toList
    ++ "        uniform token type = \"linear\"\n    \x7d\n\x7d\n".toList

/-- They are accepted, with a value that has a `=` of its own. -/
theorem toUsda_seams (rest : Text) :
    toUsda (OpenUsd.recorded seamsStage rest) seams [("body".toList, "a=b".toList)]
      = .ok ("#usda 1.0".toList ++ rest) := rfl

/-- Both strokes and the value come back. -/
theorem seams_survive :
    Survives (OpenUsd.recorded seamsStage seamsRest) seams [("body".toList, "a=b".toList)]
      ("#usda 1.0".toList ++ seamsRest) :=
  (survives_iff_keptApart _ _ _ _ (toUsda_seams seamsRest)).mpr
    { names_distinct := by decide +kernel
      names_plain := by
        intro name member letters name_eq
        simp only [seams, List.map_cons, List.map_nil, List.mem_cons, List.not_mem_nil,
          or_false] at member
        rcases member with rfl | rfl
        · cases name_eq
          decide
        · cases name_eq
      name_filled := by decide
      fits := by decide
      keys_distinct := by decide
      keys_plain := by decide
      values_plain := by decide }

/-- Two strokes of one name. -/
def twins : List (Stroke Nat) :=
  [⟨some "hem".toList, true, [⟨0, 1, 0⟩, ⟨1, 1, 0⟩]⟩,
    ⟨some "hem".toList, false, [⟨0, 2, 0⟩, ⟨1, 2, 0⟩]⟩]

/-- The stage that they make: one prim, with the points of the later stroke and the flag of the
earlier one. -/
def twinsStage : Stage Nat :=
  ⟨[⟨"hem".toList, [⟨0, 2, 0⟩, ⟨1, 2, 0⟩], [2], some true⟩], []⟩

/-- The text of that stage behind its header. -/
def twinsRest : Text :=
  "\n(\n    defaultPrim = \"Creation\"\n    metersPerUnit = 1\n    upAxis = \"Y\"\n)\n\n".toList
    ++ "def Xform \"Creation\"\n\x7b\n    def BasisCurves \"hem\"\n    \x7b\n".toList
    ++ "        int[] curveVertexCounts = [2]\n".toList
    ++ "        point3f[] points = [(0, 2, 0), (1, 2, 0)]\n".toList
    ++ "        bool primvars:boundary = 1 (\n            interpolation = \"uniform\"\n".toList
    ++ "        )\n        uniform token type = \"linear\"\n    \x7d\n\x7d\n".toList

/-- They are accepted. -/
theorem toUsda_twins (rest : Text) :
    toUsda (OpenUsd.recorded twinsStage rest) twins [] = .ok ("#usda 1.0".toList ++ rest) := rfl

/-- The two strokes are accepted, and one stroke comes back. -/
theorem twins_lost :
    toUsda (OpenUsd.recorded twinsStage twinsRest) twins []
        = .ok ("#usda 1.0".toList ++ twinsRest) ∧
      ¬ Survives (OpenUsd.recorded twinsStage twinsRest) twins []
        ("#usda 1.0".toList ++ twinsRest) := by
  refine ⟨toUsda_twins twinsRest, fun survives => ?_⟩
  obtain ⟨entries, -, -, long, exported⟩ := toUsda_ok (toUsda_twins twinsRest)
  have same := ((survives_iff long exported).mp survives).1
  have lengths := congrArg List.length same
  rw [List.length_map, List.length_mapIdx] at lengths
  exact absurd lengths (show ¬ 1 = 2 by decide)

end DressOn.Usd
