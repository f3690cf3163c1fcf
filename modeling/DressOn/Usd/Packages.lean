import DressOn.Lib.Windows
import Mathlib.Algebra.GroupWithZero.Nat

/-!
# Packages and slices

How `usd_stage.gd` hands a package to the guest, whole or through the guest's staging buffer, and
reads the guest's arrays in slices: which bytes the guest opens after any earlier calls, and that
the slices make up the array.
-/

namespace DressOn.Usd.Packages

open DressOn.Windows

/-- A string of bytes. -/
abbrev Bytes := List UInt8

/-- `CHUNK`: the bytes of one `usd_push`. -/
def chunk : Nat := 8 * 2 ^ 20

/-- `SLICE_ITEMS`: the points or triangles of one slice. -/
def sliceItems : Nat := 2 ^ 20

/-- `SLICE_BYTES`: the texture bytes of one slice. -/
def sliceBytes : Nat := 8 * 2 ^ 20

/-- `kWholeLimit`: the bytes that one answer of the guest may hold. -/
def wholeLimit : Nat := 15 * 2 ^ 20

/-- The stage with the guest in its sandbox. -/
structure Stage where
  /-- The guest's `g_staged`. There is none without a sandbox. -/
  staged : Option Bytes
  /-- `docs_opened`. -/
  docsOpened : Nat
  /-- The bytes that guests were made to open, from first to last. -/
  opened : List Bytes

/-- The stage with a newly loaded guest. -/
def Stage.fresh : Stage := ⟨some [], 0, []⟩

/-- The bytes that the guest has staged. -/
def Stage.leftover (stage : Stage) : Bytes := stage.staged.getD []

/-- `usd_push` of bytes that the guest gets. -/
def Stage.push (stage : Stage) (bytes : Bytes) : Stage :=
  { stage with staged := stage.staged.map (· ++ bytes) }

/-- `usd_open`: the staged bytes are dropped. -/
def Stage.open (stage : Stage) (bytes : Bytes) : Stage :=
  match stage.staged with
  | none => stage
  | some _ => { stage with staged := some [], opened := stage.opened ++ [bytes] }

/-- `usd_open_staged`. -/
def Stage.openStaged (stage : Stage) : Stage :=
  match stage.staged with
  | none => stage
  | some bytes => { stage with staged := some [], opened := stage.opened ++ [bytes] }

/-- `usd_close`. -/
def Stage.close (stage : Stage) : Stage := { stage with staged := stage.staged.map fun _ => [] }

/-- What can go wrong under `open_package`. -/
structure Faults where
  /-- `usd.elf` does not load again. -/
  reload : Bool
  /-- The push that fails, counted from 0. -/
  push : Option Nat

/-- What `open_package` answers. -/
inductive Answer where
  /-- `FAIL: usd missing`. -/
  | missing
  /-- `FAIL: usd.elf did not reload`. -/
  | notReloaded
  /-- `FAIL: usd_push at ..`, with the place. -/
  | pushFailed (place : Nat)
  /-- The line of the guest's open. -/
  | opened
  deriving DecidableEq

/-- The pushes of `open_package`, one for each window, up to the one that fails. -/
def pushAll (bytes : Bytes) (fault : Option Nat) :
    Nat → List (Nat × Nat) → Stage → Stage × Option Nat
  | _, [], stage => (stage, none)
  | k, window :: later, stage =>
    -- a push that throws leaves the staged bytes as they were
    if fault = some k then (stage, some window.1)
    else pushAll bytes fault (k + 1) later (stage.push (view bytes window))

/-- `open_package` once the sandbox is there. -/
def openLoaded (stage : Stage) (bytes : Bytes) (fault : Option Nat) : Stage × Answer :=
  let stage := { stage with docsOpened := stage.docsOpened + 1 }
  if bytes.length ≤ chunk then (stage.open bytes, .opened)
  else
    match pushAll bytes fault 0 (windows chunk bytes.length) stage with
    | (stage, some place) => (stage, .pushFailed place)
    | (stage, none) => (stage.openStaged, .opened)

/-- `open_package`: every document after the first gets a new sandbox. -/
def openPackage (stage : Stage) (bytes : Bytes) (faults : Faults) : Stage × Answer :=
  if stage.staged.isNone then (stage, .missing)
  else if 0 < stage.docsOpened then
    if faults.reload then ({ stage with staged := none }, .notReloaded)
    else openLoaded { stage with staged := some [] } bytes faults.push
  else openLoaded stage bytes faults.push

/-- The calls that reach a guest's staging buffer. -/
inductive Call where
  /-- `usd_push` by itself. -/
  | push (bytes : Bytes)
  /-- `usd_open` by itself. -/
  | open (bytes : Bytes)
  /-- `usd_open_staged` by itself. -/
  | openStaged
  /-- `close`. -/
  | close
  /-- `open_package`. -/
  | package (bytes : Bytes) (faults : Faults)
  /-- `ensure`, which loads the guest where it is missing. -/
  | ensure

/-- A call made on the stage. -/
def Stage.call (stage : Stage) : Call → Stage
  | .push bytes => stage.push bytes
  | .open bytes => stage.open bytes
  | .openStaged => stage.openStaged
  | .close => stage.close
  | .package bytes faults => (openPackage stage bytes faults).1
  | .ensure => { stage with staged := some stage.leftover }

/-- The stage after calls made on a newly loaded one. -/
def after (calls : List Call) : Stage := calls.foldl Stage.call Stage.fresh

/-- A package is opened as given: whatever goes wrong, the guest is made to open the given bytes
and nothing else if the package is opened, and nothing at all if it is refused. -/
def OpensAsGiven (stage : Stage) (bytes : Bytes) : Prop :=
  ∀ faults, (openPackage stage bytes faults).1.opened
    = if (openPackage stage bytes faults).2 = .opened then stage.opened ++ [bytes]
      else stage.opened

/-- No bytes that were staged before can get in front of a package: the guest is missing or new,
the package goes in one call, or nothing is staged. -/
def NothingInFront (stage : Stage) (bytes : Bytes) : Prop :=
  0 < stage.docsOpened ∨ bytes.length ≤ chunk ∨ stage.leftover = []

/-- `float_slice`, `int_slice` and `byte_slice`: the items from one on, each of `stride` elements
of `bytes` bytes; the guest's refusals are not told apart. -/
def guestSlice {α : Type} (bytes : Nat) (data : List α) (items stride : Nat) (start count : Int) :
    Option (List α) :=
  if start < 0 ∨ items < start then none
  else
    let wanted : Nat := if count ≤ 0 then items - start.toNat else count.toNat
    let count := if items < start.toNat + wanted then items - start.toNat else wanted
    if wholeLimit < count * stride * bytes then none
    else some ((data.drop (start.toNat * stride)).take (count * stride))

/-- `_floats`, `_ints` and the loop of `texture`: the slices of all windows one behind the other,
and nothing if one of them is not what was asked for. -/
def readSlices {α : Type} (slice : Int → Int → Option (List α)) (stride : Nat) :
    List (Nat × Nat) → List α → List α
  | [], out => out
  | window :: later, out =>
    match slice window.1 window.2 with
    | none => []
    | some part =>
      if part.length ≠ window.2 * stride then []
      else readSlices slice stride later (out ++ part)

/-- An array of a mesh in the guest. -/
structure Table (α : Type) where
  /-- The floats or ints of an item. -/
  stride : Nat
  /-- The items. -/
  items : Nat
  /-- All of them. -/
  data : List α
  /-- Points, normals and triangles have three, texture coordinates two. -/
  stride_eq : stride = 2 ∨ stride = 3
  /-- Every item is there. -/
  length_eq : data.length = items * stride

/-- A mesh array as the host reads it. -/
def Table.read {α : Type} (table : Table α) : List α :=
  readSlices (guestSlice 4 table.data table.items table.stride) table.stride
    (windows sliceItems table.items) []

/-- `texture`: a texture's bytes as the host reads them. -/
def readTexture (texture : Bytes) : Bytes :=
  readSlices (guestSlice 1 texture texture.length 1) 1 (windows sliceBytes texture.length) []

/-! ### Opening -/

/-- Pushes only stage bytes. -/
theorem pushAll_opened (bytes : Bytes) (fault : Option Nat) (k : Nat) (later : List (Nat × Nat))
    (stage : Stage) : (pushAll bytes fault k later stage).1.opened = stage.opened := by
  induction later generalizing k stage with
  | nil => rfl
  | cons window later inductionHypothesis =>
    rw [pushAll]
    split
    · rfl
    · exact inductionHypothesis (k + 1) (stage.push (view bytes window))

/-- Pushes that all succeed stage the windows behind what is staged. -/
theorem pushAll_staged {bytes : Bytes} {fault : Option Nat} {k : Nat} {later : List (Nat × Nat)}
    {stage : Stage} (all : (pushAll bytes fault k later stage).2 = none) :
    (pushAll bytes fault k later stage).1.staged
      = stage.staged.map (· ++ later.flatMap (view bytes)) := by
  induction later generalizing k stage with
  | nil => simp [pushAll]
  | cons window later inductionHypothesis =>
    rw [pushAll] at all ⊢
    split
    · next failed =>
      rw [if_pos failed] at all
      cases all
    · next passed =>
      rw [if_neg passed] at all
      rw [inductionHypothesis all]
      simp [Stage.push, Function.comp_def]

/-- Without a fault all pushes succeed. -/
theorem pushAll_none (bytes : Bytes) (k : Nat) (later : List (Nat × Nat)) (stage : Stage) :
    (pushAll bytes none k later stage).2 = none := by
  induction later generalizing k stage with
  | nil => rfl
  | cons window later inductionHypothesis => exact inductionHypothesis _ _

/-- What a loaded guest is made to open: a package of one call as it is, a staged one behind what
was staged before. -/
theorem openLoaded_opened (stage : Stage) (staged bytes : Bytes) (fault : Option Nat)
    (loaded : stage.staged = some staged) :
    (openLoaded stage bytes fault).1.opened
      = if (openLoaded stage bytes fault).2 = .opened then
          stage.opened ++ [if bytes.length ≤ chunk then bytes else staged ++ bytes]
        else stage.opened := by
  unfold openLoaded
  by_cases small : bytes.length ≤ chunk
  · simp [small, Stage.open, loaded]
  · simp only [if_neg small]
    generalize counted_eq : ({ stage with docsOpened := stage.docsOpened + 1 } : Stage) = counted
    have counted_opened : counted.opened = stage.opened := by rw [← counted_eq]
    have counted_staged : counted.staged = some staged := by rw [← counted_eq, ← loaded]
    have kept := pushAll_opened bytes fault 0 (windows chunk bytes.length) counted
    rcases pushed : pushAll bytes fault 0 (windows chunk bytes.length) counted
      with ⟨later, place | place⟩
    · have whole := @pushAll_staged bytes fault 0 _ counted (by rw [pushed])
      rw [pushed, counted_staged, Option.map_some,
        flatMap_view_windows (by decide)] at whole
      rw [pushed, counted_opened] at kept
      dsimp only at whole kept
      simp [Stage.openStaged, whole, kept]
    · rw [pushed, counted_opened] at kept
      simpa using kept

/-- Without a fault a loaded guest is made to open something. -/
theorem openLoaded_answer (stage : Stage) (bytes : Bytes) :
    (openLoaded stage bytes none).2 = .opened := by
  unfold openLoaded
  split
  · rfl
  · generalize ({ stage with docsOpened := stage.docsOpened + 1 } : Stage) = counted
    dsimp only
    have passed := pushAll_none bytes 0 (windows chunk bytes.length) counted
    rcases pushed : pushAll bytes none 0 (windows chunk bytes.length) counted
      with ⟨later, place | place⟩
    · rfl
    · rw [pushed] at passed
      cases passed

/-- A package is opened as given exactly if nothing staged can get in front of it. -/
theorem opensAsGiven_iff (stage : Stage) (bytes : Bytes) :
    OpensAsGiven stage bytes ↔ NothingInFront stage bytes := by
  unfold OpensAsGiven NothingInFront
  cases loaded : stage.staged with
  | none =>
    have nothing : stage.leftover = [] := by simp [Stage.leftover, loaded]
    simp [openPackage, loaded, nothing]
  | some staged =>
    have leftover_eq : stage.leftover = staged := by simp [Stage.leftover, loaded]
    by_cases later : 0 < stage.docsOpened
    · simp only [later, true_or, iff_true]
      intro faults
      simp only [openPackage, loaded, Option.isNone_some, Bool.false_eq_true, if_false, if_pos later]
      split
      · simp
      · have opened := openLoaded_opened { stage with staged := some [] } [] bytes faults.push rfl
        simpa using opened
    · simp only [later, false_or]
      have first (faults : Faults) : openPackage stage bytes faults
          = openLoaded stage bytes faults.push := by
        simp [openPackage, loaded, later]
      have opened (fault : Option Nat) := openLoaded_opened stage staged bytes fault loaded
      constructor
      · intro given
        refine or_iff_not_imp_left.mpr fun large => ?_
        have same := given ⟨false, none⟩
        rw [first, opened, openLoaded_answer, if_pos rfl, if_pos rfl, if_neg large] at same
        simpa [leftover_eq] using same
      · intro clear faults
        rw [first, opened]
        rcases clear with small | nothing
        · rw [if_pos small]
        · rw [leftover_eq] at nothing
          simp [nothing]

/-! ### Slices -/

/-- A slice that is asked for inside the table is what the table has there. -/
theorem guestSlice_eq {α : Type} {bytes items stride : Nat} {data : List α} {window : Nat × Nat}
    (some_items : 0 < window.2) (inside : window.1 + window.2 ≤ items)
    (fits : window.2 * stride * bytes ≤ wholeLimit) :
    guestSlice bytes data items stride window.1 window.2
      = some (view data (window.1 * stride, window.2 * stride)) := by
  have wanted : ¬ (window.2 : Int) ≤ 0 := by omega
  have whole : ¬ items < (window.1 : Int).toNat + (window.2 : Int).toNat := by omega
  simp only [guestSlice]
  rw [if_neg (by omega), if_neg wanted, if_neg whole, Int.toNat_natCast, Int.toNat_natCast,
    if_neg (by omega), view]

/-- Reading slices that are all as asked puts the table's windows together. -/
theorem readSlices_eq {α : Type} {bytes items stride size : Nat} {data : List α}
    (length_eq : data.length = items * stride) (fits : size * stride * bytes ≤ wholeLimit)
    (asked : List (Nat × Nat)) (out : List α)
    (each : ∀ window ∈ asked, 0 < window.2 ∧ window.2 ≤ size ∧ window.1 + window.2 ≤ items) :
    readSlices (guestSlice bytes data items stride) stride asked out
      = out ++ asked.flatMap fun window => view data (window.1 * stride, window.2 * stride) := by
  induction asked generalizing out with
  | nil => simp [readSlices]
  | cons window later inductionHypothesis =>
    obtain ⟨some_items, small, inside⟩ := each window (by simp)
    have window_fits : window.2 * stride * bytes ≤ wholeLimit :=
      Nat.le_trans (Nat.mul_le_mul_right bytes (Nat.mul_le_mul_right stride small)) fits
    have long : window.1 * stride + window.2 * stride ≤ data.length := by
      rw [length_eq, ← Nat.add_mul]
      exact Nat.mul_le_mul_right stride inside
    rw [readSlices, guestSlice_eq some_items inside window_fits]
    dsimp only
    rw [if_neg (not_not.mpr (length_view long)),
      inductionHypothesis _ fun other member => each other (by simp [member])]
    simp

/-- The slices of a mesh array make up the array. -/
theorem Table.read_eq {α : Type} (table : Table α) : table.read = table.data := by
  have fits : sliceItems * table.stride * 4 ≤ wholeLimit := by
    rcases table.stride_eq with two | three
    · rw [two]
      decide
    · rw [three]
      decide
  rw [Table.read, readSlices_eq table.length_eq fits _ _ fun _ => of_mem_windows,
    flatMap_windows (by decide) table.length_eq, List.nil_append]

/-- The slices of a texture make up the texture. -/
theorem readTexture_eq (texture : Bytes) : readTexture texture = texture := by
  have length_eq : texture.length = texture.length * 1 := by omega
  rw [readTexture, readSlices_eq length_eq (by decide : sliceBytes * 1 * 1 ≤ wholeLimit) _ _
    fun _ => of_mem_windows, flatMap_windows (by decide) length_eq, List.nil_append]

/-- After any calls a package is opened as given, and arrays are read whole, exactly if nothing
staged can get in front of the package. -/
theorem package_whole_iff {α : Type} (calls : List Call) (bytes texture : Bytes)
    (table : Table α) :
    (OpensAsGiven (after calls) bytes ∧ table.read = table.data ∧ readTexture texture = texture)
      ↔ NothingInFront (after calls) bytes := by
  rw [opensAsGiven_iff, table.read_eq, readTexture_eq]
  simp

/-- A byte pushed by itself gets in front of the first package, if that is large. -/
theorem opened_after_push (bytes : Bytes) (large : ¬ bytes.length ≤ chunk) :
    (openPackage (after [.push [1]]) bytes ⟨false, none⟩).1.opened = [1 :: bytes] := by
  have first : openPackage (after [.push [1]]) bytes ⟨false, none⟩
      = openLoaded (after [.push [1]]) bytes none := rfl
  have opened := openLoaded_opened (after [.push [1]]) [1] bytes none rfl
  rw [openLoaded_answer, if_pos rfl, if_neg large] at opened
  rw [first, opened]
  rfl

/-- After a push of one byte, `usd_open_staged` of a package of `CHUNK + 1` zeros opens that byte as
well. -/
theorem pushed_in_front :
    ¬ OpensAsGiven (after [.push [1]]) (List.replicate (chunk + 1) 0) ∧
      (openPackage (after [.push [1]]) (List.replicate (chunk + 1) 0) ⟨false, none⟩).1.opened
        = [1 :: List.replicate (chunk + 1) 0] := by
  have large : ¬ (List.replicate (chunk + 1) (0 : UInt8)).length ≤ chunk := by
    rw [List.length_replicate]
    omega
  refine ⟨?_, opened_after_push _ large⟩
  rw [opensAsGiven_iff, NothingInFront]
  rintro (later | small | nothing)
  · exact absurd later (by decide)
  · exact large small
  · exact absurd nothing (by decide)

end DressOn.Usd.Packages
