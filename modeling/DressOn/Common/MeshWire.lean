import Mathlib.Data.List.TakeDrop
import Mathlib.Algebra.GroupWithZero.Nat

/-!
# Boundary loops on the wire

How `mesh_wire.h` packs boundary loops into one buffer of 32-bit words, and which buffers its
decoder takes back.
-/

namespace DressOn.MeshWire

/-- One boundary loop: vertex indices in walking order. -/
abbrev Loop := List Int32

/-- A loop as the buffer holds it, behind the `int32_t` cast of its size. -/
def frame (loop : Loop) : List Int32 := Int32.ofNat loop.length :: loop

/-- `encode_loops`: the number of loops, then every loop behind its size. -/
def encodeLoops (loops : List Loop) : List Int32 :=
  Int32.ofNat loops.length :: loops.flatMap frame

/-- The body of `decode_loops` with `left` rounds of its loop to go, reading at `position`. What is
decoded before a refusal stays in the caller's vector. -/
def decodeFrom (input : List Int32) : Nat → Nat → List Loop → Bool × List Loop
  | 0, position, loops => (position == input.length, loops)
  | left + 1, position, loops =>
    match input[position]? with
    | none => (false, loops)
    | some size =>
      if size < 0 ∨ input.length < position + 1 + size.toInt.toNat then (false, loops)
      else
        decodeFrom input left (position + 1 + size.toInt.toNat)
          (loops ++ [(input.drop (position + 1)).take size.toInt.toNat])

/-- `decode_loops`: the returned flag and the vector it leaves. -/
def decodeLoops (input : List Int32) : Bool × List Loop :=
  match input with
  | [] => (false, [])
  -- a negative count makes `k < in[0]` false at once
  | count :: _ => decodeFrom input count.toInt.toNat 1 []

/-- A size that survives the cast to `int32_t`. -/
def Fits (size : Nat) : Prop := size < 2 ^ 31

/-- Every count that the encoding writes survives its cast. -/
def CountsFit (loops : List Loop) : Prop :=
  Fits loops.length ∧ ∀ loop ∈ loops, Fits loop.length

/-- A cast size reads back as the size when it fits. -/
theorem toInt_ofNat_of_fits {size : Nat} (fits : Fits size) :
    (Int32.ofNat size).toInt = size :=
  Int32.toInt_ofNat_of_lt fits

/-- A word that is not negative is the cast of a size that fits. -/
theorem ofNat_toInt {word : Int32} (nonnegative : 0 ≤ word.toInt) :
    Int32.ofNat word.toInt.toNat = word ∧ Fits word.toInt.toNat := by
  have below : word.toInt < 2 ^ 31 := word.toInt_lt
  have fits : Fits word.toInt.toNat := by
    unfold Fits
    omega
  refine ⟨?_, fits⟩
  apply Int32.toInt.inj
  rw [toInt_ofNat_of_fits fits]
  omega

/-- The negativity test of a size. -/
theorem neg_iff (word : Int32) : word < 0 ↔ word.toInt < 0 := by
  rw [Int32.lt_iff_toInt_lt]
  rfl

/-- The decoding loop succeeds exactly on the frames of the loops it returns, each of a size that
fits. -/
theorem decodeFrom_iff {input : List Int32} {left position : Nat} {loops result : List Loop}
    (inside : position ≤ input.length) :
    decodeFrom input left position loops = (true, result) ↔
      ∃ read : List Loop, result = loops ++ read ∧ read.length = left ∧
        (∀ loop ∈ read, Fits loop.length) ∧ input.drop position = read.flatMap frame := by
  induction left generalizing position loops with
  | zero =>
    simp only [decodeFrom, Prod.mk.injEq, beq_iff_eq]
    constructor
    · rintro ⟨ended, rfl⟩
      exact ⟨[], by simp, rfl, by simp, by simp [ended]⟩
    · rintro ⟨read, rfl, none_left, -, rest⟩
      obtain rfl : read = [] := List.length_eq_zero_iff.mp none_left
      simp only [List.flatMap_nil, List.drop_eq_nil_iff] at rest
      exact ⟨by omega, by simp⟩
  | succ left inductionHypothesis =>
    cases at_position : input[position]? with
    | none =>
      have ended : input.drop position = [] := by
        simpa using at_position
      simp only [decodeFrom, at_position, ended]
      constructor
      · simp
      · rintro ⟨read, -, some_left, -, rest⟩
        cases read with
        | nil => simp at some_left
        | cons loop read => simp [frame] at rest
    | some size =>
      obtain ⟨bound, get⟩ := List.getElem?_eq_some_iff.mp at_position
      have unfolded : input.drop position = size :: input.drop (position + 1) := by
        rw [List.drop_eq_getElem_cons bound, get]
      simp only [decodeFrom, at_position, neg_iff]
      split
      next refused =>
        constructor
        · simp
        · rintro ⟨read, -, some_left, fit, rest⟩
          cases read with
          | nil => simp at some_left
          | cons loop read =>
            -- the first frame would have to be the refused one
            rw [unfolded] at rest
            simp only [List.flatMap_cons, frame, List.cons_append, List.cons.injEq] at rest
            obtain ⟨size_eq, rest⟩ := rest
            have size_value : size.toInt = loop.length := by
              rw [size_eq, toInt_ofNat_of_fits (fit loop (by simp))]
            have lengths := congrArg List.length rest
            simp only [List.length_drop, List.length_append] at lengths
            omega
      next accepted =>
        have size_value := @ofNat_toInt size (by omega)
        have body : ((input.drop (position + 1)).take size.toInt.toNat).length
            = size.toInt.toNat := by
          simp only [List.length_take, List.length_drop]
          omega
        have after : input.drop (position + 1)
            = (input.drop (position + 1)).take size.toInt.toNat
              ++ input.drop (position + 1 + size.toInt.toNat) := by
          rw [← List.drop_drop (i := size.toInt.toNat), List.take_append_drop]
        rw [inductionHypothesis (by omega), unfolded]
        constructor
        · rintro ⟨read, rfl, rfl, fit, rest⟩
          refine ⟨(input.drop (position + 1)).take size.toInt.toNat :: read, by simp, by simp,
            ?_, ?_⟩
          · intro loop member
            rcases List.mem_cons.mp member with rfl | member
            · rw [body]
              exact size_value.2
            · exact fit loop member
          · rw [List.flatMap_cons, frame, body, size_value.1, ← rest, List.cons_append, ← after]
        · rintro ⟨read, rfl, some_left, fit, rest⟩
          cases read with
          | nil => simp at some_left
          | cons loop read =>
            simp only [List.flatMap_cons, frame, List.cons_append, List.cons.injEq] at rest
            obtain ⟨size_eq, rest⟩ := rest
            have length_eq : size.toInt.toNat = loop.length := by
              rw [size_eq, toInt_ofNat_of_fits (fit loop (by simp))]
              simp
            have loop_eq : (input.drop (position + 1)).take size.toInt.toNat = loop := by
              rw [rest, length_eq, List.take_left]
            refine ⟨read, by rw [loop_eq, List.append_assoc]; rfl, by simpa using some_left,
              fun other member => fit other (by simp [member]), ?_⟩
            rw [← List.drop_drop, rest, length_eq, List.drop_left]

/-- A buffer of one negative word. Its count starts no round, so the decoder takes it as an empty
list of loops. -/
def LoneNegativeCount (input : List Int32) : Prop := ∃ count : Int32, count < 0 ∧ input = [count]

/-- No list of loops whose counts the casts cut off encodes to the buffer. -/
def NoCutCounts (input : List Int32) : Prop :=
  ∀ loops : List Loop, encodeLoops loops = input → CountsFit loops

/-- The decoder succeeds exactly on encoded lists with counts that fit, and on a lone negative
count. -/
theorem decodeLoops_iff {input : List Int32} {loops : List Loop} :
    decodeLoops input = (true, loops) ↔
      (CountsFit loops ∧ encodeLoops loops = input) ∨ (LoneNegativeCount input ∧ loops = []) := by
  cases input with
  | nil => simp [decodeLoops, encodeLoops, LoneNegativeCount]
  | cons count body =>
    rw [decodeLoops, decodeFrom_iff (by simp)]
    simp only [List.nil_append, exists_eq_left', List.drop_succ_cons, List.drop_zero,
      encodeLoops, List.cons.injEq, LoneNegativeCount, neg_iff]
    constructor
    · rintro ⟨counted, fit, rfl⟩
      by_cases negative : count.toInt < 0
      · obtain rfl : loops = [] := List.length_eq_zero_iff.mp (by omega)
        exact Or.inr ⟨⟨count, negative, rfl, rfl⟩, rfl⟩
      · have value := @ofNat_toInt count (by omega)
        rw [counted]
        exact Or.inl ⟨⟨counted ▸ value.2, fit⟩, value.1, rfl⟩
    · rintro (⟨⟨fits, fit⟩, rfl, rfl⟩ | ⟨⟨_, negative, rfl, rfl⟩, rfl⟩)
      · exact ⟨by rw [toInt_ofNat_of_fits fits, Int.toNat_natCast], fit, rfl⟩
      · exact ⟨by simp only [List.length_nil]; omega, by simp, rfl⟩

/-- An encoding of at most `2^31` words has no cut count. -/
theorem noCutCounts_of_length_le {input : List Int32} (short : input.length ≤ 2 ^ 31) :
    NoCutCounts input := by
  rintro loops rfl
  have frames : ∀ loops : List Loop, loops.length ≤ (loops.flatMap frame).length ∧
      ∀ loop ∈ loops, loop.length < (loops.flatMap frame).length := by
    intro loops
    induction loops with
    | nil => simp
    | cons head tail inductionHypothesis =>
      obtain ⟨many, long⟩ := inductionHypothesis
      simp only [List.flatMap_cons, List.length_append, List.length_cons, frame]
      refine ⟨by omega, fun loop member => ?_⟩
      rcases List.mem_cons.mp member with rfl | member
      · omega
      · have := long loop member
        omega
  obtain ⟨many, long⟩ := frames loops
  simp only [encodeLoops, List.length_cons] at short
  refine ⟨by unfold Fits; omega, fun loop member => ?_⟩
  have := long loop member
  unfold Fits
  omega

/-- The decoder's contract on one buffer: it succeeds exactly on the encodings, and returns the
list that was encoded. -/
def AcceptsImage (input : List Int32) : Prop :=
  ((decodeLoops input).1 = true ↔ ∃ loops, encodeLoops loops = input) ∧
    ∀ loops, encodeLoops loops = input → decodeLoops input = (true, loops)

/-- The contract of the decoder holds of a buffer exactly when the buffer is no lone negative count
and encodes no list with a cut count; a list comes back from its encoding exactly when its counts
fit. -/
theorem acceptsImage_iff (input : List Int32) (loops : List Loop) :
    (AcceptsImage input ↔ ¬ LoneNegativeCount input ∧ NoCutCounts input) ∧
      (decodeLoops (encodeLoops loops) = (true, loops) ↔ CountsFit loops) := by
  have encoded_not_lone (loops : List Loop) : ¬ LoneNegativeCount (encodeLoops loops) := by
    rintro ⟨count, negative, equal⟩
    cases loops with
    | nil =>
      obtain rfl : count = 0 := by simpa [encodeLoops] using equal.symm
      simp at negative
    | cons loop loops => simp [encodeLoops, frame] at equal
  refine ⟨⟨fun contract => ⟨?_, ?_⟩, ?_⟩, ?_⟩
  · intro lone
    have succeeds := decodeLoops_iff.mpr (Or.inr ⟨lone, rfl⟩)
    obtain ⟨loops, rfl⟩ := contract.1.mp (by rw [succeeds])
    exact encoded_not_lone loops lone
  · rintro loops rfl
    rcases decodeLoops_iff.mp (contract.2 loops rfl) with ⟨fit, -⟩ | ⟨lone, -⟩
    · exact fit
    · exact absurd lone (encoded_not_lone loops)
  · rintro ⟨not_lone, fits⟩
    refine ⟨⟨fun succeeds => ?_, ?_⟩, fun loops encoded =>
      decodeLoops_iff.mpr (Or.inl ⟨fits loops encoded, encoded⟩)⟩
    · have decoded : decodeLoops input = (true, (decodeLoops input).2) := by rw [← succeeds]
      rcases decodeLoops_iff.mp decoded with ⟨-, encoded⟩ | ⟨lone, -⟩
      · exact ⟨_, encoded⟩
      · exact absurd lone not_lone
    · rintro ⟨loops, encoded⟩
      rw [decodeLoops_iff.mpr (Or.inl ⟨fits loops encoded, encoded⟩)]
  · rw [decodeLoops_iff]
    simp [encoded_not_lone loops]

/-- The decoder takes the buffer `[-1]`, which encodes nothing. -/
theorem lone_count_accepted : ¬ AcceptsImage [-1] := by
  rintro ⟨succeeds, -⟩
  obtain ⟨loops, encoded⟩ := succeeds.mp (by decide)
  cases loops with
  | nil => exact absurd encoded (by decide)
  | cons loop loops => simp [encodeLoops, frame] at encoded

end DressOn.MeshWire
