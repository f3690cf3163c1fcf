import DressOn.Common.MeshWire

/-!
# The host's reader of boundary loops

How `mesh_wire.gd` reads the buffer of boundary loops, and on which buffers it and the guest's
decoder agree.
-/

namespace DressOn.HostWire

open DressOn.MeshWire

/-- An element of a packed array by a script's index: a negative one counts from the end, and one
outside the array is a script error. -/
def element (array : List Int32) (index : Int) : Option Int32 :=
  let place := if index < 0 then index + array.length else index
  if place < 0 then none else array[place.toNat]?

/-- The place that `slice` makes of one of its bounds. -/
def slicePlace (size : Nat) (bound : Int) : Nat :=
  let clamped : Int := max (-(size : Int)) (min bound size)
  (if clamped < 0 then clamped + size else clamped).toNat

/-- A packed array's `slice`. Bounds that cross give an empty array. -/
def slice (array : List Int32) (start stop : Int) : List Int32 :=
  (array.drop (slicePlace array.length start)).take
    (slicePlace array.length stop - slicePlace array.length start)

/-- The body of `loops` with `left` rounds to go, `position` being its `at`. Nothing is answered
where the script stops with an error. -/
def loopsFrom (buffer : List Int32) : Nat → Int → List Loop → Option (List Loop)
  | 0, position, out => some (if position = buffer.length then out else [])
  | left + 1, position, out =>
    if buffer.length ≤ position then some []
    else
      match element buffer position with
      | none => none
      | some length =>
        if buffer.length < position + 1 + length.toInt then some []
        else
          loopsFrom buffer left (position + 1 + length.toInt)
            (out ++ [slice buffer (position + 1) (position + 1 + length.toInt)])

/-- `loops`: the loops of a buffer, and no loop for a malformed one. -/
def loops (buffer : List Int32) : Option (List Loop) :=
  match buffer with
  | [] => some []
  -- `for k in p[0]` makes no round for a negative count
  | count :: _ => loopsFrom buffer count.toInt.toNat 1 []

/-- What the host answers where it reads as the guest does: the decoded loops, and none for a
buffer that is refused. -/
def verdict (decoded : Bool × List Loop) : List Loop := if decoded.1 then decoded.2 else []

/-- Host and guest read one buffer alike. -/
def ReadAlike (buffer : List Int32) : Prop := loops buffer = some (verdict (decodeLoops buffer))

/-- The buffer has a frame of the given length at a position, one that does not run past its
end. -/
structure FrameAt (buffer : List Int32) (position : Int) (length : Int32) : Prop where
  /-- The position is not past the end. -/
  inside : position < buffer.length
  /-- The word there is the length. -/
  word : element buffer position = some length
  /-- The frame ends inside the buffer. -/
  ends : position + 1 + length.toInt ≤ buffer.length

/-- The frames from a position on, each starting where the one before it ends, are as many as
wanted and end with the buffer, or they leave the buffer at its front. -/
inductive Closes (buffer : List Int32) : Nat → Int → Prop where
  | ended : Closes buffer 0 buffer.length
  | beforeFront (left : Nat) (position : Int) (outside : position < -buffer.length) :
      Closes buffer (left + 1) position
  | frame (left : Nat) (position : Int) (length : Int32) (framed : FrameAt buffer position length)
      (rest : Closes buffer left (position + 1 + length.toInt)) : Closes buffer (left + 1) position

/-- One of the frames from a position on has a negative length, and the frames behind it close all
the same. -/
inductive TurnsBack (buffer : List Int32) : Nat → Int → Prop where
  | here (left : Nat) (position : Int) (length : Int32) (framed : FrameAt buffer position length)
      (negative : length.toInt < 0) (rest : Closes buffer left (position + 1 + length.toInt)) :
      TurnsBack buffer (left + 1) position
  | later (left : Nat) (position : Int) (length : Int32) (framed : FrameAt buffer position length)
      (nonnegative : 0 ≤ length.toInt)
      (rest : TurnsBack buffer left (position + 1 + length.toInt)) :
      TurnsBack buffer (left + 1) position

/-- The frames that the buffer's count announces turn back. -/
def TurnsBackSomewhere (buffer : List Int32) : Prop :=
  ∃ count : Int32, buffer.head? = some count ∧ TurnsBack buffer count.toInt.toNat 1

/-- An index that counts from the front reads the word there. -/
theorem element_natCast (buffer : List Int32) (position : Nat) :
    element buffer position = buffer[position]? := by
  have front : ¬ (position : Int) < 0 := by omega
  simp [element, front]

/-- An index inside the buffer, counted from either end, has a word. -/
theorem exists_element {buffer : List Int32} {position : Int} (front : -buffer.length ≤ position)
    (inside : position < buffer.length) : ∃ word, element buffer position = some word := by
  simp only [element]
  split
  · next negative =>
    rw [if_neg (by omega)]
    exact ⟨_, List.getElem?_eq_getElem (by omega)⟩
  · exact ⟨_, List.getElem?_eq_getElem (by omega)⟩

/-- An index in front of the buffer has none. -/
theorem element_of_outside {buffer : List Int32} {position : Int}
    (outside : position < -buffer.length) : element buffer position = none := by
  simp only [element]
  rw [if_pos (by omega)]

/-- A word is read inside the buffer, counted from either end. -/
theorem front_of_element {buffer : List Int32} {position : Int} {word : Int32}
    (read : element buffer position = some word) : ¬ position < -buffer.length := by
  intro outside
  rw [element_of_outside outside] at read
  cases read

/-- The slice of a frame that lies inside the buffer. -/
theorem slice_natCast {buffer : List Int32} {start size : Nat}
    (inside : start + size ≤ buffer.length) :
    slice buffer start (start + size : Nat) = (buffer.drop start).take size := by
  have place {bound : Nat} (le : bound ≤ buffer.length) :
      slicePlace buffer.length bound = bound := by
    simp only [slicePlace]
    split <;> omega
  rw [slice, @place start (by omega), place inside, Nat.add_sub_cancel_left]

/-- One round of the host's loop at a frame. -/
theorem loopsFrom_of_frame {buffer : List Int32} {left : Nat} {position : Int} {length : Int32}
    {out : List Loop} (framed : FrameAt buffer position length) :
    loopsFrom buffer (left + 1) position out
      = loopsFrom buffer left (position + 1 + length.toInt)
        (out ++ [slice buffer (position + 1) (position + 1 + length.toInt)]) := by
  have inside := framed.inside
  have ends := framed.ends
  simp only [loopsFrom, framed.word]
  rw [if_neg (by omega), if_neg (by omega)]

/-- One round of the host's loop where there is no frame: a script error in front of the buffer,
a refusal everywhere else. -/
theorem loopsFrom_of_no_frame {buffer : List Int32} {left : Nat} {position : Int}
    {out : List Loop} (none_framed : ∀ length, ¬ FrameAt buffer position length) :
    loopsFrom buffer (left + 1) position out
      = if position < -buffer.length then none else some [] := by
  simp only [loopsFrom]
  by_cases past : (buffer.length : Int) ≤ position
  · rw [if_pos past, if_neg (by omega)]
  · rw [if_neg past]
    by_cases front : position < -buffer.length
    · rw [element_of_outside front, if_pos front]
    · obtain ⟨word, read⟩ := exists_element (by omega) (Int.lt_of_not_ge past)
      have runs_past : (buffer.length : Int) < position + 1 + word.toInt := by
        refine Int.lt_of_not_ge fun ends => none_framed word ⟨by omega, read, ends⟩
      simp only [read]
      rw [if_pos runs_past, if_neg front]

/-- The frame at a position is the only one. -/
theorem FrameAt.unique {buffer : List Int32} {position : Int} {one other : Int32}
    (first : FrameAt buffer position one) (second : FrameAt buffer position other) :
    one = other := by
  have same := first.word.symm.trans second.word
  cases same
  rfl

/-- With a loop already read, the host's loop refuses exactly where the frames do not close. -/
theorem loopsFrom_refuses_iff {buffer : List Int32} {left : Nat} {position : Int}
    {out : List Loop} (some_read : out ≠ []) :
    loopsFrom buffer left position out = some [] ↔ ¬ Closes buffer left position := by
  induction left generalizing position out with
  | zero =>
    by_cases ended : position = buffer.length
    · subst ended
      simp [loopsFrom, some_read, Closes.ended]
    · simp only [loopsFrom, if_neg ended, true_iff]
      rintro ⟨⟩
      exact ended rfl
  | succ left inductionHypothesis =>
    by_cases framed : ∃ length, FrameAt buffer position length
    · obtain ⟨length, framed⟩ := framed
      rw [loopsFrom_of_frame framed, inductionHypothesis (by simp), not_iff_not]
      constructor
      · exact Closes.frame left position length framed
      · intro closes
        cases closes with
        | beforeFront _ _ outside => exact absurd outside (front_of_element framed.word)
        | frame _ _ other framed_so rest => rwa [framed.unique framed_so]
    · have none_framed : ∀ length, ¬ FrameAt buffer position length :=
        fun length framed_so => framed ⟨length, framed_so⟩
      rw [loopsFrom_of_no_frame none_framed]
      by_cases front : position < -buffer.length
      · simp [if_pos front, Closes.beforeFront left position front]
      · rw [if_neg front]
        simp only [true_iff]
        intro closes
        cases closes with
        | beforeFront _ _ outside => exact front outside
        | frame _ _ length framed_so _ => exact none_framed length framed_so

/-- One round of the guest's decoder where it stands at a frame, as the host sees frames. -/
theorem decodeFrom_of_frame {buffer : List Int32} {left position : Nat} {length : Int32}
    {read : List Loop} (framed : FrameAt buffer position length) :
    decodeFrom buffer (left + 1) position read
      = if length.toInt < 0 then (false, read)
        else decodeFrom buffer left (position + 1 + length.toInt.toNat)
          (read ++ [(buffer.drop (position + 1)).take length.toInt.toNat]) := by
  have word := framed.word
  have ends := framed.ends
  rw [element_natCast] at word
  simp only [decodeFrom, word, neg_iff]
  by_cases negative : length.toInt < 0
  · rw [if_pos (Or.inl negative), if_pos negative]
  · rw [if_neg (by omega), if_neg negative]

/-- One round of the guest's decoder where there is no frame. -/
theorem decodeFrom_of_no_frame {buffer : List Int32} {left position : Nat} {read : List Loop}
    (none_framed : ∀ length, ¬ FrameAt buffer position length) :
    (decodeFrom buffer (left + 1) position read).1 = false := by
  cases at_position : buffer[position]? with
  | none => simp [decodeFrom, at_position]
  | some word =>
    obtain ⟨bound, -⟩ := List.getElem?_eq_some_iff.mp at_position
    have runs_past : ¬ (position : Int) + 1 + word.toInt ≤ buffer.length := fun ends =>
      none_framed word ⟨by omega, by rw [element_natCast, at_position], ends⟩
    simp only [decodeFrom, at_position, neg_iff]
    rw [if_pos (by omega)]

/-- From one position with the same loops read, host and guest agree exactly where the frames do
not turn back. -/
theorem loopsFrom_eq_iff {buffer : List Int32} {left position : Nat} {read : List Loop} :
    loopsFrom buffer left position read = some (verdict (decodeFrom buffer left position read))
      ↔ ¬ TurnsBack buffer left position := by
  induction left generalizing position read with
  | zero =>
    have stays : ¬ TurnsBack buffer 0 position := nofun
    simp [loopsFrom, decodeFrom, verdict, stays, Int.natCast_inj]
  | succ left inductionHypothesis =>
    by_cases framed : ∃ length, FrameAt buffer position length
    · obtain ⟨length, framed⟩ := framed
      rw [loopsFrom_of_frame framed, decodeFrom_of_frame framed]
      by_cases negative : length.toInt < 0
      · rw [if_pos negative, verdict, if_neg (by simp), loopsFrom_refuses_iff (by simp),
          not_iff_not]
        constructor
        · exact TurnsBack.here left position length framed negative
        · intro turns
          cases turns with
          | here _ _ other framed_so _ rest => rwa [framed.unique framed_so]
          | later _ _ other framed_so nonnegative _ =>
            rw [framed.unique framed_so] at negative
            omega
      · -- the cast of the guest's next position is the host's
        have next : (position : Int) + 1 + length.toInt
            = ((position + 1 + length.toInt.toNat : Nat) : Int) := by omega
        have ends := framed.ends
        have sliced := @slice_natCast buffer (position + 1) length.toInt.toNat (by omega)
        rw [if_neg negative, next, ← Int.natCast_succ, sliced, inductionHypothesis, not_iff_not,
          ← next]
        constructor
        · exact TurnsBack.later left position length framed (by omega)
        · intro turns
          cases turns with
          | here _ _ other framed_so negative_so _ =>
            rw [← framed.unique framed_so] at negative_so
            omega
          | later _ _ other framed_so _ rest => rwa [framed.unique framed_so]
    · have none_framed : ∀ length, ¬ FrameAt buffer position length :=
        fun length framed_so => framed ⟨length, framed_so⟩
      rw [loopsFrom_of_no_frame none_framed, verdict, decodeFrom_of_no_frame none_framed,
        if_neg (by omega)]
      simp only [Bool.false_eq_true, if_false, true_iff]
      intro turns
      cases turns with
      | here _ _ length framed_so _ _ => exact none_framed length framed_so
      | later _ _ length framed_so _ _ => exact none_framed length framed_so

/-- Host and guest read a buffer alike exactly when its frames do not turn back. -/
theorem readAlike_iff (buffer : List Int32) : ReadAlike buffer ↔ ¬ TurnsBackSomewhere buffer := by
  cases buffer with
  | nil => simp [ReadAlike, loops, decodeLoops, verdict, TurnsBackSomewhere]
  | cons count body =>
    have from_one := @loopsFrom_eq_iff (count :: body) count.toInt.toNat 1 []
    simpa [ReadAlike, loops, decodeLoops, TurnsBackSomewhere] using from_one

/-- The host takes `[2, -2, 0]` as two loops, an empty one and the buffer's own tail; the guest
refuses it. -/
theorem turned_back_accepted :
    loops [2, -2, 0] = some [[], [-2, 0]] ∧ (decodeLoops [2, -2, 0]).1 = false ∧
      ¬ ReadAlike [2, -2, 0] := by
  refine ⟨by decide, by decide, ?_⟩
  unfold ReadAlike
  decide

end DressOn.HostWire
