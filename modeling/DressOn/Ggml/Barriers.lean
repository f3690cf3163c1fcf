import Mathlib.Data.List.Induction
import Mathlib.Tactic.IntervalCases
import DressOn.Ggml.Graph

/-!
# Barrier elision keeps every conflict ordered

The recording loop compares a dispatch with the ranges accumulated since the
last barrier only. `Recorded` states why that is enough: every earlier dispatch
is either behind a recorded barrier, or its ranges are still in the segment.
-/

namespace DressOn.Ggml

open Schedule

/-- The 4-byte words of a buffer that a tensor's bytes fall in. -/
def Tensor.words (t : Tensor) : Set (Int × Nat) :=
  {cell | cell.1 = t.rid ∧
    ∃ byte, t.offset ≤ byte ∧ byte < t.offset + t.nbytes ∧ byte / 4 = cell.2}

/-- The words a dispatch reads. -/
def Dispatch.readWords (dp : Dispatch) : Set (Int × Nat) :=
  {cell | ∃ t ∈ dp.node.srcs, cell ∈ t.words}

/-- The words a dispatch writes. -/
def Dispatch.writeWords (dp : Dispatch) : Set (Int × Nat) := dp.node.dst.words

/-- One of two dispatches writes a word the other reads or writes. -/
def Conflict (first second : Dispatch) : Prop :=
  (∃ cell ∈ first.writeWords, cell ∈ second.readWords ∪ second.writeWords) ∨
    ∃ cell ∈ second.writeWords, cell ∈ first.readWords ∪ first.writeWords

/-- Dispatch `i` is recorded, then a barrier, then dispatch `j`. -/
def BarrierBetween (commands : List Command) (i j : Nat) : Prop :=
  ∃ gi gj, [Command.dispatch i gi, .barrier, .dispatch j gj].Sublist commands

/-- An execution order that keeps what the recorded barriers order. -/
def Respects (commands : List Command) (order : List Nat) : Prop :=
  ∀ i j, BarrierBetween commands i j → Before order i j

/-- Widened ranges meet wherever two tensors share a word. -/
theorem overlaps_of_mem_words {t s : Tensor} {cell : Int × Nat} {segment : List Range}
    (touched : cell ∈ t.words) (shared : cell ∈ s.words) (listed : rangeOf t ∈ segment) :
    overlaps segment (rangeOf s) = true := by
  obtain ⟨tRid, tByte, tLow, tHigh, tWord⟩ := touched
  obtain ⟨sRid, sByte, sLow, sHigh, sWord⟩ := shared
  refine List.any_eq_true.mpr ⟨rangeOf t, listed, ?_⟩
  have sameBuffer : t.rid = s.rid := tRid.symm.trans sRid
  have below : t.offset / 4 * 4 < (s.offset + s.nbytes + 3) / 4 * 4 := by omega
  have above : s.offset / 4 * 4 < (t.offset + t.nbytes + 3) / 4 * 4 := by omega
  simp [rangeOf, sameBuffer, below, above]

/-- A dispatch's ranges are in the current segment. -/
def InSegment (st : Recording) (dp : Dispatch) : Prop :=
  dp.reads ⊆ st.segReads ∧ dp.write ∈ st.segWrites

/-- A conflict with a dispatch of the current segment is a hazard. -/
theorem hazard_of_conflict {knobs : Knobs} {st : Recording} {first second : Dispatch} {j : Nat}
    (listed : InSegment st first) (conflict : Conflict first second) :
    hazard knobs st j second = true := by
  obtain ⟨reads, write⟩ := listed
  rw [first.write_eq] at write
  rw [first.reads_eq] at reads
  have writeSeg : second.write = rangeOf second.node.dst := second.write_eq
  have readSeg : second.reads = second.node.srcs.map rangeOf := second.reads_eq
  simp only [hazard, Bool.or_eq_true]
  rcases conflict with ⟨cell, written, read | rewritten⟩ | ⟨cell, written, read | rewritten⟩
  · -- read after write
    obtain ⟨t, operand, inT⟩ := read
    refine Or.inl (Or.inr (List.any_eq_true.mpr ⟨rangeOf t, ?_, ?_⟩))
    · rw [readSeg]
      exact List.mem_map_of_mem operand
    · exact overlaps_of_mem_words written inT write
  · -- write after write
    refine Or.inr (Or.inl ?_)
    rw [writeSeg]
    exact overlaps_of_mem_words written rewritten write
  · -- write after read
    obtain ⟨t, operand, inT⟩ := read
    refine Or.inr (Or.inr ?_)
    rw [writeSeg]
    exact overlaps_of_mem_words inT written (reads (List.mem_map_of_mem operand))
  · refine Or.inr (Or.inl ?_)
    rw [writeSeg]
    exact overlaps_of_mem_words rewritten written write

/-- With no barrier dropped, every hazard gets its barrier. -/
theorem placeBarrier_commands {knobs : Knobs} (unset : knobs.dropBarrier ≤ 0) (st : Recording)
    (i : Nat) (dp : Dispatch) :
    (placeBarrier knobs st i dp).commands = st.commands ++ [.barrier] := by
  have kept : ¬ (0 < knobs.dropBarrier ∧ ((st.placed + 1 : Nat) : Int) = knobs.dropBarrier ∧
      knobs.barrierAll = false) := fun dropped => absurd dropped.1 (by omega)
  simp only [placeBarrier, if_neg kept]

/-- A turn of the loop appends to the list and ends with its own dispatch. -/
theorem emit_commands (st : Recording) (i : Nat) (dp : Dispatch) :
    ∃ bindings, (emit st i dp).commands = st.commands ++ bindings ++ [.dispatch i dp.groups] := by
  refine ⟨(if dp.kernel ≠ st.boundKernel then [.bindPipeline dp.kernel] else []) ++
    (if dp.set0 ≠ st.boundSet0 then [.bindTensors dp.set0] else []) ++ [.bindSlot i], ?_⟩
  simp only [emit, List.append_assoc, List.cons_append, List.nil_append]

/-- Emitting keeps what is in the segment and adds the dispatch. -/
theorem inSegment_emit (st : Recording) (i : Nat) (dp : Dispatch) :
    InSegment (emit st i dp) dp :=
  ⟨List.subset_append_right _ _, List.mem_append_right _ (List.mem_singleton_self _)⟩

theorem InSegment.emit {st : Recording} {earlier : Dispatch} (listed : InSegment st earlier)
    (i : Nat) (dp : Dispatch) : InSegment (emit st i dp) earlier :=
  ⟨fun _ member => List.mem_append_left _ (listed.1 member),
    List.mem_append_left _ listed.2⟩

/-- Everything recorded so far is behind a barrier or in the segment, and every
conflict so far has its barrier. -/
structure Recorded (done : List Dispatch) (st : Recording) : Prop where
  covered : ∀ i (h : i < done.length),
    ∃ g, [Command.dispatch i g, .barrier].Sublist st.commands ∨
      [Command.dispatch i g].Sublist st.commands ∧ InSegment st done[i]
  separated : ∀ i j (hij : i < j) (hj : j < done.length),
    Conflict done[i] done[j] → BarrierBetween st.commands i j

/-- A barrier in front of the next dispatch puts everything recorded behind it. -/
theorem Recorded.placeBarrier {knobs : Knobs} (unset : knobs.dropBarrier ≤ 0)
    {done : List Dispatch} {st : Recording} (prior : Recorded done st) (dp : Dispatch) :
    Recorded done (placeBarrier knobs st done.length dp) ∧
      ∀ i, i < done.length → ∃ g, [Command.dispatch i g, .barrier].Sublist
        (placeBarrier knobs st done.length dp).commands := by
  have commands := placeBarrier_commands unset st done.length dp
  have behind : ∀ i, i < done.length → ∃ g, [Command.dispatch i g, .barrier].Sublist
      (Ggml.placeBarrier knobs st done.length dp).commands := by
    intro i h
    obtain ⟨g, fenced | ⟨emitted, _⟩⟩ := prior.covered i h
    · exact ⟨g, commands ▸ fenced.trans (List.sublist_append_left _ _)⟩
    · exact ⟨g, commands ▸ emitted.append (List.Sublist.refl [Command.barrier])⟩
  refine ⟨⟨fun i h => ?_, fun i j hij hj conflict => ?_⟩, behind⟩
  · obtain ⟨g, fenced⟩ := behind i h
    exact ⟨g, Or.inl fenced⟩
  · obtain ⟨gi, gj, between⟩ := prior.separated i j hij hj conflict
    exact ⟨gi, gj, commands ▸ between.trans (List.sublist_append_left _ _)⟩

/-- Emitting a dispatch keeps the invariant once its conflicts are fenced. -/
theorem Recorded.emit {done : List Dispatch} {st : Recording} (prior : Recorded done st)
    (dp : Dispatch)
    (fenced : ∀ i (h : i < done.length), Conflict done[i] dp →
      ∃ g, [Command.dispatch i g, .barrier].Sublist st.commands) :
    Recorded (done ++ [dp]) (emit st done.length dp) := by
  obtain ⟨bindings, commands⟩ := emit_commands st done.length dp
  have kept : st.commands.Sublist (Ggml.emit st done.length dp).commands := by
    rw [commands, List.append_assoc]
    exact List.sublist_append_left _ _
  refine ⟨fun i h => ?_, fun i j hij hj conflict => ?_⟩
  · by_cases earlier : i < done.length
    · obtain ⟨g, behind | ⟨emitted, listed⟩⟩ := prior.covered i earlier
      · exact ⟨g, Or.inl (behind.trans kept)⟩
      · refine ⟨g, Or.inr ⟨emitted.trans kept, ?_⟩⟩
        rw [List.getElem_append_left earlier]
        exact listed.emit done.length dp
    · obtain rfl : i = done.length := by
        rw [List.length_append, List.length_singleton] at h
        omega
      refine ⟨dp.groups, Or.inr ⟨?_, ?_⟩⟩
      · rw [commands]
        exact List.sublist_append_right _ _
      · rw [List.getElem_concat_length rfl]
        exact inSegment_emit st done.length dp
  · rw [List.length_append, List.length_singleton] at hj
    by_cases earlier : j < done.length
    · rw [List.getElem_append_left earlier, List.getElem_append_left (hij.trans earlier)] at conflict
      obtain ⟨gi, gj, between⟩ := prior.separated i j hij earlier conflict
      exact ⟨gi, gj, between.trans kept⟩
    · obtain rfl : j = done.length := by omega
      rw [List.getElem_concat_length rfl, List.getElem_append_left hij] at conflict
      obtain ⟨gi, behind⟩ := fenced i hij conflict
      refine ⟨gi, dp.groups, ?_⟩
      rw [commands]
      exact (behind.trans (List.sublist_append_left _ _)).append (List.Sublist.refl _)

/-- One turn of the recording loop keeps the invariant. -/
theorem Recorded.recordOne {knobs : Knobs} (unset : knobs.dropBarrier ≤ 0)
    {done : List Dispatch} {st : Recording} (prior : Recorded done st) (dp : Dispatch) :
    Recorded (done ++ [dp]) (recordOne knobs st (dp, done.length)) := by
  unfold Ggml.recordOne
  by_cases hazardous : hazard knobs st done.length dp = true
  · simp only [hazardous, if_true]
    obtain ⟨placed, behind⟩ := prior.placeBarrier unset dp
    exact placed.emit dp fun i h _ => behind i h
  · simp only [hazardous]
    refine prior.emit dp fun i h conflict => ?_
    -- No hazard, so a conflicting dispatch has already left the segment.
    obtain ⟨g, behind | ⟨_, listed⟩⟩ := prior.covered i h
    · exact ⟨g, behind⟩
    · exact absurd (hazard_of_conflict listed conflict) hazardous

theorem recordLoop_concat (knobs : Knobs) (done : List Dispatch) (dp : Dispatch) :
    recordLoop knobs (done ++ [dp]) = recordOne knobs (recordLoop knobs done) (dp, done.length) := by
  simp [recordLoop, List.zipIdx_append]

/-- The invariant holds after any number of dispatches. -/
theorem recorded_recordLoop {knobs : Knobs} (unset : knobs.dropBarrier ≤ 0)
    (ds : List Dispatch) : Recorded ds (recordLoop knobs ds) := by
  induction ds using List.reverseRecOn with
  | nil => exact ⟨fun i h => absurd h (by simp), fun i j _ h => absurd h (by simp)⟩
  | append_singleton done dp ih =>
      rw [recordLoop_concat]
      exact ih.recordOne unset dp

/-- Dispatches without a barrier between them do not conflict, so they commute. -/
theorem commutes_of_not_conflict {β : Type} {first second : Dispatch}
    {act act' : (Int × Nat → β) → Int × Nat → β}
    (footprint : Footprint act first.readWords first.writeWords)
    (footprint' : Footprint act' second.readWords second.writeWords)
    (apart : ¬ Conflict first second) (memory : Int × Nat → β) :
    act (act' memory) = act' (act memory) := by
  refine footprint.commute footprint' ?_ ?_ memory
  · exact fun cell written touched => apart (Or.inl ⟨cell, written, touched⟩)
  · exact fun cell written touched => apart (Or.inr ⟨cell, written, touched⟩)

theorem Conflict.symm {first second : Dispatch} (conflict : Conflict first second) :
    Conflict second first := Or.symm conflict

/-- Every conflict is fenced, and any order that respects the fences leaves the
memory that running the dispatches in graph order leaves. -/
theorem barrier_elision_sound (knobs : Knobs) (unset : knobs.dropBarrier ≤ 0)
    (ds : List Dispatch) :
    (∀ i j (hij : i < j) (hj : j < ds.length), Conflict ds[i] ds[j] →
      BarrierBetween (record knobs ds) i j) ∧
    ∀ {β : Type} (act : Nat → (Int × Nat → β) → Int × Nat → β) (order : List Nat),
      (∀ i (h : i < ds.length), Footprint (act i) ds[i].readWords ds[i].writeWords) →
      order.Perm (List.range ds.length) → Respects (record knobs ds) order →
      ∀ memory, run act order memory = run act (List.range ds.length) memory := by
  have fenced : ∀ i j (hij : i < j) (hj : j < ds.length), Conflict ds[i] ds[j] →
      BarrierBetween (record knobs ds) i j := by
    intro i j hij hj conflict
    obtain ⟨gi, gj, between⟩ := (recorded_recordLoop unset ds).separated i j hij hj conflict
    exact ⟨gi, gj, between.trans (List.sublist_append_left _ _)⟩
  refine ⟨fenced, fun act order footprints same respects memory => ?_⟩
  have nodup : order.Nodup := same.nodup_iff.mpr List.nodup_range
  refine run_eq_of_perm same (fun left right inOrder inGraph state => ?_) memory
  have lower : right < left := inGraph.lt_of_range
  have member : left < ds.length := List.mem_range.mp (inGraph.subset (by simp))
  -- The order inverts this pair, so no barrier separates it, so it does not conflict.
  have apart : ¬ Conflict ds[right] ds[left] := fun conflict =>
    inOrder.asymm nodup (respects right left (fenced right left lower member conflict))
  exact commutes_of_not_conflict (footprints left member) (footprints right (lower.trans member))
    (fun conflict => apart conflict.symm) state

/-- The slot of a recorded dispatch, or a barrier; the bindings are dropped. -/
def Command.fence? : Command → Option (Option Nat)
  | .dispatch slot _ => some (some slot)
  | .barrier => some none
  | _ => none

theorem BarrierBetween.fences {commands : List Command} {i j : Nat}
    (between : BarrierBetween commands i j) :
    [some i, none, some j].Sublist (commands.filterMap Command.fence?) := by
  obtain ⟨gi, gj, sub⟩ := between
  exact sub.filterMap Command.fence?

/-- A dispatch with no source that writes `dst`. -/
def fill (dst : Tensor) : Dispatch where
  node := {
    src := fun _ => none, dst := dst, layoutOnly := false, empty := false, compute := true
    opDesc := "FILL", name := "t", typeName := "f16" }
  kernel := 0
  groups := (1, 1, 1)
  set0 := 1
  reads := []
  write := rangeOf dst
  reads_eq := by simp [Node.srcs]
  write_eq := rfl

/-- Two halves of one word are fenced, and a third buffer may be filled first. -/
theorem barrier_elision_sound_halves :
    let ds := [fill ⟨1, 0, 2⟩, fill ⟨2, 0, 4⟩, fill ⟨1, 2, 2⟩]
    let act : Nat → (Int × Nat → Nat) → Int × Nat → Nat
      | 0 => fun memory => Function.update memory (1, 0) (memory (1, 0) + 1)
      | 1 => fun memory => Function.update memory (2, 0) (memory (2, 0) + 5)
      | _ => fun memory => Function.update memory (1, 0) (memory (1, 0) * 2)
    BarrierBetween (record ⟨false, 0⟩ ds) 0 2 ∧
      ∀ memory, run act [1, 0, 2] memory = run act (List.range 3) memory := by
  intro ds act
  have sound := barrier_elision_sound ⟨false, 0⟩ (le_refl 0) ds
  have low : ((1, 0) : Int × Nat) ∈ (fill ⟨1, 0, 2⟩).writeWords :=
    ⟨rfl, 0, by decide, by decide, rfl⟩
  have high : ((1, 0) : Int × Nat) ∈ (fill ⟨1, 2, 2⟩).writeWords :=
    ⟨rfl, 2, by decide, by decide, rfl⟩
  have other : ((2, 0) : Int × Nat) ∈ (fill ⟨2, 0, 4⟩).writeWords :=
    ⟨rfl, 0, by decide, by decide, rfl⟩
  refine ⟨sound.1 0 2 (by decide) (by decide) (Or.inl ⟨_, low, Or.inr high⟩), ?_⟩
  refine sound.2 act [1, 0, 2] (fun i h => ?_) (by decide) (fun i j between => ?_)
  · match i, h with
    | 0, _ => exact Footprint.update low (· + 1)
    | 1, _ => exact Footprint.update other (· + 5)
    | 2, _ => exact Footprint.update high (· * 2)
  · have fences := between.fences
    have bounded : i < 3 ∧ j < 3 := by
      have member : ∀ slot, some slot ∈ (record ⟨false, 0⟩ ds).filterMap Command.fence? →
          slot < 3 := by
        have listed : (record ⟨false, 0⟩ ds).filterMap Command.fence? =
            [some 0, some 1, none, some 2] := rfl
        rw [listed]
        intro slot inList
        simp at inList
        omega
      exact ⟨member i (fences.subset (by simp)), member j (fences.subset (by simp))⟩
    obtain ⟨iBound, jBound⟩ := bounded
    revert fences
    unfold Before
    interval_cases i <;> interval_cases j <;> decide

end DressOn.Ggml
