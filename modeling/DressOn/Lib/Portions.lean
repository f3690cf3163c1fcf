import DressOn.Lib.CountingSort

/-!
# Portions

Items given out to parts by a key: each part takes the items of its key, in order. Keys numbered
as they first appear, by a table of the keys seen, are numbered by which of them are equal alone.
-/

namespace DressOn.Portions

open CountingSort (bucket)

section Parts

variable {ι π : Type*} (key : ι → Nat) (give : ι → π → π)

/-- A list of parts with one of them changed. -/
theorem modify_map_range (n j : Nat) (part : Nat → π) (f : π → π) :
    ((List.range n).map part).modify j f =
      (List.range n).map fun k => if k = j then f (part k) else part k := by
  apply List.ext_getElem?
  intro k
  rw [List.getElem?_modify, List.getElem?_map, List.getElem?_map]
  by_cases inside : k < n
  · rw [List.getElem?_range inside]
    by_cases same : k = j
    · subst same
      simp
    · have other : ¬ j = k := fun eq => same eq.symm
      simp [same, other]
  · rw [List.getElem?_eq_none (by simpa using inside)]
    rfl

/-- Giving out items leaves each part with those of its key. -/
theorem foldl_modify (items : List ι) (n : Nat) (part : Nat → π) :
    items.foldl (fun parts item => parts.modify (key item) (give item)) ((List.range n).map part) =
      (List.range n).map fun k =>
        (bucket key items k).foldl (fun part item => give item part) (part k) := by
  induction items generalizing part with
  | nil => rfl
  | cons item items inductionHypothesis =>
    rw [List.foldl_cons, modify_map_range, inductionHypothesis]
    refine List.map_congr_left fun k _ => ?_
    by_cases same : k = key item
    · subst same
      simp [bucket]
    · have other : ¬ key item = k := fun eq => same eq.symm
      simp [bucket, same, other]

/-- Items past the first ones, all of one new key, are the share of that key. -/
theorem bucket_range_add {key key' : Nat → Nat} {a n : Nat} (b : Nat)
    (low : ∀ t < a, key' t = key t) (below : ∀ t < a, key t < n) (high : ∀ t < b, key' (a + t) = n)
    (k : Nat) :
    bucket key' (List.range (a + b)) k =
      if k = n then (List.range b).map (a + ·) else bucket key (List.range a) k := by
  have first : bucket key' (List.range a) k = bucket key (List.range a) k := by
    refine List.filter_congr fun t member => ?_
    rw [low t (List.mem_range.1 member)]
  rw [List.range_add, CountingSort.bucket_append, first]
  split
  · next same =>
    subst same
    have none : bucket key (List.range a) k = [] := by
      refine List.filter_eq_nil_iff.2 fun t member => ?_
      have := below t (List.mem_range.1 member)
      simp only [beq_iff_eq]
      omega
    have all : bucket key' ((List.range b).map (a + ·)) k = (List.range b).map (a + ·) := by
      refine List.filter_eq_self.2 fun t member => ?_
      obtain ⟨t, inRange, rfl⟩ := List.mem_map.1 member
      simp [high t (List.mem_range.1 inRange)]
    rw [none, all, List.nil_append]
  · next other =>
    have none : bucket key' ((List.range b).map (a + ·)) k = [] := by
      refine List.filter_eq_nil_iff.2 fun t member => ?_
      obtain ⟨t, inRange, rfl⟩ := List.mem_map.1 member
      rw [high t (List.mem_range.1 inRange)]
      simp only [beq_iff_eq]
      omega
    rw [none, List.append_nil]

/-- How many items of the same key stand before one is its place in its share. -/
theorem getElem?_bucket (key : Nat → Nat) {n v : Nat} (inside : v < n) :
    (bucket key (List.range n) (key v))[(bucket key (List.range v) (key v)).length]? = some v := by
  have split : List.range n = List.range v ++ v :: (List.range (n - v - 1)).map (v + 1 + ·) := by
    have whole : n = v + 1 + (n - v - 1) := by omega
    conv => lhs; rw [whole, List.range_add, List.range_succ]
    simp
  rw [split, CountingSort.bucket_append]
  simp [bucket]

end Parts

section Numbers

variable {κ : Type*} [DecidableEq κ]

/-- The numbers given so far, the table of the keys seen, and the next number. -/
structure Numbering (κ : Type*) where
  table : κ → Option Nat
  numbers : List Nat
  next : Nat

/-- No key seen. -/
def Numbering.start : Numbering κ := ⟨fun _ => none, [], 0⟩

/-- The next key gets the number it has, or the next one. -/
def Numbering.add (s : Numbering κ) (key : κ) : Numbering κ :=
  match s.table key with
  | some number => { s with numbers := s.numbers ++ [number] }
  | none => ⟨Function.update s.table key (some s.next), s.numbers ++ [s.next], s.next + 1⟩

/-- The keys of a list numbered. -/
def numberAll (keys : List κ) : Numbering κ := keys.foldl Numbering.add .start

theorem numberAll_snoc (keys : List κ) (key : κ) :
    numberAll (keys ++ [key]) = (numberAll keys).add key := by
  rw [numberAll, List.foldl_append]
  rfl

/-- The table gives each key seen a number of its own below the next one, the number it got. -/
structure Numbered (keys : List κ) (s : Numbering κ) : Prop where
  length : s.numbers.length = keys.length
  seen : ∀ key, key ∉ keys → s.table key = none
  number : ∀ i (inside : i < keys.length), s.table keys[i] = s.numbers[i]?
  below : ∀ key number, s.table key = some number → number < s.next
  apart : ∀ one two number, s.table one = some number → s.table two = some number → one = two

/-- A key already seen gets its number again. -/
theorem Numbering.add_of_some {s : Numbering κ} {key : κ} {number : Nat}
    (known : s.table key = some number) :
    s.add key = ⟨s.table, s.numbers ++ [number], s.next⟩ := by
  rw [Numbering.add, known]

/-- A new key gets the next number. -/
theorem Numbering.add_of_none {s : Numbering κ} {key : κ} (new : s.table key = none) :
    s.add key = ⟨Function.update s.table key (some s.next), s.numbers ++ [s.next], s.next + 1⟩ := by
  rw [Numbering.add, new]

/-- One more key. -/
theorem Numbered.add {keys : List κ} {s : Numbering κ} (numbered : Numbered keys s) (key : κ) :
    Numbered (keys ++ [key]) (s.add key) := by
  cases known : s.table key with
  | some number =>
    rw [Numbering.add_of_some known]
    refine ⟨by simp [numbered.length], fun other notSeen => ?_, fun i inside => ?_,
      numbered.below, numbered.apart⟩
    · exact numbered.seen other fun member => notSeen (List.mem_append_left _ member)
    · by_cases old : i < keys.length
      · rw [List.getElem_append_left old, numbered.number i old,
          List.getElem?_append_left (numbered.length ▸ old)]
      · obtain rfl : i = keys.length := by
          simp only [List.length_append, List.length_singleton] at inside
          omega
        simp [known, ← numbered.length]
  | none =>
    rw [Numbering.add_of_none known]
    refine ⟨by simp [numbered.length], fun other notSeen => ?_, fun i inside => ?_, ?_, ?_⟩
    · have differs : other ≠ key := fun same => notSeen (by simp [same])
      dsimp only
      rw [Function.update_of_ne differs]
      exact numbered.seen other fun member => notSeen (List.mem_append_left _ member)
    · by_cases old : i < keys.length
      · have differs : keys[i] ≠ key := by
          intro same
          have stored := numbered.number i old
          rw [same, known, List.getElem?_eq_getElem (numbered.length ▸ old)] at stored
          cases stored
        dsimp only
        rw [List.getElem_append_left old, Function.update_of_ne differs, numbered.number i old,
          List.getElem?_append_left (numbered.length ▸ old)]
      · obtain rfl : i = keys.length := by
          simp only [List.length_append, List.length_singleton] at inside
          omega
        simp [← numbered.length]
    · dsimp only
      intro other number stored
      by_cases same : other = key
      · rw [same, Function.update_self] at stored
        injection stored with eq
        exact eq ▸ Nat.lt_succ_self _
      · rw [Function.update_of_ne same] at stored
        exact Nat.lt_succ_of_lt (numbered.below other number stored)
    · dsimp only
      intro one two number first second
      by_cases oneKey : one = key <;> by_cases twoKey : two = key
      · rw [oneKey, twoKey]
      · rw [oneKey, Function.update_self] at first
        rw [Function.update_of_ne twoKey] at second
        injection first with eq
        exact absurd (numbered.below two number second) (eq ▸ Nat.lt_irrefl _)
      · rw [twoKey, Function.update_self] at second
        rw [Function.update_of_ne oneKey] at first
        injection second with eq
        exact absurd (numbered.below one number first) (eq ▸ Nat.lt_irrefl _)
      · rw [Function.update_of_ne oneKey] at first
        rw [Function.update_of_ne twoKey] at second
        exact numbered.apart one two number first second

theorem numbered_numberAll (keys : List κ) : Numbered keys (numberAll keys) := by
  induction keys using List.reverseRecOn with
  | nil =>
    exact ⟨rfl, fun _ _ => rfl, fun i inside => absurd inside (Nat.not_lt_zero i),
      fun _ _ stored => (nomatch stored), fun _ _ _ stored => (nomatch stored)⟩
  | append_singleton keys key inductionHypothesis =>
    rw [numberAll_snoc]
    exact inductionHypothesis.add key

theorem length_numbers (keys : List κ) : (numberAll keys).numbers.length = keys.length :=
  (numbered_numberAll keys).length

/-- Every number is below the next one. -/
theorem numbers_lt {keys : List κ} {i : Nat} (inside : i < (numberAll keys).numbers.length) :
    (numberAll keys).numbers[i] < (numberAll keys).next := by
  have numbered := numbered_numberAll keys
  have inKeys : i < keys.length := numbered.length ▸ inside
  refine numbered.below keys[i] _ ?_
  rw [numbered.number i inKeys, List.getElem?_eq_getElem inside]

/-- Equal numbers are numbers of equal keys. -/
theorem numbers_eq_iff {keys : List κ} {i j : Nat} (insideI : i < keys.length)
    (insideJ : j < keys.length) :
    (numberAll keys).numbers[i]? = (numberAll keys).numbers[j]? ↔ keys[i] = keys[j] := by
  have numbered := numbered_numberAll keys
  have storedI := numbered.number i insideI
  have storedJ := numbered.number j insideJ
  constructor
  · intro same
    have length : j < (numberAll keys).numbers.length := numbered.length ▸ insideJ
    rw [List.getElem?_eq_getElem length] at storedJ same
    exact numbered.apart _ _ _ (storedI.trans same) storedJ
  · intro same
    rw [← storedI, ← storedJ, same]

/-- Lists in which the same places hold equal keys get the same numbers. -/
theorem numberAll_congr {κ' : Type*} [DecidableEq κ'] {keys : List κ} {keys' : List κ'}
    (length : keys'.length = keys.length)
    (pattern : ∀ i j (insideI : i < keys.length) (insideJ : j < keys.length),
      keys'[i] = keys'[j] ↔ keys[i] = keys[j]) :
    (numberAll keys').numbers = (numberAll keys).numbers ∧
      (numberAll keys').next = (numberAll keys).next := by
  induction keys using List.reverseRecOn generalizing keys' with
  | nil =>
    obtain rfl : keys' = [] := List.length_eq_zero_iff.1 length
    exact ⟨rfl, rfl⟩
  | append_singleton keys key inductionHypothesis =>
    obtain ⟨keys', key', rfl⟩ : ∃ before last, keys' = before ++ [last] := by
      obtain rfl | ⟨before, last, eq⟩ := List.eq_nil_or_concat keys'
      · simp at length
      · exact ⟨before, last, by simpa using eq⟩
    have shorter : keys'.length = keys.length := by simpa using length
    have same := @inductionHypothesis keys' shorter (by
      intro i j insideI insideJ
      have old := pattern i j (by simp; omega) (by simp; omega)
      simpa [List.getElem_append_left, insideI, insideJ, shorter ▸ insideI,
        shorter ▸ insideJ] using old)
    have last : ∀ i (inside : i < keys.length), keys'[i] = key' ↔ keys[i] = key := by
      intro i inside
      have old := pattern i keys.length (by simp; omega) (by simp)
      simpa [List.getElem_append, inside, shorter] using old
    have numbered := numbered_numberAll keys
    have numbered' := numbered_numberAll keys'
    rw [numberAll_snoc, numberAll_snoc]
    by_cases member : key ∈ keys
    · obtain ⟨i, inside, here⟩ := List.getElem_of_mem member
      have stored := numbered.number i inside
      have stored' := numbered'.number i (shorter ▸ inside)
      have length : i < (numberAll keys).numbers.length := numbered.length ▸ inside
      rw [here, List.getElem?_eq_getElem length] at stored
      rw [(last i inside).2 here, same.1, List.getElem?_eq_getElem length] at stored'
      rw [Numbering.add_of_some stored, Numbering.add_of_some stored', same.1, same.2]
      exact ⟨rfl, rfl⟩
    · have fresh : key' ∉ keys' := by
        intro member'
        obtain ⟨i, inside, here⟩ := List.getElem_of_mem member'
        have here' := (last i (shorter ▸ inside)).1 here
        exact member (here' ▸ List.getElem_mem _)
      rw [Numbering.add_of_none (numbered.seen key member),
        Numbering.add_of_none (numbered'.seen key' fresh), same.1, same.2]
      exact ⟨rfl, rfl⟩

/-- A run of one new key gets the next number. -/
theorem numberAll_append_replicate {keys : List κ} {key : κ} (fresh : key ∉ keys) (n : Nat) :
    (numberAll (keys ++ List.replicate (n + 1) key)).numbers =
        (numberAll keys).numbers ++ List.replicate (n + 1) (numberAll keys).next ∧
      (numberAll (keys ++ List.replicate (n + 1) key)).next = (numberAll keys).next + 1 ∧
      (numberAll (keys ++ List.replicate (n + 1) key)).table key = some (numberAll keys).next := by
  induction n with
  | zero =>
    have none := (numbered_numberAll keys).seen key fresh
    rw [List.replicate_succ, List.replicate_zero, numberAll_snoc, Numbering.add_of_none none]
    exact ⟨rfl, rfl, Function.update_self ..⟩
  | succ n inductionHypothesis =>
    obtain ⟨numbers, next, stored⟩ := inductionHypothesis
    rw [List.replicate_succ', ← List.append_assoc, numberAll_snoc,
      Numbering.add_of_some stored, numbers, next, List.append_assoc, ← List.replicate_succ']
    exact ⟨rfl, rfl, stored⟩

end Numbers

end DressOn.Portions
