import Mathlib.Data.List.Basic
import Mathlib.Data.List.Induction
import Mathlib.Order.Nat
import Mathlib.Algebra.GroupWithZero.Nat

/-!
# Counting sort on arrays

Count the items of each bucket, turn the counts into offsets, then place every
item at its bucket's offset plus that bucket's cursor. `scatter_out` says what
comes out: bucket after bucket, each holding its items in input order.
-/

namespace DressOn.CountingSort

variable {ι : Type*} {β γ : Type*}

/-- How many of `items` fall in each bucket. -/
def countKeys (buckets : Nat) (keys : List Nat) : Array Nat :=
  keys.foldl (fun counts key => counts.modify key (· + 1)) (Array.replicate buckets 0)

/-- Running totals of `counts`, starting at zero. -/
def prefixSums (buckets : Nat) (counts : Array Nat) : Array Nat :=
  (List.range buckets).foldl (fun sums b => sums.set! (b + 1) (sums[b]! + counts[b]!))
    (Array.replicate (buckets + 1) 0)

/-- The output being filled and the next free place of each bucket. -/
structure Scatter (β : Type*) where
  out : Array β
  cursor : Array Nat

/-- Place one item and move its bucket's cursor. -/
def scatterOne (offsets : Array Nat) (key : ι → Nat) (val : ι → β) (s : Scatter β) (item : ι) :
    Scatter β where
  out := s.out.set! (offsets[key item]! + s.cursor[key item]!) (val item)
  cursor := s.cursor.modify (key item) (· + 1)

/-- Place all items, in order. -/
def scatter (offsets : Array Nat) (key : ι → Nat) (val : ι → β) (items : List ι)
    (start : Scatter β) : Scatter β :=
  items.foldl (scatterOne offsets key val) start

/-- Placing two values side by side is two placements that share their cursors. -/
theorem scatter_pair (offsets : Array Nat) (key : ι → Nat) (left : ι → β) (right : ι → γ)
    (items : List ι) (outL : Array β) (outR : Array γ) (cursor : Array Nat) :
    items.foldl (fun s item =>
        (s.1.set! (offsets[key item]! + s.2.2[key item]!) (left item),
          s.2.1.set! (offsets[key item]! + s.2.2[key item]!) (right item),
          s.2.2.modify (key item) (· + 1)))
      (outL, outR, cursor) =
    ((scatter offsets key left items ⟨outL, cursor⟩).out,
      (scatter offsets key right items ⟨outR, cursor⟩).out,
      (scatter offsets key left items ⟨outL, cursor⟩).cursor) := by
  induction items generalizing outL outR cursor with
  | nil => rfl
  | cons item rest ih => exact ih _ _ _

/-- The sum of the first `b` values of a function. -/
def total (size : Nat → Nat) (b : Nat) : Nat := ((List.range b).map size).sum

@[simp] theorem total_zero (size : Nat → Nat) : total size 0 = 0 := rfl

/-- One bucket more. -/
theorem total_succ (size : Nat → Nat) (b : Nat) : total size (b + 1) = total size b + size b := by
  simp [total, List.range_succ]

/-- More buckets hold no less. -/
theorem total_le (size : Nat → Nat) {b c : Nat} (ordered : b ≤ c) : total size b ≤ total size c := by
  induction ordered with
  | refl => exact le_rfl
  | step _ ih => exact ih.trans (by rw [total_succ]; omega)

/-- Equal sizes have equal totals. -/
theorem total_congr {size size' : Nat → Nat} {b : Nat} (same : ∀ i < b, size i = size' i) :
    total size b = total size' b := by
  unfold total
  refine congrArg List.sum (List.map_congr_left fun i member => ?_)
  exact same i (List.mem_range.mp member)

/-- A joined list is as long as its parts. -/
theorem length_flatMap_range (f : Nat → List β) (b : Nat) :
    ((List.range b).flatMap f).length = total (fun i => (f i).length) b := by
  rw [List.length_flatMap, total]

/-- A cell of an array after one cell was set. -/
theorem getElem!_set! [Inhabited β] (a : Array β) (i j : Nat) (x : β) :
    (a.set! i x)[j]! = if i = j ∧ j < a.size then x else a[j]! := by
  simp only [Array.set!_eq_setIfInBounds, getElem!_def, Array.getElem?_setIfInBounds]
  by_cases same : i = j
  · subst same
    by_cases inside : i < a.size <;> simp [inside]
  · simp [same]

/-- A cell of an array after one cell was modified. -/
theorem getElem!_modify [Inhabited β] (a : Array β) (i j : Nat) (f : β → β) :
    (a.modify i f)[j]! = if i = j ∧ j < a.size then f a[j]! else a[j]! := by
  simp only [getElem!_def, Array.getElem?_modify]
  by_cases same : i = j
  · subst same
    by_cases inside : i < a.size <;> simp [inside]
  · simp [same]

/-- A constant array, by its places. -/
theorem getElem!_replicate (n i k : Nat) : (Array.replicate n k)[i]! = if i < n then k else 0 := by
  simp only [getElem!_def, Array.getElem?_replicate]
  by_cases inside : i < n <;> simp [inside]

/-- There is a count for each bucket. -/
@[simp] theorem size_countKeys (buckets : Nat) (keys : List Nat) :
    (countKeys buckets keys).size = buckets := by
  induction keys using List.reverseRecOn with
  | nil => simp [countKeys]
  | append_singleton keys key ih => simpa [countKeys] using ih

/-- A bucket's count is how often its key occurs. -/
theorem getElem!_countKeys {buckets b : Nat} (keys : List Nat) (inside : b < buckets) :
    (countKeys buckets keys)[b]! = keys.count b := by
  induction keys using List.reverseRecOn with
  | nil => simp [countKeys, getElem!_replicate]
  | append_singleton keys key ih =>
      have step : countKeys buckets (keys ++ [key]) =
          (countKeys buckets keys).modify key (· + 1) := by simp [countKeys]
      rw [step, getElem!_modify, size_countKeys, ih, List.count_append]
      by_cases same : key = b <;> simp [same, inside]

/-- The offsets are the running totals of the counts. -/
theorem prefixSums_spec (buckets : Nat) (counts : Array Nat) :
    (prefixSums buckets counts).size = buckets + 1 ∧
      ∀ b ≤ buckets, (prefixSums buckets counts)[b]! = total (counts[·]!) b := by
  have partial_ : ∀ m ≤ buckets,
      let sums := (List.range m).foldl (fun sums b => sums.set! (b + 1) (sums[b]! + counts[b]!))
        (Array.replicate (buckets + 1) 0)
      sums.size = buckets + 1 ∧ ∀ b ≤ m, sums[b]! = total (counts[·]!) b := by
    intro m
    induction m with
    | zero =>
        intro _
        refine ⟨by simp, fun b low => ?_⟩
        obtain rfl : b = 0 := by omega
        simp
    | succ m ih =>
        intro bound
        obtain ⟨size, filled⟩ := ih (by omega)
        rw [List.range_succ, List.foldl_append, List.foldl_cons, List.foldl_nil]
        refine ⟨by simpa using size, fun b low => ?_⟩
        rw [getElem!_set!, size]
        by_cases top : m + 1 = b
        · subst top
          rw [if_pos ⟨rfl, by omega⟩, filled m le_rfl, total_succ]
        · rw [if_neg (by omega), filled b (by omega)]
  exact partial_ buckets le_rfl

/-- There is a sum before each bucket, and one past the last. -/
@[simp] theorem size_prefixSums (buckets : Nat) (counts : Array Nat) :
    (prefixSums buckets counts).size = buckets + 1 := (prefixSums_spec buckets counts).1

/-- A prefix sum is the total of the counts before it. -/
theorem getElem!_prefixSums {buckets b : Nat} (counts : Array Nat) (inside : b ≤ buckets) :
    (prefixSums buckets counts)[b]! = total (counts[·]!) b := (prefixSums_spec buckets counts).2 b inside

/-- A cell of an earlier block lies inside the concatenation of the first `n`. -/
theorem lt_length_flatMap_range (f : Nat → List β) {b n p : Nat} (block : b < n)
    (inside : p < (f b).length) :
    total (fun i => (f i).length) b + p < ((List.range n).flatMap f).length := by
  have below := total_le (fun i => (f i).length) (show b + 1 ≤ n by omega)
  rw [total_succ] at below
  rw [length_flatMap_range]
  omega

/-- A cell of one block is a cell of the concatenation. -/
theorem getElem?_flatMap_range (f : Nat → List β) {b n p : Nat} (block : b < n)
    (inside : p < (f b).length) :
    ((List.range n).flatMap f)[total (fun i => (f i).length) b + p]? = (f b)[p]? := by
  induction n with
  | zero => omega
  | succ n ih =>
      rw [List.range_succ, List.flatMap_append, List.flatMap_singleton]
      by_cases last : b = n
      · subst last
        rw [← length_flatMap_range, List.getElem?_append_right (by omega),
          Nat.add_sub_cancel_left]
      · rw [List.getElem?_append_left (lt_length_flatMap_range f (by omega) inside),
          ih (by omega)]

/-- Reading one block's span of the concatenation reads that block. -/
theorem map_range'_flatMap_range [Inhabited β] (f : Nat → List β) {b n : Nat} (block : b < n) :
    (List.range' (total (fun i => (f i).length) b) (f b).length).map
      (((List.range n).flatMap f).toArray[·]!) = f b := by
  refine List.ext_getElem (by simp) fun p left right => ?_
  rw [List.getElem_map, List.getElem_range', Nat.one_mul, getElem!_def, List.getElem?_toArray,
    getElem?_flatMap_range f block right, List.getElem?_eq_getElem right]

/-- Setting a cell of one block sets that cell of the concatenation. -/
theorem set_flatMap_range (f : Nat → List β) {b n p : Nat} (block : b < n)
    (inside : p < (f b).length) (x : β) :
    ((List.range n).flatMap f).set (total (fun i => (f i).length) b + p) x =
      (List.range n).flatMap (Function.update f b ((f b).set p x)) := by
  induction n with
  | zero => omega
  | succ n ih =>
      rw [List.range_succ, List.flatMap_append, List.flatMap_append, List.flatMap_singleton,
        List.flatMap_singleton]
      by_cases last : b = n
      · subst last
        have earlier : (List.range b).flatMap (Function.update f b ((f b).set p x)) =
            (List.range b).flatMap f := by
          refine List.flatMap_congr fun i member => ?_
          rw [Function.update_of_ne (List.mem_range.mp member).ne]
        rw [earlier, ← length_flatMap_range, List.set_append_right _ _ (by omega),
          Nat.add_sub_cancel_left, Function.update_self]
      · rw [List.set_append_left _ _ (lt_length_flatMap_range f (by omega) inside), ih (by omega),
          Function.update_of_ne (Ne.symm last)]

section Blocks

variable (key : ι → Nat) (val : ι → β) (blank : β)

/-- The items of bucket `b`. -/
def bucket (items : List ι) (b : Nat) : List ι := items.filter (key · == b)

/-- A bucket of two lists, one after the other. -/
theorem bucket_append (first second : List ι) (b : Nat) :
    bucket key (first ++ second) b = bucket key first b ++ bucket key second b :=
  List.filter_append _ _

/-- A bucket part-way through the placement: its items so far, then blanks. -/
def block (done rest : List ι) (b : Nat) : List β :=
  (bucket key done b).map val ++ List.replicate (bucket key rest b).length blank

/-- A block is as long as its bucket. -/
theorem length_block (done rest : List ι) (b : Nat) :
    (block key val blank done rest b).length = (bucket key (done ++ rest) b).length := by
  simp [block, bucket_append]

/-- Placing an item fills the first blank of its block and no other. -/
theorem block_concat (done rest : List ι) (item : ι) :
    block key val blank (done ++ [item]) rest =
      Function.update (block key val blank done (item :: rest)) (key item)
        ((block key val blank done (item :: rest) (key item)).set
          (bucket key done (key item)).length (val item)) := by
  funext b
  by_cases same : b = key item
  · subst same
    have next : bucket key (item :: rest) (key item) = item :: bucket key rest (key item) := by
      simp [bucket]
    have alone : bucket key [item] (key item) = [item] := by simp [bucket]
    rw [Function.update_self]
    simp only [block, next, bucket_append, alone, List.length_cons, List.replicate_succ]
    rw [List.set_append_right _ _ (by simp)]
    simp
  · rw [Function.update_of_ne same]
    have skip : bucket key (item :: rest) b = bucket key rest b := by
      simp [bucket, Ne.symm same]
    have none : bucket key [item] b = [] := by simp [bucket, Ne.symm same]
    simp [block, skip, bucket_append, none]

/-- A bucket is as long as its key occurs often. -/
theorem bucket_length_eq_count (items : List ι) (b : Nat) :
    (bucket key items b).length = (items.map key).count b := by
  rw [bucket, ← List.countP_eq_length_filter, List.count, List.countP_map]
  rfl

/-- The first `n` buckets hold the items whose key is below `n`. -/
theorem perm_flatMap_bucket (items : List ι) (n : Nat) :
    ((List.range n).flatMap (bucket key items)).Perm (items.filter (key · < n)) := by
  induction n with
  | zero => simp
  | succ n ih =>
      have below : (items.filter (key · < n + 1)).filter (key · < n) = items.filter (key · < n) := by
        rw [List.filter_filter]
        refine List.filter_congr fun item _ => ?_
        have weaker : key item < n → key item < n + 1 := fun low => by omega
        simpa using weaker
      have top : (items.filter (key · < n + 1)).filter (fun item => !decide (key item < n)) =
          bucket key items n := by
        rw [List.filter_filter, bucket]
        refine List.filter_congr fun item _ => ?_
        rw [Bool.eq_iff_iff]
        simp only [Bool.and_eq_true, Bool.not_eq_true', decide_eq_false_iff_not, decide_eq_true_eq,
          beq_iff_eq]
        omega
      have split := List.filter_append_perm (fun item => decide (key item < n))
        (items.filter (key · < n + 1))
      rw [below, top] at split
      rw [List.range_succ, List.flatMap_append, List.flatMap_singleton]
      exact (ih.append_right _).trans split

/-- All buckets together hold all items. -/
theorem perm_flatMap_bucket_of_lt {items : List ι} {buckets : Nat}
    (inRange : ∀ item ∈ items, key item < buckets) :
    ((List.range buckets).flatMap (bucket key items)).Perm items := by
  have all : items.filter (key · < buckets) = items :=
    List.filter_eq_self.mpr fun item member => decide_eq_true (inRange item member)
  simpa [all] using perm_flatMap_bucket key items buckets

/-- The buckets hold every item. -/
theorem total_bucket_length {items : List ι} {buckets : Nat}
    (inRange : ∀ item ∈ items, key item < buckets) :
    total (fun b => (bucket key items b).length) buckets = items.length := by
  rw [← length_flatMap_range, (perm_flatMap_bucket_of_lt key inRange).length_eq]

end Blocks

/-- The blanks of all buckets together are one run of blanks. -/
theorem flatMap_replicate (size : Nat → Nat) (blank : β) (n : Nat) :
    (List.range n).flatMap (fun b => List.replicate (size b) blank) =
      List.replicate (total size n) blank := by
  induction n with
  | zero => rfl
  | succ n ih => simp [List.range_succ, List.flatMap_append, ih, total_succ]

/-- What the offsets must be for a placement into `buckets` buckets. -/
def IsOffsets (key : ι → Nat) (items : List ι) (buckets : Nat) (offsets : Array Nat) : Prop :=
  ∀ b ≤ buckets, offsets[b]! = total (fun b => (bucket key items b).length) b

/-- Counting and summing gives the offsets. -/
theorem isOffsets_prefixSums (key : ι → Nat) (items : List ι) (buckets : Nat) :
    IsOffsets key items buckets (prefixSums buckets (countKeys buckets (items.map key))) := by
  intro b inside
  rw [getElem!_prefixSums _ inside]
  refine total_congr fun i below => ?_
  rw [getElem!_countKeys _ (by omega), bucket_length_eq_count]

/-- A placement lists the buckets one after another, each in input order. -/
theorem scatter_out {key : ι → Nat} {items : List ι} {buckets : Nat} {offsets : Array Nat}
    (isOffsets : IsOffsets key items buckets offsets) (inRange : ∀ item ∈ items, key item < buckets)
    (val : ι → β) (blank : β) :
    (scatter offsets key val items
        ⟨Array.replicate offsets[buckets]! blank, Array.replicate buckets 0⟩).out =
      ((List.range buckets).flatMap fun b => (bucket key items b).map val).toArray := by
  -- The invariant: the output is the blocks, and the cursors count what was placed.
  have placed : ∀ done rest, done ++ rest = items →
      let s := scatter offsets key val done
        ⟨Array.replicate offsets[buckets]! blank, Array.replicate buckets 0⟩
      s.out.toList = (List.range buckets).flatMap (block key val blank done rest) ∧
        s.cursor.size = buckets ∧
        ∀ b < buckets, s.cursor[b]! = (bucket key done b).length := by
    intro done
    induction done using List.reverseRecOn with
    | nil =>
        intro rest same
        rw [List.nil_append] at same
        subst same
        refine ⟨?_, by simp [scatter], fun b inside => by simp [scatter, getElem!_replicate, bucket]⟩
        have blanks : block key val blank [] rest =
            fun b => List.replicate (bucket key rest b).length blank := by
          funext b
          simp [block, bucket]
        rw [blanks, flatMap_replicate, ← isOffsets buckets le_rfl]
        simp [scatter]
    | append_singleton done item ih =>
        intro rest same
        have split : done ++ item :: rest = items := by simpa using same
        have member : item ∈ items := by simp [← split]
        have here := inRange item member
        obtain ⟨out, size, cursor⟩ := ih (item :: rest) split
        have step : scatter offsets key val (done ++ [item])
            ⟨Array.replicate offsets[buckets]! blank, Array.replicate buckets 0⟩ =
            scatterOne offsets key val (scatter offsets key val done
              ⟨Array.replicate offsets[buckets]! blank, Array.replicate buckets 0⟩) item := by
          simp [scatter]
        rw [step]
        refine ⟨?_, by simpa [scatterOne] using size, fun b inside => ?_⟩
        · have offset : offsets[key item]! =
              total (fun b => (block key val blank done (item :: rest) b).length) (key item) := by
            rw [isOffsets _ here.le]
            refine total_congr fun b _ => ?_
            rw [length_block, split]
          have free : (bucket key done (key item)).length <
              (block key val blank done (item :: rest) (key item)).length := by
            simp [block, bucket]
          simp only [scatterOne, Array.set!_eq_setIfInBounds, Array.toList_setIfInBounds]
          rw [out, cursor _ here, offset, set_flatMap_range _ here free, ← block_concat]
        · simp only [scatterOne, getElem!_modify, size, cursor b inside, bucket_append]
          by_cases same : key item = b <;> simp [same, inside, bucket]
  obtain ⟨out, -, -⟩ := placed items [] (List.append_nil items)
  rw [← Array.toList_inj, out]
  refine List.flatMap_congr fun b _ => ?_
  simp [block, bucket]

end DressOn.CountingSort
