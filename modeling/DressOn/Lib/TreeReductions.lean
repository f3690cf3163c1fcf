import DressOn.Lib.CountingSort
import DressOn.Lib.ThreadGroups

/-!
# Reductions over a group

The threads of a group put a value each into shared cells and halve them, stride by stride, until
the first cell holds all of them. What it holds is one fixed tree of the values, whatever the order
of the turns; where the operation is associative and commutative the tree is the plain fold.
-/

namespace DressOn.TreeReductions

open ThreadGroups

universe u

variable {κ β ρ : Type u}

/-! ## The tree -/

section Tree

variable (op : β → β → β)

/-- The lower half takes in the upper one. -/
def halved (stride : ℕ) (values : ℕ → β) (t : ℕ) : β :=
  if t < stride then op (values t) (values (t + stride)) else values t

/-- Stride after stride. -/
def tree (strides : List ℕ) (values : ℕ → β) : ℕ → β :=
  strides.foldl (fun values stride => halved op stride values) values

/-- The strides that halve `2 ^ k` values: the largest first. -/
def halvings : ℕ → List ℕ
  | 0 => []
  | k + 1 => 2 ^ k :: halvings k

theorem two_mul_le_of_mem_halvings {k s : ℕ} (member : s ∈ halvings k) : 2 * s ≤ 2 ^ k := by
  induction k with
  | zero => cases member
  | succ k inductionHypothesis =>
      rcases List.mem_cons.1 member with rfl | later
      · rw [Nat.pow_succ, Nat.mul_comm]
      · exact (inductionHypothesis later).trans (Nat.pow_le_pow_right (by decide) (Nat.le_succ k))

variable {op} in
/-- The tree looks at its own values only. -/
theorem tree_congr {k : ℕ} {values other : ℕ → β} (same : ∀ t < 2 ^ k, values t = other t) :
    tree op (halvings k) values 0 = tree op (halvings k) other 0 := by
  induction k generalizing values other with
  | zero => exact same 0 Nat.one_pos
  | succ k inductionHypothesis =>
      have double : 2 ^ (k + 1) = 2 ^ k + 2 ^ k := by rw [Nat.pow_succ, Nat.mul_two]
      have both : ∀ t < 2 ^ k, halved op (2 ^ k) values t = halved op (2 ^ k) other t := by
        intro t inside
        rw [halved, halved, if_pos inside, if_pos inside, same t (by omega), same _ (by omega)]
      exact inductionHypothesis both

/-- One thread halves in place. -/
theorem foldl_update_eq_halved (stride : ℕ) (values : ℕ → β) :
    (List.range stride).foldl
      (fun values t => Function.update values t (op (values t) (values (t + stride)))) values =
      halved op stride values := by
  suffices some_ : ∀ n ≤ stride, (List.range n).foldl
      (fun values t => Function.update values t (op (values t) (values (t + stride)))) values =
      fun t => if t < n then op (values t) (values (t + stride)) else values t from
    some_ stride le_rfl
  intro n few
  induction n with
  | zero => exact funext fun t => (if_neg (Nat.not_lt_zero t)).symm
  | succ n inductionHypothesis =>
      rw [List.range_succ, List.foldl_append, inductionHypothesis (by omega), List.foldl_cons,
        List.foldl_nil]
      funext t
      by_cases here : t = n
      · subst here
        rw [Function.update_self, if_pos (Nat.lt_succ_self t)]
        exact congrArg₂ op (if_neg (lt_irrefl t)) (if_neg (by omega))
      · rw [Function.update_of_ne here]
        exact if_congr (by omega) rfl rfl

/-- All values, one after another. -/
def total (start : β) (values : List β) : β := values.foldl op start

variable {op} [Std.Associative op] [Std.Commutative op] {start : β} (unit : ∀ b, op start b = b)

include unit

theorem total_append (first second : List β) :
    total op start (first ++ second) = op (total op start first) (total op start second) := by
  rw [total, List.foldl_append, total, total]
  generalize first.foldl op start = b
  induction second generalizing b with
  | nil =>
      have turned : op b start = op start b := Std.Commutative.comm b start
      rw [List.foldl_nil, List.foldl_nil, turned, unit]
  | cons c second inductionHypothesis =>
      have nested (d : β) : op (op b c) d = op b (op c d) := Std.Associative.assoc b c d
      rw [List.foldl_cons, List.foldl_cons, unit, inductionHypothesis, inductionHypothesis c,
        nested]

/-- Folding pairs is folding both sides. -/
theorem total_pairs (f g : ℕ → β) (n : ℕ) :
    total op start ((List.range n).map fun t => op (f t) (g t)) =
      op (total op start ((List.range n).map f)) (total op start ((List.range n).map g)) := by
  induction n with
  | zero => exact (unit _).symm
  | succ n inductionHypothesis =>
      simp only [List.range_succ, List.map_append, List.map_cons, List.map_nil, total_append unit,
        inductionHypothesis]
      simp only [total, List.foldl_cons, List.foldl_nil, unit]
      ac_rfl

/-- The tree over all strides is the plain fold. -/
theorem tree_eq_total (k : ℕ) (values : ℕ → β) :
    tree op (halvings k) values 0 = total op start ((List.range (2 ^ k)).map values) := by
  induction k generalizing values with
  | zero => exact (unit _).symm
  | succ k inductionHypothesis =>
      rw [halvings, tree, List.foldl_cons, ← tree, inductionHypothesis, Nat.pow_succ, Nat.mul_two,
        List.range_add, List.map_append, total_append unit, List.map_map, ← total_pairs unit]
      refine congrArg (total op start) (List.map_congr_left fun t member => ?_)
      rw [halved, if_pos (List.mem_range.1 member), Function.comp_apply, Nat.add_comm]

/-- The order of the values does not count. -/
theorem total_perm {first second : List β} (perm : first.Perm second) :
    total op start first = total op start second := by
  induction perm with
  | nil => rfl
  | cons b _ inductionHypothesis =>
      rw [← List.singleton_append, total_append unit, inductionHypothesis, ← total_append unit]
      rfl
  | swap b c rest =>
      have turned : op c b = op b c := Std.Commutative.comm c b
      simp only [total, List.foldl_cons, unit, turned]
  | trans _ _ first second => exact first.trans second

/-- Folding block after block is folding all. -/
theorem total_flatMap {ι : Type*} (blocks : List ι) (block : ι → List β) :
    total op start (blocks.map fun i => total op start (block i)) =
      total op start (blocks.flatMap block) := by
  induction blocks with
  | nil => rfl
  | cons i blocks inductionHypothesis =>
      rw [List.flatMap_cons, total_append unit, ← inductionHypothesis, List.map_cons,
        ← List.singleton_append, total_append unit]
      exact congrArg (op · _) (unit _)

end Tree

/-! ## The lanes -/

/-- The places below `n` that thread `t` of `w` visits: from its own on, `w` apart. -/
def lane (n w t : ℕ) : List ℕ := (List.range ((n - t + (w - 1)) / w)).map fun k => t + k * w

/-- A lane goes on past its first place. -/
theorem lane_cons {n w t : ℕ} (pos : 0 < w) (inside : t < n) :
    lane n w t = t :: lane n w (t + w) := by
  have count : (n - t + (w - 1)) / w = (n - (t + w) + (w - 1)) / w + 1 := by
    rw [← Nat.add_div_right _ pos]
    by_cases more : t + w ≤ n
    · congr 1
      omega
    · have one {a : ℕ} (least : w ≤ a) (most : a < 2 * w) : a / w = 1 :=
        Nat.div_eq_of_lt_le (by rwa [Nat.one_mul]) most
      rw [one (by omega) (by omega), one (by omega) (by omega)]
  rw [lane, count, List.range_succ_eq_map, List.map_cons, List.map_map, lane]
  refine congrArg₂ List.cons (by omega) (List.map_congr_left fun k _ => ?_)
  simp only [Function.comp_apply, Nat.succ_eq_add_one]
  ring

theorem lane_nil {n w t : ℕ} (pos : 0 < w) (outside : n ≤ t) : lane n w t = [] := by
  rw [lane, Nat.sub_eq_zero_of_le outside, Nat.zero_add, Nat.div_eq_of_lt (by omega)]
  rfl

/-- A thread visits the places that are its own. -/
theorem mem_lane {n w t i : ℕ} (own : t < w) : i ∈ lane n w t ↔ i < n ∧ i % w = t := by
  have pos : 0 < w := by omega
  rw [lane, List.mem_map]
  constructor
  · rintro ⟨k, member, rfl⟩
    have inside := List.mem_range.1 member
    rw [Nat.lt_div_iff_mul_lt pos] at inside
    refine ⟨by omega, ?_⟩
    rw [Nat.add_mul_mod_self_right, Nat.mod_eq_of_lt own]
  · rintro ⟨inside, rfl⟩
    refine ⟨i / w, ?_, Nat.mod_add_div' i w⟩
    have split := Nat.mod_add_div' i w
    rw [List.mem_range, Nat.lt_div_iff_mul_lt pos]
    omega

theorem nodup_lane {n w t : ℕ} (pos : 0 < w) : (lane n w t).Nodup :=
  List.nodup_range.map fun first second same => by
    exact Nat.eq_of_mul_eq_mul_right pos (Nat.add_left_cancel same)

/-- Every place is visited once. -/
theorem perm_lanes (n : ℕ) {w : ℕ} (pos : 0 < w) :
    ((List.range w).flatMap fun t => lane n w t).Perm (List.range n) := by
  have sorted : ((List.range w).flatMap (CountingSort.bucket (· % w) (List.range n))).Perm
      (List.range n) :=
    CountingSort.perm_flatMap_bucket_of_lt _ fun i _ => Nat.mod_lt i pos
  refine List.Perm.trans ?_ sorted
  refine List.Perm.flatMap_left _ fun t member => ?_
  have own := List.mem_range.1 member
  refine (List.perm_ext_iff_of_nodup (nodup_lane pos) (List.nodup_range.filter _)).2 fun i => ?_
  simp only [mem_lane own, List.mem_filter, List.mem_range, beq_iff_eq]

/-- The tree of what each lane comes to is the plain fold of all places. -/
theorem tree_lanes_eq_total {op : β → β → β} [Std.Associative op] [Std.Commutative op] {start : β}
    (unit : ∀ b, op start b = b) (k n : ℕ) (f : ℕ → β) :
    tree op (halvings k) (fun t => total op start ((lane n (2 ^ k) t).map f)) 0 =
      total op start ((List.range n).map f) := by
  rw [tree_eq_total unit, total_flatMap unit, ← List.map_flatMap]
  exact total_perm unit ((perm_lanes n (Nat.two_pow_pos k)).map _)

/-- A loop over words from `i` on, `stride` apart. A loop that has not ended after `2 ^ 32` turns
has come back to a word it had. -/
def alongFrom {σ : Type u} (n stride : UInt32) (body : σ → UInt32 → Code κ β σ) :
    ℕ → UInt32 → σ → Code κ β σ
  | 0, _, _ => .spin
  | fuel + 1, i, state =>
    if i < n then do
      let state ← body state i
      alongFrom n stride body fuel (i + stride) state
    else pure state

/-- The loop of a thread over its lane. -/
def along {σ : Type u} (n stride : UInt32) (body : σ → UInt32 → Code κ β σ) (i : UInt32)
    (state : σ) : Code κ β σ := alongFrom n stride body (2 ^ 32) i state

/-- A loop that does not wrap takes the places of its lane, and ends. -/
theorem along_eq_foldlM {σ : Type u} {n stride : UInt32} (pos : 0 < stride.toNat)
    (noWrap : n.toNat + stride.toNat ≤ 2 ^ 32) (body : σ → UInt32 → Code κ β σ) (i : UInt32)
    (state : σ) : along n stride body i state =
      (lane n.toNat stride.toNat i.toNat).foldlM (fun state c => body state (UInt32.ofNat c))
        state := by
  suffices enough : ∀ fuel i state, n.toNat ≤ fuel + i.toNat →
      alongFrom n stride body (fuel + 1) i state =
        (lane n.toNat stride.toNat i.toNat).foldlM (fun state c => body state (UInt32.ofNat c))
          state by
    have fuel : 2 ^ 32 = 2 ^ 32 - 1 + 1 := rfl
    rw [along, fuel]
    exact enough _ i state (by omega)
  intro fuel
  induction fuel with
  | zero =>
      intro i state enough
      have outside : ¬ i < n := by
        rw [UInt32.lt_iff_toNat_lt]
        omega
      rw [alongFrom, if_neg outside, lane_nil pos (by omega)]
      rfl
  | succ fuel inductionHypothesis =>
      intro i state enough
      rw [alongFrom]
      split
      next inside =>
        rw [UInt32.lt_iff_toNat_lt] at inside
        have next : (i + stride).toNat = i.toNat + stride.toNat := by
          rw [UInt32.toNat_add]
          exact Nat.mod_eq_of_lt (by omega)
        rw [lane_cons pos inside, List.foldlM_cons, UInt32.ofNat_toNat]
        refine congrArg (body state i >>= ·) (funext fun state => ?_)
        rw [inductionHypothesis _ _ (by omega), next]
      next outside =>
        rw [UInt32.lt_iff_toNat_lt] at outside
        rw [lane_nil pos (by omega)]
        rfl

/-! ## The group -/

section Group

variable [DecidableEq κ] (op : β → β → β) (cell : ℕ → κ)

/-- A thread's turn at a stride. -/
def halve (stride t : ℕ) : Code κ β PUnit :=
  if t < stride then do
    let low ← Code.read (cell t)
    let high ← Code.read (cell (t + stride))
    Code.write (cell t) (op low high)
  else pure ⟨⟩

/-- A thread's turns at all strides, with a barrier after each. -/
def halveAll (t : ℕ) : List ℕ → Code κ β PUnit
  | [] => pure ⟨⟩
  | stride :: rest => do
    halve op cell stride t
    Code.barrier
    halveAll t rest

/-- The thread's value goes into its cell; all threads read the first cell at the end. -/
def reduce (strides : List ℕ) (value : β) (t : ℕ) : Code κ β β := do
  Code.write (cell t) value
  Code.barrier
  halveAll op cell t strides
  let result ← Code.read (cell 0)
  Code.barrier
  return result

/-- The memory with values in the first `w` cells. -/
def spread (w : ℕ) (values : ℕ → β) (cells : κ → β) (place : κ) : β :=
  ((List.range w).find? fun t => cell t = place).elim (cells place) values

variable {op cell} {w : ℕ} {values : ℕ → β} {cells : κ → β}

theorem spread_off {place : κ} (off : ∀ t < w, cell t ≠ place) :
    spread cell w values cells place = cells place := by
  have none_ : (List.range w).find? (fun t => cell t = place) = none :=
    List.find?_eq_none.2 fun t member => by simpa using off t (List.mem_range.1 member)
  rw [spread, none_, Option.elim_none]

variable (apart : Set.InjOn cell {t | t < w})

include apart

theorem spread_cell {t : ℕ} (inside : t < w) : spread cell w values cells (cell t) = values t := by
  cases found : (List.range w).find? fun i => cell i = cell t with
  | none =>
      have missed := List.find?_eq_none.1 found t (List.mem_range.2 inside)
      simp at missed
  | some i =>
      have same : cell i = cell t := by simpa using List.find?_some found
      have member := List.mem_range.1 (List.mem_of_find?_eq_some found)
      rw [spread, found, Option.elim_some, apart member inside same]

variable {area : Territory κ} {post : (κ → β) → Prop} (own : ∀ t < w, cell t ∈ area.writes)

include own

/-- One stride, and the barrier after it. -/
theorem finishes_halve {stride : ℕ} (fits : 2 * stride ≤ w) {next : Fin w → Code κ β PUnit}
    (later : Finishes area next (spread cell w (halved op stride values) cells) post) :
    Finishes area
      (fun i : Fin w => halve op cell stride i >>= fun _ => Code.barrier >>= fun _ => next i)
      (spread cell w values cells) post := by
  let foot (i : Fin w) : Territory κ :=
    if i.val < stride then ⟨{cell (i + stride)}, {cell i}⟩ else ⟨∅, ∅⟩
  have low {i : Fin w} (lower : i.val < stride) : foot i = ⟨{cell (i + stride)}, {cell i}⟩ :=
    if_pos lower
  have high {i : Fin w} (upper : ¬ i.val < stride) : foot i = ⟨∅, ∅⟩ := if_neg upper
  have touched {i : Fin w} {place : κ} (mine : place ∈ (foot i).cells) :
      ∃ t < w, place = cell t ∧ (t = i ∨ t = i + stride ∧ i.val < stride) := by
    by_cases lower : i.val < stride
    · rw [low lower] at mine
      rcases mine with rfl | rfl
      · exact ⟨i + stride, by omega, rfl, .inr ⟨rfl, lower⟩⟩
      · exact ⟨i, i.isLt, rfl, .inl rfl⟩
    · rw [high lower] at mine
      rcases mine with mine | mine <;> exact absurd mine (Set.notMem_empty _)
  have stored {i : Fin w} {place : κ} (mine : place ∈ (foot i).writes) :
      place = cell i ∧ i.val < stride := by
    by_cases lower : i.val < stride
    · rw [low lower] at mine
      exact ⟨mine, lower⟩
    · rw [high lower] at mine
      exact absurd mine (Set.notMem_empty _)
  refine Finishes.stage foot (fun _ => ⟨⟩) _ (fun i => ⟨?_, ?_⟩) (fun i j other => ?_)
    (fun i => ?_) (fun place unwritten => ?_) later
  · intro place mine
    obtain ⟨t, inside, rfl, -⟩ := touched mine
    exact .inr (own t inside)
  · intro place mine
    obtain ⟨rfl, -⟩ := stored mine
    exact own i i.isLt
  · refine Set.disjoint_left.2 fun place mine yours => ?_
    obtain ⟨rfl, lower⟩ := stored mine
    obtain ⟨t, inside, same, here | ⟨here, -⟩⟩ := touched yours
    · exact other (Fin.ext ((apart i.isLt inside same).trans here))
    · have := apart i.isLt inside same
      omega
  · by_cases lower : i.val < stride
    · rw [low lower, halve, if_pos lower]
      refine ⟨.inr rfl, .inl rfl, rfl, rfl, fun place mine => ?_⟩
      obtain rfl : place = cell i := mine
      rw [Function.update_self, spread_cell apart i.isLt, spread_cell apart i.isLt,
        spread_cell apart (by omega), halved, if_pos lower]
    · rw [high lower, halve, if_neg lower]
      exact ⟨rfl, fun place mine => absurd mine (Set.notMem_empty _)⟩
  · by_cases on : ∃ t < w, cell t = place
    · obtain ⟨t, inside, rfl⟩ := on
      have upper : ¬ t < stride := fun lower => unwritten ⟨t, inside⟩ (by
        rw [low lower]
        exact rfl)
      rw [spread_cell apart inside, spread_cell apart inside, halved, if_neg upper]
    · have off : ∀ t < w, cell t ≠ place := fun t inside same => on ⟨t, inside, same⟩
      rw [spread_off off, spread_off off]

/-- All strides. -/
theorem finishes_halveAll {strides : List ℕ} (fits : ∀ stride ∈ strides, 2 * stride ≤ w)
    {next : Fin w → Code κ β PUnit}
    (later : Finishes area next (spread cell w (tree op strides values) cells) post) :
    Finishes area (fun i : Fin w => halveAll op cell i strides >>= fun _ => next i)
      (spread cell w values cells) post := by
  induction strides generalizing values with
  | nil => exact later
  | cons stride strides inductionHypothesis =>
      have onward : Finishes area (fun i : Fin w => halveAll op cell i strides >>= fun _ => next i)
          (spread cell w (halved op stride values) cells) post :=
        inductionHypothesis (fun stride member => fits stride (List.mem_cons_of_mem _ member)) later
      have turn := finishes_halve apart own (fits stride List.mem_cons_self) onward
      simpa only [halveAll, bind_assoc] using turn

/-- Every thread makes its value of cells that the reduction does not use; after the reduction it
has the tree of all values. -/
theorem finishes_reduce (some_thread : 0 < w) {strides : List ℕ}
    (fits : ∀ stride ∈ strides, 2 * stride ≤ w) {make : Fin w → Code κ β β} {reads : Set κ}
    (known : reads ⊆ area.cells) (free : ∀ t < w, cell t ∉ reads)
    (makes : ∀ i, Returns ⟨reads, ∅⟩ (make i) cells fun value m => value = values i ∧ m = cells)
    {next : Fin w → β → Code κ β PUnit}
    (later : Finishes area (fun i => next i (tree op strides values 0))
      (spread cell w (tree op strides values) cells) post) :
    Finishes area
      (fun i : Fin w => make i >>= fun value => reduce op cell strides value i >>= next i)
      cells post := by
  have last : Finishes area (fun i : Fin w =>
      Code.read (cell 0) >>= fun result => Code.barrier >>= fun _ => next i result)
      (spread cell w (tree op strides values) cells) post := by
    refine Finishes.stage (fun _ => ⟨{cell 0}, ∅⟩) (fun _ => tree op strides values 0) _
      (fun i => ⟨?_, Set.empty_subset _⟩) (fun i j _ => Set.disjoint_left.2 fun _ mine => ?_)
      (fun i => ⟨.inl rfl, ?_, fun _ mine => absurd mine (Set.notMem_empty _)⟩) (fun _ _ => rfl)
      later
    · rintro place (rfl | mine)
      · exact .inr (own 0 some_thread)
      · exact absurd mine (Set.notMem_empty _)
    · exact absurd mine (Set.notMem_empty _)
    · exact spread_cell apart some_thread
  have first : Finishes area (fun i : Fin w =>
      (make i >>= fun value => Code.write (cell i) value) >>= fun _ => Code.barrier >>= fun _ =>
        halveAll op cell i strides >>= fun _ =>
          Code.read (cell 0) >>= fun result => Code.barrier >>= fun _ => next i result)
      cells post := by
    refine Finishes.stage (fun i => ⟨reads, {cell i}⟩) (fun _ => ⟨⟩) (spread cell w values cells)
      (fun i => ⟨?_, ?_⟩) (fun i j other => ?_) (fun i => ?_)
      (fun place unwritten => ?_) (finishes_halveAll apart own fits last)
    · rintro place (mine | rfl)
      · exact known mine
      · exact .inr (own i i.isLt)
    · rintro place rfl
      exact own i i.isLt
    · refine Set.disjoint_left.2 ?_
      rintro place rfl (mine | same)
      · exact free i i.isLt mine
      · exact other (Fin.ext (apart i.isLt j.isLt same))
    · refine Returns.bind (((makes i).mono ?_ ?_).weaken ?_)
      · exact Set.union_subset (Set.subset_union_left) (Set.empty_subset _)
      · exact Set.empty_subset _
      · rintro value m ⟨rfl, rfl⟩
        refine ⟨rfl, rfl, fun place mine => ?_⟩
        obtain rfl : place = cell i := mine
        rw [Function.update_self, spread_cell apart i.isLt]
    · exact spread_off fun t inside same => unwritten ⟨t, inside⟩ same.symm
  simpa only [reduce, bind_assoc, pure_bind] using first

end Group

end DressOn.TreeReductions
