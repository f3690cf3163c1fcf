import DressOn.Ggml.Argsort
import DressOn.Lib.TreeReductions

/-!
# Row kernels

SUM_ROWS, MEAN, NORM, RMS_NORM and SOFT_MAX have one work group for each row: its threads go over
the row a group's width apart, reduce what they found in shared memory, and write. The serial
siblings do the same with one thread and an array of its own. Nothing is assumed of the float
operations. Sources other than the first are refused, and are not modelled.
-/

namespace DressOn.Ggml.Rows

open ThreadGroups TreeReductions
open Move (Block fillBlock off4 maxWord)
open Launch (Grid grid1d)
open Argsort (inRow)

/-- The float operations of the kernels. -/
structure Floats (F : Type) where
  add : F → F → F
  sub : F → F → F
  mul : F → F → F
  div : F → F → F
  max : F → F → F
  exp : F → F
  sqrt : F → F
  zero : F
  one : F
  negInf : F
  ofWord : UInt32 → F
  isZero : F → Bool

inductive RowOp where
  | sumRows
  | mean
  | norm
  | rmsNorm
  | softMax
deriving DecidableEq

/-- The threads of a kernel: `2 ^ levels`. -/
inductive Width where
  | t64
  | t256
deriving DecidableEq

namespace Width

def levels : Width → ℕ
  | .t64 => 6
  | .t256 => 8

/-- The thread-group size. -/
def threads (width : Width) : ℕ := 2 ^ width.levels

theorem threads_pos (width : Width) : 0 < width.threads := Nat.two_pow_pos _

theorem threads_le (width : Width) : width.threads ≤ 256 := by
  cases width <;> decide

end Width

variable {F : Type} (floats : Floats F)

/-- A node with one source: `op_params[0]` is the scale of SOFT_MAX and the eps of the norms,
`op_params[1]` the bias of SOFT_MAX. -/
structure Node (F : Type) where
  op : RowOp
  dst : Move.Tensor
  src : Move.Tensor
  param : F
  maxBias : F

namespace Node

variable (node : Node F)

/-- `rows_f32_unary`. -/
def rowsF32Unary : Bool :=
  node.dst.type == .f32 && node.src.type == .f32 && node.dst.fits && node.src.fits

/-- `supports_sum_rows` and `supports_mean`, `supports_norm`, `supports_soft_max`. -/
def supports : Bool :=
  node.rowsF32Unary && match node.op with
    | .sumRows | .mean =>
      decide (node.dst.ne 0 = 1 ∧ node.dst.ne 1 = node.src.ne 1 ∧ node.dst.ne 2 = node.src.ne 2 ∧
        node.dst.ne 3 = node.src.ne 3)
    | .norm | .rmsNorm => decide (∀ k, node.src.ne k = node.dst.ne k)
    | .softMax => decide (∀ k, node.src.ne k = node.dst.ne k) && floats.isZero node.maxBias

/-- `kShortRow`. -/
def kShortRow : ℕ := 1024

/-- `pick_threads`: `forced` is `GGML_RD_ROW_THREADS`, as `atoi` reads it. -/
def pickThreads (forced : Option ℤ) : Width :=
  if forced = some 64 then .t64
  else if forced = some 256 then .t256
  else if node.src.ne 0 ≤ kShortRow then .t64 else .t256

/-- The kernel that the packers of the ops name. -/
def width (forced : Option ℤ) : Width :=
  match node.op with
  | .sumRows | .mean => .t256
  | .norm | .rmsNorm | .softMax => node.pickThreads forced

end Node

/-- The words the kernels read: the blocks at words 1 and 10, word 37, word 55. -/
structure Slot (F : Type) where
  dst : Block
  src0 : Block
  param : F
  rows : UInt32

/-- A packed dispatch. -/
structure Packed (F : Type) where
  op : RowOp
  width : Width
  slot : Slot F
  grid : Grid

/-- `pack_rows`, after `fill_standard`. -/
def Node.pack (node : Node F) (forced : Option ℤ) : Option (Packed F) :=
  if node.supports floats then
    (fillBlock node.dst).bind fun dst => (fillBlock node.src).bind fun src0 =>
      let rows := node.src.ne 1 * node.src.ne 2 * node.src.ne 3 % 2 ^ 64
      let tg := (node.width forced).threads
      if rows = 0 ∨ maxWord / tg < rows then none
      else (grid1d tg (rows * tg)).map fun grid =>
        ⟨node.op, node.width forced, ⟨dst, src0, node.param, UInt32.ofNat rows⟩, grid⟩
  else none

/-! ## The kernels -/

/-- A word of a buffer, or an element of `sh` of a group. -/
inductive Cell where
  | shared (gidY gidX : ℕ) (t : ℕ)
  | word (buffer : ℕ) (index : ℕ)
deriving DecidableEq

/-- What `main` reads at its start: where the row starts in the source's and the destination's
buffer, its strides and its length. -/
structure Row where
  s0 : ℕ
  dst : ℕ
  xb : UInt32
  xs : UInt32
  yb : UInt32
  ys : UInt32
  n : UInt32

/-- The row of a group. -/
def rowAt (w : Slot F) (s0 dst : ℕ) (row : UInt32) : Row :=
  let r1 := row % w.src0.ne 1
  let rr := row / w.src0.ne 1
  let r2 := rr % w.src0.ne 2
  let r3 := rr / w.src0.ne 2
  { s0, dst
    xb := off4 w.src0 ![0, r1, r2, r3]
    xs := w.src0.nb 0
    yb := off4 w.dst ![0, r1, r2, r3]
    ys := w.dst.nb 0
    n := w.src0.ne 0 }

namespace Row

variable (row : Row)

/-- The cell of `s0` at a place of the row. -/
def source (i : UInt32) : Cell := .word row.s0 (row.xb + i * row.xs).toNat

/-- The cell of `dst` at a place of the row. -/
def target (j : UInt32) : Cell := .word row.dst (row.yb + j * row.ys).toNat

/-- The loop over the elements of a lane. -/
def loop (stride : UInt32) (take : F → F → F) (i : UInt32) (acc : F) : Code Cell F F :=
  along row.n stride (fun acc i => do
    let x ← Code.read (row.source i)
    return take acc x) i acc

/-- The loop that writes the elements of a lane. -/
def storeLoop (stride : UInt32) (give : F → F) (j : UInt32) : Code Cell F PUnit :=
  along row.n stride (fun _ j => do
    let x ← Code.read (row.source j)
    Code.write (row.target j) (give x)) j ⟨⟩

end Row

/-- How the threads of a kernel go over a row: a reduction of all its elements, and the writing of
an element for each of its own. -/
structure Ways (F : Type) where
  pass : (F → F → F) → F → (F → F → F) → Code Cell F F
  each : (F → F) → Code Cell F PUnit
  once : F → Code Cell F PUnit

/-- The kernels, by the ways of their threads. -/
def body (op : RowOp) (param : F) (n : UInt32) (ways : Ways F) : Code Cell F PUnit :=
  match op with
  | .sumRows => do
    let sumx ← ways.pass floats.add floats.zero floats.add
    ways.once sumx
  | .mean => do
    let sumx ← ways.pass floats.add floats.zero floats.add
    ways.once (floats.div sumx (floats.ofWord n))
  | .norm => do
    let sumx ← ways.pass floats.add floats.zero floats.add
    let mean := floats.div sumx (floats.ofWord n)
    let sumd ← ways.pass floats.add floats.zero fun acc x =>
      floats.add acc (floats.mul (floats.sub x mean) (floats.sub x mean))
    let variance := floats.div sumd (floats.ofWord n)
    let scale := floats.div floats.one (floats.sqrt (floats.add variance param))
    ways.each fun x => floats.mul (floats.sub x mean) scale
  | .rmsNorm => do
    let sumsq ← ways.pass floats.add floats.zero fun acc x => floats.add acc (floats.mul x x)
    let ms := floats.div sumsq (floats.ofWord n)
    let scale := floats.div floats.one (floats.sqrt (floats.add ms param))
    ways.each fun x => floats.mul x scale
  | .softMax => do
    let mx ← ways.pass floats.max floats.negInf fun acc x => floats.max acc (floats.mul x param)
    let sume ← ways.pass floats.add floats.zero fun acc x =>
      floats.add acc (floats.exp (floats.sub (floats.mul x param) mx))
    let inv := floats.div floats.one sume
    ways.each fun x => floats.mul (floats.exp (floats.sub (floats.mul x param) mx)) inv

/-- Thread `t` of a group. -/
def threadWays (row : Row) (width : Width) (gidY gidX t : ℕ) : Ways F where
  pass op start take := do
    let acc ← row.loop (UInt32.ofNat width.threads) take (UInt32.ofNat t) start
    reduce op (Cell.shared gidY gidX) (halvings width.levels) acc t
  each give := row.storeLoop (UInt32.ofNat width.threads) give (UInt32.ofNat t)
  once value := if t = 0 then Code.write (row.target 0) value else pure ⟨⟩

/-- The one thread of a serial sibling: `sh` is its own. -/
def serialWays (row : Row) (width : Width) : Ways F where
  pass op start take := do
    let sh ← (List.range width.threads).foldlM (fun sh t => do
      let acc ← row.loop (UInt32.ofNat width.threads) take (UInt32.ofNat t) start
      pure (Function.update sh t acc)) fun _ => start
    let sh := (halvings width.levels).foldl (fun sh stride =>
      (List.range stride).foldl (fun sh t => Function.update sh t (op (sh t) (sh (t + stride)))) sh)
      sh
    pure (sh 0)
  each give := row.storeLoop 1 give 0
  once value := Code.write (row.target 0) value

/-- `main` of a group: the row's body, where there is one. -/
def main (packed : Packed F) (s0 dst : ℕ) (gidY gidX : ℕ) (ways : Row → Ways F) :
    Code Cell F PUnit :=
  let row := UInt32.ofNat gidY * packed.grid.groupsX + UInt32.ofNat gidX
  if packed.slot.rows ≤ row then pure ⟨⟩
  else
    let here := rowAt packed.slot s0 dst row
    body floats packed.op packed.slot.param here.n (ways here)

/-! ## One row -/

/-- What the threads of a kernel find in their lanes. -/
def lanes (width : Width) (start : F) (take : F → F → F) (n : ℕ) (x : ℕ → F) (t : ℕ) : F :=
  (lane n width.threads t).foldl (fun acc c => take acc (x c)) start

/-- What a pass over a row comes to. -/
def passed (width : Width) (op : F → F → F) (start : F) (take : F → F → F) (n : ℕ) (x : ℕ → F) :
    F :=
  tree op (halvings width.levels) (lanes width start take n x) 0

/-- The element that a kernel writes at a place of a row of elements `x`. -/
def result (op : RowOp) (width : Width) (param : F) (n : UInt32) (x : ℕ → F) (c : ℕ) : F :=
  let pass op start take := passed width op start take n.toNat x
  match op with
  | .sumRows => pass floats.add floats.zero floats.add
  | .mean => floats.div (pass floats.add floats.zero floats.add) (floats.ofWord n)
  | .norm =>
    let mean := floats.div (pass floats.add floats.zero floats.add) (floats.ofWord n)
    let sumd := pass floats.add floats.zero fun acc x =>
      floats.add acc (floats.mul (floats.sub x mean) (floats.sub x mean))
    let variance := floats.div sumd (floats.ofWord n)
    floats.mul (floats.sub (x c) mean)
      (floats.div floats.one (floats.sqrt (floats.add variance param)))
  | .rmsNorm =>
    let sumsq := pass floats.add floats.zero fun acc x => floats.add acc (floats.mul x x)
    let ms := floats.div sumsq (floats.ofWord n)
    floats.mul (x c) (floats.div floats.one (floats.sqrt (floats.add ms param)))
  | .softMax =>
    let mx := pass floats.max floats.negInf fun acc x => floats.max acc (floats.mul x param)
    let sume := pass floats.add floats.zero fun acc x =>
      floats.add acc (floats.exp (floats.sub (floats.mul x param) mx))
    floats.mul (floats.exp (floats.sub (floats.mul (x c) param) mx)) (floats.div floats.one sume)

/-- How many elements a kernel writes in a row of `n`. -/
def RowOp.written (op : RowOp) (n : ℕ) : ℕ :=
  match op with
  | .sumRows | .mean => 1
  | .norm | .rmsNorm | .softMax => n

section OneRow

variable {row : Row} {width : Width} {cells : Cell → F}

/-- The cell of the source at a place. -/
abbrev Row.source' (row : Row) (c : ℕ) : Cell := row.source (UInt32.ofNat c)

/-- The cell of the destination at a place. -/
abbrev Row.target' (row : Row) (c : ℕ) : Cell := row.target (UInt32.ofNat c)

/-- The loop over a lane takes its elements in, one after another. -/
theorem Row.loop_returns {stride : UInt32} (pos : 0 < stride.toNat)
    (noWrap : row.n.toNat + stride.toNat ≤ 2 ^ 32) (take : F → F → F) {reads : Set Cell}
    (known : ∀ c < row.n.toNat, row.source' c ∈ reads) {i : UInt32}
    (inside : ∀ c ∈ lane row.n.toNat stride.toNat i.toNat, c < row.n.toNat) (acc : F) :
    Returns ⟨reads, ∅⟩ (row.loop stride take i acc) cells fun value m =>
      value = (lane row.n.toNat stride.toNat i.toNat).foldl
        (fun acc c => take acc (cells (row.source' c))) acc ∧ m = cells := by
  rw [Row.loop, along_eq_foldlM pos noWrap]
  refine Returns.foldlM (fun before value m => value = before.foldl
    (fun acc c => take acc (cells (row.source' c))) acc ∧ m = cells) ?_ ⟨rfl, rfl⟩
    fun _ _ ends => ends
  rintro before c later split value m ⟨rfl, rfl⟩
  refine ⟨.inl (known c (inside c (split ▸ List.mem_append_cons_self))), ?_, rfl⟩
  rw [List.foldl_append]
  rfl

/-- The loop that writes leaves every element of its lane. -/
theorem Row.storeLoop_returns {stride : UInt32} (pos : 0 < stride.toNat)
    (noWrap : row.n.toNat + stride.toNat ≤ 2 ^ 32) (give : F → F)
    (apart : Set.InjOn row.target' {c | c < row.n.toNat})
    (spares : ∀ c < row.n.toNat, ∀ d < row.n.toNat, row.target' c = row.source' d → c = d)
    {area : Territory Cell} {j : UInt32}
    (known : ∀ c ∈ lane row.n.toNat stride.toNat j.toNat, c < row.n.toNat ∧
      row.source' c ∈ area.reads ∧ row.target' c ∈ area.writes) :
    Returns area (row.storeLoop stride give j) cells fun _ m =>
      ∀ c ∈ lane row.n.toNat stride.toNat j.toNat,
        m (row.target' c) = give (cells (row.source' c)) := by
  rw [Row.storeLoop, along_eq_foldlM pos noWrap]
  refine Returns.foldlM (fun before _ m =>
    (∀ c ∈ before, m (row.target' c) = give (cells (row.source' c))) ∧
      ∀ c < row.n.toNat, c ∉ before → m (row.source' c) = cells (row.source' c)) ?_
    ⟨fun c none_ => absurd none_ List.not_mem_nil, fun _ _ _ => rfl⟩ fun _ _ ends => ends.1
  rintro before c later split - m ⟨written, kept⟩
  have once : c ∉ before := by
    have nodup : (lane row.n.toNat stride.toNat j.toNat).Nodup := nodup_lane pos
    rw [split, List.nodup_append] at nodup
    exact fun earlier => nodup.2.2 c earlier c List.mem_cons_self rfl
  have early (d : ℕ) (earlier : d ∈ before) : d < row.n.toNat :=
    (known d (split ▸ List.mem_append_left _ earlier)).1
  obtain ⟨inside, source, target⟩ := known c (split ▸ List.mem_append_cons_self)
  refine ⟨.inl source, target, fun d member => ?_, fun d inside' later => ?_⟩
  · rcases List.mem_append.1 member with earlier | last
    · have other : row.target' d ≠ row.target' c := fun same =>
        once (apart (early d earlier) inside same ▸ earlier)
      rw [Function.update_of_ne other, written d earlier]
    · obtain rfl := List.mem_singleton.1 last
      exact (Function.update_self _ _ _).trans (congrArg give (kept d inside once))
  · rw [List.mem_append, List.mem_singleton, not_or] at later
    have other : row.source' d ≠ row.target' c := fun same =>
      later.2 (spares c inside d inside' same.symm).symm
    rw [Function.update_of_ne other, kept d inside' later.1]

/-- What a row's kernel may be handed: its words are apart, and it does not wrap. -/
structure Row.Fair (row : Row) (written : ℕ) : Prop where
  short : row.n.toNat + 256 ≤ 2 ^ 32
  apart : Set.InjOn row.target' {c | c < written}
  spares : ∀ c < written, ∀ d < row.n.toNat, row.target' c = row.source' d → c = d

/-- The cells of a group. -/
def Row.area (row : Row) (width : Width) (written gidY gidX : ℕ) : Territory Cell where
  reads := {place | ∃ c < row.n.toNat, place = row.source' c}
  writes := {place | (∃ t < width.threads, place = .shared gidY gidX t) ∨
    ∃ c < written, place = row.target' c}

theorem shared_injOn (gidY gidX : ℕ) (s : Set ℕ) : Set.InjOn (Cell.shared gidY gidX) s :=
  fun _ _ _ _ same => (Cell.shared.inj same).2.2

theorem toNat_threads (width : Width) : (UInt32.ofNat width.threads).toNat = width.threads :=
  UInt32.toNat_ofNat_of_lt' (width.threads_le.trans_lt (by decide))

theorem toNat_thread {width : Width} (i : Fin width.threads) : (UInt32.ofNat i).toNat = i :=
  UInt32.toNat_ofNat_of_lt' ((i.isLt.trans_le width.threads_le).trans (by decide))

variable {written gidY gidX : ℕ} {x : ℕ → F} {post : (Cell → F) → Prop}

/-- A memory with the row's elements. -/
def Row.Loaded (row : Row) (cells : Cell → F) (x : ℕ → F) : Prop :=
  ∀ c < row.n.toNat, cells (row.source' c) = x c

/-- The lane of a thread. -/
theorem Row.lane_returns (short : row.n.toNat + 256 ≤ 2 ^ 32) (loaded : row.Loaded cells x)
    (start : F) (take : F → F → F) {t : ℕ} (own : t < width.threads) :
    Returns ⟨{place | ∃ c < row.n.toNat, place = row.source' c}, ∅⟩
      (row.loop (UInt32.ofNat width.threads) take (UInt32.ofNat t) start) cells
      fun value m => value = lanes width start take row.n.toNat x t ∧ m = cells := by
  have threads := toNat_threads width
  have most := width.threads_le
  have thread : (UInt32.ofNat t).toNat = t := toNat_thread ⟨t, own⟩
  have known (c : ℕ) (inside : c < row.n.toNat) :
      row.source' c ∈ {place | ∃ c < row.n.toNat, place = row.source' c} := ⟨c, inside, rfl⟩
  refine (row.loop_returns (threads.symm ▸ width.threads_pos) (by omega) take known
    (fun c member => ?_) start).weaken ?_
  · rw [threads, thread] at member
    exact ((mem_lane own).1 member).1
  · rintro value m ⟨rfl, rfl⟩
    refine ⟨?_, rfl⟩
    rw [threads, thread, lanes]
    refine List.foldl_ext _ _ _ fun acc c member => ?_
    rw [loaded c ((mem_lane own).1 member).1]

variable (fair : row.Fair written) (loaded : row.Loaded cells x)

include fair loaded

/-- A pass over the row: every thread goes on with what the pass comes to. -/
theorem finishes_pass (op : F → F → F) (start : F) (take : F → F → F)
    {next : Fin width.threads → F → Code Cell F PUnit}
    (later : ∀ m, row.Loaded m x → Finishes (row.area width written gidY gidX)
      (fun i => next i (passed width op start take row.n.toNat x)) m post) :
    Finishes (row.area width written gidY gidX)
      (fun i : Fin width.threads =>
        (threadWays row width gidY gidX i).pass op start take >>= next i) cells post := by
  have own (t : ℕ) (inside : t < width.threads) :
      Cell.shared gidY gidX t ∈ (row.area width written gidY gidX).writes := .inl ⟨t, inside, rfl⟩
  have free (t : ℕ) (_ : t < width.threads) :
      Cell.shared gidY gidX t ∉ {place | ∃ c < row.n.toNat, place = row.source' c} := by
    rintro ⟨c, -, same⟩
    cases same
  have kept (values : ℕ → F) :
      row.Loaded (spread (Cell.shared gidY gidX) width.threads values cells) x := by
    intro c inside
    rw [spread_off fun t _ same => by cases same]
    exact loaded c inside
  have fits (stride : ℕ) (member : stride ∈ halvings width.levels) : 2 * stride ≤ width.threads :=
    two_mul_le_of_mem_halvings member
  have after := finishes_reduce (shared_injOn gidY gidX _) own width.threads_pos fits
    Set.subset_union_left free (fun i => Row.lane_returns fair.short loaded start take i.isLt)
    (later _ (kept _))
  simpa only [threadWays, bind_assoc] using after

/-- Each element of the row is written by the thread of its lane. -/
theorem finishes_each (all : written = row.n.toNat) (give : F → F)
    (ends : ∀ m, (∀ c < written, m (row.target' c) = give (x c)) → post m) :
    Finishes (row.area width written gidY gidX)
      (fun i : Fin width.threads => (threadWays row width gidY gidX i).each give) cells post := by
  have short := fair.short
  have threads := toNat_threads width
  have most := width.threads_le
  let after := spread row.target' written (fun c => give (x c)) cells
  refine Finishes.last (fun i => ⟨{place | ∃ c ∈ lane row.n.toNat width.threads i,
      place = row.source' c}, {place | ∃ c ∈ lane row.n.toNat width.threads i,
      place = row.target' c}⟩) after (fun i => ⟨?_, ?_⟩) (fun i j other => ?_) (fun i => ?_)
    (fun place unwritten => ?_) (ends _ fun c inside => spread_cell fair.apart inside)
  · rintro place (⟨c, member, rfl⟩ | ⟨c, member, rfl⟩)
    · exact .inl ⟨c, ((mem_lane i.isLt).1 member).1, rfl⟩
    · exact .inr (.inr ⟨c, all ▸ ((mem_lane i.isLt).1 member).1, rfl⟩)
  · rintro place ⟨c, member, rfl⟩
    exact .inr ⟨c, all ▸ ((mem_lane i.isLt).1 member).1, rfl⟩
  · refine Set.disjoint_left.2 ?_
    rintro place ⟨c, member, rfl⟩ yours
    obtain ⟨inside, mine⟩ := (mem_lane i.isLt).1 member
    have same : ∃ d ∈ lane row.n.toNat width.threads j, c = d := by
      rcases yours with ⟨d, member, same⟩ | ⟨d, member, same⟩
      · exact ⟨d, member, fair.spares c (all ▸ inside) d ((mem_lane j.isLt).1 member).1 same⟩
      · exact ⟨d, member, fair.apart (all ▸ inside : c < written)
          (all ▸ ((mem_lane j.isLt).1 member).1 : d < written) same⟩
    obtain ⟨d, member, rfl⟩ := same
    exact other (Fin.ext (mine.symm.trans ((mem_lane j.isLt).1 member).2))
  · refine (row.storeLoop_returns (threads.symm ▸ width.threads_pos) (by omega) give
      (all ▸ fair.apart) (all ▸ fair.spares) (fun c member => ?_)).weaken ?_
    · rw [threads, toNat_thread] at member
      exact ⟨((mem_lane i.isLt).1 member).1, ⟨c, member, rfl⟩, c, member, rfl⟩
    · rintro - m done place ⟨c, member, rfl⟩
      have inside := ((mem_lane i.isLt).1 member).1
      rw [threads, toNat_thread] at done
      rw [done c member, loaded c inside]
      have spread_here : after (row.target' c) = give (x c) :=
        spread_cell fair.apart (all ▸ inside : c < written)
      exact spread_here.symm
  · refine spread_off fun c inside same => ?_
    have own : c % width.threads < width.threads := Nat.mod_lt _ width.threads_pos
    exact unwritten ⟨c % width.threads, own⟩
      ⟨c, (mem_lane own).2 ⟨all ▸ inside, rfl⟩, same.symm⟩

omit fair loaded in
/-- The first thread writes the row's value. -/
theorem finishes_once (one : written = 1) (value : F)
    (ends : ∀ m, (∀ c < written, m (row.target' c) = value) → post m) :
    Finishes (row.area width written gidY gidX)
      (fun i : Fin width.threads => (threadWays row width gidY gidX i).once value) cells post := by
  have first (i : Fin width.threads) (here : i.val = 0) :
      (threadWays row width gidY gidX i).once value = Code.write (row.target 0) value := if_pos here
  have idle (i : Fin width.threads) (away : i.val ≠ 0) :
      (threadWays row width gidY gidX i).once value = pure ⟨⟩ := if_neg away
  refine Finishes.last (fun i => ⟨∅, {place | i.val = 0 ∧ place = row.target 0}⟩)
    (Function.update cells (row.target 0) value) (fun i => ⟨?_, ?_⟩) (fun i j other => ?_)
    (fun i => ?_) (fun place unwritten => ?_) (ends _ fun c inside => ?_)
  · rintro place (none_ | ⟨-, rfl⟩)
    · exact absurd none_ (Set.notMem_empty _)
    · exact .inr (.inr ⟨0, by omega, rfl⟩)
  · rintro place ⟨-, rfl⟩
    exact .inr ⟨0, by omega, rfl⟩
  · refine Set.disjoint_left.2 ?_
    rintro place ⟨mine, -⟩ (none_ | ⟨yours, -⟩)
    · exact absurd none_ (Set.notMem_empty _)
    · exact other (Fin.ext (mine.trans yours.symm))
  · by_cases here : i.val = 0
    · rw [first i here]
      exact ⟨⟨here, rfl⟩, fun _ _ => rfl⟩
    · rw [idle i here]
      rintro place ⟨mine, -⟩
      exact absurd mine here
  · refine Function.update_of_ne (fun same => ?_) _ _
    exact unwritten ⟨0, width.threads_pos⟩ ⟨rfl, same⟩
  · obtain rfl : c = 0 := by omega
    exact Function.update_self _ _ _

end OneRow

section Body

variable {row : Row} {width : Width} {cells : Cell → F} {op : RowOp} {x : ℕ → F}
  (fair : row.Fair (op.written row.n.toNat)) (loaded : row.Loaded cells x) (param : F)

include fair loaded

/-- The threads of a group leave the results of their row. -/
theorem finishes_body (gidY gidX : ℕ) :
    Finishes (row.area width (op.written row.n.toNat) gidY gidX)
      (fun i : Fin width.threads => body floats op param row.n (threadWays row width gidY gidX i))
      cells fun m => ∀ c < op.written row.n.toNat,
        m (row.target' c) = result floats op width param row.n x c := by
  cases op with
  | sumRows =>
      refine finishes_pass fair loaded _ _ _ fun m loaded => ?_
      exact finishes_once rfl _ fun _ done => done
  | mean =>
      refine finishes_pass fair loaded _ _ _ fun m loaded => ?_
      exact finishes_once rfl _ fun _ done => done
  | norm =>
      refine finishes_pass fair loaded _ _ _ fun m loaded => ?_
      refine finishes_pass fair loaded _ _ _ fun m loaded => ?_
      exact finishes_each fair loaded rfl _ fun _ done => done
  | rmsNorm =>
      refine finishes_pass fair loaded _ _ _ fun m loaded => ?_
      exact finishes_each fair loaded rfl _ fun _ done => done
  | softMax =>
      refine finishes_pass fair loaded _ _ _ fun m loaded => ?_
      refine finishes_pass fair loaded _ _ _ fun m loaded => ?_
      exact finishes_each fair loaded rfl _ fun _ done => done

end Body

section Serial

variable {row : Row} {width : Width} {cells : Cell → F} {x : ℕ → F}

/-- One thread that takes every lane in turn has the pass of the row. -/
theorem serial_pass_returns (short : row.n.toNat + 256 ≤ 2 ^ 32) (loaded : row.Loaded cells x)
    (fold : F → F → F) (start : F) (take : F → F → F) :
    Returns ⟨{place | ∃ c < row.n.toNat, place = row.source' c}, ∅⟩
      ((serialWays row width).pass fold start take) cells
      fun value m => value = passed width fold start take row.n.toNat x ∧ m = cells := by
  refine Returns.bind (Returns.foldlM (fun before sh m => m = cells ∧
    ∀ t ∈ before, sh t = lanes width start take row.n.toNat x t) ?_
    ⟨rfl, fun t none_ => absurd none_ List.not_mem_nil⟩ ?_)
  · rintro before t later split sh m ⟨rfl, filled⟩
    have own : t < width.threads := List.mem_range.1 (split ▸ List.mem_append_cons_self)
    refine Returns.look Set.subset_union_left (Row.lane_returns short loaded start take own) ?_
    refine ⟨rfl, fun i member => ?_⟩
    by_cases last : i = t
    · subst last
      exact Function.update_self _ _ _
    · rw [Function.update_of_ne last]
      rcases List.mem_append.1 member with earlier | same
      · exact filled i earlier
      · exact absurd (List.mem_singleton.1 same) last
  · rintro sh m ⟨rfl, filled⟩
    refine ⟨?_, rfl⟩
    simp only [foldl_update_eq_halved]
    exact tree_congr fun t inside => filled t (List.mem_range.2 inside)

/-- The cells of a serial row. -/
def Row.serialArea (row : Row) (written : ℕ) : Territory Cell where
  reads := {place | ∃ c < row.n.toNat, place = row.source' c}
  writes := {place | ∃ c < written, place = row.target' c}

/-- One thread that goes on with the pass of the row. -/
theorem serial_pass_bind {written : ℕ} (fair : row.Fair written) (loaded : row.Loaded cells x)
    (fold : F → F → F) (start : F) (take : F → F → F) {next : F → Code Cell F PUnit}
    {post : PUnit → (Cell → F) → Prop}
    (later : Returns (row.serialArea written)
      (next (passed width fold start take row.n.toNat x)) cells post) :
    Returns (row.serialArea written)
      ((serialWays row width).pass fold start take >>= next) cells post := by
  exact Returns.look Set.subset_union_left
    (serial_pass_returns fair.short loaded fold start take) later

/-- One thread writes every element. -/
theorem serial_each_returns {written : ℕ} (fair : row.Fair written) (loaded : row.Loaded cells x)
    (all : written = row.n.toNat) (give : F → F) :
    Returns (row.serialArea written) ((serialWays row width).each give) cells fun _ m =>
      ∀ c < written, m (row.target' c) = give (x c) := by
  have short := fair.short
  have every (c : ℕ) : c ∈ lane row.n.toNat 1 0 ↔ c < row.n.toNat := by
    rw [mem_lane Nat.one_pos, Nat.mod_one, and_iff_left rfl]
  refine (row.storeLoop_returns (by decide) (by change _ + 1 ≤ _; omega) give
    (all ▸ fair.apart) (all ▸ fair.spares) (fun c member => ?_)).weaken ?_
  · have inside := (every c).1 member
    exact ⟨inside, ⟨c, inside, rfl⟩, c, all ▸ inside, rfl⟩
  · rintro - m done c inside
    have here := (every c).2 (all ▸ inside)
    rw [done c here, loaded c (all ▸ inside)]

/-- The one thread of a serial sibling leaves the results of its row. -/
theorem serial_body_returns {op : RowOp} (fair : row.Fair (op.written row.n.toNat))
    (loaded : row.Loaded cells x) (param : F) :
    Returns (row.serialArea (op.written row.n.toNat))
      (body floats op param row.n (serialWays row width)) cells fun _ m =>
        ∀ c < op.written row.n.toNat,
          m (row.target' c) = result floats op width param row.n x c := by
  have once (value : F) : Returns (row.serialArea 1) ((serialWays row width).once value) cells
      fun _ m => ∀ c < 1, m (row.target' c) = value := by
    refine ⟨⟨0, Nat.one_pos, rfl⟩, fun c inside => ?_⟩
    obtain rfl : c = 0 := by omega
    exact Function.update_self _ _ _
  cases op with
  | sumRows => exact serial_pass_bind fair loaded _ _ _ (once _)
  | mean => exact serial_pass_bind fair loaded _ _ _ (once _)
  | norm =>
      refine serial_pass_bind fair loaded _ _ _ (serial_pass_bind fair loaded _ _ _ ?_)
      exact serial_each_returns fair loaded rfl _
  | rmsNorm =>
      refine serial_pass_bind fair loaded _ _ _ ?_
      exact serial_each_returns fair loaded rfl _
  | softMax =>
      refine serial_pass_bind fair loaded _ _ _ (serial_pass_bind fair loaded _ _ _ ?_)
      exact serial_each_returns fair loaded rfl _

/-- A serial sibling finishes its row. -/
theorem serial_finishes {op : RowOp} (fair : row.Fair (op.written row.n.toNat))
    (loaded : row.Loaded cells x) (param : F) (gidY gidX : ℕ) :
    Finishes (row.area width (op.written row.n.toNat) gidY gidX)
      (fun _ : Fin 1 => body floats op param row.n (serialWays row width)) cells
      fun m => ∀ c < op.written row.n.toNat,
        m (row.target' c) = result floats op width param row.n x c := by
  let after := spread row.target' (op.written row.n.toNat)
    (fun c => result floats op width param row.n x c) cells
  have there (c : ℕ) (inside : c < op.written row.n.toNat) :
      after (row.target' c) = result floats op width param row.n x c :=
    spread_cell fair.apart inside
  refine Finishes.last (fun _ => row.serialArea (op.written row.n.toNat)) after
    (fun _ => ⟨?_, ?_⟩) (fun i j other => absurd (Subsingleton.elim i j) other) (fun _ => ?_)
    (fun place unwritten => ?_) there
  · exact Set.union_subset_union_right _ fun _ mine => .inr mine
  · exact fun _ mine => .inr mine
  · refine (serial_body_returns floats fair loaded param).weaken ?_
    rintro - m done place ⟨c, inside, rfl⟩
    rw [done c inside, there c inside]
  · exact spread_off fun c inside same => unwritten 0 ⟨c, inside, same.symm⟩

end Serial

end DressOn.Ggml.Rows
