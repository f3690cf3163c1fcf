import DressOn.Lib.Peaks
import DressOn.Common.Blake3

/-!
# The streaming hash is the hash of the tree

Bytes go in one after another, wherever the input is cut. What is absorbed so far is described by
the finished chunks, whose peaks are on the stack, and the finished blocks of the next chunk.
-/

namespace DressOn.Blake3

open Peaks

/-- The bytes of a chunk. -/
def chunkAt (whole : List UInt8) (n : ℕ) : List UInt8 := (whole.drop (CHUNK * n)).take CHUNK

/-- The bytes of a block. -/
def blockAt (bytes : List UInt8) (b : ℕ) : List UInt8 := (bytes.drop (BLOCK * b)).take BLOCK

/-- The flag of a chunk's first block. -/
def flagAt (b : ℕ) : UInt32 := if b = 0 then CHUNK_START else 0

/-- The chaining value after a number of blocks. -/
def chained (counter : UInt64) (bytes : List UInt8) : ℕ → Cv
  | 0 => IV
  | b + 1 => chaining (compress (chained counter bytes b) (words (blockAt bytes b)) counter 64
      (flagAt b))

/-- The node of a chunk: its last block, filled up with zeros, after all the others. -/
def chunkNode (counter : UInt64) (bytes : List UInt8) : Output :=
  let last := (bytes.length - 1) / BLOCK
  let block := blockAt bytes last
  { cv := chained counter bytes last
    block := words (block ++ List.replicate (BLOCK - block.length) 0)
    counter
    len := UInt32.ofNat block.length
    flags := flagAt last ||| CHUNK_END }

/-- The node of a chunk of a byte string. -/
def leaf (whole : List UInt8) (n : ℕ) : Output := chunkNode (UInt64.ofNat n) (chunkAt whole n)

/-- The chunks of a byte string. The empty one has an empty chunk. -/
def chunkCount (whole : List UInt8) : ℕ := (whole.length - 1) / CHUNK + 1

/-- The root of the hash tree: its left subtree has the largest power of two of chunks that leaves
some for the right. -/
def treeRoot (whole : List UInt8) : Output :=
  tree Output.chainingValue parent (leaf whole) 0 (chunkCount whole)

/-- The hash of a byte string, as the tree defines it. -/
def treeHex (whole : List UInt8) : String := (treeRoot whole).digest

/-- The chaining values of the peaks over a number of finished chunks. -/
abbrev stackOf (whole : List UInt8) : ℕ → ℕ → List Cv :=
  peaks Output.chainingValue parent (leaf whole)

theorem stackOf_double (whole : List UInt8) (level n : ℕ) :
    stackOf whole level (2 * n) = stackOf whole (level + 1) n := peaks_double ..

theorem stackOf_double_succ (whole : List UInt8) (level n : ℕ) :
    stackOf whole level (2 * n + 1) =
      (tree Output.chainingValue parent (leaf whole) (2 * n * 2 ^ level) (2 ^ level)).chainingValue ::
        stackOf whole (level + 1) n := peaks_double_succ ..

namespace Ctx

theorem update_nil (ctx : Ctx) : ctx.update [] = some ctx := by
  rw [update, if_pos rfl]

theorem update_cons (ctx : Ctx) (x : UInt8) (rest : List UInt8) :
    ctx.update (x :: rest) =
      ctx.flush.bind fun open_ctx => (open_ctx.1.fill (x :: rest)).update
        ((x :: rest).drop (open_ctx.1.take (x :: rest))) := by
  rw [update, if_neg (List.cons_ne_nil _ _)]
  cases ctx.flush <;> rfl

/-- A state with room is left as it is. -/
theorem flush_of_room (ctx : Ctx) (room : ctx.buf.length < BLOCK ∧ ctx.chunkBytes < CHUNK) :
    ctx.flush = some ⟨ctx, room⟩ := by
  rw [flush, dif_neg room.2.ne, flushBlock, dif_neg room.1.ne]

/-- A state with room takes a byte. -/
theorem take_singleton {ctx : Ctx} (room : ctx.buf.length < BLOCK ∧ ctx.chunkBytes < CHUNK)
    (x : UInt8) : ctx.take [x] = 1 := by
  obtain ⟨block, chunk⟩ := room
  rw [take, List.length_singleton]
  omega

@[simp] theorem buf_fill (ctx : Ctx) (p : List UInt8) :
    (ctx.fill p).buf = ctx.buf ++ p.take (ctx.take p) := rfl

theorem buf_fill_singleton {ctx : Ctx} (room : ctx.buf.length < BLOCK ∧ ctx.chunkBytes < CHUNK)
    (x : UInt8) : (ctx.fill [x]).buf = ctx.buf ++ [x] := by
  rw [buf_fill, take_singleton room, List.take_of_length_le (List.length_singleton.le)]

theorem chunkBytes_fill_singleton {ctx : Ctx}
    (room : ctx.buf.length < BLOCK ∧ ctx.chunkBytes < CHUNK) (x : UInt8) :
    (ctx.fill [x]).chunkBytes = ctx.chunkBytes + 1 := by
  rw [chunkBytes, buf_fill_singleton room, List.length_append]
  rfl

theorem fill_eq_self {ctx : Ctx} {p : List UInt8} (none_taken : ctx.take p = 0) :
    ctx.fill p = ctx := by
  ext1 <;> simp [fill, none_taken]

/-- What goes in beside a byte is what the byte leaves room for. -/
theorem take_cons {ctx : Ctx} (room : ctx.buf.length < BLOCK ∧ ctx.chunkBytes < CHUNK) (x : UInt8)
    (rest : List UInt8) : ctx.take (x :: rest) = (ctx.fill [x]).take rest + 1 := by
  obtain ⟨block, chunk⟩ := id room
  rw [take, take, chunkBytes_fill_singleton room, buf_fill_singleton room, List.length_append,
    List.length_singleton, List.length_cons]
  omega

/-- A byte at a time comes to the same state. -/
theorem update_cons_eq (ctx : Ctx) (x : UInt8) (rest : List UInt8) :
    ctx.update (x :: rest) = (ctx.update [x]).bind fun ctx => ctx.update rest := by
  rw [update_cons, update_cons]
  cases ctx.flush with
  | none => rfl
  | some open_ctx =>
  obtain ⟨ctx, room⟩ := open_ctx
  have one := take_singleton room x
  have more := take_cons room x rest
  have same : ctx.fill (x :: rest) = (ctx.fill [x]).fill rest := by
    ext1 <;> simp [fill, one, more]
  simp only [Option.bind_some, one, List.drop_succ_cons, List.drop_zero, update_nil, more, same]
  cases rest with
  | nil =>
    have none_left : (ctx.fill [x]).take [] = 0 := by simp [take]
    rw [fill_eq_self none_left, List.drop_nil]
  | cons y rest =>
    by_cases room : (ctx.fill [x]).buf.length < BLOCK ∧ (ctx.fill [x]).chunkBytes < CHUNK
    · rw [update_cons (ctx.fill [x]), flush_of_room _ room]
      rfl
    · have full : (ctx.fill [x]).take (y :: rest) = 0 := by
        simp only [take]
        omega
      rw [fill_eq_self full, full, List.drop_zero]

/-- The bytes go in one after another. -/
theorem update_eq_foldlM (ctx : Ctx) (p : List UInt8) :
    ctx.update p = p.foldlM (fun ctx x => ctx.update [x]) ctx := by
  induction p generalizing ctx with
  | nil => exact update_nil ctx
  | cons x rest inductionHypothesis =>
    rw [update_cons_eq, List.foldlM_cons]
    exact congrArg (Option.bind _) (funext inductionHypothesis)

/-- Two updates are one with both. -/
theorem update_append (ctx : Ctx) (first second : List UInt8) :
    ctx.update (first ++ second) = (ctx.update first).bind fun ctx => ctx.update second := by
  rw [update_eq_foldlM, List.foldlM_append, ← update_eq_foldlM]
  exact congrArg (Option.bind _) (funext fun ctx => (update_eq_foldlM ctx second).symm)

/-- Any number of updates, also empty ones, are one with the whole. -/
theorem foldlM_update (ctx : Ctx) (pieces : List (List UInt8)) :
    pieces.foldlM update ctx = ctx.update pieces.flatten := by
  induction pieces generalizing ctx with
  | nil => exact (update_nil ctx).symm
  | cons piece pieces inductionHypothesis =>
    rw [List.flatten_cons, update_append, List.foldlM_cons]
    exact congrArg (Option.bind _) (funext inductionHypothesis)

end Ctx

theorem and_one_eq_zero_iff (total : UInt64) : total &&& 1 = 0 ↔ total.toNat % 2 = 0 := by
  rw [← UInt64.toNat_inj, UInt64.toNat_and, ← Nat.and_one_is_mod]
  rfl

theorem toNat_half (total : UInt64) : (total >>> 1).toNat = total.toNat / 2 := by
  rw [UInt64.toNat_shiftRight, Nat.shiftRight_eq_div_pow]
  rfl

/-- After an odd number nothing is merged. -/
theorem pushChunk_odd {stack : List Cv} (cv : Cv) {total : UInt64} (odd : total.toNat % 2 = 1)
    (room : stack.length < 54) : pushChunk stack cv total = some (cv :: stack) := by
  have not_even : ¬ total &&& 1 = 0 := by
    rw [and_one_eq_zero_iff]
    omega
  cases stack with
  | nil => rw [pushChunk, if_neg not_even]
  | cons left rest =>
    rw [pushChunk, if_neg not_even]
    exact if_pos room

/-- A push of the next full tree leaves the peaks of one more. -/
theorem pushChunk_peaks (whole : List UInt8) (level n : ℕ) {total : UInt64}
    (count : total.toNat = n + 1) (few : n + 1 < 2 ^ 54) :
    pushChunk (stackOf whole level n)
        (tree Output.chainingValue parent (leaf whole) (n * 2 ^ level) (2 ^ level)).chainingValue
        total =
      some (stackOf whole level (n + 1)) := by
  induction n using Nat.strong_induction_on generalizing level total with
  | h n inductionHypothesis =>
    obtain ⟨half, rfl | rfl⟩ : ∃ half, n = 2 * half ∨ n = 2 * half + 1 := ⟨n / 2, by omega⟩
    · have joined := length_peaks_le Output.chainingValue parent (leaf whole) level few
      rw [peaks_double_succ, List.length_cons] at joined
      rw [stackOf_double, stackOf_double_succ]
      exact pushChunk_odd _ (by omega) joined
    · have even : total &&& 1 = 0 := by
        rw [and_one_eq_zero_iff]
        omega
      have half_count : (total >>> 1).toNat = half + 1 := by
        rw [toNat_half]
        omega
      have next : 2 * half + 1 + 1 = 2 * (half + 1) := by omega
      rw [stackOf_double_succ, pushChunk, if_pos even,
        value_tree_double Output.chainingValue parent (leaf whole), next, stackOf_double]
      exact inductionHypothesis half (by omega) (level + 1) half_count (by omega)

/-- Where the state is after a number of bytes of the whole: `n` chunks are on the stack, and of the
next one there are the blocks and the buffer. -/
structure Placed (whole : List UInt8) (count n : ℕ) (ctx : Ctx) : Prop where
  position : count = CHUNK * n + BLOCK * ctx.blocks + ctx.buf.length
  chunk : ctx.chunk = UInt64.ofNat n
  stack : ctx.stack = stackOf whole 0 n
  cv : ctx.cv = chained (UInt64.ofNat n) (chunkAt whole n) ctx.blocks
  buf : ctx.buf = (whole.drop (CHUNK * n + BLOCK * ctx.blocks)).take ctx.buf.length

/-- Between updates the last block and the last chunk are held back. -/
structure Absorbed (whole : List UInt8) (count n : ℕ) (ctx : Ctx) : Prop
    extends Placed whole count n ctx where
  held : 0 < count → 0 < ctx.buf.length

/-- A block of a chunk ends with it. -/
theorem blockAt_chunkAt (whole : List UInt8) (n b : ℕ) :
    blockAt (chunkAt whole n) b =
      (whole.drop (CHUNK * n + BLOCK * b)).take (min BLOCK (CHUNK - BLOCK * b)) := by
  rw [blockAt, chunkAt, List.drop_take, List.drop_drop, List.take_take]

variable {whole : List UInt8} {count n : ℕ} {ctx : Ctx}

/-- Nothing is absorbed at first. -/
theorem absorbed_reset (whole : List UInt8) : Absorbed whole 0 0 Ctx.reset :=
  ⟨⟨rfl, rfl, (peaks_zero ..).symm, rfl, rfl⟩, id⟩

/-- The bytes of the chunk that is filled are within the chunk. -/
theorem chunk_fits (ctx : Ctx) : BLOCK * ctx.blocks + ctx.buf.length ≤ CHUNK :=
  Nat.mul_comm BLOCK _ ▸ ctx.chunk_le

/-- A byte goes into the block. -/
theorem Placed.fill (placed : Placed whole count n ctx)
    (room : ctx.buf.length < BLOCK ∧ ctx.chunkBytes < CHUNK) (more : count < whole.length) :
    Absorbed whole (count + 1) n (ctx.fill [whole[count]]) := by
  have position := placed.position
  have length : (ctx.fill [whole[count]]).buf.length = ctx.buf.length + 1 := by
    rw [Ctx.buf_fill_singleton room, List.length_append, List.length_singleton]
  refine ⟨⟨?_, placed.chunk, placed.stack, placed.cv, ?_⟩, fun _ => ?_⟩
  · rw [length, ← Nat.add_assoc]
    exact congrArg (· + 1) position
  · have last : (whole.drop (CHUNK * n + BLOCK * ctx.blocks))[ctx.buf.length]? =
        some whole[count] := by
      rw [List.getElem?_drop, ← position, List.getElem?_eq_getElem more]
    rw [length, Ctx.buf_fill_singleton room, List.take_add_one]
    change _ = List.take ctx.buf.length (whole.drop (CHUNK * n + BLOCK * ctx.blocks)) ++
      (whole.drop (CHUNK * n + BLOCK * ctx.blocks))[ctx.buf.length]?.toList
    rw [last, ← placed.buf]
    rfl
  · rw [length]
    exact Nat.succ_pos _

namespace Absorbed

/-- The output of a chunk that is all there is the node of the tree. -/
theorem chunkOutput (absorbed : Absorbed whole count n ctx)
    (all : (chunkAt whole n).length = BLOCK * ctx.blocks + ctx.buf.length) :
    ctx.chunkOutput = leaf whole n := by
  have position := absorbed.position
  have held := absorbed.held
  have block_le := ctx.buf_le
  have fits := chunk_fits ctx
  have last : ((chunkAt whole n).length - 1) / BLOCK = ctx.blocks := by
    rw [all]
    simp only [BLOCK, CHUNK] at *
    omega
  have block : blockAt (chunkAt whole n) ctx.blocks = ctx.buf := by
    rw [blockAt_chunkAt, absorbed.buf, List.take_eq_take_iff, List.length_drop]
    rw [chunkAt, List.length_take, List.length_drop] at all
    simp only [BLOCK, CHUNK] at *
    omega
  rw [leaf, chunkNode, last, block, ← absorbed.cv, ← absorbed.chunk]
  rfl

/-- More input finishes a chunk or a block that is full. -/
theorem flush (absorbed : Absorbed whole count n ctx) (more : count < whole.length)
    (fits : whole.length < 2 ^ 64) :
    ∃ finished room, ctx.flush = some room ∧ Placed whole count finished room.1 := by
  have position := absorbed.position
  rw [Ctx.flush]
  split
  next full =>
    have full : BLOCK * ctx.blocks + ctx.buf.length = CHUNK := Nat.mul_comm BLOCK _ ▸ full
    have all : (chunkAt whole n).length = BLOCK * ctx.blocks + ctx.buf.length := by
      rw [chunkAt, List.length_take, List.length_drop]
      simp only [BLOCK, CHUNK] at *
      omega
    have few : n + 1 < 2 ^ 54 := by
      simp only [BLOCK, CHUNK] at *
      omega
    have total : (ctx.chunk + 1).toNat = n + 1 := by
      rw [absorbed.chunk, UInt64.toNat_add, UInt64.toNat_ofNat']
      simp only [UInt64.toNat_one]
      omega
    have pushed := pushChunk_peaks whole 0 n total few
    rw [pow_zero, Nat.mul_one, tree_one, ← absorbed.chunkOutput all, ← absorbed.stack] at pushed
    rw [pushed]
    refine ⟨n + 1, _, rfl, ?_, ?_, rfl, rfl, rfl⟩
    · change count = CHUNK * (n + 1) + BLOCK * 0 + 0
      simp only [BLOCK, CHUNK] at *
      omega
    · refine UInt64.toNat_inj.mp (total.trans ?_)
      rw [UInt64.toNat_ofNat']
      omega
  next unfinished =>
    refine ⟨n, _, rfl, ?_⟩
    rw [Ctx.flushBlock]
    split
    next full =>
      have chunk_le := chunk_fits ctx
      have block : blockAt (chunkAt whole n) ctx.blocks = ctx.buf := by
        have wide : min BLOCK (CHUNK - BLOCK * ctx.blocks) = ctx.buf.length := by
          simp only [BLOCK, CHUNK] at *
          omega
        rw [blockAt_chunkAt, wide, ← absorbed.buf]
      refine ⟨?_, absorbed.chunk, absorbed.stack, ?_, rfl⟩
      · change count = CHUNK * n + BLOCK * (ctx.blocks + 1) + 0
        simp only [BLOCK, CHUNK] at *
        omega
      · change chaining (compress ctx.cv (words ctx.buf) ctx.chunk 64 ctx.startFlag) =
          chained (UInt64.ofNat n) (chunkAt whole n) (ctx.blocks + 1)
        rw [chained, block, ← absorbed.cv, ← absorbed.chunk]
        rfl
    next => exact absorbed.toPlaced

/-- One byte more is absorbed. -/
theorem step (absorbed : Absorbed whole count n ctx) (more : count < whole.length)
    (fits : whole.length < 2 ^ 64) :
    ∃ finished after, ctx.update [whole[count]] = some after ∧
      Absorbed whole (count + 1) finished after := by
  obtain ⟨finished, ⟨ready, room⟩, flushed, placed⟩ := absorbed.flush more fits
  refine ⟨finished, _, ?_, placed.fill room more⟩
  rw [Ctx.update_cons, flushed, Option.bind_some, Ctx.take_singleton room]
  exact Ctx.update_nil _

/-- The rest of the whole is absorbed. -/
theorem run {rest : ℕ} (absorbed : Absorbed whole count n ctx) (left : count + rest = whole.length)
    (fits : whole.length < 2 ^ 64) :
    ∃ finished after, ctx.update (whole.drop count) = some after ∧
      Absorbed whole whole.length finished after := by
  induction rest generalizing count n ctx with
  | zero =>
    rw [Nat.add_zero] at left
    exact ⟨n, ctx, by rw [left, List.drop_length, Ctx.update_nil], left ▸ absorbed⟩
  | succ rest inductionHypothesis =>
    have more : count < whole.length := by omega
    obtain ⟨_, middle, updated, absorbed⟩ := absorbed.step more fits
    obtain ⟨finished, after, rest_updated, absorbed⟩ := inductionHypothesis absorbed (by omega)
    refine ⟨finished, after, ?_, absorbed⟩
    rw [List.drop_eq_getElem_cons more, Ctx.update_cons_eq, updated, Option.bind_some, rest_updated]

/-- The stack keeps to its entries. -/
theorem length_stack_le (absorbed : Absorbed whole count n ctx) (fits : count < 2 ^ 64) :
    ctx.stack.length ≤ 54 := by
  have position := absorbed.position
  rw [absorbed.stack]
  refine length_peaks_le _ _ _ 0 ?_
  simp only [BLOCK, CHUNK] at *
  omega

/-- The hash of all bytes is the one that the tree defines. -/
theorem hex_eq (absorbed : Absorbed whole whole.length n ctx) : ctx.hex = treeHex whole := by
  have position := absorbed.position
  have held := absorbed.held
  have chunk_le := chunk_fits ctx
  have all : (chunkAt whole n).length = BLOCK * ctx.blocks + ctx.buf.length := by
    rw [chunkAt, List.length_take, List.length_drop]
    simp only [BLOCK, CHUNK] at *
    omega
  have count : chunkCount whole = n + 1 := by
    rw [chunkCount]
    simp only [BLOCK, CHUNK] at *
    omega
  have folded := foldl_peaks Output.chainingValue parent (leaf whole) 0 n Nat.one_pos le_rfl
  rw [pow_zero, Nat.mul_one, tree_one, ← count] at folded
  rw [Ctx.hex, absorbed.stack, absorbed.chunkOutput all, folded]
  rfl

end Absorbed

/-- However the input is cut, its hash is the one of the whole. Below the longest input the state
keeps to its stack, and the hash is the one of the tree. -/
theorem hash_of_pieces (pieces : List (List UInt8)) :
    (pieces.foldlM Ctx.update Ctx.reset).map Ctx.hex = hex pieces.flatten ∧
      (pieces.flatten.length < 2 ^ 64 →
        (∃ ctx, pieces.foldlM Ctx.update Ctx.reset = some ctx ∧ ctx.stack.length ≤ 54) ∧
          hex pieces.flatten = some (treeHex pieces.flatten)) := by
  rw [Ctx.foldlM_update]
  refine ⟨rfl, fun fits => ?_⟩
  obtain ⟨n, ctx, updated, absorbed⟩ :=
    (absorbed_reset pieces.flatten).run (Nat.zero_add _) fits
  rw [List.drop_zero] at updated
  refine ⟨⟨ctx, updated, absorbed.length_stack_le fits⟩, ?_⟩
  rw [hex, updated, Option.map_some, absorbed.hex_eq]

/-- Three chunks, cut inside the first: the second piece runs over both borders. -/
theorem hash_of_three_chunks :
    let first : List UInt8 := List.replicate 1000 7
    let second : List UInt8 := List.replicate 1049 9
    let node (n : ℕ) : Cv := (leaf (first ++ second) n).chainingValue
    ([first, [], second].foldlM Ctx.update Ctx.reset).map Ctx.hex =
        some (parent (parent (node 0) (node 1)).chainingValue (node 2)).digest ∧
      chunkAt (first ++ second) 0 = first ++ List.replicate 24 9 ∧
      chunkAt (first ++ second) 1 = List.replicate 1024 9 ∧
      chunkAt (first ++ second) 2 = [9] := by
  intro first second node
  obtain ⟨split, whole⟩ := hash_of_pieces [first, [], second]
  have flat : [first, [], second].flatten = first ++ second := by
    rw [List.flatten_cons, List.flatten_cons, List.flatten_singleton, List.nil_append]
  have length : (first ++ second).length = 2049 := by
    rw [List.length_append, List.length_replicate, List.length_replicate]
  rw [flat] at split whole
  obtain ⟨-, hashed⟩ := whole (by rw [length]; decide)
  have count : chunkCount (first ++ second) = 2 ^ 1 + 1 := by
    rw [chunkCount, length]
    rfl
  have root : treeRoot (first ++ second) =
      parent (parent (node 0) (node 1)).chainingValue (node 2) := by
    rw [treeRoot, count, tree_add _ _ _ _ Nat.one_pos (by decide), tree_one,
      show 2 ^ 1 = 2 ^ 0 + 1 from rfl, tree_add _ _ _ _ Nat.one_pos (by decide), pow_zero, tree_one,
      tree_one]
    rfl
  refine ⟨?_, by decide +kernel⟩
  rw [split, hashed, treeHex, root]

/-- Three bytes, evaluated. -/
example : hex [0, 1, 2] = some "e1be4d7a8ab5560aa4199eea339849ba8e293d55ca0a81006726d184519e647f" := by
  decide +kernel

end DressOn.Blake3
