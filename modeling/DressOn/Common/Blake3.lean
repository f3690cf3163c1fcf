import Mathlib.Data.Nat.Notation

/-!
# The streaming hash

A chunk is hashed block by block, and the last block of the last chunk is held back until the hash
is asked for. The chaining values of finished chunks wait on a stack and are merged as subtrees get
complete.
-/

namespace DressOn.Blake3

/-- A chaining value. -/
abbrev Cv := Vector UInt32 8

/-- The words of a block, or of a state. -/
abbrev Words := Vector UInt32 16

def IV : Cv := #v[0x6A09E667, 0xBB67AE85, 0x3C6EF372, 0xA54FF53A, 0x510E527F, 0x9B05688C,
  0x1F83D9AB, 0x5BE0CD19]

def PERM : Vector (Fin 16) 16 := #v[2, 6, 3, 10, 7, 0, 4, 13, 1, 11, 12, 5, 9, 14, 15, 8]

def CHUNK_START : UInt32 := 1

def CHUNK_END : UInt32 := 2

def PARENT : UInt32 := 4

def ROOT : UInt32 := 8

/-- Bytes of a block. -/
abbrev BLOCK : ℕ := 64

/-- Bytes of a chunk. -/
abbrev CHUNK : ℕ := 1024

def rotr (x n : UInt32) : UInt32 := (x >>> n) ||| (x <<< (32 - n))

/-- Mix two words of the message into a column or a diagonal. -/
def g (s : Words) (a b c d : Fin 16) (mx my : UInt32) : Words :=
  let s := s.set a (s[a] + s[b] + mx)
  let s := s.set d (rotr (s[d] ^^^ s[a]) 16)
  let s := s.set c (s[c] + s[d])
  let s := s.set b (rotr (s[b] ^^^ s[c]) 12)
  let s := s.set a (s[a] + s[b] + my)
  let s := s.set d (rotr (s[d] ^^^ s[a]) 8)
  let s := s.set c (s[c] + s[d])
  s.set b (rotr (s[b] ^^^ s[c]) 7)

/-- The columns, then the diagonals. -/
def round (s m : Words) : Words :=
  let s := g s 0 4 8 12 m[0] m[1]
  let s := g s 1 5 9 13 m[2] m[3]
  let s := g s 2 6 10 14 m[4] m[5]
  let s := g s 3 7 11 15 m[6] m[7]
  let s := g s 0 5 10 15 m[8] m[9]
  let s := g s 1 6 11 12 m[10] m[11]
  let s := g s 2 7 8 13 m[12] m[13]
  g s 3 4 9 14 m[14] m[15]

/-- The compression function. The first 8 words are the chaining value. -/
def compress (cv : Cv) (block : Words) (counter : UInt64) (len flags : UInt32) : Words :=
  let s : Words := #v[cv[0], cv[1], cv[2], cv[3], cv[4], cv[5], cv[6], cv[7],
    IV[0], IV[1], IV[2], IV[3], counter.toUInt32, (counter >>> 32).toUInt32, len, flags]
  let (s, _) := (List.range 7).foldl
    (fun (s, m) r => (round s m, if r < 6 then PERM.map fun i => m[i] else m)) (s, block)
  Vector.ofFn fun i =>
    if low : i.val < 8 then s[i.val] ^^^ s[i.val + 8] else s[i.val] ^^^ cv[i.val - 8]

/-- The first 8 words. -/
def chaining (out : Words) : Cv := Vector.ofFn fun i => out[i.val]

/-- The words of 64 bytes, the lowest byte first. -/
def words (b : List UInt8) : Words :=
  Vector.ofFn fun i =>
    let byte (j : ℕ) : UInt32 := (b.getD (4 * i.val + j) 0).toUInt32
    byte 0 ||| byte 1 <<< 8 ||| byte 2 <<< 16 ||| byte 3 <<< 24

/-- What a chunk or parent node would compress to. -/
structure Output where
  cv : Cv
  block : Words
  counter : UInt64
  len : UInt32
  flags : UInt32
  deriving DecidableEq

namespace Output

def chainingValue (o : Output) : Cv := chaining (compress o.cv o.block o.counter o.len o.flags)

/-- The hash, with this node as the root. -/
def digest (o : Output) : String :=
  let out := compress o.cv o.block o.counter o.len (o.flags ||| ROOT)
  let d : Vector Char 16 :=
    #v['0', '1', '2', '3', '4', '5', '6', '7', '8', '9', 'a', 'b', 'c', 'd', 'e', 'f']
  String.ofList <| (List.finRange 32).flatMap fun i =>
    let b := (out[i.val / 4] >>> (8 * UInt32.ofNat (i.val % 4))).toNat % 256
    [d[b / 16], d[b % 16]]

end Output

def parent (l r : Cv) : Output where
  cv := IV
  block := l ++ r
  counter := 0
  len := 64
  flags := PARENT

/-- Merge completed subtrees: one merge per trailing zero bit of the total. The stack has its top
first. There is no result where the code leaves its 54 entries. -/
def pushChunk : List Cv → Cv → UInt64 → Option (List Cv)
  | [], cv, total => if total &&& 1 = 0 then none else some [cv]
  | left :: rest, cv, total =>
      if total &&& 1 = 0 then
        pushChunk rest (parent left cv).chainingValue (total >>> 1)
      else if rest.length + 1 < 54 then
        some (cv :: left :: rest)
      else
        none

/-- The state of a hash. The chunk that is filled has `blocks` compressed blocks and `buf`. -/
@[ext]
structure Ctx where
  cv : Cv
  chunk : UInt64
  buf : List UInt8
  blocks : ℕ
  stack : List Cv
  buf_le : buf.length ≤ BLOCK
  chunk_le : blocks * BLOCK + buf.length ≤ CHUNK

namespace Ctx

def reset : Ctx := ⟨IV, 0, [], 0, [], Nat.zero_le _, Nat.zero_le _⟩

def chunkBytes (ctx : Ctx) : ℕ := ctx.blocks * BLOCK + ctx.buf.length

def startFlag (ctx : Ctx) : UInt32 := if ctx.blocks = 0 then CHUNK_START else 0

def chunkOutput (ctx : Ctx) : Output where
  cv := ctx.cv
  block := words (ctx.buf ++ List.replicate (BLOCK - ctx.buf.length) 0)
  counter := ctx.chunk
  len := UInt32.ofNat ctx.buf.length
  flags := ctx.startFlag ||| CHUNK_END

/-- A state with room for a byte. -/
abbrev Open := { ctx : Ctx // ctx.buf.length < BLOCK ∧ ctx.chunkBytes < CHUNK }

/-- A full block is compressed. -/
def flushBlock (ctx : Ctx) (unfinished : ctx.chunkBytes ≠ CHUNK) : Open :=
  if full : ctx.buf.length = BLOCK then
    ⟨{ ctx with
        cv := chaining (compress ctx.cv (words ctx.buf) ctx.chunk 64 ctx.startFlag)
        blocks := ctx.blocks + 1
        buf := []
        buf_le := Nat.zero_le _
        chunk_le := by
          have fits : ctx.blocks * 64 + ctx.buf.length ≤ 1024 := ctx.chunk_le
          have full : ctx.buf.length = 64 := full
          change (ctx.blocks + 1) * 64 + 0 ≤ 1024
          omega },
      Nat.zero_lt_succ _, by
        have fits : ctx.blocks * 64 + ctx.buf.length ≤ 1024 := ctx.chunk_le
        have full : ctx.buf.length = 64 := full
        have more : ctx.blocks * 64 + ctx.buf.length ≠ 1024 := unfinished
        change (ctx.blocks + 1) * 64 + 0 < 1024
        omega⟩
  else
    ⟨ctx, Nat.lt_of_le_of_ne ctx.buf_le full, Nat.lt_of_le_of_ne ctx.chunk_le unfinished⟩

/-- More input shows that a full chunk is not the last one, or a full block. -/
def flush (ctx : Ctx) : Option Open :=
  if full : ctx.chunkBytes = CHUNK then
    (pushChunk ctx.stack ctx.chunkOutput.chainingValue (ctx.chunk + 1)).map fun stack =>
      ⟨{ reset with chunk := ctx.chunk + 1, stack }, Nat.zero_lt_succ _, Nat.zero_lt_succ _⟩
  else
    some (ctx.flushBlock full)

/-- How many of the bytes go into the block. -/
def take (ctx : Ctx) (p : List UInt8) : ℕ :=
  min (min p.length (BLOCK - ctx.buf.length)) (CHUNK - ctx.chunkBytes)

/-- Copy what goes into the block. -/
def fill (ctx : Ctx) (p : List UInt8) : Ctx :=
  { ctx with
    buf := ctx.buf ++ p.take (ctx.take p)
    buf_le := by
      have := ctx.buf_le
      simp only [take, List.length_append, List.length_take, BLOCK] at *
      omega
    chunk_le := by
      have := ctx.chunk_le
      simp only [take, chunkBytes, List.length_append, List.length_take, BLOCK, CHUNK] at *
      omega }

def update (ctx : Ctx) (p : List UInt8) : Option Ctx :=
  if p = [] then
    some ctx
  else
    match ctx.flush with
    | none => none
    | some ⟨ctx, _⟩ => update (ctx.fill p) (p.drop (ctx.take p))
termination_by p.length
decreasing_by
  have := List.length_pos_iff.mpr ‹¬ p = []›
  simp only [take, List.length_drop]
  omega

/-- 32-byte digest as 64 lowercase hex digits. -/
def hex (ctx : Ctx) : String :=
  (ctx.stack.foldl (fun o left => parent left o.chainingValue) ctx.chunkOutput).digest

end Ctx

/-- The hash of a byte string. -/
def hex (data : List UInt8) : Option String := (Ctx.reset.update data).map Ctx.hex

end DressOn.Blake3
