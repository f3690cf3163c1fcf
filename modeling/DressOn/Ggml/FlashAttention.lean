import DressOn.Ggml.Launch
import DressOn.Ggml.Reshape
import DressOn.Lib.OnlineSoftmax
import DressOn.Lib.ThreadGroups

/-!
# Attention

FLASH_ATTN_EXT takes, for each query, the mean of the values weighted by the softmax of the query's
scores with the keys. A group of 128 threads serves sixteen queries of a head; the keys and the
values come in tiles of 32 through shared memory, and the softmax is rescaled tile by tile. The
serial sibling gives each query a thread of its own. Nothing is assumed of the float operations
here.
-/

namespace DressOn.Ggml.FlashAttention

open ThreadGroups
open Move (Block GgmlType fillBlock off4 maxWord maxGroupsPerDim)

/-- The float operations of the kernels; `f16` converts the upper or the lower half of a word,
`round16` rounds to 16 bits and back. -/
structure Floats (F : Type) where
  add : F → F → F
  mul : F → F → F
  sub : F → F → F
  div : F → F → F
  max : F → F → F
  exp : F → F
  tanh : F → F
  zero : F
  one : F
  lowest : F
  isZero : F → Bool
  f16 : Bool → F → F
  round16 : F → F

/-- The numbers of channels that have kernels. -/
inductive Depth where
  | d64
  | d128
deriving DecidableEq

namespace Depth

/-- How many channels of a query a thread accumulates; eight threads serve a query. -/
def perThread : Depth → ℕ
  | d64 => 8
  | d128 => 16

/-- The extent of a row. -/
def channels (depth : Depth) : ℕ := 8 * depth.perThread

end Depth

/-- A FLASH_ATTN_EXT node: the tensors, whether it has a mask or sinks, and the `op_params`. -/
structure Node (F : Type) where
  dst : Move.Tensor
  q : Move.Tensor
  k : Move.Tensor
  v : Move.Tensor
  mask : Bool
  sinks : Bool
  scale : F
  softcap : F
  prec : ℤ

/-- `rows_contiguous`. -/
def rowsContiguous (t : Move.Tensor) : Bool := t.nb 0 == t.type.size

/-- `kRows`. -/
def kRows : ℕ := 16

/-- `GGML_PREC_DEFAULT` and `GGML_PREC_F32`. -/
def precs : List ℤ := [0, 10]

namespace Node

variable {F : Type} (node : Node F)

/-- The kernels there are, by the extent of a row. -/
def depth : Option Depth :=
  if node.q.ne 0 = 64 then some .d64 else if node.q.ne 0 = 128 then some .d128 else none

/-- `supports_fa`. -/
def supports : Bool :=
  !node.mask && !node.sinks && node.q.type == .f32 && node.dst.type == .f32 &&
    node.k.type == node.v.type && (node.k.type == .f32 || node.k.type == .f16) &&
    node.depth.isSome && decide (node.k.ne 0 = node.q.ne 0 ∧ node.v.ne 0 = node.q.ne 0) &&
    precs.contains node.prec && decide (node.k.ne 1 = node.v.ne 1 ∧ 1 ≤ node.k.ne 1) &&
    decide (node.q.ne 2 % node.k.ne 2 = 0 ∧ node.q.ne 2 % node.v.ne 2 = 0 ∧
      node.q.ne 3 % node.k.ne 3 = 0 ∧ node.q.ne 3 % node.v.ne 3 = 0) &&
    decide (node.dst.ne 0 = node.q.ne 0 ∧ node.dst.ne 1 = node.q.ne 2 ∧
      node.dst.ne 2 = node.q.ne 1 ∧ node.dst.ne 3 = node.q.ne 3) &&
    rowsContiguous node.q && rowsContiguous node.k && rowsContiguous node.v &&
    rowsContiguous node.dst &&
    decide ((node.q.ne 1 + kRows - 1) / kRows ≤ maxGroupsPerDim ∧
      node.q.ne 2 ≤ maxGroupsPerDim ∧ node.q.ne 3 ≤ maxGroupsPerDim) &&
    node.dst.fits && node.q.fits && node.k.fits && node.v.fits

end Node

/-- The words the kernels read: the blocks at words 1, 10, 19 and 28, and words 53 to 60. -/
structure Slot (F : Type) where
  dst : Block
  src0 : Block
  src1 : Block
  src2 : Block
  threads : UInt32
  groupsX : UInt32
  rk2 : UInt32
  rk3 : UInt32
  rv2 : UInt32
  rv3 : UInt32
  scale : F
  softcap : F

/-- A packed dispatch. -/
structure Packed (F : Type) where
  half : Bool
  depth : Depth
  slot : Slot F
  gx : ℕ
  gy : ℕ
  gz : ℕ

/-- How many threads the serial sibling has work for; the packer counts them in 64 bits. -/
def Node.queries {F : Type} (node : Node F) : ℕ := node.q.ne 1 * node.q.ne 2 * node.q.ne 3

/-- `pack_fa`, after `supports_fa` and `fill_standard`. -/
def Node.pack {F : Type} (floats : Floats F) (node : Node F) (serial : Bool) : Option (Packed F) :=
  if node.supports then
    (fillBlock node.dst).bind fun dst => (fillBlock node.q).bind fun src0 =>
      (fillBlock node.k).bind fun src1 => (fillBlock node.v).bind fun src2 =>
        node.depth.bind fun depth =>
          let slot : Slot F := {
            dst, src0, src1, src2, threads := 0, groupsX := 0
            rk2 := UInt32.ofNat (node.q.ne 2 / node.k.ne 2)
            rk3 := UInt32.ofNat (node.q.ne 3 / node.k.ne 3)
            rv2 := UInt32.ofNat (node.q.ne 2 / node.v.ne 2)
            rv3 := UInt32.ofNat (node.q.ne 3 / node.v.ne 3)
            scale :=
              if floats.isZero node.softcap then node.scale
              else floats.div node.scale node.softcap
            softcap := node.softcap }
          let half := node.k.type == .f16
          if serial then
            (Launch.grid1d 64 (node.queries % 2 ^ 64)).map fun grid =>
              { half, depth, gx := grid.gx, gy := grid.gy, gz := 1
                slot := { slot with threads := grid.threads, groupsX := grid.groupsX } }
          else some {
            half, depth, slot
            gx := (node.q.ne 1 + kRows - 1) / kRows
            gy := node.q.ne 2
            gz := node.q.ne 3 }
  else none

/-! ## What the kernels share -/

/-- A group: `gid`. -/
structure Gid where
  x : ℕ
  y : ℕ
  z : ℕ
deriving DecidableEq

/-- An element of `Qs`, `Ks`, `Vs` or `Ss` of a group; a word of a buffer. -/
inductive Cell where
  | q (gid : Gid) (r c : ℕ)
  | k (gid : Gid) (j c : ℕ)
  | v (gid : Gid) (j c : ℕ)
  | s (gid : Gid) (r j : ℕ)
  | word (buffer index : ℕ)
deriving DecidableEq

/-- The buffers bound to a dispatch. -/
structure Buffers where
  s0 : ℕ
  s1 : ℕ
  s2 : ℕ
  dst : ℕ

/-- What `main` reads at its start, for a query. -/
structure Frame where
  qb : UInt32
  kb : UInt32
  kn : UInt32
  vb : UInt32
  vn : UInt32

/-- The frame of a query. -/
def frameAt {F : Type} (w : Slot F) (iq h b : UInt32) : Frame where
  qb := off4 w.src0 ![0, iq, h, b]
  kb := off4 w.src1 ![0, 0, h / w.rk2, b / w.rk3]
  kn := w.src1.nb 1
  vb := off4 w.src2 ![0, 0, h / w.rv2, b / w.rv3]
  vn := w.src2.nb 1

/-- What is kept of the tiles so far: the largest score, the sum of the weights, and the weighted
sum of each channel. -/
@[ext] structure Part (F ι : Type) where
  m : F
  ls : F
  acc : ι → F

section Kernels

variable {F : Type} (floats : Floats F) (packed : Packed F) (buffers : Buffers)

/-- A query's element, as the kernel loads it. -/
def queryOf (word : F) : F := if packed.half then floats.round16 word else word

/-- The word that holds a key's or a value's element. -/
def entryWord (e : UInt32) : ℕ := if packed.half then (e >>> 1).toNat else e.toNat

/-- The element in its word: `ld_f16_s1` and `ld_f16_s2`. -/
def entryOf (e : UInt32) (word : F) : F :=
  if packed.half then floats.f16 (e &&& 1 != 0) word else word

/-- Load a query's element. -/
def loadQuery (e : UInt32) : Code Cell F F := do
  let word ← Code.read (.word buffers.s0 e.toNat)
  return queryOf floats packed word

/-- Load a key's or a value's element. -/
def loadEntry (buffer : ℕ) (e : UInt32) : Code Cell F F := do
  let word ← Code.read (.word buffer (entryWord packed e))
  return entryOf floats packed e word

/-- A load under its guard. -/
def loadIf (there : Bool) (code : Code Cell F F) : Code Cell F F :=
  if there then code else pure floats.zero

/-- A dot product scaled and capped. -/
def squash (dot : F) : F :=
  let scaled := floats.mul dot packed.slot.scale
  if floats.isZero packed.slot.softcap then scaled
  else floats.mul packed.slot.softcap (floats.tanh scaled)

/-- What the results are multiplied by. -/
def inverse (ls : F) : F := if floats.isZero ls then floats.zero else floats.div floats.one ls

/-- Where a result is stored. -/
def target (iq h b : UInt32) (c : ℕ) : Cell :=
  .word buffers.dst (off4 packed.slot.dst ![UInt32.ofNat c, h, iq, b]).toNat

/-- How many tiles there are. -/
def tiles : ℕ := ((packed.slot.src1.ne 1 + 31) / 32).toNat

section Main

variable (gid : Gid) (r l : ℕ)

/-- `iq` of a thread. -/
def queryNumber : UInt32 := UInt32.ofNat gid.x * 16 + UInt32.ofNat r

/-- `valid`. -/
def valid : Bool := decide (queryNumber gid r < packed.slot.src0.ne 1)

/-- The frame of a thread. -/
def frame : Frame :=
  frameAt packed.slot (queryNumber gid r) (UInt32.ofNat gid.y) (UInt32.ofNat gid.z)

/-- The thread's part of `Qs`. -/
def bringQuery : Code Cell F PUnit :=
  (List.range packed.depth.perThread).foldlM (fun _ i => do
    let c := l + i * 8
    let x ← loadIf floats (valid packed gid r)
      (loadQuery floats packed buffers ((frame packed gid r).qb + UInt32.ofNat c))
    Code.write (.q gid r c) x) ⟨⟩

/-- The thread's part of `Ks` and `Vs`, for a tile. -/
def bringTile (tt : ℕ) : Code Cell F PUnit :=
  (List.range (2 * packed.depth.perThread)).foldlM (fun _ i => do
    let f := r * 8 + l + i * 128
    let j := f / packed.depth.channels
    let c := f % packed.depth.channels
    let key := UInt32.ofNat (tt * 32) + UInt32.ofNat j
    let there := decide (key < packed.slot.src1.ne 1)
    let kx ← loadIf floats there (loadEntry floats packed buffers.s1
      ((frame packed gid r).kb + key * (frame packed gid r).kn + UInt32.ofNat c))
    let vx ← loadIf floats there (loadEntry floats packed buffers.s2
      ((frame packed gid r).vb + key * (frame packed gid r).vn + UInt32.ofNat c))
    Code.write (.k gid j c) kx
    Code.write (.v gid j c) vx) ⟨⟩

/-- Multiples of cells of shared memory, added to accumulators one by one. -/
def addCells {n : ℕ} (cell : Fin n → Cell) (x : F) (sums : Fin n → F) : Code Cell F (Fin n → F) :=
  (List.finRange n).foldlM (fun sums (i : Fin n) => do
    let sum ← (do
      let y ← Code.read (cell i)
      return floats.add (sums i) (floats.mul x y))
    return Function.update sums i sum) sums

/-- The dot products of the thread's query with four keys of the tile. -/
def dots : Code Cell F (Fin 4 → F) :=
  (List.range packed.depth.channels).foldlM (fun d c => do
    let qc ← Code.read (.q gid r c)
    addCells floats (fun p : Fin 4 => .k gid (l + 8 * p) c) qc d) fun _ => floats.zero

/-- The thread's part of `Ss`. -/
def storeScores (tt : ℕ) (d : Fin 4 → F) : Code Cell F PUnit :=
  (List.finRange 4).foldlM (fun _ (p : Fin 4) =>
    Code.write (.s gid r (l + 8 * p))
      (if packed.slot.src1.ne 1 ≤ UInt32.ofNat (tt * 32) + UInt32.ofNat (l + 8 * p)
        then floats.lowest
        else squash floats packed (d p))) ⟨⟩

/-- The thread's scores, from the dot products. -/
def takeScores (tt : ℕ) : Code Cell F PUnit := do
  let d ← dots floats packed gid r l
  storeScores floats packed gid r l tt d

/-- The largest score so far. -/
def largest (m : F) : Code Cell F F :=
  (List.range 32).foldlM (fun mt j => do
    let score ← Code.read (.s gid r j)
    return floats.max mt score) m

/-- The weights of the tile, summed, and their values, accumulated. -/
def accumulate {n : ℕ} (mt : F) (start : F × (Fin n → F)) : Code Cell F (F × (Fin n → F)) :=
  (List.range 32).foldlM (fun sums j => do
    let score ← Code.read (.s gid r j)
    let p := floats.exp (floats.sub score mt)
    let acc ← addCells floats (fun i : Fin n => .v gid j (l + 8 * i)) p sums.2
    return (floats.add sums.1 p, acc)) start

/-- The scores of a tile, taken into what is kept. -/
def weigh {n : ℕ} (part : Part F (Fin n)) : Code Cell F (Part F (Fin n)) := do
  let mt ← largest floats gid r part.m
  let corr := floats.exp (floats.sub part.m mt)
  let sums ← accumulate floats gid r l mt (floats.zero, fun i => floats.mul (part.acc i) corr)
  return ⟨mt, floats.add (floats.mul part.ls corr) sums.1, sums.2⟩

/-- A tile. -/
def turn (part : Part F (Fin packed.depth.perThread)) (tt : ℕ) :
    Code Cell F (Part F (Fin packed.depth.perThread)) := do
  Code.barrier
  bringTile floats packed buffers gid r l tt
  Code.barrier
  takeScores floats packed gid r l tt
  Code.barrier
  weigh floats gid r l part

/-- The thread's results. -/
def storeResults (part : Part F (Fin packed.depth.perThread)) : Code Cell F PUnit :=
  if valid packed gid r then
    (List.finRange packed.depth.perThread).foldlM (fun _ (i : Fin packed.depth.perThread) =>
      Code.write (target packed buffers (queryNumber gid r) (UInt32.ofNat gid.y)
        (UInt32.ofNat gid.z) (l + 8 * i)) (floats.mul (part.acc i) (inverse floats part.ls))) ⟨⟩
  else pure ⟨⟩

/-- What is kept before the first tile. -/
def Part.start (ι : Type) : Part F ι := ⟨floats.lowest, floats.zero, fun _ => floats.zero⟩

/-- `main`, of the thread that serves query `r` of the group in lane `l`. -/
def main : Code Cell F PUnit := do
  bringQuery floats packed buffers gid r l
  let part ← (List.range (tiles packed)).foldlM (turn floats packed buffers gid r l)
    (Part.start floats _)
  storeResults floats packed buffers gid r l part

end Main

/-! ## The serial sibling -/

section Serial

variable (f : Frame)

/-- The query. -/
def serialQuery : Code Cell F (Fin packed.depth.channels → F) :=
  (List.finRange packed.depth.channels).foldlM (fun qv (c : Fin packed.depth.channels) => do
    let x ← loadQuery floats packed buffers (f.qb + UInt32.ofNat c)
    return Function.update qv c x) fun _ => floats.zero

/-- A score. -/
def serialScore (qv : Fin packed.depth.channels → F) (key : UInt32) : Code Cell F F :=
  if key < packed.slot.src1.ne 1 then do
    let dot ← (List.finRange packed.depth.channels).foldlM
      (fun s (c : Fin packed.depth.channels) => do
      let kc ← loadEntry floats packed buffers.s1 (f.kb + key * f.kn + UInt32.ofNat c)
      return floats.add s (floats.mul (qv c) kc)) floats.zero
    return squash floats packed dot
  else pure floats.lowest

/-- The scores of a tile. -/
def serialScores (qv : Fin packed.depth.channels → F) (tt : ℕ) : Code Cell F (Fin 32 → F) :=
  (List.finRange 32).foldlM (fun sc (j : Fin 32) => do
    let s ← serialScore floats packed buffers f qv (UInt32.ofNat (tt * 32) + UInt32.ofNat j)
    return Function.update sc j s) fun _ => floats.zero

/-- A value, weighted and added to each channel, if there is one. -/
def serialValue (key : UInt32) (p : F) (acc : Fin packed.depth.channels → F) :
    Code Cell F (Fin packed.depth.channels → F) :=
  if key < packed.slot.src1.ne 1 then
    (List.finRange packed.depth.channels).foldlM (fun acc (c : Fin packed.depth.channels) => do
      let x ← (do
        let v ← loadEntry floats packed buffers.s2 (f.vb + key * f.vn + UInt32.ofNat c)
        return floats.add (acc c) (floats.mul p v))
      return Function.update acc c x) acc
  else pure acc

/-- A tile. -/
def serialTurn (qv : Fin packed.depth.channels → F) (part : Part F (Fin packed.depth.channels))
    (tt : ℕ) : Code Cell F (Part F (Fin packed.depth.channels)) := do
  let sc ← serialScores floats packed buffers f qv tt
  let mt := (List.finRange 32).foldl (fun mt j => floats.max mt (sc j)) part.m
  let corr := floats.exp (floats.sub part.m mt)
  let sums ← (List.finRange 32).foldlM (fun sums (j : Fin 32) => do
    let p := floats.exp (floats.sub (sc j) mt)
    let acc ← serialValue floats packed buffers f
      (UInt32.ofNat (tt * 32) + UInt32.ofNat j) p sums.2
    return (floats.add sums.1 p, acc)) (floats.zero, fun c => floats.mul (part.acc c) corr)
  return ⟨mt, floats.add (floats.mul part.ls corr) sums.1, sums.2⟩

/-- `main` of the sibling, for the query of a thread. -/
def serialMain (iq h b : UInt32) : Code Cell F PUnit := do
  let f := frameAt packed.slot iq h b
  let qv ← serialQuery floats packed buffers f
  let part ← (List.range (tiles packed)).foldlM (serialTurn floats packed buffers f qv)
    (Part.start floats _)
  (List.finRange packed.depth.channels).foldlM (fun _ (c : Fin packed.depth.channels) =>
    Code.write (target packed buffers iq h b c)
      (floats.mul (part.acc c) (inverse floats part.ls))) ⟨⟩

end Serial
end Kernels

/-! ## What the kernels compute -/

/-- What a query is computed from: its own elements, the keys and the values. -/
structure Inputs (F : Type) where
  q : ℕ → F
  k : ℕ → ℕ → F
  v : ℕ → ℕ → F

section Pure

variable {F : Type} (floats : Floats F) (packed : Packed F) (inputs : Inputs F)

/-- The score of a key; past the last key there is none. -/
def score (keys key : ℕ) : F :=
  if key < keys then squash floats packed ((List.range packed.depth.channels).foldl
    (fun dot c => floats.add dot (floats.mul (inputs.q c) (inputs.k key c))) floats.zero)
  else floats.lowest

/-- A tile taken into what is kept; `plus` adds a weighted value to a channel. -/
def Part.take (part : Part F ℕ) (scores : ℕ → F) (plus : ℕ → F → ℕ → F → F) : Part F ℕ :=
  let mt := (List.range 32).foldl (fun mt j => floats.max mt (scores j)) part.m
  let corr := floats.exp (floats.sub part.m mt)
  let p (j : ℕ) := floats.exp (floats.sub (scores j) mt)
  { m := mt
    ls := floats.add (floats.mul part.ls corr)
      ((List.range 32).foldl (fun ps j => floats.add ps (p j)) floats.zero)
    acc := fun c => (List.range 32).foldl (fun a j => plus j (p j) c a)
      (floats.mul (part.acc c) corr) }

/-- What is kept after some tiles. -/
def partAfter (keys : ℕ) (plus : ℕ → F → ℕ → F → F) (n : ℕ) : Part F ℕ :=
  (List.range n).foldl (fun part tt => part.take floats
    (fun j => score floats packed inputs keys (tt * 32 + j)) fun j => plus (tt * 32 + j))
    (Part.start floats ℕ)

/-- The kernel adds a zero for a missing value. -/
def plusPadded (keys key : ℕ) (p : F) (c : ℕ) (a : F) : F :=
  floats.add a (floats.mul p (if key < keys then inputs.v key c else floats.zero))

/-- The sibling skips a missing value. -/
def plusThere (keys key : ℕ) (p : F) (c : ℕ) (a : F) : F :=
  if key < keys then floats.add a (floats.mul p (inputs.v key c)) else a

/-- The channels of a part that a thread has. -/
def Part.of {ι : Type} (part : Part F ℕ) (channel : ι → ℕ) : Part F ι :=
  ⟨part.m, part.ls, fun i => part.acc (channel i)⟩

/-- A result. -/
def Part.result (part : Part F ℕ) (c : ℕ) : F :=
  floats.mul (part.acc c) (inverse floats part.ls)

theorem partAfter_succ (keys : ℕ) (plus : ℕ → F → ℕ → F → F) (n : ℕ) :
    partAfter floats packed inputs keys plus (n + 1) =
      (partAfter floats packed inputs keys plus n).take floats
        (fun j => score floats packed inputs keys (n * 32 + j)) fun j => plus (n * 32 + j) := by
  rw [partAfter, List.range_succ, List.foldl_append]
  rfl

end Pure

/-! ## A packed node -/

variable {F : Type} {floats : Floats F} {node : Node F} {packed : Packed F} {serial : Bool}

/-- What a packed node runs under. -/
structure Runs (floats : Floats F) (packed : Packed F) (node : Node F) : Prop where
  half : packed.half = (node.k.type == .f16)
  scale : packed.slot.scale =
    if floats.isZero node.softcap then node.scale else floats.div node.scale node.softcap
  softcap : packed.slot.softcap = node.softcap
  dst : packed.slot.dst.Of node.dst
  src0 : packed.slot.src0.Of node.q
  src1 : packed.slot.src1.Of node.k
  src2 : packed.slot.src2.Of node.v
  rows : packed.slot.src0.nb 0 = 1 ∧ packed.slot.src1.nb 0 = 1 ∧ packed.slot.src2.nb 0 = 1
  rk2 : packed.slot.rk2.toNat = node.q.ne 2 / node.k.ne 2
  rk3 : packed.slot.rk3.toNat = node.q.ne 3 / node.k.ne 3
  rv2 : packed.slot.rv2.toNat = node.q.ne 2 / node.v.ne 2
  rv3 : packed.slot.rv3.toNat = node.q.ne 3 / node.v.ne 3
  channels : node.q.ne 0 = packed.depth.channels ∧ node.k.ne 0 = packed.depth.channels ∧
    node.v.ne 0 = packed.depth.channels ∧ node.dst.ne 0 = packed.depth.channels
  keys : node.v.ne 1 = node.k.ne 1
  broadcast : (node.k.ne 2 ∣ node.q.ne 2 ∧ node.k.ne 3 ∣ node.q.ne 3) ∧
    node.v.ne 2 ∣ node.q.ne 2 ∧ node.v.ne 3 ∣ node.q.ne 3
  shape : node.dst.ne 1 = node.q.ne 2 ∧ node.dst.ne 2 = node.q.ne 1 ∧ node.dst.ne 3 = node.q.ne 3
  pos : (∀ d, 0 < node.q.ne d) ∧ (∀ d, 0 < node.k.ne d) ∧ ∀ d, 0 < node.v.ne d
  small : ∀ d, node.q.ne d ≤ maxWord
  few : node.k.ne 1 ≤ 2 ^ 26
  groups : (node.q.ne 1 + kRows - 1) / kRows ≤ maxGroupsPerDim ∧
    node.q.ne 2 ≤ maxGroupsPerDim ∧ node.q.ne 3 ≤ maxGroupsPerDim
  queries : node.queries ≤ 2 ^ 26

/-- Rows without gaps have elements one apart. -/
theorem nb_zero_of_rowsContiguous {t : Move.Tensor} {b : Block} (filled : fillBlock t = some b)
    (contiguous : rowsContiguous t = true) : b.nb 0 = 1 := by
  rw [← UInt32.toNat_inj, (Move.fillBlock_of filled).nb, Move.Tensor.stride,
    beq_iff_eq.1 contiguous, Nat.div_self (by cases t.type <;> decide)]
  rfl

/-- A row of 64 channels leaves 26 bits for the other extents. -/
theorem rest_le_of_count {t : Move.Tensor} (few : t.count ≤ maxWord) {depth : Depth}
    (row : t.ne 0 = depth.channels) : t.ne 1 * t.ne 2 * t.ne 3 ≤ 2 ^ 26 := by
  have wide : 64 ≤ depth.channels := by cases depth <;> decide
  have count : t.count = depth.channels * (t.ne 1 * t.ne 2 * t.ne 3) := by
    rw [Move.Tensor.count, Fin.prod_univ_four, row, Nat.mul_assoc, Nat.mul_assoc, Nat.mul_assoc]
  have := Nat.mul_le_mul_right (t.ne 1 * t.ne 2 * t.ne 3) wide
  rw [maxWord] at few
  omega

/-- Where the results are apart, ggml counts the elements of the keys exactly: their heads and
batches divide those of the queries. -/
theorem count_keys_lt {depth : Depth} (few : node.dst.count ≤ 2 ^ 31) (fits : node.k.fits = true)
    (rows : node.k.ne 0 = depth.channels ∧ node.dst.ne 0 = depth.channels)
    (shape : node.dst.ne 1 = node.q.ne 2 ∧ node.dst.ne 3 = node.q.ne 3)
    (pos : ∀ d, 0 < node.dst.ne d)
    (divides : node.k.ne 2 ∣ node.q.ne 2 ∧ node.k.ne 3 ∣ node.q.ne 3) :
    node.k.count < 2 ^ 64 := by
  have heads : node.k.ne 2 ≤ node.dst.ne 1 := shape.1 ▸ Nat.le_of_dvd (shape.1 ▸ pos 1) divides.1
  have batches : node.k.ne 3 ≤ node.dst.ne 3 := shape.2 ▸ Nat.le_of_dvd (shape.2 ▸ pos 3) divides.2
  have keys := Move.Tensor.ne_le_of_fits fits 1
  calc node.k.count
      = node.k.ne 1 * (node.dst.ne 0 * node.k.ne 2 * node.k.ne 3) := by
        rw [Move.Tensor.count, Fin.prod_univ_four, rows.1, rows.2]
        ring
    _ ≤ node.k.ne 1 * (node.dst.ne 0 * node.dst.ne 1 * node.dst.ne 2 * node.dst.ne 3) := by
        refine Nat.mul_le_mul_left _ (Nat.mul_le_mul ?_ batches)
        exact (Nat.mul_le_mul_left _ heads).trans (Nat.le_mul_of_pos_right _ (pos 2))
    _ = node.k.ne 1 * node.dst.count := by rw [Move.Tensor.count, Fin.prod_univ_four]
    _ ≤ maxWord * 2 ^ 31 := Nat.mul_le_mul keys few
    _ < 2 ^ 64 := by decide

/-- The queries have as many channels as the kernel that is picked. -/
theorem Node.channels_of_depth (node : Node F) {depth : Depth} (picked : node.depth = some depth) :
    node.q.ne 0 = depth.channels := by
  rw [Node.depth] at picked
  split at picked
  next narrow =>
    obtain rfl := Option.some.inj picked
    exact narrow
  next =>
    split at picked
    next wide =>
      obtain rfl := Option.some.inj picked
      exact wide
    next => cases picked

/-- A packed node runs under its words, where its results are apart. -/
theorem runs_of_pack (packs : node.pack floats serial = some packed) (apart : node.dst.Apart) :
    Runs floats packed node := by
  unfold Node.pack at packs
  split at packs
  next supports =>
    obtain ⟨dst, dst_eq, packs⟩ := Option.bind_eq_some_iff.1 packs
    obtain ⟨src0, src0_eq, packs⟩ := Option.bind_eq_some_iff.1 packs
    obtain ⟨src1, src1_eq, packs⟩ := Option.bind_eq_some_iff.1 packs
    obtain ⟨src2, src2_eq, packs⟩ := Option.bind_eq_some_iff.1 packs
    obtain ⟨depth, depth_eq, packs⟩ := Option.bind_eq_some_iff.1 packs
    simp only [Node.supports, Bool.and_eq_true, decide_eq_true_eq] at supports
    obtain ⟨⟨⟨⟨⟨⟨⟨⟨⟨⟨⟨⟨⟨⟨-, rows⟩, -⟩, keys, -⟩, broadcast⟩, shape⟩, row_q⟩, row_k⟩, row_v⟩,
      -⟩, groups⟩, fits_dst⟩, fits_q⟩, fits_k⟩, fits_v⟩ := supports
    have channels := node.channels_of_depth depth_eq
    have holds := Move.fillBlock_of dst_eq
    have pos_dst := Move.Tensor.pos_of_fits fits_dst
    have pos_k := Move.Tensor.pos_of_fits fits_k
    have results := apart.count_le holds pos_dst
    have divides : (node.k.ne 2 ∣ node.q.ne 2 ∧ node.k.ne 3 ∣ node.q.ne 3) ∧
        node.v.ne 2 ∣ node.q.ne 2 ∧ node.v.ne 3 ∣ node.q.ne 3 :=
      ⟨⟨Nat.dvd_of_mod_eq_zero broadcast.1, Nat.dvd_of_mod_eq_zero broadcast.2.2.1⟩,
        Nat.dvd_of_mod_eq_zero broadcast.2.1, Nat.dvd_of_mod_eq_zero broadcast.2.2.2⟩
    have exact_count := node.k.nelements_eq_count (count_keys_lt results fits_k
      ⟨rows.1.trans channels, shape.1.trans channels⟩ ⟨shape.2.1, shape.2.2.2⟩ pos_dst divides.1)
    have few := rest_le_of_count (exact_count ▸ Move.Tensor.nelements_le_of_fits fits_k)
      (rows.1.trans channels)
    have queries := rest_le_of_count (results.trans (by decide)) (shape.1.trans channels)
    have small := Move.Tensor.ne_le_of_fits fits_q
    have runs : ∀ threads groupsX gx gy gz, Runs floats {
        half := node.k.type == .f16, depth, gx, gy, gz
        slot := {
          dst, src0, src1, src2, threads, groupsX
          rk2 := UInt32.ofNat (node.q.ne 2 / node.k.ne 2)
          rk3 := UInt32.ofNat (node.q.ne 3 / node.k.ne 3)
          rv2 := UInt32.ofNat (node.q.ne 2 / node.v.ne 2)
          rv3 := UInt32.ofNat (node.q.ne 3 / node.v.ne 3)
          scale :=
            if floats.isZero node.softcap then node.scale
            else floats.div node.scale node.softcap
          softcap := node.softcap } } node := fun threads groupsX gx gy gz => {
      half := rfl
      scale := rfl
      softcap := rfl
      dst := holds
      src0 := Move.fillBlock_of src0_eq
      src1 := Move.fillBlock_of src1_eq
      src2 := Move.fillBlock_of src2_eq
      rows := ⟨nb_zero_of_rowsContiguous src0_eq row_q, nb_zero_of_rowsContiguous src1_eq row_k,
        nb_zero_of_rowsContiguous src2_eq row_v⟩
      rk2 := Move.toNat_ofNat ((Nat.div_le_self _ _).trans (small 2))
      rk3 := Move.toNat_ofNat ((Nat.div_le_self _ _).trans (small 3))
      rv2 := Move.toNat_ofNat ((Nat.div_le_self _ _).trans (small 2))
      rv3 := Move.toNat_ofNat ((Nat.div_le_self _ _).trans (small 3))
      channels := ⟨channels, rows.1.trans channels, rows.2.trans channels,
        shape.1.trans channels⟩
      keys := keys.symm
      broadcast := divides
      shape := shape.2
      pos := ⟨Move.Tensor.pos_of_fits fits_q, pos_k, Move.Tensor.pos_of_fits fits_v⟩
      small
      few := by
        rw [Nat.mul_assoc] at few
        exact (Nat.le_mul_of_pos_right _ (Nat.mul_pos (pos_k 2) (pos_k 3))).trans few
      groups
      queries := by
        rw [shape.2.1, shape.2.2.1, shape.2.2.2] at queries
        rwa [Node.queries, Nat.mul_comm (node.q.ne 1)] }
    cases serial with
    | true =>
        obtain ⟨grid, -, rfl⟩ := Option.map_eq_some_iff.1 packs
        exact runs _ _ _ _ _
    | false =>
        obtain rfl := Option.some.inj packs
        exact runs _ _ _ _ _
  next => cases packs

/-- The groups of the kernel. -/
theorem groups_of_pack (packs : node.pack floats false = some packed) :
    packed.gx = (node.q.ne 1 + kRows - 1) / kRows ∧ packed.gy = node.q.ne 2 ∧
      packed.gz = node.q.ne 3 := by
  unfold Node.pack at packs
  split at packs
  next =>
    obtain ⟨dst, -, packs⟩ := Option.bind_eq_some_iff.1 packs
    obtain ⟨src0, -, packs⟩ := Option.bind_eq_some_iff.1 packs
    obtain ⟨src1, -, packs⟩ := Option.bind_eq_some_iff.1 packs
    obtain ⟨src2, -, packs⟩ := Option.bind_eq_some_iff.1 packs
    obtain ⟨depth, -, packs⟩ := Option.bind_eq_some_iff.1 packs
    obtain rfl := Option.some.inj packs
    exact ⟨rfl, rfl, rfl⟩
  next => cases packs

/-- The grid of the serial sibling. -/
theorem launch_of_pack (packs : node.pack floats true = some packed) :
    Launch.grid1d 64 (node.queries % 2 ^ 64) =
      some ⟨packed.slot.threads, packed.slot.groupsX, packed.gx, packed.gy⟩ ∧ packed.gz = 1 := by
  unfold Node.pack at packs
  split at packs
  next =>
    obtain ⟨dst, -, packs⟩ := Option.bind_eq_some_iff.1 packs
    obtain ⟨src0, -, packs⟩ := Option.bind_eq_some_iff.1 packs
    obtain ⟨src1, -, packs⟩ := Option.bind_eq_some_iff.1 packs
    obtain ⟨src2, -, packs⟩ := Option.bind_eq_some_iff.1 packs
    obtain ⟨depth, -, packs⟩ := Option.bind_eq_some_iff.1 packs
    obtain ⟨grid, grid_eq, rfl⟩ := Option.map_eq_some_iff.1 packs
    exact ⟨grid_eq, rfl⟩
  next => cases packs

/-! ## Addresses -/

/-- The element of a row without gaps. -/
theorem Block.Of.toNat_row {t : Move.Tensor} {b : Block} (holds : b.Of t) (one : b.nb 0 = 1)
    {i : Fin 4 → ℕ} (inside : t.Holds i) {c x y z : UInt32}
    (numbers : c.toNat = i 0 ∧ x.toNat = i 1 ∧ y.toNat = i 2 ∧ z.toNat = i 3) :
    (off4 b ![0, 0, y, z] + x * b.nb 1 + c).toNat = t.element i ∧
      (off4 b ![0, x, y, z] + c).toNat = t.element i := by
  have number : Move.numbers ![c, x, y, z] = i := by
    funext k
    fin_cases k
    · exact numbers.1
    · exact numbers.2.1
    · exact numbers.2.2.1
    · exact numbers.2.2.2
  have whole := holds.toNat_off4 (i := ![c, x, y, z]) (number ▸ inside)
  rw [number] at whole
  have same : off4 b ![0, 0, y, z] + x * b.nb 1 + c = off4 b ![c, x, y, z] := by
    simp only [off4, one, Matrix.cons_val]
    grind
  have same' : off4 b ![0, x, y, z] + c = off4 b ![c, x, y, z] := by
    simp only [off4, one, Matrix.cons_val]
    grind
  rw [same, same']
  exact ⟨whole, whole⟩

/-! ## The sources of a query -/

/-- The element of a key or a value that a head and a batch of the query read. -/
def Node.entryIndex (node : Node F) (t : Move.Tensor) (c key h b : ℕ) : Fin 4 → ℕ :=
  ![c, key, h / (node.q.ne 2 / t.ne 2), b / (node.q.ne 3 / t.ne 3)]

section Sources

variable (floats) (packed) (buffers : Buffers) (node)

/-- A key's or a value's element in memory. -/
def entryAt (t : Move.Tensor) (buffer : ℕ) (cells : Cell → F) (i : Fin 4 → ℕ) : F :=
  entryOf floats packed (UInt32.ofNat (t.element i))
    (cells (.word buffer (entryWord packed (UInt32.ofNat (t.element i)))))

/-- What a query is computed from. -/
def inputsOf (cells : Cell → F) (iq h b : ℕ) : Inputs F where
  q c := queryOf floats packed (cells (.word buffers.s0 (node.q.element ![c, iq, h, b])))
  k key c := entryAt floats packed node.k buffers.s1 cells (node.entryIndex node.k c key h b)
  v key c := entryAt floats packed node.v buffers.s2 cells (node.entryIndex node.v c key h b)

/-- The words of the sources. -/
def sources : Set Cell :=
  {place | (∃ j, node.q.Holds j ∧ place = .word buffers.s0 (node.q.element j)) ∨
    (∃ j, node.k.Holds j ∧
      place = .word buffers.s1 (entryWord packed (UInt32.ofNat (node.k.element j)))) ∨
    ∃ j, node.v.Holds j ∧
      place = .word buffers.s2 (entryWord packed (UInt32.ofNat (node.v.element j)))}

/-- What the words of a packed node are asked for: no two elements of the destination share a word,
and none of its words is a source's. -/
structure Ready : Prop where
  apart : node.dst.Apart
  spares : ∀ i, node.dst.Holds i →
    .word buffers.dst (node.dst.element i) ∉ sources node packed buffers

end Sources

section Loads

variable {buffers : Buffers} {cells m : Cell → F}
  (same : ∀ place ∈ sources node packed buffers, m place = cells place)
  (runs : Runs floats packed node)

include same runs

/-- A query's load gives its element. -/
theorem loadQuery_returns {iq h b c : ℕ}
    (inside : iq < node.q.ne 1 ∧ h < node.q.ne 2 ∧ b < node.q.ne 3)
    (channel : c < packed.depth.channels) {x y z : UInt32}
    (numbers : x.toNat = iq ∧ y.toNat = h ∧ z.toNat = b) :
    Returns ⟨sources node packed buffers, ∅⟩ (loadQuery floats packed buffers
        ((frameAt packed.slot x y z).qb + UInt32.ofNat c)) m fun value m' =>
      value = (inputsOf floats node packed buffers cells iq h b).q c ∧ m' = m := by
  have holds : node.q.Holds ![c, iq, h, b] := by
    intro d
    fin_cases d
    · exact channel.trans_eq runs.channels.1.symm
    · exact inside.1
    · exact inside.2.1
    · exact inside.2.2
  have small : c < UInt32.size := channel.trans_le (by cases packed.depth <;> decide)
  have address : ((frameAt packed.slot x y z).qb + UInt32.ofNat c).toNat =
      node.q.element ![c, iq, h, b] :=
    (Block.Of.toNat_row runs.src0 runs.rows.1 holds
      ⟨UInt32.toNat_ofNat_of_lt' small, numbers⟩).2
  have source : Cell.word buffers.s0 (node.q.element ![c, iq, h, b]) ∈
      sources node packed buffers := .inl ⟨_, holds, rfl⟩
  rw [loadQuery, address]
  refine Returns.read (.inl source) ⟨?_, rfl⟩
  rw [same _ source]
  rfl

omit same runs in
/-- The element that a head and a batch read is one of the tensor. -/
theorem entryIndex_holds {t : Move.Tensor} (divides : t.ne 2 ∣ node.q.ne 2 ∧ t.ne 3 ∣ node.q.ne 3)
    {c key h b : ℕ} (channel : c < t.ne 0) (there : key < t.ne 1)
    (inside : h < node.q.ne 2 ∧ b < node.q.ne 3) : t.Holds (node.entryIndex t c key h b) := by
  intro d
  fin_cases d
  · exact channel
  · exact there
  · exact Nat.div_lt_of_lt_mul (inside.1.trans_eq (Nat.div_mul_cancel divides.1).symm)
  · exact Nat.div_lt_of_lt_mul (inside.2.trans_eq (Nat.div_mul_cancel divides.2).symm)

omit same runs in
/-- A load of a key or a value gives its element. -/
theorem loadEntry_returns {reads : Set Cell} {t : Move.Tensor} {block : Block} (holds : block.Of t)
    (one : block.nb 0 = 1) {i : Fin 4 → ℕ} (inside : t.Holds i) {buffer : ℕ}
    (source : .word buffer (entryWord packed (UInt32.ofNat (t.element i))) ∈ reads)
    (same : ∀ place ∈ reads, m place = cells place) {key y z : UInt32} {c : ℕ}
    (channel : c < packed.depth.channels)
    (numbers : c = i 0 ∧ key.toNat = i 1 ∧ y.toNat = i 2 ∧ z.toNat = i 3) :
    Returns ⟨reads, ∅⟩ (loadEntry floats packed buffer
        (off4 block ![0, 0, y, z] + key * block.nb 1 + UInt32.ofNat c)) m fun value m' =>
      value = entryAt floats packed t buffer cells i ∧ m' = m := by
  have small : c < UInt32.size := channel.trans_le (by cases packed.depth <;> decide)
  have address := (Block.Of.toNat_row holds one inside
    ⟨(UInt32.toNat_ofNat_of_lt' small).trans numbers.1, numbers.2⟩).1
  have word : off4 block ![0, 0, y, z] + key * block.nb 1 + UInt32.ofNat c =
      UInt32.ofNat (t.element i) := by
    rw [← address]
    exact UInt32.ofNat_toNat.symm
  rw [loadEntry, word]
  refine Returns.read (.inl source) ⟨?_, rfl⟩
  rw [same _ source]
  rfl

variable {h b key c : ℕ} (inside : h < node.q.ne 2 ∧ b < node.q.ne 3) (there : key < node.k.ne 1)
  (channel : c < packed.depth.channels) {iq x y z : UInt32}
  (numbers : y.toNat = h ∧ z.toNat = b) (key_eq : x.toNat = key)

include inside there channel numbers key_eq

theorem loadKey_returns (q : ℕ) :
    Returns ⟨sources node packed buffers, ∅⟩ (loadEntry floats packed buffers.s1
        ((frameAt packed.slot iq y z).kb + x * (frameAt packed.slot iq y z).kn + UInt32.ofNat c))
        m fun value m' =>
      value = (inputsOf floats node packed buffers cells q h b).k key c ∧ m' = m := by
  have holds := entryIndex_holds runs.broadcast.1 (channel.trans_eq runs.channels.2.1.symm) there
    inside
  refine loadEntry_returns runs.src1 runs.rows.2.1 holds (.inr (.inl ⟨_, holds, rfl⟩)) same channel
    ⟨rfl, key_eq, ?_, ?_⟩
  · rw [UInt32.toNat_div, numbers.1, runs.rk2]
    rfl
  · rw [UInt32.toNat_div, numbers.2, runs.rk3]
    rfl

theorem loadValue_returns (q : ℕ) :
    Returns ⟨sources node packed buffers, ∅⟩ (loadEntry floats packed buffers.s2
        ((frameAt packed.slot iq y z).vb + x * (frameAt packed.slot iq y z).vn + UInt32.ofNat c))
        m fun value m' =>
      value = (inputsOf floats node packed buffers cells q h b).v key c ∧ m' = m := by
  have holds := entryIndex_holds runs.broadcast.2 (channel.trans_eq runs.channels.2.2.1.symm)
    (there.trans_eq runs.keys.symm) inside
  refine loadEntry_returns runs.src2 runs.rows.2.2 holds (.inr (.inr ⟨_, holds, rfl⟩)) same channel
    ⟨rfl, key_eq, ?_, ?_⟩
  · rw [UInt32.toNat_div, numbers.1, runs.rv2]
    rfl
  · rw [UInt32.toNat_div, numbers.2, runs.rv3]
    rfl

end Loads

/-! ## The destination -/

open Classical in
/-- The element at an address of a tensor, if there is one. -/
noncomputable def indexAt (t : Move.Tensor) (address : ℕ) : Option (Fin 4 → ℕ) :=
  if there : ∃ i, t.Holds i ∧ t.element i = address then some there.choose else none

theorem indexAt_eq_some {t : Move.Tensor} {address : ℕ} {i : Fin 4 → ℕ}
    (found : indexAt t address = some i) : t.Holds i ∧ t.element i = address := by
  rw [indexAt] at found
  split at found
  next there => exact Option.some.inj found ▸ there.choose_spec
  next => cases found

/-- Elements that are apart are found. -/
theorem indexAt_element {t : Move.Tensor} (apart : t.Apart) {i : Fin 4 → ℕ} (holds : t.Holds i) :
    indexAt t (t.element i) = some i := by
  have there : ∃ j, t.Holds j ∧ t.element j = t.element i := ⟨i, holds, rfl⟩
  rw [indexAt, dif_pos there]
  exact congrArg some (apart there.choose_spec.1 holds there.choose_spec.2)

theorem indexAt_eq_none {t : Move.Tensor} {address : ℕ}
    (off : ∀ i, t.Holds i → t.element i ≠ address) : indexAt t address = none :=
  dif_neg fun there => off _ there.choose_spec.1 there.choose_spec.2

/-- The query, the head and the batch of a result. -/
theorem Runs.query_lt (runs : Runs floats packed node) {i : Fin 4 → ℕ} (holds : node.dst.Holds i) :
    i 0 < packed.depth.channels ∧ i 2 < node.q.ne 1 ∧ i 1 < node.q.ne 2 ∧ i 3 < node.q.ne 3 :=
  ⟨(holds 0).trans_eq runs.channels.2.2.2, (holds 2).trans_eq runs.shape.2.1,
    (holds 1).trans_eq runs.shape.1, (holds 3).trans_eq runs.shape.2.2⟩

theorem Runs.dst_holds (runs : Runs floats packed node) {c iq h b : ℕ}
    (channel : c < packed.depth.channels)
    (inside : iq < node.q.ne 1 ∧ h < node.q.ne 2 ∧ b < node.q.ne 3) :
    node.dst.Holds ![c, h, iq, b] := by
  intro d
  fin_cases d
  · exact channel.trans_eq runs.channels.2.2.2.symm
  · exact inside.2.1.trans_eq runs.shape.1.symm
  · exact inside.1.trans_eq runs.shape.2.1.symm
  · exact inside.2.2.trans_eq runs.shape.2.2.symm

/-- A result is stored at its own address. -/
theorem Runs.target_eq (runs : Runs floats packed node) {c iq h b : ℕ}
    (channel : c < packed.depth.channels)
    (inside : iq < node.q.ne 1 ∧ h < node.q.ne 2 ∧ b < node.q.ne 3) {x y z : UInt32}
    (numbers : x.toNat = iq ∧ y.toNat = h ∧ z.toNat = b) (buffers : Buffers) :
    target packed buffers x y z c = .word buffers.dst (node.dst.element ![c, h, iq, b]) := by
  have small : c < UInt32.size := channel.trans_le (by cases packed.depth <;> decide)
  have number : Move.numbers ![UInt32.ofNat c, y, x, z] = ![c, h, iq, b] := by
    funext d
    fin_cases d
    · exact UInt32.toNat_ofNat_of_lt' small
    · exact numbers.2.1
    · exact numbers.1
    · exact numbers.2.2
  rw [target, runs.dst.toNat_off4 (number ▸ runs.dst_holds channel inside), number]

/-- The count of the tiles does not wrap. -/
theorem Runs.tiles_eq (runs : Runs floats packed node) :
    tiles packed = (node.k.ne 1 + 31) / 32 := by
  have few := runs.few
  rw [tiles, UInt32.toNat_div, UInt32.toNat_add, runs.src1.ne]
  change (node.k.ne 1 + 31) % 2 ^ 32 / 32 = (node.k.ne 1 + 31) / 32
  rw [Nat.mod_eq_of_lt (by omega)]

/-- The number of a key of a tile does not wrap. -/
theorem Runs.toNat_key (runs : Runs floats packed node) {tt j : ℕ} (tile : tt < tiles packed)
    (low : j < 32) : (UInt32.ofNat (tt * 32) + UInt32.ofNat j).toNat = tt * 32 + j := by
  have few := runs.few
  have count := runs.tiles_eq
  rw [UInt32.toNat_add, UInt32.toNat_ofNat', UInt32.toNat_ofNat']
  omega

theorem Runs.key_lt_iff (runs : Runs floats packed node) {tt j : ℕ} (tile : tt < tiles packed)
    (low : j < 32) : UInt32.ofNat (tt * 32) + UInt32.ofNat j < packed.slot.src1.ne 1 ↔
      tt * 32 + j < node.k.ne 1 := by
  rw [UInt32.lt_iff_toNat_lt, runs.toNat_key tile low, runs.src1.ne]

section Results

variable (floats) (packed) (buffers : Buffers) (node)

/-- A result: `plus` adds a weighted value to a channel. -/
def resultOf (plus : Inputs F → ℕ → ℕ → F → ℕ → F → F) (cells : Cell → F) (i : Fin 4 → ℕ) : F :=
  let inputs := inputsOf floats node packed buffers cells (i 2) (i 1) (i 3)
  (partAfter floats packed inputs (node.k.ne 1) (plus inputs (node.k.ne 1))
    (tiles packed)).result floats (i 0)

/-- The memory after a node: the results are in place, and nothing else in the buffers changed. -/
def Done (plus : Inputs F → ℕ → ℕ → F → ℕ → F → F) (cells final : Cell → F) : Prop :=
  (∀ i, node.dst.Holds i →
    final (.word buffers.dst (node.dst.element i)) =
      resultOf floats node packed buffers plus cells i) ∧
  ∀ buffer index, (buffer = buffers.dst → ∀ i, node.dst.Holds i → node.dst.element i ≠ index) →
    final (.word buffer index) = cells (.word buffer index)

end Results

end DressOn.Ggml.FlashAttention
