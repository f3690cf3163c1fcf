import DressOn.Ggml.Move
import Mathlib.Data.Nat.Bitwise

/-!
# The data movement kernels

Each kernel supplies `val`, the destination element at an index in the
destination's bit pattern, and one of two entries stores it. `entry16` gives a
4-byte word to the thread of its even address when that one is an element, and
else to the thread of its odd address.

The sources are read from words that the dispatch does not write.
-/

namespace DressOn.Ggml.Move

open OwnedCells

/-- A buffer of `uint` words. -/
abbrev Words := ℕ → UInt32

/-- The four indices of an element. -/
abbrev Index := Fin 4 → UInt32

/-- `unravel4`. -/
def unravel4 (b : Block) (e : UInt32) : Index
  | 0 => e % b.ne 0
  | 1 => e / b.ne 0 % b.ne 1
  | 2 => e / b.ne 0 / b.ne 1 % b.ne 2
  | 3 => e / b.ne 0 / b.ne 1 / b.ne 2

/-- `off4`. -/
def off4 (b : Block) (i : Index) : UInt32 :=
  b.off + i 0 * b.nb 0 + i 1 * b.nb 1 + i 2 * b.nb 2 + i 3 * b.nb 3

/-! ## Loads and conversions -/

/-- `ld16`: 16-bit element `e` of a `uint` word buffer. -/
def ld16 (buf : Words) (e : UInt32) : UInt32 :=
  (buf (e >>> 1).toNat >>> ((e &&& 1) * 16) : UInt32) &&& 65535

/-- The loop of `f16_to_f32` that brings a subnormal's leading bit to bit 10. A nonzero
mantissa of ten bits needs ten turns at most. -/
def normalise : ℕ → UInt32 → UInt32 → UInt32 × UInt32
  | 0, m, x2 => (m, x2)
  | turns + 1, m, x2 =>
      if m &&& 1024 = 0 then normalise turns (m <<< 1) (x2 - 1) else (m, x2)

/-- The loop has ended after ten turns. -/
theorem normalise_ends (m : Fin 1024) (nonzero : m ≠ 0) (x2 : UInt32) :
    (normalise 10 (UInt32.ofNat m.val) x2).1 &&& 1024 ≠ 0 := by
  have mantissa : ∀ (turns : ℕ) (m x2 x2' : UInt32),
      (normalise turns m x2).1 = (normalise turns m x2').1 := by
    intro turns
    induction turns with
    | zero => intros; rfl
    | succ turns ih =>
        intro m x2 x2'
        rw [normalise, normalise]
        split
        · exact ih _ _ _
        · rfl
  rw [mantissa 10 _ x2 0]
  revert m
  decide +kernel

/-- `f16_to_f32`: the f32 bits of f16 bits `h`. -/
def f16ToF32 (h : UInt32) : UInt32 :=
  let s : UInt32 := (h &&& 32768) <<< 16
  let x : UInt32 := (h >>> 10) &&& 31
  let m : UInt32 := h &&& 1023
  if x = 31 then s ||| (2139095040 : UInt32) ||| (m <<< 13 : UInt32)
  else if x ≠ 0 then s ||| ((x + 112) <<< 23 : UInt32) ||| (m <<< 13 : UInt32)
  else if m = 0 then s
  else
    let (m, x2) := normalise 10 m 113
    s ||| (x2 <<< 23 : UInt32) ||| ((m &&& 1023) <<< 13 : UInt32)

/-- `f32_to_f16`: the f16 bits of f32 bits `b`, rounded to nearest even. -/
def f32ToF16 (b : UInt32) : UInt32 :=
  let s : UInt32 := (b >>> 16) &&& 32768
  let a : UInt32 := b &&& 2147483647
  if 2139095040 < a then s ||| 32256
  else if 1199566848 ≤ a then s ||| 31744
  else if 947912704 ≤ a then
    let m : UInt32 := a - 939524096
    s ||| ((m + (4095 : UInt32) + ((m >>> 13 : UInt32) &&& 1)) >>> 13 : UInt32)
  else
    let x : UInt32 := a >>> 23
    if x < 102 then s
    else
      let q : UInt32 := (a &&& 8388607) ||| 8388608
      let sh : UInt32 := 126 - x
      s ||| ((q + ((1 <<< (sh - 1) : UInt32) - 1) + ((q >>> sh : UInt32) &&& 1)) >>> sh : UInt32)

/-- `f32_to_bf16`: rounded to nearest even. -/
def f32ToBf16 (b : UInt32) : UInt32 :=
  if 2139095040 < b &&& 2147483647 then (b >>> 16 : UInt32) ||| 64
  else (b + ((32767 : UInt32) + ((b >>> 16 : UInt32) &&& 1))) >>> 16

/-- How a kernel's elements are stored. -/
inductive Kind where
  | b32
  | b16
  | f16
  | bf16
  | f32
deriving DecidableEq, Repr

/-- `load`: element `e` of a buffer as its raw bits. -/
def load (kind : Kind) (buf : Words) (e : UInt32) : UInt32 :=
  match kind with
  | .b32 | .f32 => buf e.toNat
  | .b16 | .f16 | .bf16 => ld16 buf e

/-- `conv`'s `toF32`. -/
def toF32 (s : Kind) (x : UInt32) : UInt32 :=
  match s with
  | .f16 => f16ToF32 x
  | .bf16 => x <<< 16
  | .b32 | .b16 | .f32 => x

/-- `conv`: raw bits of kind `s` as raw bits of kind `d`. -/
def conv (s d : Kind) (x : UInt32) : UInt32 :=
  match s, d with
  | .b32, _ | .b16, _ => x
  | _, .f16 => if s = .f16 then x else f32ToF16 (toF32 s x)
  | _, .bf16 => if s = .bf16 then x else f32ToBf16 (toF32 s x)
  | _, _ => toF32 s x

/-! ## The values -/

/-- `valCpy`. -/
def valCpy (s d : Kind) (w : Slot) (s0 : Words) (i : Index) : UInt32 :=
  let l := i 0 * w.linW 0 + i 1 * w.linW 1 + i 2 * w.linW 2 + i 3 * w.linW 3
  conv s d (load s s0 (off4 w.src0 (unravel4 w.src0 l)))

/-- `valConcat`. -/
def valConcat (k : Kind) (w : Slot) (s0 s1 : Words) (i : Index) : UInt32 :=
  let a := w.src0.ne
  if i 0 < a 0 ∧ i 1 < a 1 ∧ i 2 < a 2 ∧ i 3 < a 3 then load k s0 (off4 w.src0 i)
  else load k s1 (off4 w.src1 fun d => if a d ≤ i d then i d - a d else i d)

/-- `valRepeat`. -/
def valRepeat (k : Kind) (w : Slot) (s0 : Words) (i : Index) : UInt32 :=
  load k s0 (off4 w.src0 fun d => i d % w.src0.ne d)

/-- The `val` of a kernel. -/
def Kernel.val (kernel : Kernel) (w : Slot) (s0 s1 : Words) : Index → UInt32 :=
  match kernel with
  | .cpyB32 => valCpy .b32 .b32 w s0
  | .cpyB16 => valCpy .b16 .b16 w s0
  | .cpyF32F16 => valCpy .f32 .f16 w s0
  | .cpyF32Bf16 => valCpy .f32 .bf16 w s0
  | .cpyF16F32 => valCpy .f16 .f32 w s0
  | .cpyBf16F32 => valCpy .bf16 .f32 w s0
  | .cpyF16Bf16 => valCpy .f16 .bf16 w s0
  | .cpyBf16F16 => valCpy .bf16 .f16 w s0
  | .concatB32 => valConcat .b32 w s0 s1
  | .concatB16 => valConcat .b16 w s0 s1
  | .repeatB32 => valRepeat .b32 w s0
  | .repeatB16 => valRepeat .b16 w s0

/-! ## The entries -/

/-- A thread of the grid. -/
structure Thread (gx gy : ℕ) where
  gidY : Fin gy
  gidX : Fin gx
  lid : Fin threadgroup
deriving DecidableEq

/-- `linearThread`: the element of a thread. -/
def element {gx gy : ℕ} (w : Slot) (thread : Thread gx gy) : UInt32 :=
  (UInt32.ofNat thread.gidY.val * w.groupsX + UInt32.ofNat thread.gidX.val) * 256 +
    UInt32.ofNat thread.lid.val

/-- `mbit`: bit `k` of the merge chain. -/
def mbit (m : UInt32) (k : ℕ) : Bool := m &&& UInt32.ofNat (2 ^ k) != 0

/-- `hasPrev`: the address before an element's is an element's. -/
def hasPrev (m : UInt32) (i : Index) : Bool :=
  mbit m 0 && decide (0 < i 0) || mbit m 1 && decide (0 < i 1) || mbit m 2 && decide (0 < i 2) ||
    mbit m 3 && decide (0 < i 3)

/-- The element at the next address: `k0` to `k3`, or `none` when `hasNext` is false. -/
def nextIndex (b : Block) (m : UInt32) (i : Index) : Option Index :=
  if mbit m 0 ∧ i 0 + 1 < b.ne 0 then some ![i 0 + 1, i 1, i 2, i 3]
  else if mbit m 1 ∧ i 1 + 1 < b.ne 1 then some ![0, i 1 + 1, i 2, i 3]
  else if mbit m 2 ∧ i 2 + 1 < b.ne 2 then some ![0, 0, i 2 + 1, i 3]
  else if mbit m 3 ∧ i 3 + 1 < b.ne 3 then some ![0, 0, 0, i 3 + 1]
  else none

/-- `entry16`: the word a thread writes and what it makes of it. -/
def entry16 {gx gy : ℕ} (w : Slot) (val : Index → UInt32) (thread : Thread gx gy) :
    Option (Update ℕ UInt32) :=
  let e := element w thread
  if w.threads ≤ e then none
  else
    let i := unravel4 w.dst e
    let a := off4 w.dst i
    let m := w.merge
    let word := (a >>> 1).toNat
    if a &&& 1 ≠ 0 then
      if hasPrev m i then none
      else some ⟨word, fun old => (old &&& (65535 : UInt32)) ||| (val i <<< 16 : UInt32)⟩
    else
      match nextIndex w.dst m i with
      | some k => some ⟨word, fun _ => val i ||| (val k <<< 16 : UInt32)⟩
      | none => some ⟨word, fun old => (old &&& (4294901760 : UInt32)) ||| val i⟩

end DressOn.Ggml.Move
