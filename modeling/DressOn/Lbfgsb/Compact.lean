import DressOn.Lib.Numerals
import Mathlib

/-!
# The compact L-BFGS-B matrices on the device

The buffers `lb_compact` and `lb_ring_store` work on and the products
`appendPost` prepares for them. `bf` is one flat buffer: theta at 0, then the
`mc × mc` blocks `S^T S`, `S^T Y`, `L`, `T` from 4 on, then the diagonal `D`.
The arithmetic is exact, so the low halves of the paired sums come out zero;
`sqrt` is only used for the factor of `T`.
-/

namespace DressOn.Lbfgsb

/-- One pair of vectors, `s = x - xp` and `y = g - gp`. -/
structure Pair (α : Type*) where
  s : Nat → α
  y : Nat → α

/-- The buffers `ST`, `BF`, `DOTS`, `SV`, `YV`, `SM`, `YM`. -/
structure Mem (α : Type*) where
  st : Nat → Nat
  bf : Nat → α
  dots : Nat → α
  sv : Nat → α
  yv : Nat → α
  sm : Nat → α
  ym : Nat → α

variable {α : Type*} [Field α]

/-- `two_sum`: the sum and its rounding error. -/
def twoSum (a b : α) : α × α :=
  let h := a + b
  let bb := h - a
  let ah := h - bb
  let loA := a - ah
  let loB := b - bb
  (h, loA + loB)

/-- `quick_two_sum`. -/
def quickTwoSum (a b : α) : α × α :=
  let h := a + b
  let t := h - a
  (h, b - t)

/-- `two_prod`; the fused product is exact. -/
def twoProd (a b : α) : α × α :=
  let h := a * b
  (h, a * b + -h)

/-- `df_add`. -/
def dfAdd (x y : α × α) : α × α :=
  let s := twoSum x.1 y.1
  let xyLo := x.2 + y.2
  quickTwoSum s.1 (s.2 + xyLo)

/-- `df_acc`. -/
def dfAcc (acc : α × α) (a b : α) : α × α := dfAdd acc (twoProd a b)

/-- `lb_multi_dot`: column `j` of `a` against `vv`, as a pair at `dstOff + 2j`. -/
def multiDot (n ncols : Nat) (a vv : Nat → α) (dstOff : Nat) (dst : Nat → α) : Nat → α :=
  (List.range ncols).foldl (fun dst j =>
    let acc := (List.range n).foldl (fun acc i => dfAcc acc (a (j * n + i)) (vv i)) ((0 : α), (0 : α))
    Function.update (Function.update dst (dstOff + 2 * j) acc.1) (dstOff + 2 * j + 1) acc.2) dst

/-- The products of `appendPost`: both histories against `s`, then `s.y`, `y.y`, `s.s`. -/
def appendPost (mc n : Nat) (m : Mem α) : Mem α :=
  let dots := multiDot n mc m.sm m.sv 0 m.dots
  let dots := multiDot n mc m.ym m.sv (2 * mc) dots
  let dots := multiDot n 1 m.yv m.sv (4 * mc) dots
  let dots := multiDot n 1 m.yv m.yv (4 * mc + 2) dots
  let dots := multiDot n 1 m.sv m.sv (4 * mc + 4) dots
  { m with dots := dots }

/-- The cells of `bf`. -/
inductive Cell where
  | theta
  | ss (i j : Nat)
  | sy (i j : Nat)
  | l (i j : Nat)
  | t (i j : Nat)
  | d (k : Nat)
deriving DecidableEq

/-- Where a cell lies in `bf`. -/
def addr (mc : Nat) : Cell → Nat
  | .theta => 0
  | .ss i j => 4 + i * mc + j
  | .sy i j => 4 + mc * mc + i * mc + j
  | .l i j => 4 + 2 * mc * mc + i * mc + j
  | .t i j => 4 + 3 * mc * mc + i * mc + j
  | .d k => 4 + 4 * mc * mc + k

/-- Store a value in a cell. -/
def put (mc : Nat) (bf : Nat → α) (c : Cell) (x : α) : Nat → α := Function.update bf (addr mc c) x

/-- `asfloat(872415232u)`, which is 2⁻²³. -/
def eps : α := 1 / 2 ^ 23

/-- `mode == 1`: an empty history. -/
def compactReset (mc : Nat) (m : Mem α) : Mem α :=
  let st := Function.update m.st 0 0
  let st := Function.update st 1 mc
  let st := Function.update st 2 0
  let st := Function.update st 3 0
  let st := Function.update st 4 1
  { m with st := st, bf := put mc m.bf .theta 1 }

/-- The products of the new pair against the stored `S`: row and column `loc`. -/
def ssPass (mc loc ncorr : Nat) (dots : Nat → α) (ss : α) (bf : Nat → α) : Nat → α :=
  (List.range ncorr).foldl (fun bf j =>
    let sj := if j = loc then ss else dots (2 * j) + dots (2 * j + 1)
    put mc (put mc bf (.ss loc j) sj) (.ss j loc) sj) bf

/-- Column `loc` of `S^T Y` is cleared: no older `s` has a product with the new `y`. -/
def clearPass (mc loc : Nat) (bf : Nat → α) : Nat → α :=
  (List.range mc).foldl (fun bf i => put mc bf (.sy i loc) 0) bf

/-- Row `loc` of `S^T Y`: the stored `Y` against the new `s`. -/
def syPass (mc loc ncorr : Nat) (dots : Nat → α) (sy : α) (bf : Nat → α) : Nat → α :=
  (List.range ncorr).foldl (fun bf j =>
    put mc bf (.sy loc j)
      (if j = loc then sy else dots (2 * mc + 2 * j) + dots (2 * mc + 2 * j + 1))) bf

/-- The `ok == 1` branch. -/
def acceptPair (mc : Nat) (sy yy ss : α) (m : Mem α) : Mem α :=
  let loc := m.st 1 % mc
  let ncorr := min (m.st 0 + 1) mc
  let bf := ssPass mc loc ncorr m.dots ss m.bf
  let bf := clearPass mc loc bf
  let bf := syPass mc loc ncorr m.dots sy bf
  let bf := put mc bf (.d loc) sy
  let bf := put mc bf .theta (yy / sy)
  let st := Function.update m.st 0 ncorr
  let st := Function.update st 1 (loc + 1)
  let st := Function.update st 2 loc
  { m with st := st, bf := bf }

/-- The age rank of a slot: 0 for the oldest. -/
def rank (mc oldest i : Nat) : Nat := (i + mc - oldest) % mc

/-- `L` from `S^T Y`, by age. -/
def lowerPass (mc ncorr oldest : Nat) (bf : Nat → α) : Nat → α :=
  (List.range ncorr).foldl (fun bf i =>
    (List.range ncorr).foldl (fun bf j =>
      put mc bf (.l i j)
        (if rank mc oldest j < rank mc oldest i then bf (addr mc (.sy i j)) else 0)) bf) bf

/-- The lower triangle of `T = theta S^T S + L D^-1 L^T`. -/
def middlePass (mc ncorr : Nat) (theta : α) (bf : Nat → α) : Nat → α :=
  (List.range ncorr).foldl (fun bf i =>
    (List.range (i + 1)).foldl (fun bf j =>
      let acc := (List.range ncorr).foldl (fun acc k =>
        acc + bf (addr mc (.l i k)) * bf (addr mc (.l j k)) / bf (addr mc (.d k)))
        (theta * bf (addr mc (.ss i j)))
      put mc bf (.t i j) acc) bf) bf

section Ordered

variable [LinearOrder α] (sqrt : α → α)

/-- One column of the Cholesky factorisation of `T`, in place; a pivot that is
not positive clears the flag. -/
def choleskyColumn (mc ncorr : Nat) (s : (Nat → α) × Nat) (cj : Nat) : (Nat → α) × Nat :=
  let cs := (List.range cj).foldl (fun cs ct =>
    cs - s.1 (addr mc (.t cj ct)) * s.1 (addr mc (.t cj ct))) (s.1 (addr mc (.t cj cj)))
  let cok := if cs ≤ 0 then 0 else s.2
  let cs := if cs ≤ 0 then eps * eps else cs
  let cd := sqrt cs
  let bf := put mc s.1 (.t cj cj) cd
  let bf := (List.range' (cj + 1) (ncorr - (cj + 1))).foldl (fun bf ci =>
    let cr := (List.range cj).foldl (fun cr ct =>
      cr - bf (addr mc (.t ci ct)) * bf (addr mc (.t cj ct))) (bf (addr mc (.t ci cj)))
    put mc bf (.t ci cj) (cr / cd)) bf
  (bf, cok)

/-- `lb_compact`. -/
def lbCompact (mc mode : Nat) (m : Mem α) : Mem α :=
  if mode = 1 then compactReset mc m
  else
    let sy := m.dots (4 * mc) + m.dots (4 * mc + 1)
    let yy := m.dots (4 * mc + 2) + m.dots (4 * mc + 2 + 1)
    let ss := m.dots (4 * mc + 4) + m.dots (4 * mc + 4 + 1)
    let ok := if eps * yy < sy then 1 else 0
    let m := { m with st := Function.update m.st 3 ok }
    let m := if ok = 1 then acceptPair mc sy yy ss m else m
    let ncorr := m.st 0
    let oldest := (m.st 1 + mc - ncorr) % mc
    let theta := m.bf (addr mc .theta)
    let bf := lowerPass mc ncorr oldest m.bf
    let bf := middlePass mc ncorr theta bf
    let out := (List.range ncorr).foldl (choleskyColumn sqrt mc ncorr) (bf, 1)
    { m with bf := out.1, st := Function.update m.st 4 out.2 }

/-- `lb_ring_store`: slot `st[2]` receives an accepted pair. -/
def lbRingStore (n : Nat) (m : Mem α) : Mem α :=
  (List.range n).foldl (fun m i =>
    if m.st 3 = 0 then m
    else { m with
      sm := Function.update m.sm (m.st 2 * n + i) (m.sv i)
      ym := Function.update m.ym (m.st 2 * n + i) (m.yv i) }) m

/-- What the driver asks of the history. -/
inductive Op (α : Type*) where
  | reset
  | add (pair : Pair α)

/-- A reset, or an addition: `appendPost`'s products of the pair, then
`compact(0)` and `ring_store()` as `direction` submits them. -/
def step (mc n : Nat) (m : Mem α) : Op α → Mem α
  | .reset => lbCompact sqrt mc 1 m
  | .add pair =>
    lbRingStore n (lbCompact sqrt mc 0 (appendPost mc n { m with sv := pair.s, yv := pair.y }))

end Ordered

end DressOn.Lbfgsb
