import Mathlib.Data.List.GetD
import Mathlib.Logic.Function.Basic

/-!
# The vector side of the L-BFGS-B

A phase is a list of kernel dispatches over a fixed set of device buffers. Two
backends run it: one executes every dispatch at once, the other records them into
one compute list and submits it.

A kernel is a function from its params block and the buffers bound to it to new
contents of those buffers. `Scalar` stands for the 4-byte words of the buffers and
for the two float parameters.
-/

namespace DressOn.Lbfgsb.Vec

/-- The device buffers. -/
inductive Buf where
  | X | G | LB | UB | XP | GP | XLO | GLO | D | DCP | XCP | SV | YV | SM | YM
  | ST | BF | DOTS | VECC | WK | ISET | SC | VIN | VOUT
deriving DecidableEq, Repr

/-- What an op dispatches. -/
inductive Kind where
  | boxProject
  | pgInf
  | stepMax
  | multiDot
  | compact
  | ringStore
  | applyM
  | cauchy
  | subspace
  | saxpby
deriving DecidableEq, Repr

/-- One kernel dispatch. A dynamic op keeps one params block between phases. -/
structure Op (Scalar : Type*) where
  kind : Kind
  a : Buf
  b : Buf
  c : Buf
  u0 : ℕ
  u1 : ℕ
  u3 : ℕ
  fa : Scalar
  fb : Scalar
  dyn : Bool
deriving DecidableEq

section Ops

variable {Scalar : Type*} [Zero Scalar]

/-- An op whose other fields are the defaults. -/
def Op.of (Scalar : Type*) [Zero Scalar] (kind : Kind) : Op Scalar :=
  { kind := kind, a := .X, b := .X, c := .X, u0 := 0, u1 := 0, u3 := 0, fa := 0, fb := 0,
    dyn := false }

/-- `box_project`. -/
def boxProject (x : Buf) : Op Scalar := { Op.of Scalar .boxProject with a := x }

/-- `pg_inf`. -/
def pgInf (x g : Buf) (slot : ℕ) : Op Scalar :=
  { Op.of Scalar .pgInf with a := x, b := g, u0 := slot }

/-- `step_max`. -/
def stepMax (x d : Buf) (slot : ℕ) : Op Scalar :=
  { Op.of Scalar .stepMax with a := x, b := d, u0 := slot }

/-- `multi_dot`. -/
def multiDot (A : Buf) (ncols : ℕ) (v dst : Buf) (dstOff : ℕ) : Op Scalar :=
  { Op.of Scalar .multiDot with a := A, b := v, c := dst, u0 := ncols, u3 := dstOff }

/-- `dot`. -/
def dot (a b : Buf) (slot : ℕ) : Op Scalar := multiDot a 1 b .SC slot

/-- `compact`. -/
def compact (mode : ℕ) : Op Scalar := { Op.of Scalar .compact with u0 := mode }

/-- `ring_store`. -/
def ringStore : Op Scalar := Op.of Scalar .ringStore

/-- `apply_m`. -/
def applyM (inOff outOff : ℕ) : Op Scalar :=
  { Op.of Scalar .applyM with u0 := inOff, u1 := outOff }

/-- `cauchy`. -/
def cauchy : Op Scalar := Op.of Scalar .cauchy

/-- `subspace`. -/
def subspace (maxit : ℕ) : Op Scalar := { Op.of Scalar .subspace with u0 := maxit }

/-- `saxpby`. -/
def saxpby (dst x y : Buf) (a b : Scalar) (dyn : Bool) : Op Scalar :=
  { Op.of Scalar .saxpby with a := x, b := y, c := dst, fa := a, fb := b, dyn := dyn }

/-- The first buffer from `LB` on that is neither operand of a copy. -/
def otherThan (dst src : Buf) : Buf :=
  if Buf.LB ≠ dst ∧ Buf.LB ≠ src then .LB
  else if Buf.UB ≠ dst ∧ Buf.UB ≠ src then .UB
  else .XP

/-- `copy`. -/
def copy [One Scalar] (dst src : Buf) : Op Scalar :=
  saxpby dst src (otherThan dst src) 1 0 false

end Ops

/-- `buf_words`: the length of a buffer in 4-byte words. -/
def bufWords (b : Buf) (n mc : ℕ) : ℕ :=
  match b with
  | .SM | .YM => n * mc
  | .ST => 8
  | .BF => 4 + 4 * mc * mc + mc
  | .DOTS => 4 * mc + 6
  | .VECC => 2 * mc
  | .WK => 10 * n
  | .ISET => 8 + 3 * n
  | .SC => 32
  | .VIN | .VOUT => 2 * mc * (2 * mc + 3)
  | .X | .G | .LB | .UB | .XP | .GP | .XLO | .GLO | .D | .DCP | .XCP | .SV | .YV => n

/-- `kMaxHistory`. -/
def maxHistory : ℕ := 16

/-! ## Dispatches -/

/-- The kernels. -/
inductive Kernel where
  | lbBoxProject
  | lbPgInf
  | lbStepMax
  | lbMultiDot
  | lbCompact
  | lbRingStore
  | lbApplyM
  | lbCauchy
  | lbSubspace
  | saxpby
deriving DecidableEq, Repr

/-- The names the kernels bind buffers under. -/
inductive Binding where
  | x | lb | ub | g | d | dst | a | vv | dots | st | bf | s | y | S | Y | vin | vout
  | xcp | vecc | wk | iset | drt
deriving DecidableEq, Repr

/-- A word of a params block: an integer or a float. -/
abbrev Param (Scalar : Type*) := ℕ ⊕ Scalar

/-- One op as a backend sees it: the kernel, its bindings, its params and the launch. -/
structure Dispatch (Scalar : Type*) where
  kernel : Kernel
  binds : List (Binding × Buf)
  params : List (Param Scalar)
  groups : ℕ

section Describe

variable {Scalar : Type*}

/-- `describe`: the dispatch `VecRd` records for an op. -/
def describe (o : Op Scalar) (n mc : ℕ) : Dispatch Scalar :=
  let perElem := (n + 255) / 256
  match o.kind with
  | .boxProject => {
      kernel := .lbBoxProject
      binds := [(.x, o.a), (.lb, .LB), (.ub, .UB)]
      params := [.inl n]
      groups := perElem }
  | .pgInf => {
      kernel := .lbPgInf
      binds := [(.x, o.a), (.g, o.b), (.lb, .LB), (.ub, .UB), (.dst, .SC)]
      params := [.inl n, .inl o.u0]
      groups := 1 }
  | .stepMax => {
      kernel := .lbStepMax
      binds := [(.x, o.a), (.d, o.b), (.lb, .LB), (.ub, .UB), (.dst, .SC)]
      params := [.inl n, .inl o.u0]
      groups := 1 }
  | .multiDot => {
      kernel := .lbMultiDot
      binds := [(.a, o.a), (.vv, o.b), (.dst, o.c)]
      params := [.inl n, .inl o.u0, .inl 0, .inl (if o.u1 ≠ 0 then o.u1 else n), .inl 0, .inl o.u3]
      groups := o.u0 }
  | .compact => {
      kernel := .lbCompact
      binds := [(.dots, .DOTS), (.st, .ST), (.bf, .BF)]
      params := [.inl mc, .inl o.u0]
      groups := 1 }
  | .ringStore => {
      kernel := .lbRingStore
      binds := [(.st, .ST), (.s, .SV), (.y, .YV), (.S, .SM), (.Y, .YM)]
      params := [.inl n]
      groups := perElem }
  | .applyM => {
      kernel := .lbApplyM
      binds := [(.st, .ST), (.bf, .BF), (.vin, .VIN), (.vout, .VOUT)]
      params := [.inl mc, .inl o.u0, .inl o.u1]
      groups := 1 }
  | .cauchy => {
      kernel := .lbCauchy
      binds := [(.x, .X), (.g, .G), (.lb, .LB), (.ub, .UB), (.S, .SM), (.Y, .YM), (.st, .ST),
        (.bf, .BF), (.xcp, .XCP), (.vecc, .VECC), (.wk, .WK), (.iset, .ISET)]
      params := [.inl n, .inl mc]
      groups := 1 }
  | .subspace => {
      kernel := .lbSubspace
      binds := [(.x, .X), (.g, .G), (.lb, .LB), (.ub, .UB), (.S, .SM), (.Y, .YM), (.st, .ST),
        (.bf, .BF), (.xcp, .XCP), (.vecc, .VECC), (.iset, .ISET), (.drt, .D), (.wk, .WK)]
      params := [.inl n, .inl mc, .inl o.u0]
      groups := 1 }
  | .saxpby => {
      kernel := .saxpby
      binds := [(.x, o.a), (.y, o.b), (.dst, o.c)]
      params := [.inl n, .inr o.fa, .inr o.fb]
      groups := perElem }

/-- The dispatch `VecCpu` makes of an op; it counts threads, not groups. -/
def cpuDispatch (o : Op Scalar) (n mc : ℕ) : Dispatch Scalar :=
  match o.kind with
  | .boxProject => ⟨.lbBoxProject, [(.x, o.a), (.lb, .LB), (.ub, .UB)], [.inl n], n⟩
  | .pgInf =>
      ⟨.lbPgInf, [(.x, o.a), (.g, o.b), (.lb, .LB), (.ub, .UB), (.dst, .SC)],
        [.inl n, .inl o.u0], 1⟩
  | .stepMax =>
      ⟨.lbStepMax, [(.x, o.a), (.d, o.b), (.lb, .LB), (.ub, .UB), (.dst, .SC)],
        [.inl n, .inl o.u0], 1⟩
  | .multiDot =>
      ⟨.lbMultiDot, [(.a, o.a), (.vv, o.b), (.dst, o.c)],
        [.inl n, .inl o.u0, .inl 0, .inl (if o.u1 ≠ 0 then o.u1 else n), .inl 0, .inl o.u3],
        o.u0⟩
  | .compact => ⟨.lbCompact, [(.dots, .DOTS), (.st, .ST), (.bf, .BF)], [.inl mc, .inl o.u0], 1⟩
  | .ringStore =>
      ⟨.lbRingStore, [(.st, .ST), (.s, .SV), (.y, .YV), (.S, .SM), (.Y, .YM)], [.inl n], n⟩
  | .applyM =>
      ⟨.lbApplyM, [(.st, .ST), (.bf, .BF), (.vin, .VIN), (.vout, .VOUT)],
        [.inl mc, .inl o.u0, .inl o.u1], 1⟩
  | .cauchy =>
      ⟨.lbCauchy, [(.x, .X), (.g, .G), (.lb, .LB), (.ub, .UB), (.S, .SM), (.Y, .YM), (.st, .ST),
        (.bf, .BF), (.xcp, .XCP), (.vecc, .VECC), (.wk, .WK), (.iset, .ISET)],
        [.inl n, .inl mc], 1⟩
  | .subspace =>
      ⟨.lbSubspace, [(.x, .X), (.g, .G), (.lb, .LB), (.ub, .UB), (.S, .SM), (.Y, .YM), (.st, .ST),
        (.bf, .BF), (.xcp, .XCP), (.vecc, .VECC), (.iset, .ISET), (.drt, .D), (.wk, .WK)],
        [.inl n, .inl mc, .inl o.u0], 1⟩
  | .saxpby =>
      ⟨.saxpby, [(.x, o.a), (.y, o.b), (.dst, o.c)], [.inl n, .inr o.fa, .inr o.fb], n⟩

/-- Both backends make the same dispatch of an op. -/
theorem cpuDispatch_eq (o : Op Scalar) (n mc : ℕ) :
    cpuDispatch o n mc = { describe o n mc with groups := (cpuDispatch o n mc).groups } := by
  obtain ⟨kind, _, _, _, _, _, _, _, _, _⟩ := o
  cases kind <;> rfl

/-- Both backends skip the same dispatches. -/
theorem cpuDispatch_groups_eq_zero (o : Op Scalar) {n : ℕ} (mc : ℕ) (some : n ≠ 0) :
    (cpuDispatch o n mc).groups = 0 ↔ (describe o n mc).groups = 0 := by
  have perElem : (n + 255) / 256 ≠ 0 := by omega
  obtain ⟨kind, _, _, _, _, _, _, _, _, _⟩ := o
  cases kind <;> simp [cpuDispatch, describe, some, perElem]

end Describe

/-! ## Execution -/

section Execution

variable {Scalar : Type*}

/-- The words of a buffer. -/
abbrev Contents (Scalar : Type*) := ℕ → Scalar

/-- All the buffers. -/
abbrev Buffers (Scalar : Type*) := Buf → Contents Scalar

/-- What the kernels compute: from the words of the params block and the contents bound
to each name, the new contents under each name. -/
abbrev Kernels (Scalar : Type*) :=
  Kernel → (ℕ → Param Scalar) → (Binding → Contents Scalar) → Binding → Contents Scalar

variable [Zero Scalar]

/-- The contents bound to a name. -/
def bound (binds : List (Binding × Buf)) (bufs : Buffers Scalar) (name : Binding) :
    Contents Scalar :=
  match binds.find? (·.1 = name) with
  | some bind => bufs bind.2
  | none => fun _ => 0

/-- A dispatch leaves in each bound buffer what the kernel computes for it. -/
def execute (kernels : Kernels Scalar) (kernel : Kernel) (params : List (Param Scalar))
    (binds : List (Binding × Buf)) (bufs : Buffers Scalar) : Buffers Scalar :=
  let out := kernels kernel (fun i => params.getD i (.inl 0)) (bound binds bufs)
  fun b =>
    match binds.find? (·.2 = b) with
    | some bind => out bind.1
    | none => bufs b

/-- Words past the end of a params block change nothing. -/
theorem execute_append_zeros (kernels : Kernels Scalar) (kernel : Kernel)
    (params : List (Param Scalar)) (more : ℕ) (binds : List (Binding × Buf))
    (bufs : Buffers Scalar) :
    execute kernels kernel (params ++ List.replicate more (.inl 0)) binds bufs =
      execute kernels kernel params binds bufs := by
  have words : (fun i => (params ++ List.replicate more (.inl 0 : Param Scalar)).getD i (.inl 0)) =
      fun i => params.getD i (.inl 0 : Param Scalar) := by
    funext i
    by_cases inside : i < params.length
    · rw [List.getD_append _ _ _ _ inside]
    · rw [List.getD_append_right _ _ _ _ (by omega), List.getD_eq_getElem?_getD,
        List.getElem?_getD_replicate_default_eq, List.getD_eq_default _ _ (by omega)]
  simp only [execute, words]

end Execution

/-! ## Calls -/

/-- What a caller asks of a backend. -/
inductive Call (Scalar : Type*) where
  | setup (n mcap : ℕ)
  | upload (b : Buf) (data : List Scalar) (off : ℕ)
  | read (b : Buf) (words off : ℕ)
  | run (ops : List (Op Scalar))

/-- What a backend answers. -/
inductive Answer (Scalar : Type*) where
  | ok
  | refused
  | data (words : List Scalar)
deriving DecidableEq

section Cpu

variable {Scalar : Type*} [Zero Scalar]

/-- `VecCpu`: the buffers and their lengths. -/
structure VecCpu (Scalar : Type*) where
  n : ℕ
  mc : ℕ
  words : Buf → ℕ
  bufs : Buffers Scalar

/-- A backend before its first setup. -/
def VecCpu.empty : VecCpu Scalar := ⟨0, 0, fun _ => 0, fun _ _ => 0⟩

/-- Words written over a buffer from an offset on. -/
def overwrite (data : List Scalar) (off : ℕ) (old : Contents Scalar) : Contents Scalar :=
  fun i => if off ≤ i ∧ i < off + data.length then data.getD (i - off) 0 else old i

/-- Words read from a buffer from an offset on. -/
def slice (words off : ℕ) (contents : Contents Scalar) : List Scalar :=
  (List.range words).map fun i => contents (off + i)

namespace VecCpu

variable (kernels : Kernels Scalar) (v : VecCpu Scalar)

/-- One op, executed at once. -/
def exec (bufs : Buffers Scalar) (o : Op Scalar) : Buffers Scalar :=
  let d := cpuDispatch o v.n v.mc
  if d.groups = 0 then bufs else execute kernels d.kernel d.params d.binds bufs

/-- `VecCpu::setup`, `upload`, `read` and `run`. -/
def step : Call Scalar → VecCpu Scalar × Answer Scalar
  | .setup n mcap =>
      if n = 0 ∨ mcap = 0 ∨ maxHistory < mcap then (v, .refused)
      else (⟨n, mcap, fun b => bufWords b n mcap, fun _ _ => 0⟩, .ok)
  | .upload b data off =>
      if v.words b < off + data.length then (v, .refused)
      else ({ v with
        bufs := Function.update v.bufs b (overwrite data off (v.bufs b)) }, .ok)
  | .read b words off =>
      if v.words b < off + words then (v, .refused)
      else (v, .data (slice words off (v.bufs b)))
  | .run ops => ({ v with bufs := ops.foldl (v.exec kernels) v.bufs }, .ok)

end VecCpu

end Cpu

end DressOn.Lbfgsb.Vec
