import DressOn.Lib.BinaryFloats
import DressOn.Lbfgsb.Vec

/-!
# The stepwise L-BFGS-B driver

`minimize` in reverse communication: every call of `next` ends in a submitted phase, in a
question to the caller, or in an answer. Vectors are 32-bit numbers in the backend's
buffers, the driver's scalars are 64-bit numbers. The projection and `saxpby` are modelled
as their kernels compute them; of the other kernels only the buffers they write are.
-/

namespace DressOn.Stepwise

open Lib.BinaryFloats Lbfgsb.Vec

/-- The numbers of the buffers. -/
def single : Format := ⟨24, -149, 128, by decide⟩

/-- The numbers of the driver. -/
def double : Format := ⟨53, -1074, 1024, by decide⟩

/-- `float`. -/
abbrev Single := Number single

/-- `double`. -/
abbrev Double := Number double

/-- A literal of the source. -/
def lit (q : ℚ) : Double := Number.ofRat q

/-- `kInf`. -/
def kInf : Double := .infinity false

/-- `std::min`. -/
def minimum (a b : Double) : Double := if b.lt a then b else a

/-- `std::max`. -/
def maximum (a b : Double) : Double := if a.lt b then b else a

/-! ## Kernels -/

/-- An integer word of a params block. -/
def word : Param Single → ℕ
  | .inl n => n
  | .inr _ => 0

/-- A float word of a params block. -/
def coefficient : Param Single → Single
  | .inl _ => 0
  | .inr a => a

/-- `F32_min(F32_max(x, lb), ub)`. -/
def clamp (x lb ub : Single) : Single :=
  let raised := if lb.lt x then x else lb
  if raised.lt ub then raised else ub

/-- The names a kernel declares writable. -/
def outputs : Kernel → List Binding
  | .lbBoxProject => [.x]
  | .lbPgInf | .lbStepMax | .lbMultiDot | .saxpby => [.dst]
  | .lbCompact => [.st, .bf]
  | .lbRingStore => [.S, .Y]
  | .lbApplyM => [.vout]
  | .lbCauchy => [.xcp, .vecc, .wk, .iset]
  | .lbSubspace => [.iset, .drt, .wk]

/-- The kernels: `lb_box_project` and `saxpby` as they are, the others as they come. -/
def kernels (outside : Kernels Single) : Kernels Single := fun kernel params bufs name =>
  if name ∈ outputs kernel then
    match kernel with
    | .lbBoxProject => fun i =>
        if i < word (params 0) then clamp (bufs .x i) (bufs .lb i) (bufs .ub i) else bufs .x i
    | .saxpby => fun i =>
        if i < word (params 0) then
          (coefficient (params 1)).fma (bufs .x i) (coefficient (params 2) * bufs .y i)
        else bufs .dst i
    | _ => outside kernel params bufs name
  else bufs name

/-! ## The line search's step selection -/

/-- `quadMin3`. -/
def quadMin3 (a b fa ga fb : Double) : Double :=
  let ba := b - a
  let w := lit (1 / 2) * ba * ga / (fa - fb + ba * ga)
  a + w * ba

/-- `quadMin2`. -/
def quadMin2 (a b ga gb : Double) : Double :=
  let w := ga / (ga - gb)
  a + w * (b - a)

/-- `cubicMin`, with `exists`. -/
def cubicMin (a b fa fb ga gb : Double) : Double × Bool :=
  let apb := a + b
  let ba := b - a
  let ba2 := ba * ba
  let fba := fb - fa
  let gba := gb - ga
  let z3 := (ga + gb) * ba - lit 2 * fba
  let z2 := lit (1 / 2) * (gba * ba2 - lit 3 * apb * z3)
  let z1 := fba * ba2 - apb * z2 - (a * apb + b * b) * z3
  let eps := lit (1 / 2 ^ 52)
  if z3.abs.lt (eps * z2.abs) || z3.abs.lt (eps * z1.abs) then
    if (0 : Double).lt (z2 * ba) then (lit (-1 / 2) * z1 / z2, true) else (b, false)
  else
    let u := z2 / (lit 3 * z3)
    let v := z1 / z2
    let vu := v / u
    if vu.le 1 then
      let roots :=
        if v.abs.le u.abs then
          let w := 1 + (1 - vu).sqrt
          (-u * w, -v / w)
        else
          let sqrtd := u.abs.sqrt * v.abs.sqrt * (1 - u / v).sqrt
          (-u - sqrtd, -u + sqrtd)
      (if (0 : Double).lt (z3 * ba) then maximum roots.1 roots.2 else minimum roots.1 roots.2, true)
    else (b, false)

/-- `stepSelection`. -/
def stepSelection (al au at' fl fu ft gl gu gt : Double) : Double :=
  if al.eq au then al
  else if !ft.isFinite || !gt.isFinite then (al + at') / lit 2
  else
    let (ac, acExists) := cubicMin al at' fl ft gl gt
    let aq := quadMin3 al at' fl gl ft
    if fl.lt ft then
      if !acExists then aq
      else if (ac - al).abs.lt (aq - al).abs then ac
      else (aq + ac) / lit 2
    else
      let as' := quadMin2 al at' gl gt
      if (gt * gl).lt 0 then
        if (as' - at').abs.le (ac - at').abs then ac else as'
      else
        let deltal := lit (11 / 10)
        let deltau := lit (66 / 100)
        let limited := fun res =>
          if al.lt at' then minimum (at' + deltau * (au - at')) res
          else maximum (at' + deltau * (au - at')) res
        if gt.abs.lt gl.abs then
          limited (if acExists && (0 : Double).lt ((ac - at') * (at' - al)) &&
            (ac - at').abs.lt (as' - at').abs then ac else as')
        else if !au.isFinite || !fu.isFinite || !gu.isFinite then at' + deltal * (at' - al)
        else limited (cubicMin at' au ft fu gt gu).1

/-! ## State -/

/-- `LbfgsbParams`, with its defaults. -/
structure LbfgsbParams where
  m : ℤ := 6
  epsilon : Double := lit (1 / 10 ^ 5)
  epsilonRel : Double := lit (1 / 10 ^ 5)
  past : ℤ := 1
  delta : Double := lit (1 / 10 ^ 10)
  maxIterations : ℤ := 0
  maxSubmin : ℤ := 10
  maxLinesearch : ℤ := 20
  minStep : Double := lit (1 / 10 ^ 20)
  maxStep : Double := lit (10 ^ 20)
  ftol : Double := lit (1 / 10 ^ 4)
  wolfe : Double := lit (9 / 10)

/-- What a call returns. -/
inductive Status where
  | busy | needEval | try | accept | converged | fail
deriving DecidableEq, Repr

/-- The phase in flight. -/
inductive Phase where
  | none | init | x0 | prep | dir | dirReset | patho | trial | post | restore
deriving DecidableEq, Repr

/-- What the driver waits for from the caller. -/
inductive Await where
  | none | eval0 | trial | accept | done
deriving DecidableEq, Repr

/-- Where the low point lives: at the start of the line search, at the current point, or in
its own buffers. -/
inductive LoAt where
  | start | current | buf
deriving DecidableEq, Repr

/-- `Lbfgsb`. -/
structure Lbfgsb where
  v : VecCpu Single
  p : LbfgsbParams := {}
  n : ℕ := 0
  phase : Phase := .none
  await : Await := .none
  sc : ℕ → Single := fun _ => 0
  err : String := ""
  reason : String := ""
  k : ℕ := 0
  nfev : ℕ := 0
  fx : Double := 0
  pg : Double := 0
  xnorm : Double := 0
  fxHist : List Double := []
  dg : Double := 0
  stepMax : Double := 0
  lsIter : ℤ := -1
  step : Double := 0
  fxInit : Double := 0
  dgInit : Double := 0
  testDecr : Double := 0
  testCurv : Double := 0
  iLo : Double := 0
  iHi : Double := 0
  fiLo : Double := 0
  fiHi : Double := 0
  giLo : Double := 0
  giHi : Double := 0
  fxLo : Double := 0
  dgLo : Double := 0
  lo : LoAt := .start
  patho : ℕ := 0
  cholResets : ℕ := 0
  restores : ℕ := 0
  extraEvals : ℕ := 0

/-- A bound: any number, also an infinite one. -/
abbrev Bound := {b : Single // b ≠ .nan}

/-- `FLT_MAX`. -/
def fltMax : Single := .ofRat ((2 ^ 24 - 1) * 2 ^ 104)

/-- `toBound`: an absent bound is spelt as `FLT_MAX`. -/
def toBound (b : Single) : Single :=
  if (Number.ofRat (10 ^ 30) : Single).le b then fltMax
  else if b.le (-Number.ofRat (10 ^ 30)) then -fltMax
  else b

/-! ## The slots of `SC` -/

/-- `SC_DG`. -/
def scDg : ℕ := 0

/-- `SC_XX`. -/
def scXx : ℕ := 2

/-- `SC_NN`. -/
def scNn : ℕ := 4

/-- `SC_PG`. -/
def scPg : ℕ := 6

/-- `SC_SMAX`. -/
def scSmax : ℕ := 7

/-- `kScWords`. -/
def scWords : ℕ := 32

namespace Lbfgsb

/-- `fail`. -/
def fail (why : String) (d : Lbfgsb) : Lbfgsb × Status :=
  ({ d with err := why, await := .done, phase := .none }, .fail)

/-- `dotAt`. -/
def dotAt (slot : ℕ) (d : Lbfgsb) : Double :=
  (d.sc slot).convert + (d.sc (slot + 1)).convert

/-- `appendTail`: the head of the next iteration. -/
def appendTail : List (Op Single) :=
  [copy .XP .X, copy .GP .G, dot .G .D scDg, Lbfgsb.Vec.stepMax .X .D scSmax]

/-- `appendPost`: what an accepted point needs. -/
def appendPost (mc : ℕ) : List (Op Single) :=
  [pgInf .X .G scPg, dot .X .X scXx, saxpby .SV .X .XP 1 (-1) false,
    saxpby .YV .G .GP 1 (-1) false, multiDot .SM mc .SV .DOTS 0,
    multiDot .YM mc .SV .DOTS (2 * mc), multiDot .YV 1 .SV .DOTS (4 * mc),
    multiDot .YV 1 .YV .DOTS (4 * mc + 2), multiDot .SV 1 .SV .DOTS (4 * mc + 4)]

section Calls

variable (outside : Kernels Single)

/-- `submit`. -/
def submit (phase : Phase) (ops : List (Op Single)) (d : Lbfgsb) : Lbfgsb × Status :=
  match d.v.step (kernels outside) (.run ops) with
  | (_, .refused) => fail "vec: " d
  | (v, _) => ({ d with v := v, phase := phase }, .busy)

/-- `upload`, as the driver uses it. -/
def upload (b : Buf) (data : List Single) (d : Lbfgsb) : Option Lbfgsb :=
  match d.v.step (kernels outside) (.upload b data 0) with
  | (_, .refused) => none
  | (v, _) => some { d with v := v }

/-- `setGradient`. -/
def setGradient (g : ℕ → Single) (d : Lbfgsb) : Option Lbfgsb :=
  upload outside .G ((List.range d.n).map g) d

/-- `readSc`, and what follows it. -/
def withSc (after : Lbfgsb → Lbfgsb × Status) (d : Lbfgsb) : Lbfgsb × Status :=
  match d.v.step (kernels outside) (.read .SC scWords 0) with
  | (_, .data words) => after { d with sc := fun i => words.getD i 0 }
  | _ => fail "vec: " d

/-- `trial`: the low point takes the current point first, if the last bracket update said so. -/
def trial (d : Lbfgsb) : Lbfgsb × Status :=
  let saved : List (Op Single) :=
    if d.lo = .current then [copy .XLO .X, copy .GLO .G] else []
  submit outside .trial
    (saved ++ [saxpby .X .D .XP d.step.convert 1 true, boxProject .X])
    { d with lo := if d.lo = .current then .buf else d.lo }

/-- `lineSearchStart`. -/
def lineSearchStart (afterPatho : Bool) (d : Lbfgsb) : Lbfgsb × Status :=
  let dg := dotAt scDg d
  let sm : Double := (d.sc scSmax).convert
  let sm := if (lit (3 * 10 ^ 38)).le sm then kInf else sm
  let d := { d with dg := dg }
  if !afterPatho && ((0 : Double).le dg || sm.le d.p.minStep) then
    submit outside .patho
      [copy .D .DCP, compact 1, dot .G .D scDg, Lbfgsb.Vec.stepMax .X .D scSmax]
      { d with patho := d.patho + 1 }
  else
    let stepMax := minimum d.p.maxStep sm
    let step := minimum 1 stepMax
    let d := { d with stepMax := stepMax, step := step }
    if step.le 0 then fail "'step' must be positive" d
    else
      let d := { d with fxInit := d.fx, dgInit := dg }
      if (0 : Double).le dg then
        fail "the moving direction does not decrease the objective function value" d
      else
        trial outside { d with
          testDecr := d.p.ftol * dg, testCurv := -d.p.wolfe * dg, iLo := 0, iHi := kInf,
          fiLo := 0, fiHi := kInf, giLo := (1 - d.p.ftol) * dg, giHi := kInf,
          fxLo := d.fx, dgLo := dg, lo := .start, lsIter := -1 }

/-- `direction`. -/
def direction (reset : Bool) (d : Lbfgsb) : Lbfgsb × Status :=
  let update : List (Op Single) :=
    if reset then [compact 1] else [compact 0, ringStore, boxProject .X]
  let ops := update ++
    [cauchy, subspace d.p.maxSubmin.toNat, saxpby .DCP .XCP .X 1 (-1) false] ++ appendTail
  submit outside (if reset then .dirReset else .dir) ops
    { d with k := if reset then d.k else d.k + 1 }

/-- The gradient test. -/
def gradTest (d : Lbfgsb) : Bool :=
  d.pg.le d.p.epsilon || d.pg.le (d.p.epsilonRel * d.xnorm)

/-- `accept`. -/
def accept (d : Lbfgsb) : Lbfgsb × Status :=
  if gradTest d then ({ d with reason := "grad", await := .done }, .converged)
  else
    let slot := d.k % d.p.past.toNat
    let fxd := d.fxHist.getD slot 0
    if 0 < d.p.past ∧ d.p.past ≤ d.k ∧
        ((fxd - d.fx).abs.le (d.p.delta * maximum (maximum d.fx.abs fxd.abs) 1)) = true then
      ({ d with reason := "delta", await := .done }, .converged)
    else
      let d := { d with fxHist := if 0 < d.p.past then d.fxHist.set slot d.fx else d.fxHist }
      if d.p.maxIterations ≠ 0 ∧ d.p.maxIterations ≤ d.k then
        ({ d with reason := "max_iterations", await := .done }, .converged)
      else ({ d with await := .accept }, .accept)

/-- `restoreLo`. -/
def restoreLo (d : Lbfgsb) : Lbfgsb × Status :=
  if d.lo = .current then accept d
  else
    let lx : Buf := if d.lo = .start then .XP else .XLO
    let lg : Buf := if d.lo = .start then .GP else .GLO
    submit outside .restore ([copy .X lx, copy .G lg] ++ appendPost d.v.mc)
      { d with restores := d.restores + 1 }

/-- `ft`: the value of the auxiliary function at the current step. -/
def ft (d : Lbfgsb) : Double := d.fx - d.fxInit - d.step * d.testDecr

/-- `gt`: its slope. -/
def gt (d : Lbfgsb) : Double := d.dg - d.p.ftol * d.dgInit

/-- The bracket update of `bodyA`, and the next step. -/
def bracket (d : Lbfgsb) : Lbfgsb × Double :=
  let selected := stepSelection d.iLo d.iHi d.step d.fiLo d.fiHi (ft d) d.giLo d.giHi (gt d)
  if d.fiLo.lt (ft d) then
    ({ d with iHi := d.step, fiHi := ft d, giHi := gt d },
      if selected.le d.p.minStep then (d.iLo + d.step) / lit 2 else selected)
  else
    let low := { d with
      iLo := d.step, fiLo := ft d, giLo := gt d, lo := .current, fxLo := d.fx, dgLo := d.dg }
    if (0 : Double).lt (gt d * (d.iLo - d.step)) then
      (low, minimum d.stepMax (d.step + lit (11 / 10) * (d.step - d.iLo)))
    else ({ low with iHi := d.iLo, fiHi := d.fiLo, giHi := d.giLo }, selected)

/-- `bodyA`. -/
def bodyA (d : Lbfgsb) : Lbfgsb × Status :=
  let (d, newStep) := bracket d
  if d.step.eq d.stepMax && d.stepMax.le newStep then restoreLo outside d
  else
    let d := { d with step := newStep }
    if newStep.lt d.p.minStep then
      fail "the line search step became smaller than the minimum value allowed" d
    else if d.p.maxStep.lt newStep then
      fail "the line search step became larger than the maximum value allowed" d
    else trial outside { d with extraEvals := d.extraEvals + 1 }

/-- The strong Wolfe conditions. -/
def wolfeTest (d : Lbfgsb) : Bool :=
  d.fx.le (d.fxInit + d.step * d.testDecr) && d.dg.abs.le d.testCurv

/-- `afterEval`. -/
def afterEval (d : Lbfgsb) : Lbfgsb × Status :=
  if wolfeTest d then accept d
  else if 0 ≤ d.lsIter ∧ (d.stepMax.le d.step && (ft d).le d.fiLo) = true then accept d
  else
    let d := { d with lsIter := if 0 ≤ d.lsIter then d.lsIter + 1 else 0 }
    if d.p.maxLinesearch ≤ d.lsIter then
      if (ft d).le d.fiLo then accept d
      else if d.iLo.le 0 then
        fail "the line search routine is unable to sufficiently decrease the function value" d
      else restoreLo outside { d with step := d.iLo, fx := d.fxLo, dg := d.dgLo }
    else bodyA outside d

/-- The parameter checks of `start`. -/
def outOfRange (p : LbfgsbParams) : Bool :=
  p.maxSubmin < 0 || p.maxLinesearch < 0 ||
    !((0 : Double).lt p.ftol && p.ftol.lt (lit (1 / 2))) ||
    !(p.ftol.lt p.wolfe && p.wolfe.lt 1)

/-- `start`, once the backend is set up. -/
def startOn (x0 : ℕ → Single) (lb ub : ℕ → Bound) (d : Lbfgsb) : Lbfgsb × Status :=
  let l := fun i => toBound (lb i).1
  let u := fun i => toBound (ub i).1
  match (List.range d.n).find? fun i => (u i).lt (l i) with
  | some i => fail ("lb > ub at coordinate " ++ toString i) d
  | none =>
      let uploaded := ((upload outside .LB ((List.range d.n).map l) d).bind
        (upload outside .UB ((List.range d.n).map u))).bind
        (upload outside .X ((List.range d.n).map x0))
      match uploaded with
      | none => fail "vec: " d
      | some d =>
          submit outside .init [boxProject .X, compact 1]
            { d with fxHist := List.replicate d.p.past.toNat 0 }

/-- `start`. -/
def start (n : ℕ) (x0 : ℕ → Single) (lb ub : ℕ → Bound) (p : LbfgsbParams) (d : Lbfgsb) :
    Lbfgsb × Status :=
  let d := { d with
    p := p, n := n, err := "", reason := "", k := 0, nfev := 0, patho := 0, cholResets := 0,
    restores := 0, extraEvals := 0, fx := 0, pg := 0, xnorm := 0, await := .none,
    phase := .none }
  if n = 0 then fail "n must be positive" d
  else if p.m < 1 ∨ (maxHistory : ℤ) < p.m then
    fail "m must be in 1..16 (the kernels' history cap)" d
  else if outOfRange p then fail "parameters out of LBFGSpp's range: " d
  else
    match d.v.step (kernels outside) (.setup n p.m.toNat) with
    | (_, .refused) => fail "vec cpu: need n > 0 and 0 < m <= 16" d
    | (v, _) => startOn outside x0 lb ub { d with v := v }

/-- The projected gradient and the norm a post-evaluation phase leaves. -/
def readNorms (d : Lbfgsb) : Lbfgsb :=
  { d with pg := (d.sc scPg).convert, xnorm := (maximum 0 (dotAt scXx d)).sqrt }

/-- `next`, when the phase at the initial point has completed. -/
def afterX0 (d : Lbfgsb) : Lbfgsb × Status :=
  let d := { readNorms d with k := 1 }
  if gradTest d then ({ d with reason := "grad", await := .done }, .converged)
  else
    let nn := dotAt scNn d
    let scale : Single := if (0 : Double).lt nn then (1 / nn.sqrt).convert else 1
    submit outside .prep (saxpby .D .DCP .X scale 0 true :: appendTail) d

/-- `next`, when a direction phase has completed. -/
def afterDir (d : Lbfgsb) : Lbfgsb × Status :=
  match d.v.step (kernels outside) (.read .ST 8 0) with
  | (_, .data st) =>
      if st.getD 4 0 = 0 then direction outside true { d with cholResets := d.cholResets + 1 }
      else lineSearchStart outside false d
  | _ => fail "vec: " d

/-- `next`, when a phase has completed. -/
def completed (d : Lbfgsb) : Lbfgsb × Status :=
  match d.phase with
  | .none => fail "next() before start()" d
  | .init => ({ d with phase := .none, await := .eval0 }, .needEval)
  | .x0 => withSc outside (afterX0 outside) d
  | .prep | .dirReset => withSc outside (lineSearchStart outside false) d
  | .dir => withSc outside (afterDir outside) d
  | .patho => withSc outside (lineSearchStart outside true) d
  | .trial => ({ d with phase := .none, await := .trial }, .try)
  | .post =>
      withSc outside
        (fun d => afterEval outside (readNorms { d with dg := dotAt scDg d })) d
  | .restore => withSc outside (fun d => accept (readNorms d)) d

/-- `next`. -/
def next (f : Double) (d : Lbfgsb) : Lbfgsb × Status :=
  match d.await with
  | .done => (d, if d.err = "" then .converged else .fail)
  | .eval0 =>
      submit outside .x0
        [pgInf .X .G scPg, dot .X .X scXx, cauchy, saxpby .DCP .XCP .X 1 (-1) false,
          dot .DCP .DCP scNn]
        { d with await := .none, fx := f, nfev := d.nfev + 1, fxHist := d.fxHist.set 0 f }
  | .trial =>
      submit outside .post (dot .G .D scDg :: appendPost d.v.mc)
        { d with await := .none, fx := f, nfev := d.nfev + 1 }
  | .accept => direction outside false { d with await := .none }
  | .none => completed outside d

end Calls

/-- The `n` words of a vector's buffer. -/
def vector (b : Buf) (d : Lbfgsb) : List Single := slice d.n 0 (d.v.bufs b)

end Lbfgsb

end DressOn.Stepwise
