import DressOn.Drape.Sim

/-!
# The backward over a recorded forward

`DrapeBackwardT`: the native mode differentiates the step the solver last ran,
once for each record; the recompute modes run every step again from its record
and differentiate its last iteration (`step`) or all of them (`unrolled`).
-/

namespace DressOn.Drape

open DressOn.Avbd (Vec3)

section Data

/-- `DrapeLoss`. -/
inductive Loss where
  | matchTrajectory
  | targetPoints
deriving DecidableEq

/-- `DrapeMode`. -/
inductive Mode where
  | native
  | step
  | unrolled
deriving DecidableEq

/-- `DrapeTarget`. -/
structure Target (α : Type*) where
  frames : List (Nat → Vec3 α)
  frameSize : Nat
  verts : List Nat
  pos : List (Vec3 α)
  /-- `frame`; none is the last. -/
  frame : Option Nat

/-- `DrapeGrad`. -/
structure Grad (α : Type*) where
  loss : α
  dmu : List α
  dkTri : α
  dkBend : α
  dkAttach : α
  ddensity : α
  stepsBack : Nat

/-- Where a backward waits between two stages. -/
inductive Stage where
  | init
  | nativeRead
  | rcSnap
  | rcBwdRead
  | done
deriving DecidableEq

/-- `DrapeBackwardT`. -/
structure Backward (α : Type*) where
  target : Target α
  loss : Loss
  mode : Mode
  grad : Grad α
  failed : Bool
  stage : Stage
  /-- `N_`. -/
  steps : Nat
  idx : Nat
  carry : Nat → Vec3 α
  ax : Nat → Vec3 α
  av : Nat → Vec3 α
  axDirect : Nat → Vec3 α
  gPredSum : Nat → Vec3 α
  snaps : Nat → Nat → Vec3 α
  v : Nat → Vec3 α
  it : Nat

end Data

section Frames

variable {σ α : Type*}

/-- `frame`: the start, then each step's predictor. -/
def Sim.frame (sim : Sim σ α) : Nat → Nat → Vec3 α
  | 0 => sim.scene.x0
  | i + 1 => (sim.recs[i]?.map Record.s).getD sim.scene.x0

/-- `xPrev`: where step `n` started. -/
def Sim.xPrev (sim : Sim σ α) (n : Nat) : Nat → Vec3 α :=
  if 2 ≤ n then (sim.recs[n - 2]?.map Record.x).getD sim.scene.x0 else sim.scene.x0

/-- `midStep`. -/
def Sim.midStep (sim : Sim σ α) : Bool := sim.phase != .idle

variable [Field α]

/-- The frame `targetPoints` compares. -/
def targetFrame (target : Target α) (steps : Nat) : Nat := target.frame.getD steps

/-- `drape_loss_value`. -/
def lossValue (sim : Sim σ α) (target : Target α) : Loss → α
  | .matchTrajectory =>
      let k := 1 / (((sim.recs.length + 1 : Nat) : α) * (sim.scene.nV : α))
      ((List.range (sim.recs.length + 1)).map fun i =>
        k * ((List.range sim.scene.nV).map fun v =>
          let d := sim.frame i v - target.frames[i]?.getD (fun _ => 0) v
          d ⬝ᵥ d).sum).sum
  | .targetPoints =>
      let f := targetFrame target sim.recs.length
      ((target.verts.zip target.pos).map fun e =>
        let d := sim.frame f e.1 - e.2
        d ⬝ᵥ d).sum

/-- `gradFrame`: the gradient of the loss in frame `i`. -/
def gradFrame (sim : Sim σ α) (bwd : Backward α) (i : Nat) : Nat → Vec3 α :=
  match bwd.loss with
  | .matchTrajectory =>
      let k := 1 / (((bwd.steps + 1 : Nat) : α) * (sim.scene.nV : α))
      fun v => (k * 2) • (sim.frame i v - bwd.target.frames[i]?.getD (fun _ => 0) v)
  | .targetPoints =>
      if i = targetFrame bwd.target bwd.steps then
        (bwd.target.verts.zip bwd.target.pos).foldl (fun gF e =>
          Function.update gF e.1 (gF e.1 + (2 : α) • (sim.frame i e.1 - e.2))) fun _ => 0
      else fun _ => 0

end Frames

section Turns

variable {σ α : Type*} [Field α] [LinearOrder α] (geometry : Geometry σ α)

/-- The backward of a push. -/
def pushBackTurn (gx : Nat → Vec3 α) (push : Push α) : Nat → Vec3 α :=
  let ga := gx push.a
  let gb := gx push.b
  let dG := ga - gb
  let l := push.dist
  let c0 := push.thresh / (2 * l) - 1 / 2
  let c1 := push.thresh / (2 * l * l * l)
  let jt := c0 • dG - (c1 * (push.diff ⬝ᵥ dG)) • push.diff
  Function.update (Function.update gx push.a (ga + jt)) push.b (gb - jt)

/-- What the backward of the contacts writes. -/
structure ContactBack (α : Type*) where
  gx : Nat → Vec3 α
  gv : Nat → Vec3 α
  dmu : List α

/-- The backward of a contact: the velocity response, then the projection. -/
def contactBackTurn (prims : List (Primitive σ α)) (st : ContactBack α) (c : Contact α) :
    ContactBack α :=
  match prims[c.prim]? with
  | none => st -- the source reads past the end
  | some pr =>
      let av := st.gv c.vert
      let along := (c.normal ⬝ᵥ av) • c.normal
      let back := (1 - c.muClip) • (av - along) + if 0 < c.vn then along else 0
      { gx :=
          if c.penetrating then
            Function.update st.gx c.vert
              (geometry.projectionJacobianT pr.shape c.posBefore (st.gx c.vert))
          else st.gx
        gv := Function.update st.gv c.vert back
        dmu :=
          if 0 < pr.mu ∧ pr.mu < 1 then st.dmu.modify c.prim (· + av ⬝ᵥ (-c.vTan)) else st.dmu }

/-- The backward of a contact of the predictor. -/
def predBackTurn (st : (Nat → Vec3 α) × List α) (c : PredContact α) : (Nat → Vec3 α) × List α :=
  let gi := st.1 c.vert
  let along := (c.normal ⬝ᵥ gi) • c.normal
  (Function.update st.1 c.vert (along + (1 - c.muClip) • (gi - along)),
    st.2.modify c.prim (· + gi ⬝ᵥ (-c.dsT)))

end Turns

namespace Backward

section Params

variable {σ α : Type*} [Field α]

/-- A new backward. -/
def make (target : Target α) (loss : Loss) (mode : Mode) : Backward α where
  target := target
  loss := loss
  mode := mode
  grad := ⟨0, [], 0, 0, 0, 0, 0⟩
  failed := false
  stage := .init
  steps := 0
  idx := 0
  carry _ := 0
  ax _ := 0
  av _ := 0
  axDirect _ := 0
  gPredSum _ := 0
  snaps _ _ := 0
  v _ := 0
  it := 0

/-- `fail`. -/
def fail (bwd : Backward α) : Backward α := { bwd with failed := true, stage := .done }

/-- The sum of the first `n` terms. -/
def total (n : Nat) (term : Nat → α) : α := ((List.range n).map term).sum

/-- `accumulateParams`. -/
def accumulateParams (sim : Sim σ α) (bwd : Backward α) : Backward α :=
  let grads := sim.solver.grads
  let scene := sim.scene
  let raw := sim.cfg.rawStiffness
  let g := bwd.grad
  { bwd with
    grad := { g with
      ddensity := g.ddensity + total scene.nV fun i => grads.mass i * scene.restData.vertArea i
      dkTri := g.dkTri + if sim.cfg.membrane then
        total scene.nTri fun t => grads.triStiff t * (if raw then 1 else scene.restData.triArea t)
        else 0
      dkBend := g.dkBend + if sim.cfg.bending then
        total scene.nBend fun q =>
          grads.bendStiff q * (if raw then 1 else 3 / scene.restData.bendAreaSum q)
        else 0
      dkAttach := g.dkAttach + total scene.nAttach fun q => grads.attachStiff q } }

end Params

section Native

variable {σ α : Type*} [Field α] [LinearOrder α] (geometry : Geometry σ α) (kernels : Kernels α)

/-- The steps back are used up. -/
def truncated (sim : Sim σ α) (bwd : Backward α) : Prop :=
  bwd.idx < 1 ∨ 0 < sim.cfg.bwdTruncateK ∧ sim.cfg.bwdTruncateK ≤ bwd.grad.stepsBack

instance (sim : Sim σ α) (bwd : Backward α) : Decidable (truncated sim bwd) :=
  inferInstanceAs (Decidable (_ ∨ _))

/-- The clip of the cotangent that goes into the native mode. -/
def clipped (sim : Sim σ α) (din : Nat → Vec3 α) : Nat → Vec3 α :=
  let maxNorm := sim.cfg.gradientClippingThreshold * (sim.scene.nV : α)
  let n := geometry.sqrt (total sim.scene.nV fun v => din v ⬝ᵥ din v)
  if sim.cfg.gradientClipping ∧ maxNorm < n then fun v => (maxNorm / n) • din v else din

/-- `nativeSubmit`. -/
def nativeSubmit (fault : Fault) (sim : Sim σ α) (bwd : Backward α) : Sim σ α × Backward α :=
  if truncated sim bwd then (sim, { bwd with stage := .done })
  else
    let din := clipped geometry sim fun v => gradFrame sim bwd (bwd.idx - 1) v + bwd.carry v
    if fault.submit then (sim, bwd.fail)
    else
      ({ sim with solver := sim.solver.stepBackward kernels din },
        { bwd with stage := .nativeRead })

/-- The friction events of a record, each in its primitive's place. -/
def nativeMu (sim : Sim σ α) (fric : List (Friction α)) : List α :=
  fric.foldl (fun c ev =>
      c.modify ev.prim (· + (-ev.vTan) ⬝ᵥ (sim.cfg.h • sim.solver.grads.predicted ev.vert)))
    (List.replicate sim.scene.prims.length 0)

/-- The frictions `nativeRead` adds up: those of the step before the one visited. -/
def nativeFric (sim : Sim σ α) (bwd : Backward α) : List (Friction α) :=
  if 2 ≤ bwd.idx then ((sim.recs[bwd.idx - 2]?).map Record.fric).getD [] else []

/-- The loop over the sums `c` that writes `g.dmu[p]`; none where it writes past the end. -/
def nativeWrites (double : Bool) (c dmu : List α) : Option (List α) :=
  (List.range c.length).foldlM (fun dmu p =>
    dmu[p]?.map fun d => dmu.set p (c.getD p 0 + d + if double then d else 0)) dmu

/-- What `nativeRead` makes of `dmu`. -/
def nativeDmu (sim : Sim σ α) (bwd : Backward α) : Option (List α) :=
  nativeWrites sim.cfg.nativeMuDoubleCarry (nativeMu sim (nativeFric sim bwd)) bwd.grad.dmu

/-- `nativeRead`. -/
def nativeRead (fault : Fault) (sim : Sim σ α) (bwd : Backward α) : Sim σ α × Backward α :=
  if fault.read then (sim, bwd.fail)
  else
    let bwd := accumulateParams sim bwd
    nativeSubmit geometry kernels fault sim
      { bwd with
        grad := { bwd.grad with
          dmu := (nativeDmu sim bwd).getD bwd.grad.dmu -- the source writes past the end
          stepsBack := bwd.grad.stepsBack + 1 }
        carry := sim.solver.grads.positions
        idx := bwd.idx - 1 }

end Native

section Recompute

variable {σ α : Type*} [Field α] [LinearOrder α] (geometry : Geometry σ α) (kernels : Kernels α)

/-- The record of the step being visited. -/
def visited (sim : Sim σ α) (bwd : Backward α) : Record σ α :=
  (sim.recs[bwd.idx - 1]?).getD .empty

/-- `submitIteration`. -/
def submitIteration (fault : Fault) (sim : Sim σ α) (bwd : Backward α) : Sim σ α × Backward α :=
  let buffers := sim.solver.buffers.updateState (bwd.snaps bwd.it) (visited sim bwd).sBlend
  let sim := { sim with solver := sim.solver.withBuffers buffers }
  if fault.submit then (sim, bwd.fail)
  else
    ({ sim with solver := sim.solver.runWithBackward kernels 1 false bwd.v },
      { bwd with stage := .rcBwdRead })

/-- `startUnrolledBackward`. -/
def startUnrolledBackward (fault : Fault) (sim : Sim σ α) (bwd : Backward α) :
    Sim σ α × Backward α :=
  submitIteration kernels fault sim { bwd with it := sim.cfg.iters - 1 }

/-- The gradient arriving at the solver's output of a step. -/
def throughContacts (sim : Sim σ α) (bwd : Backward α) : ContactBack α :=
  let rec_ := visited sim bwd
  let gx := rec_.pushes.reverse.foldl pushBackTurn bwd.ax
  rec_.contacts.reverse.foldl (contactBackTurn geometry sim.scene.prims) ⟨gx, bwd.av, bwd.grad.dmu⟩

/-- The state a step is run again from. -/
def restart (sim : Sim σ α) (bwd : Backward α) : Sim σ α :=
  let buffers :=
    sim.solver.buffers.updateState (sim.xPrev bwd.idx) (visited sim bwd).sBlend
  let buffers :=
    if 0 < sim.scene.nAttach then buffers.updateAttachmentFixedPos sim.scene.attachFixed else buffers
  { sim with solver := sim.solver.withBuffers buffers }

/-- `rcBegin`. -/
def rcBegin (fault : Fault) (sim : Sim σ α) (bwd : Backward α) : Sim σ α × Backward α :=
  if truncated sim bwd then (sim, { bwd with stage := .done })
  else
    let back := throughContacts geometry sim bwd
    let h := sim.cfg.h
    let vOut v := back.gx v + (1 / h) • back.gv v
    let bwd := { bwd with
      grad := { bwd.grad with dmu := back.dmu }
      axDirect := fun v => -((1 / h) • back.gv v)
      gPredSum := fun _ => 0
      v := vOut }
    let sim := restart sim bwd
    match bwd.mode with
    | .unrolled =>
        let bwd := { bwd with snaps := Function.update (fun _ _ => 0) 0 (sim.xPrev bwd.idx), it := 0 }
        if 1 < sim.cfg.iters then
          if fault.submit then (sim, bwd.fail)
          else
            ({ sim with solver := sim.solver.run kernels 1 false }, { bwd with stage := .rcSnap })
        else startUnrolledBackward kernels fault sim bwd
    | _ =>
        if fault.submit then (sim, bwd.fail)
        else
          ({ sim with solver := sim.solver.runWithBackward kernels sim.cfg.iters false vOut },
            { bwd with stage := .rcBwdRead })

/-- `rcSnap`. -/
def rcSnap (fault : Fault) (sim : Sim σ α) (bwd : Backward α) : Sim σ α × Backward α :=
  if fault.read then (sim, bwd.fail)
  else
    let bwd := { bwd with
      snaps := Function.update bwd.snaps (bwd.it + 1) sim.solver.buffers.positions
      it := bwd.it + 1 }
    if bwd.it + 1 < sim.cfg.iters then
      if fault.submit then (sim, bwd.fail)
      else ({ sim with solver := sim.solver.run kernels 1 false }, bwd)
    else startUnrolledBackward kernels fault sim bwd

/-- `finishStep`, up to the next step's `rcBegin`. -/
def finishStep (sim : Sim σ α) (bwd : Backward α) : Backward α :=
  let h := sim.cfg.h
  let blend := (visited sim bwd).pred.reverse.foldl predBackTurn (bwd.gPredSum, bwd.grad.dmu)
  let gds := blend.1
  let gF := gradFrame sim bwd bwd.idx
  let massD := sim.scene.material.massD
  let wind := if sim.cfg.wind = 0 then 0
    else total sim.scene.nV fun i =>
      ((gds i + gF i) ⬝ᵥ sim.cfg.wind) * (-(h * h) / (massD i * massD i)) *
        sim.scene.restData.vertArea i
  { bwd with
    ax := fun v => bwd.v v + bwd.gPredSum v + bwd.axDirect v + gF v
    av := fun v => (h * sim.cfg.damp) • gds v + h • gF v
    grad := { bwd.grad with
      dmu := blend.2
      ddensity := bwd.grad.ddensity + wind
      stepsBack := bwd.grad.stepsBack + 1 }
    idx := bwd.idx - 1 }

/-- `rcBwdRead`. -/
def rcBwdRead (fault : Fault) (sim : Sim σ α) (bwd : Backward α) : Sim σ α × Backward α :=
  if fault.read then (sim, bwd.fail)
  else
    let bwd := accumulateParams sim bwd
    let bwd := { bwd with
      gPredSum := fun v => bwd.gPredSum v + sim.solver.grads.predicted v
      v := sim.solver.grads.positions }
    if bwd.mode = .unrolled ∧ 0 < bwd.it then
      submitIteration kernels fault sim { bwd with it := bwd.it - 1 }
    else rcBegin geometry kernels fault sim (finishStep sim bwd)

end Recompute

section Advance

variable {σ α : Type*} [Field α] [LinearOrder α] (geometry : Geometry σ α) (kernels : Kernels α)

/-- The target does not fit the forward. -/
def badTarget (sim : Sim σ α) (bwd : Backward α) : Bool :=
  match bwd.loss with
  | .matchTrajectory =>
      bwd.target.frames.length != sim.recs.length + 1 || bwd.target.frameSize != 3 * sim.scene.nV
  | .targetPoints =>
      bwd.target.verts.isEmpty || bwd.target.pos.length != bwd.target.verts.length ||
        decide (sim.recs.length < bwd.target.frame.getD 0) ||
        bwd.target.verts.any fun v => decide (sim.scene.nV ≤ v)

/-- `init` refuses. -/
def refused (sim : Sim σ α) (bwd : Backward α) : Bool :=
  sim.recs.isEmpty || sim.midStep || badTarget sim bwd || bwd.mode != .native && sim.cfg.al

/-- `init`. -/
def init (fault : Fault) (sim : Sim σ α) (bwd : Backward α) : Sim σ α × Backward α :=
  let bwd := { bwd with
    steps := sim.recs.length
    grad := ⟨0, List.replicate sim.scene.prims.length 0, 0, 0, 0, 0, 0⟩ }
  if refused sim bwd then (sim, bwd.fail)
  else
    let bwd := { bwd with
      grad := { bwd.grad with loss := lossValue sim bwd.target bwd.loss }
      idx := bwd.steps }
    match bwd.mode with
    | .native =>
        nativeSubmit geometry kernels fault sim { bwd with carry := gradFrame sim bwd bwd.steps }
    | _ => rcBegin geometry kernels fault sim { bwd with ax := fun _ => 0, av := fun _ => 0 }

/-- `advance`: one stage. -/
def advance (fault : Fault) (sim : Sim σ α) (bwd : Backward α) : Sim σ α × Backward α :=
  match bwd.stage with
  | .init => init geometry kernels fault sim bwd
  | .nativeRead => nativeRead geometry kernels fault sim bwd
  | .rcSnap => rcSnap kernels fault sim bwd
  | .rcBwdRead => rcBwdRead geometry kernels fault sim bwd
  | .done => (sim, bwd)

end Advance

end Backward

end DressOn.Drape
