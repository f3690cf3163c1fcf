import DressOn.Drape.Backward

/-!
# A drape session

`DrapeSessionT`: one simulation on one solver, and the stages of the queued
forwards, fit phases and backwards. A tick runs one stage; the host's calls fall
between any two.
-/

namespace DressOn.Drape

open DressOn.Avbd (Vec3)

section Data

/-- What can be queued. -/
inductive Job (α : Type*) where
  | forward (steps : Nat)
  | fit (maxSteps : Nat) (tol : α)
  | backward (target : Target α) (loss : Loss) (mode : Mode)

/-- The job whose stages are running. -/
inductive Active (α : Type*) where
  | none
  | forward
  | fit
  | backward (bwd : Backward α)

/-- `DrapeSessionT` with a scene loaded. -/
structure Session (σ α : Type*) where
  sim : Sim σ α
  queue : List (Job α)
  active : Active α
  fwdRemaining : Nat
  fitTol : α
  fitGravity : Vec3 α
  fitDamp : α
  fitConverged : Bool

/-- The calls on a session. -/
inductive Op (σ α : Type*) where
  | load (scene : Scene σ α) (cfg : Config α)
  | setLive (live : Live α)
  | setPrims (prims : List (Primitive σ α))
  | rewind
  | enqueueForward (steps : Nat)
  | enqueueFit (maxSteps : Nat) (tol : α)
  | enqueueBackward (target : Target α) (loss : Loss) (mode : Mode)
  | tick (fault : Fault)

/-- No stage is waiting to run. -/
def Active.idle {α : Type*} : Active α → Bool
  | .none => true
  | _ => false

end Data

namespace Session

section Stages

variable {σ α : Type*} [Field α] [LinearOrder α] (geometry : Geometry σ α) (kernels : Kernels α)

/-- A session just opened and loaded. -/
def opened (solver : Solver α) (scene : Scene σ α) (cfg : Config α) : Session σ α where
  sim := Sim.load geometry solver scene cfg
  queue := []
  active := .none
  fwdRemaining := 0
  fitTol := 0
  fitGravity := 0
  fitDamp := 1
  fitConverged := false

/-- The step advances; a completed one is counted. -/
def advanced (fault : Fault) (session : Session σ α) : Session σ α × Bool :=
  if 0 < session.fwdRemaining ∧ !session.sim.failed then
    let next := session.sim.advance geometry kernels fault
    ({ session with
        sim := next.1
        fwdRemaining := if next.2 then session.fwdRemaining - 1 else session.fwdRemaining },
      next.2)
  else (session, false)

/-- `forwardStage`. -/
def forwardStage (fault : Fault) (session : Session σ α) : Session σ α :=
  let session := (session.advanced geometry kernels fault).1
  if 0 < session.fwdRemaining ∧ !session.sim.failed then { session with active := .forward }
  else { session with active := .none }

/-- `finishFit`. -/
def finishFit (session : Session σ α) : Session σ α :=
  { session with
    sim := session.sim.finishFit session.fitGravity session.fitDamp
    active := .none }

/-- The stop test, on the last step of a refresh cycle only. -/
def stopTest (session : Session σ α) : Session σ α :=
  if !session.sim.fitSettling ∧ session.sim.fitSteps % max 1 session.sim.scene.fitRefresh = 0 ∧
      session.sim.lastMaxDisp < session.fitTol then
    { session with fitConverged := true }
  else session

/-- The fit has run its steps. -/
def fitOver (session : Session σ α) : Bool :=
  session.sim.failed || session.fitConverged || session.fwdRemaining == 0

/-- A fit that is over settles first, when the scene asks for it. -/
def beginSettle (session : Session σ α) : Session σ α :=
  if session.fitOver ∧ !session.sim.fitSettling ∧ !session.sim.failed ∧
      0 < session.sim.scene.fitSettle then
    { session with
      sim := session.sim.beginSettle
      fwdRemaining := session.sim.scene.fitSettle }
  else session

/-- The end of a settle. -/
def endSettle (session : Session σ α) : Session σ α :=
  if session.sim.fitSettling then { session with sim := session.sim.endSettle } else session

/-- `fitStage`. -/
def fitStage (fault : Fault) (session : Session σ α) : Session σ α :=
  let next := session.advanced geometry kernels fault
  let session := if next.2 then next.1.stopTest else next.1
  let session := session.beginSettle
  if 0 < session.fwdRemaining ∧ !session.sim.failed then { session with active := .fit }
  else session.endSettle.finishFit

/-- What `enqueueFit`'s stage sets before the first `fitStage`. -/
def beginFit (maxSteps : Nat) (tol : α) (session : Session σ α) : Session σ α :=
  { session with
    fitGravity := session.sim.cfg.gravity
    fitDamp := session.sim.cfg.damp
    sim := session.sim.beginFit
    fitTol := tol
    fitConverged := false
    fwdRemaining := maxSteps }

/-- `backwardStage`. -/
def backwardStage (fault : Fault) (bwd : Backward α) (session : Session σ α) : Session σ α :=
  let next := bwd.advance geometry kernels fault session.sim
  { session with
    sim := next.1
    active := if next.2.stage = .done then .none else .backward next.2 }

/-- The first stage of a job. -/
def begin_ (fault : Fault) (session : Session σ α) : Job α → Session σ α
  | .forward steps => forwardStage geometry kernels fault { session with fwdRemaining := steps }
  | .fit maxSteps tol =>
      if session.sim.scene.nFit = 0 then session
      else fitStage geometry kernels fault (session.beginFit maxSteps tol)
  | .backward target loss mode =>
      if session.sim.midStep then session
      else backwardStage geometry kernels fault (.make target loss mode) session

/-- One stage of the queue. -/
def tick (fault : Fault) (session : Session σ α) : Session σ α :=
  match session.active with
  | .forward => session.forwardStage geometry kernels fault
  | .fit => session.fitStage geometry kernels fault
  | .backward bwd => session.backwardStage geometry kernels fault bwd
  | .none =>
      match session.queue with
      | [] => session
      | job :: rest => begin_ geometry kernels fault { session with queue := rest } job

/-- One call. The callers of `load` and `rewind` wait for the running job; those of
`enqueueFit` ask for at least one step. -/
def step (session : Session σ α) : Op σ α → Session σ α
  | .load scene cfg =>
      if session.active.idle then
        { session with sim := Sim.load geometry session.sim.solver scene cfg }
      else session
  | .setLive live =>
      { session with sim := { session.sim with cfg := session.sim.cfg.setLive live } }
  | .setPrims prims =>
      { session with
        sim := { session.sim with scene := { session.sim.scene with prims := prims } } }
  | .rewind =>
      if session.active.idle then { session with sim := session.sim.rewind } else session
  | .enqueueForward steps =>
      if steps = 0 then session else { session with queue := session.queue ++ [.forward steps] }
  | .enqueueFit maxSteps tol =>
      if maxSteps = 0 then session else { session with queue := session.queue ++ [.fit maxSteps tol] }
  | .enqueueBackward target loss mode =>
      { session with queue := session.queue ++ [.backward target loss mode] }
  | .tick fault => session.tick geometry kernels fault

/-- A list of calls. -/
def run (session : Session σ α) (ops : List (Op σ α)) : Session σ α :=
  ops.foldl (step geometry kernels) session

end Stages

end Session

end DressOn.Drape
