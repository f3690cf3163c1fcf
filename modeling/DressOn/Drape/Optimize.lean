import DressOn.Drape.Primitives
import DressOn.Lbfgsb.Outcomes

/-!
# The optimize over a session's parameters

`drape_queue_optimize`: the driver with the session as its objective. Each evaluation writes the
driver's point into the configuration, the scene's first primitive and the session, and queues a
forward and a backward. What an evaluation gives back is arbitrary here.

The parameters left at the end are the point of the last evaluation. It is the reported one,
unless the driver converges right behind the restore of its low point.
-/

namespace DressOn.Drape

open DressOn.Runs (Along)
open DressOn.Stepwise (Single Double Lbfgsb Status Bound LbfgsbParams)

/-! ## Parameters -/

/-- What an optimize may be over. -/
inductive Parameter where
  | mu | kTri | kBend | kAttach | density
deriving DecidableEq, Repr

section Parameters

variable {σ α : Type*} [Field α] [LinearOrder α]

/-- `DrapeConfig::set` on a parameter; none is a refused value. -/
def Config.set (cfg : Config α) (p : Parameter) (v : α) : Option (Config α) :=
  match p with
  | .mu => some { cfg with mu := v }
  | .kTri => some { cfg with kTri := v }
  | .kBend => some { cfg with kBend := v }
  | .kAttach => some { cfg with kAttach := v }
  | .density => if 0 < v then some { cfg with density := v } else none

/-- The value of a parameter. -/
def Config.get (cfg : Config α) : Parameter → α
  | .mu => cfg.mu
  | .kTri => cfg.kTri
  | .kBend => cfg.kBend
  | .kAttach => cfg.kAttach
  | .density => cfg.density

/-- The friction of the first primitive. -/
def firstMu (prims : List (Primitive σ α)) : Option α := prims.head?.map Primitive.mu

/-- What the host and the session have for a parameter. -/
structure Held (α : Type*) where
  cfg : α
  session : α
  prim : Option α
  sessionPrim : Option α
deriving DecidableEq

/-- The values of a parameter; only `mu` stands in a primitive. -/
def Api.held (api : Api σ α) (p : Parameter) : Held α where
  cfg := api.cfg.get p
  session := api.session.sim.cfg.get p
  prim := if p = .mu then firstMu api.scene.prims else none
  sessionPrim := if p = .mu then firstMu api.session.sim.scene.prims else none

/-- The configuration, the first primitive and the session have one value. -/
structure Held.Is (held : Held α) (v : α) : Prop where
  cfg : held.cfg = v
  session : held.session = v
  prim : ∀ mu ∈ held.prim, mu = v
  sessionPrim : ∀ mu ∈ held.sessionPrim, mu = v

/-- Every parameter is left at its coordinate of a point. -/
structure LeftAt (widen : Single → α) (api : Api σ α) (params : List Parameter) (x : List Single) :
    Prop where
  length : x.length = params.length
  value : ∀ e ∈ params.zip x, (api.held e.1).Is (widen e.2)

end Parameters

/-! ## The optimize -/

section Data

variable (σ α : Type*)

/-- What the optimize waits for: a round of `opt_handle`'s loop, the stage behind a submitted
phase, an evaluation, or nothing, with the point of a `DONE` line. -/
inductive Waiting where
  | handle (status : Status)
  | stage
  | evaluation
  | finished (reported : Option (List Single))
deriving DecidableEq

/-- `DrapeOpt`, with the host's state. -/
structure Optimize where
  api : Api σ α
  driver : Lbfgsb
  params : List Parameter
  target : Target α
  loss : Loss
  mode : Mode
  steps : Nat
  waiting : Waiting

/-- The host's calls that set something; they wait for nothing. -/
inductive Setting where
  | primitive (pr : Primitive σ α)
  | clear
  | configUpload (upload : Upload α)
  | configLive (live : Live α)
  | configMu (mu : α)

/-- A stage of the queue, or a call of the host in between. A stage comes with what may happen in
it: the fault of the device, whether a reload succeeds, and the loss and gradient of an evaluation,
none when the session failed. -/
inductive Turn where
  | stage (fault : Fault) (loads : Bool) (answer : Option (Double × (Nat → Single)))
  | host (setting : Setting σ α)

end Data

/-- The call of a setting. -/
def Setting.call {σ α : Type*} : Setting σ α → Call σ α
  | .primitive pr => .primitive pr
  | .clear => .clear
  | .configUpload upload => .configUpload upload
  | .configLive live => .configLive live
  | .configMu mu => .configMu mu

namespace Optimize

section Steps

variable {σ α : Type*} [Field α] [LinearOrder α] (geometry : Geometry σ α) (kernels : Kernels α)
  (outside : DressOn.Lbfgsb.Vec.Kernels Single) (widen : Single → α)

/-- The loop of `opt_eval` over the parameters; false when a value is refused. -/
def assign : List (Parameter × Single) → Api σ α → Api σ α × Bool
  | [], api => (api, true)
  | (p, x) :: rest, api =>
      match api.cfg.set p (widen x) with
      | none => (api, false)
      | some cfg =>
          let prims := api.scene.prims.modifyHead fun pr => { pr with mu := widen x }
          let scene := if p = .mu then { api.scene with prims := prims } else api.scene
          assign rest { api with cfg := cfg, scene := scene }

/-- `g_sess->load(g_scene, g_cfg)`. -/
def reload (api : Api σ α) : Api σ α :=
  { api with session := api.session.step geometry kernels (.load api.scene api.cfg) }

/-- `setLive`, `setPrims` and `rewind`. -/
def reapply (api : Api σ α) : Api σ α :=
  let session := api.session.step geometry kernels (.setLive api.cfg.toLive)
  let session := session.step geometry kernels (.setPrims api.scene.prims)
  { api with session := session.step geometry kernels .rewind }

/-- The forward and the backward of an evaluation. -/
def enqueue (o : Optimize σ α) (api : Api σ α) : Api σ α :=
  let session := api.session.step geometry kernels (.enqueueForward o.steps)
  { api with session := session.step geometry kernels (.enqueueBackward o.target o.loss o.mode) }

/-- `opt_eval`. -/
def eval (loads : Bool) (x : List Single) (o : Optimize σ α) : Optimize σ α :=
  match assign widen (o.params.zip x) o.api with
  | (api, false) => { o with api := api, waiting := .finished none }
  | (api, true) =>
      if o.params.any (· != .mu) then
        let api := reload geometry kernels api
        if loads then { o with api := o.enqueue geometry kernels api, waiting := .evaluation }
        else { o with api := api, waiting := .finished none }
      else
        { o with
          api := o.enqueue geometry kernels (reapply geometry kernels api)
          waiting := .evaluation }

/-- A round of `opt_handle`'s loop. -/
def handle (loads : Bool) (o : Optimize σ α) : Status → Optimize σ α
  | .busy => { o with waiting := .stage }
  | .needEval | .try => o.eval geometry kernels widen loads (o.driver.vector .X)
  | .accept =>
      let (driver, status) := o.driver.next outside 0
      { o with driver := driver, waiting := .handle status }
  | .converged => { o with waiting := .finished (some (o.driver.vector .X)) }
  | .fail => { o with waiting := .finished none }

/-- `opt_stage`, up to the call of `opt_handle`. -/
def stage (o : Optimize σ α) : Optimize σ α :=
  let (driver, status) := o.driver.next outside 0
  { o with driver := driver, waiting := .handle status }

/-- `opt_collect`, up to the call of `opt_handle`. -/
def collect (answer : Option (Double × (Nat → Single))) (o : Optimize σ α) : Optimize σ α :=
  match answer with
  | none => { o with waiting := .finished none }
  | some (loss, gradient) =>
      match o.driver.setGradient outside gradient with
      | none => { o with waiting := .finished none }
      | some driver =>
          let (driver, status) := driver.next outside loss
          { o with driver := driver, waiting := .handle status }

/-- One turn. The collector stands behind the forward and the backward of its evaluation. -/
def step (o : Optimize σ α) : Turn σ α → Optimize σ α
  | .host setting => { o with api := o.api.step geometry kernels setting.call }
  | .stage fault loads answer =>
      match o.waiting with
      | .handle status => o.handle geometry kernels outside widen loads status
      | .stage => o.stage outside
      | .evaluation =>
          if o.api.busy then { o with api := o.api.step geometry kernels (.tick fault) }
          else o.collect outside answer
      | .finished _ => o

/-- `drape_queue_optimize` on an accepted specification. -/
def start (api : Api σ α) (params : List Parameter) (target : Target α) (loss : Loss) (mode : Mode)
    (steps : Nat) (x0 : Nat → Single) (lb ub : Nat → Bound) (prm : LbfgsbParams)
    (v : DressOn.Lbfgsb.Vec.VecCpu Single) : Optimize σ α :=
  let (driver, status) := ({ v := v } : Lbfgsb).start outside params.length x0 lb ub prm
  ⟨api, driver, params, target, loss, mode, steps, .handle status⟩

/-- No call of the host changes a parameter, and the driver does not converge right behind the
restore of its low point. -/
def Reapplied (o : Optimize σ α) : Turn σ α → Prop
  | .host setting =>
      ∀ p ∈ o.params, (o.api.step geometry kernels setting.call).held p = o.api.held p
  | .stage _ _ _ => o.waiting = .stage → o.driver.stopsRestored outside = false

instance [DecidableEq α] (o : Optimize σ α) :
    ∀ turn, Decidable (o.Reapplied geometry kernels outside turn)
  | .host _ => inferInstanceAs (Decidable (∀ p ∈ o.params, _ = _))
  | .stage _ _ _ => inferInstanceAs (Decidable (_ = _ → _ = _))

end Steps

end Optimize

/-! ## What an evaluation writes -/

section Writes

variable {σ α : Type*}

theorem firstMu_modifyHead (prims : List (Primitive σ α)) (v : α) :
    ∀ mu ∈ firstMu (prims.modifyHead fun pr => { pr with mu := v }), mu = v := by
  cases prims with
  | nil => rintro _ ⟨⟩
  | cons first rest =>
      rintro _ ⟨⟩
      rfl

/-- What the loop over the parameters writes. -/
structure Assigned (widen : Single → α) (entries : List (Parameter × Single))
    (before after : Api σ α) : Prop where
  other : ∀ p ∉ entries.map Prod.fst, after.cfg.get p = before.cfg.get p ∧
    (p = .mu → after.scene = before.scene)
  value : ∀ e ∈ entries, after.cfg.get e.1 = widen e.2 ∧
    (e.1 = .mu → ∀ mu ∈ firstMu after.scene.prims, mu = widen e.2)

/-- What an evaluation leaves in the session is what the host has. -/
structure InSession (params : List Parameter) (api : Api σ α) : Prop where
  cfg : ∀ p ∈ params, api.session.sim.cfg.get p = api.cfg.get p
  prims : api.session.sim.scene.prims = api.scene.prims

theorem idle_of_not_busy {api : Api σ α} (ready : api.busy = false) :
    api.session.active.idle = true := by
  unfold Api.busy at ready
  simp only [Bool.or_eq_false_iff, Bool.not_eq_false'] at ready
  exact ready.1

/-- A point written and synced is left at every parameter. -/
theorem InSession.leftAt {widen : Single → α} {params : List Parameter} {x : List Single}
    {before host api : Api σ α} (length : x.length = params.length)
    (assigned : Assigned widen (params.zip x) before host) (cfg : api.cfg = host.cfg)
    (scene : api.scene = host.scene) (synced : InSession params api) : LeftAt widen api params x := by
  refine ⟨length, fun e member => ?_⟩
  obtain ⟨value, first⟩ := assigned.value e member
  have named : e.1 ∈ params := (List.of_mem_zip member).1
  have firsts : ∀ mu ∈ (if e.1 = .mu then firstMu host.scene.prims else none), mu = widen e.2 := by
    split
    next isMu => exact first isMu
    · rintro _ ⟨⟩
  constructor
  · show api.cfg.get e.1 = _
    rw [cfg, value]
  · show api.session.sim.cfg.get e.1 = _
    rw [synced.cfg e.1 named, cfg, value]
  · show ∀ mu ∈ (if e.1 = .mu then firstMu api.scene.prims else none), mu = widen e.2
    rw [scene]
    exact firsts
  · show ∀ mu ∈ (if e.1 = .mu then firstMu api.session.sim.scene.prims else none), mu = widen e.2
    rw [synced.prims, scene]
    exact firsts

/-- The parameters do not depend on what else a call changes. -/
theorem LeftAt.congr {widen : Single → α} {params : List Parameter} {x : List Single}
    {before after : Api σ α} (left : LeftAt widen before params x)
    (same : ∀ p ∈ params, after.held p = before.held p) : LeftAt widen after params x := by
  refine ⟨left.length, fun e member => ?_⟩
  rw [same e.1 (List.of_mem_zip member).1]
  exact left.value e member

variable [Field α] [LinearOrder α] {geometry : Geometry σ α} {kernels : Kernels α}

theorem Config.get_set {cfg cfg' : Config α} {p : Parameter} {v : α}
    (accepted : cfg.set p v = some cfg') (q : Parameter) :
    cfg'.get q = if q = p then v else cfg.get q := by
  cases p with
  | density =>
      unfold Config.set at accepted
      dsimp only at accepted
      split at accepted
      · cases accepted
        cases q <;> rfl
      · cases accepted
  | _ =>
      cases accepted
      cases q <;> rfl

theorem Optimize.assign_session (widen : Single → α) (entries : List (Parameter × Single))
    (api : Api σ α) : (Optimize.assign widen entries api).1.session = api.session := by
  induction entries generalizing api with
  | nil => rfl
  | cons entry rest ih =>
      unfold Optimize.assign
      split
      · rfl
      · exact ih _

/-- Where no value is refused, every named parameter has its own; no later entry takes it back. -/
theorem Optimize.assign_assigned (widen : Single → α) {entries : List (Parameter × Single)}
    (distinct : (entries.map Prod.fst).Nodup) {before after : Api σ α}
    (assigned : Optimize.assign widen entries before = (after, true)) :
    Assigned widen entries before after := by
  induction entries generalizing before with
  | nil =>
      cases assigned
      exact ⟨fun _ _ => ⟨rfl, fun _ => rfl⟩, nofun⟩
  | cons entry rest ih =>
      obtain ⟨p, x⟩ := entry
      obtain ⟨fresh, distinct⟩ := List.nodup_cons.mp distinct
      unfold Optimize.assign at assigned
      split at assigned
      · cases assigned
      next cfg accepted =>
        dsimp only at assigned
        obtain ⟨other, value⟩ := ih distinct assigned
        refine ⟨fun q outside => ?_, fun e member => ?_⟩
        · obtain ⟨different, outside⟩ := not_or.mp (List.mem_cons.not.mp outside)
          obtain ⟨kept, scene⟩ := other q outside
          refine ⟨kept.trans ?_, fun isMu => (scene isMu).trans ?_⟩
          · rw [Config.get_set accepted, if_neg different]
          · exact if_neg fun same => different (isMu.trans same.symm)
        · rcases List.mem_cons.mp member with rfl | member
          · obtain ⟨kept, scene⟩ := other _ fresh
            refine ⟨kept.trans ?_, fun isMu => ?_⟩
            · rw [Config.get_set accepted, if_pos rfl]
            · rw [scene isMu, if_pos isMu]
              exact firstMu_modifyHead _ _
          · exact value e member

theorem Optimize.reload_synced (params : List Parameter) {api : Api σ α}
    (idle : api.session.active.idle = true) :
    InSession params (Optimize.reload geometry kernels api) := by
  have loaded : (Optimize.reload geometry kernels api).session =
      { api.session with sim := Sim.load geometry api.session.sim.solver api.scene api.cfg } :=
    if_pos idle
  constructor
  · intro p _
    rw [loaded]
    rfl
  · rw [loaded]
    rfl

/-- A parameter that uploads nothing is the friction. -/
theorem Optimize.reapply_synced {params : List Parameter} (live : ∀ p ∈ params, p = .mu)
    (api : Api σ α) : InSession params (Optimize.reapply geometry kernels api) := by
  constructor
  · intro p member
    rw [live p member]
    dsimp only [Optimize.reapply, Session.step]
    split <;> rfl
  · dsimp only [Optimize.reapply, Session.step]
    split <;> rfl

theorem Optimize.enqueue_synced {params : List Parameter} {api : Api σ α} (o : Optimize σ α)
    (synced : InSession params api) : InSession params (o.enqueue geometry kernels api) := by
  have sim : (o.enqueue geometry kernels api).session.sim = api.session.sim := by
    dsimp only [Optimize.enqueue, Session.step]
    split <;> rfl
  constructor
  · intro p member
    rw [sim]
    exact synced.cfg p member
  · rw [sim]
    exact synced.prims

theorem Optimize.enqueue_flagged {api : Api σ α} (o : Optimize σ α)
    (flagged : api.session.Flagged) : (o.enqueue geometry kernels api).session.Flagged := by
  have stepped (session : Session σ α) (op : Op σ α) (flagged : session.Flagged) :
      (session.step geometry kernels op).Flagged := Session.step_flagged session op flagged
  exact stepped _ (.enqueueBackward _ _ _) (stepped _ (.enqueueForward _) flagged)

/-- A fit phase takes the gravity and the damping only. -/
theorem tick_get (fault : Fault) {session : Session σ α} (flagged : session.Flagged)
    (p : Parameter) :
    (session.tick geometry kernels fault).sim.cfg.get p = session.sim.cfg.get p := by
  have ticked : Session.Ticked geometry kernels (fun _ => True) session
      (session.tick geometry kernels fault) :=
    Session.tick_ticked fault flagged fun _ _ _ => trivial
  have fits {first last : Session σ α}
      (fitted : Session.Fitted geometry kernels (fun _ => True) first last) :
      last.sim.cfg.get p = first.sim.cfg.get p := by
    cases fitted with
    | running advanced active => rw [advanced.cfg]
    | finished saved moves cfg =>
        rw [cfg]
        cases p <;> rfl
  cases ticked with
  | fit running fitted => exact fits fitted
  | begun first idle sim gravity damp may fitted =>
      rw [fits fitted, sim]
      cases p <;> rfl
  | other off moves cfg => rw [cfg]

/-- A tick leaves the parameters. -/
theorem tick_held (fault : Fault) {api : Api σ α} (flagged : api.session.Flagged) (p : Parameter) :
    (api.step geometry kernels (.tick fault)).held p = api.held p := by
  have ticked : Session.Ticked geometry kernels (fun _ => True) api.session
      (api.session.tick geometry kernels fault) :=
    Session.tick_ticked fault flagged fun _ _ _ => trivial
  have prims : (api.session.tick geometry kernels fault).sim.scene.prims =
      api.session.sim.scene.prims :=
    @DressOn.Runs.kept_of_moves _ _ (fun sim => sim.scene.prims = api.session.sim.scene.prims)
      (fun _ _ move kept => (move_prims move).trans kept) _ _ (ticked.moves flagged) rfl
  show Held.mk _ ((api.session.tick geometry kernels fault).sim.cfg.get p) _
    (if p = .mu then firstMu (api.session.tick geometry kernels fault).sim.scene.prims
      else none) = _
  rw [tick_get fault flagged, prims]
  rfl

/-- A setting waits for nothing and queues nothing. -/
theorem setting_busy (api : Api σ α) (setting : Setting σ α) :
    (api.step geometry kernels setting.call).busy = api.busy := by
  cases setting <;> rfl

theorem setting_flagged {api : Api σ α} (flagged : api.session.Flagged) (setting : Setting σ α) :
    (api.step geometry kernels setting.call).session.Flagged := by
  have stepped (session : Session σ α) (op : Op σ α) (flagged : session.Flagged) :
      (session.step geometry kernels op).Flagged := Session.step_flagged session op flagged
  cases setting with
  | configUpload upload => exact flagged
  | primitive pr => exact stepped _ (.setPrims _) flagged
  | clear => exact stepped _ (.setPrims _) flagged
  | configLive live => exact stepped _ (.setLive _) flagged
  | configMu mu => exact stepped _ (.setPrims _) (stepped _ (.setLive _) flagged)

end Writes

/-! ## Runs -/

namespace Optimize

section Runs

variable {σ α : Type*} {geometry : Geometry σ α} {kernels : Kernels α}
  {outside : DressOn.Lbfgsb.Vec.Kernels Single} {widen : Single → α}

variable (widen) in
/-- The driver's point is what is left. -/
def Left (o : Optimize σ α) : Prop := LeftAt widen o.api o.params (o.driver.vector .X)

variable (widen) in
/-- A phase is in flight; behind an evaluation, the point is still there. -/
structure InFlight (o : Optimize σ α) : Prop where
  ready : o.api.busy = false
  await : o.driver.await = .none
  evaluated : o.driver.phase = .x0 ∨ o.driver.phase = .post → o.Left widen

variable (widen) in
/-- What holds while the optimize waits. -/
def Coherent (o : Optimize σ α) : Prop :=
  match o.waiting with
  | .handle .busy => o.InFlight widen
  | .handle .needEval | .handle .try =>
      o.api.busy = false ∧ (o.driver.await = .eval0 ∨ o.driver.await = .trial)
  | .handle .accept => o.api.busy = false ∧ o.driver.await = .accept
  | .handle .converged => o.Left widen
  | .handle .fail => True
  | .stage => o.InFlight widen
  | .evaluation => (o.driver.await = .eval0 ∨ o.driver.await = .trial) ∧ o.Left widen
  | .finished none => True
  | .finished (some x) => LeftAt widen o.api o.params x

variable (widen) in
/-- What holds in every state of a run. -/
structure Kept (o : Optimize σ α) : Prop where
  distinct : o.params.Nodup
  flagged : o.api.session.Flagged
  size : o.driver.n = o.params.length
  coherent : o.Coherent widen

/-- A call of the driver that converges only at what is left keeps the run coherent. -/
theorem Kept.called {o : Optimize σ α} (distinct : o.params.Nodup) (flagged : o.api.session.Flagged)
    (ready : o.api.busy = false) {point : List Single} {ends : Prop} {called : Lbfgsb × Status}
    (led : DressOn.Stepwise.Led o.params.length point ends called)
    (left : ends → LeftAt widen o.api o.params point) :
    Kept widen { o with driver := called.1, waiting := .handle called.2 } := by
  refine ⟨distinct, flagged, led.n, ?_⟩
  obtain ⟨driver, status⟩ := called
  cases status with
  | busy =>
      obtain ⟨await, notX0, notPost⟩ := led.busy rfl
      exact ⟨ready, await, fun behind => absurd behind (not_or.mpr ⟨notX0, notPost⟩)⟩
  | needEval => exact ⟨ready, led.asked (.inl rfl)⟩
  | «try» => exact ⟨ready, led.asked (.inr rfl)⟩
  | accept => exact ⟨ready, led.accepted rfl⟩
  | converged =>
      obtain ⟨here, free⟩ := led.converged rfl
      show LeftAt widen o.api o.params (driver.vector .X)
      rw [show driver.vector .X = point from here]
      exact left free
  | fail => trivial

/-- The collector hands the answer to the driver, which submits the phase behind it. -/
theorem Kept.collect {o : Optimize σ α} (kept : o.Kept widen) (ready : o.api.busy = false)
    (asked : o.driver.await = .eval0 ∨ o.driver.await = .trial) (left : o.Left widen)
    (answer : Option (Double × (Nat → Single))) : (o.collect outside answer).Kept widen := by
  obtain ⟨distinct, flagged, size, -⟩ := kept
  unfold Optimize.collect
  split
  · exact ⟨distinct, flagged, size, trivial⟩
  next loss gradient =>
    split
    · exact ⟨distinct, flagged, size, trivial⟩
    next driver uploaded =>
      obtain ⟨sameN, sameAwait, sameX⟩ := DressOn.Stepwise.setGradient_kept outside uploaded
      rw [← sameAwait] at asked
      obtain ⟨status, n, await, here⟩ := DressOn.Stepwise.next_evaluated outside loss asked
      dsimp only
      rw [status]
      refine ⟨distinct, flagged, n.trans (sameN.trans size), ready, await, fun _ => ?_⟩
      show LeftAt widen o.api o.params ((driver.next outside loss).1.vector .X)
      rw [here, sameX]
      exact left

/-- The phase in flight has completed. -/
theorem Kept.stage {o : Optimize σ α} (kept : o.Kept widen) (flight : o.InFlight widen)
    (elsewhere : o.driver.stopsRestored outside = false) : (o.stage outside).Kept widen := by
  have led := DressOn.Stepwise.completed_led outside flight.await
  rw [← DressOn.Stepwise.next_completed outside 0 flight.await, kept.size] at led
  refine Kept.called kept.distinct kept.flagged flight.ready led fun ends => ?_
  rcases ends with first | tried | restored
  · exact flight.evaluated (.inl first)
  · exact flight.evaluated (.inr tried)
  · exact absurd (elsewhere.symm.trans restored) Bool.false_ne_true

/-- What the optimize waits with depends on the parameters and on whether work is queued. -/
theorem Coherent.congr {o : Optimize σ α} (coherent : o.Coherent widen) {api : Api σ α}
    (busy : api.busy = o.api.busy) (same : ∀ p ∈ o.params, api.held p = o.api.held p) :
    Coherent widen { o with api := api } := by
  obtain ⟨before, driver, params, target, loss, mode, steps, waiting⟩ := o
  have inFlight : InFlight widen ⟨before, driver, params, target, loss, mode, steps, waiting⟩ →
      InFlight widen ⟨api, driver, params, target, loss, mode, steps, waiting⟩ := fun flight =>
    ⟨busy.trans flight.ready, flight.await, fun behind => (flight.evaluated behind).congr same⟩
  cases waiting with
  | stage => exact inFlight coherent
  | evaluation => exact ⟨coherent.1, coherent.2.congr same⟩
  | finished reported =>
      cases reported with
      | none => trivial
      | some x => exact LeftAt.congr coherent same
  | handle status =>
      cases status with
      | busy => exact inFlight coherent
      | needEval => exact ⟨busy.trans coherent.1, coherent.2⟩
      | «try» => exact ⟨busy.trans coherent.1, coherent.2⟩
      | accept => exact ⟨busy.trans coherent.1, coherent.2⟩
      | converged => exact LeftAt.congr coherent same
      | fail => trivial

variable [Field α] [LinearOrder α]

/-- An evaluation writes the driver's point, or ends the run without an answer. -/
theorem Kept.eval {o : Optimize σ α} (kept : o.Kept widen) (ready : o.api.busy = false)
    (asked : o.driver.await = .eval0 ∨ o.driver.await = .trial) (loads : Bool) :
    (o.eval geometry kernels widen loads (o.driver.vector .X)).Kept widen := by
  obtain ⟨distinct, flagged, size, -⟩ := kept
  have length : (o.driver.vector .X).length = o.params.length := by
    simpa [Lbfgsb.vector, DressOn.Lbfgsb.Vec.slice] using size
  have keys : ((o.params.zip (o.driver.vector .X)).map Prod.fst).Nodup := by
    rw [List.map_fst_zip length.ge]
    exact distinct
  have stepped (session : Session σ α) (op : Op σ α) (flagged : session.Flagged) :
      (session.step geometry kernels op).Flagged := Session.step_flagged session op flagged
  have session := assign_session widen (o.params.zip (o.driver.vector .X)) o.api
  unfold Optimize.eval
  split
  next host refused =>
    rw [refused] at session
    exact ⟨distinct, session ▸ flagged, size, trivial⟩
  next host accepted =>
    have assigned := assign_assigned widen keys accepted
    rw [accepted] at session
    have flagged : host.session.Flagged := session ▸ flagged
    have idle : host.session.active.idle = true := session ▸ idle_of_not_busy ready
    dsimp only
    split
    · have reloaded : (reload geometry kernels host).session.Flagged :=
        stepped _ (.load _ _) flagged
      split
      · exact ⟨distinct, o.enqueue_flagged reloaded, size, asked,
          (o.enqueue_synced (reload_synced _ idle)).leftAt length assigned rfl rfl⟩
      · exact ⟨distinct, reloaded, size, trivial⟩
    next onlyMu =>
      have live : ∀ p ∈ o.params, p = .mu := by simpa using onlyMu
      have applied : (reapply geometry kernels host).session.Flagged :=
        stepped _ .rewind (stepped _ (.setPrims _) (stepped _ (.setLive _) flagged))
      exact ⟨distinct, o.enqueue_flagged applied, size, asked,
        (o.enqueue_synced (reapply_synced live host)).leftAt length assigned rfl rfl⟩

/-- A round of `opt_handle`'s loop. -/
theorem Kept.handle {o : Optimize σ α} (kept : o.Kept widen) {status : Status}
    (waiting : o.waiting = .handle status) (loads : Bool) :
    (o.handle geometry kernels outside widen loads status).Kept widen := by
  have coherent := kept.coherent
  unfold Coherent at coherent
  rw [waiting] at coherent
  cases status with
  | busy => exact ⟨kept.distinct, kept.flagged, kept.size, ⟨coherent.ready, coherent.await,
      coherent.evaluated⟩⟩
  | needEval => exact kept.eval coherent.1 coherent.2 loads
  | «try» => exact kept.eval coherent.1 coherent.2 loads
  | accept =>
      have led : DressOn.Stepwise.Led o.driver.n [] False (o.driver.next outside 0) :=
        DressOn.Stepwise.next_accepted outside 0 coherent.2
      rw [kept.size] at led
      exact Kept.called kept.distinct kept.flagged coherent.1 led nofun
  | converged => exact ⟨kept.distinct, kept.flagged, kept.size, coherent⟩
  | fail => exact ⟨kept.distinct, kept.flagged, kept.size, trivial⟩

/-- One turn keeps the run coherent. -/
theorem step_kept (o : Optimize σ α) (turn : Turn σ α) (kept : o.Kept widen)
    (reapplied : o.Reapplied geometry kernels outside turn) :
    (o.step geometry kernels outside widen turn).Kept widen := by
  have coherent := kept.coherent
  cases turn with
  | host setting =>
      exact ⟨kept.distinct, setting_flagged kept.flagged setting, kept.size,
        coherent.congr (setting_busy o.api setting) reapplied⟩
  | stage fault loads answer =>
      unfold Coherent at coherent
      unfold step
      dsimp only
      cases waiting : o.waiting with
      | handle status => exact kept.handle waiting loads
      | stage =>
          rw [waiting] at coherent
          exact kept.stage coherent (reapplied waiting)
      | evaluation =>
          rw [waiting] at coherent
          dsimp only
          split
          next busy =>
            have ticked : (o.api.step geometry kernels (.tick fault)).session.Flagged :=
              Session.step_flagged o.api.session (.tick fault) kept.flagged
            exact ⟨kept.distinct, ticked, kept.size, coherent.1,
              coherent.2.congr fun p _ => tick_held fault kept.flagged p⟩
          next ready =>
            exact kept.collect (by simpa using ready) coherent.1 coherent.2 answer
      | finished reported => exact kept

theorem eval_params (loads : Bool) (x : List Single) (o : Optimize σ α) :
    (o.eval geometry kernels widen loads x).params = o.params := by
  unfold Optimize.eval
  split
  · rfl
  · dsimp only
    split
    · split <;> rfl
    · rfl

/-- A run stays over the parameters it was queued with. -/
theorem step_params (o : Optimize σ α) (turn : Turn σ α) :
    (o.step geometry kernels outside widen turn).params = o.params := by
  cases turn with
  | host setting => rfl
  | stage fault loads answer =>
      unfold step
      dsimp only
      split
      next status _ =>
        cases status with
        | needEval => exact eval_params loads _ o
        | «try» => exact eval_params loads _ o
        | _ => rfl
      · rfl
      · split
        · rfl
        · unfold Optimize.collect
          split
          · rfl
          · split <;> rfl
      · rfl

theorem run_params (o : Optimize σ α) (turns : List (Turn σ α)) :
    (turns.foldl (step geometry kernels outside widen) o).params = o.params := by
  induction turns generalizing o with
  | nil => rfl
  | cons turn rest ih => exact (ih _).trans (step_params o turn)

theorem run_flagged {session : Session σ α} (flagged : session.Flagged) (ops : List (Op σ α)) :
    (session.run geometry kernels ops).Flagged := by
  induction ops generalizing session with
  | nil => exact flagged
  | cons op rest ih => exact ih (Session.step_flagged session op flagged)

variable (geometry kernels outside widen)

/-- A run that ends `DONE` leaves the configuration, the scene's first primitive and the session at
the point it reports, as long as no parameter is named twice, no call of the host in between
changes one and the driver does not converge right behind the restore of its low point. -/
theorem done_leaves_reported (solver : Solver α) (scene : Scene σ α) (cfg : Config α)
    (earlier : List (Op σ α)) (api : Api σ α)
    (reached : api.session =
      Session.run geometry kernels (Session.opened geometry solver scene cfg) earlier)
    (ready : api.busy = false) (params : List Parameter) (distinct : params.Nodup)
    (target : Target α) (loss : Loss) (mode : Mode) (steps : Nat) (x0 : Nat → Single)
    (lb ub : Nat → Bound) (prm : LbfgsbParams) (v : DressOn.Lbfgsb.Vec.VecCpu Single)
    (turns : List (Turn σ α))
    (reapplied : Along (step geometry kernels outside widen) (Reapplied geometry kernels outside)
      (start outside api params target loss mode steps x0 lb ub prm v) turns) (x : List Single) :
    let last := turns.foldl (step geometry kernels outside widen)
      (start outside api params target loss mode steps x0 lb ub prm v)
    last.waiting = .finished (some x) → LeftAt widen last.api params x := by
  intro last done
  have flagged : api.session.Flagged := by
    rw [reached]
    exact run_flagged (Session.opened_flagged solver scene cfg) earlier
  have led : DressOn.Stepwise.Led params.length [] False
      (({ v := v } : Lbfgsb).start outside params.length x0 lb ub prm) :=
    DressOn.Stepwise.start_led outside x0 lb ub prm { v := v }
  have started : Kept widen (start outside api params target loss mode steps x0 lb ub prm v) :=
    Kept.called (o := ⟨api, { v := v }, params, target, loss, mode, steps, .stage⟩) distinct flagged
      ready led nofun
  have kept : last.Kept widen := reapplied.invariant step_kept started
  have named : last.params = params := run_params _ turns
  have coherent := kept.coherent
  unfold Coherent at coherent
  rw [done, named] at coherent
  exact coherent

end Runs

section Sloped

open DressOn.Stepwise (oneCoordinate absent lit)

/-- The rational of a number. -/
def rational : Single → ℚ
  | .finite q _ _ => q
  | _ => 0

/-- An optimize of the friction of a resting vertex from zero, unbounded, over one step. -/
def overMu (prm : LbfgsbParams) : Optimize Unit ℚ :=
  start oneCoordinate (Api.opened still (.fresh false) rough plain) [.mu] ⟨[], 0, [0], [0], none⟩
    .targetPoints .step 1 (fun _ => 0) (fun _ => absent true) (fun _ => absent false) prm .empty

/-- Stages without a fault. -/
def stages (n : Nat) : List (Turn Unit ℚ) := List.replicate n (.stage ⟨false, false⟩ true none)

/-- The stages of an evaluation with a value and a slope. -/
def evaluated (value slope : ℚ) : List (Turn Unit ℚ) :=
  List.replicate 5 (.stage ⟨false, false⟩ true (some (lit value, fun _ => .ofRat slope)))

/-- Downhill from ten at zero to nine at one, flat there: a trial of the line search is accepted and
reported, with the gravity set by the host before it and the friction set to what it is. -/
theorem done_leaves_reported_trial :
    let turns : List (Turn Unit ℚ) := stages 3 ++ evaluated 10 (-1) ++
      [.host (.configLive { plain.toLive with gravity := ![0, -1, 0], mu := 0 })] ++ stages 7 ++
      evaluated 9 0 ++ stages 4
    let last := turns.foldl (step still inert oneCoordinate rational) (overMu {})
    last.waiting = .finished (some [1]) ∧ LeftAt rational last.api [.mu] [1] := by
  intro turns last
  have done : last.waiting = .finished (some [1]) := by decide +kernel
  exact ⟨done, done_leaves_reported still inert oneCoordinate rational (.fresh false) rough plain []
    (Api.opened still (.fresh false) rough plain) rfl rfl [.mu] (by decide) ⟨[], 0, [0], [0], none⟩
    .targetPoints .step 1 (fun _ => 0) (fun _ => absent true) (fun _ => absent false) {} .empty
    turns (by decide +kernel) [1] done⟩

/-- Ten at zero, nine at one, ten further out, with slope minus one throughout: the search runs out
of iterations, goes back to one and stops there, and the friction stays at the last trial. -/
theorem restored_leaves_trial :
    let last := (stages 3 ++ evaluated 10 (-1) ++ stages 7 ++ evaluated 9 (-1) ++ stages 5 ++
      evaluated 10 (-1) ++ stages 5).foldl (step still inert oneCoordinate rational)
      (overMu { m := 10, delta := lit (1 / 10 ^ 3), maxLinesearch := 1, maxIterations := 1 })
    last.waiting = .finished (some [1]) ∧ last.api.cfg.mu = 4404019 / 2097152 ∧
      ¬ LeftAt rational last.api [.mu] [1] := by
  intro last
  have ended : last.waiting = .finished (some [1]) ∧ last.api.cfg.mu = 4404019 / 2097152 := by
    decide +kernel
  refine ⟨ended.1, ended.2, fun left => ?_⟩
  have reported : last.api.cfg.mu = rational 1 :=
    (left.value (.mu, 1) List.mem_cons_self).cfg
  have one : rational 1 = 1 := by decide +kernel
  rw [ended.2, one] at reported
  norm_num at reported

end Sloped

end Optimize

end DressOn.Drape
