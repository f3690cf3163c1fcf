import DressOn.Drape.Stages

/-!
# The primitives behind the records

A record keeps the index of the primitive a contact was made with; a backward reads
the primitive under that index and adds to the gradient under it. The host's list
grows and its friction changes under the records. Only `clear` takes entries away.
-/

namespace DressOn.Drape

open DressOn.Avbd (Vec3)
open DressOn.Runs (Along kept_of_moves)

section Data

variable {σ α : Type*}

/-- The list has the primitive of that index, with the shape it had in an earlier list. -/
def Names (prims made : List (Primitive σ α)) (p : Nat) : Prop :=
  ∃ here before, prims[p]? = some here ∧ made[p]? = some before ∧ here.shape = before.shape

/-- Every index of a record names the primitive its contact was made with. -/
structure Named (prims : List (Primitive σ α)) (r : Record σ α) : Prop where
  pred : ∀ c ∈ r.pred, Names prims r.predPrims c.prim
  contacts : ∀ c ∈ r.contacts, Names prims r.contactPrims c.prim
  fric : ∀ ev ∈ r.fric, Names prims r.contactPrims ev.prim

/-- Every index of a record is below a bound. -/
structure Below (n : Nat) (r : Record σ α) : Prop where
  pred : ∀ c ∈ r.pred, c.prim < n
  contacts : ∀ c ∈ r.contacts, c.prim < n
  fric : ∀ ev ∈ r.fric, ev.prim < n

/-- No contact is on record. -/
structure Untouched (r : Record σ α) : Prop where
  pred : r.pred = []
  contacts : r.contacts = []
  fric : r.fric = []

/-- The drape calls of the host: its scene and configuration, and whether they wait for
an upload. -/
structure Api (σ α : Type*) where
  session : Session σ α
  scene : Scene σ α
  cfg : Config α
  dirty : Bool

/-- `drape_primitive`, `drape_primitive_mesh`, `drape_config` on a key that uploads, on one
that does not and on `mu`, `drape_queue_forward`, `drape_queue_backward`, `drape_tick`. -/
inductive Call (σ α : Type*) where
  | primitive (pr : Primitive σ α)
  | clear
  | configUpload (upload : Upload α)
  | configLive (live : Live α)
  | configMu (mu : α)
  | queueForward (steps : Nat)
  | queueBackward (target : Target α) (loss : Loss) (mode : Mode)
  | tick (fault : Fault)

end Data

namespace Api

section Calls

variable {σ α : Type*} [Field α] [LinearOrder α] (geometry : Geometry σ α) (kernels : Kernels α)

/-- `session_busy`. -/
def busy (api : Api σ α) : Bool := !api.session.active.idle || !api.session.queue.isEmpty

/-- A session just opened and loaded. -/
def opened (solver : Solver α) (scene : Scene σ α) (cfg : Config α) : Api σ α :=
  ⟨Session.opened geometry solver scene cfg, scene, cfg, false⟩

/-- `g_sess->setPrims(g_scene.prims)` after a change of the list. -/
def setPrims (prims : List (Primitive σ α)) (api : Api σ α) : Api σ α :=
  { api with
    scene := { api.scene with prims := prims }
    session := api.session.step geometry kernels (.setPrims prims) }

/-- `g_sess->setLive(g_cfg)` after a change of a live setting. -/
def setLive (live : Live α) (api : Api σ α) : Api σ α :=
  { api with
    cfg := api.cfg.setLive live
    session := api.session.step geometry kernels (.setLive live) }

/-- `load_scene`. -/
def loadScene (api : Api σ α) : Api σ α :=
  { api with session := api.session.step geometry kernels (.load api.scene api.cfg), dirty := false }

/-- One call. -/
def step (api : Api σ α) : Call σ α → Api σ α
  | .primitive pr => api.setPrims geometry kernels (api.scene.prims ++ [pr])
  | .clear => api.setPrims geometry kernels []
  | .configUpload upload => { api with cfg := { api.cfg with toUpload := upload }, dirty := true }
  | .configLive live => api.setLive geometry kernels live
  | .configMu mu =>
      (api.setLive geometry kernels { api.cfg.toLive with mu := mu }).setPrims geometry kernels
        (api.scene.prims.modifyHead fun pr => { pr with mu := mu })
  | .queueForward steps =>
      if api.dirty && api.busy then api
      else
        let api := if api.dirty then api.loadScene geometry kernels else api
        if steps = 0 then
          if api.busy then api
          else { api with session := api.session.step geometry kernels .rewind }
        else { api with session := api.session.step geometry kernels (.enqueueForward steps) }
  | .queueBackward target loss mode =>
      { api with session := api.session.step geometry kernels (.enqueueBackward target loss mode) }
  | .tick fault => { api with session := api.session.step geometry kernels (.tick fault) }

/-- Every index on record names its primitive in the session's list, and lies below the
gradient of the backward that runs; a native read writes within that gradient. -/
structure Safe (api : Api σ α) : Prop where
  named : ∀ r ∈ api.session.sim.recs, Named api.session.sim.scene.prims r
  below : ∀ bwd, api.session.active = .backward bwd →
    ∀ r ∈ api.session.sim.recs, Below bwd.grad.dmu.length r
  written : ∀ bwd, api.session.active = .backward bwd → bwd.stage = .nativeRead →
    (Backward.nativeDmu api.session.sim bwd).isSome

/-- The list is cleared while no contact is on record only, and grows while no native
backward waits for its read only. -/
def Unclear (api : Api σ α) : Call σ α → Prop
  | .clear => (∀ r ∈ api.session.sim.recs, Untouched r) ∧
      (api.session.sim.phase ≠ .idle → Untouched api.session.sim.cur)
  | .primitive _ => ∀ bwd, api.session.active = .backward bwd → bwd.stage ≠ .nativeRead
  | _ => True

end Calls

end Api

section Names

variable {σ α : Type*}

/-- A list that keeps every primitive's place and shape. -/
def Extends (prims longer : List (Primitive σ α)) : Prop :=
  ∀ (p : Nat) (pr : Primitive σ α), prims[p]? = some pr →
    ∃ same : Primitive σ α, longer[p]? = some same ∧ same.shape = pr.shape

/-- A push keeps the primitives that there were. -/
theorem extends_append (prims : List (Primitive σ α)) (pr : Primitive σ α) :
    Extends prims (prims ++ [pr]) := by
  intro p old found
  exact ⟨old, List.getElem?_append_left (List.getElem?_eq_some_iff.mp found).1 ▸ found, rfl⟩

/-- A new `mu` keeps the primitives but for their `mu`. -/
theorem extends_mu (prims : List (Primitive σ α)) (mu : α) :
    Extends prims (prims.modifyHead fun pr => { pr with mu := mu }) := by
  intro p old found
  cases prims with
  | nil => cases found
  | cons first rest =>
      cases p with
      | zero =>
          cases found
          exact ⟨_, rfl, rfl⟩
      | succ p => exact ⟨old, found, rfl⟩

/-- An index keeps its name where the list is extended. -/
theorem Names.extend {prims longer made : List (Primitive σ α)} {p : Nat}
    (names : Names prims made p) (kept : Extends prims longer) : Names longer made p := by
  obtain ⟨here, before, found, made, shape⟩ := names
  obtain ⟨same, found, alike⟩ := kept p here found
  exact ⟨same, before, found, made, alike.trans shape⟩

/-- A record's indices keep their names where the list is extended. -/
theorem Named.extend {prims longer : List (Primitive σ α)} {r : Record σ α}
    (named : Named prims r) (kept : Extends prims longer) : Named longer r :=
  ⟨fun c member => (named.pred c member).extend kept,
    fun c member => (named.contacts c member).extend kept,
    fun ev member => (named.fric ev member).extend kept⟩

/-- An index that names a primitive is inside the list. -/
theorem Names.lt {prims made : List (Primitive σ α)} {p : Nat} (names : Names prims made p) :
    p < prims.length := by
  obtain ⟨here, -, found, -⟩ := names
  exact (List.getElem?_eq_some_iff.mp found).1

/-- A record's indices are inside the list. -/
theorem Named.below {prims : List (Primitive σ α)} {r : Record σ α} (named : Named prims r) :
    Below prims.length r :=
  ⟨fun c member => (named.pred c member).lt, fun c member => (named.contacts c member).lt,
    fun ev member => (named.fric ev member).lt⟩

/-- An index names the primitive at it. -/
theorem names_refl {prims : List (Primitive σ α)} {p : Nat} {pr : Primitive σ α}
    (found : prims[p]? = some pr) : Names prims prims p := ⟨pr, pr, found, found, rfl⟩

/-- A record without a contact names primitives of any list. -/
theorem Untouched.named {r : Record σ α} (untouched : Untouched r)
    (prims : List (Primitive σ α)) : Named prims r := by
  refine ⟨?_, ?_, ?_⟩
  · rw [untouched.pred]
    rintro _ ⟨⟩
  · rw [untouched.contacts]
    rintro _ ⟨⟩
  · rw [untouched.fric]
    rintro _ ⟨⟩

end Names

section Records

variable {σ α : Type*}

/-- What every turn keeps holds after the loop over vertices and primitives. -/
theorem forContacts_kept {τ : Type*} (nV : Nat) (prims : List (Primitive σ α))
    {turn : Nat → Nat → Primitive σ α → τ → τ} (kept : τ → Prop)
    (keeps : ∀ i p pr st, prims[p]? = some pr → kept st → kept (turn i p pr st)) {st : τ}
    (start : kept st) : kept (forContacts nV prims turn st) := by
  have inner (i : Nat) (entries : List (Primitive σ α × Nat))
      (within : ∀ e ∈ entries, prims[e.2]? = some e.1) {st : τ} (start : kept st) :
      kept (entries.foldl (fun st e => turn i e.2 e.1 st) st) := by
    induction entries generalizing st with
    | nil => exact start
    | cons e rest ih =>
        exact ih (fun e member => within e (List.mem_cons_of_mem _ member))
          (keeps i e.2 e.1 st (within e List.mem_cons_self) start)
  unfold forContacts
  generalize List.range nV = vertices
  induction vertices generalizing st with
  | nil => exact start
  | cons i rest ih =>
      exact ih (inner i _ (fun e member => List.mem_zipIdx_iff_getElem?.mp member) start)

/-- The records, and that of the step in progress, name their primitives. -/
structure Recorded (sim : Sim σ α) : Prop where
  recs : ∀ r ∈ sim.recs, Named sim.scene.prims r
  cur : sim.phase ≠ .idle → Named sim.scene.prims sim.cur

/-- The records stay; the step in progress names its primitives. -/
theorem Recorded.congr {before after : Sim σ α} (recorded : Recorded before)
    (recs : after.recs = before.recs) (prims : after.scene.prims = before.scene.prims)
    (cur : after.phase ≠ .idle → Named before.scene.prims after.cur) : Recorded after := by
  constructor
  · rw [recs, prims]
    exact recorded.recs
  · rw [prims]
    exact cur

/-- A scan is submitted: nothing on record changes. -/
theorem submitScan_recs (sim : Sim σ α) (fault : Fault) :
    (sim.submitScan fault).recs = sim.recs ∧ (sim.submitScan fault).scene = sim.scene ∧
      (sim.submitScan fault).cur = sim.cur := by
  unfold Sim.submitScan
  dsimp only
  split <;> exact ⟨rfl, rfl, rfl⟩

variable [Field α]

/-- The rest shape is no part of the records or the primitives. -/
theorem refreshRest_recs (geometry : Geometry σ α) (sim : Sim σ α) : (sim.refreshRest geometry).recs = sim.recs ∧
    (sim.refreshRest geometry).scene.prims = sim.scene.prims := by
  unfold Sim.refreshRest
  split
  · exact ⟨rfl, rfl⟩
  · split <;> exact ⟨rfl, rfl⟩

/-- A refresh touches neither the records nor the primitives. -/
theorem refresh_recs (geometry : Geometry σ α) (sim : Sim σ α) : (sim.refresh geometry).recs = sim.recs ∧
    (sim.refresh geometry).scene.prims = sim.scene.prims := by
  unfold Sim.refresh
  split
  · split
    · exact refreshRest_recs geometry sim
    · exact ⟨rfl, rfl⟩
  · exact ⟨rfl, rfl⟩

/-- The pull of a fit is no part of the records, the primitives or the step in progress. -/
theorem setFitPull_recs (on : Bool) (sim : Sim σ α) :
    (sim.setFitPull on).recs = sim.recs ∧ (sim.setFitPull on).scene.prims = sim.scene.prims ∧
      (sim.setFitPull on).phase = sim.phase ∧ (sim.setFitPull on).cur = sim.cur := by
  unfold Sim.setFitPull
  split <;> exact ⟨rfl, rfl, rfl, rfl⟩

variable [LinearOrder α] (geometry : Geometry σ α) (kernels : Kernels α)

/-- The contacts of the predictor are in the list they are made from. -/
theorem blend_within (nV : Nat) (prims : List (Primitive σ α)) (x v sb : Nat → Vec3 α) :
    ∀ c ∈ (forContacts nV prims (blendTurn geometry x v) (sb, [])).2, Names prims prims c.prim := by
  apply forContacts_kept nV prims
    fun st : (Nat → Vec3 α) × List (PredContact α) => ∀ c ∈ st.2, Names prims prims c.prim
  · intro i p pr st found within c member
    unfold blendTurn at member
    split at member
    · exact within c member
    · split at member
      · exact within c member
      · rcases List.mem_append.mp member with old | new
        · exact within c old
        · rw [List.mem_singleton.mp new]
          exact names_refl found
  · rintro c ⟨⟩

/-- So are those after the solve. -/
theorem respond_within (nV : Nat) (prims : List (Primitive σ α)) (pos vel : Nat → Vec3 α) :
    (∀ c ∈ (forContacts nV prims (contactTurn geometry) ⟨pos, vel, [], []⟩).contacts,
        Names prims prims c.prim) ∧
      ∀ ev ∈ (forContacts nV prims (contactTurn geometry) ⟨pos, vel, [], []⟩).fric,
        Names prims prims ev.prim := by
  apply forContacts_kept nV prims fun st : Response α =>
    (∀ c ∈ st.contacts, Names prims prims c.prim) ∧ ∀ ev ∈ st.fric, Names prims prims ev.prim
  · rintro i p pr st found ⟨contacts, fric⟩
    unfold contactTurn
    split
    · exact ⟨contacts, fric⟩
    · constructor
      · intro c member
        rcases List.mem_append.mp member with old | new
        · exact contacts c old
        · rw [List.mem_singleton.mp new]
          exact names_refl found
      · intro ev member
        dsimp only at member
        split at member
        · rcases List.mem_append.mp member with old | new
          · exact fric ev old
          · rw [List.mem_singleton.mp new]
            exact names_refl found
        · exact fric ev member
  · constructor <;> rintro c ⟨⟩

variable {geometry kernels} {sim : Sim σ α}

/-- The predictor's record names its primitives. -/
theorem predict_named (sim : Sim σ α) :
    Named sim.scene.prims (sim.predict geometry .empty) := by
  refine ⟨?_, by rintro _ ⟨⟩, by rintro _ ⟨⟩⟩
  unfold Sim.predict
  dsimp only
  split
  · exact blend_within geometry _ _ _ _ _
  · rintro _ ⟨⟩

/-- A step's beginning records nothing but the contacts of its predictor. -/
theorem Recorded.start (recorded : Recorded sim) (fault : Fault) :
    Recorded (sim.start geometry kernels fault) := by
  obtain ⟨recs, prims⟩ := refresh_recs geometry sim
  have named := @predict_named σ α _ _ geometry (sim.refresh geometry)
  have kept : ∀ r ∈ (sim.refresh geometry).recs, Named (sim.refresh geometry).scene.prims r := by
    rw [recs, prims]
    exact recorded.recs
  unfold Sim.start
  dsimp only
  split <;> exact ⟨kept, fun _ => named⟩

/-- A completed step's record is put with the others. -/
theorem Recorded.finishStep (recs : ∀ r ∈ sim.recs, Named sim.scene.prims r)
    (cur : Named sim.scene.prims sim.cur) : Recorded (sim.finishStep geometry) := by
  constructor
  · intro r member
    rcases List.mem_append.mp member with old | new
    · exact recs r old
    · rw [List.mem_singleton.mp new]
      exact ⟨cur.pred, cur.contacts, cur.fric⟩
  · intro busy
    exact absurd rfl busy

/-- The contacts after the solve are recorded with the list they are made from. -/
theorem Recorded.solved (recorded : Recorded sim) (busy : sim.phase ≠ .idle) (fault : Fault) :
    Recorded (sim.solved geometry kernels fault).1 := by
  have cur : Named sim.scene.prims (sim.respond geometry kernels fault).cur := by
    refine ⟨(recorded.cur busy).pred, ?_, ?_⟩
    all_goals
      unfold Sim.respond
      dsimp only
      split
    · exact (respond_within geometry _ _ _ _).1
    · rintro _ ⟨⟩
    · exact (respond_within geometry _ _ _ _).2
    · rintro _ ⟨⟩
  unfold Sim.solved
  dsimp only
  split
  · obtain ⟨recs, scene, same⟩ := submitScan_recs
      { sim.respond geometry kernels fault with pass := 0 } fault
    refine recorded.congr recs (congrArg Scene.prims scene) fun _ => ?_
    dsimp only
    rw [same]
    exact cur
  · refine Recorded.finishStep ?_ ?_
    · exact recorded.recs
    · exact cur

/-- A scanned step is recorded with the primitives that it touched. -/
theorem Recorded.scanned (recorded : Recorded sim) (busy : sim.phase ≠ .idle) (fault : Fault) :
    Recorded (sim.scanned geometry kernels fault).1 := by
  obtain ⟨pred, contacts, fric⟩ := recorded.cur busy
  unfold Sim.scanned
  dsimp only
  generalize (kernels.scan sim.solver.buffers).foldl _ _ = pushed
  split
  · obtain ⟨recs, scene, same⟩ := submitScan_recs
      { sim with
        pos := pushed.1
        pass := sim.pass + 1
        cur := { sim.cur with
          pushes := pushed.2, passEnd := sim.cur.passEnd ++ [pushed.2.length] } } fault
    refine recorded.congr recs (congrArg Scene.prims scene) fun _ => ?_
    dsimp only
    rw [same]
    exact ⟨pred, contacts, fric⟩
  · refine Recorded.finishStep ?_ ?_
    · exact recorded.recs
    · exact ⟨pred, contacts, fric⟩

/-- Every move keeps the records naming their primitives. -/
theorem Recorded.move {allowed : Sim σ α → Prop} {before after : Sim σ α}
    (recorded : Recorded before) (move : Sim.Move geometry kernels allowed before after) :
    Recorded after := by
  cases move with
  | advance fault running may =>
      unfold Sim.advance
      cases phase : before.phase with
      | idle => exact recorded.start fault
      | solved => exact recorded.solved (by rw [phase]; rintro ⟨⟩) fault
      | scanned => exact recorded.scanned (by rw [phase]; rintro ⟨⟩) fault
  | beginFit off may => exact ⟨recorded.recs, recorded.cur⟩
  | beginSettle running active off =>
      obtain ⟨recs, prims, phase, cur⟩ := setFitPull_recs false { before with fitSettling := true }
      refine recorded.congr recs prims fun busy => ?_
      rw [Sim.beginSettle, cur]
      rw [Sim.beginSettle, phase] at busy
      exact recorded.cur busy
  | endSettle on =>
      obtain ⟨recs, prims, phase, cur⟩ := setFitPull_recs true before
      refine recorded.congr recs prims fun busy => ?_
      dsimp only [Sim.endSettle] at busy ⊢
      rw [cur]
      rw [phase] at busy
      exact recorded.cur busy
  | finishFit gravity damp => exact ⟨recorded.recs, recorded.cur⟩
  | restaged staged =>
      rw [staged.sim]
      exact ⟨recorded.recs, recorded.cur⟩

/-- No move changes the primitives. -/
theorem move_prims {allowed : Sim σ α → Prop} {before after : Sim σ α}
    (move : Sim.Move geometry kernels allowed before after) :
    after.scene.prims = before.scene.prims := by
  cases move with
  | advance fault running may =>
      rw [(advance_stepped geometry kernels fault before).scene]
      unfold Sim.begun
      split
      · exact (refresh_recs geometry before).2
      · rfl
  | beginFit off may => rfl
  | beginSettle running active off =>
      exact (setFitPull_recs false { before with fitSettling := true }).2.1
  | endSettle on => exact (setFitPull_recs true before).2.1
  | finishFit gravity damp => rfl
  | restaged staged => rw [staged.scene]

end Records

section Gradient

variable {σ α : Type*} (geometry : Geometry σ α) (kernels : Kernels α)

namespace Backward

/-- The gradient has room for every index on record and, while a native read is due, for
every primitive. -/
structure Fits (sim : Sim σ α) (bwd : Backward α) : Prop where
  below : ∀ r ∈ sim.recs, Below bwd.grad.dmu.length r
  long : bwd.stage = .nativeRead → sim.scene.prims.length ≤ bwd.grad.dmu.length

/-- A gradient as long as the list fits. -/
theorem fits_of_length {sim : Sim σ α} {bwd : Backward α} (recorded : Recorded sim)
    (long : bwd.grad.dmu.length = sim.scene.prims.length) : Fits sim bwd := by
  refine ⟨?_, fun _ => long.ge⟩
  rw [long]
  exact fun r member => (recorded.recs r member).below

/-- So does one that stays as long as it was, where no native read comes up. -/
theorem Fits.congr {sim : Sim σ α} {bwd after : Backward α} (fits : Fits sim bwd)
    (long : after.grad.dmu.length = bwd.grad.dmu.length)
    (stage : after.stage = .nativeRead → bwd.stage = .nativeRead) : Fits sim after := by
  refine ⟨?_, fun due => ?_⟩ <;> rw [long]
  · exact fits.below
  · exact fits.long (stage due)

variable [Field α] (fault : Fault) (sim : Sim σ α) (bwd : Backward α)

/-- Writes to places of the gradient all go through, and leave it as long as it was. -/
theorem nativeWrites_within {double : Bool} {c : List α} (places : List Nat) {dmu : List α}
    (within : ∀ p ∈ places, p < dmu.length) :
    ∃ written, places.foldlM (fun dmu p =>
        dmu[p]?.map fun d => dmu.set p (c.getD p 0 + d + if double then d else 0)) dmu =
      some written ∧ written.length = dmu.length := by
  induction places generalizing dmu with
  | nil => exact ⟨dmu, rfl, rfl⟩
  | cons p places ih =>
      have here : p < dmu.length := within p List.mem_cons_self
      rw [List.foldlM_cons, List.getElem?_eq_getElem here]
      dsimp only [Option.map_some]
      generalize c.getD p 0 + dmu[p] + (if double then dmu[p] else 0) = d
      have rest : ∀ q ∈ places, q < (dmu.set p d).length := by
        rw [List.length_set]
        exact fun q member => within q (List.mem_cons_of_mem _ member)
      obtain ⟨written, runs, long⟩ := ih rest
      exact ⟨written, runs, long.trans List.length_set⟩

/-- The native backward has a cotangent for each primitive. -/
theorem nativeMu_length (fric : List (Friction α)) :
    (nativeMu sim fric).length = sim.scene.prims.length := by
  have turns (c : List α) : (fric.foldl (fun c ev => c.modify ev.prim
      (· + (-ev.vTan) ⬝ᵥ (sim.cfg.h • sim.solver.grads.predicted ev.vert))) c).length =
        c.length := by
    induction fric generalizing c with
    | nil => rfl
    | cons ev rest ih => exact (ih _).trans (List.length_modify _ _ _)
  exact (turns _).trans List.length_replicate

/-- A gradient as long as the list has room for what a native read writes. -/
theorem nativeDmu_within (long : sim.scene.prims.length ≤ bwd.grad.dmu.length) :
    ∃ written, nativeDmu sim bwd = some written ∧ written.length = bwd.grad.dmu.length := by
  refine nativeWrites_within _ fun p member => ?_
  rw [List.mem_range, nativeMu_length] at member
  exact member.trans_le long

/-- A submitted iteration adds nothing to the gradient. -/
theorem submitIteration_dmu : (submitIteration kernels fault sim bwd).2.grad = bwd.grad := by
  unfold submitIteration
  dsimp only
  split <;> rfl

/-- A submitted iteration waits for no native read. -/
theorem submitIteration_stage :
    (submitIteration kernels fault sim bwd).2.stage ≠ .nativeRead := by
  unfold submitIteration
  dsimp only
  split <;> rintro ⟨⟩

/-- A snapshot adds nothing to the gradient. -/
theorem rcSnap_dmu : (rcSnap kernels fault sim bwd).2.grad = bwd.grad := by
  unfold rcSnap
  split
  · rfl
  · dsimp only
    split
    · split <;> rfl
    · rw [startUnrolledBackward, submitIteration_dmu]

/-- A snapshot waits for no native read. -/
theorem rcSnap_stage (waits : bwd.stage = .rcSnap) :
    (rcSnap kernels fault sim bwd).2.stage ≠ .nativeRead := by
  unfold rcSnap
  split
  · rintro ⟨⟩
  · dsimp only
    split
    · split
      · rintro ⟨⟩
      · rw [waits]
        rintro ⟨⟩
    · exact submitIteration_stage kernels fault _ _

variable [LinearOrder α]

/-- The native submit adds nothing to the gradient. -/
theorem nativeSubmit_dmu :
    (nativeSubmit geometry kernels fault sim bwd).2.grad = bwd.grad := by
  unfold nativeSubmit
  split
  · rfl
  · split <;> rfl

/-- The native read keeps the size of `dmu` where no primitive has been pushed. -/
theorem nativeRead_dmu (long : sim.scene.prims.length ≤ bwd.grad.dmu.length) :
    (nativeRead geometry kernels fault sim bwd).2.grad.dmu.length = bwd.grad.dmu.length := by
  unfold nativeRead
  split
  · rfl
  · rw [nativeSubmit_dmu]
    obtain ⟨written, runs, same⟩ := nativeDmu_within sim (accumulateParams sim bwd) long
    dsimp only
    rw [runs]
    exact same

/-- The contacts add to the gradient in place. -/
theorem throughContacts_dmu :
    (throughContacts geometry sim bwd).dmu.length = bwd.grad.dmu.length := by
  have turn (st : ContactBack α) (c : Contact α) :
      (contactBackTurn geometry sim.scene.prims st c).dmu.length = st.dmu.length := by
    unfold contactBackTurn
    split
    · rfl
    · dsimp only
      split
      · exact List.length_modify _ _ _
      · rfl
  have turns (contacts : List (Contact α)) (st : ContactBack α) :
      (contacts.foldl (contactBackTurn geometry sim.scene.prims) st).dmu.length =
        st.dmu.length := by
    induction contacts generalizing st with
    | nil => rfl
    | cons c rest ih => exact (ih _).trans (turn st c)
  exact turns _ _

/-- The start of a step keeps the size of `dmu`. -/
theorem rcBegin_dmu :
    (rcBegin geometry kernels fault sim bwd).2.grad.dmu.length = bwd.grad.dmu.length := by
  unfold rcBegin
  split
  · rfl
  · dsimp only
    split
    · split
      · split <;> exact throughContacts_dmu geometry sim bwd
      · rw [startUnrolledBackward, submitIteration_dmu]
        exact throughContacts_dmu geometry sim bwd
    · split <;> exact throughContacts_dmu geometry sim bwd

/-- The end of a step keeps the size of `dmu`. -/
theorem finishStep_dmu : (finishStep sim bwd).grad.dmu.length = bwd.grad.dmu.length := by
  have turns (contacts : List (PredContact α)) (st : (Nat → Vec3 α) × List α) :
      (contacts.foldl predBackTurn st).2.length = st.2.length := by
    induction contacts generalizing st with
    | nil => rfl
    | cons c rest ih => exact (ih _).trans (List.length_modify _ _ _)
  exact turns _ _

/-- A read of a step keeps the size of `dmu`. -/
theorem rcBwdRead_dmu :
    (rcBwdRead geometry kernels fault sim bwd).2.grad.dmu.length = bwd.grad.dmu.length := by
  unfold rcBwdRead
  split
  · rfl
  · dsimp only
    split
    · rw [submitIteration_dmu]
      rfl
    · rw [rcBegin_dmu, finishStep_dmu]
      rfl

/-- `init` gives `dmu` an entry for each primitive. -/
theorem init_dmu :
    (init geometry kernels fault sim bwd).2.grad.dmu.length = sim.scene.prims.length := by
  unfold init
  dsimp only
  split
  · exact List.length_replicate
  · split
    · rw [nativeSubmit_dmu]
      exact List.length_replicate
    · rw [rcBegin_dmu]
      exact List.length_replicate

/-- A backward that runs its steps again waits for no native read. -/
theorem rcBegin_stage : (rcBegin geometry kernels fault sim bwd).2.stage ≠ .nativeRead := by
  unfold rcBegin
  split
  · rintro ⟨⟩
  · dsimp only
    split
    · split
      · split <;> rintro ⟨⟩
      · exact submitIteration_stage kernels fault _ _
    · split <;> rintro ⟨⟩

/-- After the read of a step no native read is waited for. -/
theorem rcBwdRead_stage : (rcBwdRead geometry kernels fault sim bwd).2.stage ≠ .nativeRead := by
  unfold rcBwdRead
  split
  · rintro ⟨⟩
  · dsimp only
    split
    · exact submitIteration_stage kernels fault _ _
    · exact rcBegin_stage geometry kernels fault _ _

variable {sim bwd}

/-- A stage leaves the gradient fitting, or makes it as long as the list. -/
theorem advance_fits (recorded : Recorded sim) (fits : bwd.stage = .init ∨ Fits sim bwd) :
    Fits sim (bwd.advance geometry kernels fault sim).2 := by
  unfold advance
  cases stage : bwd.stage with
  | init => exact fits_of_length recorded (init_dmu geometry kernels fault sim bwd)
  | _ =>
      have fits : Fits sim bwd := fits.resolve_left (by rw [stage]; rintro ⟨⟩)
      first
      | exact fits.congr (nativeRead_dmu geometry kernels fault sim bwd (fits.long stage))
          fun _ => stage
      | exact fits.congr (congrArg (fun grad => grad.dmu.length) (rcSnap_dmu kernels fault sim bwd))
          fun due => absurd due (rcSnap_stage kernels fault sim bwd stage)
      | exact fits.congr (rcBwdRead_dmu geometry kernels fault sim bwd)
          fun due => absurd due (rcBwdRead_stage geometry kernels fault sim bwd)
      | exact fits

end Backward

end Gradient

section Run

variable {σ α : Type*} [Field α] {geometry : Geometry σ α} {kernels : Kernels α}

/-- A backward runs on records that name their primitives, and its gradient has room. -/
structure Session.Guarded (session : Session σ α) : Prop where
  flagged : session.Flagged
  recorded : Recorded session.sim
  fits : ∀ bwd, session.active = .backward bwd → Backward.Fits session.sim bwd

/-- The session's list is the host's, and its records name what is in it. -/
structure Api.Kept (api : Api σ α) : Prop where
  guarded : api.session.Guarded
  prims : api.session.sim.scene.prims = api.scene.prims

/-- A scene is opened with nothing on record. -/
theorem Api.opened_kept (solver : Solver α) (scene : Scene σ α) (cfg : Config α) :
    (opened geometry solver scene cfg).Kept :=
  ⟨⟨Session.opened_flagged solver scene cfg, ⟨by rintro _ ⟨⟩, fun busy => absurd rfl busy⟩,
    by rintro _ ⟨⟩⟩, rfl⟩

variable [LinearOrder α]

/-- A stage of a backward keeps room in its gradient. -/
theorem backwardStage_fits {session : Session σ α} {bwd : Backward α} (fault : Fault)
    (recorded : Recorded session.sim)
    (fits : bwd.stage = .init ∨ Backward.Fits session.sim bwd) :
    ∀ last, (session.backwardStage geometry kernels fault bwd).active = .backward last →
      Backward.Fits (session.backwardStage geometry kernels fault bwd).sim last := by
  intro last running
  have staged := Backward.advance_restaged geometry kernels fault session.sim bwd
  have same : last = (bwd.advance geometry kernels fault session.sim).2 := by
    unfold Session.backwardStage at running
    dsimp only at running
    split at running
    · cases running
    · exact (Active.backward.inj running).symm
  obtain ⟨below, long⟩ := Backward.advance_fits geometry kernels fault recorded fits
  rw [← same] at below long
  show Backward.Fits (bwd.advance geometry kernels fault session.sim).1 last
  rw [staged.sim]
  exact ⟨below, long⟩

/-- A stage of a forward begins no backward. -/
theorem forwardStage_active (fault : Fault) (session : Session σ α) (bwd : Backward α) :
    (session.forwardStage geometry kernels fault).active ≠ .backward bwd := by
  have forwarded : Session.Forwarded geometry kernels (fun _ => True) session
      (session.forwardStage geometry kernels fault) :=
    Session.forwardStage_forwarded geometry kernels fault session fun _ => trivial
  rcases forwarded.active with running | ended
  · rw [running]
    rintro ⟨⟩
  · rw [ended]
    rintro ⟨⟩

/-- A stage of a fit begins no backward. -/
theorem fitStage_active (fault : Fault) {session : Session σ α}
    (active : session.sim.fitActive = true) (bwd : Backward α) :
    (session.fitStage geometry kernels fault).active ≠ .backward bwd := by
  have fitted : Session.Fitted geometry kernels (fun _ => True) session
      (session.fitStage geometry kernels fault) :=
    Session.fitStage_fitted geometry kernels fault session active fun _ => trivial
  cases fitted with
  | running advanced running =>
      rw [running]
      rintro ⟨⟩
  | finished saved moves cfg fitActive fitSettling ended =>
      rw [ended]
      rintro ⟨⟩

/-- Only a stage of a backward leaves one running. -/
theorem tick_fits {session : Session σ α} (guarded : session.Guarded) (fault : Fault) :
    ∀ last, (session.tick geometry kernels fault).active = .backward last →
      Backward.Fits (session.tick geometry kernels fault).sim last := by
  obtain ⟨flagged, recorded, fits⟩ := guarded
  intro last
  unfold Session.tick
  cases running : session.active with
  | forward => exact fun ends => absurd ends (forwardStage_active fault session last)
  | fit =>
      have active := flagged.on (by rw [running]; rfl)
      exact fun ends => absurd ends (fitStage_active fault active last)
  | backward bwd => exact backwardStage_fits fault recorded (Or.inr (fits bwd running)) last
  | none =>
      cases queued : session.queue with
      | nil =>
          intro ends
          cases running.symm.trans ends
      | cons job rest =>
          cases job with
          | forward steps => exact fun ends => absurd ends (forwardStage_active fault _ last)
          | fit maxSteps tol =>
              dsimp only [Session.begin_]
              split
              · rintro ⟨⟩
              · exact fun ends => absurd ends (fitStage_active fault rfl last)
          | backward target loss mode =>
              dsimp only [Session.begin_]
              split
              · rintro ⟨⟩
              · exact backwardStage_fits fault recorded (Or.inl rfl) last

/-- A tick keeps what is on record in step with the primitives, and changes none of them. -/
theorem Session.Guarded.tick {session : Session σ α} (guarded : session.Guarded) (fault : Fault) :
    (session.tick geometry kernels fault).Guarded ∧
      (session.tick geometry kernels fault).sim.scene.prims = session.sim.scene.prims := by
  have ticked : Session.Ticked geometry kernels (fun _ => True) session
      (session.tick geometry kernels fault) :=
    Session.tick_ticked fault guarded.flagged fun _ _ _ => trivial
  have moves := ticked.moves guarded.flagged
  refine ⟨⟨ticked.flagged guarded.flagged,
    kept_of_moves (fun _ _ move kept => kept.move move) moves guarded.recorded,
    tick_fits guarded fault⟩, ?_⟩
  exact @kept_of_moves _ _ (fun sim => sim.scene.prims = session.sim.scene.prims)
    (fun _ _ move kept => (move_prims move).trans kept) _ _ moves rfl

namespace Api

/-- A list under which the records stay named, and that no due native read outgrows, may
replace the session's. -/
theorem Kept.setPrims {api : Api σ α} (kept : api.Kept) {prims : List (Primitive σ α)}
    (long : prims.length ≤ api.scene.prims.length ∨
      ∀ bwd, api.session.active = .backward bwd → bwd.stage ≠ .nativeRead)
    (named : ∀ r, r ∈ api.session.sim.recs ∨
      api.session.sim.phase ≠ .idle ∧ r = api.session.sim.cur → Named api.scene.prims r →
        Named prims r) :
    (api.setPrims geometry kernels prims).Kept := by
  obtain ⟨⟨flagged, ⟨recs, cur⟩, fits⟩, same⟩ := kept
  rw [same] at recs cur
  refine ⟨⟨⟨flagged.off, flagged.on⟩, ⟨fun r member => named r (Or.inl member) (recs r member),
    fun busy => named _ (Or.inr ⟨busy, rfl⟩) (cur busy)⟩, fun bwd running => ?_⟩, rfl⟩
  refine ⟨(fits bwd running).below, fun due => ?_⟩
  rcases long with shorter | never
  · exact shorter.trans (same ▸ (fits bwd running).long due)
  · exact absurd due (never bwd running)

/-- The live settings keep it. -/
theorem Kept.setLive {api : Api σ α} (kept : api.Kept) (live : Live α) :
    (api.setLive geometry kernels live).Kept := by
  obtain ⟨⟨flagged, recorded, fits⟩, same⟩ := kept
  exact ⟨⟨⟨flagged.off, flagged.on⟩, ⟨recorded.recs, recorded.cur⟩,
    fun bwd running => ⟨(fits bwd running).below, (fits bwd running).long⟩⟩, same⟩

/-- A load starts without records, on the host's list. -/
theorem Kept.loadScene {api : Api σ α} (kept : api.Kept) (ready : api.busy = false) :
    (api.loadScene geometry kernels).Kept := by
  have flagged : (api.session.step geometry kernels (.load api.scene api.cfg)).Flagged :=
    Session.step_flagged api.session _ kept.guarded.flagged
  have idle : api.session.active.idle = true := by
    unfold busy at ready
    simp only [Bool.or_eq_false_iff, Bool.not_eq_false'] at ready
    exact ready.1
  have loaded : (api.loadScene geometry kernels).session =
      { api.session with sim := Sim.load geometry api.session.sim.solver api.scene api.cfg } :=
    if_pos idle
  refine ⟨⟨flagged, ?_, ?_⟩, ?_⟩
  · rw [loaded]
    exact ⟨by rintro _ ⟨⟩, fun busy => absurd rfl busy⟩
  · rw [loaded]
    intro bwd running
    dsimp only at running
    rw [running] at idle
    cases idle
  · rw [loaded]
    rfl

/-- A rewind keeps it. -/
theorem Kept.rewind {api : Api σ α} (kept : api.Kept) :
    Kept { api with session := api.session.step geometry kernels .rewind } := by
  obtain ⟨⟨flagged, recorded, fits⟩, same⟩ := kept
  have flagged' : (api.session.step geometry kernels .rewind).Flagged :=
    Session.step_flagged api.session _ flagged
  dsimp only [Session.step] at flagged' ⊢
  split at flagged'
  next idle =>
    rw [if_pos idle]
    refine ⟨⟨flagged', ⟨by rintro _ ⟨⟩, fun busy => absurd rfl busy⟩, fun bwd running => ?_⟩, same⟩
    dsimp only at running
    rw [running] at idle
    cases idle
  next busy =>
    rw [if_neg busy]
    exact ⟨⟨flagged, recorded, fits⟩, same⟩

/-- Another forward in the queue keeps it. -/
theorem Kept.enqueueForward {api : Api σ α} (kept : api.Kept) (steps : Nat) :
    Kept { api with session := api.session.step geometry kernels (.enqueueForward steps) } := by
  obtain ⟨⟨flagged, recorded, fits⟩, same⟩ := kept
  dsimp only [Session.step]
  split <;> exact ⟨⟨⟨flagged.off, flagged.on⟩, recorded, fits⟩, same⟩

/-- Every call that clears no list under a record keeps the records named. -/
theorem step_kept (api : Api σ α) (call : Call σ α) (kept : api.Kept) (unclear : api.Unclear call) :
    (api.step geometry kernels call).Kept := by
  cases call with
  | primitive pr =>
      exact kept.setPrims (.inr unclear) fun r _ named => named.extend (extends_append _ pr)
  | clear =>
      refine kept.setPrims (.inl (Nat.zero_le _)) fun r there _ => ?_
      rcases there with recorded | ⟨busy, rfl⟩
      · exact (unclear.1 r recorded).named _
      · exact (unclear.2 busy).named _
  | configUpload upload => exact ⟨kept.guarded, kept.prims⟩
  | configLive live => exact kept.setLive live
  | configMu mu =>
      exact (kept.setLive _).setPrims (.inl (List.length_modifyHead ..).le)
        fun r _ named => named.extend (extends_mu _ mu)
  | queueForward steps =>
      dsimp only [step]
      split
      next => exact kept
      next ready =>
        have loaded : (if api.dirty then api.loadScene geometry kernels else api).Kept := by
          split
          next dirty =>
            exact kept.loadScene (by simpa [dirty] using ready)
          next => exact kept
        generalize (if api.dirty then api.loadScene geometry kernels else api) = api at loaded ⊢
        split
        · split
          · exact loaded
          · exact loaded.rewind
        · exact loaded.enqueueForward steps
  | queueBackward target loss mode =>
      obtain ⟨⟨flagged, recorded, fits⟩, same⟩ := kept
      exact ⟨⟨⟨flagged.off, flagged.on⟩, recorded, fits⟩, same⟩
  | tick fault =>
      obtain ⟨guarded, prims⟩ := @Session.Guarded.tick σ α _ geometry kernels _ _ kept.guarded fault
      exact ⟨guarded, prims.trans kept.prims⟩

end Api

/-- In a run that clears the list only while no contact is on record, and lets it grow only
while no native backward waits for its read, every index a backward may use names the
primitive its contact was made with, and every place a native read writes is there. -/
theorem primitives_stay_named (geometry : Geometry σ α) (kernels : Kernels α) (solver : Solver α)
    (scene : Scene σ α) (cfg : Config α) (calls : List (Call σ α))
    (unclear : Along (Api.step geometry kernels) Api.Unclear
      (Api.opened geometry solver scene cfg) calls) :
    Api.Safe (calls.foldl (Api.step geometry kernels) (Api.opened geometry solver scene cfg)) := by
  obtain ⟨guarded, -⟩ := unclear.invariant Api.step_kept (Api.opened_kept solver scene cfg)
  refine ⟨guarded.recorded.recs, fun bwd running => (guarded.fits bwd running).below, ?_⟩
  intro bwd running due
  obtain ⟨written, runs, -⟩ :=
    Backward.nativeDmu_within _ bwd ((guarded.fits bwd running).long due)
  exact Option.isSome_of_eq_some runs

end Run

section Resting

/-- A geometry in which everything touches. -/
def resting : Geometry Unit ℚ := { still with isInContact := fun _ _ _ => some ⟨![0, 1, 0], 0, 0⟩ }

/-- A solver that leaves every vertex where it is. -/
def inert : Kernels ℚ where
  iteration buffers := buffers.positions
  dualStep buffers := buffers.duals
  scan _ := []
  backward _ _ _ := ⟨fun _ => 0, fun _ => 0, fun _ => 0, fun _ => 0, fun _ => 0, fun _ => 0⟩
  shortRead _ := 0

/-- A pinned vertex on a rough primitive. -/
def rough : Scene Unit ℚ := { pinned with prims := [⟨(), 1 / 2⟩] }

/-- The list is cleared before the forward; it grows after it, and its friction changes while
a native backward waits. -/
theorem primitives_stay_named_resting : Api.Safe
    ([.clear, .primitive ⟨(), 1 / 2⟩, .queueForward 1, .tick ⟨false, false⟩, .tick ⟨false, false⟩,
      .primitive ⟨(), 1⟩, .queueBackward ⟨[], 0, [0], [0], none⟩ .targetPoints .native,
      .tick ⟨false, false⟩, .configMu 0, .tick ⟨false, false⟩].foldl (Api.step resting inert)
        (Api.opened resting (.fresh false) rough plain)) :=
  primitives_stay_named resting inert (.fresh false) rough plain _
    ⟨⟨by rintro _ ⟨⟩, fun busy => absurd rfl busy⟩, by rintro _ ⟨⟩, trivial, trivial, trivial,
      by rintro _ ⟨⟩, trivial, trivial, trivial, trivial, trivial⟩

/-- The list cleared after a forward with a contact: the record keeps an index of it. -/
theorem primitive_gone : ¬∀ (solver : Solver ℚ) (scene : Scene Unit ℚ) (cfg : Config ℚ)
    (calls : List (Call Unit ℚ)),
    Api.Safe (calls.foldl (Api.step resting inert) (Api.opened resting solver scene cfg)) := by
  intro safe
  have named := (safe (.fresh false) rough plain [.queueForward 1, .tick ⟨false, false⟩,
    .tick ⟨false, false⟩, .clear,
    .queueBackward ⟨[], 0, [0], [0], none⟩ .targetPoints .step]).named _ List.mem_cons_self
  obtain ⟨here, -, found, -⟩ := named.contacts _ List.mem_cons_self
  cases found

-- A primitive pushed while a native read is due: the read writes past its gradient.
example : ¬Api.Safe ([.queueForward 1, .tick ⟨false, false⟩, .tick ⟨false, false⟩,
    .queueBackward ⟨[], 0, [0], [0], none⟩ .targetPoints .native, .tick ⟨false, false⟩,
    .primitive ⟨(), 1⟩].foldl (Api.step resting inert)
      (Api.opened resting (.fresh false) rough plain)) :=
  fun safe => Bool.false_ne_true (safe.written _ rfl rfl)

end Resting

end DressOn.Drape
