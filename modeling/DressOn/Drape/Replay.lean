import DressOn.Drape.FitStops
import DressOn.Drape.Primitives
import DressOn.Drape.Rewind

/-!
# What the recompute backward runs again

The recompute modes run a step again from its record, on the solver and with the settings of the
session as they are by then. A replay depends on the iterations, the constraint data, the duals and
the targets of the attachments; where a history leaves these as they are from the first record on,
every step a backward visits ends where it ended when it was recorded.
-/

namespace DressOn.Drape

open DressOn.Avbd (Vec3)
open DressOn.Avbd.Backends (load length_load)
open DressOn.Runs (Along kept_of_moves)

section Data

variable {σ α : Type*} [Field α]

/-- The buffers a step is run on, and its replay. -/
def Sim.staged (sim : Sim σ α) (positions predicted : Nat → Vec3 α) : Buffers α :=
  let buffers := sim.solver.buffers.updateState positions predicted
  if 0 < sim.scene.nAttach then buffers.updateAttachmentFixedPos sim.scene.attachFixed else buffers

variable (kernels : Kernels α)

/-- Where the iterations of the settings end, without duals. -/
def Sim.rerun (sim : Sim σ α) (positions predicted : Nat → Vec3 α) : Nat → Vec3 α :=
  ((sim.solver.withBuffers (sim.staged positions predicted)).run kernels sim.cfg.iters
    false).buffers.positions

/-- Running the visited step again from where `rcBegin` starts it ends in what was recorded. -/
def Backward.Replays (sim : Sim σ α) (bwd : Backward α) : Prop :=
  ((Backward.restart sim bwd).solver.run kernels sim.cfg.iters false).buffers.positions =
    (Backward.visited sim bwd).xAvbd

/-- Two simulations whose solvers run alike from the same state. -/
structure SameInputs (one two : Sim σ α) : Prop where
  iters : two.cfg.iters = one.cfg.iters
  staged : ∀ positions predicted, two.staged positions predicted = one.staged positions predicted

/-- The solver has the attachments of the scene. -/
structure Posted (sim : Sim σ α) : Prop where
  count : sim.solver.buffers.penalties.count .attachments = sim.scene.nAttach
  length : sim.solver.buffers.attachFixed.length = sim.scene.nAttach

/-- The garment is where the last step, or the load, has put it. -/
def Located (sim : Sim σ α) : Prop := sim.x = sim.xPrev (sim.recs.length + 1)

variable (geometry : Geometry σ α)

/-- What a stage of a step must find for the records to be repeated: the duals are off, a refresh
comes before the first record or finds everything as it is, no short readback is recorded, and the
fit phase has no settle. -/
structure Repeatable (fault : Fault) (sim : Sim σ α) : Prop where
  duals : sim.phase = .idle → sim.cfg.al = false
  refresh : sim.phase = .idle → sim.recs = [] ∨
    (sim.refresh geometry).solver = sim.solver ∧
      (sim.refresh geometry).scene.attachFixed = sim.scene.attachFixed
  read : sim.phase = .solved → fault.read = true → sim.cfg.selfCollision = true
  settle : sim.fitActive = true → sim.scene.fitSettle = 0

/-- A call that leaves what the records were made with: the iterations change before the first
record only, and a tick takes its step further as it may. -/
def Session.Repeats (session : Session σ α) : Op σ α → Prop
  | .setLive live => live.iters = session.sim.cfg.iters ∨
      session.sim.recs = [] ∧ session.sim.phase = .idle
  | .tick fault => ∀ sim, session.advancing = some sim → sim.failed = false →
      Repeatable geometry fault sim
  | _ => True

/-- Nothing is recorded and nothing runs: a load or a rewind was the last. -/
def Session.Blank (session : Session σ α) : Prop :=
  session.active.idle = true ∧ session.sim.recs = [] ∧ session.sim.phase = .idle

end Data

section Inputs

variable {σ α : Type*} {kernels : Kernels α} {one two three : Sim σ α}

theorem SameInputs.refl (sim : Sim σ α) : SameInputs sim sim := ⟨rfl, fun _ _ => rfl⟩

theorem SameInputs.trans (first : SameInputs one two) (second : SameInputs two three) :
    SameInputs one three :=
  ⟨second.iters.trans first.iters, fun positions predicted =>
    (second.staged positions predicted).trans (first.staged positions predicted)⟩

/-- The same inputs have the same outcome. -/
theorem SameInputs.rerun (same : SameInputs one two) (positions predicted : Nat → Vec3 α) :
    two.rerun kernels positions predicted = one.rerun kernels positions predicted := by
  unfold Sim.rerun
  rw [same.iters]
  exact congrArg Buffers.positions
    (Solver.run_congr one.cfg.iters false (same.staged positions predicted))

variable [Field α]

/-- A new state and new targets make up for the state buffers may differ in. -/
theorem fixed_alike {buffers other : Buffers α} (data : buffers.data = other.data)
    (duals : buffers.duals = other.duals) (count : other.penalties.count .attachments ≠ 0)
    (positions predicted fixedPos : Nat → Vec3 α) :
    (buffers.updateState positions predicted).updateAttachmentFixedPos fixedPos =
      (other.updateState positions predicted).updateAttachmentFixedPos fixedPos := by
  have penalties := penalties_of_data data
  unfold Buffers.updateAttachmentFixedPos
  rw [if_neg (show (buffers.updateState positions predicted).penalties.count .attachments ≠ 0 from
    penalties ▸ count), if_neg (show (other.updateState positions predicted).penalties.count
      .attachments ≠ 0 from count)]
  cases buffers
  cases other
  simp only [Buffers.data, Buffers.mk.injEq, true_and] at data
  simp only at duals penalties
  simp only [Buffers.updateState, Buffers.mk.injEq, true_and]
  simp_all

/-- Where the solver differs by the state of a step, it is staged alike. -/
theorem SameInputs.of_data (posted : Posted one) (iters : two.cfg.iters = one.cfg.iters)
    (nAttach : two.scene.nAttach = one.scene.nAttach)
    (fixed : two.scene.attachFixed = one.scene.attachFixed)
    (data : two.solver.buffers.data = one.solver.buffers.data)
    (duals : two.solver.buffers.duals = one.solver.buffers.duals)
    (attachFixed : two.solver.buffers.attachFixed = one.solver.buffers.attachFixed ∨
      two.solver.buffers.attachFixed =
        load (one.solver.buffers.penalties.count .attachments) one.scene.attachFixed) :
    SameInputs one two := by
  refine ⟨iters, fun positions predicted => ?_⟩
  have penalties := penalties_of_data data
  unfold Sim.staged
  rw [nAttach, fixed]
  by_cases some_ : 0 < one.scene.nAttach
  · have count : one.solver.buffers.penalties.count .attachments ≠ 0 := by
      rw [posted.count]
      exact some_.ne'
    dsimp only
    rw [if_pos some_, if_pos some_]
    exact fixed_alike data duals count positions predicted one.scene.attachFixed
  · have none_ : one.scene.nAttach = 0 := Nat.eq_zero_of_not_pos some_
    have empty : one.solver.buffers.attachFixed = [] :=
      List.length_eq_zero_iff.mp (posted.length.trans none_)
    have same : two.solver.buffers.attachFixed = one.solver.buffers.attachFixed := by
      rcases attachFixed with same | written
      · exact same
      · rw [written, posted.count, none_, empty]
        rfl
    dsimp only
    rw [if_neg some_, if_neg some_]
    exact updateState_alike data duals same positions predicted

end Inputs

section Situated

variable {σ α : Type*}

/-- Buffers with the same targets and as many constraints of each family. -/
structure SamePosts (before after : Buffers α) : Prop where
  attachFixed : after.attachFixed = before.attachFixed
  count : after.penalties.count = before.penalties.count

/-- What is posted stays so with the targets written again and as many attachments. -/
theorem Posted.congr {before after : Sim σ α} (posted : Posted before)
    (nAttach : after.scene.nAttach = before.scene.nAttach)
    (count : after.solver.buffers.penalties.count = before.solver.buffers.penalties.count)
    (attachFixed : after.solver.buffers.attachFixed = before.solver.buffers.attachFixed ∨
      after.solver.buffers.attachFixed =
        load (before.solver.buffers.penalties.count .attachments) before.scene.attachFixed) :
    Posted after := by
  refine ⟨?_, ?_⟩
  · rw [count, nAttach]
    exact posted.count
  · rw [nAttach]
    rcases attachFixed with same | written
    · rw [same]
      exact posted.length
    · rw [written, length_load]
      exact posted.count

/-- Where a step starts does not depend on the records behind it. -/
theorem xPrev_congr {before after : Sim σ α} (x0 : after.scene.x0 = before.scene.x0)
    {more : List (Record σ α)} (recs : after.recs = before.recs ++ more) {n : Nat}
    (inside : n ≤ before.recs.length) : after.xPrev (n + 1) = before.xPrev (n + 1) := by
  unfold Sim.xPrev
  rw [x0, recs]
  split
  next later =>
    rw [List.getElem?_append_left (by omega)]
  · rfl

theorem submitScan_x (fault : Fault) (sim : Sim σ α) :
    (sim.submitScan fault).x = sim.x := by
  unfold Sim.submitScan
  dsimp only
  split <;> rfl

/-- The garment stays where it is while nothing is recorded. -/
theorem Located.congr {before after : Sim σ α} (located : Located before) (x : after.x = before.x)
    (x0 : after.scene.x0 = before.scene.x0) (recs : after.recs = before.recs) :
    Located after := by
  unfold Located at located ⊢
  rw [x, located, recs]
  exact (xPrev_congr x0 (recs.trans (List.append_nil _).symm) le_rfl).symm

namespace SamePosts

variable {first second third : Buffers α}

theorem trans (one : SamePosts first second) (two : SamePosts second third) :
    SamePosts first third :=
  ⟨two.attachFixed.trans one.attachFixed, two.count.trans one.count⟩

/-- A patch that is made where it is due. -/
theorem ite {due : Prop} [Decidable due] (patched : SamePosts first second) :
    SamePosts first (if due then second else first) := by
  split
  · exact patched
  · exact ⟨rfl, rfl⟩

theorem updateSelfCollisionRadii (buffers : Buffers α) (radii : Nat → α) :
    SamePosts buffers (buffers.updateSelfCollisionRadii radii) := by
  unfold Buffers.updateSelfCollisionRadii
  split <;> exact ⟨rfl, rfl⟩

variable [Field α]

theorem updateTriangleRest (buffers : Buffers α) (invUV : Nat → Fin 4 → α) (stiffness : Nat → α) :
    SamePosts buffers (buffers.updateTriangleRest invUV stiffness) := by
  unfold Buffers.updateTriangleRest
  split
  · exact ⟨rfl, rfl⟩
  · exact ⟨rfl, Penalties.count_update _ _ _⟩

theorem updateBendingRest (buffers : Buffers α) (weight : Nat → Fin 4 → α)
    (nTarget stiffness : Nat → α) :
    SamePosts buffers (buffers.updateBendingRest weight nTarget stiffness) := by
  unfold Buffers.updateBendingRest
  split
  · exact ⟨rfl, rfl⟩
  · exact ⟨rfl, Penalties.count_update _ _ _⟩

theorem updateAttachmentStiffness (buffers : Buffers α) (stiffness : Nat → α) :
    SamePosts buffers (buffers.updateAttachmentStiffness stiffness) :=
  ⟨rfl, Penalties.count_update _ _ _⟩

/-- The updates after a new rest shape. -/
theorem restUploads (cfg : Upload α) (scene : Scene σ α) (buffers : Buffers α) :
    SamePosts buffers (Sim.restUploads cfg scene buffers) :=
  (ite (updateTriangleRest _ _ _)).trans <| (ite (updateBendingRest _ _ _ _)).trans <|
    (updateSelfCollisionRadii _ _).trans <| ite (updateAttachmentStiffness _ _)

end SamePosts

variable [Field α] {geometry : Geometry σ α} {kernels : Kernels α}

/-- The vertices of the attachments are not refreshed. -/
theorem refresh_nAttach (sim : Sim σ α) :
    (sim.refresh geometry).scene.nAttach = sim.scene.nAttach := by
  have rest : (sim.refreshRest geometry).scene.nAttach = sim.scene.nAttach := by
    unfold Sim.refreshRest
    split
    · rfl
    · split <;> rfl
  unfold Sim.refresh
  split
  · split
    · exact rest
    · rfl
  · rfl

/-- A refresh keeps the garment where it is, and the solver's targets. -/
theorem refresh_situated (sim : Sim σ α) :
    SamePosts sim.solver.buffers (sim.refresh geometry).solver.buffers ∧
      (sim.refresh geometry).x = sim.x ∧ (sim.refresh geometry).scene.x0 = sim.scene.x0 := by
  have rest : SamePosts sim.solver.buffers (sim.refreshRest geometry).solver.buffers ∧
      (sim.refreshRest geometry).x = sim.x ∧
      (sim.refreshRest geometry).scene.x0 = sim.scene.x0 := by
    unfold Sim.refreshRest
    split
    · exact ⟨⟨rfl, rfl⟩, rfl, rfl⟩
    · split
      · exact ⟨⟨rfl, rfl⟩, rfl, rfl⟩
      · exact ⟨.restUploads _ _ _, rfl, rfl⟩
  unfold Sim.refresh
  split
  · split
    · exact rest
    · exact ⟨⟨rfl, rfl⟩, rfl, rfl⟩
  · exact ⟨⟨rfl, rfl⟩, rfl, rfl⟩

theorem Posted.begun {sim : Sim σ α} (posted : Posted sim) : Posted (sim.begun geometry) := by
  unfold Sim.begun
  split
  · obtain ⟨⟨attachFixed, count⟩, -, -⟩ := @refresh_situated σ α _ geometry sim
    exact posted.congr (refresh_nAttach sim) count (.inl attachFixed)
  · exact posted

/-- The solver has the attachments of the scene, and the garment is where its records say. -/
structure Situated (sim : Sim σ α) : Prop where
  posted : Posted sim
  located : Located sim

/-- The stiffness of the attachments may change. -/
theorem Situated.setFitPull {sim : Sim σ α} (situated : Situated sim) (on : Bool) :
    Situated (sim.setFitPull on) := by
  unfold Sim.setFitPull
  split
  · exact situated
  · obtain ⟨attachFixed, count⟩ :=
      SamePosts.updateAttachmentStiffness sim.solver.buffers fun a =>
        if !on ∧ sim.scene.nPin ≤ a ∧ a < sim.scene.nPin + sim.scene.nFit then 0
        else sim.scene.material.attachK a
    exact ⟨situated.posted.congr rfl count (.inl attachFixed), situated.located.congr rfl rfl rfl⟩

/-- A load posts the attachments. -/
theorem loaded_situated (solver : Solver α) (scene : Scene σ α) (cfg : Config α) :
    Situated (Sim.load geometry solver scene cfg) := by
  have count := ((@loaded_matched σ α _ geometry solver scene cfg).2 .attachments).count
  have targeted := @loaded_targeted σ α _ geometry solver scene cfg
  refine ⟨⟨count, ?_⟩, rfl⟩
  rw [targeted, length_load]
  exact count

variable [LinearOrder α]

/-- A completed step leaves the garment where its record says. -/
theorem finishStep_located (sim : Sim σ α) : Located (sim.finishStep geometry) := by
  unfold Located Sim.xPrev Sim.finishStep
  simp

/-- A stage of a step keeps the garment where the last record, or the load, has put it. -/
theorem Located.advance {sim : Sim σ α} (located : Located sim) (fault : Fault) :
    Located (sim.advance geometry kernels fault).1 := by
  unfold Sim.advance
  cases phase : sim.phase with
  | idle =>
      obtain ⟨-, x, x0⟩ := @refresh_situated σ α _ geometry sim
      have recs := (refresh_recs geometry sim).1
      dsimp only
      unfold Sim.start
      dsimp only
      split <;> exact located.congr x x0 recs
  | solved =>
      dsimp only
      unfold Sim.solved
      dsimp only
      split
      · obtain ⟨recs, scene, -⟩ := submitScan_recs
          ({ sim.respond geometry kernels fault with pass := 0 } : Sim σ α) fault
        exact located.congr (submitScan_x _ _) (congrArg Scene.x0 scene) recs
      · exact finishStep_located _
  | scanned =>
      dsimp only
      unfold Sim.scanned
      dsimp only
      generalize (kernels.scan sim.solver.buffers).foldl _ _ = pushed
      split
      · obtain ⟨recs, scene, -⟩ := submitScan_recs
          { sim with
            pos := pushed.1
            pass := sim.pass + 1
            cur := { sim.cur with
              pushes := pushed.2, passEnd := sim.cur.passEnd ++ [pushed.2.length] } } fault
        exact located.congr (submitScan_x _ _) (congrArg Scene.x0 scene) recs
      · exact finishStep_located _

/-- Every move keeps the simulation situated. -/
theorem Situated.move {allowed : Sim σ α → Prop} {before after : Sim σ α}
    (move : Sim.Move geometry kernels allowed before after) (situated : Situated before) :
    Situated after := by
  cases move with
  | advance fault running may =>
      refine ⟨?_, situated.located.advance fault⟩
      have stepped := advance_stepped geometry kernels fault before
      have penalties := penalties_of_data stepped.data
      refine situated.posted.begun.congr ?_ (congrArg _ penalties) stepped.attachFixed
      rw [stepped.scene]
  | beginFit off may =>
      exact ⟨situated.posted.congr rfl rfl (.inl rfl), situated.located.congr rfl rfl rfl⟩
  | beginSettle running active off =>
      have flagged : Situated { before with fitSettling := true } :=
        ⟨situated.posted.congr rfl rfl (.inl rfl), situated.located.congr rfl rfl rfl⟩
      exact flagged.setFitPull false
  | endSettle on =>
      have pulled := situated.setFitPull true
      exact ⟨pulled.posted.congr rfl rfl (.inl rfl), pulled.located.congr rfl rfl rfl⟩
  | finishFit gravity damp =>
      exact ⟨situated.posted.congr rfl rfl (.inl rfl), situated.located.congr rfl rfl rfl⟩
  | restaged staged =>
      have same := staged.sim
      refine ⟨situated.posted.congr ?_ (congrArg _ staged.buffers.penalties)
        staged.buffers.attachFixed, situated.located.congr ?_ ?_ ?_⟩
      · rw [staged.scene]
      all_goals rw [same]

/-- Every call keeps the flags of a fit phase, and the simulation situated. -/
theorem step_situated (session : Session σ α) (op : Op σ α)
    (kept : session.Flagged ∧ Situated session.sim) :
    (session.step geometry kernels op).Flagged ∧
      Situated (session.step geometry kernels op).sim := by
  obtain ⟨flagged, situated⟩ := kept
  refine ⟨Session.step_flagged session op flagged, ?_⟩
  have alike {sim : Sim σ α} (nAttach : sim.scene.nAttach = session.sim.scene.nAttach)
      (solver : sim.solver = session.sim.solver) (x : sim.x = session.sim.x)
      (x0 : sim.scene.x0 = session.sim.scene.x0) (recs : sim.recs = session.sim.recs) :
      Situated sim :=
    ⟨situated.posted.congr nAttach (by rw [solver]) (.inl (by rw [solver])),
      situated.located.congr x x0 recs⟩
  cases op with
  | load scene cfg =>
      dsimp only [Session.step]
      split
      · exact loaded_situated _ _ _
      · exact situated
  | setLive live => exact alike rfl rfl rfl rfl rfl
  | setPrims prims => exact alike rfl rfl rfl rfl rfl
  | rewind =>
      dsimp only [Session.step]
      split
      · exact ⟨situated.posted.congr rfl rfl (.inl rfl), rfl⟩
      · exact situated
  | enqueueForward steps =>
      dsimp only [Session.step]
      split <;> exact situated
  | enqueueFit maxSteps tol =>
      dsimp only [Session.step]
      split <;> exact situated
  | enqueueBackward target loss mode => exact situated
  | tick fault =>
      have ticked : Session.Ticked geometry kernels (fun _ => True) session
          (session.tick geometry kernels fault) :=
        Session.tick_ticked fault flagged fun _ _ _ => trivial
      exact kept_of_moves (fun _ _ move kept => kept.move move) (ticked.moves flagged) situated

/-- So does every run. -/
theorem run_situated (session : Session σ α) (ops : List (Op σ α))
    (kept : session.Flagged ∧ Situated session.sim) :
    (session.run geometry kernels ops).Flagged ∧
      Situated (session.run geometry kernels ops).sim := by
  induction ops generalizing session with
  | nil => exact kept
  | cons op rest ih => exact ih _ (step_situated session op kept)

end Situated

section Recorded

variable {σ α : Type*} {geometry : Geometry σ α} {kernels : Kernels α}

/-- Every record, and the step under way once it is solved, is what its replay gives. -/
structure Repeated (kernels : Kernels α) (sim : Sim σ α) : Prop where
  recorded : ∀ n rec_, sim.recs[n]? = some rec_ →
    sim.rerun kernels (sim.xPrev (n + 1)) rec_.sBlend = rec_.xAvbd
  solved : sim.failed = false → sim.phase = .solved →
    sim.solver.buffers.positions = sim.rerun kernels sim.x sim.cur.sBlend
  scanned : sim.failed = false → sim.phase = .scanned →
    sim.cur.xAvbd = sim.rerun kernels sim.x sim.cur.sBlend

/-- Nothing is recorded yet. -/
theorem Repeated.blank {sim : Sim σ α} (recs : sim.recs = []) (idle : sim.phase = .idle) :
    Repeated kernels sim where
  recorded n rec_ found := by
    rw [recs] at found
    cases found
  solved _ phase := nomatch idle.symm.trans phase
  scanned _ phase := nomatch idle.symm.trans phase

/-- The records are repeated with the same inputs. -/
theorem SameInputs.recorded {one two : Sim σ α} (same : SameInputs one two)
    (x0 : two.scene.x0 = one.scene.x0) (recs : two.recs = one.recs)
    (repeated : Repeated kernels one) : ∀ n rec_, two.recs[n]? = some rec_ →
      two.rerun kernels (two.xPrev (n + 1)) rec_.sBlend = rec_.xAvbd := by
  intro n rec_ found
  rw [recs] at found
  obtain ⟨inside, -⟩ := List.getElem?_eq_some_iff.mp found
  rw [same.rerun, xPrev_congr x0 (recs.trans (List.append_nil _).symm) inside.le]
  exact repeated.recorded n rec_ found

/-- Between two steps nothing but the inputs and the records counts. -/
theorem Repeated.congr {one two : Sim σ α} (repeated : Repeated kernels one)
    (same : SameInputs one two) (x0 : two.scene.x0 = one.scene.x0) (recs : two.recs = one.recs)
    (x : two.x = one.x) (cur : two.cur = one.cur) (phase : two.phase = one.phase)
    (failed : two.failed = one.failed)
    (positions : one.phase ≠ .idle →
      two.solver.buffers.positions = one.solver.buffers.positions) : Repeated kernels two where
  recorded := same.recorded x0 recs repeated
  solved running here := by
    have here' : one.phase = .solved := phase.symm.trans here
    rw [positions (by rw [here']; rintro ⟨⟩), x, cur, same.rerun]
    exact repeated.solved (failed.symm.trans running) here'
  scanned running here := by
    rw [x, cur, same.rerun]
    exact repeated.scanned (failed.symm.trans running) (phase.symm.trans here)

variable [Field α] [LinearOrder α]

/-- A record that its replay gives is put with the others. -/
theorem Repeated.finishStep {sim : Sim σ α}
    (recorded : ∀ n rec_, sim.recs[n]? = some rec_ →
      sim.rerun kernels (sim.xPrev (n + 1)) rec_.sBlend = rec_.xAvbd)
    (located : Located sim) (last : sim.cur.xAvbd = sim.rerun kernels sim.x sim.cur.sBlend) :
    Repeated kernels (sim.finishStep geometry) where
  recorded n rec_ found := by
    have same : SameInputs sim (sim.finishStep geometry) := ⟨rfl, fun _ _ => rfl⟩
    have x0 : (sim.finishStep geometry).scene.x0 = sim.scene.x0 := rfl
    have recs : (sim.finishStep geometry).recs =
        sim.recs ++ [{ sim.cur with x := sim.pos, v := sim.vel }] := rfl
    rw [same.rerun]
    by_cases old : n < sim.recs.length
    · rw [xPrev_congr x0 recs old.le]
      refine recorded n rec_ ?_
      rwa [recs, List.getElem?_append_left old] at found
    · have inside := (List.getElem?_eq_some_iff.mp found).1
      rw [recs, List.length_append, List.length_singleton] at inside
      obtain rfl : n = sim.recs.length := by omega
      rw [recs, List.getElem?_append_right le_rfl, Nat.sub_self] at found
      cases found
      rw [xPrev_congr x0 recs le_rfl]
      unfold Located at located
      rw [← located]
      exact last.symm
  solved _ phase := nomatch phase
  scanned _ phase := nomatch phase

/-- A new step is run on what its replay is run on. -/
theorem Repeated.start {sim : Sim σ α} (repeated : Repeated kernels sim) (posted : Posted sim)
    (fault : Fault) (idle : sim.phase = .idle) (may : Repeatable geometry fault sim) :
    Repeated kernels (sim.start geometry kernels fault) := by
  have stepped := start_stepped geometry kernels fault sim idle
  have begun := (begun_flags geometry sim).1
  rw [Sim.begun, if_pos idle] at begun
  have off : (sim.refresh geometry).cfg.al = false := by
    rw [begun]
    exact may.duals idle
  have posted' : Posted (sim.refresh geometry) := by
    have begun : Posted (sim.begun geometry) := posted.begun
    rwa [Sim.begun, if_pos idle] at begun
  obtain ⟨-, x, x0⟩ := @refresh_situated σ α _ geometry sim
  have recs := (refresh_recs geometry sim).1
  have after : SameInputs (sim.refresh geometry) (sim.start geometry kernels fault) :=
    .of_data posted' (by rw [stepped.cfg]) (by rw [stepped.scene]) (by rw [stepped.scene])
      stepped.data (stepped.duals fun _ => off) stepped.attachFixed
  refine ⟨?_, fun running _ => ?_, fun _ phase => ?_⟩
  · have recs' : (sim.start geometry kernels fault).recs = sim.recs := by
      refine Eq.trans ?_ recs
      unfold Sim.start
      dsimp only
      split <;> rfl
    rcases may.refresh idle with none_ | ⟨solver, fixed⟩
    · intro n rec_ found
      rw [recs', none_] at found
      cases found
    · have before : SameInputs sim (sim.refresh geometry) := by
        refine ⟨by rw [begun], fun positions predicted => ?_⟩
        unfold Sim.staged
        rw [refresh_nAttach, solver, fixed]
      refine (before.trans after).recorded ?_ recs' repeated
      rw [stepped.scene, x0]
  · rw [after.rerun]
    unfold Sim.start at running ⊢
    dsimp only at running ⊢
    split at running
    · cases running
    next sound =>
      rw [if_neg sound]
      unfold Sim.rerun
      rw [off]
      rfl
  · unfold Sim.start at phase
    dsimp only at phase
    split at phase <;> cases phase

/-- The solver's output is recorded as it is. -/
theorem Repeated.solved_ {sim : Sim σ α} (repeated : Repeated kernels sim)
    (situated : Situated sim) (fault : Fault) (running : sim.failed = false)
    (here : sim.phase = .solved) (may : Repeatable geometry fault sim) :
    Repeated kernels (sim.solved geometry kernels fault).1 := by
  have output (read : fault.read = false) :
      (sim.respond geometry kernels fault).cur.xAvbd = sim.rerun kernels sim.x sim.cur.sBlend := by
    unfold Sim.respond
    dsimp only
    rw [if_neg (by rw [read]; exact Bool.false_ne_true)]
    exact repeated.solved running here
  unfold Sim.solved
  dsimp only
  split
  · -- the scan that follows overwrites the state, not the inputs
    unfold Sim.submitScan
    dsimp only
    have recorded : ∀ n rec_, (sim.respond geometry kernels fault).recs[n]? = some rec_ →
        sim.rerun kernels (sim.xPrev (n + 1)) rec_.sBlend = rec_.xAvbd := repeated.recorded
    have read (sound : (sim.respond geometry kernels fault).failed = false) :
        fault.read = false := (Bool.or_eq_false_iff.mp sound).2
    split
    · exact ⟨recorded, fun _ phase => (nomatch phase), fun running _ => nomatch running⟩
    · exact ⟨recorded, fun _ phase => (nomatch phase), fun running _ => output (read running)⟩
  next alone =>
    have alone : sim.cfg.selfCollision = false := Bool.not_eq_true _ ▸ alone
    refine Repeated.finishStep repeated.recorded situated.located (output ?_)
    cases read : fault.read with
    | false => rfl
    | true => exact absurd (may.read here read) (by rw [alone]; exact Bool.false_ne_true)

/-- A pass of the self-collision changes the positions behind the solver's output. -/
theorem Repeated.scanned_ {sim : Sim σ α} (repeated : Repeated kernels sim)
    (situated : Situated sim) (fault : Fault) (running : sim.failed = false)
    (here : sim.phase = .scanned) : Repeated kernels (sim.scanned geometry kernels fault).1 := by
  have output := repeated.scanned running here
  unfold Sim.scanned
  dsimp only
  generalize (kernels.scan sim.solver.buffers).foldl _ _ = pushed
  split
  · unfold Sim.submitScan
    dsimp only
    split
    · exact ⟨repeated.recorded, fun _ phase => (nomatch here.symm.trans phase),
        fun running _ => nomatch running⟩
    · exact ⟨repeated.recorded, fun _ phase => (nomatch here.symm.trans phase), fun _ _ => output⟩
  · exact Repeated.finishStep repeated.recorded situated.located output

/-- A stage of a step keeps what is recorded repeatable. -/
theorem Repeated.advance {sim : Sim σ α} (repeated : Repeated kernels sim)
    (situated : Situated sim) (fault : Fault) (running : sim.failed = false)
    (may : Repeatable geometry fault sim) :
    Repeated kernels (sim.advance geometry kernels fault).1 := by
  unfold Sim.advance
  cases phase : sim.phase with
  | idle => exact repeated.start situated.posted fault phase may
  | solved => exact repeated.solved_ situated fault running phase may
  | scanned => exact repeated.scanned_ situated fault running phase

end Recorded

section Visits

variable {σ α : Type*} (geometry : Geometry σ α) (kernels : Kernels α)

namespace Backward

/-- A backward is at a step that is recorded, or done. -/
def Visits (steps : Nat) (bwd : Backward α) : Prop :=
  bwd.stage = .done ∨ 1 ≤ bwd.idx ∧ bwd.idx ≤ steps

variable {steps : Nat} {bwd : Backward α} (fault : Fault) (sim : Sim σ α)

theorem visits_fail (bwd : Backward α) : bwd.fail.Visits steps := .inl rfl

theorem one_le_of_not_truncated (more : ¬ truncated sim bwd) : 1 ≤ bwd.idx :=
  Nat.le_of_not_lt fun none_ => more (.inl none_)

variable [Field α]

theorem submitIteration_visits (inside : 1 ≤ bwd.idx ∧ bwd.idx ≤ steps) :
    (submitIteration kernels fault sim bwd).2.Visits steps := by
  unfold submitIteration
  dsimp only
  split
  · exact visits_fail bwd
  · exact .inr inside

theorem rcSnap_visits (inside : 1 ≤ bwd.idx ∧ bwd.idx ≤ steps) :
    (rcSnap kernels fault sim bwd).2.Visits steps := by
  unfold rcSnap
  split
  · exact visits_fail bwd
  · dsimp only
    split
    · split
      · exact visits_fail _
      · exact .inr inside
    · exact submitIteration_visits kernels fault _ inside

variable [LinearOrder α]

theorem nativeSubmit_visits (inside : bwd.idx ≤ steps) :
    (nativeSubmit geometry kernels fault sim bwd).2.Visits steps := by
  unfold nativeSubmit
  split
  · exact .inl rfl
  next more =>
    split
    · exact visits_fail bwd
    · exact .inr ⟨one_le_of_not_truncated sim more, inside⟩

theorem rcBegin_visits (inside : bwd.idx ≤ steps) :
    (rcBegin geometry kernels fault sim bwd).2.Visits steps := by
  unfold rcBegin
  split
  · exact .inl rfl
  next more =>
    have here := And.intro (one_le_of_not_truncated sim more) inside
    dsimp only
    split
    · split
      · split
        · exact visits_fail _
        · exact .inr here
      · exact submitIteration_visits kernels fault _ here
    · split
      · exact visits_fail _
      · exact .inr here

theorem rcBwdRead_visits (inside : 1 ≤ bwd.idx ∧ bwd.idx ≤ steps) :
    (rcBwdRead geometry kernels fault sim bwd).2.Visits steps := by
  unfold rcBwdRead
  split
  · exact visits_fail bwd
  · dsimp only
    split
    · exact submitIteration_visits kernels fault _ inside
    · exact rcBegin_visits geometry kernels fault _ ((Nat.sub_le _ _).trans inside.2)

theorem nativeRead_visits (inside : 1 ≤ bwd.idx ∧ bwd.idx ≤ steps) :
    (nativeRead geometry kernels fault sim bwd).2.Visits steps := by
  unfold nativeRead
  split
  · exact visits_fail bwd
  · exact nativeSubmit_visits geometry kernels fault _ ((Nat.sub_le _ _).trans inside.2)

theorem init_visits (bwd : Backward α) :
    (init geometry kernels fault sim bwd).2.Visits sim.recs.length := by
  unfold init
  dsimp only
  split
  · exact visits_fail _
  · split
    · exact nativeSubmit_visits geometry kernels fault _ le_rfl
    · exact rcBegin_visits geometry kernels fault _ le_rfl

/-- A stage of a backward leaves it at a recorded step, or done. -/
theorem advance_visits (before : bwd.stage = .init ∨ bwd.Visits sim.recs.length) :
    (bwd.advance geometry kernels fault sim).2.Visits sim.recs.length := by
  unfold advance
  cases stage : bwd.stage with
  | init => exact init_visits geometry kernels fault sim bwd
  | done => exact .inl stage
  | _ =>
      have inside : 1 ≤ bwd.idx ∧ bwd.idx ≤ sim.recs.length := by
        rcases before with start | done | inside
        · cases stage.symm.trans start
        · cases stage.symm.trans done
        · exact inside
      first
      | exact nativeRead_visits geometry kernels fault sim inside
      | exact rcSnap_visits kernels fault sim inside
      | exact rcBwdRead_visits geometry kernels fault sim inside

end Backward

variable [Field α] [LinearOrder α]

/-- A backward runs between two steps, and is at one that is recorded. -/
def Session.AtStep (session : Session σ α) : Prop :=
  ∀ bwd, session.active = .backward bwd →
    session.sim.phase = .idle ∧ 1 ≤ bwd.idx ∧ bwd.idx ≤ session.sim.recs.length

variable {geometry kernels}

/-- A stage of a backward leaves it at a recorded step. -/
theorem backwardStage_atStep {session : Session σ α} {bwd : Backward α} (fault : Fault)
    (idle : session.sim.phase = .idle)
    (before : bwd.stage = .init ∨ bwd.Visits session.sim.recs.length) :
    (session.backwardStage geometry kernels fault bwd).AtStep := by
  intro last running
  have staged := Backward.advance_restaged geometry kernels fault session.sim bwd
  have visits := Backward.advance_visits geometry kernels fault session.sim before
  unfold Session.backwardStage at running ⊢
  dsimp only at running ⊢
  split at running
  · cases running
  next more =>
    obtain rfl := Active.backward.inj running
    rw [staged.sim]
    exact ⟨idle, visits.resolve_left more⟩

/-- Only a stage of a backward leaves one running, at a recorded step. -/
theorem tick_atStep {session : Session σ α} (flagged : session.Flagged) (atStep : session.AtStep)
    (fault : Fault) : (session.tick geometry kernels fault).AtStep := by
  have others {after : Session σ α} (never : ∀ bwd, after.active ≠ .backward bwd) : after.AtStep :=
    fun bwd running => absurd running (never bwd)
  unfold Session.tick
  cases running : session.active with
  | forward => exact others (forwardStage_active fault session)
  | fit => exact others (fitStage_active fault (flagged.on (by rw [running]; rfl)))
  | backward bwd =>
      obtain ⟨idle, inside⟩ := atStep bwd running
      exact backwardStage_atStep fault idle (.inr (.inr inside))
  | none =>
      cases queued : session.queue with
      | nil =>
          refine others fun bwd ends => ?_
          cases running.symm.trans ends
      | cons job rest =>
          cases job with
          | forward steps => exact others (forwardStage_active fault _)
          | fit maxSteps tol =>
              dsimp only [Session.begin_]
              split
              · exact others fun bwd => by rintro ⟨⟩
              · exact others (fitStage_active fault rfl)
          | backward target loss mode =>
              dsimp only [Session.begin_]
              split
              · exact others fun bwd => by rintro ⟨⟩
              next between =>
                refine backwardStage_atStep fault ?_ (.inl rfl)
                simpa [Sim.midStep] using between

end Visits

section Run

variable {σ α : Type*} {geometry : Geometry σ α} {kernels : Kernels α}

/-- What is recorded can be repeated, and no settle runs. -/
structure Session.Replayable (kernels : Kernels α) (session : Session σ α) : Prop where
  flagged : session.Flagged
  situated : Situated session.sim
  repeated : Repeated kernels session.sim
  settled : session.sim.fitSettling = false
  atStep : session.AtStep

/-- After a load or a rewind there is nothing to repeat. -/
theorem Session.Blank.replayable {session : Session σ α} (blank : session.Blank)
    (flagged : session.Flagged) (situated : Situated session.sim) :
    session.Replayable kernels := by
  obtain ⟨ended, none_, idle⟩ := blank
  refine ⟨flagged, situated, .blank none_ idle, (flagged.off ?_).2, fun bwd running => ?_⟩
  · revert ended
    cases session.active <;> simp [Active.idle, Active.fitting]
  · rw [running] at ended
    cases ended

variable [Field α]

/-- What a recompute backward visits ends where it ended when it was recorded. -/
theorem Session.Replayable.replays {session : Session σ α} (kept : session.Replayable kernels)
    {bwd : Backward α} (running : session.active = .backward bwd) :
    bwd.Replays kernels session.sim := by
  obtain ⟨-, first, last⟩ := kept.atStep bwd running
  obtain ⟨rec_, found⟩ : ∃ rec_, session.sim.recs[bwd.idx - 1]? = some rec_ :=
    ⟨_, List.getElem?_eq_getElem (by omega)⟩
  have visited : Backward.visited session.sim bwd = rec_ := by
    unfold Backward.visited
    rw [found]
    rfl
  have ends := kept.repeated.recorded (bwd.idx - 1) rec_ found
  rw [Nat.sub_add_cancel first] at ends
  unfold Backward.Replays Backward.restart
  rw [visited, ← ends]
  rfl

/-- A stage outside a fit phase, with the duals off and what it reads whole. -/
theorem Repeatable.of_forward {fault : Fault} {sim : Sim σ α} (off : sim.fitActive = false)
    (duals : sim.cfg.al = false) (read : fault.read = false) : Repeatable geometry fault sim where
  duals _ := duals
  refresh _ := .inr (by rw [refresh_of_not_fitting off]; exact ⟨rfl, rfl⟩)
  read _ short := nomatch read.symm.trans short
  settle active := nomatch off.symm.trans active

/-- A backward leaves the inputs as they are. -/
theorem Repeated.restaged {before after : Sim σ α} (repeated : Repeated kernels before)
    (posted : Posted before) (staged : Sim.Restaged before after) (idle : before.phase = .idle) :
    Repeated kernels after := by
  have same := staged.sim
  have inputs : SameInputs before after :=
    .of_data posted (by rw [same]) (by rw [same]) (by rw [same]) staged.buffers.data
      staged.buffers.duals staged.buffers.attachFixed
  refine repeated.congr inputs ?_ ?_ ?_ ?_ ?_ ?_ fun busy => absurd idle busy
  all_goals rw [same]

variable [LinearOrder α]

/-- The step of a job that runs is taken further. -/
theorem advanced_repeated {session : Session σ α} (fault : Fault)
    (repeated : Repeated kernels session.sim) (situated : Situated session.sim)
    (may : session.sim.failed = false → Repeatable geometry fault session.sim) :
    Repeated kernels (session.advanced geometry kernels fault).1.sim := by
  unfold Session.advanced
  split
  next runs =>
    have running : session.sim.failed = false := by simpa using runs.2
    exact repeated.advance situated fault running (may running)
  · exact repeated

/-- A stage of a fit phase without a settle. -/
theorem fitStage_repeated {session : Session σ α} (fault : Fault)
    (active : session.sim.fitActive = true) (settled : session.sim.fitSettling = false)
    (repeated : Repeated kernels session.sim) (situated : Situated session.sim)
    (may : session.sim.failed = false → Repeatable geometry fault session.sim) :
    Repeated kernels (session.fitStage geometry kernels fault).sim ∧
      (session.fitStage geometry kernels fault).sim.fitSettling = false := by
  have advanced := advanced_repeated fault repeated situated may
  have settling := Session.advanced_settling geometry kernels fault session
  have tested : (session.tested geometry kernels fault).sim =
      (session.advanced geometry kernels fault).1.sim := by
    unfold Session.tested Session.stopTest
    dsimp only
    split
    · split <;> rfl
    · rfl
  have staged := @Session.fitStage_staged σ α _ _ geometry kernels fault session
  generalize session.fitStage geometry kernels fault = last at staged ⊢
  rw [← tested] at advanced settling
  cases staged with
  | on left running onward => exact ⟨advanced, settling.trans settled⟩
  | settle running off ends asked =>
      exfalso
      have before : session.sim.failed = false := by
        cases failed : session.sim.failed with
        | false => rfl
        | true =>
            have still : (session.advanced geometry kernels fault).1 = session := by
              unfold Session.advanced
              rw [if_neg (by simp [failed])]
            rw [tested, still, failed] at running
            cases running
      have none_ := (may before).settle active
      have kept : (session.advanced geometry kernels fault).1.sim.scene.fitSettle =
          session.sim.scene.fitSettle := by
        unfold Session.advanced
        split
        · exact (advance_fit geometry kernels fault session.sim).1
        · rfl
      rw [tested, kept, none_] at asked
      exact Nat.lt_irrefl 0 asked
  | finish ends =>
      have same : (session.tested geometry kernels fault).endSettle =
          session.tested geometry kernels fault := by
        unfold Session.endSettle
        rw [if_neg (by rw [settling, settled]; exact Bool.false_ne_true)]
      rw [same]
      exact ⟨advanced.congr ⟨rfl, fun _ _ => rfl⟩ rfl rfl rfl rfl rfl rfl fun _ => rfl,
        settling.trans settled⟩

theorem forwardStage_sim (fault : Fault) (session : Session σ α) :
    (session.forwardStage geometry kernels fault).sim =
      (session.advanced geometry kernels fault).1.sim := by
  unfold Session.forwardStage
  dsimp only
  split <;> rfl

/-- A tick keeps what is recorded repeatable. -/
theorem tick_repeated {session : Session σ α} (kept : session.Replayable kernels) (fault : Fault)
    (may : ∀ sim, session.advancing = some sim → sim.failed = false →
      Repeatable geometry fault sim) :
    Repeated kernels (session.tick geometry kernels fault).sim ∧
      (session.tick geometry kernels fault).sim.fitSettling = false := by
  obtain ⟨flagged, situated, repeated, settled, atStep⟩ := kept
  have forward (begun : Session σ α) (same : begun.sim = session.sim)
      (may : session.sim.failed = false → Repeatable geometry fault session.sim) :
      Repeated kernels (begun.forwardStage geometry kernels fault).sim ∧
        (begun.forwardStage geometry kernels fault).sim.fitSettling = false := by
    rw [forwardStage_sim, Session.advanced_settling, same]
    rw [← same] at may situated repeated
    exact ⟨advanced_repeated fault repeated situated may, settled⟩
  have backward (begun : Session σ α) (same : begun.sim = session.sim) (bwd : Backward α)
      (idle : session.sim.phase = .idle) :
      Repeated kernels (begun.backwardStage geometry kernels fault bwd).sim ∧
        (begun.backwardStage geometry kernels fault bwd).sim.fitSettling = false := by
    have staged := Backward.advance_restaged geometry kernels fault begun.sim bwd
    unfold Session.backwardStage
    dsimp only
    rw [same] at staged ⊢
    refine ⟨repeated.restaged situated.posted staged idle, ?_⟩
    rw [staged.sim]
    exact settled
  unfold Session.tick
  cases running : session.active with
  | forward => exact forward session rfl (may _ (by simp [Session.advancing, running]))
  | fit =>
      exact fitStage_repeated fault (flagged.on (by rw [running]; rfl)) settled repeated situated
        (may _ (by simp [Session.advancing, running]))
  | backward bwd => exact backward session rfl bwd (atStep bwd running).1
  | none =>
      cases queued : session.queue with
      | nil => exact ⟨repeated, settled⟩
      | cons job rest =>
          cases job with
          | forward steps =>
              exact forward _ rfl (may _ (by simp [Session.advancing, running, queued]))
          | fit maxSteps tol =>
              dsimp only [Session.begin_]
              split
              · exact ⟨repeated, settled⟩
              next fitted =>
                refine fitStage_repeated fault rfl rfl ?_ ?_
                  (may session.sim.beginFit (by simp [Session.advancing, running, queued, fitted]))
                · exact repeated.congr ⟨rfl, fun _ _ => rfl⟩ rfl rfl rfl rfl rfl rfl fun _ => rfl
                · exact ⟨situated.posted.congr rfl rfl (.inl rfl),
                    situated.located.congr rfl rfl rfl⟩
          | backward target loss mode =>
              dsimp only [Session.begin_]
              split
              · exact ⟨repeated, settled⟩
              next between => exact backward _ rfl _ (by simpa [Sim.midStep] using between)

/-- A call that leaves what the records were made with keeps them repeatable. -/
theorem step_replayable (session : Session σ α) (op : Op σ α)
    (kept : session.Replayable kernels) (repeats : session.Repeats geometry op) :
    (session.step geometry kernels op).Replayable kernels := by
  have flagged : (session.step geometry kernels op).Flagged :=
    Session.step_flagged session op kept.flagged
  have situated : Situated (session.step geometry kernels op).sim :=
    (step_situated session op ⟨kept.flagged, kept.situated⟩).2
  have ended {after : Session σ α} (idle : session.active.idle = true)
      (same : after.active = session.active) : after.AtStep := by
    intro bwd running
    rw [same] at running
    rw [running] at idle
    cases idle
  cases op with
  | load scene cfg =>
      dsimp only [Session.step] at flagged situated ⊢
      split at flagged
      next idle =>
        rw [if_pos idle] at situated ⊢
        exact ⟨flagged, situated, .blank rfl rfl, rfl, ended idle rfl⟩
      next busy =>
        rw [if_neg busy]
        exact kept
  | setLive live =>
      refine ⟨flagged, situated, ?_, kept.settled, fun bwd running => kept.atStep bwd running⟩
      rcases repeats with iters | ⟨none_, idle⟩
      · exact kept.repeated.congr ⟨iters, fun _ _ => rfl⟩ rfl rfl rfl rfl rfl rfl fun _ => rfl
      · exact .blank none_ idle
  | setPrims prims =>
      exact ⟨flagged, situated,
        kept.repeated.congr ⟨rfl, fun _ _ => rfl⟩ rfl rfl rfl rfl rfl rfl fun _ => rfl,
        kept.settled, fun bwd running => kept.atStep bwd running⟩
  | rewind =>
      dsimp only [Session.step] at flagged situated ⊢
      split at flagged
      next idle =>
        rw [if_pos idle] at situated ⊢
        exact ⟨flagged, situated, .blank rfl rfl, kept.settled, ended idle rfl⟩
      next busy =>
        rw [if_neg busy]
        exact kept
  | enqueueForward steps =>
      dsimp only [Session.step] at flagged situated ⊢
      split
      · exact kept
      next asked =>
        rw [if_neg asked] at flagged situated
        exact ⟨flagged, situated, kept.repeated, kept.settled, kept.atStep⟩
  | enqueueFit maxSteps tol =>
      dsimp only [Session.step] at flagged situated ⊢
      split
      · exact kept
      next asked =>
        rw [if_neg asked] at flagged situated
        exact ⟨flagged, situated, kept.repeated, kept.settled, kept.atStep⟩
  | enqueueBackward target loss mode =>
      exact ⟨flagged, situated, kept.repeated, kept.settled, kept.atStep⟩
  | tick fault =>
      obtain ⟨repeated, settled⟩ := tick_repeated kept fault repeats
      exact ⟨flagged, situated, repeated, settled, tick_atStep kept.flagged kept.atStep fault⟩

/-- Where every call since the last load or rewind has left what the records were made with, every
step that a recompute backward visits ends, run again, in what was recorded. -/
theorem recompute_replays (geometry : Geometry σ α) (kernels : Kernels α) (solver : Solver α)
    (scene : Scene σ α) (cfg : Config α) (before ops : List (Op σ α))
    (blank : ((Session.opened geometry solver scene cfg).run geometry kernels before).Blank)
    (repeats : Along (Session.step geometry kernels) (Session.Repeats geometry)
      ((Session.opened geometry solver scene cfg).run geometry kernels before) ops)
    (bwd : Backward α)
    (running : ((Session.opened geometry solver scene cfg).run geometry kernels
      (before ++ ops)).active = .backward bwd) :
    bwd.Replays kernels ((Session.opened geometry solver scene cfg).run geometry kernels
      (before ++ ops)).sim := by
  obtain ⟨flagged, situated⟩ := @run_situated σ α _ geometry kernels _
    (Session.opened geometry solver scene cfg) before
    ⟨Session.opened_flagged solver scene cfg, loaded_situated solver scene cfg⟩
  have kept := repeats.invariant step_replayable (blank.replayable flagged situated)
  have split_ : (Session.opened geometry solver scene cfg).run geometry kernels (before ++ ops) =
      ((Session.opened geometry solver scene cfg).run geometry kernels before).run geometry kernels
        ops := List.foldl_append
  rw [split_] at running ⊢
  exact kept.replays running

end Run

section Halving

/-- An iteration that goes half of the way to the predictor. -/
def halving : Kernels ℚ :=
  { doubling with
    iteration := fun buffers i => (1 / 2 : ℚ) • (buffers.positions i + buffers.predicted i) }

/-- The vertex at its place, in the last frame. -/
def homeward : Target ℚ := ⟨[], 0, [0], [0], none⟩

/-- Two steps, another damping between them, and a backward that runs each again. -/
theorem recompute_replays_halving : ∃ bwd : Backward ℚ,
    ((Session.opened still (.fresh false) pinned falling).run still halving ([] ++
      [.enqueueForward 2, .tick sound, .tick sound,
        .setLive { falling.toLive with damp := 1 }, .tick sound, .tick sound,
        .enqueueBackward homeward .targetPoints .unrolled, .tick sound])).active = .backward bwd ∧
      bwd.Replays halving ((Session.opened still (.fresh false) pinned falling).run still halving
        ([] ++ [.enqueueForward 2, .tick sound, .tick sound,
          .setLive { falling.toLive with damp := 1 }, .tick sound, .tick sound,
          .enqueueBackward homeward .targetPoints .unrolled, .tick sound])).sim := by
  refine ⟨_, rfl, ?_⟩
  refine recompute_replays still halving (.fresh false) pinned falling [] _ ⟨rfl, rfl, rfl⟩ ?_ _ rfl
  have forward (sim : Sim Unit ℚ) (off : sim.fitActive = false) (duals : sim.cfg.al = false) :
      Repeatable still sound sim := .of_forward off duals rfl
  refine ⟨trivial, ?_, ?_, .inl rfl, ?_, ?_, trivial, fun sim none_ => (nomatch none_), trivial⟩
  all_goals
    rintro sim ⟨⟩ -
    exact forward _ rfl rfl

/-- With the iterations doubled in between, the replay goes further than the step. -/
theorem recompute_replays_not : ¬∀ (solver : Solver ℚ) (scene : Scene Unit ℚ) (cfg : Config ℚ)
    (ops : List (Op Unit ℚ)) (bwd : Backward ℚ),
    ((Session.opened still solver scene cfg).run still halving ops).active = .backward bwd →
      bwd.mode ≠ .native →
      bwd.Replays halving ((Session.opened still solver scene cfg).run still halving ops).sim := by
  intro replays
  have ends := replays (.fresh false) pinned falling
    [.enqueueForward 1, .tick sound, .tick sound,
      .setLive { falling.toLive with iters := 2, one_le_iters := by decide },
      .enqueueBackward homeward .targetPoints .step, .tick sound] _ rfl (by rintro ⟨⟩)
  have height := congrFun (congrFun ends 0) 1
  revert height
  decide +kernel

end Halving

end DressOn.Drape
