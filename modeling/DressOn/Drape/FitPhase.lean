import DressOn.Drape.Consistency

/-!
# What a fit phase borrows

A fit phase runs with gravity and damping at zero and gives the settings it found
back. The live settings are written to the same fields at any time: what arrives in
the middle of a fit phase acts on its steps and is lost at its end.
-/

namespace DressOn.Drape

open DressOn.Avbd (Vec3)
open DressOn.Avbd.Backends (load)
open DressOn.Runs (Along kept_of_moves)

section Data

variable {σ α : Type*} [Field α] [LinearOrder α] (geometry : Geometry σ α) (kernels : Kernels α)

/-- A session and the gravity and damping its host configured last. -/
structure Host (σ α : Type*) where
  session : Session σ α
  gravity : Vec3 α
  damp : α

namespace Host

/-- A session just opened and loaded. -/
def opened (solver : Solver α) (scene : Scene σ α) (cfg : Config α) : Host σ α :=
  ⟨Session.opened geometry solver scene cfg, cfg.gravity, cfg.damp⟩

/-- One call. A load that has to wait configures nothing. -/
def step (host : Host σ α) (op : Op σ α) : Host σ α :=
  let session := host.session.step geometry kernels op
  match op with
  | .load _ cfg =>
      if host.session.active.idle then ⟨session, cfg.gravity, cfg.damp⟩ else { host with session }
  | .setLive live => ⟨session, live.gravity, live.damp⟩
  | _ => { host with session }

/-- A fit step runs without gravity and damping; outside a fit phase the settings are
the host's and the attachments are as stiff as the scene's. -/
structure Borrowed (host : Host σ α) : Prop where
  steps : ∀ sim, host.session.advancing = some sim → sim.fitActive = true →
    sim.cfg.gravity = 0 ∧ sim.cfg.damp = 0
  back : host.session.active.fitting = false →
    host.session.sim.cfg.gravity = host.gravity ∧ host.session.sim.cfg.damp = host.damp ∧
      host.session.sim.solver.buffers.penalties.stiff .attachments =
        load host.session.sim.scene.nAttach host.session.sim.scene.material.attachK

/-- Live settings that arrive while a fit phase runs have zero gravity and damping, as
the settings it has to give back do. -/
def Undisturbed (host : Host σ α) : Op σ α → Prop
  | .setLive live => host.session.active.fitting = true →
      live.gravity = 0 ∧ live.damp = 0 ∧ host.session.fitGravity = 0 ∧ host.session.fitDamp = 0
  | _ => True

end Host

end Data

section Run

variable {σ α : Type*} [Field α] {geometry : Geometry σ α} {kernels : Kernels α}

namespace Host

/-- What a fit phase holds and owes. -/
structure Kept (host : Host σ α) : Prop where
  flagged : host.session.Flagged
  attached : Attached host.session.sim
  held : host.session.active.fitting = true →
    (host.session.sim.cfg.gravity = 0 ∧ host.session.sim.cfg.damp = 0) ∧
      host.session.fitGravity = host.gravity ∧ host.session.fitDamp = host.damp
  back : host.session.active.fitting = false →
    host.session.sim.cfg.gravity = host.gravity ∧ host.session.sim.cfg.damp = host.damp

theorem opened_kept (solver : Solver α) (scene : Scene σ α) (cfg : Config α) :
    (opened geometry solver scene cfg).Kept := by
  obtain ⟨sized, matched⟩ := @loaded_matched σ α _ geometry solver scene cfg
  exact ⟨Session.opened_flagged solver scene cfg, ⟨sized, matched _⟩, by rintro ⟨⟩,
    fun _ => ⟨rfl, rfl⟩⟩

/-- What is held and owed is what a fit phase borrows. -/
theorem Kept.borrowed {host : Host σ α} (kept : host.Kept) : host.Borrowed := by
  obtain ⟨flagged, attached, held, back⟩ := kept
  constructor
  · intro sim advancing active
    unfold Session.advancing at advancing
    cases running : host.session.active with
    | forward =>
        simp only [running, Option.some.injEq] at advancing
        subst advancing
        have off := (flagged.off (by rw [running]; rfl)).1
        exact absurd (off.symm.trans active) Bool.false_ne_true
    | fit =>
        simp only [running, Option.some.injEq] at advancing
        subst advancing
        exact (held (by rw [running]; rfl)).1
    | backward bwd => simp [running] at advancing
    | none =>
        have off := (flagged.off (by rw [running]; rfl)).1
        cases queued : host.session.queue with
        | nil => simp [running, queued] at advancing
        | cons job rest =>
            cases job with
            | forward steps =>
                simp only [running, queued, Option.some.injEq] at advancing
                subst advancing
                exact absurd (off.symm.trans active) Bool.false_ne_true
            | fit maxSteps tol =>
                simp only [running, queued] at advancing
                split at advancing
                · cases advancing
                · simp only [Option.some.injEq] at advancing
                  subst advancing
                  exact ⟨rfl, rfl⟩
            | backward target loss mode => simp [running, queued] at advancing
  · intro off
    exact ⟨(back off).1, (back off).2, attached.matched.stiff fun _ => (flagged.off off).2⟩

variable [LinearOrder α]

/-- A session holds and owes the gravity and damping of a fit phase. -/
def Settled (session : Session σ α) (gravity : Vec3 α) (damp : α) : Prop :=
  (session.active.fitting = true →
    (session.sim.cfg.gravity = 0 ∧ session.sim.cfg.damp = 0) ∧
      session.fitGravity = gravity ∧ session.fitDamp = damp) ∧
    (session.active.fitting = false →
      session.sim.cfg.gravity = gravity ∧ session.sim.cfg.damp = damp)

/-- A fit's stage keeps what it took, or gives it back. -/
theorem fitted_settled {allowed : Sim σ α → Prop} {first after : Session σ α}
    (fitted : Session.Fitted geometry kernels allowed first after)
    (zero : first.sim.cfg.gravity = 0 ∧ first.sim.cfg.damp = 0) :
    Settled after first.fitGravity first.fitDamp := by
  cases fitted with
  | running advanced active =>
      refine ⟨fun _ => ⟨?_, advanced.fitGravity, advanced.fitDamp⟩, fun off => ?_⟩
      · rw [advanced.cfg]
        exact zero
      · rw [active] at off
        cases off
  | finished saved moves cfg fitActive fitSettling active =>
      refine ⟨fun on => ?_, fun _ => ?_⟩
      · rw [active] at on
        cases on
      · rw [cfg]
        exact ⟨rfl, rfl⟩

/-- A tick ends with the fit phase holding what it took, or with the host's settings. -/
theorem Kept.tick {host : Host σ α} (kept : host.Kept) (fault : Fault) :
    Kept { host with session := host.session.tick geometry kernels fault } := by
  obtain ⟨flagged, attached, held, back⟩ := kept
  have ticked : Session.Ticked geometry kernels (fun _ => True) host.session
      (host.session.tick geometry kernels fault) :=
    Session.tick_ticked fault flagged fun _ _ _ => trivial
  have settled : Settled (host.session.tick geometry kernels fault) host.gravity host.damp := by
    cases ticked with
    | fit running fitted =>
        obtain ⟨zero, gravity, damp⟩ := held (by rw [running]; rfl)
        rw [← gravity, ← damp]
        exact fitted_settled fitted zero
    | begun first idle sim gravity damp may fitted =>
        obtain ⟨configured, damped⟩ := back (by rw [idle]; rfl)
        rw [← configured, ← damped, ← gravity, ← damp]
        apply fitted_settled fitted
        rw [sim]
        exact ⟨rfl, rfl⟩
    | other off moves cfg fitActive fitSettling still =>
        refine ⟨fun on => absurd (still.symm.trans on) Bool.false_ne_true, fun _ => ?_⟩
        rw [cfg]
        exact back off
  exact ⟨ticked.flagged flagged, kept_of_moves
    (fun _ _ move kept => kept.move geometry kernels move) (ticked.moves flagged) attached,
    settled.1, settled.2⟩

/-- Every undisturbed call leaves the fit phase with what it holds and owes. -/
theorem step_kept (host : Host σ α) (op : Op σ α) (kept : host.Kept)
    (undisturbed : host.Undisturbed op) : (host.step geometry kernels op).Kept := by
  have flagged : (host.session.step geometry kernels op).Flagged :=
    Session.step_flagged host.session op kept.flagged
  obtain ⟨⟨off, on⟩, attached, held, back⟩ := kept
  cases op with
  | load scene cfg =>
      dsimp only [step, Session.step] at flagged ⊢
      split at flagged
      next idle =>
        rw [if_pos idle, if_pos idle]
        obtain ⟨sized, matched⟩ := @loaded_matched σ α _ geometry host.session.sim.solver scene cfg
        refine ⟨flagged, ⟨sized, matched _⟩, fun on => ?_, fun _ => ⟨rfl, rfl⟩⟩
        exact absurd (flagged.on on) Bool.false_ne_true
      next busy =>
        rw [if_neg busy, if_neg busy]
        exact ⟨flagged, attached, held, back⟩
  | setLive live =>
      refine ⟨flagged, ⟨attached.sized, attached.matched.congr rfl rfl rfl id⟩, fun on => ?_,
        fun _ => ⟨rfl, rfl⟩⟩
      obtain ⟨gravity, damp, fitGravity, fitDamp⟩ := undisturbed on
      exact ⟨⟨gravity, damp⟩, fitGravity.trans gravity.symm, fitDamp.trans damp.symm⟩
  | setPrims prims =>
      exact ⟨flagged, ⟨attached.sized, attached.matched.congr rfl rfl rfl id⟩, held, back⟩
  | rewind =>
      dsimp only [step, Session.step] at flagged ⊢
      split at flagged
      next idle =>
        rw [if_pos idle]
        exact ⟨flagged, ⟨attached.sized, attached.matched.congr rfl rfl rfl id⟩, held, back⟩
      next busy =>
        rw [if_neg busy]
        exact ⟨flagged, attached, held, back⟩
  | enqueueForward steps =>
      dsimp only [step, Session.step]
      split <;> exact ⟨⟨off, on⟩, attached, held, back⟩
  | enqueueFit maxSteps tol =>
      dsimp only [step, Session.step]
      split <;> exact ⟨⟨off, on⟩, attached, held, back⟩
  | enqueueBackward target loss mode => exact ⟨flagged, attached, held, back⟩
  | tick fault => exact Kept.tick ⟨⟨off, on⟩, attached, held, back⟩ fault

end Host

variable [LinearOrder α]

/-- In a run in which no live setting reaches a fit phase, but zeros where zeros are owed,
the phase borrows gravity and damping and gives them back. -/
theorem fit_gives_back (geometry : Geometry σ α) (kernels : Kernels α) (solver : Solver α)
    (scene : Scene σ α) (cfg : Config α) (ops : List (Op σ α))
    (undisturbed : Along (Host.step geometry kernels) Host.Undisturbed
      (Host.opened geometry solver scene cfg) ops) :
    Host.Borrowed (ops.foldl (Host.step geometry kernels) (Host.opened geometry solver scene cfg)) :=
  (undisturbed.invariant Host.step_kept (Host.opened_kept solver scene cfg)).borrowed

end Run

section Falling

/-- A setting changed before the fit phase, none while it runs. -/
theorem fit_gives_back_falling : Host.Borrowed
    ([.setLive { falling.toLive with iters := 2, one_le_iters := by decide }, .enqueueFit 2 0,
      .tick sound, .tick sound, .tick sound].foldl (Host.step still doubling)
        (Host.opened still (.fresh false) fitted plain)) :=
  fit_gives_back still doubling (.fresh false) fitted plain _
    ⟨by rintro ⟨⟩, trivial, trivial, trivial, trivial, trivial⟩

/-- The number of iterations changed in the middle of a fit phase: gravity and damping
are back for the steps that follow. -/
theorem fit_disturbed : ¬∀ (solver : Solver ℚ) (scene : Scene Unit ℚ) (cfg : Config ℚ)
    (ops : List (Op Unit ℚ)),
    Host.Borrowed (ops.foldl (Host.step still doubling) (Host.opened still solver scene cfg)) := by
  intro borrowed
  have steps := (borrowed (.fresh false) fitted falling [.enqueueFit 2 0, .tick sound,
    .setLive { falling.toLive with iters := 2, one_le_iters := by decide }]).steps _ rfl rfl
  have gravity : (![0, -1, 0] : Vec3 ℚ) = 0 := steps.1
  have down : (-1 : ℚ) = 0 := congrFun gravity 1
  norm_num at down

end Falling

end DressOn.Drape
