import DressOn.Host.World
import DressOn.Host.Starts
import DressOn.Lib.Runs

/-!
# What the drape executes with

The configuration of the guest outlives a run. A run sets `gravityY` before its drape, and nobody
sets most of the other keys. The fit of the drape solver sets `iters` and `h` and gives them back in
`FIT_READ`: where it does not get there, a run that fits with the other solver drapes with them.
-/

namespace DressOn.Host

open DressOn.Texts DressOn.Runs

variable {R : Type} {shapes : Shapes R} {below : Outside R}

/-! ### What a call sets -/

namespace Guest

variable {floats : Floats R} {g : Guest R}

/-- Loading the scene keeps the configuration and the scene. -/
theorem loadScene_kept :
    (g.loadScene floats below).1.cfg = g.cfg ∧ (g.loadScene floats below).1.scene = g.scene := by
  unfold loadScene
  dsimp only
  split
  · exact ⟨rfl, rfl⟩
  next s made => rcases s.load below g.scene g.cfg with ⟨loaded, none | error⟩ <;> exact ⟨rfl, rfl⟩

/-- A refresh keeps the configuration and the scene. -/
theorem refresh_kept :
    (g.refresh floats below).1.cfg = g.cfg ∧ (g.refresh floats below).1.scene = g.scene := by
  unfold refresh
  split
  · split
    · exact ⟨rfl, rfl⟩
    · exact loadScene_kept
  · exact ⟨rfl, rfl⟩

/-- A call that sets nothing keeps the configuration and the primitives. -/
structure SetsNothing (g after : Guest R) : Prop where
  cfg : after.cfg = g.cfg
  prims : after.scene.prims = g.scene.prims

/-- `drape_open` sets nothing. -/
theorem drapeOpen_setsNothing (backend : Text) : SetsNothing g (g.drapeOpen backend).1 := by
  unfold drapeOpen
  split
  · exact ⟨rfl, rfl⟩
  · split <;> exact ⟨rfl, rfl⟩

/-- `drape_scene_mesh` without its settings sets nothing. -/
theorem drapeSceneMesh_setsNothing (pos : List R) (tris pins : List Int) :
    SetsNothing g (g.drapeSceneMesh floats below pos tris pins []).1 := by
  unfold drapeSceneMesh
  split
  · exact ⟨rfl, rfl⟩
  · rw [List.zip_nil_right]
    dsimp only [setMaterial]
    cases mesh : g.scene.mesh floats pos tris pins with
    | error error => exact ⟨rfl, rfl⟩
    | ok scene =>
      obtain ⟨cfg, same⟩ :=
        @loadScene_kept R below floats { g with scene := scene, sceneSet := true }
      exact ⟨cfg, (congrArg Scene.prims same).trans (mesh_taken mesh).2⟩

/-- A fit set leaves the primitives alone. -/
theorem fitSet_prims {scene made : Scene R} {verts anchor : List Int} {k gap anchorK : R}
    {refresh restEvery settle : Int} {similarity : Bool}
    (taken : scene.fitSet verts k gap refresh similarity anchor restEvery settle anchorK
      = .ok made) : made.prims = scene.prims := by
  unfold Scene.fitSet at taken
  split at taken
  · cases taken
  · split at taken
    · cases taken
    · split at taken
      · cases taken
      · split at taken
        · cases taken
        · cases taken
          rfl

/-- `drape_fit_set` sets nothing. -/
theorem drapeFitSet_setsNothing (verts : List Int) (params : List R) (anchor : List Int) :
    SetsNothing g (g.drapeFitSet floats verts params anchor).1 := by
  unfold drapeFitSet
  dsimp only
  split
  · exact ⟨rfl, rfl⟩
  · split
    · exact ⟨rfl, rfl⟩
    · split
      · exact ⟨rfl, rfl⟩
      next scene taken => exact ⟨rfl, fitSet_prims taken⟩

/-- `drape_queue_fit` sets nothing. -/
theorem drapeQueueFit_setsNothing (maxSteps : Int) (tol : R) :
    SetsNothing g (g.drapeQueueFit floats below maxSteps tol).1 := by
  unfold drapeQueueFit
  split
  · split
    · exact ⟨rfl, rfl⟩
    · split
      · exact ⟨rfl, rfl⟩
      · obtain ⟨cfg, scene⟩ := @refresh_kept R below floats g
        split
        next refused =>
          rw [refused] at cfg scene
          exact ⟨cfg, congrArg Scene.prims scene⟩
        next fresh =>
          rw [fresh] at cfg scene
          split
          · exact ⟨cfg, congrArg Scene.prims scene⟩
          · exact ⟨cfg, congrArg Scene.prims scene⟩
  · exact ⟨rfl, rfl⟩

/-- `drape_queue_forward` sets nothing. -/
theorem drapeQueueForward_setsNothing (steps : Int) :
    SetsNothing g (g.drapeQueueForward floats below steps).1 := by
  unfold drapeQueueForward
  split
  · obtain ⟨cfg, scene⟩ := @refresh_kept R below floats g
    split
    next refused =>
      rw [refused] at cfg scene
      exact ⟨cfg, congrArg Scene.prims scene⟩
    next fresh =>
      rw [fresh] at cfg scene
      split
      · exact ⟨cfg, congrArg Scene.prims scene⟩
      · split
        · split <;> exact ⟨cfg, congrArg Scene.prims scene⟩
        · exact ⟨cfg, congrArg Scene.prims scene⟩
  · exact ⟨rfl, rfl⟩

/-- A setting that is taken is there, and the primitives stay unless it is `mu`. -/
theorem drapeConfig_taken {key : Text} {value : R} {cfg : Config R}
    (taken : g.cfg.set floats key value = some cfg) :
    (g.drapeConfig floats below key value).1.cfg = cfg ∧
      (key ≠ "mu".toList →
        (g.drapeConfig floats below key value).1.scene.prims = g.scene.prims) := by
  unfold drapeConfig
  rw [taken]
  dsimp only
  by_cases upload : key ∈ Config.uploads
  all_goals
    first | rw [if_pos upload] | rw [if_neg upload]
    dsimp only
    split
    next first later prims =>
      split
      next mu => exact ⟨rfl, fun other => absurd mu other⟩
      next other => exact ⟨rfl, fun _ => rfl⟩
    next empty => exact ⟨rfl, fun _ => rfl⟩

end Guest

namespace DrapeStage

open Guest (SetsNothing)

/-- The configuration after a call. -/
def configured (shapes : Shapes R) (cfg : Config R) : DrapeCall R → Config R
  | .config key value => (cfg.set shapes.floats key (shapes.floats.ofRat value)).getD cfg
  | _ => cfg

/-- The primitives after a call that is taken. -/
def collided (shapes : Shapes R) (prims : List (Primitive R)) :
    DrapeCall R → List (Primitive R)
  | .clear => []
  | .mesh positions triangles skin mu band depth =>
    let float := shapes.floats.ofRat
    prims ++ [⟨.mesh positions triangles (float skin) (float band) (float depth), float mu⟩]
  | .capsule shape scale mu =>
    let params := capsuleParams shapes shape scale mu
    prims ++ [⟨.made "capsule".toList (params.take 8), params.getD 8 shapes.floats.nan⟩]
  | _ => prims

/-- Of the settings, a call sets `gravityY` alone. -/
def SetsGravity : DrapeCall R → Prop
  | .config key _ => key = "gravityY".toList
  | _ => True

/-- Whatever a call answers, the configuration is what it sets. -/
theorem guestCall_cfg (g : Guest R) (made : DrapeCall R) :
    (guestCall shapes below g made).1.cfg = configured shapes g.cfg made := by
  cases made with
  | «open» backend => exact (Guest.drapeOpen_setsNothing backend).cfg
  | clear => rfl
  | mesh positions triangles skin mu band depth =>
    dsimp only [guestCall, Guest.drapePrimitiveMesh]
    split <;> rfl
  | capsule shape scale mu =>
    dsimp only [guestCall, Guest.drapePrimitive]
    split
    · rfl
    · split
      · rfl
      · split <;> rfl
  | config key value =>
    dsimp only [guestCall, configured]
    cases set : g.cfg.set shapes.floats key (shapes.floats.ofRat value) with
    | none =>
      unfold Guest.drapeConfig
      rw [set]
      rfl
    | some cfg => exact (Guest.drapeConfig_taken set).1
  | sceneMesh positions triangles pins =>
    exact (Guest.drapeSceneMesh_setsNothing positions triangles pins).cfg
  | fitSet verts params anchor => exact (Guest.drapeFitSet_setsNothing verts _ anchor).cfg
  | queueFit steps tol => exact (Guest.drapeQueueFit_setsNothing (toInt steps) _).cfg
  | queueForward steps => exact (Guest.drapeQueueForward_setsNothing (toInt steps)).cfg

/-- A call that does not fail has added its primitive. -/
theorem guestCall_prims {g : Guest R} {made : DrapeCall R} (only : SetsGravity made)
    (taken : beginsWith (guestCall shapes below g made).2 "FAIL".toList = false) :
    (guestCall shapes below g made).1.scene.prims = collided shapes g.scene.prims made := by
  cases made with
  | «open» backend => exact (Guest.drapeOpen_setsNothing backend).prims
  | clear => rfl
  | mesh positions triangles skin mu band depth =>
    dsimp only [guestCall, Guest.drapePrimitiveMesh] at taken ⊢
    split at taken
    · cases taken
    · rfl
  | capsule shape scale mu =>
    dsimp only [guestCall, Guest.drapePrimitive] at taken ⊢
    rw [if_neg (by decide)] at taken ⊢
    dsimp only [Guest.primitiveSize] at taken ⊢
    rw [if_neg (by decide), if_neg (by decide), if_pos rfl] at taken ⊢
    dsimp only at taken ⊢
    split at taken
    · cases taken
    next long =>
      rw [if_neg long]
      rfl
  | config key value =>
    cases only
    dsimp only [guestCall, collided]
    cases set : g.cfg.set shapes.floats "gravityY".toList (shapes.floats.ofRat value) with
    | none =>
      unfold Guest.drapeConfig
      rw [set]
    | some cfg => exact (Guest.drapeConfig_taken set).2 (by decide)
  | sceneMesh positions triangles pins =>
    exact (Guest.drapeSceneMesh_setsNothing positions triangles pins).prims
  | fitSet verts params anchor => exact (Guest.drapeFitSet_setsNothing verts _ anchor).prims
  | queueFit steps tol => exact (Guest.drapeQueueFit_setsNothing (toInt steps) _).prims
  | queueForward steps => exact (Guest.drapeQueueForward_setsNothing (toInt steps)).prims

variable {stage : DrapeStage R}

/-- The configuration after a list of calls is that of the settings among them. -/
theorem after_cfg (calls : List (DrapeCall R)) : (stage.after shapes below calls).guest.cfg
    = calls.foldl (configured shapes) stage.guest.cfg := by
  induction calls generalizing stage with
  | nil => rfl
  | cons made later inductionHypothesis =>
    have first : (stage.call shapes below made).1.guest.cfg
        = configured shapes stage.guest.cfg made := guestCall_cfg stage.guest made
    rw [List.foldl_cons, ← first]
    exact inductionHypothesis

/-- Where no call is refused, every primitive is there. -/
theorem after_prims {calls : List (DrapeCall R)} (only : ∀ made ∈ calls, SetsGravity made)
    (taken : ∀ n < calls.length,
      beginsWith (stage.answer shapes below (calls.take (n + 1))) "FAIL".toList = false) :
    (stage.after shapes below calls).guest.scene.prims
      = calls.foldl (collided shapes) stage.guest.scene.prims := by
  induction calls using List.reverseRecOn with
  | nil => rfl
  | append_singleton calls made inductionHypothesis =>
    have before := inductionHypothesis (fun made member => only made (List.mem_append_left _ member))
      fun n short => by
        have early := taken n (by rw [List.length_append]; omega)
        rwa [List.take_append_of_le_length short] at early
    have last := taken calls.length (by simp)
    rw [List.take_of_length_le (by simp), answer_concat] at last
    rw [after_append, List.foldl_append, ← before]
    exact guestCall_prims (only made (by simp)) last

end DrapeStage

/-! ### The settings that are left -/

/-- Whether a call leaves the settings of a fit behind, as `iters` tells. -/
def leave (left : Bool) : DrapeCall R → Bool
  | .config key value => if key = "iters".toList then decide (value = 32) else left
  | _ => left

/-- The last fit of the drape solver set its settings, and they were not given back. -/
def unrestored (calls : List (DrapeCall R)) : Bool := calls.foldl leave false

/-- The configuration: with the settings of a fit or without, and with any `gravityY`. -/
structure Settled (floats : Floats R) (left : Bool) (cfg : Config R) : Prop where
  iters : cfg "iters".toList = some (.count (if left then 32 else 16))
  h : cfg "h".toList = some (.number (floats.ofRat (if left then 1 / 60 else 1 / 180)))
  others (key : Text) (other : key ∉ ["iters".toList, "h".toList, "gravityY".toList]) :
    cfg key = Config.initial floats key

namespace Settled

open DrapeStage (configured SetsGravity)

variable {floats : Floats R} {cfg : Config R} {left : Bool}

/-- The configuration at boot is settled. -/
theorem initial (floats : Floats R) : Settled floats false (Config.initial floats) where
  iters := rfl
  h := rfl
  others _ _ := rfl

/-- A number of iterations is taken as it is. -/
theorem set_iters (cfg : Config R) (value : Int) (least : 1 ≤ value) (small : value ≤ 1000) :
    cfg.set floats "iters".toList (floats.ofRat value)
      = some (cfg.put "iters".toList (.count value)) := by
  have takes : taking "iters".toList = some (.count 1) := by decide
  unfold Config.set
  rw [takes]
  dsimp only
  rw [floats.not_less_ofRat value 1 (by exact_mod_cast least), if_neg nofun,
    floats.whole_ofRat value (by omega)]

/-- A step that is not tiny is taken. -/
theorem set_h (cfg : Config R) (value : ℚ) (above : 1 / 1000 ≤ value) :
    cfg.set floats "h".toList (floats.ofRat value)
      = some (cfg.put "h".toList (.number (floats.ofRat value))) := by
  have takes : taking "h".toList = some .positive := by decide
  unfold Config.set
  rw [takes]
  dsimp only
  rw [if_pos (floats.zero_less_ofRat value above)]

/-- `gravityY` leaves the rest as it is. -/
theorem gravity (settled : Settled floats left cfg) (setting : Setting R) :
    Settled floats left (cfg.put "gravityY".toList setting) where
  iters := (cfg.put_of_ne setting (by decide)).trans settled.iters
  h := (cfg.put_of_ne setting (by decide)).trans settled.h
  others key other := by
    rw [cfg.put_of_ne setting fun same => other (by simp [same])]
    exact settled.others key other

/-- `iters`, `kBend` as it starts, and `h` settle the configuration. -/
theorem of_puts {before : Bool} (settled : Settled floats before cfg) (left : Bool) :
    Settled floats left
      (((cfg.put "iters".toList (.count (if left then 32 else 16))).put "kBend".toList
        (.number (floats.ofRat (1 / 100000)))).put "h".toList
          (.number (floats.ofRat (if left then 1 / 60 else 1 / 180)))) where
  iters := rfl
  h := rfl
  others key other := by
    have ⟨iters, rest⟩ := not_or.1 (List.mem_cons.not.1 other)
    have ⟨h, _⟩ := not_or.1 (List.mem_cons.not.1 rest)
    rw [Config.put_of_ne _ _ h]
    by_cases bend : key = "kBend".toList
    · rw [bend]
      rfl
    · rw [Config.put_of_ne _ _ bend, Config.put_of_ne _ _ iters]
      exact settled.others key other

/-- What the setup of a fit sets. -/
theorem fitStart {before : Bool} (settled : Settled shapes.floats before cfg) (opts : Options)
    (garmentV bodyV : List R) (triangles fitVerts anchor bodyF : List Int) (steps tol : ℚ) :
    Settled shapes.floats true
      ((Pipeline.fitAvbdStart shapes opts garmentV triangles fitVerts anchor bodyV bodyF
        ++ [DrapeCall.queueFit steps tol]).foldl (configured shapes) cfg) := by
  have takes : taking "kBend".toList = some .number := by decide
  have takes' : taking "gravityY".toList = some .number := by decide
  have iters := @set_iters R shapes.floats cfg 32 (by decide) (by decide)
  have h (cfg : Config R) := @set_h R shapes.floats cfg (1 / 60) (by norm_num)
  rw [List.foldl_append]
  dsimp only [Pipeline.fitAvbdStart, List.foldl_cons, List.foldl_nil, configured]
  rw [show shapes.floats.ofRat 32 = shapes.floats.ofRat ((32 : Int) : ℚ) from rfl, iters]
  dsimp only [Option.getD_some]
  rw [Config.set_number _ _ takes]
  dsimp only [Option.getD_some]
  rw [h]
  dsimp only [Option.getD_some]
  rw [Config.set_number _ _ takes']
  dsimp only [Option.getD_some]
  exact gravity (settled.of_puts true) _

/-- What the end of a fit gives back. -/
theorem fitRestore {before : Bool} (settled : Settled shapes.floats before cfg) :
    Settled shapes.floats false
      ((Pipeline.fitAvbdRestore : List (DrapeCall R)).foldl (configured shapes) cfg) := by
  have takes : taking "kBend".toList = some .number := by decide
  have iters := @set_iters R shapes.floats cfg 16 (by decide) (by decide)
  have h (cfg : Config R) := @set_h R shapes.floats cfg (1 / 180) (by norm_num)
  dsimp only [Pipeline.fitAvbdRestore, List.foldl_cons, List.foldl_nil, configured]
  rw [show shapes.floats.ofRat 16 = shapes.floats.ofRat ((16 : Int) : ℚ) from rfl, iters]
  dsimp only [Option.getD_some]
  rw [Config.set_number _ _ takes]
  dsimp only [Option.getD_some]
  rw [h]
  dsimp only [Option.getD_some]
  exact settled.of_puts false

/-- Calls that set `gravityY` alone leave the rest as it is. -/
theorem calls {made : List (DrapeCall R)} (settled : Settled shapes.floats left cfg)
    (only : ∀ call ∈ made, SetsGravity call) :
    Settled shapes.floats left (made.foldl (configured shapes) cfg) := by
  induction made generalizing cfg with
  | nil => exact settled
  | cons call later inductionHypothesis =>
    refine inductionHypothesis ?_ fun other member => only other (List.mem_cons_of_mem _ member)
    have here := only call List.mem_cons_self
    cases call with
    | config key value =>
      cases here
      have takes : taking "gravityY".toList = some .number := by decide
      dsimp only [configured]
      rw [Config.set_number _ _ takes]
      exact settled.gravity _
    | _ => exact settled

end Settled

/-- Calls that set the gravity only leave nothing behind. -/
theorem leave_of_setsGravity {left : Bool} {calls : List (DrapeCall R)}
    (only : ∀ made ∈ calls, DrapeStage.SetsGravity made) : calls.foldl leave left = left := by
  induction calls with
  | nil => rfl
  | cons made later inductionHypothesis =>
    have same : leave left made = left := by
      have here := only made List.mem_cons_self
      cases made with
      | config key value =>
        cases here
        rw [leave, if_neg (by decide)]
      | _ => rfl
    rw [List.foldl_cons, same]
    exact inductionHypothesis fun other member => only other (List.mem_cons_of_mem _ member)

/-! ### The calls of a frame -/

namespace Pipeline

variable {p q : Pipeline R} {a : Answers R}

/-- What a frame calls on the drape stage: the setup of a fit, all of what a fit gives back, a
drape, or nothing. -/
inductive FrameCalls (shapes : Shapes R) (p : Pipeline R) : List (DrapeCall R) → Prop where
  | none (silent : p.state = .fitRead → p.opts.avbd = false) : FrameCalls shapes p []
  | fitBegin (at_state : p.state = .fitBegin) (avbd : p.opts.avbd = true) (opts : Options)
      (garmentV bodyV : List R) (triangles fitVerts anchor bodyF : List Int) :
      FrameCalls shapes p (fitAvbdStart shapes opts garmentV triangles fitVerts anchor bodyV bodyF
        ++ [.queueFit 300 (5 / 10000)])
  | fitRead (at_state : p.state = .fitRead) (avbd : p.opts.avbd = true) :
      FrameCalls shapes p fitAvbdRestore
  | drape (at_state : p.state = .drape) (calls : List (DrapeCall R))
      (only : ∀ made ∈ calls, DrapeStage.SetsGravity made) : FrameCalls shapes p calls

/-- The calls depend on the state and the options that the frame meets. -/
theorem FrameCalls.of_met {calls : List (DrapeCall R)} (frame : FrameCalls shapes q calls)
    (state : q.state = p.state) (opts : q.opts = p.opts) : FrameCalls shapes p calls := by
  cases frame with
  | none silent => exact .none (by rw [← state, ← opts]; exact silent)
  | fitBegin at_state avbd =>
    exact .fitBegin (state.symm.trans at_state) (by rw [← opts]; exact avbd) _ _ _ _ _ _ _
  | fitRead at_state avbd =>
    exact .fitRead (state.symm.trans at_state) (by rw [← opts]; exact avbd)
  | drape at_state calls only => exact .drape (state.symm.trans at_state) calls only

/-- A fixture makes no drape call. -/
theorem addFixture_draped (key : Text) : (p.addFixture key).draped = p.draped := by
  unfold Pipeline.addFixture
  split <;> rfl

/-- The start of an AVBD fit makes its calls and queues the fit, or makes none. -/
theorem fitBeginAvbd_calls (garment : Garment R) (fitElf : Mode) :
    (p.fitBeginAvbd shapes a garment fitElf).draped = p.draped ∨
      ∃ garmentV bodyV triangles fitVerts anchor bodyF,
        (p.fitBeginAvbd shapes a garment fitElf).draped = p.draped
          ++ (fitAvbdStart shapes p.opts garmentV triangles fitVerts anchor bodyV bodyF
            ++ [.queueFit 300 (5 / 10000)]) := by
  unfold Pipeline.fitBeginAvbd
  dsimp only
  generalize (if a.drape.missing ≠ [] then a.drape.missing else a.drape.fitApiMissing) = missing
  split
  · exact Or.inl (fail_draped _)
  · unfold callDrape
    let start := shapes.similarityRetarget garment.vertices garment.sourceJoints p.data.joints
    refine Or.inr ⟨start, p.data.bodyV, garment.triangles,
      fitVertices (garment.vertices.length / 3) garment.nofit,
      waistLoop shapes start garment.triangles, p.data.bodyF, ?_⟩
    dsimp only
    split
    · exact fail_draped _
    · split
      · exact fail_draped _
      · split
        · exact fail_draped _
        · exact goto_draped _ _

/-- The calls of a frame in `FIT_BEGIN`. -/
theorem fitBegin_calls (at_state : p.state = .fitBegin) (first : Bool) :
    ∃ calls, (p.fitBegin shapes a first).draped = p.draped ++ calls ∧
      FrameCalls shapes p calls := by
  have silent {q : Pipeline R} (same : q.draped = p.draped) :
      ∃ calls, q.draped = p.draped ++ calls ∧ FrameCalls shapes p calls :=
    ⟨[], by rw [same, List.append_nil], .none (by rw [at_state]; nofun)⟩
  have fits {q : Pipeline R} (same : q.draped = p.draped) (opts : q.opts = p.opts)
      (avbd : q.opts.avbd = true) (garment : Garment R) (fitElf : Mode) :
      ∃ calls, (q.fitBeginAvbd shapes a garment fitElf).draped = p.draped ++ calls ∧
        FrameCalls shapes p calls := by
    rcases @fitBeginAvbd_calls R shapes q a garment fitElf with none |
      ⟨garmentV, bodyV, triangles, fitVerts, anchor, bodyF, made⟩
    · exact silent (none.trans same)
    · rw [same] at made
      exact ⟨_, made, .fitBegin at_state (by rw [← opts]; exact avbd) _ _ _ _ _ _ _⟩
  unfold Pipeline.fitBegin
  split
  · exact silent rfl
  next garment _ =>
    split
    · rcases mode_turn p a.clock "fit".toList a.fit.missing with mode | mode | ⟨why, mode⟩ <;>
        rw [mode] <;> dsimp only
      · split
        next avbd => exact fits rfl rfl avbd garment _
        · rw [if_neg nofun]
          split
          · exact silent (fail_draped _)
          · exact silent rfl
      · have added := @addFixture_draped R p "fit".toList
        split
        next avbd => exact fits added (Kept.addFixture p "fit".toList).1.opts avbd garment _
        · rw [if_pos rfl]
          split
          · split
            · exact silent ((fail_draped _).trans added)
            · split
              · exact silent ((fail_draped _).trans added)
              · exact silent ((goto_draped _ _).trans added)
          · exact silent ((goto_draped _ _).trans added)
      · exact silent (fail_draped why)
    · split
      · exact silent rfl
      · split
        · exact silent (fail_draped _)
        · exact silent (goto_draped _ _)

/-- The end of a fit's read makes no drape call. -/
theorem fitReadDone_draped : (p.fitReadDone shapes a).draped = p.draped := by
  unfold Pipeline.fitReadDone
  split
  · rfl
  · split
    · exact fail_draped _
    · split
      · exact fail_draped _
      · exact goto_draped _ _

/-- The calls of a frame in `FIT_READ`. -/
theorem fitRead_calls (at_state : p.state = .fitRead) :
    ∃ calls, (p.fitRead shapes a).draped = p.draped ++ calls ∧ FrameCalls shapes p calls := by
  unfold Pipeline.fitRead
  split
  next avbd =>
    dsimp only [callDrape]
    exact ⟨_, fitReadDone_draped, .fitRead at_state avbd⟩
  next solver =>
    have silent {q : Pipeline R} (same : q.draped = p.draped) :
        ∃ calls, q.draped = p.draped ++ calls ∧ FrameCalls shapes p calls :=
      ⟨[], by rw [same, List.append_nil], .none fun _ => by simpa using solver⟩
    split
    · exact silent fitReadDone_draped
    · split
      · exact silent (fail_draped _)
      · exact silent fitReadDone_draped

/-- The setup of a drape sets `gravityY` alone. -/
theorem drapeSetup_only (opts : Options) (data : Collected R) (garment : Garment R) :
    ∀ made ∈ drapeSetup shapes opts data garment, DrapeStage.SetsGravity made := by
  intro made member
  unfold drapeSetup drapeBodies at member
  dsimp only at member
  generalize (if opts.flag "drape_capsules".toList = true then opts.text "drape_body".toList
    else "none".toList) = kind at member
  simp only [List.mem_append, List.mem_cons, List.not_mem_nil, or_false] at member
  rcases member with ((rfl | rfl) | body) | rfl | rfl
  · trivial
  · trivial
  · rcases body with body | body
    · split at body
      · cases List.mem_singleton.1 body
        trivial
      · cases body
    · split at body
      · obtain ⟨shape, -, rfl⟩ := List.mem_map.1 body
        trivial
      · cases body
  · rfl
  · trivial

/-- The calls of a frame in `DRAPE`. -/
theorem drape_calls (at_state : p.state = .drape) :
    ∃ calls, (p.drape shapes a).draped = p.draped ++ calls ∧ FrameCalls shapes p calls := by
  have silent {q : Pipeline R} (same : q.draped = p.draped) :
      ∃ calls, q.draped = p.draped ++ calls ∧ FrameCalls shapes p calls :=
    ⟨[], by rw [same, List.append_nil], .none (by rw [at_state]; nofun)⟩
  unfold Pipeline.drape
  dsimp only
  generalize (if a.drape.missing ≠ [] then a.drape.missing else a.drape.apiMissing) = missing
  rcases mode_turn p a.clock "drape".toList missing with mode | mode | ⟨why, mode⟩ <;>
    rw [mode] <;> dsimp only
  · split
    · exact silent rfl
    next garment _ =>
      rw [if_neg nofun]
      have only := @drapeSetup_only R shapes p.opts p.data garment
      unfold callDrape
      dsimp only
      split
      · exact ⟨_, fail_draped _, .drape at_state _ only⟩
      · have more : ∀ made ∈ drapeSetup shapes p.opts p.data garment
            ++ [.queueForward (p.opts.number "drape_steps".toList)],
            DrapeStage.SetsGravity made := by
          intro made member
          rcases List.mem_append.1 member with setup | forward
          · exact only made setup
          · cases List.mem_singleton.1 forward
            trivial
        refine ⟨_, ?_, .drape at_state _ more⟩
        rw [← List.append_assoc]
        split
        · exact fail_draped _
        · exact goto_draped _ _
  · have added := @addFixture_draped R p "drape".toList
    split
    · exact silent added
    · rw [if_pos rfl]
      exact silent ((goto_draped _ _).trans added)
  · exact silent (fail_draped why)

/-- A frame in `FIT_BEGIN` is that phase's. -/
theorem process_of_fitBegin (at_state : p.state = .fitBegin) : p.process shapes a
    = Pipeline.fitBegin shapes { p with frames := p.frames + 1, first := false } a p.first := by
  unfold Pipeline.process
  rw [if_neg (by rw [at_state]; nofun)]
  dsimp only
  rw [at_state]

/-- A frame in `FIT_READ` is that phase's. -/
theorem process_of_fitRead (at_state : p.state = .fitRead) : p.process shapes a
    = Pipeline.fitRead shapes { p with frames := p.frames + 1, first := false } a := by
  unfold Pipeline.process
  rw [if_neg (by rw [at_state]; nofun)]
  dsimp only
  rw [at_state]

/-- The calls of a frame, from whatever state it meets. -/
theorem process_calls (good : Good p) :
    ∃ calls, (p.process shapes a).draped = p.draped ++ calls ∧ FrameCalls shapes p calls := by
  cases calls : calling p.state with
  | false =>
    refine ⟨[], ?_, .none fun at_state => ?_⟩
    · rw [process_draped good calls, List.append_nil]
    · rw [at_state] at calls
      cases calls
  | true =>
    have at_state : p.state = .fitBegin ∨ p.state = .fitRead ∨ p.state = .drape := by
      generalize p.state = here at calls ⊢
      cases here <;> first | (cases calls; done) | decide
    suffices handled : ∃ calls, (p.process shapes a).draped = p.draped ++ calls ∧
        FrameCalls shapes { p with frames := p.frames + 1, first := false } calls by
      obtain ⟨calls, made, frame⟩ := handled
      exact ⟨calls, made, frame.of_met rfl rfl⟩
    rcases at_state with at_state | at_state | at_state
    · rw [process_of_fitBegin at_state]
      exact fitBegin_calls (by exact at_state) p.first
    · rw [process_of_fitRead at_state]
      exact fitRead_calls (by exact at_state)
    · rw [process_of_drape at_state]
      exact drape_calls (by exact at_state)

end Pipeline

/-! ### What a session keeps -/

namespace Session

variable {floats : Floats R} {s : Session R} {o : Outcome R}

/-- The configuration and the scene stay. -/
structure SameScene (s after : Session R) : Prop where
  cfg : after.cfg = s.cfg
  scene : after.scene = s.scene

/-- The scene stays the same over two steps. -/
theorem SameScene.trans {first second third : Session R} (one : SameScene first second)
    (other : SameScene second third) : SameScene first third :=
  ⟨other.cfg.trans one.cfg, other.scene.trans one.scene⟩

/-- A submitted scan keeps the scene. -/
theorem submitScan_sameScene : SameScene s (s.submitScan o) := by
  unfold submitScan
  dsimp only
  split <;> exact ⟨rfl, rfl⟩

/-- A step keeps the scene. -/
theorem advance_sameScene : SameScene s (s.advance floats o).1 := by
  unfold advance
  split
  · unfold begin_
    dsimp only
    split <;> exact ⟨rfl, rfl⟩
  · unfold solved
    have read : SameScene s ((s.readPositions floats o).respond floats o) := by
      unfold readPositions respond
      dsimp only
      split <;> split <;> exact ⟨rfl, rfl⟩
    dsimp only
    generalize (s.readPositions floats o).respond floats o = after at read ⊢
    split
    · have rewound : SameScene after { after with pass := 0 } := ⟨rfl, rfl⟩
      exact (read.trans rewound).trans submitScan_sameScene
    · exact read.trans ⟨rfl, rfl⟩
  · unfold scanned
    dsimp only
    split
    · exact SameScene.trans (by exact ⟨rfl, rfl⟩) submitScan_sameScene
    · exact ⟨rfl, rfl⟩

/-- A stage of a forward keeps the scene. -/
theorem forwardStage_sameScene : SameScene s (s.forwardStage floats o) := by
  unfold forwardStage
  have ends {after : Session R} (kept : SameScene s after) : SameScene s
      (if 0 < after.fwdRemaining ∧ after.failed = false then
        { after with queue := .forwardStage :: after.queue, total := after.total + 1 }
      else after.finishForward floats o) := by
    split
    · exact kept.trans ⟨rfl, rfl⟩
    · exact kept.trans ⟨rfl, rfl⟩
  apply ends
  split
  · have advanced := @advance_sameScene R floats s o
    generalize s.advance floats o = step at advanced ⊢
    obtain ⟨after, complete⟩ := step
    cases complete <;> exact ⟨advanced.cfg, advanced.scene⟩
  · exact ⟨rfl, rfl⟩

/-- A stage of a fit keeps the scene. -/
theorem fitStage_sameScene : SameScene s (s.fitStage o) := by
  unfold fitStage
  split <;> exact ⟨rfl, rfl⟩

/-- A call taken from the queue keeps the scene. -/
theorem ran_sameScene (next : Queued R) (rest : List (Queued R)) :
    SameScene s (s.ran floats o next rest) := by
  have staged : SameScene s (({ s with queue := rest } : Session R).stage floats o next) := by
    unfold stage
    split
    · exact SameScene.trans (by exact ⟨rfl, rfl⟩) forwardStage_sameScene
    · exact SameScene.trans (by exact ⟨rfl, rfl⟩) forwardStage_sameScene
    · split
      · exact ⟨rfl, rfl⟩
      · exact SameScene.trans (by exact ⟨rfl, rfl⟩) fitStage_sameScene
    · exact SameScene.trans (by exact ⟨rfl, rfl⟩) fitStage_sameScene
  exact staged.trans ⟨rfl, rfl⟩

/-- Whatever stages run in a tick, the session keeps its configuration and its scene. -/
theorem tick_sameScene (outcomes : List (Outcome R)) : SameScene s (s.tick floats outcomes) := by
  induction outcomes generalizing s with
  | nil => exact ⟨rfl, rfl⟩
  | cons o later inductionHypothesis =>
    unfold tick
    split
    · exact ⟨rfl, rfl⟩
    next next rest _ =>
      split
      · exact ran_sameScene next rest
      · exact (ran_sameScene next rest).trans inductionHypothesis

end Session

/-! ### Every run -/

/-- The primitives of a run's body. -/
def colliders (shapes : Shapes R) (opts : Options) (data : Collected R) : List (Primitive R) :=
  (Pipeline.drapeBodies shapes opts data).foldl (DrapeStage.collided shapes) []

/-- The calls of a frame settle the configuration. -/
theorem Settled.frame {p : Pipeline R} {calls : List (DrapeCall R)} {cfg : Config R} {left : Bool}
    (settled : Settled shapes.floats left cfg) (frame : p.FrameCalls shapes calls) :
    Settled shapes.floats (calls.foldl leave left)
      (calls.foldl (DrapeStage.configured shapes) cfg) := by
  cases frame with
  | none _ => exact settled
  | fitBegin _ _ opts garmentV bodyV triangles fitVerts anchor bodyF =>
    exact settled.fitStart opts garmentV bodyV triangles fitVerts anchor bodyF _ _
  | fitRead _ _ => exact settled.fitRestore
  | drape _ calls only =>
    rw [leave_of_setsGravity only]
    exact settled.calls only

/-- Two settled configurations with one `gravityY` differ by the settings of a fit alone. -/
theorem Settled.eq_iff {floats : Floats R} {left left' : Bool} {cfg cfg' : Config R}
    (settled : Settled floats left cfg) (settled' : Settled floats left' cfg')
    (gravity : cfg "gravityY".toList = cfg' "gravityY".toList) : cfg = cfg' ↔ left = left' := by
  constructor
  · intro same
    have iters := settled.iters
    rw [same, settled'.iters] at iters
    cases left <;> cases left' <;> first | rfl | (cases iters)
  · rintro rfl
    funext key
    by_cases own : key ∈ ["iters".toList, "h".toList, "gravityY".toList]
    · simp only [List.mem_cons, List.not_mem_nil, or_false] at own
      rcases own with rfl | rfl | rfl
      · exact settled.iters.trans settled'.iters.symm
      · exact settled.h.trans settled'.h.symm
      · exact gravity
    · exact (settled.others key own).trans (settled'.others key own).symm

namespace DrapeStage

variable {stage : DrapeStage R} {opts : Options} {data : Collected R} {garment : Garment R}

/-- Behind a setup that is not refused, `gravityY` is the run's and the primitives are its body. -/
theorem front_of_setup (taken : Pipeline.refused
      ((List.range (Pipeline.drapeSetup shapes opts data garment).length).map fun n =>
        stage.answer shapes below ((Pipeline.drapeSetup shapes opts data garment).take (n + 1)))
      = none) :
    (stage.after shapes below (drapeFront shapes opts data)).guest.cfg "gravityY".toList
        = some (.number (shapes.floats.ofRat (-(98 / 10) * opts.number "drape_scale".toList))) ∧
      (stage.after shapes below (drapeFront shapes opts data)).guest.scene.prims
        = colliders shapes opts data := by
  constructor
  · have takes : taking "gravityY".toList = some .number := by decide
    rw [after_cfg, drapeFront, List.foldl_append]
    dsimp only [List.foldl_cons, List.foldl_nil, configured]
    rw [Config.set_number _ _ takes]
    exact Config.put_self _ _ _
  · have only : ∀ made ∈ drapeFront shapes opts data, SetsGravity made := fun made member =>
      Pipeline.drapeSetup_only opts data garment made
        (by rw [drapeSetup_eq]; exact List.mem_append_left _ member)
    rw [after_prims only fun n short => ?_, drapeFront, List.foldl_append, List.foldl_append]
    · rfl
    · have early := (taken_of_not_refused taken (List.mem_map.2
        ⟨n, List.mem_range.2 (by rw [drapeSetup_eq, List.length_append]; omega), rfl⟩)).1
      rwa [drapeSetup_eq, List.take_append_of_le_length short] at early

end DrapeStage

namespace World

variable {w : World R}

/-- What a run in `DRAPE_COLLECT` executes its forward with. -/
structure Executing (shapes : Shapes R) (w : World R) : Prop where
  garment : ∃ garment, w.pipeline.data.garment = some garment
  gravity : w.stage.guest.cfg "gravityY".toList = some (.number
    (shapes.floats.ofRat (-(98 / 10) * w.pipeline.opts.number "drape_scale".toList)))
  session : ∃ s, w.stage.guest.session = some s ∧ s.cfg = w.stage.guest.cfg ∧
    s.scene.prims = colliders shapes w.pipeline.opts w.pipeline.data

/-- What everything that happens keeps. -/
structure Known (shapes : Shapes R) (w : World R) : Prop where
  good : w.pipeline.Good
  settled : Settled shapes.floats (unrestored w.pipeline.draped) w.stage.guest.cfg
  executing : w.pipeline.state = .drapeCollect → Executing shapes w

/-- After boot everything is known. -/
theorem known_booted : Known shapes (booted shapes) :=
  ⟨Pipeline.good_fresh, .initial shapes.floats, nofun⟩

/-- A frame of the stage changes no setting and no primitive. -/
theorem Known.stage (known : Known shapes w) (outcomes : List (Outcome R)) :
    Known shapes (w.step shapes (.stage outcomes)) := by
  have kept : (w.stage.process shapes outcomes).guest.cfg = w.stage.guest.cfg ∧
      ∀ s, w.stage.guest.session = some s →
        ∃ after, (w.stage.process shapes outcomes).guest.session = some after ∧
          s.SameScene after := by
    unfold DrapeStage.process
    split
    · exact ⟨rfl, fun s session => ⟨s, session, rfl, rfl⟩⟩
    · unfold Guest.drapeTick
      cases session : w.stage.guest.session with
      | none => exact ⟨rfl, nofun⟩
      | some s =>
        refine ⟨rfl, fun other same => ⟨_, rfl, ?_⟩⟩
        cases same
        exact Session.tick_sameScene outcomes
  refine ⟨known.good, ?_, fun at_state => ?_⟩
  · show Settled _ _ (w.stage.process shapes outcomes).guest.cfg
    rw [kept.1]
    exact known.settled
  · obtain ⟨garment, gravity, s, session, cfg, prims⟩ := known.executing at_state
    obtain ⟨after, ticked, same⟩ := kept.2 s session
    exact ⟨garment, (congrFun kept.1 _).trans gravity, after, ticked,
      (same.cfg.trans cfg).trans kept.1.symm, (congrArg Scene.prims same.scene).trans prims⟩

/-- A start makes no drape call. -/
theorem start_draped {p : Pipeline R} (clock : Clock) (workerBusy : Bool) (given : Options) :
    (p.start clock workerBusy given).1.draped = p.draped := by
  unfold Pipeline.start
  split
  · rfl
  · split
    · rfl
    · dsimp only
      split
      · rfl
      · split
        · rfl
        · split
          · rfl
          · exact Pipeline.goto_draped _ _

/-- A run that enters `DRAPE_COLLECT` executes its forward with the guest's configuration, its own
`gravityY` and its own body. -/
theorem executing_of_queued {a : Answers R} {garment : Garment R}
    (queued : Pipeline.QueuedDrape shapes w.pipeline (w.answered shapes below a) garment
      (w.pipeline.process shapes (w.answered shapes below a))) :
    Executing shapes (w.step shapes (.host (.frame a) below)) := by
  obtain ⟨s, loaded, stage⟩ := step_stage_of_queued queued
  obtain ⟨-, -, cfg, prims, -⟩ := DrapeStage.loaded_of_setup queued.taken
  obtain ⟨gravity, bodies⟩ := DrapeStage.front_of_setup queued.taken
  have opts : (w.step shapes (.host (.frame a) below)).pipeline.opts = w.pipeline.opts :=
    queued.opts
  have data : (w.step shapes (.host (.frame a) below)).pipeline.data = w.pipeline.data :=
    queued.data
  constructor
  · exact ⟨garment, (congrArg Collected.garment data).trans queued.found⟩
  · rw [stage, opts]
    exact (congrFun cfg _).trans gravity
  · rw [stage, opts, data]
    refine ⟨_, rfl, loaded.cfg, ?_⟩
    exact (congrArg Scene.prims loaded.scene).trans (prims.trans bodies)

/-- An event that neither calls the stage nor changes a run in `DRAPE_COLLECT`. -/
theorem Executing.stays (executing : Executing shapes w) {event : Pipeline.Event R}
    (collected : Pipeline.CollectKept w.pipeline
      (w.pipeline.step shapes (w.heard shapes below event))) :
    Executing shapes (w.step shapes (.host event below)) := by
  obtain ⟨⟨garment, found⟩, gravity, s, session, cfg, prims⟩ := executing
  have opts : (w.step shapes (.host event below)).pipeline.opts = w.pipeline.opts := collected.opts
  have bodies : colliders shapes (w.step shapes (.host event below)).pipeline.opts
      (w.step shapes (.host event below)).pipeline.data
      = colliders shapes w.pipeline.opts w.pipeline.data :=
    congrArg (List.foldl _ []) (collected.bodies shapes)
  constructor
  · exact ⟨garment, collected.garment.trans found⟩
  · rw [step_stage_of_draped collected.draped, opts]
    exact gravity
  · rw [step_stage_of_draped collected.draped, bodies]
    exact ⟨s, session, cfg, prims⟩

/-- What a list of calls leaves unrestored is decided call after call. -/
theorem unrestored_append (calls made : List (DrapeCall R)) :
    unrestored (calls ++ made) = made.foldl leave (unrestored calls) :=
  List.foldl_append

/-- Whatever happens in the pipeline keeps the configuration settled. -/
theorem Known.host (known : Known shapes w) (event : Pipeline.Event R) (below : Outside R) :
    Known shapes (w.step shapes (.host event below)) where
  good := known.good.step _
  settled := by
    have silent (same : (w.pipeline.step shapes (w.heard shapes below event)).draped
        = w.pipeline.draped) :
        Settled shapes.floats (unrestored (w.step shapes (.host event below)).pipeline.draped)
          (w.step shapes (.host event below)).stage.guest.cfg := by
      rw [step_stage_of_draped same]
      exact (congrArg unrestored same).symm ▸ known.settled
    cases event with
    | start clock workerBusy given => exact silent (start_draped clock workerBusy given)
    | penEvent event => exact silent rfl
    | penFinish => exact silent rfl
    | frame a =>
      obtain ⟨calls, made, frame⟩ :=
        @Pipeline.process_calls R shapes w.pipeline (w.answered shapes below a) known.good
      have draped : (w.step shapes (.host (.frame a) below)).pipeline.draped
          = w.pipeline.draped ++ calls := made
      rw [@step_stage R shapes below w (.frame a) calls made, draped, unrestored_append,
        DrapeStage.after_cfg]
      exact known.settled.frame frame
  executing at_state := by
    have found (at_state : w.pipeline.state = .drapeCollect) :=
      (known.executing at_state).garment
    rcases collect_of_step known.good found at_state with ⟨before, kept⟩ | ⟨a, garment, rfl, queued⟩
    · exact (known.executing before).stays kept
    · exact executing_of_queued queued

/-- A happening keeps everything known. -/
theorem Known.step (known : Known shapes w) (happening : Happening R) :
    Known shapes (w.step shapes happening) := by
  cases happening with
  | host event below => exact known.host event below
  | stage outcomes => exact known.stage outcomes

/-- After any happenings everything is known. -/
theorem known_of_happenings (shapes : Shapes R) (happenings : List (Happening R)) :
    Known shapes (happenings.foldl (World.step shapes) (booted shapes)) := by
  suffices run : ∀ w : World R, Known shapes w →
      Known shapes (happenings.foldl (World.step shapes) w) from run _ known_booted
  induction happenings with
  | nil => exact fun w known => known
  | cons happening rest inductionHypothesis =>
    exact fun w known => inductionHypothesis _ (known.step happening)

/-! ### One run -/

/-- The states of a run behind its fit. -/
def fitted : State → Bool
  | .check | .drape | .drapeCollect => true
  | _ => false

/-- What holds since a run began with these options, and with the settings of a fit left or not. -/
structure Since (shapes : Shapes R) (opts : Options) (left : Bool) (w : World R) : Prop where
  known : Known shapes w
  opts : w.pipeline.opts = opts
  solver : w.pipeline.opts.avbd = false → unrestored w.pipeline.draped = left
  avbd : w.pipeline.opts.avbd = true → fitted w.pipeline.state = true →
    unrestored w.pipeline.draped = false

/-- A run that fits with the drape solver comes behind its fit with the settings given back. -/
theorem Since.frame {left : Bool} {opts : Options} (since : Since shapes opts left w)
    (a : Answers R) (below : Outside R) :
    Since shapes opts left (w.step shapes (.host (.frame a) below)) := by
  have good := since.known.good
  obtain ⟨calls, made, frame⟩ :=
    @Pipeline.process_calls R shapes w.pipeline (w.answered shapes below a) good
  have draped : (w.step shapes (.host (.frame a) below)).pipeline.draped
      = w.pipeline.draped ++ calls := made
  have same : (w.step shapes (.host (.frame a) below)).pipeline.opts = w.pipeline.opts :=
    Pipeline.process_opts good
  refine ⟨since.known.host _ below, same.trans since.opts, fun solver => ?_, fun avbd later => ?_⟩
  · rw [same] at solver
    rw [draped, unrestored_append, ← since.solver solver]
    cases frame with
    | none _ => rfl
    | fitBegin _ avbd => cases solver.symm.trans avbd
    | fitRead _ avbd => cases solver.symm.trans avbd
    | drape _ calls only => exact leave_of_setsGravity only
  · rw [same] at avbd
    rw [draped, unrestored_append]
    have came : fitted w.pipeline.state = true ∨ w.pipeline.state = .fitRead := by
      by_cases before : w.pipeline.state = (w.step shapes (.host (.frame a) below)).pipeline.state
      · exact Or.inl (before ▸ later)
      · have running : (w.step shapes (.host (.frame a) below)).pipeline.state.terminal = false := by
          generalize (w.step shapes (.host (.frame a) below)).pipeline.state = here at later
          cases here <;> first | rfl | cases later
        obtain ⟨q, may⟩ := Pipeline.next_of_process good running before rfl
        generalize w.pipeline.state = here at may ⊢
        generalize (w.step shapes (.host (.frame a) below)).pipeline.state = next at may later
        cases may with
        | check => exact Or.inr rfl
        | drape _ => exact Or.inl rfl
        | drapeCollect => exact Or.inl rfl
        | _ => cases later
    cases frame with
    | none silent =>
      rcases came with later | at_state
      · exact since.avbd avbd later
      · cases avbd.symm.trans (silent at_state)
    | fitBegin at_state _ =>
      rw [at_state] at came
      rcases came with later | other
      · cases later
      · cases other
    | fitRead _ _ => rfl
    | drape at_state calls only =>
      rw [leave_of_setsGravity only]
      exact since.avbd avbd (by rw [at_state]; rfl)

/-- A happening keeps what is known since the last start. -/
theorem Since.step {left : Bool} {opts : Options} (since : Since shapes opts left w)
    (happening : Happening R) (running : w.pipeline.state.terminal = false) :
    Since shapes opts left (w.step shapes happening) := by
  have known := since.known.step happening
  cases happening with
  | stage outcomes => exact ⟨known, since.opts, since.solver, since.avbd⟩
  | host event below =>
    cases event with
    | start clock workerBusy given =>
      have busy : w.pipeline.start clock workerBusy given = (w.pipeline, .busy) := by
        unfold Pipeline.start
        exact if_pos running
      have same : (w.step shapes (.host (.start clock workerBusy given) below)).pipeline
          = w.pipeline := congrArg Prod.fst busy
      refine ⟨known, ?_, ?_, ?_⟩
      · rw [same]
        exact since.opts
      · rw [same]
        exact since.solver
      · rw [same]
        exact since.avbd
    | frame a => exact since.frame a below
    | penEvent event => exact ⟨known, since.opts, since.solver, since.avbd⟩
    | penFinish => exact ⟨known, since.opts, since.solver, since.avbd⟩

/-- What the forward of a run executes with. -/
def forwardWith (w : World R) : Option (Config R × List (Primitive R)) :=
  w.stage.guest.session.map fun s => (s.cfg, s.scene.prims)

end World

/-- A run behind other runs: what happened before it, its start, and what happened since. -/
structure Run (R : Type) where
  before : List (Happening R)
  clock : Clock
  workerBusy : Bool
  given : Options
  below : Outside R
  rest : List (Happening R)

namespace Run

/-- The world that the run is started in. -/
def begun (shapes : Shapes R) (run : Run R) : World R :=
  run.before.foldl (World.step shapes) (World.booted shapes)

/-- The world with the run just started. -/
def started (shapes : Shapes R) (run : Run R) : World R :=
  (run.begun shapes).step shapes (.host (.start run.clock run.workerBusy run.given) run.below)

/-- The world that the run has come to. -/
def last (shapes : Shapes R) (run : Run R) : World R :=
  run.rest.foldl (World.step shapes) (run.started shapes)

/-- The run is let in, and comes to `DRAPE_COLLECT` before it ends. -/
structure Drapes (shapes : Shapes R) (run : Run R) : Prop where
  letIn : ((run.begun shapes).pipeline.start run.clock run.workerBusy run.given).2 = .started
  running : Along (World.step shapes) (fun w _ => w.pipeline.state.terminal = false)
    (run.started shapes) run.rest
  collecting : (run.last shapes).pipeline.state = .drapeCollect

/-- Two runs have the same options, the same body and skeleton, and the same garment. -/
structure SameInputs (p q : Pipeline R) : Prop where
  opts : q.opts = p.opts
  bodyV : q.data.bodyV = p.data.bodyV
  bodyF : q.data.bodyF = p.data.bodyF
  joints : q.data.joints = p.data.joints
  bones : q.data.bones = p.data.bones
  garment : q.data.garment = p.data.garment

variable {run other : Run R}

/-- What holds where a run is in `DRAPE_COLLECT`. -/
theorem since_of_drapes (drapes : run.Drapes shapes) :
    ∃ opts, Pipeline.listed run.given = some opts ∧
      World.Since shapes opts (unrestored (run.begun shapes).pipeline.draped)
        (run.last shapes) := by
  obtain ⟨opts, lists, goes⟩ := Pipeline.goes_of_started drapes.letIn
  have goes : (run.started shapes).pipeline
      = ((run.begun shapes).pipeline.cleared run.clock opts).goto run.clock .infer [] := goes
  refine ⟨opts, lists, drapes.running.invariant
    (fun w happening since running => since.step happening running) ?_⟩
  have known := World.known_of_happenings shapes run.before
  refine ⟨known.step _, ?_, fun _ => ?_, fun _ later => ?_⟩
  · rw [goes, Pipeline.goto_opts]
    rfl
  · rw [goes, Pipeline.goto_draped]
    rfl
  · rw [goes, Pipeline.goto_state] at later
    split at later <;> cases later

/-- The same inputs make the same primitives. -/
theorem SameInputs.colliders {p q : Pipeline R} (same : SameInputs p q) :
    colliders shapes q.opts q.data = colliders shapes p.opts p.data := by
  unfold Host.colliders Pipeline.drapeBodies
  rw [same.opts, same.bodyV, same.bodyF, same.joints, same.bones]

/-- Two runs with the same inputs drape with one configuration and with the same primitives exactly
where they fit with the drape solver, or both or neither find the settings of a fit left. -/
theorem forward_same_iff (shapes : Shapes R) (run other : Run R) (drapes : run.Drapes shapes)
    (drapes' : other.Drapes shapes)
    (same : SameInputs (run.last shapes).pipeline (other.last shapes).pipeline) :
    (run.last shapes).forwardWith = (other.last shapes).forwardWith ↔
      (run.last shapes).pipeline.opts.avbd = true ∨
        unrestored (run.begun shapes).pipeline.draped
          = unrestored (other.begun shapes).pipeline.draped := by
  obtain ⟨opts, -, since⟩ := since_of_drapes drapes
  obtain ⟨opts', -, since'⟩ := since_of_drapes drapes'
  obtain ⟨-, gravity, s, session, cfg, prims⟩ := since.known.executing drapes.collecting
  obtain ⟨-, gravity', s', session', cfg', prims'⟩ := since'.known.executing drapes'.collecting
  rw [same.opts] at gravity'
  rw [same.colliders] at prims'
  have with_cfg : (run.last shapes).forwardWith = (other.last shapes).forwardWith ↔
      (run.last shapes).stage.guest.cfg = (other.last shapes).stage.guest.cfg := by
    unfold World.forwardWith
    rw [session, session', Option.map_some, Option.map_some, Option.some_inj, Prod.mk.injEq, prims,
      prims', cfg, cfg']
    exact and_iff_left rfl
  rw [with_cfg, since.known.settled.eq_iff since'.known.settled (gravity.trans gravity'.symm)]
  cases avbd : (run.last shapes).pipeline.opts.avbd with
  | true =>
    have restored := since.avbd avbd (by rw [drapes.collecting]; rfl)
    have restored' := since'.avbd (by rw [same.opts]; exact avbd)
      (by rw [drapes'.collecting]; rfl)
    exact ⟨fun _ => Or.inl rfl, fun _ => restored.trans restored'.symm⟩
  | false =>
    rw [since.solver avbd, since'.solver (by rw [same.opts]; exact avbd)]
    exact ⟨Or.inr, fun left => left.resolve_left nofun⟩

/-- A run with the solver's own fit fixture, behind what happened before. -/
def solverRun (before : List (Happening (Option ℚ))) : Run (Option ℚ) where
  before := before
  clock := ⟨0, 0, 0⟩
  workerBusy := false
  given := fixtures "polyfem".toList
  below := bare
  rest := List.replicate 8 quietFrame

/-- A stage that ends a fit without one. -/
def diverges : Outcome (Option ℚ) where
  runs := true
  readback := corner
  contacts := []
  scans := true
  pushes := []
  pending := false
  fitted := some ("FAIL fit: diverged".toList, corner)
  figures := []

/-- A run whose fit fails in the drape solver. -/
def failedFit : List (Happening (Option ℚ)) :=
  quietStart "avbd".toList :: List.replicate 5 quietFrame ++ [.stage [diverges], quietFrame]

/-- The options of a run are those of its start. -/
theorem opts_of_drapes (drapes : run.Drapes shapes) :
    Pipeline.listed run.given = some (run.last shapes).pipeline.opts := by
  obtain ⟨opts, lists, since⟩ := since_of_drapes drapes
  rw [lists, since.opts]

/-- The first run comes to its drape. -/
theorem drapes_fresh : (solverRun []).Drapes plain :=
  ⟨by decide +kernel, by decide +kernel, by decide +kernel⟩

/-- The run behind a failed fit comes to its drape. -/
theorem drapes_failedFit : (solverRun failedFit).Drapes plain :=
  ⟨by decide +kernel, by decide +kernel, by decide +kernel⟩

/-- Runs that are started with the same options have them. -/
theorem same_opts (drapes : run.Drapes shapes) (drapes' : other.Drapes shapes)
    (given : other.given = run.given) :
    (other.last shapes).pipeline.opts = (run.last shapes).pipeline.opts := by
  have opts := opts_of_drapes drapes'
  rw [given, opts_of_drapes drapes] at opts
  exact (Option.some.inj opts).symm

/-- Both runs have the same inputs. -/
theorem same_data : ((solverRun failedFit).last plain).pipeline.data
    = ((solverRun []).last plain).pipeline.data := by
  decide +kernel

/-- The runs of this host have one garment on one body. -/
theorem same_inputs : SameInputs ((solverRun []).last plain).pipeline
    ((solverRun failedFit).last plain).pipeline := by
  refine ⟨same_opts drapes_fresh drapes_failedFit rfl, ?_, ?_, ?_, ?_, ?_⟩ <;> rw [same_data]

/-- A run of the solver's fit, with nothing before it and behind a failed fit. -/
theorem forward_same_iff_failedFit :
    ((solverRun []).last plain).forwardWith = ((solverRun failedFit).last plain).forwardWith ↔
      ((solverRun []).last plain).pipeline.opts.avbd = true ∨
        unrestored ((solverRun []).begun plain).pipeline.draped
          = unrestored ((solverRun failedFit).begun plain).pipeline.draped :=
  forward_same_iff plain _ _ drapes_fresh drapes_failedFit same_inputs

/-- Behind a fit that failed in the drape solver, the same run drapes with other `iters`. -/
theorem failed_fit_leaks :
    ¬ ∀ run other : Run (Option ℚ), run.Drapes plain → other.Drapes plain →
      SameInputs (run.last plain).pipeline (other.last plain).pipeline →
      (run.last plain).forwardWith = (other.last plain).forwardWith := by
  intro forward_same
  have same := forward_same _ _ drapes_fresh drapes_failedFit same_inputs
  have iters := congrArg (Option.map fun forward => forward.1 "iters".toList) same
  revert iters
  decide +kernel

end Run

end DressOn.Host
