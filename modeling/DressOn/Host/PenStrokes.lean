import DressOn.Host.PenBridge
import DressOn.Host.World
import DressOn.Host.Starts
import DressOn.Lib.Runs
import DressOn.Lib.Spans

/-!
# Whole strokes

What the authoring stage gets from the pen bridge. The bridge keeps what it saw of a tool in the
last frame: it sends whole strokes as long as a run starts with no tool held, and no tool is active
behind the end of the pens.
-/

namespace DressOn.Host

open DressOn.Texts DressOn.Runs DressOn.Spans

variable {R : Type} {shapes : Shapes R}

/-! ### What the pipeline does with the pens -/

namespace Pipeline

variable {p q : Pipeline R} {a : Answers R} {clock : Clock}

/-- `_goto` keeps the pen events. -/
theorem goto_pens (next : State) (note : Text) : (p.goto clock next note).pens = p.pens := by
  unfold goto closeRecord
  dsimp only
  split <;> split <;> rfl

/-- The strokes that are received are those of the pen events. -/
theorem received_of_pens (same : q.pens = p.pens) : q.received = p.received :=
  congrArg (fun pens => pens.2.2.1) same

/-- Whether the strokes are built is told by the pen events. -/
theorem built_of_pens (same : q.pens = p.pens) : q.built = p.built :=
  congrArg (fun pens => pens.2.2.2) same

/-- `_goto` keeps where the pen comes from. -/
theorem goto_external (next : State) (note : Text) :
    (p.goto clock next note).penExternal = p.penExternal := by
  unfold goto closeRecord
  dsimp only
  split <;> split <;> rfl

/-- The frame after `_goto` is the first of its phase. -/
theorem goto_first (next : State) (note : Text) : (p.goto clock next note).first = true := rfl

/-- A failure keeps the pen events. -/
theorem fail_pens (why : Text) : (p.fail clock why).pens = p.pens := goto_pens _ _

/-- Outside of `AUTHOR`, a frame leaves the pens alone. -/
theorem process_pens (good : Good p) (outside : p.state ≠ .author) :
    (p.process shapes a).pens = p.pens := by
  have turn : Turn p (p.process shapes a) := process_turn p a good.noted
  generalize p.process shapes a = q at turn
  cases turn with
  | stays _ kept => exact kept.pens.resolve_left outside
  | fails q kept clock why => exact (fail_pens why).trans (kept.pens.resolve_left outside)
  | goes q kept clock here next note at_state may =>
    exact (goto_pens next note).trans (kept.pens.resolve_left outside)

/-- A frame keeps where the pen comes from. -/
theorem process_external (good : Good p) :
    (p.process shapes a).penExternal = p.penExternal := by
  have turn : Turn p (p.process shapes a) := process_turn p a good.noted
  generalize p.process shapes a = q at turn
  cases turn with
  | stays _ kept => exact kept.external
  | fails q kept clock why => exact (goto_external _ _).trans kept.external
  | goes q kept clock here next note at_state may => exact (goto_external _ _).trans kept.external

/-- A state that was just entered waits for its first frame. -/
theorem first_of_process (good : Good p) (moved : p.state ≠ (p.process shapes a).state) :
    (p.process shapes a).first = true := by
  have turn : Turn p (p.process shapes a) := process_turn p a good.noted
  generalize p.process shapes a = q at turn moved
  cases turn with
  | stays _ kept => exact absurd kept.state.symm moved
  | fails q kept clock why => exact goto_first _ _
  | goes q kept clock here next note at_state may => exact goto_first _ _

/-- What a frame of `AUTHOR` does with the pens. -/
inductive AuthorFrame (p q : Pipeline R) : Prop where
  /-- The first frame skips the authoring, or fails. -/
  | leaves (first : p.first = true) (state : q.state ≠ .author)
      (received : q.received = p.received ∧ q.built = p.built ∨ q.received = [] ∧ q.built = false)
  /-- The first frame sets the authoring up. -/
  | begins (first : p.first = true) (state : q.state = .author) (later : q.first = false)
      (pens : q.pens = (p.penQueue, p.penFinished, [], false))
  /-- A frame hands events on. -/
  | draws (first : p.first = false) (state : q.state = .author) (later : q.first = false)
      (flow : q.received ++ q.penQueue = p.received ++ p.penQueue)
      (finished : q.penFinished = p.penFinished) (built : q.built = p.built)
  /-- The stage refuses one. -/
  | refused (first : p.first = false) (state : q.state ≠ .author)
      (flow : q.received <+: p.received ++ p.penQueue) (built : q.built = p.built)
  /-- The stage has them all and builds. -/
  | builds (first : p.first = false) (state : q.state ≠ .author)
      (flow : q.received = p.received ++ p.penQueue) (finished : p.penFinished = true)
      (built : q.built = true)

/-- A failure keeps the strokes that are received. -/
theorem fail_received (why : Text) : (p.fail clock why).received = p.received :=
  received_of_pens (fail_pens why)

/-- A failure keeps whether they are built. -/
theorem fail_built (why : Text) : (p.fail clock why).built = p.built :=
  built_of_pens (fail_pens why)

/-- What a loop over the events has handed on by its end, as far as it got. -/
structure Flowed (p : Pipeline R) (done : Pipeline R × Bool) : Prop where
  on : done.2 = true → done.1.received ++ done.1.penQueue = p.received ++ p.penQueue ∧
    done.1.state = .author ∧ done.1.first = p.first ∧ done.1.penFinished = p.penFinished
  off : done.2 = false →
    done.1.received <+: p.received ++ p.penQueue ∧ done.1.state = .failed
  built : done.1.built = p.built

/-- The events of a frame are handed on in their order. -/
theorem authorEvents_flowed (left n : Nat) (p : Pipeline R) (at_state : p.state = .author) :
    Flowed p (authorEvents a left n p) := by
  induction left generalizing n p with
  | zero => exact ⟨fun _ => ⟨rfl, at_state, rfl, rfl⟩, fun off => Bool.noConfusion off, rfl⟩
  | succ left inductionHypothesis =>
    rw [authorEvents]
    split
    · exact ⟨fun _ => ⟨rfl, at_state, rfl, rfl⟩, fun off => Bool.noConfusion off, rfl⟩
    next event later queue =>
      have again {q : Pipeline R} (state : q.state = .author)
          (flow : q.received ++ q.penQueue = p.received ++ p.penQueue) (first : q.first = p.first)
          (finished : q.penFinished = p.penFinished) (built : q.built = p.built) :
          Flowed p (authorEvents a left (n + 1) q) := by
        obtain ⟨on, off, same⟩ := inductionHypothesis (n + 1) q state
        rw [flow, first, finished] at on
        rw [flow] at off
        exact ⟨on, off, same.trans built⟩
      have refuses {q : Pipeline R} (seen : q.received <+: p.received ++ p.penQueue)
          (built : q.built = p.built) (why : Text) :
          Flowed p (q.fail a.clock why, false) := by
        refine ⟨fun on => Bool.noConfusion on, fun _ => ⟨?_, fail_state why⟩,
          (fail_built why).trans built⟩
        rw [fail_received]
        exact seen
      have handed : (p.received ++ [event]) ++ later = p.received ++ p.penQueue := by
        rw [queue, List.append_assoc]
        rfl
      have seen : p.received ++ [event] <+: p.received ++ p.penQueue := ⟨later, handed⟩
      dsimp only
      split
      · split
        · exact refuses (by exact List.prefix_append _ _) (by exact rfl) _
        · split
          · exact refuses (by exact seen) (by exact rfl) _
          · exact again at_state handed rfl rfl rfl
      · exact again at_state handed rfl rfl rfl
      · split
        · exact refuses (by exact seen) (by exact rfl) _
        · exact ⟨fun _ => ⟨handed, at_state, rfl, rfl⟩, fun off => Bool.noConfusion off, rfl⟩

/-- Where a handler of `AUTHOR` goes on, it does not come back. -/
theorem goto_leaves {next : State} (ne : next ≠ .author) (note : Text) :
    (p.goto clock next note).state ≠ .author := by
  rw [goto_state]
  split
  · nofun
  · exact ne

/-- A first frame in `AUTHOR` with an outer pen leaves the phase, or begins it with no stroke. -/
theorem authorFirst_frame (at_state : p.state = .author) (external : p.penExternal = true)
    (later : p.first = false) :
    ((p.authorFirst shapes a).state ≠ .author ∧
      ((p.authorFirst shapes a).received = p.received ∧
          (p.authorFirst shapes a).built = p.built ∨
        (p.authorFirst shapes a).received = [] ∧ (p.authorFirst shapes a).built = false)) ∨
    ((p.authorFirst shapes a).state = .author ∧ (p.authorFirst shapes a).first = false ∧
      (p.authorFirst shapes a).pens = (p.penQueue, p.penFinished, [], false)) := by
  have failed {q : Pipeline R} (why : Text)
      (kept : q.received = p.received ∧ q.built = p.built ∨ q.received = [] ∧ q.built = false) :
      (q.fail a.clock why).state ≠ .author ∧
        ((q.fail a.clock why).received = p.received ∧ (q.fail a.clock why).built = p.built ∨
          (q.fail a.clock why).received = [] ∧ (q.fail a.clock why).built = false) := by
    rw [fail_received, fail_built, fail_state]
    exact ⟨nofun, kept⟩
  unfold Pipeline.authorFirst
  rcases mode_turn p a.clock "curvenet".toList a.curvenet.missing with mode | mode | ⟨why, mode⟩ <;>
    rw [mode] <;> dsimp only
  · split
    · exact Or.inl (failed _ (Or.inl ⟨rfl, rfl⟩))
    · split
      · exact Or.inl (failed _ (Or.inr ⟨rfl, rfl⟩))
      · rw [if_neg fun scripted => Bool.noConfusion (external.symm.trans scripted.2)]
        exact Or.inr ⟨at_state, later, rfl⟩
  · have added : (p.addFixture "curvenet".toList).received = p.received ∧
        (p.addFixture "curvenet".toList).built = p.built := by
      unfold Pipeline.addFixture
      split <;> exact ⟨rfl, rfl⟩
    split
    · exact Or.inl (failed _ (Or.inl added))
    · exact Or.inl ⟨goto_leaves (by decide) _, Or.inl ⟨(received_of_pens (goto_pens _ _)).trans added.1,
        (built_of_pens (goto_pens _ _)).trans added.2⟩⟩
  · exact Or.inl (failed why (Or.inl ⟨rfl, rfl⟩))

/-- A frame in `AUTHOR` is that phase's. -/
theorem process_of_author (at_state : p.state = .author) : p.process shapes a
    = Pipeline.author shapes { p with frames := p.frames + 1, first := false } a p.first := by
  unfold Pipeline.process
  rw [if_neg (by rw [at_state]; nofun)]
  dsimp only
  rw [at_state]

/-- What a frame in `AUTHOR` with an outer pen does. -/
theorem author_frame (at_state : p.state = .author) (external : p.penExternal = true) :
    AuthorFrame p (p.process shapes a) := by
  rw [process_of_author at_state]
  cases first : p.first with
  | true =>
    have set_up := @authorFirst_frame R shapes { p with frames := p.frames + 1, first := false } a
      at_state external rfl
    rcases set_up with ⟨state, received⟩ | ⟨state, later, pens⟩
    · exact .leaves first state received
    · exact .begins first state later pens
  | false =>
    have flowed := @authorEvents_flowed R a penEventsPerFrame 0
      { p with frames := p.frames + 1, first := false } at_state
    unfold Pipeline.author
    rw [if_neg nofun]
    split
    next q events =>
      rw [events] at flowed
      obtain ⟨flow, state⟩ := flowed.off rfl
      exact .refused first (by rw [state]; nofun) flow flowed.built
    next q events =>
      rw [events] at flowed
      obtain ⟨flow, state, still, finished⟩ := flowed.on rfl
      split
      · exact .draws first state still flow finished flowed.built
      next all =>
        obtain ⟨empty, ended⟩ := not_or.1 all
        have empty : q.penQueue = [] := by simpa using empty
        have pens := @goto_pens R { q with built := true } a.clock .mesh
          ("strokes ".toList ++ decimal q.data.penEnds.length ++ a.curvenet.counts)
        refine .builds first (goto_leaves (by decide) _) ?_ ?_ (built_of_pens pens)
        · refine (received_of_pens pens).trans ?_
          rw [empty, List.append_nil] at flow
          exact flow
        · exact finished.symm.trans (by simpa using ended)

end Pipeline

/-! ### The strokes -/

/-- What a pen event does to its stroke. -/
def PenKind.mark : PenKind → Mark
  | .begin => .opens
  | .point => .inside
  | .end => .closes

/-- What some events do to a stroke. -/
abbrev strokeSpan (events : List (PenEvent R)) (stroke : Int) : List Mark :=
  span PenEvent.stroke (fun event => event.kind.mark) events stroke

/-- No tool is held, and no stroke is left to replay. -/
def Bridge.Idle (b : Bridge R) : Prop := (∀ path ∈ b.seen, b.prev path = false) ∧ b.replay = []

instance Bridge.Idle.decidable [DecidableEq R] (b : Bridge R) : Decidable b.Idle :=
  inferInstanceAs (Decidable ((∀ path ∈ b.seen, b.prev path = false) ∧ b.replay = []))

namespace Authoring

/-- A frame of the bridge finds nothing to send where no tool was held. -/
def Quiet (w : Authoring R) (hands : Hands R) : Prop :=
  if w.pipeline.opts.text "pen".toList = "scripted".toList then w.bridge.replay = []
  else ∀ path ∈ w.bridge.tools, ∀ tool ∈ hands.tool path, tool.active = false

/-- A start finds the bridge idle. Behind the end of the pens, no tool is active and nothing is
left to replay; and from outside they are ended with no tool held. -/
def Allowed (w : Authoring R) : Occasion R → Prop
  | .start _ workerBusy _ =>
    w.pipeline.state.terminal = true → workerBusy = false → w.bridge.Idle
  | .frame _ => True
  | .hands hands =>
    w.pipeline.state = .author → w.pipeline.penFinished = true → w.Quiet hands
  | .done => w.pipeline.state = .author → ∀ path ∈ w.bridge.seen, w.bridge.prev path = false

instance Quiet.decidable [DecidableEq R] (w : Authoring R) (hands : Hands R) :
    Decidable (w.Quiet hands) :=
  inferInstanceAs (Decidable (if w.pipeline.opts.text "pen".toList = "scripted".toList then
      w.bridge.replay = []
    else ∀ path ∈ w.bridge.tools, ∀ tool ∈ hands.tool path, tool.active = false))

instance Allowed.decidable [DecidableEq R] (w : Authoring R) :
    ∀ occasion, Decidable (w.Allowed occasion)
  | .start _ workerBusy _ =>
    inferInstanceAs (Decidable
      (w.pipeline.state.terminal = true → workerBusy = false → w.bridge.Idle))
  | .frame _ => isTrue trivial
  | .hands hands =>
    inferInstanceAs (Decidable
      (w.pipeline.state = .author → w.pipeline.penFinished = true → w.Quiet hands))
  | .done =>
    inferInstanceAs (Decidable
      (w.pipeline.state = .author → ∀ path ∈ w.bridge.seen, w.bridge.prev path = false))

/-- The authoring stage gets whole strokes. -/
structure WholeStrokes (w : Authoring R) : Prop where
  /-- Of every stroke it got nothing yet, or a begin with points behind it and at most one end. -/
  formed (stroke : Int) : Formed (strokeSpan w.pipeline.received stroke)
  /-- What it builds from is whole. -/
  whole (stroke : Int) : w.pipeline.built = true →
    strokeSpan w.pipeline.received stroke = [] ∨ Whole (strokeSpan w.pipeline.received stroke)
  /-- Nothing came behind `pen_finish`. -/
  late : w.late = []
  /-- A run begins with no tool held. -/
  begins (path : Text) : w.pipeline.state = .infer → w.bridge.prev path = false

/-! ### One frame of the bridge -/

variable {w : Authoring R} {p : Pipeline R} {floats : Floats R} {hands : Hands R} {path : Text}

/-- In `AUTHOR`, every held tool has its open stroke, and the events are with the stage or queued. -/
structure Authored (w : Authoring R) : Prop where
  held : Held PenEvent.stroke (fun event => event.kind.mark) w.sent w.bridge.prev
    w.bridge.strokeOf (w.bridge.nextStroke ≤ ·)
  finished : w.pipeline.penFinished = true → ∀ path, w.bridge.prev path = false
  queued : w.pipeline.first = true → w.pipeline.penQueue = w.sent
  flow : w.pipeline.first = false → w.pipeline.received ++ w.pipeline.penQueue = w.sent
  unbuilt : w.pipeline.first = false → w.pipeline.built = false
  scripted : w.pipeline.opts.text "pen".toList = "scripted".toList →
    (∀ path, w.bridge.prev path = false) ∧
      (w.pipeline.first = true → w.sent = [] ∧ w.bridge.replay = [])

/-- What a frame of the bridge in `AUTHOR` keeps. -/
structure Drawing (p : Pipeline R) (w : Authoring R) : Prop where
  pipeline : ∃ queue finished, w.pipeline = { p with penQueue := queue, penFinished := finished }
  authored : Authored w
  seen (path : Text) : w.bridge.prev path = true → path ∈ w.bridge.seen
  late : w.late = []

/-- A tool that is noted is seen, and none is forgotten. -/
theorem mem_setPrev_seen (b : Bridge R) (path : Text) (active : Bool) :
    path ∈ (b.setPrev path active).seen ∧ ∀ other ∈ b.seen, other ∈ (b.setPrev path active).seen := by
  unfold Bridge.setPrev
  dsimp only
  split
  next member => exact ⟨member, fun _ member => member⟩
  next => exact ⟨by simp, fun _ member => List.mem_append_left _ member⟩

/-- What was seen of the tools is known by their paths. -/
theorem Drawing.seen_setPrev (drawing : Drawing p w) (b : Bridge R) (prev : b.prev = w.bridge.prev)
    (seen : b.seen = w.bridge.seen) (path : Text) (active : Bool) (other : Text)
    (holds : (b.setPrev path active).prev other = true) :
    other ∈ (b.setPrev path active).seen := by
  obtain ⟨self, rest⟩ := mem_setPrev_seen b path active
  by_cases same : other = path
  · rw [same]
    exact self
  · have before : b.prev other = true := (if_neg same).symm.trans holds
    rw [prev] at before
    exact rest other (seen ▸ drawing.seen other before)

/-- A tool's event goes to the queue. -/
theorem Drawing.sends (drawing : Drawing p w) (unfinished : w.pipeline.penFinished = false)
    (pen : p.opts.text "pen".toList ≠ "scripted".toList) (event : PenEvent R) (b : Bridge R)
    (held : Held PenEvent.stroke (fun event => event.kind.mark) (w.sent ++ [event]) b.prev
      b.strokeOf (b.nextStroke ≤ ·))
    (seen : ∀ path, b.prev path = true → path ∈ b.seen) :
    Drawing p { w.send event with bridge := b } := by
  obtain ⟨⟨queue, finished, pipeline⟩, authored, -, late⟩ := drawing
  have opts : w.pipeline.opts = p.opts := by rw [pipeline]
  refine ⟨⟨queue ++ [event], finished, ?_⟩, ⟨held, fun ended => ?_, fun first => ?_,
    fun first => ?_, authored.unbuilt, fun script => ?_⟩, seen, ?_⟩
  · show w.pipeline.penEvent event = _
    rw [pipeline]
    rfl
  · cases unfinished.symm.trans ended
  · exact congrArg (· ++ [event]) (authored.queued first)
  · exact (List.append_assoc _ _ _).symm.trans (congrArg (· ++ [event]) (authored.flow first))
  · exact absurd (opts ▸ script) pen
  · show (if w.pipeline.penFinished = true then w.late ++ [event] else w.late) = []
    rw [unfinished, if_neg nofun, late]

/-- A tool that became active begins a stroke of its own. -/
theorem Drawing.begins (drawing : Drawing p w) (unfinished : w.pipeline.penFinished = false)
    (pen : p.opts.text "pen".toList ≠ "scripted".toList) (tool : Tool R)
    (idle : w.bridge.prev path = false) :
    Drawing p ((w.begins floats path tool).setPrev path true) := by
  refine drawing.sends unfinished pen ⟨.begin, (w.bridge.number path).strokeOf path, tool.place,
    pressed floats tool.pressure, w.bridge.boundaryMode⟩ ((w.bridge.number path).setPrev path true)
    (drawing.authored.held.opens (k := w.bridge.nextStroke) (t := path) (Int.le_refl _) ?_ rfl idle
      ⟨if_pos rfl, if_pos rfl⟩ (fun other ne => ⟨if_neg ne, if_neg ne⟩) fun k later => ?_)
    (drawing.seen_setPrev (w.bridge.number path) rfl rfl path true)
  · exact if_pos rfl
  · have later : w.bridge.nextStroke + 1 ≤ k := later
    exact ⟨by omega, by omega⟩

/-- A tool that stays active draws on. -/
theorem Drawing.points (drawing : Drawing p w) (unfinished : w.pipeline.penFinished = false)
    (pen : p.opts.text "pen".toList ≠ "scripted".toList) (tool : Tool R)
    (holding : w.bridge.prev path = true) :
    Drawing p ((w.points floats path tool).setPrev path true) := by
  have same : (w.bridge.setPrev path true).prev = w.bridge.prev := by
    funext other
    show (if other = path then true else w.bridge.prev other) = w.bridge.prev other
    split
    next self => rw [self, holding]
    next => rfl
  refine drawing.sends unfinished pen ⟨.point, w.bridge.strokeOf path, tool.place,
    pressed floats tool.pressure, false⟩ (w.bridge.setPrev path true) ?_
    (drawing.seen_setPrev w.bridge rfl rfl path true)
  rw [same]
  exact drawing.authored.held.inside holding rfl rfl

/-- A tool that is held no longer ends its stroke. -/
theorem Drawing.ends (drawing : Drawing p w) (unfinished : w.pipeline.penFinished = false)
    (pen : p.opts.text "pen".toList ≠ "scripted".toList) (holding : w.bridge.prev path = true) :
    Drawing p ((w.ends floats path).setPrev path false) :=
  drawing.sends unfinished pen ⟨.end, w.bridge.strokeOf path, nowhere floats, half floats, false⟩
    (w.bridge.setPrev path false)
    (drawing.authored.held.closes holding rfl rfl (if_pos rfl) fun _ ne => if_neg ne)
    (drawing.seen_setPrev w.bridge rfl rfl path false)

/-- A tool that was not held rests. -/
theorem Drawing.rests (drawing : Drawing p w) (idle : w.bridge.prev path = false) :
    Drawing p (w.setPrev path false) := by
  have same : (w.bridge.setPrev path false).prev = w.bridge.prev := by
    funext other
    show (if other = path then false else w.bridge.prev other) = w.bridge.prev other
    split
    next self => rw [self, idle]
    next => rfl
  have authored := drawing.authored
  refine ⟨drawing.pipeline, ⟨?_, ?_, authored.queued, authored.flow, authored.unbuilt, ?_⟩,
    drawing.seen_setPrev w.bridge rfl rfl path false, drawing.late⟩
  · show Held _ _ w.sent (w.bridge.setPrev path false).prev _ _
    rw [same]
    exact authored.held
  · show _ → ∀ other, (w.bridge.setPrev path false).prev other = false
    rw [same]
    exact authored.finished
  · show _ → (∀ other, (w.bridge.setPrev path false).prev other = false) ∧ _
    rw [same]
    exact authored.scripted

/-- Behind the end of the pens, no tool is held. -/
theorem Drawing.ended (drawing : Drawing p w) (none : ∀ path, w.bridge.prev path = false) :
    Drawing p w.penFinish := by
  obtain ⟨⟨queue, finished, pipeline⟩, authored, seen, late⟩ := drawing
  refine ⟨⟨queue, true, ?_⟩, ⟨authored.held, fun _ => none, authored.queued, authored.flow,
    authored.unbuilt, authored.scripted⟩, seen, late⟩
  show w.pipeline.penFinish = _
  rw [pipeline]
  rfl

/-- A tool that is forwarded does not finish the pen. -/
theorem forwardTool_finished (w : Authoring R) (path : Text) :
    (w.forwardTool floats hands path).pipeline.penFinished = w.pipeline.penFinished := by
  unfold forwardTool
  split
  · rfl
  · dsimp only [setPrev]
    split
    · rfl
    · split
      · rfl
      · split <;> rfl

/-- A tool that is forwarded keeps to the drawing. -/
theorem Drawing.forwardTool (drawing : Drawing p w)
    (pen : p.opts.text "pen".toList ≠ "scripted".toList) (path : Text)
    (quiet : w.pipeline.penFinished = true → ∀ tool ∈ hands.tool path, tool.active = false) :
    Drawing p (w.forwardTool floats hands path) := by
  unfold Authoring.forwardTool
  split
  · exact drawing
  next tool there =>
    have unfinished (active : tool.active = true) : w.pipeline.penFinished = false := by
      cases finished : w.pipeline.penFinished with
      | false => rfl
      | true => cases (quiet finished tool there).symm.trans active
    have held (holding : w.bridge.prev path = true) : w.pipeline.penFinished = false := by
      cases finished : w.pipeline.penFinished with
      | false => rfl
      | true => cases (drawing.authored.finished finished path).symm.trans holding
    cases active : tool.active <;> cases was : w.bridge.prev path
    · exact drawing.rests was
    · exact drawing.ends (held was) pen was
    · exact drawing.begins (unfinished active) pen tool was
    · exact drawing.points (held was) pen tool was

/-- All tools that are forwarded keep to the drawing. -/
theorem Drawing.forwardTools (drawing : Drawing p w)
    (pen : p.opts.text "pen".toList ≠ "scripted".toList) (paths : List Text)
    (quiet : w.pipeline.penFinished = true →
      ∀ path ∈ paths, ∀ tool ∈ hands.tool path, tool.active = false) :
    Drawing p (paths.foldl (Authoring.forwardTool floats hands) w) := by
  induction paths generalizing w with
  | nil => exact drawing
  | cons path later inductionHypothesis =>
    refine inductionHypothesis
      (drawing.forwardTool pen path fun finished => quiet finished path List.mem_cons_self) ?_
    rw [forwardTool_finished]
    exact fun finished other member => quiet finished other (List.mem_cons_of_mem _ member)

/-- The loop of `finish` leaves no tool held that it comes to. -/
theorem Drawing.closeHeld (drawing : Drawing p w)
    (pen : p.opts.text "pen".toList ≠ "scripted".toList) (paths : List Text)
    (unfinished : w.pipeline.penFinished = false) :
    Drawing p (paths.foldl (Authoring.closeHeld floats) w) ∧
      ∀ path, (paths.foldl (Authoring.closeHeld floats) w).bridge.prev path = true →
        w.bridge.prev path = true ∧ path ∉ paths := by
  induction paths generalizing w with
  | nil => exact ⟨drawing, fun path holding => ⟨holding, List.not_mem_nil⟩⟩
  | cons path later inductionHypothesis =>
    have closed : Drawing p (w.closeHeld floats path) ∧
        (w.closeHeld floats path).pipeline.penFinished = false ∧
        ∀ other, (w.closeHeld floats path).bridge.prev other = true →
          w.bridge.prev other = true ∧ other ≠ path := by
      unfold Authoring.closeHeld
      split
      next holding =>
        refine ⟨drawing.ends unfinished pen holding, unfinished, fun other holding => ?_⟩
        have holding : (if other = path then false else w.bridge.prev other) = true := holding
        split at holding
        · cases holding
        next ne => exact ⟨holding, ne⟩
      next idle =>
        refine ⟨drawing, unfinished, fun other holding => ⟨holding, fun same => ?_⟩⟩
        exact idle (same ▸ holding)
    obtain ⟨drawing, unfinished, still⟩ := closed
    obtain ⟨drawing, rest⟩ := inductionHypothesis drawing unfinished
    refine ⟨drawing, fun other holding => ?_⟩
    obtain ⟨before, outside⟩ := rest other holding
    obtain ⟨before, ne⟩ := still other before
    exact ⟨before, fun member => (List.mem_cons.1 member).elim ne outside⟩

/-- The end of the drawing keeps to it. -/
theorem Drawing.finish (drawing : Drawing p w)
    (pen : p.opts.text "pen".toList ≠ "scripted".toList) : Drawing p (w.finish floats) := by
  unfold Authoring.finish
  split
  next guard =>
    obtain ⟨closed, still⟩ := drawing.closeHeld pen w.bridge.seen guard.2
    refine closed.ended fun path => ?_
    cases holding : (w.bridge.seen.foldl (Authoring.closeHeld floats) w).bridge.prev path with
    | false => rfl
    | true =>
      obtain ⟨before, outside⟩ := still path holding
      exact absurd (drawing.seen path before) outside
  · exact drawing

/-- A toggled menu keeps to the drawing. -/
theorem Drawing.toggle (drawing : Drawing p w) :
    Drawing p { w with bridge := Authoring.toggle hands w.bridge } := by
  have authored := drawing.authored
  exact ⟨drawing.pipeline, ⟨authored.held, authored.finished, authored.queued, authored.flow,
    authored.unbuilt, authored.scripted⟩, drawing.seen, drawing.late⟩

/-- The menu tools keep to the drawing. -/
theorem Drawing.menus (drawing : Drawing p w)
    (pen : p.opts.text "pen".toList ≠ "scripted".toList) (paths : List Text) :
    Drawing p (paths.foldl (menuTool floats hands) w) := by
  induction paths generalizing w with
  | nil => exact drawing
  | cons path later inductionHypothesis =>
    refine inductionHypothesis ?_
    unfold menuTool
    split
    · split
      · exact drawing.finish pen
      · exact drawing
    · exact drawing

/-- A frame with the hands. -/
theorem Drawing.forwards (drawing : Drawing p w)
    (pen : p.opts.text "pen".toList ≠ "scripted".toList)
    (quiet : w.pipeline.penFinished = true →
      ∀ path ∈ w.bridge.tools, ∀ tool ∈ hands.tool path, tool.active = false) :
    Drawing p (w.forwardTools floats hands) := by
  unfold Authoring.forwardTools
  split
  · exact drawing
  · have forwarded :=
      @Drawing.forwardTools R w p floats hands drawing pen w.bridge.tools quiet
    dsimp only
    refine Drawing.menus (Drawing.toggle ?_) pen _
    split
    · exact forwarded.finish pen
    · exact forwarded

/-- Events that are sent one after another. -/
theorem sends_events (events : List (PenEvent R)) (unfinished : w.pipeline.penFinished = false) :
    events.foldl send w = { w with
      pipeline := { w.pipeline with penQueue := w.pipeline.penQueue ++ events }
      sent := w.sent ++ events } := by
  induction events generalizing w with
  | nil => simp
  | cons event later inductionHypothesis =>
    have unfinished' : (w.send event).pipeline.penFinished = false := unfinished
    rw [List.foldl_cons, inductionHypothesis unfinished']
    unfold send Pipeline.penEvent
    simp [unfinished]

/-- A replayed stroke is whole. -/
theorem strokeEvents_whole (number : Int) (first : R × R × R) (later : List (R × R × R))
    (boundary : Bool) :
    (∀ event ∈ strokeEvents floats number first later boundary, event.stroke = number) ∧
      Whole ((strokeEvents floats number first later boundary).map fun event =>
        event.kind.mark) := by
  constructor
  · intro event member
    simp only [strokeEvents, List.mem_append, List.mem_singleton, List.mem_map] at member
    rcases member with (rfl | ⟨place, -, rfl⟩) | rfl <;> rfl
  · refine ⟨later.length, ?_⟩
    simp only [strokeEvents, List.map_append, List.map_cons, List.map_nil, List.map_map,
      PenKind.mark]
    rw [← List.map_const']
    rfl

/-- A replayed event keeps to the drawing. -/
theorem Drawing.replayOne (drawing : Drawing p w)
    (pen : w.pipeline.opts.text "pen".toList = "scripted".toList)
    (quiet : w.pipeline.penFinished = true → w.bridge.replay = []) :
    Drawing p (w.replayOne floats) := by
  unfold Authoring.replayOne
  split
  · exact drawing
  next stroke rest replay =>
    obtain ⟨idle, early⟩ := drawing.authored.scripted pen
    have unfinished : w.pipeline.penFinished = false := by
      cases finished : w.pipeline.penFinished with
      | false => rfl
      | true => cases (quiet finished).symm.trans replay
    have later : w.pipeline.first = false := by
      cases first : w.pipeline.first with
      | false => rfl
      | true => cases (early first).2.symm.trans replay
    have popped : Drawing p { w with
        bridge := { w.bridge with replay := rest, nextStroke := w.bridge.nextStroke + 1 } } := by
      have authored := drawing.authored
      refine ⟨drawing.pipeline, ⟨authored.held.of_none idle (fun k next => ?_) _, authored.finished,
        authored.queued, authored.flow, authored.unbuilt, fun _ => ⟨idle, fun first => ?_⟩⟩,
        drawing.seen, drawing.late⟩
      · have next : w.bridge.nextStroke + 1 ≤ k := next
        show w.bridge.nextStroke ≤ k
        omega
      · cases later.symm.trans first
    dsimp only
    split
    · exact popped
    next first points _ =>
      obtain ⟨all, whole⟩ :=
        @strokeEvents_whole R floats w.bridge.nextStroke first points stroke.boundary
      rw [sends_events _ (by exact unfinished)]
      obtain ⟨⟨queue, finished, pipeline⟩, authored, seen, late⟩ := drawing
      have sent : Drawing p { w with
          pipeline := { w.pipeline with
            penQueue := w.pipeline.penQueue
              ++ strokeEvents floats w.bridge.nextStroke first points stroke.boundary }
          bridge := { w.bridge with replay := rest, nextStroke := w.bridge.nextStroke + 1 }
          sent := w.sent
            ++ strokeEvents floats w.bridge.nextStroke first points stroke.boundary } := by
        refine ⟨⟨_, finished, by rw [pipeline]⟩, ⟨?_, authored.finished, fun first => ?_,
          fun first => ?_, authored.unbuilt, fun _ => ⟨idle, fun first => ?_⟩⟩, seen, late⟩
        · refine authored.held.adds (Int.le_refl _) all whole fun k next => ?_
          have next : w.bridge.nextStroke + 1 ≤ k := next
          exact ⟨by omega, by omega⟩
        · cases later.symm.trans first
        · exact (List.append_assoc _ _ _).symm.trans (congrArg (· ++ _) (authored.flow first))
        · cases later.symm.trans first
      split
      · exact sent.ended idle
      · exact sent

/-! ### Every occasion -/

/-- What every allowed occasion keeps. -/
structure Sound (w : Authoring R) : Prop where
  good : w.pipeline.Good
  external : w.pipeline.penExternal = true
  seen (path : Text) : w.bridge.prev path = true → path ∈ w.bridge.seen
  /-- Before `AUTHOR`, nothing is held and nothing was sent. -/
  early : w.pipeline.state = .infer ∨ w.pipeline.state = .rig →
    (∀ path, w.bridge.prev path = false) ∧ w.bridge.replay = [] ∧ w.sent = [] ∧
      w.pipeline.penQueue = []
  author : w.pipeline.state = .author → Authored w
  formed (stroke : Int) : Formed (strokeSpan w.pipeline.received stroke)
  whole (stroke : Int) : w.pipeline.built = true →
    strokeSpan w.pipeline.received stroke = [] ∨ Whole (strokeSpan w.pipeline.received stroke)
  late : w.late = []

/-- A sound state has whole strokes only. -/
theorem Sound.wholeStrokes (sound : Sound w) : WholeStrokes w :=
  ⟨sound.formed, sound.whole, sound.late, fun path infer => (sound.early (Or.inl infer)).1 path⟩

/-- Tools that are attached have drawn nothing. -/
theorem sound_attached (tools : List Text) : Sound (attached tools : Authoring R) where
  good := Pipeline.good_fresh.of_external true
  external := rfl
  seen _ holding := by cases holding
  early early := by cases early <;> contradiction
  author author := by cases author
  formed _ := .none rfl
  whole _ built := by cases built
  late := rfl

/-- A frame of the bridge keeps everything. -/
theorem Sound.process (sound : Sound w) (hands : Hands R)
    (allowed : w.Allowed (.hands hands)) : Sound (w.process floats hands) := by
  unfold Authoring.process
  split
  · exact sound
  next at_state =>
    have at_state : w.pipeline.state = .author := by simpa using at_state
    have drawing : Drawing w.pipeline w :=
      ⟨⟨_, _, rfl⟩, sound.author at_state, sound.seen, sound.late⟩
    have quiet (finished : w.pipeline.penFinished = true) := allowed at_state finished
    unfold Quiet at quiet
    -- what the pens bring leaves the rest of the pipeline alone
    have keeps {after : Authoring R} (drawn : Drawing w.pipeline after) : Sound after := by
      obtain ⟨⟨queue, finished, pipeline⟩, authored, seen, late⟩ := drawn
      have state : after.pipeline.state = .author := by
        rw [pipeline]
        exact at_state
      constructor
      · rw [pipeline]
        exact sound.good.set_pens queue finished
      · rw [pipeline]
        exact sound.external
      · exact seen
      · rw [state]
        rintro (early | early) <;> cases early
      · exact fun _ => authored
      · rw [pipeline]
        exact sound.formed
      · rw [pipeline]
        exact sound.whole
      · exact late
    split
    next pen => exact keeps (drawing.replayOne pen fun finished => by
      simpa only [if_pos pen] using quiet finished)
    next pen => exact keeps (drawing.forwards pen fun finished => by
      simpa only [if_neg pen] using quiet finished)

/-- The bridge behind a frame of the pipeline is as before, or has new strokes to replay. -/
theorem frame_bridge (w : Authoring R) (a : Answers R) :
    (w.frame shapes a).bridge = w.bridge ∨
      (w.pipeline.state = .author ∧ w.pipeline.first = true ∧
        w.pipeline.opts.text "pen".toList = "scripted".toList ∧
        ∃ strokes, (w.frame shapes a).bridge
          = { w.bridge with replay := strokes, nextStroke := 0 }) := by
  unfold frame
  dsimp only
  split
  next strokes ready =>
    unfold Bridge.onStrokes
    split
    · exact Or.inl rfl
    next pen =>
      have first : w.pipeline.state = .author ∧ w.pipeline.first = true := by
        unfold Pipeline.strokesReady at ready
        split at ready
        next first => exact first
        · cases ready
      exact Or.inr ⟨first.1, first.2, by simpa using pen, strokes, rfl⟩
  · exact Or.inl rfl

/-- A frame of `AUTHOR` hands on what was sent, in order. -/
theorem Sound.authorFrame (sound : Sound w) (a : Answers R) (at_state : w.pipeline.state = .author) :
    (((w.frame shapes a).pipeline.state = .author) → Authored (w.frame shapes a)) ∧
      (∀ stroke, Formed (strokeSpan (w.frame shapes a).pipeline.received stroke)) ∧
      ∀ stroke, (w.frame shapes a).pipeline.built = true →
        strokeSpan (w.frame shapes a).pipeline.received stroke = [] ∨
          Whole (strokeSpan (w.frame shapes a).pipeline.received stroke) := by
  have authored := sound.author at_state
  have frame : w.pipeline.AuthorFrame (w.frame shapes a).pipeline :=
    Pipeline.author_frame at_state sound.external
  have opts : (w.frame shapes a).pipeline.opts = w.pipeline.opts := Pipeline.process_opts sound.good
  have sent : (w.frame shapes a).sent = w.sent := rfl
  have bridge := @frame_bridge R shapes w a
  generalize w.frame shapes a = after at frame opts sent bridge ⊢
  -- what was sent is formed, so what is handed on of it is
  have handed {received : List (PenEvent R)} (early : received <+: w.sent) (stroke : Int) :
      Formed (strokeSpan received stroke) :=
    (authored.held.formed stroke).of_seen (span_seen _ _ early stroke)
  cases frame with
  | leaves first state received =>
    refine ⟨fun author => absurd author state, ?_, ?_⟩
    · rcases received with ⟨same, -⟩ | ⟨none, -⟩
      · rw [same]
        exact sound.formed
      · rw [none]
        exact fun stroke => .none rfl
    · rcases received with ⟨same, built⟩ | ⟨none, -⟩
      · rw [same, built]
        exact sound.whole
      · rw [none]
        exact fun stroke _ => Or.inl rfl
  | begins first state later pens =>
    obtain ⟨queue, finished, received, built⟩ :
        after.pipeline.penQueue = w.pipeline.penQueue ∧
          after.pipeline.penFinished = w.pipeline.penFinished ∧ after.pipeline.received = [] ∧
          after.pipeline.built = false := by
      simp only [Pipeline.pens, Prod.mk.injEq] at pens
      exact pens
    refine ⟨fun _ => ?_, fun stroke => .none (by rw [received]; rfl),
      fun stroke _ => Or.inl (by rw [received]; rfl)⟩
    have flow : after.pipeline.received ++ after.pipeline.penQueue = after.sent := by
      rw [received, queue, sent]
      exact authored.queued first
    rcases bridge with bridge | ⟨-, -, pen, strokes, bridge⟩
    · refine ⟨?_, ?_, fun no => ?_, fun _ => flow, fun _ => built, fun pen => ⟨?_, fun no => ?_⟩⟩
      · rw [bridge, sent]
        exact authored.held
      · rw [bridge, finished]
        exact authored.finished
      · cases later.symm.trans no
      · rw [bridge]
        exact (authored.scripted (opts ▸ pen)).1
      · cases later.symm.trans no
    · obtain ⟨idle, early⟩ := authored.scripted pen
      have prev : after.bridge.prev = w.bridge.prev := by rw [bridge]
      refine ⟨?_, ?_, fun no => ?_, fun _ => flow, fun _ => built, fun pen => ⟨?_, fun no => ?_⟩⟩
      · rw [sent, (early first).1]
        exact .nil (by rw [prev]; exact idle) _
      · rw [prev]
        exact fun _ => idle
      · cases later.symm.trans no
      · rw [prev]
        exact idle
      · cases later.symm.trans no
  | draws first state later flow finished built =>
    have bridge : after.bridge = w.bridge := bridge.resolve_right fun ready => by
      cases first.symm.trans ready.2.1
    have flow := flow.trans (authored.flow first)
    refine ⟨fun _ => ⟨?_, ?_, fun no => ?_, fun _ => flow.trans sent.symm, fun _ => ?_,
      fun pen => ⟨?_, fun no => ?_⟩⟩, handed ⟨_, flow⟩, fun stroke yes => ?_⟩
    · rw [bridge, sent]
      exact authored.held
    · rw [bridge, finished]
      exact authored.finished
    · cases later.symm.trans no
    · exact built.trans (authored.unbuilt first)
    · rw [bridge]
      exact (authored.scripted (opts ▸ pen)).1
    · cases later.symm.trans no
    · cases (built.trans (authored.unbuilt first)).symm.trans yes
  | refused first state flow built =>
    rw [authored.flow first] at flow
    refine ⟨fun author => absurd author state, handed flow, fun stroke yes => ?_⟩
    cases (built.trans (authored.unbuilt first)).symm.trans yes
  | builds first state flow finished built =>
    have flow := flow.trans (authored.flow first)
    refine ⟨fun author => absurd author state, handed (flow ▸ List.prefix_refl _),
      fun stroke _ => ?_⟩
    rw [flow]
    exact authored.held.whole_of_none (authored.finished finished) stroke

/-- A frame of the pipeline keeps everything. -/
theorem Sound.frame (sound : Sound w) (a : Answers R) : Sound (w.frame shapes a) := by
  have seen : ∀ path, (w.frame shapes a).bridge.prev path = true →
      path ∈ (w.frame shapes a).bridge.seen := by
    rcases @frame_bridge R shapes w a with same | ⟨-, -, -, strokes, ready⟩
    · rw [same]
      exact sound.seen
    · rw [ready]
      exact sound.seen
  have good : (w.frame shapes a).pipeline.Good := sound.good.process
  have external : (w.frame shapes a).pipeline.penExternal = true :=
    (Pipeline.process_external sound.good).trans sound.external
  by_cases at_state : w.pipeline.state = .author
  · obtain ⟨author, formed, whole⟩ := @Sound.authorFrame R shapes w sound a at_state
    refine ⟨good, external, seen, fun early => ?_, author, formed, whole, sound.late⟩
    have moved : w.pipeline.state ≠ (w.frame shapes a).pipeline.state := by
      rw [at_state]
      rcases early with early | early <;> (rw [early]; nofun)
    have running : (w.frame shapes a).pipeline.state.terminal = false := by
      rcases early with early | early <;> (rw [early]; rfl)
    obtain ⟨q, may⟩ := Pipeline.next_of_process sound.good running moved rfl
    rw [at_state] at may
    rcases early with early | early <;> (rw [early] at may; cases may)
  · have bridge : (w.frame shapes a).bridge = w.bridge :=
      (@frame_bridge R shapes w a).resolve_right fun ready => at_state ready.1
    have pens : (w.frame shapes a).pipeline.pens = w.pipeline.pens :=
      Pipeline.process_pens sound.good at_state
    obtain ⟨queue, finished, received, built⟩ :
        (w.frame shapes a).pipeline.penQueue = w.pipeline.penQueue ∧
          (w.frame shapes a).pipeline.penFinished = w.pipeline.penFinished ∧
          (w.frame shapes a).pipeline.received = w.pipeline.received ∧
          (w.frame shapes a).pipeline.built = w.pipeline.built := by
      simp only [Pipeline.pens, Prod.mk.injEq] at pens
      exact pens
    -- a state that was just entered follows the one before it
    have came {next : State} (running : next.terminal = false)
        (now : (w.frame shapes a).pipeline.state = next) :
        w.pipeline.state = next ∨ ∃ q : Pipeline R, Pipeline.Next q w.pipeline.state next := by
      by_cases same : w.pipeline.state = next
      · exact Or.inl same
      · exact Or.inr (Pipeline.next_of_process sound.good running same now)
    refine ⟨good, external, seen, fun early => ?_, fun author => ?_, ?_, ?_, sound.late⟩
    · have before : w.pipeline.state = .infer ∨ w.pipeline.state = .rig := by
        rcases early with early | early
        · rcases came rfl early with same | ⟨q, may⟩
          · exact Or.inl same
          · generalize w.pipeline.state = here at may
            cases may
        · rcases came rfl early with same | ⟨q, may⟩
          · exact Or.inr same
          · generalize w.pipeline.state = here at may ⊢
            cases may
            exact Or.inl rfl
      rw [bridge, queue]
      exact sound.early before
    · rcases came rfl author with same | ⟨q, may⟩
      · exact absurd same at_state
      · have before : w.pipeline.state = .rig := by
          generalize w.pipeline.state = here at may ⊢
          cases may
          rfl
        obtain ⟨idle, replay, sent, empty⟩ := sound.early (Or.inr before)
        have first : (w.frame shapes a).pipeline.first = true :=
          Pipeline.first_of_process sound.good fun same => at_state (same.trans author)
        have sent : (w.frame shapes a).sent = [] := sent
        refine ⟨?_, ?_, fun _ => ?_, fun no => ?_, fun no => ?_, fun _ => ⟨?_, fun _ => ⟨sent, ?_⟩⟩⟩
        · rw [sent, bridge]
          exact .nil idle _
        · rw [bridge]
          exact fun _ => idle
        · rw [queue, sent, empty]
        · cases first.symm.trans no
        · cases first.symm.trans no
        · rw [bridge]
          exact idle
        · rw [bridge]
          exact replay
    · rw [received]
      exact sound.formed
    · rw [received, built]
      exact sound.whole

/-- `dress_on_author_done` with no tool held keeps everything. -/
theorem Sound.done (sound : Sound w) (allowed : w.Allowed .done) : Sound w.penFinish where
  good := sound.good.set_pens w.pipeline.penQueue true
  external := sound.external
  seen := sound.seen
  early := sound.early
  author at_state := by
    have authored := sound.author at_state
    refine ⟨authored.held, fun _ path => ?_, authored.queued, authored.flow, authored.unbuilt,
      authored.scripted⟩
    cases holding : w.bridge.prev path with
    | false => exact holding
    | true => cases (allowed at_state path (sound.seen path holding)).symm.trans holding
  formed := sound.formed
  whole := sound.whole
  late := sound.late

/-- A start that finds the bridge idle keeps everything. -/
theorem Sound.start (sound : Sound w) (clock : Clock) (workerBusy : Bool) (given : Options)
    (allowed : w.Allowed (.start clock workerBusy given)) :
    Sound (w.start clock workerBusy given) := by
  have good : (w.pipeline.start clock workerBusy given).1.Good := sound.good.start workerBusy given
  unfold Authoring.start
  by_cases started : (w.pipeline.start clock workerBusy given).2 = .started
  · obtain ⟨idle, noWorker, -⟩ := Pipeline.listed_of_start
      (show (w.pipeline.start clock workerBusy given).2 ≠ .busy by rw [started]; nofun)
      (by rw [started]; nofun)
    obtain ⟨opts, -, goes⟩ := Pipeline.goes_of_started started
    obtain ⟨held, replay⟩ := allowed idle noWorker
    have none (path : Text) : w.bridge.prev path = false := by
      cases holding : w.bridge.prev path with
      | false => rfl
      | true => exact holding.symm.trans (held path (sound.seen path holding))
    have pens : (w.pipeline.start clock workerBusy given).1.pens
        = (w.pipeline.cleared clock opts).pens := by
      rw [goes]
      exact Pipeline.goto_pens _ _
    simp only [Pipeline.pens, Pipeline.cleared, Prod.mk.injEq] at pens
    obtain ⟨queue, -, received, built⟩ := pens
    have external : (w.pipeline.start clock workerBusy given).1.penExternal = true := by
      rw [goes, Pipeline.goto_external]
      exact sound.external
    have state : (w.pipeline.start clock workerBusy given).1.state ≠ .author := by
      rw [goes]
      exact Pipeline.goto_leaves (by decide) _
    dsimp only
    rw [if_pos started]
    exact ⟨good, external, sound.seen, fun _ => ⟨none, replay, rfl, queue⟩,
      fun author => absurd author state, by rw [received]; exact sound.formed,
      by rw [received, built]; exact sound.whole, sound.late⟩
  · dsimp only
    rw [if_neg started]
    -- what is not let in leaves a state that has ended, and what the stage got
    have same {q : Pipeline R} (good : q.Good) (ended : w.pipeline.state.terminal = true)
        (state : q.state = w.pipeline.state) (external : q.penExternal = w.pipeline.penExternal)
        (received : q.received = w.pipeline.received) (built : q.built = w.pipeline.built) :
        Sound { w with pipeline := q } := by
      refine ⟨good, external.trans sound.external, sound.seen, fun early => ?_, fun author => ?_,
        by rw [received]; exact sound.formed, by rw [received, built]; exact sound.whole,
        sound.late⟩
      · rw [← state] at ended
        rcases early with early | early <;> (rw [early] at ended; cases ended)
      · have author : q.state = .author := author
        rw [← state, author] at ended
        cases ended
    rcases Pipeline.start_of_not_started started with left | ⟨ended, opts, left | left⟩
    · rw [left]
      exact sound
    · rw [left] at good ⊢
      exact same good ended rfl rfl rfl rfl
    · rw [left] at good ⊢
      exact same good ended rfl rfl rfl rfl

/-- However a bridge's tools are used, in runs one after another, the authoring stage gets whole
strokes: as long as every run starts with the bridge idle, and behind the end of the pens no tool is
active. -/
theorem whole_strokes (shapes : Shapes R) (tools : List Text) (occasions : List (Occasion R))
    (allowed : Along (step shapes) Allowed (attached tools) occasions) :
    WholeStrokes (occasions.foldl (step shapes) (attached tools)) := by
  refine Sound.wholeStrokes (allowed.invariant ?_ (sound_attached tools))
  intro w occasion sound allowed
  cases occasion with
  | start clock workerBusy given => exact sound.start clock workerBusy given allowed
  | frame answers => exact sound.frame answers
  | hands hands => exact sound.process hands allowed
  | done => exact sound.done allowed

/-- The answers of a host with a curvenet that takes every stroke, or refuses to begin one. -/
def drawn (refuses : Bool) : Answers (Option ℚ) :=
  { quiet with
    curvenet := { quiet.curvenet with
      missing := []
      penBegin := fun _ => if refuses then -1 else 0 } }

/-- One hand whose tool is active or not, and whose menu button is pressed or not. -/
def oneHand (active menu : Bool) : Hands (Option ℚ) where
  body := true
  tool path := if path = "right".toList then
    some ⟨active, some (1 / 200), (some 0, some 1, some 0), false, menu⟩ else none
  accept := false
  key := false

/-- A start that is drawn by hand, as far as its first frame of `AUTHOR`. -/
def toAuthor : List (Occasion (Option ℚ)) :=
  .start ⟨0, 0, 0⟩ false (fun key =>
      if key = "pen".toList then some (.text "xr".toList) else fixtures "polyfem".toList key)
    :: List.replicate 3 (.frame (drawn false))

/-- A stroke that the menu button ends, and that the stage builds from. -/
def drawsOne : List (Occasion (Option ℚ)) :=
  toAuthor ++ [.hands (oneHand true false), .frame (drawn false), .hands (oneHand true true),
    .frame (drawn false)]

/-- A run whose stage refuses the stroke, and the next one with the tool still active. -/
def drawsOn : List (Occasion (Option ℚ)) :=
  toAuthor ++ [.hands (oneHand true false), .frame (drawn true)]
    ++ toAuthor ++ [.hands (oneHand true false), .frame (drawn false)]

/-- One stroke of one hand is whole. -/
theorem whole_strokes_one : WholeStrokes
    (drawsOne.foldl (step plain) (attached ["left".toList, "right".toList])) :=
  whole_strokes plain _ _ (by decide +kernel)

/-- A tool that is held while a run fails draws on in the next one, where no stroke began. -/
theorem point_without_begin :
    ¬ ∀ (tools : List Text) (occasions : List (Occasion (Option ℚ))),
      WholeStrokes (occasions.foldl (step plain) (attached tools)) := by
  intro whole
  have formed := (whole ["right".toList] drawsOn).formed 0
  have point : strokeSpan (drawsOn.foldl (step plain)
      (attached ["right".toList])).pipeline.received 0 = [.inside] := by
    decide +kernel
  rw [point] at formed
  rcases formed with empty | ⟨n, opened⟩ | ⟨n, whole⟩
  · cases empty
  · cases opened
  · cases whole

end Authoring

end DressOn.Host
