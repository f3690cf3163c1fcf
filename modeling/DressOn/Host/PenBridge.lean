import DressOn.Host.Pipeline

/-!
# The pen bridge

The bridge between the hands' tools and the pipeline's pen events: it looks at every tool once a
frame while the pipeline is in `AUTHOR`, or replays the strokes that the pipeline hands over.
-/

namespace DressOn.Host

open DressOn.Texts

variable {R : Type}

/-- A tool as a frame finds it. -/
structure Tool (R : Type) where
  active : Bool
  pressure : R
  /-- Its origin in the body's space. -/
  place : R × R × R
  /-- Its controller's thumbstick is clicked. -/
  click : Bool
  /-- Its controller's menu button is pressed. -/
  menu : Bool

/-- What a frame of the bridge finds. -/
structure Hands (R : Type) where
  /-- The body is there. -/
  body : Bool
  /-- The node at a path, if it is there. -/
  tool : Text → Option (Tool R)
  /-- `ui_accept` was just pressed. -/
  accept : Bool
  /-- The B key is pressed. -/
  key : Bool

/-- The pen bridge. -/
structure Bridge (R : Type) where
  tools : List Text
  /-- The keys of `_prev`, in their order. -/
  seen : List Text
  /-- `_prev`: the tools that were active. -/
  prev : Text → Bool
  strokeOf : Text → Int
  nextStroke : Int
  replay : List (PenStroke R)
  boundaryMode : Bool
  byPrev : Bool

namespace Bridge

/-- A bridge to some tools. -/
def fresh (tools : List Text) : Bridge R where
  tools := tools
  seen := []
  prev := fun _ => false
  strokeOf := fun _ => 0
  nextStroke := 0
  replay := []
  boundaryMode := false
  byPrev := false

/-- `_prev[path] = active`. -/
def setPrev (b : Bridge R) (path : Text) (active : Bool) : Bridge R :=
  { b with
    seen := if path ∈ b.seen then b.seen else b.seen ++ [path]
    prev := fun other => if other = path then active else b.prev other }

/-- `_stroke_of[path]` with the next number. -/
def number (b : Bridge R) (path : Text) : Bridge R :=
  { b with
    strokeOf := fun other => if other = path then b.nextStroke else b.strokeOf other
    nextStroke := b.nextStroke + 1 }

/-- `_on_strokes`. -/
def onStrokes (b : Bridge R) (opts : Options) (strokes : List (PenStroke R)) : Bridge R :=
  if opts.text "pen".toList ≠ "scripted".toList then b
  else { b with replay := strokes, nextStroke := 0 }

end Bridge

/-- The strokes that a frame of the pipeline hands over, if it does. -/
def Pipeline.strokesReady (p : Pipeline R) (a : Answers R) : Option (List (PenStroke R)) :=
  if p.state = .author ∧ p.first = true then
    match p.mode a.clock "curvenet".toList a.curvenet.missing with
    | (_, .real) =>
      match a.curvenet.source with
      | .ok (_, strokes) => some strokes
      | .error _ => none
    | _ => none
  else none

/-- The pipeline with the bridge that is attached to it. -/
structure Authoring (R : Type) where
  pipeline : Pipeline R
  bridge : Bridge R
  /-- The events that the pipeline got since the last start. -/
  sent : List (PenEvent R)
  /-- Those of them that came behind `pen_finish`. -/
  late : List (PenEvent R)

/-- What happens to the two. -/
inductive Occasion (R : Type) where
  | start (clock : Clock) (workerBusy : Bool) (given : Options)
  /-- A frame of the pipeline. -/
  | frame (answers : Answers R)
  /-- A frame of the bridge. -/
  | hands (hands : Hands R)
  /-- `dress_on_author_done`. -/
  | done

namespace Authoring

/-- The bridge just attached to the pipeline. -/
def attached (tools : List Text) : Authoring R where
  pipeline := { Pipeline.fresh with penExternal := true }
  bridge := .fresh tools
  sent := []
  late := []

/-- `pen_event` of the pipeline. -/
def send (w : Authoring R) (event : PenEvent R) : Authoring R :=
  { w with
    pipeline := w.pipeline.penEvent event
    sent := w.sent ++ [event]
    late := if w.pipeline.penFinished then w.late ++ [event] else w.late }

/-- `pen_finish` of the pipeline. -/
def penFinish (w : Authoring R) : Authoring R := { w with pipeline := w.pipeline.penFinish }

variable (floats : Floats R)

/-- Where an event without a position is. -/
def nowhere : R × R × R := (floats.ofRat 0, floats.ofRat 0, floats.ofRat 0)

/-- The pressure of an event without one. -/
def half : R := floats.ofRat (1 / 2)

/-- A pressure as a part of `MAX_SIZE`, between nothing and all of it. -/
def pressed (pressure : R) : R :=
  let part := floats.divided pressure (floats.ofRat (1 / 100))
  if floats.less part (floats.ofRat 0) then floats.ofRat 0
  else if floats.less (floats.ofRat 1) part then floats.ofRat 1
  else part

/-- `pen_event("begin", ..)` for a tool. -/
def begins (w : Authoring R) (path : Text) (tool : Tool R) : Authoring R :=
  let w := { w with bridge := w.bridge.number path }
  w.send ⟨.begin, w.bridge.strokeOf path, tool.place, pressed floats tool.pressure,
    w.bridge.boundaryMode⟩

/-- `pen_event("point", ..)` for a tool. -/
def points (w : Authoring R) (path : Text) (tool : Tool R) : Authoring R :=
  w.send ⟨.point, w.bridge.strokeOf path, tool.place, pressed floats tool.pressure, false⟩

/-- `pen_event("end", ..)` for a tool. -/
def ends (w : Authoring R) (path : Text) : Authoring R :=
  w.send ⟨.end, w.bridge.strokeOf path, nowhere floats, half floats, false⟩

/-- `_prev[path] = active`. -/
def setPrev (w : Authoring R) (path : Text) (active : Bool) : Authoring R :=
  { w with bridge := w.bridge.setPrev path active }

/-- The first loop of `_forward_tools`: a tool that began, went on or ended. -/
def forwardTool (hands : Hands R) (w : Authoring R) (path : Text) : Authoring R :=
  match hands.tool path with
  | none => w
  | some tool =>
    let w :=
      if tool.active && !w.bridge.prev path then w.begins floats path tool
      else if tool.active && w.bridge.prev path then w.points floats path tool
      else if w.bridge.prev path && !tool.active then w.ends floats path
      else w
    w.setPrev path tool.active

/-- The loop of `finish`: a tool that is still held. -/
def closeHeld (w : Authoring R) (path : Text) : Authoring R :=
  if w.bridge.prev path then (w.ends floats path).setPrev path false else w

/-- `finish`. -/
def finish (w : Authoring R) : Authoring R :=
  if w.pipeline.state = .author ∧ w.pipeline.penFinished = false then
    (w.bridge.seen.foldl (closeHeld floats) w).penFinish
  else w

/-- The boundary mode toggles when its button goes down. -/
def toggle (hands : Hands R) (b : Bridge R) : Bridge R :=
  let clicked := b.tools.any fun path =>
    match hands.tool path with
    | some tool => tool.click
    | none => false
  let by_ := hands.key || clicked
  { b with
    boundaryMode := if by_ && !b.byPrev then !b.boundaryMode else b.boundaryMode
    byPrev := by_ }

/-- The last loop of `_forward_tools`: a menu button finishes. -/
def menuTool (hands : Hands R) (w : Authoring R) (path : Text) : Authoring R :=
  match hands.tool path with
  | some tool => if tool.menu then w.finish floats else w
  | none => w

/-- `_forward_tools`. -/
def forwardTools (w : Authoring R) (hands : Hands R) : Authoring R :=
  if hands.body = false then w
  else
    let w := w.bridge.tools.foldl (forwardTool floats hands) w
    let w := if hands.accept then w.finish floats else w
    let w := { w with bridge := toggle hands w.bridge }
    w.bridge.tools.foldl (menuTool floats hands) w

/-- The events of a replayed stroke, which has points. -/
def strokeEvents (number : Int) (first : R × R × R) (later : List (R × R × R))
    (boundary : Bool) : List (PenEvent R) :=
  [⟨.begin, number, first, half floats, boundary⟩]
    ++ later.map (fun place => ⟨.point, number, place, half floats, false⟩)
    ++ [⟨.end, number, nowhere floats, half floats, false⟩]

/-- `_replay_one`. -/
def replayOne (w : Authoring R) : Authoring R :=
  match w.bridge.replay with
  | [] => w
  | stroke :: rest =>
    let number := w.bridge.nextStroke
    let w := { w with bridge := { w.bridge with replay := rest, nextStroke := number + 1 } }
    match stroke.points with
    | [] => w -- a script error
    | first :: later =>
      let w := (strokeEvents floats number first later stroke.boundary).foldl send w
      if rest = [] then w.penFinish else w

/-- `_process` of the bridge. -/
def process (w : Authoring R) (hands : Hands R) : Authoring R :=
  if w.pipeline.state ≠ .author then w
  else if w.pipeline.opts.text "pen".toList = "scripted".toList then w.replayOne floats
  else w.forwardTools floats hands

variable (shapes : Shapes R)

/-- A frame of the pipeline, with the strokes that it hands over. -/
def frame (w : Authoring R) (a : Answers R) : Authoring R :=
  { w with
    pipeline := w.pipeline.process shapes a
    bridge :=
      match w.pipeline.strokesReady a with
      | some strokes => w.bridge.onStrokes w.pipeline.opts strokes
      | none => w.bridge }

/-- A start, which counts the events anew where it is let in. -/
def start (w : Authoring R) (clock : Clock) (workerBusy : Bool) (given : Options) : Authoring R :=
  match w.pipeline.start clock workerBusy given with
  | (p, answer) => { w with pipeline := p, sent := if answer = .started then [] else w.sent }

/-- What an occasion makes of the two. -/
def step (w : Authoring R) : Occasion R → Authoring R
  | .start clock workerBusy given => w.start clock workerBusy given
  | .frame answers => w.frame shapes answers
  | .hands hands => w.process shapes.floats hands
  | .done => w.penFinish

end Authoring

end DressOn.Host
