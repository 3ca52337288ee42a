import CellCanvas.Output
import CellCanvas.Scroll
import CellCanvas.Session.Comparison
import CellCanvas.Session.Draft

/-!
# Render sessions

A session keeps the frame that the terminal shows and turns the next frame into the commands that
lead from one to the other. A render either succeeds, and then its bytes, the new terminal state
and the new frame are kept together, or it fails and the session is as it was.
-/

namespace CellCanvas

/-- A renderer with its retained frame, its knowledge of the terminal and its pending output. -/
structure Session where
  output : Output
  previous : Option Frame
  state : TermState
  options : RenderOptions

namespace Session

/-- A session without a retained frame. -/
def start (options : RenderOptions) (output : Output) : Session := ⟨output, none, {}, options⟩

/-- Forget the retained frame and all knowledge of the terminal. -/
def forceRedraw (s : Session) : Session := { s with previous := none, state := {} }

/-- Write a whole row. -/
def wholeRow (caps : Capabilities) (f : Frame) (d : Draft) (y : Nat) : Draft :=
  d.writeRow caps f y [(0, f.width - 1)]

/-- Clear the screen and write every row. -/
def redraw (caps : Capabilities) (f : Frame) (budget : Nat) (d : Draft) : Except Failure Draft :=
  let d := (d.emit .resetStyle).emit .clearScreen
  let d := { d with
    state := { d.state with style := none, cursor := none }
    stats := { d.stats with fullRedraw := true } }
  (List.range f.height).foldlM (fun d y => (wholeRow caps f d y).within budget) d

/-- Let the terminal shift rows, and write the rows that the shift leaves blank. Setting a scroll
region moves the cursor away. -/
def shift (caps : Capabilities) (f : Frame) (budget : Nat) (plan : ScrollPlan) (d : Draft) :
    Except Failure Draft :=
  let d := { d with stats := { d.stats with scrollHit := true } }
  let d := d.emitAll
    [.scrollRegion plan.top plan.bottom,
     if plan.up then .scrollUp plan.lines else .scrollDown plan.lines,
     .resetScrollRegion]
  let d := d.trackCursor none
  let (first, last) := plan.exposed
  ((List.range' first (last + 1 - first)).foldl (wholeRow caps f) d).within budget

/-- The scroll plan that is used between two frames. -/
def scrollPlan? (c : Comparison) (dirtyRows : Nat) : Option ScrollPlan :=
  ScrollPlan.detect c.next.height c.next.width dirtyRows c.sameRow

/-- Write the spans of some rows in which the new frame differs from the old one. -/
def updateRows (caps : Capabilities) (budget : Nat) (c : Comparison) (rows : List Nat)
    (d : Draft) : Except Failure Draft :=
  rows.foldlM (fun d y => (d.writeRow caps c.next y (c.spans y)).within budget) d

/-- Write the cells in which the new frame differs from the old one, after a scroll if that is
allowed and there is a worthwhile plan. -/
def update (caps : Capabilities) (scroll : Bool) (budget : Nat) (c : Comparison) (d : Draft) :
    Except Failure Draft :=
  let dirty := (List.range c.next.height).filter fun y => !c.sameRow y y
  if dirty.isEmpty then .ok d
  else if scroll && caps.scrollRegion then
    let d := { d with stats := { d.stats with scrollAttempted := true } }
    match scrollPlan? c dirty.length with
    | some plan => do
      let d ← shift caps c.next budget plan d
      updateRows caps budget c (dirty.filter fun y => !plan.covers y) d
    | none => updateRows caps budget c dirty d
  else updateRows caps budget c dirty d

/-- The draft that leads from a session's retained frame to the next one. -/
def draft (s : Session) (f : Frame) (caps : Capabilities) (cursor : Option CursorRequest) :
    Except Failure Draft := do
  let d := Draft.start s.state
  if f.width = 0 ∨ f.height = 0 then return d
  let budget := s.options.maxFrameBytes
  let opened := if caps.synchronizedUpdate then d.emit .beginUpdate else d
  let body ← match s.previous with
    | some p =>
      if p.width = f.width ∧ p.height = f.height then
        update caps s.options.scrollOptimization budget (.of p f) opened
      else redraw caps f budget opened
    | none => redraw caps f budget opened
  let body := match cursor with
    | some r => body.applyCursor caps f r
    | none => body
  let body := body.closeLink
  let closed :=
    if body.size = opened.size then { body with commands := #[], size := 0 }
    else if caps.synchronizedUpdate then body.emit .endUpdate
    else body
  return { closed with stats := { closed.stats with bytes := closed.size } }

/-- Render a frame: add the bytes that turn the retained frame into it, and retain it. -/
def render (s : Session) (f : Frame) (caps : Capabilities) (cursor : Option CursorRequest) :
    Except Failure (Session × RenderStats) := do
  let d ← (← s.draft f caps cursor).within s.options.maxFrameBytes
  let output ← s.output.append (Command.encodeAll d.commands.toList).toUTF8
  return ({ s with output, previous := some f, state := d.state }, d.stats)

end Session

end CellCanvas
