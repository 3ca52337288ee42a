import CellCanvas.Capabilities
import CellCanvas.Frame.Links
import CellCanvas.Session.State

/-!
# Drafts

A draft is the list of commands for one frame while it is being built, with the terminal state that
the commands lead to. It is thrown away as a whole when the frame cannot be finished.
-/

namespace CellCanvas

/-- The commands for a frame so far. -/
structure Draft where
  commands : Array Command
  /-- Bytes of the commands. -/
  size : Nat
  state : TermState
  stats : RenderStats

namespace Draft

/-- The empty draft in a terminal state. -/
def start (state : TermState) : Draft := ⟨#[], 0, state, {}⟩

/-- Add a command. -/
def emit (d : Draft) (c : Command) : Draft :=
  { d with commands := d.commands.push c, size := d.size + c.size }

/-- Add commands in order. -/
def emitAll (d : Draft) (cs : List Command) : Draft := cs.foldl emit d

/-- Record where the cursor is. -/
def trackCursor (d : Draft) (cursor : Option (Nat × Nat)) : Draft :=
  { d with state := { d.state with cursor } }

/-- Move the cursor unless it is there. -/
def moveTo (d : Draft) (x y : Nat) : Draft :=
  if d.state.cursor = some (x, y) then d
  else (d.emit (.cursorTo x y)).trackCursor (some (x, y))

/-- Select a style unless it is selected. -/
def select (d : Draft) (style : SgrStyle) : Draft :=
  let d := match d.state.style with
    | some current => d.emitAll (Command.restyling current style)
    | none => d.emit (.establish style)
  { d with state := { d.state with style := some style } }

/-- Open a link, or none, unless it is open. -/
def openLink (d : Draft) (uri : Option String) : Draft :=
  if d.state.link = uri then d
  else
    let d := if d.state.link.isSome then d.emit .closeLink else d
    let d := match uri with
      | some text => d.emit (.openLink text)
      | none => d
    { d with state := { d.state with link := uri } }

/-- The last column that is tracked. -/
def lastColumn : Nat := 65535

/-- Write the cell at a position. A continuation is written by its lead. -/
def writeCell (caps : Capabilities) (f : Frame) (y : Nat) (d : Draft) (x : Nat) : Draft :=
  match f.cell? x y with
  | none => d
  | some c =>
    if c.isContinuation then d
    else
      let d := (d.moveTo x y).select (caps.resolve c.style)
      let d := if caps.hyperlinks then d.openLink (f.linkUri? c.style.link) else d
      (d.emit (.text c.glyph)).trackCursor (some (min (x + c.width) lastColumn, y))

/-- Write the columns `first` to `last` of a row. -/
def writeSpan (d : Draft) (caps : Capabilities) (f : Frame) (y : Nat) (span : Nat × Nat) : Draft :=
  let d := (List.range' span.1 (span.2 + 1 - span.1)).foldl (writeCell caps f y) d
  { d with stats := { d.stats with dirtyCells := d.stats.dirtyCells + (span.2 + 1 - span.1) } }

/-- Write spans of a row; the row counts as dirty if there are any. -/
def writeRow (d : Draft) (caps : Capabilities) (f : Frame) (y : Nat) (spans : List (Nat × Nat)) :
    Draft :=
  let d := spans.foldl (fun d span => d.writeSpan caps f y span) d
  if spans.isEmpty then d
  else { d with stats := { d.stats with dirtyLines := d.stats.dirtyLines + 1 } }

/-- Refuse a draft that has outgrown its budget. -/
def within (d : Draft) (budget : Nat) : Except Failure Draft :=
  if budget < d.size then .error (.limit .frameBytes) else .ok d

/-- Close the link that is open. -/
def closeLink (d : Draft) : Draft :=
  if d.state.link.isSome then
    let d := d.emit .closeLink
    { d with state := { d.state with link := none } }
  else d

/-- A requested coordinate as a position below `length`. -/
def clampAxis (v : Int) (length : Nat) : Nat := (max 0 (min v (length - 1))).toNat

/-- Set shape, visibility and position of the cursor as requested. Without a known position, a
request for the current one moves nothing. -/
def applyCursor (d : Draft) (caps : Capabilities) (f : Frame) (r : CursorRequest) : Draft :=
  let d :=
    if caps.cursorShape && d.state.cursorShape ≠ some r.shape then
      let d := d.emit (.shapeCursor r.shape)
      { d with state := { d.state with cursorShape := some r.shape } }
    else d
  let d :=
    if d.state.cursorVisible ≠ some r.visible then
      let d := d.emit (if r.visible then .showCursor else .hideCursor)
      { d with state := { d.state with cursorVisible := some r.visible } }
    else d
  if r.x = -1 ∧ r.y = -1 ∧ d.state.cursor.isNone then d
  else
    let (column, row) := d.state.cursor.getD (0, 0)
    d.moveTo (if r.x = -1 then column else clampAxis r.x f.width)
      (if r.y = -1 then row else clampAxis r.y f.height)

end Draft

end CellCanvas
