import CellCanvas.Terminal.Command

/-!
# What is known about the terminal

The renderer keeps track of the terminal so that it only sends what changes something. A part that
is unknown is sent again before anything relies on it.
-/

namespace CellCanvas

/-- The known part of the terminal's state. -/
structure TermState where
  /-- Column and row. The column equals the width right after a glyph in the last column. -/
  cursor : Option (Nat × Nat) := none
  style : Option SgrStyle := none
  /-- The address of the open link. -/
  link : Option String := none
  cursorVisible : Option Bool := none
  cursorShape : Option CursorShape := none
deriving DecidableEq, Repr

/-- Where the hardware cursor goes after a frame. -/
structure CursorRequest where
  /-- Column, or `-1` for the current one. -/
  x : Int := -1
  /-- Row, or `-1` for the current one. -/
  y : Int := -1
  visible : Bool := true
  shape : CursorShape := .terminalDefault
deriving DecidableEq, Repr

/-- What a render did. -/
structure RenderStats where
  /-- Rows with at least one written cell. -/
  dirtyLines : Nat := 0
  /-- Cells in the written spans. -/
  dirtyCells : Nat := 0
  fullRedraw : Bool := false
  scrollAttempted : Bool := false
  scrollHit : Bool := false
  /-- Bytes added to the output. -/
  bytes : Nat := 0
deriving DecidableEq, Repr

namespace CursorRequest

/-- A visible cursor at a position. -/
def shownAt (x y : Int) : CursorRequest := { x, y }

/-- A hidden cursor that stays where it is. -/
def hidden : CursorRequest := { visible := false }

end CursorRequest

end CellCanvas
