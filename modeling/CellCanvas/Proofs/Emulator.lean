import CellCanvas.Paint.Painter
import CellCanvas.Proofs.Emulator.Screen

/-!
# A terminal

An emulator reads characters and keeps what a terminal keeps: the screen, the cursor with its
deferred wrap, the rendition, the open link, the scroll region, and how the cursor looks. Which
characters form one glyph, and how many columns it takes, is not decided here but by a layout: the
cluster that starts at the cursor.
-/

namespace CellCanvas

open Wire

/-- The cluster that starts in a column of a row. -/
abbrev Layout := Nat → Nat → Option Cluster

/-- The state of a terminal. -/
structure Emulator where
  width : Nat
  height : Nat
  screen : Screen
  column : Nat
  row : Nat
  /-- A glyph was shown in the last column, and the next one starts a new row. -/
  wrapNext : Bool
  rendition : Rendition
  link : Option String
  /-- First and last row of the scroll region. -/
  top : Nat
  bottom : Nat
  visible : Bool
  shape : CursorShape
  /-- How far the current sequence has been read. -/
  mode : Mode
  /-- The characters of a glyph that is not complete. -/
  held : List Char

namespace Emulator

/-- A terminal that has read nothing. -/
def fresh (width height : Nat) : Emulator where
  width
  height
  screen := .blank {}
  column := 0
  row := 0
  wrapNext := false
  rendition := {}
  link := none
  top := 0
  bottom := height - 1
  visible := true
  shape := .terminalDefault
  mode := .ground
  held := []

/-- Go to the start of the next row; below the scroll region everything in it moves up. -/
def newLine (t : Emulator) : Emulator :=
  { t with
    screen := if t.row = t.bottom then t.screen.shiftUp t.top t.bottom 1 t.rendition else t.screen
    row := if t.row = t.bottom then t.row else min (t.row + 1) (t.height - 1)
    column := 0
    wrapNext := false }

/-- Show a glyph at the cursor. -/
def writeHere (t : Emulator) (glyph : String) (columns : Nat) : Emulator :=
  { t with
    screen := t.screen.put t.column t.row ⟨glyph, columns, t.rendition, t.link⟩
    column := min (t.column + columns) (t.width - 1)
    wrapNext := t.width ≤ t.column + columns }

/-- Show a glyph, on the next row if a wrap is due or the row has no room for it. -/
def write (t : Emulator) (glyph : String) (columns : Nat) : Emulator :=
  if t.wrapNext ∨ t.width < t.column + columns then t.newLine.writeHere glyph columns
  else t.writeHere glyph columns

/-- Read a character to show. A character that fits no cluster of the layout stands alone. -/
def receive (layout : Layout) (t : Emulator) (c : Char) : Emulator :=
  let seen := t.held ++ [c]
  match layout t.column t.row with
  | some cluster =>
    if cluster.text.toList = seen then ({ t with held := [] }).write cluster.text cluster.columns
    else if seen <+: cluster.text.toList then { t with held := seen }
    else ({ t with held := [] }).write (String.singleton c) 1
  | none => ({ t with held := [] }).write (String.singleton c) 1

/-- Put the cursor at a position given from one on, or as near to it as the screen allows. -/
def moveTo (t : Emulator) (column row : Nat) : Emulator :=
  { t with
    column := min (column - 1) (t.width - 1)
    row := min (row - 1) (t.height - 1)
    wrapNext := false }

/-- Set the scroll region to rows given from one on, zero standing for the last row, and send the
cursor home. A region of less than two rows is ignored. -/
def setRegion (t : Emulator) (top bottom : Nat) : Emulator :=
  let last := (if bottom = 0 then t.height else min bottom t.height) - 1
  if top - 1 < last then
    { t with top := top - 1, bottom := last, column := 0, row := 0, wrapNext := false }
  else t

/-- Act on a control sequence; those without a meaning here are ignored. -/
def act (t : Emulator) (ps : List Char) (final : Char) : Emulator :=
  let first (missing : Nat) := (numbers ps).getD 0 missing
  let second (missing : Nat) := (numbers ps).getD 1 missing
  match final with
  | 'H' => t.moveTo (second 1) (first 1)
  | 'J' => if ps = ['2'] then { t with screen := .blank t.rendition } else t
  | 'm' => { t with rendition := t.rendition.select ps }
  | 'r' => t.setRegion (first 1) (second 0)
  | 'S' => { t with screen := t.screen.shiftUp t.top t.bottom (max (first 1) 1) t.rendition }
  | 'T' => { t with screen := t.screen.shiftDown t.top t.bottom (max (first 1) 1) t.rendition }
  | 'h' => if ps = ['?', '2', '5'] then { t with visible := true } else t
  | 'l' => if ps = ['?', '2', '5'] then { t with visible := false } else t
  | 'q' =>
    if ps.getLast? = some ' ' then
      { t with shape := (CursorShape.ofNumber? (number ps.dropLast)).getD t.shape }
    else t
  | _ => t

/-- Act on a string: command 8 opens a link, or closes it when the address is empty. -/
def obey (t : Emulator) (opener : Char) (body : List Char) : Emulator :=
  match opener, body with
  | ']', '8' :: ';' :: rest =>
    let uri := (rest.dropWhile (· ≠ ';')).drop 1
    { t with link := if uri = [] then none else some (String.ofList uri) }
  | _, _ => t

/-- Act on a token. -/
def perform (layout : Layout) (t : Emulator) : Token → Emulator
  | .shown c => t.receive layout c
  | .control ps final => ({ t with held := [] }).act ps final
  | .string opener body => ({ t with held := [] }).obey opener body

/-- Read characters. -/
def read (layout : Layout) (t : Emulator) (cs : List Char) : Emulator :=
  let scanned := scan t.mode cs
  { scanned.2.foldl (perform layout) t with mode := scanned.1 }

/-- Read the bytes of a text; bytes that are no text are ignored. -/
def readBytes (layout : Layout) (t : Emulator) (bytes : ByteArray) : Emulator :=
  match String.fromUTF8? bytes with
  | some text => t.read layout text.toList
  | none => t

end Emulator

end CellCanvas
