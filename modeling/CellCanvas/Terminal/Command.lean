import CellCanvas.Terminal.Sgr
import CellCanvas.Total

/-!
# Terminal commands

What the library sends to a terminal is a list of commands. A command is written as a list of
pieces; a bounded output takes each piece whole or stops before it. Positions count from zero here
and from one on the wire.
-/

namespace CellCanvas

/-- The shape of the hardware cursor. -/
inductive CursorShape where
  | terminalDefault
  | blinkingBlock
  | steadyBlock
  | blinkingUnderline
  | steadyUnderline
  | blinkingBar
  | steadyBar
deriving DecidableEq, Inhabited, Repr

namespace CursorShape

/-- The number of a shape on the wire. -/
def number : CursorShape → Nat
  | terminalDefault => 0
  | blinkingBlock => 1
  | steadyBlock => 2
  | blinkingUnderline => 3
  | steadyUnderline => 4
  | blinkingBar => 5
  | steadyBar => 6

/-- The shape with a number. -/
def ofNumber? : Nat → Option CursorShape
  | 0 => some terminalDefault
  | 1 => some blinkingBlock
  | 2 => some steadyBlock
  | 3 => some blinkingUnderline
  | 4 => some steadyUnderline
  | 5 => some blinkingBar
  | 6 => some steadyBar
  | _ => none

end CursorShape

/-- One control sequence, or text to show. -/
inductive Command where
  | cursorTo (x y : Nat)
  | hideCursor
  | showCursor
  | shapeCursor (shape : CursorShape)
  | clearScreen
  | resetStyle
  | scrollRegion (top bottom : Nat)
  | resetScrollRegion
  | scrollUp (lines : Nat)
  | scrollDown (lines : Nat)
  /-- Reset the style, then apply the parameters. -/
  | restyle (parameters : List SgrParameter)
  /-- Apply the parameters to the current style. -/
  | adjustStyle (parameters : List SgrParameter)
  | openLink (uri : String)
  | closeLink
  | beginUpdate
  | endUpdate
  | enterAlternateScreen
  | leaveAlternateScreen
  | text (glyph : String)
deriving DecidableEq, Repr

namespace Command

/-- The pieces of parameters with semicolons between them. -/
def separated : List SgrParameter → List String
  | [] => []
  | [p] => p.pieces
  | p :: rest => p.pieces ++ ";" :: separated rest

/-- The pieces in which a command is written. -/
def pieces : Command → List String
  | cursorTo x y => ["\x1b[", toString (y + 1), ";", toString (x + 1), "H"]
  | hideCursor => ["\x1b[?25l"]
  | showCursor => ["\x1b[?25h"]
  | shapeCursor shape => ["\x1b[", toString shape.number, " q"]
  | clearScreen => ["\x1b[2J"]
  | resetStyle => ["\x1b[0m"]
  | scrollRegion top bottom => ["\x1b[", toString (top + 1), ";", toString (bottom + 1), "r"]
  | resetScrollRegion => ["\x1b[r"]
  | scrollUp lines => ["\x1b[", toString lines, "S"]
  | scrollDown lines => ["\x1b[", toString lines, "T"]
  | restyle parameters => "\x1b[0" :: (parameters.flatMap fun p => ";" :: p.pieces) ++ ["m"]
  | adjustStyle parameters => "\x1b[" :: separated parameters ++ ["m"]
  | openLink uri => ["\x1b]8;;", uri, "\x1b\\"]
  | closeLink => ["\x1b]8;;\x1b\\"]
  | beginUpdate => ["\x1b[?2026h"]
  | endUpdate => ["\x1b[?2026l"]
  | enterAlternateScreen => ["\x1b[?1049h"]
  | leaveAlternateScreen => ["\x1b[?1049l"]
  | text glyph => [glyph]

/-- A command as written. -/
def encode (c : Command) : String := String.join c.pieces

/-- The number of bytes of a command. -/
def size (c : Command) : Nat := total (c.pieces.map String.utf8ByteSize)

/-- The command that establishes a style whatever the terminal's state is. -/
def establish (s : SgrStyle) : Command := .restyle s.parameters

/-- The commands that change one style into another: none if they are equal. -/
def restyling (a b : SgrStyle) : List Command :=
  if a = b then []
  else if a.onlyAdds b then [.adjustStyle (a.changes b)]
  else [establish b]

/-- Commands as written one after the other. -/
def encodeAll (cs : List Command) : String := String.join (cs.map encode)

end Command

end CellCanvas
