import CellCanvas.Color
import CellCanvas.Style.Attributes

/-!
# Styles

A style is everything about a cell except its glyph.
-/

namespace CellCanvas

/-- Colours, attributes and hyperlink of a cell. -/
structure Style where
  foreground : Color
  background : Color
  attributes : Attributes
  /-- Underline colour; zero stands for the terminal's own choice. -/
  underline : Color
  /-- Number of an entry of the frame's link table, counted from one; zero is no link. -/
  link : Nat
deriving DecidableEq, Inhabited, Repr

namespace Style

/-- Black on black, nothing else. -/
def plain : Style := ⟨.black, .black, .empty, .black, 0⟩

/-- Two colours, nothing else. -/
def colors (foreground background : Color) : Style :=
  { plain with foreground, background }

/-- The style without its link. -/
def unlinked (s : Style) : Style := { s with link := 0 }

end Style

end CellCanvas
