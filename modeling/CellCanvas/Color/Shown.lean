import CellCanvas.Color.Palette

/-!
# Colours as a terminal shows them

A terminal shows 24-bit colours, the 256-colour palette or the sixteen classic colours. A packed
colour is reduced to what the terminal can show right before it is written.
-/

namespace CellCanvas

/-- How many colours the terminal can show. -/
inductive ColorMode where
  | rgb
  | palette256
  | classic16
deriving DecidableEq, Inhabited, Repr

/-- A colour after reduction to a colour mode. -/
inductive ShownColor where
  | direct (r g b : UInt8)
  | indexed (i : UInt8)
deriving DecidableEq, Inhabited, Repr

namespace ShownColor

/-- Reduce a packed colour for the given mode. -/
def reduce (mode : ColorMode) (c : Color) : ShownColor :=
  match mode with
  | .rgb => .direct (.ofNat c.red) (.ofNat c.green) (.ofNat c.blue)
  | .palette256 => .indexed (.ofNat (Palette.nearestExtended c))
  | .classic16 => .indexed (.ofNat (Palette.nearestClassic c))

/-- The colour that is displayed. -/
def displayed : ShownColor → Color
  | direct r g b => .ofChannels r.toNat g.toNat b.toNat
  | indexed i => Palette.color i.toNat

end ShownColor

end CellCanvas
