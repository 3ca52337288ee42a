import CellCanvas.Blit.Mode
import CellCanvas.Style
import CellCanvas.Terminal.Sgr

/-!
# Terminal capabilities

What a terminal can show, handed in by the caller; nothing here asks the terminal. Every field has
a default, so a description only names what differs.
-/

namespace CellCanvas

/-- Which image protocols the terminal speaks, and the size of its cells in pixels. -/
structure ImageSupport where
  kitty : Bool := false
  sixel : Bool := false
  iterm2 : Bool := false
  cellWidth : Nat := 8
  cellHeight : Nat := 16
deriving DecidableEq, Inhabited, Repr

/-- Everything the renderer needs to know about a terminal. The defaults describe a modern terminal
with 24-bit colour and without image protocols. -/
structure Capabilities where
  colorMode : ColorMode := .rgb
  /-- The attributes that the terminal shows; others are dropped. -/
  attributes : Attributes := .all
  synchronizedUpdate : Bool := true
  scrollRegion : Bool := true
  cursorShape : Bool := true
  hyperlinks : Bool := true
  underlineColor : Bool := false
  blit : Blit.Support := {}
  images : ImageSupport := {}
deriving DecidableEq, Inhabited, Repr

/-- Choices about rendering. -/
structure RenderOptions where
  /-- Let the terminal move rows that only moved. -/
  scrollOptimization : Bool := true
  /-- A frame with more bytes fails and sends nothing. -/
  maxFrameBytes : Nat := 4194304
deriving DecidableEq, Inhabited, Repr

namespace Capabilities

/-- A terminal with sixteen colours and nothing else. -/
def dumb : Capabilities where
  colorMode := .classic16
  attributes := .empty
  synchronizedUpdate := false
  scrollRegion := false
  cursorShape := false
  hyperlinks := false
  underlineColor := false
  blit := { isDumb := true, unicode := false }

/-- A style as this terminal shows it. -/
def resolve (caps : Capabilities) (s : Style) : SgrStyle where
  foreground := .reduce caps.colorMode s.foreground
  background := .reduce caps.colorMode s.background
  attributes := s.attributes.inter caps.attributes
  underline := if caps.underlineColor then s.underline else .black

end Capabilities

end CellCanvas
