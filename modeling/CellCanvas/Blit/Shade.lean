import CellCanvas.Blit.Mode
import CellCanvas.Blit.Partition

/-!
# Shading a cell

For each family of glyphs, the glyph and the two colours that stand for the samples of one cell.
Samples come row by row. A transparent sample already has the colour of the background under it.
-/

namespace CellCanvas.Blit

/-- One sample of a cell. -/
structure Sample where
  color : Color
  isOpaque : Bool
deriving DecidableEq, Inhabited, Repr

/-- What is drawn in one cell. -/
structure Ink where
  glyph : Char
  foreground : Color
  background : Color
deriving DecidableEq, Inhabited, Repr

/-- One sample as a coloured space. -/
def shadeAscii (samples : List Sample) : Ink :=
  let c := (samples.headD default).color
  ⟨' ', c, c⟩

/-- Colours this close are drawn as one flat cell. -/
def flatDistance : Nat := 256

/-- An upper and a lower sample as half blocks; the brighter of two opaque samples is ink. -/
def shadeHalfblock (samples : List Sample) : Ink :=
  let top := samples.headD default
  let bottom := samples.getD 1 default
  let upper : Ink := ⟨'\u2580', top.color, bottom.color⟩
  let lower : Ink := ⟨'\u2584', bottom.color, top.color⟩
  if top.color.distanceSq bottom.color ≤ flatDistance then ⟨' ', top.color, top.color⟩
  else if top.isOpaque != bottom.isOpaque then (if top.isOpaque then upper else lower)
  else if bottom.color.luma ≤ top.color.luma then upper
  else lower

/-- The quadrant glyph of a mask: bit 0 is top left, 1 top right, 2 bottom left, 3 bottom right. -/
def quadrantGlyph (mask : Nat) : Char :=
  #[' ', '\u2598', '\u259D', '\u2580', '\u2596', '\u258C', '\u259E', '\u259B',
    '\u2597', '\u259A', '\u2590', '\u259C', '\u2584', '\u2599', '\u259F', '\u2588'].getD mask ' '

/-- Four samples as quadrant blocks. -/
def shadeQuadrant (samples : List Sample) : Ink :=
  let split := bestSplit (samples.map Sample.color)
  ⟨quadrantGlyph split.mask, split.foreground, split.background⟩

/-- The sextant glyph of a mask. The patterns that older block characters have are left out of the
sextant block, so the numbers above them move down. -/
def sextantGlyph (mask : Nat) : Char :=
  if mask = 0 then ' '
  else if mask = 63 then '\u2588'
  else if mask = 21 then '\u258C'
  else if mask = 42 then '\u2590'
  else .ofNat (0x1FB00 + mask - 1 - (if 21 < mask then 1 else 0) - (if 42 < mask then 1 else 0))

/-- Six samples as sextant blocks. -/
def shadeSextant (samples : List Sample) : Ink :=
  let split := bestSplit (samples.map Sample.color)
  ⟨sextantGlyph split.mask, split.foreground, split.background⟩

/-- The dot bits of the samples, row by row. -/
def dotBits : List Nat := [1, 8, 2, 16, 4, 32, 64, 128]

/-- Eight samples as braille dots. A dot is lit by an opaque sample at least as bright as the
cell's mean; a group without samples takes the colour under the cell. -/
def shadeBraille (samples : List Sample) (under : Color) : Ink :=
  let threshold := total (samples.map fun s => s.color.luma) / 8
  let isLit (s : Sample) : Bool := s.isOpaque && threshold ≤ s.color.luma
  let dots := (dotBits.zip samples).map fun (bit, s) => if isLit s then bit else 0
  { glyph := .ofNat (0x2800 + total dots)
    foreground := (Color.mean? ((samples.filter isLit).map Sample.color)).getD under
    background := (Color.mean? ((samples.filter (!isLit ·)).map Sample.color)).getD under }

/-- The ink of a cell. -/
def Mode.shade (mode : Mode) (samples : List Sample) (under : Color) : Ink :=
  match mode with
  | .ascii => shadeAscii samples
  | .halfblock => shadeHalfblock samples
  | .quadrant => shadeQuadrant samples
  | .sextant => shadeSextant samples
  | .braille => shadeBraille samples under

end CellCanvas.Blit
