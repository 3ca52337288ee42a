import CellCanvas.Frame

/-!
# Writing cells without half glyphs

Writing over one half of a wide glyph turns its other half into a space, so no half glyph survives
a write. The half that is repaired may be the neighbour on either side. There is no clipping here.
-/

namespace CellCanvas.Frame

/-- Whether a cell can be written: the position is in the grid, and a half glyph that is there has
room for its other half. -/
def accepts (f : Frame) (x y : Nat) : Bool :=
  match f.cell? x y with
  | none => false
  | some c => !(c.isContinuation && x == 0) && !(c.isWide && f.width ≤ x + 1)

/-- Repair the neighbours of a cell that is about to be overwritten in the given style. -/
def detach (f : Frame) (x y : Nat) (style : Style) : Frame :=
  let onContinuation := (f.cell? x y).any Cell.isContinuation
  let onLead := (f.cell? x y).any Cell.isWide
  let f := if onContinuation then f.set (x - 1) y (.blank style) else f
  let f := if onLead then f.set (x + 1) y (.blank style) else f
  if (f.cell? (x + 1) y).any Cell.isContinuation then f.set (x + 1) y (.blank style) else f

/-- Write a cell of one column. -/
def writeNarrow (f : Frame) (x y : Nat) (c : Cell) : Frame :=
  if f.accepts x y then (f.detach x y c.style).set x y c else f

/-- Write the lead of a wide glyph and its continuation. The two columns are freed first. -/
def writeWide (f : Frame) (x y : Nat) (lead : Cell) : Frame :=
  if f.width ≤ x + 1 || !f.accepts x y then f
  else
    let f := f.writeNarrow x y (.blank lead.style)
    if f.accepts (x + 1) y then
      let f := f.writeNarrow (x + 1) y (.blank lead.style)
      (f.set x y lead).set (x + 1) y (.continuation lead.style)
    else f

end CellCanvas.Frame
