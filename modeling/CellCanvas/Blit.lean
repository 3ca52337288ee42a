import CellCanvas.Blit.Raster
import CellCanvas.Blit.Sampling
import CellCanvas.Blit.Shade
import CellCanvas.Paint.Painter

/-!
# Drawing a raster with glyphs

The raster is stretched over a destination rectangle. Every cell of it that the clip admits is
sampled, shaded and placed; a cell whose samples are all transparent is left alone. Transparent
samples take the background that the cell has at that moment.
-/

namespace CellCanvas.Blit

/-- The samples of the cell in column `cx` and row `cy` of a destination of `w` by `h` cells. -/
def samples (raster : Raster) (mode : Mode) (w h cx cy : Nat) (under : Color) : List Sample :=
  let (columns, rows) := mode.subpixels
  (List.range rows).flatMap fun j => (List.range columns).map fun i =>
    let p := raster.pixel
      (sampleAxis (subpixel cx columns i) raster.width w columns)
      (sampleAxis (subpixel cy rows j) raster.height h rows)
    if Color.isOpaque p.alpha then ⟨p.color, true⟩ else ⟨under, false⟩

/-- The background of the cell at a point; black outside the grid. -/
def backgroundAt (f : Frame) (x y : Int) : Color :=
  if f.bounds.contains x y then
    ((f.cell? x.toNat y.toNat).map fun c => c.style.background).getD .black
  else .black

/-- Draw the cell at offset `(cx, cy)` of the destination. -/
def drawCell (raster : Raster) (mode : Mode) (dst : Rect) (p : Painter) (cx cy : Nat) : Painter :=
  let x := dst.x + cx
  let y := dst.y + cy
  let under := backgroundAt p.frame x y
  let seen := samples raster mode dst.w.toNat dst.h.toNat cx cy under
  if seen.any Sample.isOpaque then
    let ink := mode.shade seen under
    p.place x y (.ofCluster ink.glyph.toString 1 (.colors ink.foreground ink.background))
  else p

/-- Draw a raster with a family of glyphs. -/
def draw (p : Painter) (dst : Rect) (raster : Raster) (mode : Mode) : Painter :=
  let (firstRow, rows) := Painter.overlap dst.y dst.h p.clip.y p.clip.bottom
  let (firstColumn, columns) := Painter.overlap dst.x dst.w p.clip.x p.clip.right
  let row := (firstRow - dst.y).toNat
  let column := (firstColumn - dst.x).toNat
  Nat.fold rows (fun i _ p =>
    Nat.fold columns (fun j _ p => drawCell raster mode dst p (column + j) (row + i)) p) p

end CellCanvas.Blit

namespace CellCanvas.Painter

/-- The family of glyphs that a request is served with, or why it is not served. -/
def blitMode (dst : Rect) (request : Blit.Request) (support : Blit.Support) :
    Except Failure Blit.Mode :=
  if dst.w < 0 ∨ dst.h < 0 then .error (.invalid .negativeTarget) else request.resolve support

/-- Draw a raster over a destination and return the family of glyphs that was used. -/
def blit (p : Painter) (dst : Rect) (raster : Raster) (request : Blit.Request)
    (support : Blit.Support) : Except Failure (Painter × Blit.Mode) := do
  let mode ← blitMode dst request support
  return (Blit.draw p dst raster mode, mode)

end CellCanvas.Painter
