import CellCanvas.Image.Png.Blocks
import CellCanvas.Image.Png.Chunks
import CellCanvas.Image.Png.Passes

/-!
# Reading PNG files

The images that are read have the channels of those that are written, in plain or interlaced rows.
-/

namespace CellCanvas.Png

/-- The width and the height in header data, and whether the image is interlaced. -/
def dimensions? (data : ByteArray) : Option (Nat × Nat × Bool) :=
  let w := wordAt data 0
  let h := wordAt data 4
  let interlaced := Raster.byteAt data 12 = 1
  if w = 0 ∨ h = 0 ∨ data.extract 0 13 != header w h interlaced then none
  else some (w, h, interlaced)

/-- Read the image of a file. -/
def read? (file : ByteArray) : Option Image := do
  if file.extract 0 8 != bytesOf signature then none
  else
    let first ← chunkAt? file 8
    if !first.intact || first.name != "IHDR".toUTF8 then none
    else
      let (w, h, interlaced) ← dimensions? first.data
      let start ← dataStart? file first.next false file.size
      let stream ← dataFrom? file start .empty file.size
      return ⟨w, h, ← unfiltered? (← contents? stream) w h interlaced⟩

end CellCanvas.Png
