import CellCanvas.Image.Base64
import CellCanvas.Image.Png
import CellCanvas.Image.Scratch
import CellCanvas.Terminal.Command

/-!
# Inline image files

The iTerm2 protocol carries a whole image file as base64 in one sequence and scales it to a cell
area. Pixels are made into a PNG file first, by an encoder that is a parameter: its files may have
any bytes and any size, and it may fail.
-/

namespace CellCanvas

/-- An encoder of PNG files: the pixels, the width and the height decide what it gives. -/
abbrev PngEncoder := ByteArray → Nat → Nat → Except Failure ByteArray

/-- The encoder that writes uncompressed files. -/
def Png.encoder : PngEncoder := fun pixels w h => .ok (write pixels w h)

namespace InlineFile

/-- Show a file at a cell in an area of cells. -/
def encode (file : ByteArray) (column row columns rows : Nat) : Except Failure String := do
  if file.isEmpty then throw (.invalid .emptyPng)
  if columns = 0 ∨ rows = 0 then throw (.invalid .cellArea)
  return (Command.cursorTo column row).encode
    ++ "\x1b]1337;File=inline=1;width=" ++ toString columns ++ ";height=" ++ toString rows
    ++ ";preserveAspectRatio=1;size=" ++ toString file.size ++ ":"
    ++ Base64.encode file ++ "\x07"

/-- What a PNG file may need beyond its pixels and one byte a row. -/
def fileOverhead : Nat := 1024

/-- Make a PNG file of pixels; the file's greatest size is charged. -/
def pngFile (png : PngEncoder) (pixels : ByteArray) (w h : Nat) : Scratching ByteArray := do
  if w = 0 ∨ h = 0 then throw (.invalid .imageSide)
  let size ← Size.rgba w h
  if pixels.size < size then throw (.invalid .pixelLength)
  Scratch.charge (size + h + fileOverhead)
  png (pixels.extract 0 size) w h

/-- Show pixels at a cell in an area of cells. -/
def encodePixels (png : PngEncoder) (pixels : ByteArray) (w h column row columns rows : Nat) :
    Scratching String :=
  Scratch.scope do
    let file ← pngFile png pixels w h
    encode file column row columns rows

end InlineFile

end CellCanvas
