import CellCanvas.Color
import CellCanvas.Size

/-!
# Rasters

A raster is a block of pixels with four bytes each, row after row; consecutive rows start `stride`
bytes apart. A `Raster` exists only if all of its pixels lie in the block, so `pixel` never reads
outside.
-/

namespace CellCanvas

/-- Red, green, blue and alpha of a pixel. -/
structure Pixel where
  red : UInt8
  green : UInt8
  blue : UInt8
  alpha : UInt8
deriving DecidableEq, Inhabited, Repr

/-- The colour of a pixel. -/
def Pixel.color (p : Pixel) : Color := .ofChannels p.red.toNat p.green.toNat p.blue.toNat

/-- Pixels with red, green, blue and alpha. -/
structure Raster where
  bytes : ByteArray
  width : Nat
  height : Nat
  stride : Nat
  width_pos : 0 < width
  height_pos : 0 < height
  row_le_stride : width * 4 ≤ stride
  fits : stride * (height - 1) + width * 4 ≤ bytes.size

namespace Raster

/-- Check that every row of a raster lies in its bytes. -/
def ofBytes (bytes : ByteArray) (width height stride : Nat) : Except Failure Raster := do
  if hw : 0 < width then
    if hh : 0 < height then
      let row ← Size.mul width 4
      if hs : width * 4 ≤ stride then
        let _ ← Size.add (← Size.mul stride (height - 1)) row
        if hf : stride * (height - 1) + width * 4 ≤ bytes.size then
          return ⟨bytes, width, height, stride, hw, hh, hs, hf⟩
        else throw (.invalid .rasterLength)
      else throw (.invalid .rasterStride)
    else throw (.invalid .rasterSide)
  else throw (.invalid .rasterSide)

/-- A raster whose rows follow each other without a gap. -/
def packed (bytes : ByteArray) (width height : Nat) : Except Failure Raster := do
  ofBytes bytes width height (← Size.mul width 4)

/-- The byte at an offset; zero past the end. -/
def byteAt (bytes : ByteArray) (i : Nat) : UInt8 :=
  if h : i < bytes.size then bytes[i] else 0

/-- The pixel at a column and a row. -/
def pixel (r : Raster) (x y : Nat) : Pixel :=
  let o := y * r.stride + x * 4
  ⟨byteAt r.bytes o, byteAt r.bytes (o + 1), byteAt r.bytes (o + 2), byteAt r.bytes (o + 3)⟩

end Raster

end CellCanvas
