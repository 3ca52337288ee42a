import CellCanvas.Blit.Raster
import CellCanvas.Image.Png

/-!
# Blocks of image data

The stream of the image data has two bytes in front, then blocks, then a checksum. An image needs
only the bytes of its rows, so a stream that stops early is read as far as it goes, and nothing
after the last block matters; a block whose head contradicts itself makes the stream unreadable.
-/

namespace CellCanvas.Png

/-- Whether two bytes can stand in front of a stream: the method is the one of PNG, the window is
not larger than the method allows, no dictionary is needed, and the check bits are right. -/
def isStreamHead (method flags : UInt8) : Bool :=
  method &&& 0xF = 8 && method ≤ 0x7F && flags &&& 0x20 = 0
    && (method.toNat * 256 + flags.toNat) % 31 = 0

/-- The bytes of uncompressed blocks from an offset on, after `out`. Of the first byte of a block,
one bit says that it is the last, two say how it is compressed, and the others are free. Every block
takes at least five bytes, so `fuel` may be the size of the stream. -/
def blocksFrom? (b : ByteArray) (offset : Nat) (out : ByteArray) : Nat → Option ByteArray
  | 0 => some out
  | fuel + 1 =>
    let head := Raster.byteAt b offset
    let kind := head >>> 1 &&& 3
    if b.size < offset + 2 then some out
    else if kind = 3 then none
    else if kind ≠ 0 ∨ b.size < offset + 5 then some out
    else
      let length := (Raster.byteAt b (offset + 1)).toNat
        + (Raster.byteAt b (offset + 2)).toNat * 256
      let complement := (Raster.byteAt b (offset + 3)).toNat
        + (Raster.byteAt b (offset + 4)).toNat * 256
      if length + complement ≠ maxBlock then none
      else
        let stop := offset + 5 + length
        let out := out ++ b.extract (offset + 5) stop
        if head &&& 1 = 1 then some out else blocksFrom? b stop out fuel

/-- The bytes in a stream. -/
def contents? (b : ByteArray) : Option ByteArray :=
  if isStreamHead (Raster.byteAt b 0) (Raster.byteAt b 1) then blocksFrom? b 2 .empty b.size
  else none

end CellCanvas.Png
