import CellCanvas.Blit.Raster
import CellCanvas.Image.Png

/-!
# Chunks of a PNG file

After its signature a file is a row of chunks: the header, chunks about the image, the image data,
and the rest. The image data is one stream cut into consecutive chunks, and nothing after it is
looked at but the head of the chunk that ends it.
-/

namespace CellCanvas.Png

/-- The number in four bytes at an offset. -/
def wordAt (b : ByteArray) (i : Nat) : Nat :=
  ((Raster.byteAt b i).toNat * 256 + (Raster.byteAt b (i + 1)).toNat) * 65536
    + (Raster.byteAt b (i + 2)).toNat * 256 + (Raster.byteAt b (i + 3)).toNat

/-- A chunk that is wholly there. -/
structure Chunk where
  name : ByteArray
  data : ByteArray
  /-- Whether the checksum is that of the name and the data. -/
  intact : Bool
  /-- Where the next chunk starts. -/
  next : Nat

/-- Whether a reader may leave the chunk out: its name starts with a small letter. -/
def Chunk.optional (c : Chunk) : Bool := Raster.byteAt c.name 0 &&& 0x20 != 0

/-- The name of the chunk that starts at an offset, if its length and name are there. -/
def nameAt? (b : ByteArray) (offset : Nat) : Option ByteArray :=
  if b.size < offset + 8 then none else some (b.extract (offset + 4) (offset + 8))

/-- The chunk that starts at an offset. -/
def chunkAt? (b : ByteArray) (offset : Nat) : Option Chunk :=
  let dataEnd := offset + 8 + wordAt b offset
  if b.size < dataEnd + 4 then none
  else
    let name := b.extract (offset + 4) (offset + 8)
    let data := b.extract (offset + 8) dataEnd
    some ⟨name, data, wordAt b dataEnd = (Checksum.crc32 (name ++ data)).toNat, dataEnd + 4⟩

/-- Where the image data starts. Of the chunks before it, those that may be left out are passed
over, damaged or not; of the others only one palette can stand there, and means nothing to an image
with channels of its own. Every chunk takes bytes, so `fuel` may be the size of the file. -/
def dataStart? (b : ByteArray) (offset : Nat) (palette : Bool) : Nat → Option Nat
  | 0 => none
  | fuel + 1 => do
    if (← nameAt? b offset) == "IDAT".toUTF8 then return offset
    let c ← chunkAt? b offset
    if c.optional then dataStart? b c.next palette fuel
    else if c.intact && !palette && c.name == "PLTE".toUTF8 then dataStart? b c.next true fuel
    else none

/-- The stream in the image data chunks from an offset on, after `out`. It ends where a chunk with
another name starts; a damaged chunk is not read. -/
def dataFrom? (b : ByteArray) (offset : Nat) (out : ByteArray) : Nat → Option ByteArray
  | 0 => none
  | fuel + 1 => do
    if (← nameAt? b offset) != "IDAT".toUTF8 then return out
    let c ← chunkAt? b offset
    if c.intact then dataFrom? b c.next (out ++ c.data) fuel else none

end CellCanvas.Png
