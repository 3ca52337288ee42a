import CellCanvas.Image.Checksum

/-!
# PNG files

Images with eight bits for each of red, green, blue and alpha, in uncompressed blocks and without
row filters.
-/

namespace CellCanvas.Png

/-- The size and the pixels of an image. -/
structure Image where
  width : Nat
  height : Nat
  pixels : ByteArray

/-- The first eight bytes of a file. -/
def signature : List UInt8 := [0x89, 0x50, 0x4E, 0x47, 0x0D, 0x0A, 0x1A, 0x0A]

/-- Bytes as an array. -/
def bytesOf (bytes : List UInt8) : ByteArray := ⟨bytes.toArray⟩

/-- A number in four bytes, the highest first. -/
def word (n : Nat) : ByteArray :=
  bytesOf [.ofNat (n / 16777216), .ofNat (n / 65536), .ofNat (n / 256), .ofNat n]

/-- A number in two bytes, the lowest first. -/
def halfLittle (n : Nat) : ByteArray := bytesOf [.ofNat n, .ofNat (n / 256)]

/-- A chunk: length, name, data, checksum of name and data. -/
def chunk (name : String) (data : ByteArray) : ByteArray :=
  let named := name.toUTF8 ++ data
  word data.size ++ named ++ word (Checksum.crc32 named).toNat

/-- The most bytes of an uncompressed block. -/
def maxBlock : Nat := 65535

/-- Data as uncompressed blocks. -/
def storedBlocks (data : ByteArray) : ByteArray :=
  let count := max 1 ((data.size + maxBlock - 1) / maxBlock)
  Nat.fold count (fun i _ out =>
    let block := data.extract (i * maxBlock) ((i + 1) * maxBlock)
    out ++ bytesOf [if i + 1 = count then 1 else 0] ++ halfLittle block.size
      ++ halfLittle (maxBlock - block.size) ++ block) .empty

/-- Data in the container that PNG uses for compressed data. -/
def container (data : ByteArray) : ByteArray :=
  bytesOf [0x78, 0x01] ++ storedBlocks data ++ word (Checksum.adler32 data).toNat

/-- The rows of an image, each after a zero that says that it is not filtered. -/
def filteredRows (pixels : ByteArray) (w h : Nat) : ByteArray :=
  Nat.fold h (fun y _ out =>
    (out.push 0) ++ pixels.extract (y * (w * 4)) ((y + 1) * (w * 4))) .empty

/-- The header data of an image, whose rows may be spread over several passes. -/
def header (w h : Nat) (interlaced : Bool) : ByteArray :=
  word w ++ word h ++ bytesOf [8, 6, 0, 0, if interlaced then 1 else 0]

/-- The file of an image. -/
def write (pixels : ByteArray) (w h : Nat) : ByteArray :=
  bytesOf signature ++ chunk "IHDR" (header w h false)
    ++ chunk "IDAT" (container (filteredRows pixels w h)) ++ chunk "IEND" .empty

end CellCanvas.Png
