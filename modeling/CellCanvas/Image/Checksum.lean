/-!
# Checksums

The two checksums of the PNG format: CRC-32 over each chunk and Adler-32 over the image data.
-/

namespace CellCanvas.Checksum

/-- One bit of the division by the CRC polynomial. -/
def crcBit (state : UInt32) : UInt32 :=
  if state &&& 1 = 1 then (state >>> 1) ^^^ 0xEDB88320 else state >>> 1

/-- The effect of each byte value on the CRC state. -/
def crcTable : Array UInt32 :=
  Array.ofFn fun i : Fin 256 => Nat.repeat crcBit 8 (UInt32.ofNat i.val)

/-- The CRC-32 of bytes. -/
def crc32 (bytes : ByteArray) : UInt32 :=
  let state := bytes.foldl (fun (state : UInt32) b =>
    (state >>> 8) ^^^ crcTable.getD ((state ^^^ b.toUInt32) &&& 0xFF).toNat 0) 0xFFFFFFFF
  state ^^^ 0xFFFFFFFF

/-- The modulus of Adler-32. -/
def adlerModulus : UInt32 := 65521

/-- The Adler-32 of bytes: the sum of the bytes, and the sum of those sums. -/
def adler32 (bytes : ByteArray) : UInt32 :=
  let sums := bytes.foldl (fun (s : UInt32 × UInt32) b =>
    let low := (s.1 + b.toUInt32) % adlerModulus
    (low, (s.2 + low) % adlerModulus)) (1, 0)
  sums.2 * 65536 + sums.1

end CellCanvas.Checksum
