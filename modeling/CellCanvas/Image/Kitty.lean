import CellCanvas.Failure
import CellCanvas.Image.Base64
import CellCanvas.Size
import CellCanvas.Terminal.Command

/-!
# Kitty graphics

An image is transmitted once under a number, placed as often as needed, and deleted when it is no
longer shown. The pixels travel as base64 in chunks; every chunk but the last says that more
follow.
-/

namespace CellCanvas.Kitty

/-- The raw bytes of a chunk whose base64 form has the greatest length a sequence may carry. -/
def defaultChunk : Nat := 3072

/-- A graphics sequence with a body. -/
def sequence (body : String) : String := "\x1b_G" ++ body ++ "\x1b\\"

/-- The part of the bytes that chunk `i` carries. -/
def chunk (bytes : ByteArray) (length i : Nat) : ByteArray :=
  bytes.extract (i * length) ((i + 1) * length)

/-- The control data of chunk `i` of `count`. -/
def chunkControl (id w h count i : Nat) : String :=
  let more := "m=" ++ (if i + 1 < count then "1" else "0")
  if i = 0 then
    "a=t,f=32,s=" ++ toString w ++ ",v=" ++ toString h ++ ",i=" ++ toString id ++ "," ++ more
  else more

/-- Sequence `i` of `count`. -/
def chunkText (id w h count length : Nat) (bytes : ByteArray) (i : Nat) : String :=
  sequence (chunkControl id w h count i ++ ";" ++ Base64.encode (chunk bytes length i))

/-- How many chunks of `length` bytes some bytes need. -/
def chunkCount (size length : Nat) : Nat := (size + length - 1) / length

/-- The sequences that carry the bytes of an image in chunks of `length` bytes. -/
def sequences (id w h length : Nat) (bytes : ByteArray) : String :=
  let count := chunkCount bytes.size length
  String.join ((List.range count).map (chunkText id w h count length bytes))

/-- The bytes of an image that is to be transmitted in chunks of `length` bytes. The cell area
`columns` by `rows` is what the image is meant for; it must not be empty. -/
def payload (id : Nat) (pixels : ByteArray) (w h columns rows length : Nat) :
    Except Failure ByteArray := do
  if id = 0 then throw (.invalid .zeroImageId)
  if w = 0 ∨ h = 0 ∨ columns = 0 ∨ rows = 0 ∨ length = 0 then throw (.invalid .imageSide)
  let size ← Size.rgba w h
  if pixels.size < size then throw (.invalid .pixelLength)
  return pixels.extract 0 size

/-- Transmit the pixels of an image under a number, in chunks of the usual length. -/
def transmit (id : Nat) (pixels : ByteArray) (w h columns rows : Nat) : Except Failure String := do
  let bytes ← payload id pixels w h columns rows defaultChunk
  return sequences id w h defaultChunk bytes

/-- The sizes of the buffers that are reserved for all sequences and for the written form of one
chunk. The second leaves its word for the longest chunks; where sums are not checked it wraps. -/
def reservations (checked : Bool) (size length : Nat) : List Nat :=
  let written := length / 3 * 4 + 4
  [size / 3 * 4 + chunkCount size length * 48, if checked then written else written % Size.bound]

/-- Transmit the pixels of an image under a number, in chunks of any length. There is no answer when
the program stops, since a buffer is asked for that cannot be reserved, or since its size leaves its
word where sums are checked. -/
def transmitChunked? (checked : Bool) (id : Nat) (pixels : ByteArray) (w h columns rows : Nat)
    (length : UInt64) : Option (Except Failure String) :=
  match payload id pixels w h columns rows length.toNat with
  | .error e => some (.error e)
  | .ok bytes =>
    if ∀ n ∈ reservations checked bytes.size length.toNat, n ≤ Size.largestBuffer then
      some (.ok (sequences id w h length.toNat bytes))
    else none

/-- Place a transmitted image with its top left cell at a position. -/
def place (id column row columns rows : Nat) (z : Int) : Except Failure String := do
  if id = 0 then throw (.invalid .zeroImageId)
  if columns = 0 ∨ rows = 0 then throw (.invalid .cellArea)
  return (Command.cursorTo column row).encode ++ sequence
    ("a=p,i=" ++ toString id ++ ",c=" ++ toString columns ++ ",r=" ++ toString rows
      ++ ",z=" ++ toString z)

/-- Delete an image and everything placed from it. -/
def delete (id : Nat) : Except Failure String := do
  if id = 0 then throw (.invalid .zeroImageId)
  return sequence ("a=d,d=i,i=" ++ toString id)

end CellCanvas.Kitty
