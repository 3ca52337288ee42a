import CellCanvas.Blit.Raster
import CellCanvas.Image.Fit
import CellCanvas.Image.Scratch

/-!
# Scaling

A scaled raster has, for every destination pixel, the four bytes of the source pixel that the fit
assigns to it, or four zeros.
-/

namespace CellCanvas.Scale

/-- The four bytes of a source pixel, or zeros where there is none. -/
def addPixel (bytes : ByteArray) (width : Nat) (source? : Option (Nat × Nat)) (out : ByteArray) :
    ByteArray :=
  match source? with
  | some (x, y) =>
    let o := (y * width + x) * 4
    (((out.push (Raster.byteAt bytes o)).push (Raster.byteAt bytes (o + 1))).push
      (Raster.byteAt bytes (o + 2))).push (Raster.byteAt bytes (o + 3))
  | none => (((out.push 0).push 0).push 0).push 0

/-- The bytes of a source raster scaled to a size. -/
def scaled (bytes : ByteArray) (source : Fit.Extent) (fit : Fit) (target : Fit.Extent) :
    ByteArray :=
  Nat.fold target.2 (fun y _ out =>
    Nat.fold target.1 (fun x _ out =>
      addPixel bytes source.1 (fit.sourcePixel? source target x y) out) out) .empty

/-- Why a raster cannot be scaled into a number of bytes. -/
def check (bytes : ByteArray) (source target : Fit.Extent) (room : Nat) : Except Failure Unit := do
  if source.1 = 0 ∨ source.2 = 0 ∨ target.1 = 0 ∨ target.2 = 0 then
    throw (.invalid .imageSide)
  if bytes.size < (← Size.rgba source.1 source.2) then throw (.invalid .sourceLength)
  if room < (← Size.rgba target.1 target.2) then throw (.limit .destination)

/-- Scale into the front of a buffer; the bytes behind the scaled raster stay. -/
def into (out bytes : ByteArray) (source : Fit.Extent) (fit : Fit) (target : Fit.Extent) :
    Except Failure ByteArray := do
  check bytes source target out.size
  let result := scaled bytes source fit target
  return result ++ out.extract result.size out.size

/-- Scale into a new buffer that is charged to the scratch budget. -/
def charged (bytes : ByteArray) (source : Fit.Extent) (fit : Fit) (target : Fit.Extent) :
    Scratching ByteArray := do
  let length ← Size.rgba target.1 target.2
  Scratch.charge length
  check bytes source target length
  return scaled bytes source fit target

end CellCanvas.Scale
