import CellCanvas.Image.Fit
import CellCanvas.Image.Protocol

/-!
# Image frames

Images live beside the cell grid. A frame of images is a list of commands, each with the bytes of
its image.
-/

namespace CellCanvas

/-- What the bytes of an image are. -/
inductive ImageFormat where
  | rgba
  | png
deriving DecidableEq, Inhabited, Repr

/-- One image to show. -/
structure ImageCommand where
  column : Nat := 0
  row : Nat := 0
  columns : Nat := 1
  rows : Nat := 1
  /-- The caller's number of the image; zero for none. -/
  callerId : Nat := 0
  width : Nat := 0
  height : Nat := 0
  format : ImageFormat := .rgba
  protocol : ProtocolRequest := .auto
  /-- Below the text when negative. -/
  z : Int := 0
  fit : Fit := .fill
deriving DecidableEq, Repr

/-- The images of a frame in the order of their commands. -/
structure ImageFrame where
  commands : Array (ImageCommand × ByteArray)

namespace ImageFrame

/-- A frame without images. -/
def empty : ImageFrame := ⟨#[]⟩

/-- Add an image. Its cell area and its bytes must not be empty. -/
def push (f : ImageFrame) (c : ImageCommand) (bytes : ByteArray) : Except Failure ImageFrame :=
  if c.columns = 0 ∨ c.rows = 0 then .error (.invalid .cellArea)
  else if bytes.isEmpty then .error (.invalid .emptyImage)
  else .ok ⟨f.commands.push (c, bytes)⟩

end ImageFrame

end CellCanvas
