import CellCanvas.Blit.Raster
import CellCanvas.Image.Png

/-!
# The test card

A sweep through all hues from left to right that fades to black downwards, with a transparent disc
in the middle. It is computed in double precision.
-/

namespace CellCanvas.Demo.TestCard

/-- The width in pixels. -/
def width : Nat := 256

/-- The height in pixels. -/
def height : Nat := 160

/-- Red, green and blue of the saturated colour at a hue from zero to one. -/
def hue (t : Float) : Float × Float × Float :=
  let sixths := t * 6.0
  let f := sixths - sixths.floor
  match sixths.toUInt8.toNat with
  | 0 => (1.0, f, 0.0)
  | 1 => (1.0 - f, 1.0, 0.0)
  | 2 => (0.0, 1.0, f)
  | 3 => (0.0, 1.0 - f, 1.0)
  | 4 => (f, 0.0, 1.0)
  | _ => (1.0, 0.0, 1.0 - f)

/-- The diameter of the disc is two fifths of the shorter side. -/
def radius : Nat := min width height / 5

/-- Whether a pixel lies in the disc. -/
def isInDisc (x y : Nat) : Bool :=
  let dx : Int := x - (width / 2 : Nat)
  let dy : Int := y - (height / 2 : Nat)
  dx * dx + dy * dy < radius * radius

/-- The pixel at a column and a row. -/
def pixel (x y : Nat) : Pixel :=
  let shade := 1.0 - y.toFloat / height.toFloat
  let (r, g, b) := hue (x.toFloat / width.toFloat)
  let level : Float → UInt8 := fun v => (v * shade * 255.0).toUInt8
  ⟨level r, level g, level b, if isInDisc x y then 0 else 255⟩

/-- The whole card. -/
def picture : Png.Image :=
  let pixels := Nat.fold height (fun y _ out =>
    Nat.fold width (fun x _ (out : ByteArray) =>
      let p := pixel x y
      (((out.push p.red).push p.green).push p.blue).push p.alpha) out) .empty
  ⟨width, height, pixels⟩

end CellCanvas.Demo.TestCard
