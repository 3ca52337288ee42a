import CellCanvas.Failure

/-!
# Fitting one size to another

How a source raster maps onto a destination of another shape. Every destination pixel takes exactly
one source pixel, or none where the image does not reach, by proportional integer positions.
-/

namespace CellCanvas

/-- How a source of one shape fills a destination of another. -/
inductive Fit where
  /-- Stretch, whatever the shapes are. -/
  | fill
  /-- Keep the shape and show all of it, with transparent bars. -/
  | contain
  /-- Keep the shape and cover everything, with the centred excess cut off. -/
  | cover
deriving DecidableEq, Inhabited, Repr

namespace Fit

/-- The fit with a number. -/
def ofNumber : Nat → Except Failure Fit
  | 0 => .ok fill
  | 1 => .ok contain
  | 2 => .ok cover
  | _ => .error (.invalid .fitName)

/-- The fit with a name. -/
def ofName (name : String) : Except Failure Fit :=
  match name with
  | "fill" => .ok fill
  | "contain" => .ok contain
  | "cover" => .ok cover
  | _ => .error (.invalid .fitName)

/-- The display name of a fit. -/
def name : Fit → String
  | fill => "Fill"
  | contain => "Contain"
  | cover => "Cover"

/-- The position in `source` pixels that corresponds to a position in `scaled` pixels. -/
def mapAxis (position source scaled : Nat) : Nat := min (position * source / scaled) (source - 1)

/-- Width and height. -/
abbrev Extent := Nat × Nat

/-- The largest size of the source's shape that lies inside the destination. -/
def containSize (source target : Extent) : Extent :=
  let (w, h) :=
    if source.2 * target.1 ≤ source.1 * target.2 then
      (target.1, source.2 * target.1 / source.1)
    else (source.1 * target.2 / source.2, target.2)
  (max w 1, max h 1)

/-- A quotient rounded up. -/
def divUp (a b : Nat) : Nat := (a + b - 1) / b

/-- The smallest size of the source's shape that covers the destination. -/
def coverSize (source target : Extent) : Extent :=
  let (w, h) :=
    if source.2 * target.1 ≤ source.1 * target.2 then
      (divUp (source.1 * target.2) source.2, target.2)
    else (target.1, divUp (source.2 * target.1) source.1)
  (max w 1, max h 1)

/-- The source pixel for a pixel of an image scaled to a size. -/
def fromScaled (source scaled : Extent) (x y : Nat) : Nat × Nat :=
  (mapAxis x source.1 scaled.1, mapAxis y source.2 scaled.2)

/-- The source pixel that the destination pixel `(x, y)` shows; none where it stays transparent. -/
def sourcePixel? (fit : Fit) (source target : Extent) (x y : Nat) : Option (Nat × Nat) :=
  match fit with
  | fill => some (fromScaled source target x y)
  | contain =>
    let scaled := containSize source target
    let left := (target.1 - scaled.1) / 2
    let top := (target.2 - scaled.2) / 2
    if left ≤ x ∧ x < left + scaled.1 ∧ top ≤ y ∧ y < top + scaled.2 then
      some (fromScaled source scaled (x - left) (y - top))
    else none
  | cover =>
    let scaled := coverSize source target
    some (fromScaled source scaled (x + (scaled.1 - target.1) / 2)
      (y + (scaled.2 - target.2) / 2))

end Fit

end CellCanvas
