import CellCanvas.Blit.Raster
import CellCanvas.Total

/-!
# Passes over an image

The rows of an image come in passes. A plain image has one; an interlaced image has seven, the
first with every eighth pixel and each of the others with pixels between those before it, so that
every pixel belongs to exactly one pass.
-/

namespace CellCanvas.Png

/-- A pass: every `across`-th column from `left` on, of every `down`-th row from `top` on. -/
structure Pass where
  left : Nat
  top : Nat
  across : Nat
  down : Nat
deriving DecidableEq, Repr

/-- The passes of an image. -/
def passes (interlaced : Bool) : List Pass :=
  if interlaced then
    [⟨0, 0, 8, 8⟩, ⟨4, 0, 8, 8⟩, ⟨0, 4, 4, 8⟩, ⟨2, 0, 4, 4⟩, ⟨0, 2, 2, 4⟩, ⟨1, 0, 2, 2⟩,
      ⟨0, 1, 1, 2⟩]
  else [⟨0, 0, 1, 1⟩]

/-- How many of `first`, `first + step`, … are below a bound. -/
def stepsBelow (first step bound : Nat) : Nat := (bound - first + step - 1) / step

namespace Pass

/-- The columns of a pass over an image of width `w`. -/
def columns (p : Pass) (w : Nat) : Nat := stepsBelow p.left p.across w

/-- The rows of a pass over an image; a pass without columns has none. -/
def rows (p : Pass) (w h : Nat) : Nat := if p.columns w = 0 then 0 else stepsBelow p.top p.down h

/-- The bytes of a row: one that says how it is filtered, and its pixels. -/
def rowBytes (p : Pass) (w : Nat) : Nat := p.columns w * 4 + 1

/-- The bytes of a pass. -/
def bytes (p : Pass) (w h : Nat) : Nat := p.rows w h * p.rowBytes w

/-- Whether a pixel belongs to a pass. -/
def holds (p : Pass) (x y : Nat) : Bool :=
  p.left ≤ x && p.top ≤ y && (x - p.left) % p.across = 0 && (y - p.top) % p.down = 0

/-- Where a pixel of a pass is in the bytes of the pass. -/
def offset (p : Pass) (w x y : Nat) : Nat :=
  (y - p.top) / p.down * p.rowBytes w + 1 + (x - p.left) / p.across * 4

end Pass

/-- Every pixel belongs to a pass. -/
theorem exists_holds (interlaced : Bool) (x y : Nat) :
    ∃ p ∈ passes interlaced, p.holds x y := by
  cases interlaced <;> simp [passes, Pass.holds, Nat.mod_one]
  omega

/-- Passes with the places where their bytes start, the first at `start`. -/
def placed (w h start : Nat) : List Pass → List (Pass × Nat)
  | [] => []
  | p :: rest => (p, start) :: placed w h (start + p.bytes w h) rest

/-- The pixels of an image from the bytes of its passes, if no row is filtered. -/
def unfiltered? (data : ByteArray) (w h : Nat) (interlaced : Bool) : Option ByteArray :=
  let parts := placed w h 0 (passes interlaced)
  if data.size < total ((passes interlaced).map fun p => p.bytes w h) then none
  else if parts.all fun (p, start) => (List.range (p.rows w h)).all fun r =>
      Raster.byteAt data (start + r * p.rowBytes w) = 0 then
    some (Nat.fold h (fun y _ out => Nat.fold w (fun x _ out =>
      match parts.find? fun (p, _) => p.holds x y with
      | some (p, start) =>
        let i := start + p.offset w x y
        out ++ data.extract i (i + 4)
      | none => out) out) .empty)
  else none

end CellCanvas.Png
