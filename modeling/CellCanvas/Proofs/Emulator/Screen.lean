import CellCanvas.Proofs.Emulator.Rendition

/-!
# What a terminal shows

A screen is a grid of spots. The glyph of a spot takes one column, or two and then the spot to the
right is its right half. Writing over one half of a glyph makes the other half blank, and a shift
of rows fills what it leaves with blank rows.
-/

namespace CellCanvas

/-- One column of a row on the screen. -/
structure Spot where
  glyph : String
  /-- Two for a glyph that reaches into the next column, zero for its right half. -/
  columns : Nat
  rendition : Rendition
  /-- The address that the glyph is linked to. -/
  link : Option String

namespace Spot

/-- A space without a link. -/
def blank (r : Rendition) : Spot := ⟨" ", 1, r, none⟩

/-- The same column after the other half of its glyph is gone. -/
def erased (s : Spot) : Spot := { s with glyph := " ", columns := 1 }

/-- The right half of a glyph. -/
def rightHalf (s : Spot) : Spot := { s with glyph := "", columns := 0 }

@[simp] theorem columns_erased (s : Spot) : s.erased.columns = 1 := rfl

@[simp] theorem columns_rightHalf (s : Spot) : s.rightHalf.columns = 0 := rfl

end Spot

/-- The spots of a row by column. -/
abbrev ScreenRow := Nat → Spot

/-- The rows of a screen from top to bottom. -/
abbrev Screen := Nat → ScreenRow

namespace ScreenRow

/-- Write a glyph of one or two columns. A right half at its start loses its left half, and a left
half at its end loses its right half. -/
def put (row : ScreenRow) (x : Nat) (s : Spot) : ScreenRow := fun i =>
  if i = x then s
  else if i = x + 1 ∧ s.columns = 2 then s.rightHalf
  else if i + 1 = x ∧ (row x).columns = 0 then (row i).erased
  else if i = x + s.columns ∧ (row (i - 1)).columns = 2 then (row i).erased
  else row i

end ScreenRow

namespace Screen

/-- A screen of spaces. -/
def blank (r : Rendition) : Screen := fun _ _ => .blank r

/-- Write a glyph in a row. -/
def put (screen : Screen) (x y : Nat) (s : Spot) : Screen := fun j =>
  if j = y then ScreenRow.put (screen j) x s else screen j

/-- Move the rows `top` to `bottom` up by a distance. -/
def shiftUp (screen : Screen) (top bottom distance : Nat) (r : Rendition) : Screen := fun j =>
  if top ≤ j ∧ j ≤ bottom then
    if j + distance ≤ bottom then screen (j + distance) else fun _ => .blank r
  else screen j

/-- Move the rows `top` to `bottom` down by a distance. -/
def shiftDown (screen : Screen) (top bottom distance : Nat) (r : Rendition) : Screen := fun j =>
  if top ≤ j ∧ j ≤ bottom then
    if top + distance ≤ j then screen (j - distance) else fun _ => .blank r
  else screen j

end Screen

end CellCanvas
