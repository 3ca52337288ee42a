import CellCanvas.Frame

/-!
# Wide glyphs take two cells

In a well-paired frame every lead is followed in its row by a continuation without text, every
continuation follows a lead, and no cell is wider than two columns. `firstFault?` finds the first
cell, in reading order, that breaks the rule.
-/

namespace CellCanvas.Frame

/-- Whether the cell at a position of the grid obeys the pairing rule. -/
def isPaired (f : Frame) (x y : Nat) : Bool :=
  match f.cell? x y with
  | none => true
  | some c =>
    if c.width = 0 then
      0 < x && (f.cell? (x - 1) y).any Cell.isWide && c.isEmpty
    else if c.width = 2 then (f.cell? (x + 1) y).any Cell.isContinuation
    else c.width = 1

/-- The first position, row by row, at which the pairing rule is broken. -/
def firstFault? (f : Frame) : Option (Nat × Nat) :=
  (List.range f.height).findSome? fun y =>
    ((List.range f.width).find? fun x => !f.isPaired x y).map fun x => (x, y)

/-- Whether every lead has its continuation and every continuation its lead. -/
def isValid (f : Frame) : Bool := f.firstFault?.isNone

/-- A frame is valid when the pairing rule holds at every position. -/
theorem isValid_iff (f : Frame) : f.isValid = true ↔ ∀ x y, f.isPaired x y = true := by
  simp only [isValid, firstFault?, Option.isNone_iff_eq_none, List.findSome?_eq_none_iff,
    List.mem_range, Option.map_eq_none_iff, List.find?_eq_none, Bool.not_eq_true,
    Bool.not_eq_false']
  constructor
  · intro h x y
    by_cases hb : x < f.width ∧ y < f.height
    · simpa using h y hb.2 x hb.1
    · have : f.cell? x y = none := by
        simp only [cell?, inBounds, Bool.and_eq_true, decide_eq_true_eq, hb, if_false]
      simp [isPaired, this]
  · intro h y _ x _
    simp [h x y]

end CellCanvas.Frame
