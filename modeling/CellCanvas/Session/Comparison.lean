import CellCanvas.Frame.Links

/-!
# Comparing two frames

Link numbers belong to one frame, so linked cells of frames with different link tables are compared
by the addresses behind the numbers. `spans` gives the columns of a row that must be written again.
-/

namespace CellCanvas

/-- An old and a new frame. -/
structure Comparison where
  previous : Frame
  next : Frame
  /-- Whether both frames have the same link table. -/
  sameLinks : Bool

namespace Comparison

/-- Compare an old and a new frame. -/
def of (previous next : Frame) : Comparison :=
  ⟨previous, next, previous.links == next.links⟩

/-- Whether an old cell shows the same as a new one. -/
def sameCell (c : Comparison) (old new : Cell) : Bool :=
  if c.sameLinks || (old.style.link == 0 && new.style.link == 0) then old = new
  else old.unlinked = new.unlinked
    && c.previous.linkUri? old.style.link = c.next.linkUri? new.style.link

/-- Whether `left` cells from column `x` on agree between two rows. -/
def sameCells (c : Comparison) (newRow oldRow x : Nat) : Nat → Bool
  | 0 => true
  | left + 1 =>
    (match c.previous.cell? x oldRow, c.next.cell? x newRow with
      | some old, some new => c.sameCell old new
      | _, _ => false) && c.sameCells newRow oldRow (x + 1) left

/-- Whether a row of the new frame shows the same as a row of the old one. -/
def sameRow (c : Comparison) (newRow oldRow : Nat) : Bool :=
  newRow < c.next.height && oldRow < c.previous.height && c.next.width = c.previous.width
    && c.sameCells newRow oldRow 0 c.next.width

/-- Whether the cell must be written again. A lead must be when its continuation changed, since a
continuation is never written on its own. -/
def isDirty (c : Comparison) (x y : Nat) : Bool :=
  match c.previous.cell? x y, c.next.cell? x y with
  | some old, some new =>
    !c.sameCell old new ||
      match c.previous.cell? (x + 1) y, c.next.cell? (x + 1) y with
      | some old, some new =>
        (old.isContinuation || new.isContinuation) && !c.sameCell old new
      | _, _ => false
  | _, _ => false

/-- The first column from `x` on, at most `left` further, that is not dirty. -/
def runEnd (c : Comparison) (y x : Nat) : Nat → Nat
  | 0 => x
  | left + 1 => if c.isDirty x y then c.runEnd y (x + 1) left else x

/-- Widen a span so that it neither starts on a continuation nor ends on a lead. -/
def widen (f : Frame) (y first last : Nat) : Nat × Nat :=
  (if 0 < first && (f.cell? first y).any Cell.isContinuation then first - 1 else first,
   if (f.cell? last y).any Cell.isWide && last + 1 < f.width then last + 1 else last)

/-- The spans of a row among the `left` columns from `x` on; columns before `resume` belong to a
span already. -/
def spansFrom (c : Comparison) (y x resume : Nat) : Nat → List (Nat × Nat)
  | 0 => []
  | left + 1 =>
    if x < resume || !c.isDirty x y then c.spansFrom y (x + 1) resume left
    else
      let stop := c.runEnd y (x + 1) left
      let span := widen c.next y x (stop - 1)
      span :: c.spansFrom y (x + 1) (max stop (span.2 + 1)) left

/-- The spans of a row that must be written again, each as its first and last column. -/
def spans (c : Comparison) (y : Nat) : List (Nat × Nat) := c.spansFrom y 0 0 c.next.width

end Comparison

end CellCanvas
