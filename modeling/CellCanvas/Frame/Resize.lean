import CellCanvas.Frame

/-!
# Resizing a frame

The common part of the old and the new grid is kept and everything else becomes a plain space. A
row may be cut through a wide glyph, so kept rows are repaired: a continuation without its lead
becomes a space, and a lead without its continuation becomes the replacement sign and takes the
next cell with it as a space.
-/

namespace CellCanvas.Frame

/-- Repair the pairing of a row. -/
def repairRow : List Cell → List Cell
  | [] => []
  | [c] =>
    if c.isContinuation then [.blank c.style]
    else if c.isWide then [.replacement c.style]
    else [c]
  | c :: n :: rest =>
    if c.isContinuation then .blank c.style :: repairRow (n :: rest)
    else if c.isWide then
      if n.isContinuation then c :: n :: repairRow rest
      else .replacement c.style :: .blank c.style :: repairRow rest
    else c :: repairRow (n :: rest)

@[simp] theorem length_repairRow (row : List Cell) : (repairRow row).length = row.length := by
  fun_induction repairRow row <;> simp_all

/-- A row cut or extended with plain spaces to a width. -/
def fitRow (row : List Cell) (width : Nat) : List Cell :=
  row.take width ++ List.replicate (width - row.length) .empty

@[simp] theorem length_fitRow (row : List Cell) (width : Nat) :
    (fitRow row width).length = width := by
  simp [fitRow]; omega

/-- Row `y` of the frame resized to a width: a kept row is cut and repaired, a new one is plain. -/
def resizedRow (f : Frame) (width y : Nat) : List Cell :=
  match f.row? y with
  | some row => repairRow (fitRow row.toList width)
  | none => List.replicate width .empty

@[simp] theorem length_resizedRow (f : Frame) (width y : Nat) :
    (f.resizedRow width y).length = width := by
  unfold resizedRow
  split <;> simp

theorem length_flatMap_range (g : Nat → List Cell) (width height : Nat)
    (h : ∀ y, (g y).length = width) :
    ((List.range height).flatMap g).length = width * height := by
  induction height with
  | zero => simp
  | succ n ih => simp [List.range_succ, ih, h, Nat.mul_succ]

/-- Change the size of a frame. The links stay; an unchanged size changes nothing. -/
def resize (f : Frame) (width height : UInt16) : Frame :=
  if width.toNat = f.width ∧ height.toNat = f.height then f
  else
    { width := width.toNat
      height := height.toNat
      cells := ((List.range height.toNat).flatMap (f.resizedRow width.toNat)).toArray
      links := f.links
      size_cells := by
        rw [List.size_toArray]
        exact length_flatMap_range _ _ _ (f.length_resizedRow _)
      width_lt := width.toNat_lt
      height_lt := height.toNat_lt
      safe_links := f.safe_links }

end CellCanvas.Frame
