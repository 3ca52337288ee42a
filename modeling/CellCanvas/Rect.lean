/-!
# Rectangles

A rectangle in cell coordinates, which may lie partly or wholly off the screen. It is empty as soon
as a side is not positive.
-/

namespace CellCanvas

/-- Left edge, top edge, width and height. -/
structure Rect where
  x : Int
  y : Int
  w : Int
  h : Int
deriving DecidableEq, Inhabited, Repr

namespace Rect

/-- The rectangle without size at the origin. -/
def empty : Rect := ⟨0, 0, 0, 0⟩

/-- The first column right of the rectangle. -/
def right (r : Rect) : Int := r.x + r.w

/-- The first row below the rectangle. -/
def bottom (r : Rect) : Int := r.y + r.h

/-- Whether the rectangle holds no point. -/
def isEmpty (r : Rect) : Bool := r.w ≤ 0 || r.h ≤ 0

/-- Whether a point lies inside. -/
def contains (r : Rect) (px py : Int) : Bool :=
  r.x ≤ px && r.y ≤ py && px < r.right && py < r.bottom

/-- The common part. Sides that do not meet have length zero. -/
def inter (a b : Rect) : Rect :=
  if a.isEmpty || b.isEmpty then empty
  else
    let x := max a.x b.x
    let y := max a.y b.y
    ⟨x, y, max 0 (min a.right b.right - x), max 0 (min a.bottom b.bottom - y)⟩

theorem contains_iff (r : Rect) (px py : Int) :
    r.contains px py = true ↔ r.x ≤ px ∧ r.y ≤ py ∧ px < r.x + r.w ∧ py < r.y + r.h := by
  simp only [contains, Bool.and_eq_true, decide_eq_true_eq, and_assoc]
  exact Iff.rfl

/-- A point lies in the common part when it lies in both rectangles. -/
theorem contains_inter (a b : Rect) (px py : Int) :
    (a.inter b).contains px py = (a.contains px py && b.contains px py) := by
  rw [Bool.eq_iff_iff, Bool.and_eq_true, contains_iff, contains_iff, contains_iff]
  unfold inter
  split
  · rename_i h
    simp only [isEmpty, Bool.or_eq_true, decide_eq_true_eq] at h
    simp only [empty]
    omega
  · simp only [right, bottom]
    omega

end Rect

end CellCanvas
