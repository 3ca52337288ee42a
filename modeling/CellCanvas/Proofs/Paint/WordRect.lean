import CellCanvas.Rect
import Mathlib.Tactic

/-!
# Rectangles in machine words

A rectangle with sides of 32 bits, whose edges are computed in 64 bits. Every computation is checked
here and has no result when a word cannot hold it. This never happens: edges, common parts and
containment are those of the rectangle with the same sides in whole numbers.
-/

namespace CellCanvas

namespace Word

/-- A sum of 64 bits, unless it overflows. -/
def add? (a b : Int64) : Option Int64 :=
  if (a + b).toInt = a.toInt + b.toInt then some (a + b) else none

/-- A difference of 64 bits, unless it overflows. -/
def sub? (a b : Int64) : Option Int64 :=
  if (a - b).toInt = a.toInt - b.toInt then some (a - b) else none

/-- The same number in 32 bits, unless they are too few. -/
def narrow? (a : Int64) : Option Int32 :=
  if a.toInt32.toInt = a.toInt then some a.toInt32 else none

theorem toInt_max (a b : Int32) : (max a b).toInt = max a.toInt b.toInt := by
  change (if a ≤ b then b else a).toInt = _
  simp only [Int32.le_iff_toInt_le]
  split_ifs <;> omega

theorem toInt_max64 (a b : Int64) : (max a b).toInt = max a.toInt b.toInt := by
  change (if a ≤ b then b else a).toInt = _
  simp only [Int64.le_iff_toInt_le]
  split_ifs <;> omega

theorem toInt_min64 (a b : Int64) : (min a b).toInt = min a.toInt b.toInt := by
  change (if a ≤ b then a else b).toInt = _
  simp only [Int64.le_iff_toInt_le]
  split_ifs <;> omega

theorem add?_eq {a b : Int64} (h : -2 ^ 63 ≤ a.toInt + b.toInt) (h' : a.toInt + b.toInt < 2 ^ 63) :
    ∃ c, add? a b = some c ∧ c.toInt = a.toInt + b.toInt := by
  have hexact : (a + b).toInt = a.toInt + b.toInt := by
    rw [Int64.toInt_add]
    exact Int.bmod_eq_of_le (by omega) (by omega)
  exact ⟨a + b, if_pos hexact, hexact⟩

theorem sub?_eq {a b : Int64} (h : -2 ^ 63 ≤ a.toInt - b.toInt) (h' : a.toInt - b.toInt < 2 ^ 63) :
    ∃ c, sub? a b = some c ∧ c.toInt = a.toInt - b.toInt := by
  have hexact : (a - b).toInt = a.toInt - b.toInt := by
    rw [Int64.toInt_sub]
    exact Int.bmod_eq_of_le (by omega) (by omega)
  exact ⟨a - b, if_pos hexact, hexact⟩

theorem narrow?_eq {a : Int64} (h : -2 ^ 31 ≤ a.toInt) (h' : a.toInt < 2 ^ 31) :
    ∃ c, narrow? a = some c ∧ c.toInt = a.toInt := by
  have hexact : a.toInt32.toInt = a.toInt := by
    rw [Int64.toInt_toInt32]
    exact Int.bmod_eq_of_le (by omega) (by omega)
  exact ⟨a.toInt32, if_pos hexact, hexact⟩

end Word

/-- Left edge, top edge, width and height in 32 bits. -/
structure WordRect where
  x : Int32
  y : Int32
  w : Int32
  h : Int32
deriving DecidableEq, Inhabited

namespace WordRect

open Word

/-- The rectangle in whole numbers. -/
def exact (r : WordRect) : Rect := ⟨r.x.toInt, r.y.toInt, r.w.toInt, r.h.toInt⟩

/-- The rectangle without size at the origin. -/
def empty : WordRect := ⟨0, 0, 0, 0⟩

/-- The first column right of the rectangle. -/
def right? (r : WordRect) : Option Int64 := add? r.x.toInt64 r.w.toInt64

/-- The first row below the rectangle. -/
def bottom? (r : WordRect) : Option Int64 := add? r.y.toInt64 r.h.toInt64

/-- Whether the rectangle holds no point. -/
def isEmpty (r : WordRect) : Bool := r.w ≤ 0 || r.h ≤ 0

/-- Whether a point lies inside. -/
def contains? (r : WordRect) (px py : Int32) : Option Bool := do
  let right ← r.right?
  let bottom ← r.bottom?
  return !r.isEmpty && r.x ≤ px && r.y ≤ py && px.toInt64 < right && py.toInt64 < bottom

/-- The length from `near` up to `far`, as a side of a rectangle. -/
def side? (far : Int64) (near : Int32) : Option Int32 := do
  let length ← sub? far near.toInt64
  narrow? (max 0 (min length 2147483647))

/-- The common part. -/
def inter? (a b : WordRect) : Option WordRect :=
  if a.isEmpty || b.isEmpty then some empty
  else do
    let x := max a.x b.x
    let y := max a.y b.y
    let right := min (← a.right?) (← b.right?)
    let bottom := min (← a.bottom?) (← b.bottom?)
    return ⟨x, y, ← side? right x, ← side? bottom y⟩

theorem right?_eq (r : WordRect) :
    ∃ e, r.right? = some e ∧ e.toInt = r.exact.right ∧ -2 ^ 32 ≤ e.toInt := by
  have hx := r.x.le_toInt
  have hx' := r.x.toInt_lt
  have hw := r.w.le_toInt
  have hw' := r.w.toInt_lt
  have hsum := add?_eq (a := r.x.toInt64) (b := r.w.toInt64)
  rw [Int32.toInt_toInt64, Int32.toInt_toInt64] at hsum
  obtain ⟨e, he, he'⟩ := hsum (by omega) (by omega)
  exact ⟨e, he, he', by omega⟩

theorem bottom?_eq (r : WordRect) :
    ∃ e, r.bottom? = some e ∧ e.toInt = r.exact.bottom ∧ -2 ^ 32 ≤ e.toInt :=
  right?_eq ⟨r.y, r.x, r.h, r.w⟩

theorem isEmpty_exact (r : WordRect) : r.exact.isEmpty = r.isEmpty := by
  change (decide (r.w.toInt ≤ 0) || decide (r.h.toInt ≤ 0)) = (decide (r.w ≤ 0) || decide (r.h ≤ 0))
  simp only [Int32.le_iff_toInt_le]
  rfl

/-- Containment never overflows and is exact. -/
theorem contains?_eq (r : WordRect) (px py : Int32) :
    r.contains? px py = some (r.exact.contains px.toInt py.toInt) := by
  obtain ⟨right, hright, hright', -⟩ := r.right?_eq
  obtain ⟨bottom, hbottom, hbottom', -⟩ := r.bottom?_eq
  rw [contains?, hright, hbottom]
  refine congrArg some ?_
  rw [Bool.eq_iff_iff, Rect.contains_iff]
  change right.toInt = r.x.toInt + r.w.toInt at hright'
  change bottom.toInt = r.y.toInt + r.h.toInt at hbottom'
  simp only [isEmpty, exact, Bool.and_eq_true, Bool.not_eq_true', Bool.or_eq_false_iff,
    decide_eq_false_iff_not, decide_eq_true_eq, Int32.le_iff_toInt_le, Int64.lt_iff_toInt_lt,
    Int32.toInt_toInt64, hright', hbottom', Int32.toInt_zero]
  omega

/-- A side of at most `n`, the length of an operand along it, fits a word. -/
theorem side?_eq (far : Int64) (near n : Int32)
    (hfar : far.toInt ≤ near.toInt + n.toInt) (hfar' : -2 ^ 62 ≤ far.toInt) :
    ∃ side, side? far near = some side ∧ side.toInt = max 0 (far.toInt - near.toInt) := by
  have hn := n.toInt_lt
  have hnear := near.le_toInt
  have hnear' := near.toInt_lt
  obtain ⟨length, hlength, hlength'⟩ := sub?_eq (a := far) (b := near.toInt64)
    (by rw [Int32.toInt_toInt64]; omega) (by rw [Int32.toInt_toInt64]; omega)
  rw [Int32.toInt_toInt64] at hlength'
  have hclamp : (max 0 (min length 2147483647)).toInt = max 0 (far.toInt - near.toInt) := by
    rw [toInt_max64, toInt_min64, hlength']
    change max 0 (min _ 2147483647) = _
    omega
  obtain ⟨side, hside, hside'⟩ :=
    narrow?_eq (a := max 0 (min length 2147483647)) (by omega) (by omega)
  exact ⟨side, by rw [side?, hlength]; exact hside, hside'.trans hclamp⟩

/-- The common part never overflows and is exact. -/
theorem inter?_eq (a b : WordRect) :
    ∃ c, a.inter? b = some c ∧ c.exact = a.exact.inter b.exact := by
  rw [inter?, Rect.inter, isEmpty_exact, isEmpty_exact]
  split
  · exact ⟨empty, rfl, rfl⟩
  obtain ⟨aright, haright, haright', hleast⟩ := a.right?_eq
  obtain ⟨bright, hbright, hbright', hleast'⟩ := b.right?_eq
  obtain ⟨abottom, habottom, habottom', hhighest⟩ := a.bottom?_eq
  obtain ⟨bbottom, hbbottom, hbbottom', hhighest'⟩ := b.bottom?_eq
  have hx := toInt_max a.x b.x
  have hy := toInt_max a.y b.y
  have hright := toInt_min64 aright bright
  have hbottom := toInt_min64 abottom bbottom
  simp only [Rect.right, Rect.bottom, exact] at haright' hbright' habottom' hbbottom'
  obtain ⟨w, hw, hw'⟩ :=
    side?_eq (min aright bright) (max a.x b.x) a.w (by omega) (by omega)
  obtain ⟨h, hh, hh'⟩ :=
    side?_eq (min abottom bbottom) (max a.y b.y) a.h (by omega) (by omega)
  refine ⟨⟨max a.x b.x, max a.y b.y, w, h⟩, ?_, ?_⟩
  · rw [haright, hbright, habottom, hbbottom]
    simp only [Option.bind_eq_bind, Option.bind_some, hw, hh]
    rfl
  · simp only [exact, Rect.right, Rect.bottom, hx, hy, hw', hh', hright, hbottom, haright',
      hbright', habottom', hbbottom']

end WordRect

end CellCanvas
