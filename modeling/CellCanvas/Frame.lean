import CellCanvas.Cell
import CellCanvas.Rect

/-!
# Frames

A frame is a grid of cells, stored row by row, with the hyperlinks that its cells refer to. Both
sides are below `2 ^ 16`. Cells are read with `cell?`; every way to change a cell keeps the size.
-/

namespace CellCanvas

/-- The first length that no side of a frame has. -/
def sideBound : Nat := 65536

/-- A grid of cells with its link table. -/
structure Frame where
  width : Nat
  height : Nat
  cells : Array Cell
  /-- The text of link `n + 1` is entry `n`. -/
  links : Array String
  size_cells : cells.size = width * height
  width_lt : width < sideBound
  height_lt : height < sideBound
  /-- Every address can be sent to the terminal as it is. -/
  safe_links : ∀ uri ∈ links, uri ≠ "" ∧ isSafeText uri = true

namespace Frame

/-- A frame of plain spaces without links. -/
def blank (width height : UInt16) : Frame where
  width := width.toNat
  height := height.toNat
  cells := Array.replicate (width.toNat * height.toNat) .empty
  links := #[]
  size_cells := Array.size_replicate
  width_lt := width.toNat_lt
  height_lt := height.toNat_lt
  safe_links := by simp

/-- The whole grid as a rectangle. -/
def bounds (f : Frame) : Rect := ⟨0, 0, f.width, f.height⟩

/-- Whether a position lies in the grid. -/
def inBounds (f : Frame) (x y : Nat) : Bool := x < f.width && y < f.height

/-- Where the cell at a position is stored. -/
def index (f : Frame) (x y : Nat) : Nat := y * f.width + x

/-- The cell at a position of the grid. -/
def cell? (f : Frame) (x y : Nat) : Option Cell :=
  if f.inBounds x y then f.cells[f.index x y]? else none

/-- The cells of a row. -/
def row? (f : Frame) (y : Nat) : Option (Array Cell) :=
  if y < f.height then some (f.cells.extract (f.index 0 y) (f.index f.width y)) else none

/-- The text of a row, without what continuations stand for. -/
def rowText (f : Frame) (y : Nat) : String :=
  match f.row? y with
  | some row => String.join (row.toList.map Cell.glyph)
  | none => ""

/-- Store a cell; outside the grid nothing happens. -/
def set (f : Frame) (x y : Nat) (c : Cell) : Frame :=
  if f.inBounds x y then
    { f with
      cells := f.cells.setIfInBounds (f.index x y) c
      size_cells := by rw [Array.size_setIfInBounds]; exact f.size_cells }
  else f

/-- Make every cell a space in the given style. The links stay. -/
def clear (f : Frame) (style : Style) : Frame :=
  { f with
    cells := Array.replicate (f.width * f.height) (.blank style)
    size_cells := Array.size_replicate }

/-- Take over the size, the cells and the links of another frame. -/
def copyFrom (_f other : Frame) : Frame := other

@[simp] theorem width_set (f : Frame) (x y : Nat) (c : Cell) : (f.set x y c).width = f.width := by
  unfold set; split <;> rfl

@[simp] theorem height_set (f : Frame) (x y : Nat) (c : Cell) :
    (f.set x y c).height = f.height := by
  unfold set; split <;> rfl

@[simp] theorem links_set (f : Frame) (x y : Nat) (c : Cell) : (f.set x y c).links = f.links := by
  unfold set; split <;> rfl

theorem index_lt_size (f : Frame) {x y : Nat} (hx : x < f.width) (hy : y < f.height) :
    f.index x y < f.cells.size := by
  rw [f.size_cells, index]
  calc y * f.width + x < y * f.width + f.width := by omega
    _ = (y + 1) * f.width := by rw [Nat.add_mul, Nat.one_mul]
    _ ≤ f.height * f.width := Nat.mul_le_mul_right _ (by omega)
    _ = f.width * f.height := Nat.mul_comm _ _

theorem index_inj (f : Frame) {x y x' y' : Nat} (hx : x < f.width) (hx' : x' < f.width)
    (h : f.index x y = f.index x' y') : x = x' ∧ y = y' := by
  simp only [index] at h
  have hw : 0 < f.width := by omega
  have hy : y = y' := by
    have h1 := congrArg (· / f.width) h
    simpa [Nat.mul_comm _ f.width, Nat.mul_add_div hw, Nat.div_eq_of_lt hx,
      Nat.div_eq_of_lt hx'] using h1
  subst hy
  omega

/-- A stored cell is read back at its position and nowhere else. -/
theorem cell?_set (f : Frame) (x y x' y' : Nat) (c : Cell) :
    (f.set x y c).cell? x' y' =
      if x' = x ∧ y' = y ∧ f.inBounds x y = true then some c else f.cell? x' y' := by
  by_cases hb : f.inBounds x y = true
  · have hset : f.set x y c = { f with
        cells := f.cells.setIfInBounds (f.index x y) c
        size_cells := by rw [Array.size_setIfInBounds]; exact f.size_cells } := by
      simp [set, hb]
    simp only [inBounds, Bool.and_eq_true, decide_eq_true_eq] at hb
    have hi := f.index_lt_size hb.1 hb.2
    by_cases hp : x' = x ∧ y' = y
    · obtain ⟨rfl, rfl⟩ := hp
      simp only [hset, cell?, inBounds, index] at *
      simp [hb.1, hb.2, hi]
    · by_cases hb' : x' < f.width ∧ y' < f.height
      · have hne : f.index x y ≠ f.index x' y' := by
          intro h
          have := f.index_inj hb.1 hb'.1 h
          exact hp ⟨this.1.symm, this.2.symm⟩
        have hne' : ¬(x' = x ∧ y' = y ∧ f.inBounds x y = true) := fun h => hp ⟨h.1, h.2.1⟩
        rw [if_neg hne', hset]
        simp only [cell?, inBounds, index] at *
        simp [hb'.1, hb'.2, hne]
      · have hne' : ¬(x' = x ∧ y' = y ∧ f.inBounds x y = true) := fun h => hp ⟨h.1, h.2.1⟩
        rw [if_neg hne', hset]
        simp only [cell?, inBounds, Bool.and_eq_true, decide_eq_true_eq, hb', if_false]
  · simp [set, hb]

end Frame

end CellCanvas
