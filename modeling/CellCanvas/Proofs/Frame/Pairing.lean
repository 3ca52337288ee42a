import CellCanvas.Frame.Pairing
import Mathlib.Tactic

/-!
# The pairing rule row by row

Whether a frame is valid depends on each of its rows alone, and on a row only through the cell of
each column. `isValid_iff_rows` is the form in which other proofs use or establish validity.
-/

namespace CellCanvas

/-- The cells of a row by column. -/
abbrev CellRow := Nat → Option Cell

/-- Every lead of the row has its continuation, every continuation its lead. -/
def CellRow.IsPaired (row : CellRow) : Prop :=
  ∀ x c, row x = some c →
    (c.width = 0 ∧ c.glyph = "" ∧ ∃ w l, x = w + 1 ∧ row w = some l ∧ l.width = 2) ∨
      c.width = 1 ∨ (c.width = 2 ∧ ∃ r, row (x + 1) = some r ∧ r.width = 0)

namespace Frame

variable {f : Frame} {x y : Nat} {c : Cell}

/-- The cells of a row of the grid. -/
def cellRow (f : Frame) (y : Nat) : CellRow := fun x => f.cell? x y

theorem lt_of_cell? (h : f.cell? x y = some c) : x < f.width ∧ y < f.height := by
  rw [cell?] at h
  split_ifs at h with hin
  simpa [inBounds] using hin

theorem exists_cell? (hx : x < f.width) (hy : y < f.height) : ∃ c, f.cell? x y = some c := by
  have hin : f.inBounds x y = true := by simp [inBounds, hx, hy]
  rw [cell?, if_pos hin]
  exact ⟨_, Array.getElem?_eq_getElem (f.index_lt_size hx hy)⟩

theorem cell?_eq_none (h : ¬(x < f.width ∧ y < f.height)) : f.cell? x y = none := by
  cases hc : f.cell? x y with
  | none => rfl
  | some c => exact absurd (lt_of_cell? hc) h

theorem isPaired_iff (h : f.cell? x y = some c) :
    f.isPaired x y = true ↔
      (c.width = 0 ∧ c.glyph = "" ∧ ∃ w l, x = w + 1 ∧ f.cell? w y = some l ∧ l.width = 2) ∨
        c.width = 1 ∨ (c.width = 2 ∧ ∃ r, f.cell? (x + 1) y = some r ∧ r.width = 0) := by
  simp only [isPaired, h]
  by_cases h₀ : c.width = 0
  · cases x with
    | zero => simp [h₀]
    | succ w =>
      simp [h₀, Option.any_eq_true, Cell.isWide, Cell.isEmpty, and_comm]
  · by_cases h₂ : c.width = 2
    · simp [h₂, Option.any_eq_true, Cell.isContinuation]
    · simp [h₀, h₂]

/-- A frame is valid when each of its rows is. -/
theorem isValid_iff_rows (f : Frame) : f.isValid = true ↔ ∀ y, (f.cellRow y).IsPaired := by
  rw [isValid_iff]
  constructor
  · intro h y x c hc
    exact (isPaired_iff hc).mp (h x y)
  · intro h x y
    cases hc : f.cell? x y with
    | none => simp [isPaired, hc]
    | some c => exact (isPaired_iff hc).mpr (h y x c hc)

end Frame

namespace CellRow.IsPaired

variable {row : CellRow} (h : row.IsPaired) {x : Nat} {c : Cell}

include h

theorem width_le_two (hc : row x = some c) : c.width ≤ 2 := by
  rcases h x c hc with ⟨h₀, -⟩ | h₁ | ⟨h₂, -⟩ <;> omega

/-- The lead to the left of a continuation. -/
theorem lead (hc : row x = some c) (h₀ : c.width = 0) :
    c.glyph = "" ∧ ∃ w l, x = w + 1 ∧ row w = some l ∧ l.width = 2 := by
  rcases h x c hc with ⟨-, hempty, hlead⟩ | h₁ | ⟨h₂, -⟩
  · exact ⟨hempty, hlead⟩
  · omega
  · omega

/-- The continuation to the right of a lead. -/
theorem tail (hc : row x = some c) (h₂ : c.width = 2) :
    ∃ r, row (x + 1) = some r ∧ r.width = 0 := by
  rcases h x c hc with ⟨h₀, -⟩ | h₁ | ⟨-, htail⟩
  · omega
  · omega
  · exact htail

end CellRow.IsPaired

namespace Frame

variable {f : Frame} {x y : Nat} {c : Cell}

theorem isPaired_cellRow (h : f.isValid = true) (y : Nat) : (f.cellRow y).IsPaired :=
  f.isValid_iff_rows.mp h y

/-- A glyph of a valid frame ends in its row. -/
theorem add_width_le (h : f.isValid = true) (hc : f.cell? x y = some c) :
    x + c.width ≤ f.width := by
  have hx := (lt_of_cell? hc).1
  have hpaired := isPaired_cellRow h y
  rcases hpaired x c hc with ⟨h₀, -⟩ | h₁ | ⟨h₂, r, hr, -⟩
  · omega
  · omega
  · have := (lt_of_cell? hr).1
    omega

end Frame

end CellCanvas
