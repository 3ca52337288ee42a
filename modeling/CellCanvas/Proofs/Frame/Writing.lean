import CellCanvas.Frame.Write
import CellCanvas.Proofs.Frame.Pairing

/-!
# What a write does to a row

On a valid frame a write has one exact effect on its row: the new cell, and spaces in place of the
halves that lost their other half. The row stays paired, and no other row changes.
-/

namespace CellCanvas

namespace CellRow

/-- How many columns the cell at a column takes. -/
def width? (row : CellRow) (x : Nat) : Option Nat := (row x).map Cell.width

/-- The row after a cell of one column is written. -/
def narrow (row : CellRow) (x : Nat) (c : Cell) : CellRow := fun i =>
  if i = x then some c
  else if i + 1 = x ∧ row.width? x = some 0 then some (.blank c.style)
  else if i = x + 1 ∧ row.width? x = some 2 then some (.blank c.style)
  else row i

/-- The row after a wide glyph is written. -/
def wide (row : CellRow) (x : Nat) (lead : Cell) : CellRow := fun i =>
  if i = x then some lead
  else if i = x + 1 then some (.continuation lead.style)
  else if i + 1 = x ∧ row.width? x = some 0 then some (.blank lead.style)
  else if i = x + 2 ∧ row.width? (x + 1) = some 2 then some (.blank lead.style)
  else row i

theorem width?_eq_some {row : CellRow} {x n : Nat} :
    row.width? x = some n ↔ ∃ c, row x = some c ∧ c.width = n := Option.map_eq_some_iff

/-- The pairing rule in terms of widths alone. -/
theorem isPaired_iff_width? (row : CellRow) :
    row.IsPaired ↔
      (∀ x c, row x = some c → c.width ≤ 2 ∧ (c.width = 0 → c.glyph = "")) ∧
        row.width? 0 ≠ some 0 ∧ ∀ x, row.width? (x + 1) = some 0 ↔ row.width? x = some 2 := by
  constructor
  · intro h
    refine ⟨?_, ?_, ?_⟩
    · intro x c hc
      exact ⟨h.width_le_two hc, fun h₀ => (h.lead hc h₀).1⟩
    · intro hzero
      obtain ⟨c, hc, h₀⟩ := width?_eq_some.mp hzero
      obtain ⟨-, w, l, hw, -⟩ := h.lead hc h₀
      omega
    · intro x
      constructor
      · intro hzero
        obtain ⟨c, hc, h₀⟩ := width?_eq_some.mp hzero
        obtain ⟨-, w, l, hw, hl, hwide⟩ := h.lead hc h₀
        obtain rfl : x = w := by omega
        exact width?_eq_some.mpr ⟨l, hl, hwide⟩
      · intro htwo
        obtain ⟨c, hc, h₂⟩ := width?_eq_some.mp htwo
        obtain ⟨r, hr, h₀⟩ := h.tail hc h₂
        exact width?_eq_some.mpr ⟨r, hr, h₀⟩
  · rintro ⟨hplain, hfirst, hpair⟩ x c hc
    obtain ⟨hle, hempty⟩ := hplain x c hc
    have hwidth : row.width? x = some c.width := width?_eq_some.mpr ⟨c, hc, rfl⟩
    by_cases h₀ : c.width = 0
    · rw [h₀] at hwidth
      cases x with
      | zero => exact absurd hwidth hfirst
      | succ w =>
        obtain ⟨l, hl, hwide⟩ := width?_eq_some.mp ((hpair w).mp hwidth)
        exact Or.inl ⟨h₀, hempty h₀, w, l, rfl, hl, hwide⟩
    · by_cases h₂ : c.width = 2
      · rw [h₂] at hwidth
        obtain ⟨r, hr, hzero⟩ := width?_eq_some.mp ((hpair x).mpr hwidth)
        exact Or.inr (Or.inr ⟨h₂, r, hr, hzero⟩)
      · exact Or.inr (Or.inl (by omega))

variable {row : CellRow} {x : Nat} {c : Cell}

theorem width?_narrow (row : CellRow) (x i : Nat) (c : Cell) :
    (row.narrow x c).width? i =
      if i = x then some c.width
      else if i + 1 = x ∧ row.width? x = some 0 then some 1
      else if i = x + 1 ∧ row.width? x = some 2 then some 1
      else row.width? i := by
  rw [width?, narrow]
  split_ifs <;> rfl

theorem width?_wide (row : CellRow) (x i : Nat) (lead : Cell) :
    (row.wide x lead).width? i =
      if i = x then some lead.width
      else if i = x + 1 then some 0
      else if i + 1 = x ∧ row.width? x = some 0 then some 1
      else if i = x + 2 ∧ row.width? (x + 1) = some 2 then some 1
      else row.width? i := by
  rw [width?, wide]
  split_ifs <;> rfl

/-- A wide glyph takes the place of two spaces that are written before it. -/
theorem wide_eq (h : row.IsPaired) (x i : Nat) (lead : Cell) :
    row.wide x lead i =
      if i = x + 1 then some (.continuation lead.style)
      else if i = x then some lead
      else ((row.narrow x (.blank lead.style)).narrow (x + 1) (.blank lead.style)) i := by
  have hpair := ((isPaired_iff_width? row).mp h).2.2 x
  have hstyle : (Cell.blank lead.style).style = lead.style := rfl
  simp only [wide, narrow, width?_narrow, hstyle]
  grind

theorem IsPaired.narrow (h : row.IsPaired) (x : Nat) (hc : c.width = 1) :
    (row.narrow x c).IsPaired := by
  rw [isPaired_iff_width?] at h ⊢
  obtain ⟨hplain, hfirst, hpair⟩ := h
  refine ⟨?_, ?_, ?_⟩
  · intro i d hd
    unfold CellRow.narrow at hd
    split_ifs at hd
    · cases hd
      omega
    · cases hd
      simp [Cell.blank]
    · cases hd
      simp [Cell.blank]
    · exact hplain i d hd
  · rw [width?_narrow]
    grind
  · intro i
    rw [width?_narrow, width?_narrow]
    grind

theorem IsPaired.wide (h : row.IsPaired) (x : Nat) (hc : c.width = 2) :
    (row.wide x c).IsPaired := by
  rw [isPaired_iff_width?] at h ⊢
  obtain ⟨hplain, hfirst, hpair⟩ := h
  refine ⟨?_, ?_, ?_⟩
  · intro i d hd
    unfold CellRow.wide at hd
    split_ifs at hd
    · cases hd
      omega
    · cases hd
      simp [Cell.continuation]
    · cases hd
      simp [Cell.blank]
    · cases hd
      simp [Cell.blank]
    · exact hplain i d hd
  · rw [width?_wide]
    grind
  · intro i
    rw [width?_wide, width?_wide]
    grind

end CellRow

namespace Frame

variable {f : Frame} {x y : Nat} {c : Cell}

theorem cell?_set_of_lt (hx : x < f.width) (hy : y < f.height) (i j : Nat) (c : Cell) :
    (f.set x y c).cell? i j = if i = x ∧ j = y then some c else f.cell? i j := by
  have hin : f.inBounds x y = true := by simp [inBounds, hx, hy]
  rw [cell?_set]
  simp only [hin, and_true]

/-- A valid frame takes every write in its grid. -/
theorem accepts_of_isValid (hf : f.isValid = true) (hc : f.cell? x y = some c) :
    f.accepts x y = true := by
  have hpaired := isPaired_cellRow hf y
  rcases hpaired x c hc with ⟨h₀, -, w, l, rfl, -⟩ | h₁ | ⟨h₂, r, hr, -⟩
  · simp [accepts, hc, Cell.isContinuation, Cell.isWide, h₀]
  · simp [accepts, hc, Cell.isContinuation, Cell.isWide, h₁]
  · have hin := (lt_of_cell? hr).1
    simp [accepts, hc, Cell.isContinuation, Cell.isWide, h₂, hin]

theorem not_continuation_behind (hf : f.isValid = true) (hc : f.cell? x y = some c)
    (hw : c.width ≠ 2) : (f.cell? (x + 1) y).any Cell.isContinuation = false := by
  cases hr : f.cell? (x + 1) y with
  | none => rfl
  | some r =>
    by_contra hcont
    have h₀ : r.width = 0 := by simpa [Cell.isContinuation] using hcont
    obtain ⟨-, w, l, hx, hl, hwide⟩ := (isPaired_cellRow hf y).lead hr h₀
    obtain rfl : x = w := by omega
    change f.cell? x y = some l at hl
    rw [hc] at hl
    cases hl
    exact hw hwide

section Detach

variable (hf : f.isValid = true) (hc : f.cell? x y = some c) (s : Style)

include hf hc

theorem detach_of_narrow (h : c.width = 1) : f.detach x y s = f := by
  have hcont : (f.cell? x y).any Cell.isContinuation = false := by
    simp [hc, Cell.isContinuation, h]
  have hwide : (f.cell? x y).any Cell.isWide = false := by simp [hc, Cell.isWide, h]
  have hbehind := not_continuation_behind hf hc (by omega)
  simp only [detach, hcont, hwide, hbehind, Bool.false_eq_true, if_false]

theorem detach_of_lead (h : c.width = 2) : f.detach x y s = f.set (x + 1) y (.blank s) := by
  obtain ⟨r, hr, -⟩ := (isPaired_cellRow hf y).tail hc h
  obtain ⟨hx, hy⟩ := lt_of_cell? hr
  have hcont : (f.cell? x y).any Cell.isContinuation = false := by
    simp [hc, Cell.isContinuation, h]
  have hwide : (f.cell? x y).any Cell.isWide = true := by simp [hc, Cell.isWide, h]
  have hblank : ((f.set (x + 1) y (.blank s)).cell? (x + 1) y).any Cell.isContinuation = false := by
    rw [cell?_set_of_lt hx hy, if_pos ⟨rfl, rfl⟩]
    rfl
  simp only [detach, hcont, hwide, hblank, Bool.false_eq_true, if_false, if_true]

theorem detach_of_continuation {w : Nat} (hw : x = w + 1) (h : c.width = 0) :
    f.detach x y s = f.set w y (.blank s) := by
  subst hw
  obtain ⟨hx, hy⟩ := lt_of_cell? hc
  have hcont : (f.cell? (w + 1) y).any Cell.isContinuation = true := by
    simp [hc, Cell.isContinuation, h]
  have hwide : (f.cell? (w + 1) y).any Cell.isWide = false := by simp [hc, Cell.isWide, h]
  have hbehind : ((f.set w y (.blank s)).cell? (w + 1 + 1) y).any Cell.isContinuation = false := by
    rw [cell?_set_of_lt (by omega) hy, if_neg (by omega)]
    exact not_continuation_behind hf hc (by omega)
  simp only [detach, hcont, hwide, Nat.add_sub_cancel, hbehind, Bool.false_eq_true, if_false,
    if_true]

end Detach

/-- A cell of one column is written, and no other row changes. -/
theorem cellRow_writeNarrow (hf : f.isValid = true) (hx : x < f.width) (hy : y < f.height)
    (c : Cell) (j : Nat) :
    (f.writeNarrow x y c).cellRow j =
      if j = y then (f.cellRow y).narrow x c else f.cellRow j := by
  obtain ⟨old, hold⟩ := exists_cell? hx hy
  have hwidth : (f.cellRow y).width? x = some old.width :=
    CellRow.width?_eq_some.mpr ⟨old, hold, rfl⟩
  rw [writeNarrow, if_pos (accepts_of_isValid hf hold)]
  funext i
  have hset (g : Frame) (hgw : g.width = f.width) (hgh : g.height = f.height) :
      (g.set x y c).cellRow j i = if i = x ∧ j = y then some c else g.cell? i j :=
    cell?_set_of_lt (hgw ▸ hx) (hgh ▸ hy) i j c
  rcases isPaired_cellRow hf y x old hold with ⟨h₀, -, w, l, hw, -⟩ | h₁ | ⟨h₂, r, hr, -⟩
  · rw [detach_of_continuation hf hold c.style hw h₀, hset _ (by simp) (by simp),
      cell?_set_of_lt (by omega) hy]
    rw [h₀] at hwidth
    by_cases hj : j = y
    · subst hj
      simp only [CellRow.narrow, hwidth, cellRow, and_true, if_true]
      grind
    · simp [hj, cellRow]
  · rw [detach_of_narrow hf hold c.style h₁, hset f rfl rfl]
    rw [h₁] at hwidth
    by_cases hj : j = y
    · subst hj
      simp [CellRow.narrow, hwidth, cellRow]
    · simp [hj, cellRow]
  · rw [detach_of_lead hf hold c.style h₂, hset _ (by simp) (by simp),
      cell?_set_of_lt (lt_of_cell? hr).1 hy]
    rw [h₂] at hwidth
    by_cases hj : j = y
    · subst hj
      simp [CellRow.narrow, hwidth, cellRow]
    · simp [hj, cellRow]

theorem size_detach (f : Frame) (x y : Nat) (s : Style) :
    (f.detach x y s).width = f.width ∧ (f.detach x y s).height = f.height := by
  unfold detach
  dsimp only
  split_ifs <;> simp

theorem size_writeNarrow (f : Frame) (x y : Nat) (c : Cell) :
    (f.writeNarrow x y c).width = f.width ∧ (f.writeNarrow x y c).height = f.height := by
  have h := size_detach f x y c.style
  unfold writeNarrow
  split_ifs
  · simpa using h
  · exact ⟨rfl, rfl⟩

theorem writeNarrow_of_not_lt (h : ¬(x < f.width ∧ y < f.height)) : f.writeNarrow x y c = f := by
  have hout : f.accepts x y = false := by simp [accepts, cell?_eq_none h]
  rw [writeNarrow, hout]
  rfl

theorem isValid_writeNarrow (hf : f.isValid = true) (x y : Nat) (hc : c.width = 1) :
    (f.writeNarrow x y c).isValid = true := by
  by_cases hin : x < f.width ∧ y < f.height
  · rw [isValid_iff_rows]
    intro j
    rw [cellRow_writeNarrow hf hin.1 hin.2]
    split_ifs
    · exact (isPaired_cellRow hf y).narrow x hc
    · exact isPaired_cellRow hf j
  · rw [writeNarrow_of_not_lt hin]
    exact hf

/-- A wide glyph takes two columns, which are freed one after the other. -/
theorem cellRow_writeWide (hf : f.isValid = true) (hx : x + 1 < f.width) (hy : y < f.height)
    (lead : Cell) (j : Nat) :
    (f.writeWide x y lead).cellRow j =
      if j = y then (f.cellRow y).wide x lead else f.cellRow j := by
  have hfirst := isValid_writeNarrow hf x y (c := .blank lead.style) rfl
  obtain ⟨hwidth, hheight⟩ := size_writeNarrow f x y (.blank lead.style)
  obtain ⟨hwidth₂, hheight₂⟩ :=
    size_writeNarrow (f.writeNarrow x y (.blank lead.style)) (x + 1) y (.blank lead.style)
  obtain ⟨old, hold⟩ := exists_cell? (x := x) (by omega) hy
  obtain ⟨next, hnext⟩ := exists_cell? (f := f.writeNarrow x y (.blank lead.style)) (x := x + 1)
    (y := y) (by omega) (by omega)
  have hroom : ¬(f.width ≤ x + 1 || !f.accepts x y) = true := by
    simp [accepts_of_isValid hf hold]
    omega
  rw [writeWide, if_neg hroom]
  dsimp only
  rw [if_pos (accepts_of_isValid hfirst hnext)]
  funext i
  have hrows := cellRow_writeNarrow hfirst (x := x + 1) (y := y) (by omega) (by omega)
    (.blank lead.style)
  have hset : ((((f.writeNarrow x y (.blank lead.style)).writeNarrow (x + 1) y
      (.blank lead.style)).set x y lead).set (x + 1) y (.continuation lead.style)).cellRow j i =
      if i = x + 1 ∧ j = y then some (.continuation lead.style)
      else if i = x ∧ j = y then some lead
      else (if j = y then ((f.writeNarrow x y (.blank lead.style)).cellRow y).narrow (x + 1)
        (.blank lead.style) else (f.writeNarrow x y (.blank lead.style)).cellRow j) i := by
    rw [← hrows, cellRow, cell?_set_of_lt (by simp; omega) (by simp; omega),
      cell?_set_of_lt (by omega) (by omega)]
    rfl
  rw [hset, cellRow_writeNarrow hf (by omega) hy, cellRow_writeNarrow hf (by omega) hy]
  by_cases hj : j = y
  · simp only [hj, and_true, if_true, CellRow.wide_eq (isPaired_cellRow hf y)]
  · simp [hj]

theorem writeWide_of_not_lt (h : ¬(x + 1 < f.width ∧ y < f.height)) : f.writeWide x y c = f := by
  by_cases hx : f.width ≤ x + 1
  · simp [writeWide, hx]
  · have hout : f.accepts x y = false := by simp [accepts, cell?_eq_none (f := f) (x := x) (y := y)
      (by omega)]
    simp [writeWide, hout]

theorem isValid_writeWide (hf : f.isValid = true) (x y : Nat) (hc : c.width = 2) :
    (f.writeWide x y c).isValid = true := by
  by_cases hin : x + 1 < f.width ∧ y < f.height
  · rw [isValid_iff_rows]
    intro j
    rw [cellRow_writeWide hf hin.1 hin.2]
    split_ifs
    · exact (isPaired_cellRow hf y).wide x hc
    · exact isPaired_cellRow hf j
  · rw [writeWide_of_not_lt hin]
    exact hf

end Frame

end CellCanvas
