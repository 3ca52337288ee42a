import CellCanvas.Frame.Resize
import CellCanvas.Proofs.Frame.Pairing

/-!
# A resized frame is paired

The repair of a row leaves single cells and pairs of a lead and its continuation, one after the
other. Such a row is paired wherever it was cut.
-/

namespace CellCanvas

/-- The row consists of single cells and of pairs of a lead and its continuation. -/
def IsUnits : List Cell → Prop
  | [] => True
  | [c] => c.width = 1
  | c :: n :: rest =>
    (c.width = 1 ∧ IsUnits (n :: rest)) ∨
      (c.width = 2 ∧ n.width = 0 ∧ n.glyph = "" ∧ IsUnits rest)

/-- A cell that a paired frame can hold at all. -/
def Cell.IsPlain (c : Cell) : Prop := c.width ≤ 2 ∧ (c.width = 0 → c.glyph = "")

theorem isUnits_cons {c : Cell} {rest : List Cell} (hc : c.width = 1) (h : IsUnits rest) :
    IsUnits (c :: rest) := by
  cases rest with
  | nil => exact hc
  | cons n rest => exact Or.inl ⟨hc, h⟩

/-- The repair of any row of plain cells consists of units. -/
theorem isUnits_repairRow (row : List Cell) (h : ∀ c ∈ row, c.IsPlain) :
    IsUnits (Frame.repairRow row) := by
  fun_induction Frame.repairRow row with
  | case1 => trivial
  | case2 c hcont => rfl
  | case3 c hcont hwide => rfl
  | case4 c hcont hwide =>
    have hplain := (h c (by simp)).1
    simp only [Cell.isContinuation, Cell.isWide, beq_iff_eq] at hcont hwide
    change c.width = 1
    omega
  | case5 c n rest hcont ih => exact isUnits_cons rfl (ih fun d hd => h d (by simp [hd]))
  | case6 c n rest hcont hwide hnext ih =>
    simp only [Cell.isContinuation, Cell.isWide, beq_iff_eq] at hwide hnext
    exact Or.inr ⟨hwide, hnext, (h n (by simp)).2 hnext, ih fun d hd => h d (by simp [hd])⟩
  | case7 c n rest hcont hwide hnext ih =>
    exact isUnits_cons rfl (isUnits_cons rfl (ih fun d hd => h d (by simp [hd])))
  | case8 c n rest hcont hwide ih =>
    have hplain := (h c (by simp)).1
    simp only [Cell.isContinuation, Cell.isWide, beq_iff_eq] at hcont hwide
    exact isUnits_cons (by omega) (ih fun d hd => h d (by simp [hd]))

/-- The cells of a list by column. -/
def CellRow.ofList (row : List Cell) : CellRow := fun x => row[x]?

theorem CellRow.isPaired_cons {c : Cell} {rest : List Cell} (hc : c.width = 1)
    (h : (ofList rest).IsPaired) : (ofList (c :: rest)).IsPaired := by
  intro x d hd
  cases x with
  | zero =>
    cases hd
    exact Or.inr (Or.inl hc)
  | succ x =>
    rcases h x d hd with ⟨h₀, hempty, w, l, rfl, hl, hwide⟩ | h₁ | ⟨h₂, r, hr, hr₀⟩
    · exact Or.inl ⟨h₀, hempty, w + 1, l, rfl, hl, hwide⟩
    · exact Or.inr (Or.inl h₁)
    · exact Or.inr (Or.inr ⟨h₂, r, hr, hr₀⟩)

theorem CellRow.isPaired_pair {c n : Cell} {rest : List Cell} (hc : c.width = 2)
    (hn : n.width = 0) (hempty : n.glyph = "") (h : (ofList rest).IsPaired) :
    (ofList (c :: n :: rest)).IsPaired := by
  intro x d hd
  cases x with
  | zero =>
    cases hd
    exact Or.inr (Or.inr ⟨hc, n, rfl, hn⟩)
  | succ x =>
    cases x with
    | zero =>
      cases hd
      exact Or.inl ⟨hn, hempty, 0, c, rfl, rfl, hc⟩
    | succ x =>
      rcases h x d hd with ⟨h₀, hglyph, w, l, rfl, hl, hwide⟩ | h₁ | ⟨h₂, r, hr, hr₀⟩
      · exact Or.inl ⟨h₀, hglyph, w + 2, l, rfl, hl, hwide⟩
      · exact Or.inr (Or.inl h₁)
      · exact Or.inr (Or.inr ⟨h₂, r, hr, hr₀⟩)

theorem CellRow.isPaired_of_isUnits (row : List Cell) (h : IsUnits row) :
    (ofList row).IsPaired := by
  fun_induction IsUnits row with
  | case1 => intro x c hc; cases hc
  | case2 c => exact isPaired_cons h (fun x c hc => nomatch hc)
  | case3 c n rest ih₁ ih₂ =>
    rcases h with ⟨hc, hrest⟩ | ⟨hc, hn, hempty, hrest⟩
    · exact isPaired_cons hc (ih₁ hrest)
    · exact isPaired_pair hc hn hempty (ih₂ hrest)

namespace Frame

variable {f : Frame}

theorem getElem?_flatMap_range {g : Nat → List Cell} {width height x y : Nat}
    (hg : ∀ y, (g y).length = width) (hx : x < width) (hy : y < height) :
    ((List.range height).flatMap g)[y * width + x]? = (g y)[x]? := by
  induction height with
  | zero => omega
  | succ n ih =>
    rw [List.range_succ, List.flatMap_append, List.flatMap_singleton]
    have hlength : ((List.range n).flatMap g).length = n * width := by
      rw [length_flatMap_range g width n hg, Nat.mul_comm]
    by_cases hlast : y = n
    · subst hlast
      rw [List.getElem?_append_right (by omega), hlength]
      congr 1
      omega
    · have hbefore : y * width + x < n * width := by
        calc y * width + x < (y + 1) * width := by rw [Nat.add_mul]; omega
          _ ≤ n * width := Nat.mul_le_mul_right _ (by omega)
      rw [List.getElem?_append_left (by omega), ih (by omega)]

/-- The rows of a frame that takes another size. -/
theorem cellRow_resize {width height : UInt16} {y : Nat}
    (hsize : ¬(width.toNat = f.width ∧ height.toNat = f.height)) (hy : y < height.toNat) :
    (f.resize width height).cellRow y = .ofList (f.resizedRow width.toNat y) := by
  funext x
  rw [resize, if_neg hsize]
  by_cases hx : x < width.toNat
  · have hin : (decide (x < width.toNat) && decide (y < height.toNat)) = true := by simp [hx, hy]
    simp only [cellRow, cell?, inBounds, hin, if_true, index, List.getElem?_toArray]
    exact getElem?_flatMap_range (f.length_resizedRow width.toNat) hx hy
  · have hout : (f.resizedRow width.toNat y)[x]? = none := by
      rw [List.getElem?_eq_none_iff, length_resizedRow]
      omega
    simp only [cellRow, cell?, inBounds, CellRow.ofList, hout, hx, decide_false, Bool.false_and,
      Bool.false_eq_true, if_false]

theorem ofList_row? {y : Nat} {row : Array Cell} (h : f.row? y = some row) :
    CellRow.ofList row.toList = f.cellRow y := by
  unfold row? at h
  split_ifs at h with hy
  cases h
  have hend : f.index f.width y ≤ f.cells.size := by
    rw [f.size_cells, index]
    calc y * f.width + f.width = (y + 1) * f.width := by rw [Nat.add_mul, Nat.one_mul]
      _ ≤ f.height * f.width := Nat.mul_le_mul_right _ (by omega)
      _ = f.width * f.height := Nat.mul_comm _ _
  funext x
  rw [CellRow.ofList, Array.getElem?_toList, Array.getElem?_extract, Nat.min_eq_left hend, cellRow,
    cell?]
  simp only [index, Nat.add_zero, Nat.add_sub_cancel_left]
  by_cases hx : x < f.width
  · simp [hx, hy, inBounds]
  · simp [hx, inBounds]

/-- The cells of a row are cells of the frame. -/
theorem mem_cells_of_mem_row? {y : Nat} {row : Array Cell} (h : f.row? y = some row) {c : Cell}
    (hc : c ∈ row.toList) : c ∈ f.cells := by
  obtain ⟨x, hx⟩ := List.mem_iff_getElem?.mp hc
  have hcell : f.cell? x y = some c := by
    change f.cellRow y x = some c
    rw [← ofList_row? h]
    exact hx
  unfold cell? at hcell
  split_ifs at hcell
  exact Array.mem_of_getElem? hcell

/-- Every cell of a frame stands at a position. -/
theorem exists_position_of_mem_cells {c : Cell} (hc : c ∈ f.cells) :
    ∃ x y, f.cell? x y = some c := by
  obtain ⟨i, hi⟩ := Array.mem_iff_getElem?.mp hc
  have hlt : i < f.width * f.height := by
    rw [← f.size_cells]
    exact (Array.getElem?_eq_some_iff.mp hi).1
  have hw : 0 < f.width := Nat.pos_of_mul_pos_right (Nat.zero_lt_of_lt hlt)
  refine ⟨i % f.width, i / f.width, ?_⟩
  have hin : f.inBounds (i % f.width) (i / f.width) = true := by
    simp [inBounds, Nat.mod_lt i hw, Nat.div_lt_of_lt_mul hlt]
  rw [cell?, if_pos hin, index, Nat.div_add_mod']
  exact hi

theorem isPlain_of_isValid (hf : f.isValid = true) : ∀ c ∈ f.cells, c.IsPlain := by
  intro c hc
  obtain ⟨x, y, hcell⟩ := exists_position_of_mem_cells hc
  have hpaired := isPaired_cellRow hf y
  exact ⟨hpaired.width_le_two hcell, fun h₀ => (hpaired.lead hcell h₀).1⟩

theorem isUnits_replicate_empty (n : Nat) : IsUnits (List.replicate n .empty) := by
  induction n with
  | zero => trivial
  | succ n ih => exact isUnits_cons rfl ih

/-- Every row of a resized frame is repaired. -/
theorem isUnits_resizedRow (hf : ∀ c ∈ f.cells, c.IsPlain) (width y : Nat) :
    IsUnits (f.resizedRow width y) := by
  unfold resizedRow
  cases h : f.row? y with
  | none => exact isUnits_replicate_empty width
  | some row =>
    apply isUnits_repairRow
    intro c hc
    rcases List.mem_append.mp hc with hc | hc
    · exact hf c (mem_cells_of_mem_row? h (List.mem_of_mem_take hc))
    · obtain rfl := List.eq_of_mem_replicate hc
      exact ⟨by decide, by decide⟩

/-- A frame that takes another size is valid, however its cells were arranged. -/
theorem isValid_resize_of_isPlain (hf : ∀ c ∈ f.cells, c.IsPlain) {width height : UInt16}
    (hsize : ¬(width.toNat = f.width ∧ height.toNat = f.height)) :
    (f.resize width height).isValid = true := by
  rw [isValid_iff_rows]
  intro y
  by_cases hy : y < height.toNat
  · rw [cellRow_resize hsize hy]
    exact CellRow.isPaired_of_isUnits _ (isUnits_resizedRow hf width.toNat y)
  · intro x c hc
    have hheight : (f.resize width height).height = height.toNat := by rw [resize, if_neg hsize]
    have hin := (lt_of_cell? hc).2
    omega

theorem isValid_resize (hf : f.isValid = true) (width height : UInt16) :
    (f.resize width height).isValid = true := by
  by_cases hsize : width.toNat = f.width ∧ height.toNat = f.height
  · rw [resize, if_pos hsize]
    exact hf
  · exact isValid_resize_of_isPlain (isPlain_of_isValid hf) hsize

end Frame

end CellCanvas
