import CellCanvas.Proofs.Session.Painting

/-!
# Comparing frames is sound

Cells that compare as the same look the same on the terminal, also when their link numbers belong
to different tables. The spans of a row contain every cell that differs, so a terminal that showed
the old row and gets the cells of the spans shows the new one.
-/

namespace CellCanvas.Comparison

variable {p f : Frame} {caps : Capabilities} {x y : Nat}

theorem linkUri?_eq {old new : Cell}
    (h : ((of p f).sameLinks || (old.style.link == 0 && new.style.link == 0)) = true)
    (hcell : old = new) : p.linkUri? old.style.link = f.linkUri? new.style.link := by
  subst hcell
  rcases Bool.or_eq_true_iff.mp h with hlinks | hnone
  · have : p.links = f.links := by simpa [of] using hlinks
    unfold Frame.linkUri?
    rw [this]
  · have : old.style.link = 0 := by simpa using hnone
    rw [this]
    rfl

/-- Cells that compare as the same are shown in the same way. -/
theorem spot_eq (caps : Capabilities) {old new : Cell} (h : (of p f).sameCell old new = true) :
    Spot.of caps p old = Spot.of caps f new := by
  unfold sameCell at h
  split_ifs at h with hlinks
  · have hcell : old = new := by simpa using h
    have huri := linkUri?_eq hlinks hcell
    subst hcell
    rw [Spot.of, Spot.of, huri]
  · simp only [Bool.and_eq_true, decide_eq_true_eq] at h
    obtain ⟨hcell, huri⟩ := h
    change p.linkUri? _ = f.linkUri? _ at huri
    have hspot : (Spot.of caps p old).glyph = (Spot.of caps f new).glyph ∧
        (Spot.of caps p old).columns = (Spot.of caps f new).columns ∧
        (Spot.of caps p old).rendition = (Spot.of caps f new).rendition := by
      change old.unlinked.glyph = new.unlinked.glyph ∧ old.unlinked.width = new.unlinked.width ∧
        Rendition.ofStyle (caps.resolve old.unlinked.style) =
          Rendition.ofStyle (caps.resolve new.unlinked.style)
      rw [hcell]
      exact ⟨rfl, rfl, rfl⟩
    obtain ⟨hglyph, hcolumns, hrendition⟩ := hspot
    simp only [Spot.of] at *
    rw [hglyph, hcolumns, hrendition, huri]

theorem sameCell_of_sameCells {c : Comparison} {newRow oldRow left : Nat}
    (h : c.sameCells newRow oldRow x left = true) {z : Nat} (h₁ : x ≤ z) (h₂ : z < x + left) :
    ∃ old new, c.previous.cell? z oldRow = some old ∧ c.next.cell? z newRow = some new ∧
      c.sameCell old new = true := by
  induction left generalizing x with
  | zero => omega
  | succ left ih =>
    simp only [sameCells, Bool.and_eq_true] at h
    obtain ⟨hfirst, hrest⟩ := h
    by_cases hz : z = x
    · subst hz
      cases hold : c.previous.cell? z oldRow with
      | none => simp [hold] at hfirst
      | some old =>
        cases hnew : c.next.cell? z newRow with
        | none => simp [hold, hnew] at hfirst
        | some new =>
          simp only [hold, hnew] at hfirst
          exact ⟨old, new, rfl, rfl, hfirst⟩
    · exact ih hrest (by omega) (by omega)

/-- A row that shows an old row shows the cells of a new row that are the same. -/
theorem showsOn_of_sameCell {row : ScreenRow} {oldRow newRow : Nat} {columns : Nat → Prop}
    (h : row.Shows caps p oldRow)
    (hsame : ∀ z new, columns z → f.cell? z newRow = some new →
      ∃ old, p.cell? z oldRow = some old ∧ (of p f).sameCell old new = true) :
    row.ShowsOn caps f newRow columns := by
  intro z new hz hnew hw
  obtain ⟨old, hold, hcell⟩ := hsame z new hz hnew
  have hspot := spot_eq caps hcell
  have hwidth : old.width = new.width := congrArg Spot.columns hspot
  rw [← hspot]
  exact h.2 z old trivial hold (hwidth ▸ hw)

/-- A row that shows an old row shows every row that compares as the same. -/
theorem shows_of_sameRow {row : ScreenRow} {oldRow newRow : Nat} (h : row.Shows caps p oldRow)
    (hsame : (of p f).sameRow newRow oldRow = true) : row.Shows caps f newRow := by
  refine ⟨h.1, showsOn_of_sameCell h ?_⟩
  intro z new _ hnew
  simp only [sameRow, Bool.and_eq_true, decide_eq_true_eq] at hsame
  have hz := (Frame.lt_of_cell? hnew).1
  obtain ⟨old, new', hold, hnew', hcell⟩ :=
    sameCell_of_sameCells hsame.2 (Nat.zero_le z) (by rw [Nat.zero_add]; exact hz)
  change f.cell? z newRow = some new' at hnew'
  rw [hnew] at hnew'
  cases hnew'
  exact ⟨old, hold, hcell⟩

theorem le_runEnd (c : Comparison) (y x left : Nat) : x ≤ c.runEnd y x left := by
  induction left generalizing x with
  | zero => exact Nat.le_refl x
  | succ left ih =>
    rw [runEnd]
    split_ifs
    · have := ih (x + 1)
      omega
    · exact Nat.le_refl x

/-- Widening a span loses no column. -/
theorem widen_covers (f : Frame) (y first last : Nat) :
    (widen f y first last).1 ≤ first ∧ last ≤ (widen f y first last).2 := by
  unfold widen
  dsimp only
  split_ifs <;> omega

/-- Every cell that differs lies in a span. -/
theorem mem_columnsOf_spansFrom (c : Comparison) (left : Nat) {x resume z : Nat} (h₁ : x ≤ z)
    (h₂ : z < x + left) (hresume : resume ≤ z) (hdirty : c.isDirty z y = true) :
    z ∈ columnsOf (c.spansFrom y x resume left) := by
  induction left generalizing x resume with
  | zero => omega
  | succ left ih =>
    rw [spansFrom]
    by_cases hskip : (decide (x < resume) || !c.isDirty x y) = true
    · rw [if_pos hskip]
      have hne : z ≠ x := by
        rintro rfl
        simp only [hdirty, Bool.not_true, Bool.or_false, decide_eq_true_eq] at hskip
        omega
      exact ih (by omega) (by omega) hresume
    · rw [if_neg hskip, columnsOf_cons, List.mem_append]
      have hstop := c.le_runEnd y (x + 1) left
      obtain ⟨hfirst, hlast⟩ := widen_covers c.next y x (c.runEnd y (x + 1) left - 1)
      by_cases hin : z ≤ (widen c.next y x (c.runEnd y (x + 1) left - 1)).2
      · left
        rw [List.mem_range'_1]
        omega
      · right
        exact ih (by omega) (by omega) (by omega)

theorem mem_columnsOf_spans {c : Comparison} (hx : x < c.next.width)
    (hdirty : c.isDirty x y = true) : x ∈ columnsOf (c.spans y) :=
  c.mem_columnsOf_spansFrom c.next.width (Nat.zero_le x) (by omega) (Nat.zero_le x) hdirty

/-- Outside the spans an old row shows the new one already. -/
theorem showsOn_of_spans {row : ScreenRow} (hw : p.width = f.width) (hh : p.height = f.height)
    (h : row.Shows caps p y) :
    row.ShowsOn caps f y fun x => x ∉ columnsOf ((of p f).spans y) := by
  apply showsOn_of_sameCell h
  intro z new hz hnew
  obtain ⟨hx, hy⟩ := Frame.lt_of_cell? hnew
  obtain ⟨old, hold⟩ := Frame.exists_cell? (hw.symm ▸ hx) (hh.symm ▸ hy)
  refine ⟨old, hold, ?_⟩
  by_contra hdiffers
  apply hz
  apply mem_columnsOf_spans hx
  have hprevious : (of p f).previous.cell? z y = some old := hold
  have hnext : (of p f).next.cell? z y = some new := hnew
  rw [Bool.not_eq_true] at hdiffers
  simp only [isDirty, hprevious, hnext, hdiffers, Bool.not_false, Bool.true_or]

end CellCanvas.Comparison
