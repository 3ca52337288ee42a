import CellCanvas.Capabilities
import CellCanvas.Frame.Links
import CellCanvas.Proofs.Emulator.Screen
import CellCanvas.Proofs.Frame.Pairing

/-!
# A frame on a screen

A row of the screen shows a row of a frame when every cell that is no continuation has its spot. The
proofs rest on one more fact: on a paired row the right half of every wide glyph directly follows
it. Writing a cell of the frame then never harms a spot that is right already, in whatever order the
cells are written.
-/

namespace CellCanvas

/-- How a terminal shows a cell of a frame. -/
def Spot.of (caps : Capabilities) (f : Frame) (c : Cell) : Spot where
  glyph := c.glyph
  columns := c.width
  rendition := .ofStyle (caps.resolve c.style)
  link := if caps.hyperlinks then f.linkUri? c.style.link else none

namespace ScreenRow

/-- Every right half follows its glyph, and every wide glyph has its right half. -/
def IsPaired (row : ScreenRow) : Prop :=
  (row 0).columns ≠ 0 ∧ ∀ x, (row (x + 1)).columns = 0 ↔ (row x).columns = 2

/-- The row shows the cells of a row of a frame at some columns. -/
def ShowsOn (caps : Capabilities) (f : Frame) (y : Nat) (columns : Nat → Prop) (row : ScreenRow) :
    Prop :=
  ∀ x c, columns x → f.cell? x y = some c → c.width ≠ 0 → row x = .of caps f c

/-- Write a cell of a frame; a continuation is written by its lead. -/
def paint (caps : Capabilities) (f : Frame) (y : Nat) (row : ScreenRow) (x : Nat) : ScreenRow :=
  match f.cell? x y with
  | some c => if c.width = 0 then row else row.put x (.of caps f c)
  | none => row

theorem isPaired_blank (r : Rendition) : IsPaired fun _ => .blank r := by
  simp [IsPaired, Spot.blank]

section Put

variable {row : ScreenRow} {x i : Nat} {s : Spot}

theorem put_self : row.put x s x = s := if_pos rfl

theorem put_left (h : i + 1 = x) :
    row.put x s i = if (row x).columns = 0 then (row i).erased else row i := by
  have hi : i ≠ x := by omega
  have hr : i ≠ x + 1 := by omega
  have he : i ≠ x + s.columns := by omega
  simp [put, hi, hr, h, he]

/-- The spot behind a glyph of one or two columns. -/
theorem put_behind (hs : s.columns = 1 ∨ s.columns = 2) (h : i = x + s.columns) :
    row.put x s i = if (row (i - 1)).columns = 2 then (row i).erased else row i := by
  have hi : i ≠ x := by omega
  have hr : ¬(i = x + 1 ∧ s.columns = 2) := by omega
  have hl : ¬(i + 1 = x ∧ (row x).columns = 0) := by omega
  rw [put, if_neg hi, if_neg hr, if_neg hl]
  by_cases hwide : (row (i - 1)).columns = 2
  · rw [if_pos ⟨h, hwide⟩, if_pos hwide]
  · rw [if_neg (fun hc => hwide hc.2), if_neg hwide]

theorem put_far (h₁ : i + 1 ≠ x) (h₂ : i < x ∨ x + s.columns < i) : row.put x s i = row i := by
  have hi : i ≠ x := by omega
  have hr : ¬(i = x + 1 ∧ s.columns = 2) := by omega
  have he : i ≠ x + s.columns := by omega
  simp [put, hi, hr, h₁, he]

/-- Writing a glyph keeps the row paired, whichever halves it hits. -/
theorem IsPaired.put (h : row.IsPaired) (x : Nat) (hs : s.columns = 1 ∨ s.columns = 2) :
    (row.put x s).IsPaired := by
  have hcolumns (i : Nat) : (row.put x s i).columns =
      if i = x then s.columns
      else if i = x + 1 ∧ s.columns = 2 then 0
      else if i + 1 = x ∧ (row x).columns = 0 then 1
      else if i = x + s.columns ∧ (row (i - 1)).columns = 2 then 1
      else (row i).columns := by
    unfold ScreenRow.put
    split_ifs <;> rfl
  obtain ⟨h₀, h⟩ := h
  refine ⟨?_, ?_⟩
  · rw [hcolumns]
    grind
  · intro i
    rw [hcolumns, hcolumns]
    grind

end Put

section Paint

variable {caps : Capabilities} {f : Frame} {y : Nat} {columns : Nat → Prop} {row : ScreenRow}

/-- A row that shows all of its cells. -/
def Shows (caps : Capabilities) (f : Frame) (y : Nat) (row : ScreenRow) : Prop :=
  row.IsPaired ∧ row.ShowsOn caps f y fun _ => True

theorem columns_of_width (caps : Capabilities) (hf : f.isValid = true) {x : Nat} {c : Cell}
    (hc : f.cell? x y = some c) (hw : c.width ≠ 0) :
    (Spot.of caps f c).columns = 1 ∨ (Spot.of caps f c).columns = 2 := by
  have hle := (Frame.isPaired_cellRow hf y).width_le_two hc
  change c.width = 1 ∨ c.width = 2
  omega

theorem IsPaired.paint (h : row.IsPaired) (hf : f.isValid = true) (x : Nat) :
    (row.paint caps f y x).IsPaired := by
  unfold ScreenRow.paint
  cases hc : f.cell? x y with
  | none => exact h
  | some c =>
    by_cases hw : c.width = 0
    · simpa only [hw, if_true] using h
    · simpa only [hw, if_false] using h.put x (columns_of_width caps hf hc hw)

/-- Writing a cell leaves the other cells that are shown: a glyph that would lose a half to the new
one is not in the frame. -/
theorem put_of_shown (hp : row.IsPaired) (hf : f.isValid = true) {x i : Nat} {c c' : Cell}
    (hc : f.cell? x y = some c) (hw : c.width ≠ 0) (hc' : f.cell? i y = some c')
    (hw' : c'.width ≠ 0) (hne : i ≠ x) (hold : row i = .of caps f c') :
    row.put x (.of caps f c) i = .of caps f c' := by
  have hcells := Frame.isPaired_cellRow hf y
  have hs := columns_of_width caps hf hc hw
  have hcolumns : (row i).columns = c'.width := by rw [hold]; rfl
  have hwidth : (Spot.of caps f c).columns = c.width := rfl
  by_cases hleft : i + 1 = x
  · have hhalf : (row x).columns ≠ 0 := by
      intro hzero
      subst hleft
      have hwide := (hp.2 i).mp hzero
      obtain ⟨r, hr, hr₀⟩ := hcells.tail hc' (hcolumns.symm.trans hwide)
      change f.cell? (i + 1) y = some r at hr
      rw [hc] at hr
      cases hr
      exact hw hr₀
    rw [put_left hleft, if_neg hhalf, hold]
  · by_cases hright : i = x + 1 ∧ c.width = 2
    · obtain ⟨rfl, hwide⟩ := hright
      obtain ⟨r, hr, hr₀⟩ := hcells.tail hc hwide
      change f.cell? (x + 1) y = some r at hr
      rw [hc'] at hr
      cases hr
      exact absurd hr₀ hw'
    · by_cases hbehind : i = x + c.width
      · have hhalf : (row (i - 1)).columns ≠ 2 := by
          intro hwide
          have hzero := (hp.2 (i - 1)).mpr hwide
          rw [show i - 1 + 1 = i by omega] at hzero
          omega
        rw [put_behind hs (hwidth ▸ hbehind), if_neg hhalf, hold]
      · rw [put_far hleft (by omega), hold]

/-- A cell that is written is shown, and what was shown before still is. -/
theorem ShowsOn.paint (h : row.ShowsOn caps f y columns) (hp : row.IsPaired)
    (hf : f.isValid = true) (x : Nat) :
    (row.paint caps f y x).ShowsOn caps f y fun i => columns i ∨ i = x := by
  intro i c' hi hc' hw'
  unfold ScreenRow.paint
  cases hc : f.cell? x y with
  | none =>
    rcases hi with hi | rfl
    · exact h i c' hi hc' hw'
    · rw [hc] at hc'
      cases hc'
  | some c =>
    by_cases hw : c.width = 0
    · simp only [hw, if_true]
      rcases hi with hi | rfl
      · exact h i c' hi hc' hw'
      · rw [hc] at hc'
        cases hc'
        exact absurd hw hw'
    · simp only [hw, if_false]
      by_cases hx : i = x
      · subst hx
        rw [hc] at hc'
        cases hc'
        exact put_self
      · exact put_of_shown hp hf hc hw hc' hw' hx (h i c' (hi.resolve_right hx) hc' hw')

theorem foldl_paint (hf : f.isValid = true) (xs : List Nat) (hp : row.IsPaired)
    (h : row.ShowsOn caps f y columns) :
    (xs.foldl (ScreenRow.paint caps f y) row).IsPaired ∧
      (xs.foldl (ScreenRow.paint caps f y) row).ShowsOn caps f y fun i => columns i ∨ i ∈ xs := by
  induction xs generalizing row columns with
  | nil => simpa using ⟨hp, h⟩
  | cons x xs ih =>
    have hrest := ih (hp.paint hf x) (h.paint hp hf x)
    refine ⟨hrest.1, ?_⟩
    intro i c hi
    apply hrest.2 i c
    rcases hi with hi | hi
    · exact Or.inl (Or.inl hi)
    · rcases List.mem_cons.mp hi with rfl | hi
      · exact Or.inl (Or.inr rfl)
      · exact Or.inr hi

/-- Writing the cells that are not shown yet, and any others, shows the row. -/
theorem shows_foldl_paint (hf : f.isValid = true) {xs : List Nat} (hp : row.IsPaired)
    (h : row.ShowsOn caps f y fun i => i ∉ xs) :
    (xs.foldl (ScreenRow.paint caps f y) row).Shows caps f y := by
  obtain ⟨hpaired, hshown⟩ := foldl_paint hf xs hp h
  refine ⟨hpaired, ?_⟩
  intro i c _
  exact hshown i c (Decidable.em (i ∈ xs)).symm

end Paint

end ScreenRow

namespace Screen

/-- Write a cell of a frame. -/
def paint (caps : Capabilities) (f : Frame) (y : Nat) (screen : Screen) (x : Nat) : Screen :=
  fun j => if j = y then (screen j).paint caps f y x else screen j

/-- Every row shows its row of the frame. -/
def Shows (caps : Capabilities) (f : Frame) (screen : Screen) : Prop :=
  ∀ y < f.height, (screen y).Shows caps f y

theorem foldl_paint (caps : Capabilities) (f : Frame) (y : Nat) (xs : List Nat) (screen : Screen)
    (j : Nat) :
    xs.foldl (paint caps f y) screen j =
      if j = y then xs.foldl (ScreenRow.paint caps f y) (screen j) else screen j := by
  induction xs generalizing screen with
  | nil => simp
  | cons x xs ih =>
    rw [List.foldl_cons, ih]
    by_cases hj : j = y <;> simp [paint, hj]

end Screen

end CellCanvas
