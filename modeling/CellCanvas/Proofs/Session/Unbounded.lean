import CellCanvas.Proofs.Session.Growth

/-!
# Drafts without a budget

What a session drafts for a frame when nothing is refused. The drafts that are built under a budget
are these or none: a budget is checked while a draft grows, drafts never shrink, and a check fails
only when the finished draft would not fit either.
-/

namespace CellCanvas

namespace Comparison

variable {p f : Frame} {y : Nat}

theorem runEnd_le (c : Comparison) (y x left : Nat) : c.runEnd y x left ≤ x + left := by
  induction left generalizing x with
  | zero => exact Nat.le_refl x
  | succ left ih =>
    rw [runEnd]
    split_ifs
    · have := ih (x + 1)
      omega
    · omega

theorem widen_lt (f : Frame) (y first : Nat) {last : Nat} (h : last < f.width) :
    (widen f y first last).2 < f.width := by
  unfold widen
  dsimp only
  split_ifs with hwide
  · exact of_decide_eq_true (Bool.and_eq_true_iff.mp hwide).2
  · exact h

/-- Each column starts one span at most. -/
theorem length_columnsOf_spansFrom (c : Comparison) (y : Nat) {x left : Nat} (resume : Nat)
    (h : x + left ≤ c.next.width) :
    (columnsOf (c.spansFrom y x resume left)).length ≤ c.next.width * left := by
  induction left generalizing x resume with
  | zero => exact Nat.zero_le _
  | succ left ih =>
    rw [spansFrom, Nat.mul_succ]
    split_ifs
    · have := ih resume (x := x + 1) (by omega)
      omega
    · have hstop := c.runEnd_le y (x + 1) left
      have hstart := c.le_runEnd y (x + 1) left
      have hlast := widen_lt c.next y x
        (show c.runEnd y (x + 1) left - 1 < c.next.width by omega)
      rw [columnsOf_cons, List.length_append, List.length_range']
      have := ih (max (c.runEnd y (x + 1) left)
        ((widen c.next y x (c.runEnd y (x + 1) left - 1)).2 + 1)) (x := x + 1) (by omega)
      omega

/-- A row that is not the same has a cell that is not. -/
theorem exists_of_sameRow_eq_false (hw : p.width = f.width) (hh : p.height = f.height)
    (hy : y < f.height) (h : (of p f).sameRow y y = false) :
    ∃ x old new, p.cell? x y = some old ∧ f.cell? x y = some new ∧
      (of p f).sameCell old new = false := by
  by_contra hnone
  have hall (x left : Nat) (hx : x + left ≤ f.width) : (of p f).sameCells y y x left = true := by
    induction left generalizing x with
    | zero => rfl
    | succ left ih =>
      obtain ⟨new, hnew⟩ := Frame.exists_cell? (show x < f.width by omega) hy
      obtain ⟨old, hold⟩ := Frame.exists_cell? (show x < p.width by omega)
        (show y < p.height by omega)
      have hsame : (of p f).sameCell old new = true := by
        by_contra hdiffers
        exact hnone ⟨x, old, new, hold, hnew, by simpa using hdiffers⟩
      have hprevious : (of p f).previous.cell? x y = some old := hold
      have hnext : (of p f).next.cell? x y = some new := hnew
      simp only [sameCells, hprevious, hnext, hsame, Bool.true_and]
      exact ih (x + 1) (by omega)
  have hwidth : (of p f).next.width = (of p f).previous.width := hw.symm
  have hheight : y < (of p f).previous.height := hh ▸ hy
  have hrow := hall 0 f.width (by omega)
  simp only [sameRow, Bool.and_eq_false_iff, decide_eq_false_iff_not] at h
  rcases h with ((h | h) | h) | h
  · exact h hy
  · exact h hheight
  · exact h hwidth
  · change (of p f).sameCells y y 0 f.width = false at h
    rw [hrow] at h
    cases h

/-- The spans of a row of a valid frame that is not the same contain a lead: the lead of a
continuation that differs has to be written. -/
theorem exists_lead_of_sameRow_eq_false (hf : f.isValid = true) (hw : p.width = f.width)
    (hh : p.height = f.height) (hy : y < f.height) (h : (of p f).sameRow y y = false) :
    ∃ x ∈ columnsOf ((of p f).spans y), ∃ c, f.cell? x y = some c ∧ c.width ≠ 0 := by
  obtain ⟨x, old, new, hold, hnew, hdiffers⟩ := exists_of_sameRow_eq_false hw hh hy h
  have hprevious : (of p f).previous.cell? x y = some old := hold
  have hnext : (of p f).next.cell? x y = some new := hnew
  by_cases hlead : new.width = 0
  · obtain ⟨-, w, lead, rfl, hcell, hwide⟩ := (Frame.isPaired_cellRow hf y).lead hnew hlead
    change f.cell? w y = some lead at hcell
    obtain ⟨before, hbefore⟩ := Frame.exists_cell?
      (hw ▸ (Frame.lt_of_cell? hcell).1 : w < p.width) (hh ▸ hy)
    refine ⟨w, mem_columnsOf_spans (Frame.lt_of_cell? hcell).1 ?_, lead, hcell, by omega⟩
    have hprevious' : (of p f).previous.cell? w y = some before := hbefore
    have hnext' : (of p f).next.cell? w y = some lead := hcell
    have hcontinuation : new.isContinuation = true := by simpa [Cell.isContinuation] using hlead
    simp only [isDirty, hprevious', hnext', hprevious, hnext, hcontinuation, hdiffers,
      Bool.or_true, Bool.not_false, Bool.and_true]
  · refine ⟨x, mem_columnsOf_spans (Frame.lt_of_cell? hnew).1 ?_, new, hnew, hlead⟩
    simp only [isDirty, hprevious, hnext, hdiffers, Bool.not_false, Bool.true_or]

end Comparison

/-- A shift leaves as many rows blank as it shifts by. -/
theorem ScrollPlan.IsSound.length_exposedRows {rows : Nat} {sameRow : Nat → Nat → Bool}
    {plan : ScrollPlan} (h : plan.IsSound rows sameRow) : plan.exposedRows.length = plan.lines := by
  have hlines := h.lines_le
  have hpos := h.lines_pos
  simp only [exposedRows, exposed, List.length_range']
  split_ifs
  · dsimp only
    omega
  · dsimp only
    omega

namespace Draft

/-- A full redraw. -/
def redrawn (caps : Capabilities) (f : Frame) (d : Draft) : Draft :=
  (List.range f.height).foldl (Session.wholeRow caps f) d.wiped

/-- A shift, with the rows that it leaves blank. -/
def shifted (caps : Capabilities) (f : Frame) (plan : ScrollPlan) (d : Draft) : Draft :=
  plan.exposedRows.foldl (Session.wholeRow caps f)
    (Draft.scrolled plan { d with stats := { d.stats with scrollHit := true } })

/-- The spans of some rows. -/
def rewritten (caps : Capabilities) (c : Comparison) (rows : List Nat) (d : Draft) : Draft :=
  rows.foldl (fun d y => d.writeRow caps c.next y (c.spans y)) d

/-- A scroll is attempted. -/
def attempted (d : Draft) : Draft := { d with stats := { d.stats with scrollAttempted := true } }

/-- An update of which some rows differ. -/
def updated (caps : Capabilities) (scroll : Bool) (c : Comparison) (d : Draft) : Draft :=
  if scroll && caps.scrollRegion then
    match Session.scrollPlan? c (Session.dirtyRows c).length with
    | some plan => (d.attempted.shifted caps c.next plan).rewritten caps c
        ((Session.dirtyRows c).filter fun y => !plan.covers y)
    | none => d.attempted.rewritten caps c (Session.dirtyRows c)
  else d.rewritten caps c (Session.dirtyRows c)

variable {kind : SgrStyle → Prop} {caps : Capabilities} {f : Frame} {n : Nat} {d start : Draft}
variable {budget : Nat} {α : Type*} {g : Draft → α → Draft} {as : List α}

namespace Grows

/-- The most commands of a row. -/
def rowCommands : Nat := 5 * (sideBound * sideBound)

theorem wholeRows (h : d.Grows kind caps f n start) (hkind : ∀ s, kind (caps.resolve s))
    (rows : List Nat) :
    (rows.foldl (Session.wholeRow caps f) d).Grows kind caps f (n + rowCommands * rows.length)
      start := by
  apply h.foldl
  intro d n y _ hd
  apply (hd.wholeRow hkind y).mono
  simp only [rowCommands, sideBound]
  omega

theorem redrawn (h : d.Grows kind caps f n start) (hkind : ∀ s, kind (caps.resolve s)) :
    (d.redrawn caps f).Grows kind caps f (n + 2 + rowCommands * f.height) start := by
  have hrows := h.wiped.wholeRows hkind (List.range f.height)
  rwa [List.length_range] at hrows

theorem attempted (h : d.Grows kind caps f n start) : d.attempted.Grows kind caps f n start :=
  h.withStats _

theorem shifted (h : d.Grows kind caps f n start) (hkind : ∀ s, kind (caps.resolve s))
    (hcaps : caps.scrollRegion = true) {plan : ScrollPlan} {sameRow : Nat → Nat → Bool}
    (hplan : plan.IsSound f.height sameRow) :
    (d.shifted caps f plan).Grows kind caps f (n + 3 + rowCommands * plan.exposedRows.length)
      start :=
  ((h.withStats _).scrolled hcaps hplan).wholeRows hkind plan.exposedRows

theorem rewritten {c : Comparison} (h : d.Grows kind caps c.next n start)
    (hkind : ∀ s, kind (caps.resolve s)) (rows : List Nat) :
    (d.rewritten caps c rows).Grows kind caps c.next (n + rowCommands * rows.length) start := by
  apply h.foldl
  intro d n y _ hd
  have hlength := c.length_columnsOf_spansFrom y (x := 0) 0 (Nat.le_of_eq (Nat.zero_add _))
  have hwidth := c.next.width_lt.le
  have hsquare := Nat.mul_le_mul hwidth hwidth
  have hbound := Nat.mul_le_mul_left 5 (hlength.trans hsquare)
  exact (hd.writeRow hkind y (c.spans y)).mono (Nat.add_le_add_left hbound n)

theorem updated {c : Comparison} (h : d.Grows kind caps c.next n start)
    (hkind : ∀ s, kind (caps.resolve s)) (scroll : Bool) :
    (d.updated caps scroll c).Grows kind caps c.next (n + 3 + rowCommands * (2 * sideBound))
      start := by
  have hheight := c.next.height_lt
  have hdirty : (Session.dirtyRows c).length ≤ c.next.height := by
    have := List.length_filter_le (fun y => !c.sameRow y y) (List.range c.next.height)
    rwa [List.length_range] at this
  have hrows (d : Draft) (hd : d.Grows kind caps c.next n start) :
      (d.rewritten caps c (Session.dirtyRows c)).Grows kind caps c.next
        (n + 3 + rowCommands * (2 * sideBound)) start := by
    apply (hd.rewritten hkind _).mono
    have := Nat.mul_le_mul_left rowCommands (show (Session.dirtyRows c).length ≤ 2 * sideBound by
      omega)
    omega
  unfold Draft.updated
  by_cases hscroll : (scroll && caps.scrollRegion) = true
  · rw [if_pos hscroll]
    cases hplan : Session.scrollPlan? c (Session.dirtyRows c).length with
    | none => exact hrows d.attempted h.attempted
    | some plan =>
      have hsound := ScrollPlan.isSound_of_detect hplan
      have hshifted := h.attempted.shifted hkind (Bool.and_eq_true_iff.mp hscroll).2 hsound
      apply (hshifted.rewritten hkind _).mono
      have hexposed := hsound.length_exposedRows
      have hlines := hsound.lines_le
      have hbottom := hsound.bottom_lt
      have hfilter := List.length_filter_le (fun y => !plan.covers y) (Session.dirtyRows c)
      rw [Nat.add_assoc, ← Nat.mul_add]
      apply Nat.add_le_add_left
      apply Nat.mul_le_mul_left
      omega
  · rw [if_neg hscroll]
    exact hrows d h

end Grows

/-- A loop never shrinks a draft when its body does not. -/
theorem suits_foldl (as : List α)
    (hg : ∀ d a, d.state.Suits kind caps → d.size ≤ (g d a).size ∧ (g d a).state.Suits kind caps)
    (hd : d.state.Suits kind caps) :
    d.size ≤ (as.foldl g d).size ∧ (as.foldl g d).state.Suits kind caps := by
  induction as generalizing d with
  | nil => exact ⟨Nat.le_refl _, hd⟩
  | cons a as ih =>
    obtain ⟨hsize, hsuits⟩ := hg d a hd
    obtain ⟨hsize', hsuits'⟩ := ih hsuits
    exact ⟨hsize.trans hsize', hsuits'⟩

/-- One step that lengthens the draft is enough. -/
theorem size_lt_foldl
    (hg : ∀ d a, d.state.Suits kind caps → d.size ≤ (g d a).size ∧ (g d a).state.Suits kind caps)
    {a : α} (ha : a ∈ as) (hlt : ∀ d, d.state.Suits kind caps → d.size < (g d a).size)
    (hd : d.state.Suits kind caps) : d.size < (as.foldl g d).size := by
  induction as generalizing d with
  | nil => cases ha
  | cons b as ih =>
    obtain ⟨hsize, hsuits⟩ := hg d b hd
    rcases List.mem_cons.mp ha with rfl | ha
    · exact (hlt d hd).trans_le (suits_foldl as hg hsuits).1
    · exact hsize.trans_lt (ih ha hsuits)

/-- A loop that checks the budget in each round is a loop with one check at its end. -/
theorem foldlM_within_eq
    (hg : ∀ d a, d.state.Suits kind caps → d.size ≤ (g d a).size ∧ (g d a).state.Suits kind caps)
    (hd : d.state.Suits kind caps) :
    (d.within budget >>= fun d => as.foldlM (fun d a => (g d a).within budget) d) =
      (as.foldl g d).within budget := by
  induction as generalizing d with
  | nil =>
    rw [List.foldl_nil, within]
    split_ifs
    · rfl
    · rfl
  | cons a as ih =>
    obtain ⟨hsize, hsuits⟩ := hg d a hd
    have hrest := ih hsuits
    by_cases hfits : budget < d.size
    · have hlarge := (suits_foldl (a :: as) hg hd).1
      rw [within, if_pos hfits, within, if_pos (hfits.trans_le hlarge)]
      rfl
    · rw [within, if_neg hfits]
      exact hrest

theorem suits_writeRow (hkind : ∀ s, kind (caps.resolve s)) (h : d.state.Suits kind caps) (y : Nat)
    (spans : List (Nat × Nat)) :
    d.size ≤ (d.writeRow caps f y spans).size ∧
      (d.writeRow caps f y spans).state.Suits kind caps :=
  have hgrows := (Grows.refl h (f := f)).writeRow hkind y spans
  ⟨hgrows.size_le, hgrows.suits⟩

/-- A lead has at least one byte. -/
theorem size_lt_writeCell (hkind : ∀ s, kind (caps.resolve s)) {x y : Nat} {c : Cell}
    (hc : f.cell? x y = some c) (hw : c.width ≠ 0) (h : d.state.Suits kind caps) :
    d.size < (writeCell caps f y d x).size := by
  obtain ⟨hx, hy⟩ := Frame.lt_of_cell? hc
  have haim := ((Grows.refl h (f := f)).aim hkind (hx.trans f.width_lt) (hy.trans f.height_lt)
    c.style).size_le
  have hglyph : c.glyph.utf8ByteSize ≠ 0 := by
    rw [ne_eq, String.utf8ByteSize_eq_zero_iff]
    exact fun hempty => hw (c.width_eq_zero hempty)
  rw [writeCell_of_some hc hw]
  change d.size < (d.aim caps f x y c.style).size + Command.size (.text c.glyph)
  simp only [Command.size, Command.pieces, List.map_cons, List.map_nil, total_cons, total_nil]
  omega

/-- Spans with a lead have at least one byte. -/
theorem size_lt_writeRow (hkind : ∀ s, kind (caps.resolve s)) {x y : Nat} {c : Cell}
    {spans : List (Nat × Nat)} (hx : x ∈ columnsOf spans) (hc : f.cell? x y = some c)
    (hw : c.width ≠ 0) (h : d.state.Suits kind caps) :
    d.size < (d.writeRow caps f y spans).size := by
  have hcell (d : Draft) (x : Nat) (hd : d.state.Suits kind caps) :
      d.size ≤ (writeCell caps f y d x).size ∧ (writeCell caps f y d x).state.Suits kind caps :=
    have hgrows := (Grows.refl hd (f := f)).writeCell hkind x y
    ⟨hgrows.size_le, hgrows.suits⟩
  have hspan (d : Draft) (span : Nat × Nat) (hd : d.state.Suits kind caps) :
      d.size ≤ (d.writeSpan caps f y span).size ∧
        (d.writeSpan caps f y span).state.Suits kind caps :=
    have hgrows := (Grows.refl hd (f := f)).writeSpan hkind y span
    ⟨hgrows.size_le, hgrows.suits⟩
  obtain ⟨span, hmem, hin⟩ := List.mem_flatMap.mp hx
  have hspans : d.size < (spans.foldl (fun d span => d.writeSpan caps f y span) d).size := by
    apply size_lt_foldl hspan hmem _ h
    intro d hd
    exact size_lt_foldl (g := writeCell caps f y) hcell hin
      (fun d hd => size_lt_writeCell hkind hc hw hd) hd
  unfold writeRow
  split_ifs
  · exact hspans
  · exact hspans

/-- Updating rows under a budget. -/
theorem updateRows_eq (hkind : ∀ s, kind (caps.resolve s)) {c : Comparison} {rows : List Nat}
    (hd : d.state.Suits kind caps) :
    (d.within budget >>= Session.updateRows caps budget c rows) =
      (d.rewritten caps c rows).within budget :=
  foldlM_within_eq (fun _ y hd => suits_writeRow hkind hd y (c.spans y)) hd

/-- The first check of a loop comes after its first round. -/
theorem foldlM_within_eq_of_ne_nil
    (hg : ∀ d a, d.state.Suits kind caps → d.size ≤ (g d a).size ∧ (g d a).state.Suits kind caps)
    (hd : d.state.Suits kind caps) (has : as ≠ []) :
    as.foldlM (fun d a => (g d a).within budget) d = (as.foldl g d).within budget := by
  obtain ⟨a, as, rfl⟩ := List.exists_cons_of_ne_nil has
  exact foldlM_within_eq hg (hg d a hd).2

theorem redraw_eq_within (hkind : ∀ s, kind (caps.resolve s)) (hh : f.height ≠ 0)
    (hd : d.state.Suits kind caps) :
    Session.redraw caps f budget d = (d.redrawn caps f).within budget := by
  have hwiped := (Grows.refl hd (f := f)).wiped.suits
  apply foldlM_within_eq_of_ne_nil (g := Session.wholeRow caps f) _ hwiped
  · simpa using hh
  · exact fun d y hd => suits_writeRow hkind hd y _

/-- An update that is not refused is the update without a budget. -/
theorem update_ok {scroll : Bool} {c : Comparison} {d' : Draft}
    (hdirty : Session.dirtyRows c ≠ []) (h : Session.update caps scroll budget c d = .ok d') :
    d' = d.updated caps scroll c := by
  change (if (Session.dirtyRows c).isEmpty then _ else _) = _ at h
  rw [if_neg (by simpa using hdirty)] at h
  unfold updated
  by_cases hscroll : (scroll && caps.scrollRegion) = true
  · rw [if_pos hscroll] at h ⊢
    change (match Session.scrollPlan? c (Session.dirtyRows c).length with
      | some _ => _
      | none => _) = _ at h
    cases hplan : Session.scrollPlan? c (Session.dirtyRows c).length with
    | none =>
      rw [hplan] at h
      exact foldlM_within h
    | some plan =>
      rw [hplan] at h
      obtain ⟨between, hshift, hrows⟩ := exists_of_bind_eq_ok h
      obtain rfl := Session.shift_eq hshift
      exact foldlM_within hrows
  · rw [if_neg hscroll] at h ⊢
    exact foldlM_within h

theorem update_eq_within (hkind : ∀ s, kind (caps.resolve s)) {scroll : Bool} {c : Comparison}
    (hdirty : Session.dirtyRows c ≠ []) (hd : d.state.Suits kind caps) :
    Session.update caps scroll budget c d = (d.updated caps scroll c).within budget := by
  have hrows (d : Draft) (hd : d.state.Suits kind caps) :
      Session.updateRows caps budget c (Session.dirtyRows c) d =
        (d.rewritten caps c (Session.dirtyRows c)).within budget :=
    foldlM_within_eq_of_ne_nil (fun _ y hd => suits_writeRow hkind hd y (c.spans y)) hd hdirty
  change (if (Session.dirtyRows c).isEmpty then _ else _) = _
  rw [if_neg (by simpa using hdirty), updated]
  by_cases hscroll : (scroll && caps.scrollRegion) = true
  · rw [if_pos hscroll, if_pos hscroll]
    dsimp only
    change (match Session.scrollPlan? c (Session.dirtyRows c).length with
      | some _ => _
      | none => _) = _
    cases hplan : Session.scrollPlan? c (Session.dirtyRows c).length with
    | none => exact hrows d.attempted hd
    | some plan =>
      have hsound := ScrollPlan.isSound_of_detect hplan
      have hshifted := (Grows.refl hd (f := c.next)).attempted.shifted hkind
        (Bool.and_eq_true_iff.mp hscroll).2 hsound
      exact updateRows_eq hkind hshifted.suits
  · rw [if_neg hscroll, if_neg hscroll]
    exact hrows d hd

/-- A shift has at least one byte. -/
theorem size_lt_shifted (hkind : ∀ s, kind (caps.resolve s)) (hcaps : caps.scrollRegion = true)
    {plan : ScrollPlan} {sameRow : Nat → Nat → Bool} (hplan : plan.IsSound f.height sameRow)
    (hd : d.state.Suits kind caps) : d.size < (d.shifted caps f plan).size := by
  have hhit := (Grows.refl hd (f := f)).withStats { d.stats with scrollHit := true }
  have hscrolled := (hhit.scrolled hcaps hplan).suits
  have hreset : 0 < Command.resetScrollRegion.size := by decide
  have hregion : d.size <
      (Draft.scrolled plan { d with stats := { d.stats with scrollHit := true } }).size :=
    Nat.lt_of_le_of_lt (Nat.le_trans (Nat.le_add_right _ _) (Nat.le_add_right _ _))
      (Nat.lt_add_of_pos_right hreset)
  exact hregion.trans_le (suits_foldl (g := Session.wholeRow caps f) plan.exposedRows
    (fun d y hd => suits_writeRow hkind hd y _) hscrolled).1

/-- An update of which some rows differ has at least one byte. -/
theorem size_lt_updated (hkind : ∀ s, kind (caps.resolve s)) (hf : f.isValid = true) {p : Frame}
    (hw : p.width = f.width) (hh : p.height = f.height) {scroll : Bool}
    (hdirty : Session.dirtyRows (.of p f) ≠ []) (hd : d.state.Suits kind caps) :
    d.size < (d.updated caps scroll (.of p f)).size := by
  have hstep (d : Draft) (y : Nat) (hd : d.state.Suits kind caps) :=
    suits_writeRow (f := f) hkind hd y ((Comparison.of p f).spans y)
  have hrows (d : Draft) (hd : d.state.Suits kind caps) :
      d.size < (d.rewritten caps (.of p f) (Session.dirtyRows (.of p f))).size := by
    obtain ⟨y, hy⟩ := List.exists_mem_of_ne_nil _ hdirty
    obtain ⟨hlt, hdiffers⟩ := List.mem_filter.mp hy
    obtain ⟨x, hx, c, hc, hlead⟩ := Comparison.exists_lead_of_sameRow_eq_false hf hw hh
      (List.mem_range.mp hlt) (by simpa using hdiffers)
    exact size_lt_foldl hstep hy (fun d hd => size_lt_writeRow hkind hx hc hlead hd) hd
  unfold updated
  by_cases hscroll : (scroll && caps.scrollRegion) = true
  · rw [if_pos hscroll]
    have hcaps := (Bool.and_eq_true_iff.mp hscroll).2
    cases hplan : Session.scrollPlan? (.of p f) (Session.dirtyRows (.of p f)).length with
    | none => exact hrows d.attempted hd
    | some plan =>
      have hsound := ScrollPlan.isSound_of_detect hplan
      have hshifted := ((Grows.refl hd (f := f)).attempted.shifted hkind hcaps hsound).suits
      have hshift := size_lt_shifted (d := d.attempted) hkind hcaps hsound hd
      exact hshift.trans_le (suits_foldl _ hstep hshifted).1
  · rw [if_neg hscroll]
    exact hrows d hd

theorem size_lt_redrawn (hkind : ∀ s, kind (caps.resolve s)) (hd : d.state.Suits kind caps) :
    d.size < (d.redrawn caps f).size :=
  (Session.size_lt_wiped d).trans_le (suits_foldl (g := Session.wholeRow caps f) _
    (fun _ y hd => suits_writeRow hkind hd y _) (Grows.refl hd (f := f)).wiped.suits).1

end Draft

namespace Session

/-- The content of a frame when nothing is refused. -/
def body (s : Session) (f : Frame) (caps : Capabilities) : Draft :=
  match s.previous with
  | some p =>
    if p.width = f.width ∧ p.height = f.height then
      if dirtyRows (.of p f) = [] then opened caps s.state
      else (opened caps s.state).updated caps s.options.scrollOptimization (.of p f)
    else (opened caps s.state).redrawn caps f
  | none => (opened caps s.state).redrawn caps f

variable {kind : SgrStyle → Prop} {caps : Capabilities} {f : Frame} {s : Session}

theorem suits_opened (hs : s.state.Suits kind caps) :
    (opened caps s.state).state.Suits kind caps := by
  rwa [state_opened]

/-- Either nothing differs, or there is content, and it is refused if it does not fit. -/
theorem content_cases (hkind : ∀ s, kind (caps.resolve s)) (hs : s.state.Suits kind caps)
    (hh : f.height ≠ 0) :
    (s.content f caps = .ok (s.body f caps) ∧ s.body f caps = opened caps s.state) ∨
      s.content f caps = (s.body f caps).within s.options.maxFrameBytes ∧
        (f.isValid = true → (opened caps s.state).size < (s.body f caps).size) := by
  have hopened := suits_opened hs
  have hredraw : redraw caps f s.options.maxFrameBytes (opened caps s.state) =
      ((opened caps s.state).redrawn caps f).within s.options.maxFrameBytes ∧
        (f.isValid = true →
          (opened caps s.state).size < ((opened caps s.state).redrawn caps f).size) :=
    ⟨Draft.redraw_eq_within hkind hh hopened, fun _ => Draft.size_lt_redrawn hkind hopened⟩
  unfold content body
  cases s.previous with
  | none => exact .inr hredraw
  | some p =>
    dsimp only
    by_cases hsize : p.width = f.width ∧ p.height = f.height
    · rw [if_pos hsize, if_pos hsize]
      by_cases hdirty : dirtyRows (.of p f) = []
      · rw [if_pos hdirty]
        refine .inl ⟨?_, rfl⟩
        change (if (dirtyRows (.of p f)).isEmpty then _ else _) = _
        rw [hdirty]
        rfl
      · rw [if_neg hdirty]
        exact .inr ⟨Draft.update_eq_within hkind hdirty hopened,
          fun hf => Draft.size_lt_updated hkind hf hsize.1 hsize.2 hdirty hopened⟩
    · rw [if_neg hsize, if_neg hsize]
      exact .inr hredraw

/-- Content that is not refused is the content without a budget. -/
theorem content_ok {d : Draft} (h : s.content f caps = .ok d) : d = s.body f caps := by
  have hredraw (h : redraw caps f s.options.maxFrameBytes (opened caps s.state) = .ok d) :
      d = (opened caps s.state).redrawn caps f := Draft.redraw_eq h
  unfold content at h
  unfold body
  cases hp : s.previous with
  | none =>
    rw [hp] at h
    exact hredraw h
  | some p =>
    rw [hp] at h
    dsimp only at h ⊢
    by_cases hsize : p.width = f.width ∧ p.height = f.height
    · rw [if_pos hsize] at h ⊢
      by_cases hdirty : dirtyRows (.of p f) = []
      · rw [if_pos hdirty]
        change (if (dirtyRows (.of p f)).isEmpty then _ else _) = _ at h
        rw [hdirty] at h
        exact (Except.ok.inj h).symm
      · rw [if_neg hdirty]
        exact Draft.update_ok hdirty h
    · rw [if_neg hsize] at h ⊢
      exact hredraw h

/-- The most commands of a frame between its start and the cursor request. -/
def bodyCommands : Nat := 3 + Draft.Grows.rowCommands * (2 * sideBound)

theorem grows_body (hkind : ∀ s, kind (caps.resolve s)) (hs : s.state.Suits kind caps) :
    (s.body f caps).Grows kind caps f bodyCommands (opened caps s.state) := by
  have hopened := Draft.Grows.refl (suits_opened hs) (f := f)
  have hredrawn : ((opened caps s.state).redrawn caps f).Grows kind caps f bodyCommands
      (opened caps s.state) := by
    apply (hopened.redrawn hkind).mono
    have hheight := f.height_lt
    have := Nat.mul_le_mul_left Draft.Grows.rowCommands (show f.height ≤ 2 * sideBound by omega)
    unfold bodyCommands
    omega
  unfold body
  cases s.previous with
  | none => exact hredrawn
  | some p =>
    dsimp only
    split_ifs
    · exact hopened.mono (Nat.zero_le _)
    · apply (Draft.Grows.updated (c := .of p f) hopened hkind s.options.scrollOptimization).mono
      unfold bodyCommands
      omega
    · exact hredrawn

/-- The draft of a frame when nothing is refused. -/
def drafted (s : Session) (f : Frame) (caps : Capabilities) (cursor : Option CursorRequest) :
    Draft :=
  if f.width = 0 ∨ f.height = 0 then .start s.state
  else
    let d := closed caps (opened caps s.state) (settled caps f cursor (s.body f caps))
    { d with stats := { d.stats with bytes := d.size } }

/-- A draft that is not refused is the one without a budget. -/
theorem draft_ok {cursor : Option CursorRequest} {d : Draft}
    (h : s.draft f caps cursor = .ok d) : d = s.drafted f caps cursor := by
  unfold drafted
  by_cases hempty : f.width = 0 ∨ f.height = 0
  · rw [draft_of_empty hempty] at h
    rw [if_pos hempty]
    exact (Except.ok.inj h).symm
  · rw [draft_eq hempty] at h
    rw [if_neg hempty]
    cases hbody : s.content f caps with
    | error e =>
      rw [hbody] at h
      cases h
    | ok body =>
      rw [hbody] at h
      obtain rfl := content_ok hbody
      exact (Except.ok.inj h).symm

end Session

end CellCanvas
