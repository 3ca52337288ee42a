import CellCanvas.Proofs.Session.Tracking

/-!
# What drafts do to a terminal

`Draft.Tracks` says that the commands of a draft are safe to send and that its terminal state holds
after them. Every operation on drafts keeps it. The operations that only prepare for text leave the
screen alone.
-/

namespace CellCanvas

open Wire

namespace Draft

/-- The terminal after the commands of a draft. -/
def reached (layout : Layout) (t : Emulator) (d : Draft) : Emulator :=
  t.executeAll layout d.commands.toList

/-- A draft adds commands to an earlier one. All of them are safe, and what it knows holds after
them. -/
structure Tracks (f : Frame) (t : Emulator) (d start : Draft) : Prop where
  added : ∃ cs, d.commands.toList = start.commands.toList ++ cs ∧
    d.size = start.size + total (cs.map Command.size)
  safe : ∀ c ∈ d.commands.toList, c.IsSafe
  knows : d.state.Knows f (d.reached f.layout t)

variable {f : Frame} {t : Emulator} {d start : Draft} {caps : Capabilities} {x y : Nat} {c : Cell}

theorem reached_emit (layout : Layout) (t : Emulator) (d : Draft) (c : Command) :
    (d.emit c).reached layout t = (d.reached layout t).execute layout c := by
  simp [reached, emit, Emulator.executeAll]

theorem size_reached (layout : Layout) (t : Emulator) (d : Draft) :
    (d.reached layout t).width = t.width ∧ (d.reached layout t).height = t.height :=
  have hsame := Emulator.IsSameDevice.executeAll layout t d.commands.toList
  ⟨hsame.width, hsame.height⟩

theorem fits_reached {layout : Layout} :
    (d.reached layout t).Fits f ↔ t.Fits f := by
  have h := size_reached layout t d
  rw [Emulator.Fits, h.1, h.2, Emulator.Fits]

theorem safe_emit (h : ∀ c ∈ d.commands.toList, c.IsSafe) {c : Command} (hc : c.IsSafe) :
    ∀ c' ∈ (d.emit c).commands.toList, c'.IsSafe := by
  intro c' hc'
  simp only [emit, Array.toList_push, List.mem_append, List.mem_singleton] at hc'
  rcases hc' with hc' | rfl
  · exact h c' hc'
  · exact hc

/-- Another link is opened after the one that is open is closed. -/
theorem openLink_eq (d : Draft) (uri : Option String) :
    d.openLink uri =
      if d.state.link = uri then d
      else match uri with
        | none => d.closeLink
        | some u =>
          { d.closeLink.emit (.openLink u) with
            state := { d.closeLink.state with link := uri } } := by
  unfold Draft.openLink Draft.closeLink
  by_cases hopen : d.state.link = uri
  · rw [if_pos hopen, if_pos hopen]
  · rw [if_neg hopen, if_neg hopen]
    cases uri with
    | none =>
      have hsome : d.state.link.isSome = true := Option.isSome_iff_ne_none.mpr hopen
      simp only [hsome, if_true]
    | some u => cases d.state.link <;> rfl

namespace Tracks

/-- One more command, with the terminal state after it. -/
theorem emit {c : Command} (h : d.Tracks f t start) (hc : c.IsSafe) {st : TermState}
    (hst : st.Knows f ((d.reached f.layout t).execute f.layout c)) :
    { d.emit c with state := st }.Tracks f t start := by
  refine ⟨?_, safe_emit h.safe hc, ?_⟩
  · obtain ⟨cs, hcs, hsize⟩ := h.added
    refine ⟨cs ++ [c], ?_, ?_⟩
    · simp [Draft.emit, hcs]
    · simp only [Draft.emit, hsize, List.map_append, List.map_singleton, total_append, total_cons,
        total_nil]
      omega
  · have hreached := reached_emit f.layout t d c
    rw [← hreached] at hst
    exact hst

theorem moveTo (h : d.Tracks f t start) (hxy : t.Fits f → x ≤ f.width ∧ y < f.height) :
    (d.moveTo x y).Tracks f t start := by
  unfold Draft.moveTo
  split_ifs
  · exact h
  · exact h.emit (c := .cursorTo x y) trivial
      (h.knows.moved fun hfit => hxy (fits_reached.mp hfit))

theorem establish (h : d.Tracks f t start) {s : SgrStyle} (hs : s.attributes.IsNamed) :
    { d.emit (.establish s) with state := { d.state with style := some s } }.Tracks f t start := by
  apply h.emit (c := .establish s) trivial
  rw [Command.establish, Emulator.execute_restyle, Rendition.applyAll_parameters]
  exact h.knows.rendered hs

theorem select (h : d.Tracks f t start) {s : SgrStyle} (hs : s.attributes.IsNamed) :
    (d.select s).Tracks f t start := by
  unfold Draft.select
  cases hstyle : d.state.style with
  | none => exact h.establish hs
  | some current =>
    obtain ⟨-, hrendition⟩ := h.knows.style current hstyle
    dsimp only
    unfold Command.restyling
    by_cases heq : current = s
    · subst heq
      rw [if_pos rfl]
      refine ⟨h.added, h.safe, h.knows.link, ?_, h.knows.visible, h.knows.shape, h.knows.held,
        h.knows.cursor⟩
      intro s hs
      exact h.knows.style s (hstyle.trans hs)
    · rw [if_neg heq]
      by_cases hadds : current.onlyAdds s = true
      · rw [if_pos hadds]
        have hchanges := Rendition.changes_ne_nil hs hadds heq
        apply h.emit (c := .adjustStyle (current.changes s)) trivial
        rw [Emulator.execute_adjustStyle _ _ hchanges, hrendition, Rendition.applyAll_changes hadds]
        exact h.knows.rendered hs
      · rw [if_neg hadds]
        exact h.establish hs

theorem closeLink (h : d.Tracks f t start) : d.closeLink.Tracks f t start := by
  unfold Draft.closeLink
  split_ifs
  · apply h.emit (c := .closeLink) trivial
    rw [Emulator.execute_closeLink]
    exact h.knows.linked none
  · exact h

theorem openLink (h : d.Tracks f t start) {uri : Option String}
    (huri : ∀ u, uri = some u → u ≠ "" ∧ isSafeText u = true) :
    (d.openLink uri).Tracks f t start := by
  rw [openLink_eq]
  split_ifs
  · exact h
  · cases uri with
    | none => exact h.closeLink
    | some u =>
      obtain ⟨hne, hsafe⟩ := huri u rfl
      apply h.closeLink.emit (c := .openLink u) hsafe
      rw [Emulator.execute_openLink _ _ hne]
      exact h.closeLink.knows.linked (some u)

end Tracks

/-- Bring cursor, style and link to where a cell needs them. -/
def aim (caps : Capabilities) (f : Frame) (x y : Nat) (s : Style) (d : Draft) : Draft :=
  let d := (d.moveTo x y).select (caps.resolve s)
  if caps.hyperlinks then d.openLink (f.linkUri? s.link) else d

theorem writeCell_of_some (hc : f.cell? x y = some c) (hw : c.width ≠ 0) :
    writeCell caps f y d x =
      ((d.aim caps f x y c.style).emit (.text c.glyph)).trackCursor
        (some (min (x + c.width) lastColumn, y)) := by
  have hlead : c.isContinuation = false := by simpa [Cell.isContinuation] using hw
  simp only [writeCell, hc, hlead, aim, Bool.false_eq_true, if_false]

theorem writeCell_of_continuation (hc : f.cell? x y = some c) (hw : c.width = 0) :
    writeCell caps f y d x = d := by
  have hcont : c.isContinuation = true := by simpa [Cell.isContinuation] using hw
  simp only [writeCell, hc, hcont, if_true]

theorem state_moveTo (d : Draft) (x y : Nat) :
    (d.moveTo x y).state = { d.state with cursor := some (x, y) } := by
  unfold moveTo
  split_ifs with h
  · rw [← h]
  · rfl

theorem state_select (d : Draft) (s : SgrStyle) :
    (d.select s).state = { d.state with style := some s } := by
  unfold select emitAll Command.restyling
  cases d.state.style with
  | none => rfl
  | some current =>
    dsimp only
    split_ifs <;> rfl

theorem state_openLink (d : Draft) (uri : Option String) :
    (d.openLink uri).state = { d.state with link := uri } := by
  unfold openLink
  by_cases h : d.state.link = uri
  · rw [if_pos h, ← h]
  · rw [if_neg h]
    cases hlink : d.state.link <;> cases uri <;> simp [Draft.emit]

theorem state_aim (caps : Capabilities) (f : Frame) (x y : Nat) (s : Style) (d : Draft) :
    (d.aim caps f x y s).state =
      { d.state with
        cursor := some (x, y)
        style := some (caps.resolve s)
        link := if caps.hyperlinks then f.linkUri? s.link else d.state.link } := by
  unfold aim
  split_ifs
  · rw [state_openLink, state_select, state_moveTo]
  · rw [state_select, state_moveTo]

/-- Every link of a frame can be opened. -/
theorem safe_linkUri? {id : Nat} {uri : String} (h : f.linkUri? id = some uri) :
    uri ≠ "" ∧ isSafeText uri = true := by
  cases id with
  | zero => cases h
  | succ n =>
    obtain ⟨hn, rfl⟩ := Array.getElem?_eq_some_iff.mp h
    exact f.safe_links _ (Array.getElem_mem hn)

namespace Tracks

theorem aim (h : d.Tracks f t start) (hcaps : caps.attributes.IsNamed) {s : Style}
    (hxy : t.Fits f → x ≤ f.width ∧ y < f.height) : (d.aim caps f x y s).Tracks f t start := by
  have hselected := (h.moveTo hxy).select (s := caps.resolve s) (Attributes.isNamed_inter hcaps)
  unfold Draft.aim
  split_ifs
  · exact hselected.openLink fun _ => safe_linkUri?
  · exact hselected

/-- On a terminal of the frame's size the glyph of a cell lands in the cell. -/
theorem execute_glyph (h : d.Tracks f t start) (hf : f.isValid = true) (hc : f.cell? x y = some c)
    (hw : c.width ≠ 0) (hfit : t.Fits f) (hcursor : d.state.cursor = some (x, y)) :
    (d.reached f.layout t).execute f.layout (.text c.glyph) =
      (d.reached f.layout t).writeHere c.glyph c.width ∧
      (d.reached f.layout t).column = x ∧ (d.reached f.layout t).row = y ∧
      (d.reached f.layout t).held = [] := by
  have hfits : (d.reached f.layout t).Fits f := fits_reached.mpr hfit
  obtain ⟨⟨hrow, hplace⟩, -⟩ := h.knows.cursor hfits x y hcursor
  have hheld := h.knows.held hfits
  have hx := (Frame.lt_of_cell? hc).1
  have hroom := Frame.add_width_le hf hc
  have hwidth : (d.reached f.layout t).width = f.width := hfits.1
  obtain ⟨-, hcolumn, hwrap⟩ : x < (d.reached f.layout t).width ∧
      (d.reached f.layout t).column = x ∧ (d.reached f.layout t).wrapNext = false := by
    rcases hplace with hplace | ⟨hlast, -⟩
    · exact hplace
    · omega
  refine ⟨?_, hcolumn, hrow, hheld⟩
  have hlayout : f.layout (d.reached f.layout t).column (d.reached f.layout t).row =
      some ⟨c.glyph, c.width⟩ := by
    rw [hcolumn, hrow, Frame.layout, hc]
    rfl
  have hglyph : c.glyph.toList ≠ [] := by
    intro hempty
    exact hw (c.width_eq_zero (String.toList_eq_nil_iff.mp hempty))
  rw [Emulator.execute_text]
  refine (Emulator.receiveAll_cluster hlayout hglyph hheld).trans ?_
  rw [Emulator.write, if_neg]
  rw [hwrap, hcolumn, hwidth]
  simp only [Bool.false_eq_true, false_or]
  omega

theorem writeCell (h : d.Tracks f t start) (hf : f.isValid = true) (hcaps : caps.attributes.IsNamed)
    (x y : Nat) : (writeCell caps f y d x).Tracks f t start := by
  cases hc : f.cell? x y with
  | none => simpa [Draft.writeCell, hc] using h
  | some c =>
    by_cases hw : c.width = 0
    · rw [writeCell_of_continuation hc hw]
      exact h
    · obtain ⟨hx, hy⟩ := Frame.lt_of_cell? hc
      rw [writeCell_of_some hc hw]
      have haim := h.aim hcaps (s := c.style) (x := x) (y := y) fun _ => ⟨hx.le, hy⟩
      apply haim.emit (c := .text c.glyph) c.isSafe
      have hkept : (reached f.layout t (d.aim caps f x y c.style)).Keeps
          ((reached f.layout t (d.aim caps f x y c.style)).execute f.layout (.text c.glyph)) := by
        rw [Emulator.execute_text]
        exact Emulator.keeps_receiveAll _ _ _
      have hcursor : (d.aim caps f x y c.style).state.cursor = some (x, y) := by rw [state_aim]
      have hland (hfit : Emulator.Fits
          ((reached f.layout t (d.aim caps f x y c.style)).execute f.layout (.text c.glyph)) f) :=
        haim.execute_glyph hf hc hw
          (fits_reached.mp ⟨hkept.width.symm.trans hfit.1, hkept.height.symm.trans hfit.2⟩) hcursor
      apply haim.knows.passed hkept
      · intro hfit
        obtain ⟨hglyph, -, -, hheld⟩ := hland hfit
        rw [hglyph]
        exact hheld
      · intro hfit x' y' hxy
        obtain ⟨hx', rfl⟩ : min (x + c.width) lastColumn = x' ∧ y = y' := by simpa using hxy
        obtain ⟨hglyph, hcolumn, hrow, -⟩ := hland hfit
        have hroom := Frame.add_width_le hf hc
        have hbound := f.width_lt
        obtain ⟨hwidth, hheight⟩ := hfit
        rw [hkept.width] at hwidth
        rw [hkept.height] at hheight
        have hsum : x + c.width = x' := by
          simp only [lastColumn, sideBound] at hx' hbound
          omega
        rw [hglyph]
        simp only [Emulator.IsAt, Emulator.writeHere, hcolumn, hrow, hwidth, hheight]
        refine ⟨⟨trivial, ?_⟩, hy⟩
        simp only [decide_eq_false_iff_not]
        omega

theorem foldl {α : Type*} {g : Draft → α → Draft} (h : d.Tracks f t start)
    (hg : ∀ d a, Tracks f t d start → (g d a).Tracks f t start) (as : List α) :
    (as.foldl g d).Tracks f t start := by
  induction as generalizing d with
  | nil => exact h
  | cons a as ih => exact ih (hg d a h)

theorem writeSpan (h : d.Tracks f t start) (hf : f.isValid = true) (hcaps : caps.attributes.IsNamed)
    (y : Nat) (span : Nat × Nat) : (d.writeSpan caps f y span).Tracks f t start := by
  have := h.foldl (fun _ x hd => hd.writeCell hf hcaps x y)
    (List.range' span.1 (span.2 + 1 - span.1))
  exact ⟨this.added, this.safe, this.knows⟩

theorem writeRow (h : d.Tracks f t start) (hf : f.isValid = true) (hcaps : caps.attributes.IsNamed)
    (y : Nat) (spans : List (Nat × Nat)) : (d.writeRow caps f y spans).Tracks f t start := by
  have := h.foldl (fun _ span hd => hd.writeSpan hf hcaps y span) spans
  unfold Draft.writeRow
  split_ifs
  · exact this
  · exact ⟨this.added, this.safe, this.knows⟩

end Tracks

/-- Give the cursor the requested shape. -/
def reshape (caps : Capabilities) (r : CursorRequest) (d : Draft) : Draft :=
  if caps.cursorShape && d.state.cursorShape ≠ some r.shape then
    { d.emit (.shapeCursor r.shape) with
      state := { d.state with cursorShape := some r.shape } }
  else d

/-- Show or hide the cursor as requested. -/
def reveal (r : CursorRequest) (d : Draft) : Draft :=
  if d.state.cursorVisible ≠ some r.visible then
    { d.emit (if r.visible then .showCursor else .hideCursor) with
      state := { d.state with cursorVisible := some r.visible } }
  else d

/-- The column that a request asks for. -/
def askedColumn (f : Frame) (r : CursorRequest) (d : Draft) : Nat :=
  if r.x = -1 then (d.state.cursor.getD (0, 0)).1 else clampAxis r.x f.width

/-- The row that a request asks for. -/
def askedRow (f : Frame) (r : CursorRequest) (d : Draft) : Nat :=
  if r.y = -1 then (d.state.cursor.getD (0, 0)).2 else clampAxis r.y f.height

/-- Put the cursor where the request wants it. -/
def place (f : Frame) (r : CursorRequest) (d : Draft) : Draft :=
  if r.x = -1 ∧ r.y = -1 ∧ d.state.cursor.isNone then d
  else d.moveTo (d.askedColumn f r) (d.askedRow f r)

theorem applyCursor_eq (d : Draft) (caps : Capabilities) (f : Frame) (r : CursorRequest) :
    d.applyCursor caps f r = ((d.reshape caps r).reveal r).place f r := rfl

theorem clampAxis_lt (v : Int) {n : Nat} (h : n ≠ 0) : clampAxis v n < n := by
  unfold clampAxis
  omega

namespace Tracks

theorem reshape (h : d.Tracks f t start) (r : CursorRequest) :
    (d.reshape caps r).Tracks f t start := by
  unfold Draft.reshape
  split_ifs
  · apply h.emit (c := .shapeCursor r.shape) trivial
    rw [Emulator.execute_shapeCursor]
    exact h.knows.shaped r.shape
  · exact h

theorem reveal (h : d.Tracks f t start) (r : CursorRequest) : (d.reveal r).Tracks f t start := by
  unfold Draft.reveal
  by_cases hknown : d.state.cursorVisible = some r.visible
  · rw [if_neg (not_not.mpr hknown)]
    exact h
  · rw [if_pos hknown]
    cases r.visible
    · apply h.emit (c := .hideCursor) trivial
      exact h.knows.shown false
    · apply h.emit (c := .showCursor) trivial
      exact h.knows.shown true

/-- A request that keeps the current column may keep the one behind the last. -/
theorem asked (h : d.Tracks f t start) (hw : f.width ≠ 0) (hh : f.height ≠ 0) (r : CursorRequest)
    (hfit : t.Fits f) : d.askedColumn f r ≤ f.width ∧ d.askedRow f r < f.height := by
  have hcurrent : (d.state.cursor.getD (0, 0)).1 ≤ f.width ∧
      (d.state.cursor.getD (0, 0)).2 < f.height := by
    cases hcursor : d.state.cursor with
    | none => exact ⟨Nat.zero_le _, Nat.pos_of_ne_zero hh⟩
    | some p =>
      have hfits : (d.reached f.layout t).Fits f := fits_reached.mpr hfit
      obtain ⟨⟨-, hplace⟩, hy⟩ := h.knows.cursor hfits p.1 p.2 hcursor
      obtain ⟨hwidth, hheight⟩ := hfits
      simp only [Option.getD_some]
      omega
  have hcolumn := clampAxis_lt r.x hw
  have hrow := clampAxis_lt r.y hh
  unfold askedColumn askedRow
  split_ifs <;> omega

theorem place (h : d.Tracks f t start) (hw : f.width ≠ 0) (hh : f.height ≠ 0) (r : CursorRequest) :
    (d.place f r).Tracks f t start := by
  unfold Draft.place
  by_cases hstay : r.x = -1 ∧ r.y = -1 ∧ d.state.cursor.isNone
  · rw [if_pos hstay]
    exact h
  · rw [if_neg hstay]
    exact h.moveTo (h.asked hw hh r)

theorem applyCursor (h : d.Tracks f t start) (hw : f.width ≠ 0) (hh : f.height ≠ 0)
    (r : CursorRequest) : (d.applyCursor caps f r).Tracks f t start := by
  rw [applyCursor_eq]
  exact ((h.reshape r).reveal r).place hw hh r

end Tracks

/-- A fold under a budget that succeeds is the fold. -/
theorem foldlM_within {α : Type*} {g : Draft → α → Draft} {budget : Nat} {as : List α}
    {d d' : Draft} (h : as.foldlM (fun d a => (g d a).within budget) d = .ok d') :
    d' = as.foldl g d := by
  induction as generalizing d with
  | nil =>
    cases h
    rfl
  | cons a as ih =>
    rw [List.foldlM_cons, within] at h
    split_ifs at h
    · cases h
    · exact ih h

theorem eq_of_within {budget : Nat} {d d' : Draft} (h : d.within budget = .ok d') : d' = d := by
  unfold within at h
  split_ifs at h
  cases h
  rfl

end Draft

end CellCanvas
