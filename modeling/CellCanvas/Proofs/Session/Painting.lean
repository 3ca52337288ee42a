import CellCanvas.Proofs.Emulator.Display
import CellCanvas.Proofs.Session.Renders

/-!
# What drafts show

On a terminal of the frame's size, writing cells shows exactly these cells, and everything else that
a draft does between them leaves the screen alone.
-/

namespace CellCanvas

open Wire

/-- The columns of some spans. -/
def columnsOf (spans : List (Nat × Nat)) : List Nat :=
  spans.flatMap fun span => List.range' span.1 (span.2 + 1 - span.1)

theorem columnsOf_cons (span : Nat × Nat) (spans : List (Nat × Nat)) :
    columnsOf (span :: spans) =
      List.range' span.1 (span.2 + 1 - span.1) ++ columnsOf spans := List.flatMap_cons

theorem mem_columnsOf {spans : List (Nat × Nat)} {x : Nat} :
    x ∈ columnsOf spans ↔ ∃ span ∈ spans, span.1 ≤ x ∧ x ≤ span.2 := by
  simp only [columnsOf, List.mem_flatMap, List.mem_range'_1]
  constructor
  · rintro ⟨span, hspan, hx⟩
    exact ⟨span, hspan, by omega⟩
  · rintro ⟨span, hspan, hx⟩
    exact ⟨span, hspan, by omega⟩

namespace Draft

variable {f : Frame} {t : Emulator} {d start : Draft} {caps : Capabilities} {x y : Nat}
  {layout : Layout}

theorem screen_emit {c : Command} (h : c.changesScreen = false) :
    ((d.emit c).reached layout t).screen = (d.reached layout t).screen := by
  rw [reached_emit, Emulator.screen_execute layout _ h]

theorem screen_moveTo : ((d.moveTo x y).reached layout t).screen = (d.reached layout t).screen := by
  unfold moveTo
  split_ifs
  · rfl
  · exact screen_emit (c := .cursorTo x y) rfl

theorem screen_select (s : SgrStyle) :
    ((d.select s).reached layout t).screen = (d.reached layout t).screen := by
  unfold select
  cases d.state.style with
  | none => exact screen_emit (c := .establish s) rfl
  | some current =>
    dsimp only
    unfold Command.restyling
    split_ifs
    · rfl
    · exact screen_emit (c := .adjustStyle (current.changes s)) rfl
    · exact screen_emit (c := .establish s) rfl

theorem screen_closeLink : (d.closeLink.reached layout t).screen = (d.reached layout t).screen := by
  unfold closeLink
  split_ifs
  · exact screen_emit (c := .closeLink) rfl
  · rfl

theorem screen_openLink (uri : Option String) :
    ((d.openLink uri).reached layout t).screen = (d.reached layout t).screen := by
  rw [openLink_eq]
  split_ifs
  · rfl
  · cases uri with
    | none => exact screen_closeLink
    | some u => exact (screen_emit (d := d.closeLink) (c := .openLink u) rfl).trans screen_closeLink

theorem screen_aim (s : Style) :
    ((d.aim caps f x y s).reached layout t).screen = (d.reached layout t).screen := by
  unfold aim
  split_ifs
  · rw [screen_openLink, screen_select, screen_moveTo]
  · rw [screen_select, screen_moveTo]

theorem screen_applyCursor (r : CursorRequest) :
    ((d.applyCursor caps f r).reached layout t).screen = (d.reached layout t).screen := by
  have hreshape (d : Draft) :
      ((d.reshape caps r).reached layout t).screen = (d.reached layout t).screen := by
    unfold reshape
    split_ifs
    · exact screen_emit (c := .shapeCursor r.shape) rfl
    · rfl
  have hreveal (d : Draft) :
      ((d.reveal r).reached layout t).screen = (d.reached layout t).screen := by
    unfold reveal
    split_ifs
    · exact screen_emit (c := .showCursor) rfl
    · exact screen_emit (c := .hideCursor) rfl
    · rfl
  have hplace (d : Draft) :
      ((d.place f r).reached layout t).screen = (d.reached layout t).screen := by
    unfold place
    split_ifs
    · rfl
    · exact screen_moveTo
  rw [applyCursor_eq, hplace, hreveal, hreshape]

/-- A draft tracks the terminal, and has no link open for a terminal without links. -/
structure IsReady (caps : Capabilities) (f : Frame) (t : Emulator) (d start : Draft) : Prop where
  tracks : d.Tracks f t start
  link : caps.hyperlinks = false → d.state.link = none

/-- Writing a cell shows the cell. -/
theorem screen_writeCell (h : d.IsReady caps f t start) (hf : f.isValid = true)
    (hcaps : caps.attributes.IsNamed) (hfit : t.Fits f) (x y : Nat) :
    ((writeCell caps f y d x).reached f.layout t).screen =
      (d.reached f.layout t).screen.paint caps f y x := by
  cases hc : f.cell? x y with
  | none =>
    have hnothing : writeCell caps f y d x = d := by simp [writeCell, hc]
    rw [hnothing]
    funext j
    simp [Screen.paint, ScreenRow.paint, hc]
  | some c =>
    by_cases hw : c.width = 0
    · rw [writeCell_of_continuation hc hw]
      funext j
      simp [Screen.paint, ScreenRow.paint, hc, hw]
    · obtain ⟨hx, hy⟩ := Frame.lt_of_cell? hc
      have haim := h.tracks.aim hcaps (s := c.style) (x := x) (y := y) fun _ => ⟨hx.le, hy⟩
      have hstate := state_aim caps f x y c.style d
      obtain ⟨hglyph, hcolumn, hrow, -⟩ :=
        haim.execute_glyph hf hc hw hfit (by rw [hstate])
      have hspot : (⟨c.glyph, c.width, ((d.aim caps f x y c.style).reached f.layout t).rendition,
          ((d.aim caps f x y c.style).reached f.layout t).link⟩ : Spot) = .of caps f c := by
        have hrendition := (haim.knows.style (caps.resolve c.style) (by rw [hstate])).2
        have hlink := haim.knows.link
        rw [hstate] at hlink
        rw [hrendition, hlink, Spot.of]
        cases hyper : caps.hyperlinks with
        | true => rfl
        | false => simp [h.link hyper]
      rw [writeCell_of_some hc hw]
      change (((d.aim caps f x y c.style).emit (.text c.glyph)).reached f.layout t).screen = _
      rw [reached_emit, hglyph, Emulator.writeHere, hspot, hcolumn, hrow, screen_aim]
      funext j
      simp [Screen.put, Screen.paint, ScreenRow.paint, hc, hw]

namespace IsReady

theorem writeCell (h : d.IsReady caps f t start) (hf : f.isValid = true)
    (hcaps : caps.attributes.IsNamed) (x y : Nat) :
    (writeCell caps f y d x).IsReady caps f t start := by
  refine ⟨h.tracks.writeCell hf hcaps x y, ?_⟩
  intro hyper
  cases hc : f.cell? x y with
  | none => simpa [Draft.writeCell, hc] using h.link hyper
  | some c =>
    by_cases hw : c.width = 0
    · rw [writeCell_of_continuation hc hw]
      exact h.link hyper
    · rw [writeCell_of_some hc hw]
      change (d.aim caps f x y c.style).state.link = none
      rw [state_aim, hyper]
      exact h.link hyper

theorem writeCells (h : d.IsReady caps f t start) (hf : f.isValid = true)
    (hcaps : caps.attributes.IsNamed) (hfit : t.Fits f) (y : Nat) (xs : List Nat) :
    (xs.foldl (Draft.writeCell caps f y) d).IsReady caps f t start ∧
      ((xs.foldl (Draft.writeCell caps f y) d).reached f.layout t).screen =
        xs.foldl (Screen.paint caps f y) (d.reached f.layout t).screen := by
  induction xs generalizing d with
  | nil => exact ⟨h, rfl⟩
  | cons x xs ih =>
    have hrest := ih (h.writeCell hf hcaps x y)
    refine ⟨hrest.1, ?_⟩
    rw [List.foldl_cons, List.foldl_cons, hrest.2, screen_writeCell h hf hcaps hfit]

theorem writeRow (h : d.IsReady caps f t start) (hf : f.isValid = true)
    (hcaps : caps.attributes.IsNamed) (hfit : t.Fits f) (y : Nat) (spans : List (Nat × Nat)) :
    (d.writeRow caps f y spans).IsReady caps f t start ∧
      ((d.writeRow caps f y spans).reached f.layout t).screen =
        (columnsOf spans).foldl (Screen.paint caps f y) (d.reached f.layout t).screen := by
  have hspans (d : Draft) (h : d.IsReady caps f t start) :
      (spans.foldl (fun d span => d.writeSpan caps f y span) d).IsReady caps f t start ∧
        ((spans.foldl (fun d span => d.writeSpan caps f y span) d).reached f.layout t).screen =
          (columnsOf spans).foldl (Screen.paint caps f y) (d.reached f.layout t).screen := by
    induction spans generalizing d with
    | nil => exact ⟨h, rfl⟩
    | cons span spans ih =>
      obtain ⟨hready, hscreen⟩ := h.writeCells hf hcaps hfit y
        (List.range' span.1 (span.2 + 1 - span.1))
      have hspan : (d.writeSpan caps f y span).IsReady caps f t start :=
        ⟨⟨hready.tracks.added, hready.tracks.safe, hready.tracks.knows⟩, hready.link⟩
      have hrest := ih (d.writeSpan caps f y span) hspan
      refine ⟨hrest.1, ?_⟩
      rw [List.foldl_cons, hrest.2, columnsOf_cons, List.foldl_append, ← hscreen]
      rfl
  obtain ⟨hready, hscreen⟩ := hspans d h
  unfold Draft.writeRow
  split_ifs
  · exact ⟨hready, hscreen⟩
  · exact ⟨⟨⟨hready.tracks.added, hready.tracks.safe, hready.tracks.knows⟩, hready.link⟩, hscreen⟩

/-- Rows that are written are shown when the columns that are left out were shown before; other rows
do not change. -/
theorem writeRows (h : d.IsReady caps f t start) (hf : f.isValid = true)
    (hcaps : caps.attributes.IsNamed) (hfit : t.Fits f) (spans : Nat → List (Nat × Nat))
    (rows : List Nat)
    (hrows : ∀ y ∈ rows, ((d.reached f.layout t).screen y).IsPaired ∧
      ((d.reached f.layout t).screen y).ShowsOn caps f y fun x => x ∉ columnsOf (spans y)) :
    (rows.foldl (fun d y => d.writeRow caps f y (spans y)) d).IsReady caps f t start ∧
      ∀ y, if y ∈ rows then
          (((rows.foldl (fun d y => d.writeRow caps f y (spans y)) d).reached
            f.layout t).screen y).Shows caps f y
        else ((rows.foldl (fun d y => d.writeRow caps f y (spans y)) d).reached
            f.layout t).screen y = (d.reached f.layout t).screen y := by
  induction rows generalizing d with
  | nil => exact ⟨h, fun y => by simp⟩
  | cons r rows ih =>
    obtain ⟨hready, hscreen⟩ := h.writeRow hf hcaps hfit r (spans r)
    have hrow (y : Nat) : ((d.writeRow caps f r (spans r)).reached f.layout t).screen y =
        if y = r then (columnsOf (spans r)).foldl (ScreenRow.paint caps f r)
          ((d.reached f.layout t).screen y)
        else (d.reached f.layout t).screen y := by
      rw [hscreen, Screen.foldl_paint]
    have hfirst :
        (((d.writeRow caps f r (spans r)).reached f.layout t).screen r).Shows caps f r := by
      obtain ⟨hpaired, hshown⟩ := hrows r (by simp)
      rw [hrow, if_pos rfl]
      exact ScreenRow.shows_foldl_paint hf hpaired hshown
    have hrest := ih hready (by
      intro y hy
      by_cases hyr : y = r
      · subst hyr
        exact ⟨hfirst.1, fun x c _ => hfirst.2 x c trivial⟩
      · rw [hrow, if_neg hyr]
        exact hrows y (by simp [hy]))
    refine ⟨hrest.1, ?_⟩
    intro y
    have hy := hrest.2 y
    by_cases hmem : y ∈ rows
    · rw [if_pos hmem] at hy
      rw [if_pos (List.mem_cons_of_mem r hmem)]
      exact hy
    · rw [if_neg hmem] at hy
      rw [List.foldl_cons, hy]
      by_cases hyr : y = r
      · subst hyr
        rw [if_pos (by simp)]
        exact hfirst
      · rw [if_neg (by simp [hyr, hmem]), hrow, if_neg hyr]

end IsReady

end Draft

end CellCanvas
