import CellCanvas.Proofs.Session.Budget

/-!
# What scrolling costs

A scroll saves the cells of the changed rows that it covers, and writes the rows that it leaves
blank in full. A plan is chosen by the rows that it moves, whether the frame differs in whole rows
or in single cells, so it costs no more cells exactly when the blank rows have no more of them than
the changes that it covers. In a column of labels it never does.
-/

namespace CellCanvas

namespace Comparison

/-- How many cells of a row are written again. -/
def spanCells (c : Comparison) (y : Nat) : Nat := (columnsOf (c.spans y)).length

/-- How many cells of some rows are written again. -/
def changedCells (c : Comparison) (rows : List Nat) : Nat := total (rows.map c.spanCells)

theorem changedCells_filter (c : Comparison) (inside : Nat → Bool) (rows : List Nat) :
    c.changedCells (rows.filter inside) + c.changedCells (rows.filter fun y => !inside y) =
      c.changedCells rows := by
  induction rows with
  | nil => rfl
  | cons y rows ih =>
    unfold changedCells at ih ⊢
    cases hy : inside y with
    | false =>
      simp only [List.filter_cons, hy, Bool.not_false, if_true, Bool.false_eq_true, if_false,
        List.map_cons, total_cons]
      omega
    | true =>
      simp only [List.filter_cons, hy, Bool.not_true, if_true, Bool.false_eq_true, if_false,
        List.map_cons, total_cons]
      omega

end Comparison

namespace Session

/-- How many cells a scroll between two frames leaves blank. -/
def blankCells (c : Comparison) : Nat :=
  match scrollPlan? c (dirtyRows c).length with
  | some plan => plan.lines * c.next.width
  | none => 0

/-- How many cells need not be written one by one because a scroll covers their rows. -/
def savedCells (c : Comparison) : Nat :=
  match scrollPlan? c (dirtyRows c).length with
  | some plan => c.changedCells ((dirtyRows c).filter plan.covers)
  | none => 0

end Session

namespace Draft

variable {caps : Capabilities} {f : Frame} {d : Draft}

theorem stats_emitAll (d : Draft) (cs : List Command) : (d.emitAll cs).stats = d.stats := by
  unfold emitAll
  induction cs generalizing d with
  | nil => rfl
  | cons c cs ih => exact ih (d.emit c)

theorem stats_moveTo (d : Draft) (x y : Nat) : (d.moveTo x y).stats = d.stats := by
  unfold moveTo
  split_ifs <;> rfl

theorem stats_select (d : Draft) (s : SgrStyle) : (d.select s).stats = d.stats := by
  unfold select
  cases d.state.style with
  | none => rfl
  | some current => exact stats_emitAll d _

theorem stats_closeLink (d : Draft) : d.closeLink.stats = d.stats := by
  unfold closeLink
  split_ifs <;> rfl

theorem stats_openLink (d : Draft) (uri : Option String) : (d.openLink uri).stats = d.stats := by
  rw [openLink_eq]
  split_ifs
  · rfl
  · cases uri with
    | none => exact stats_closeLink d
    | some u => exact stats_closeLink d

theorem stats_writeCell (d : Draft) (x y : Nat) : (writeCell caps f y d x).stats = d.stats := by
  unfold writeCell
  cases f.cell? x y with
  | none => rfl
  | some c =>
    dsimp only
    split_ifs
    · rfl
    · exact (stats_openLink _ _).trans ((stats_select _ _).trans (stats_moveTo _ _ _))
    · exact (stats_select _ _).trans (stats_moveTo _ _ _)

theorem stats_writeSpan (d : Draft) (y : Nat) (span : Nat × Nat) :
    (d.writeSpan caps f y span).stats =
      { d.stats with dirtyCells := d.stats.dirtyCells + (span.2 + 1 - span.1) } := by
  have hstats (xs : List Nat) : (xs.foldl (writeCell caps f y) d).stats = d.stats := by
    induction xs generalizing d with
    | nil => rfl
    | cons x xs ih => exact (ih _).trans (stats_writeCell d x y)
  exact congrArg (fun stats : RenderStats =>
    { stats with dirtyCells := stats.dirtyCells + (span.2 + 1 - span.1) }) (hstats _)

/-- A row counts the columns of its spans, and itself if it has any span. -/
theorem stats_writeRow (d : Draft) (y : Nat) (spans : List (Nat × Nat)) :
    (d.writeRow caps f y spans).stats =
      { d.stats with
        dirtyCells := d.stats.dirtyCells + (columnsOf spans).length
        dirtyLines := d.stats.dirtyLines + if spans.isEmpty then 0 else 1 } := by
  have hspans : (spans.foldl (fun d span => d.writeSpan caps f y span) d).stats =
      { d.stats with dirtyCells := d.stats.dirtyCells + (columnsOf spans).length } := by
    induction spans generalizing d with
    | nil => rfl
    | cons span spans ih =>
      rw [List.foldl_cons, ih, stats_writeSpan, columnsOf_cons, List.length_append,
        List.length_range', Nat.add_assoc]
  unfold writeRow
  split_ifs
  · exact hspans
  · dsimp only
    rw [hspans]

/-- The cells that have been written so far. -/
def cells (d : Draft) : Nat := d.stats.dirtyCells

theorem cells_writeRow (d : Draft) (y : Nat) (spans : List (Nat × Nat)) :
    (d.writeRow caps f y spans).cells = d.cells + (columnsOf spans).length :=
  congrArg RenderStats.dirtyCells (stats_writeRow d y spans)

theorem stats_rewritten (d : Draft) (c : Comparison) (rows : List Nat) :
    (d.rewritten caps c rows).stats =
      { d.stats with
        dirtyCells := d.stats.dirtyCells + c.changedCells rows
        dirtyLines := d.stats.dirtyLines +
          (rows.filter fun y => !(c.spans y).isEmpty).length } := by
  unfold rewritten Comparison.changedCells
  induction rows generalizing d with
  | nil => rfl
  | cons y rows ih =>
    rw [List.foldl_cons, ih, stats_writeRow, List.map_cons, total_cons, List.filter_cons]
    cases (c.spans y).isEmpty <;>
      simp [Nat.add_assoc, Nat.add_comm 1, Comparison.spanCells]

theorem cells_rewritten (d : Draft) (c : Comparison) (rows : List Nat) :
    (d.rewritten caps c rows).cells = d.cells + c.changedCells rows :=
  congrArg RenderStats.dirtyCells (stats_rewritten d c rows)

theorem cells_wholeRows (d : Draft) (hw : f.width ≠ 0) (rows : List Nat) :
    (rows.foldl (Session.wholeRow caps f) d).cells = d.cells + rows.length * f.width := by
  have hlength : (columnsOf [(0, f.width - 1)]).length = f.width := by
    simp only [columnsOf, List.flatMap_cons, List.flatMap_nil, List.append_nil, List.length_range']
    omega
  induction rows generalizing d with
  | nil => simp
  | cons y rows ih =>
    rw [List.foldl_cons, ih, Session.wholeRow, cells_writeRow, hlength, List.length_cons,
      Nat.succ_mul]
    omega

theorem cells_shifted (d : Draft) (hw : f.width ≠ 0) {plan : ScrollPlan}
    {sameRow : Nat → Nat → Bool} (hplan : plan.IsSound f.height sameRow) :
    (d.shifted caps f plan).cells = d.cells + plan.lines * f.width := by
  rw [shifted, cells_wholeRows _ hw, hplan.length_exposedRows]
  rfl

theorem cells_updated_true (d : Draft) {c : Comparison} (hw : c.next.width ≠ 0)
    (hcaps : caps.scrollRegion = true) :
    (d.updated caps true c).cells + Session.savedCells c =
      (d.updated caps false c).cells + Session.blankCells c := by
  have hplain : (d.updated caps false c).cells = d.cells + c.changedCells (Session.dirtyRows c) :=
    cells_rewritten d c _
  rw [hplain, Session.savedCells, Session.blankCells]
  simp only [updated, hcaps, Bool.and_true, if_true]
  cases hplan : Session.scrollPlan? c (Session.dirtyRows c).length with
  | none =>
    dsimp only
    rw [cells_rewritten]
    rfl
  | some plan =>
    have hsplit := c.changedCells_filter plan.covers (Session.dirtyRows c)
    have hcells : d.attempted.cells = d.cells := rfl
    dsimp only
    rw [cells_rewritten, cells_shifted _ hw (ScrollPlan.isSound_of_detect hplan), hcells]
    omega

theorem stats_applyCursor (d : Draft) (r : CursorRequest) :
    (d.applyCursor caps f r).stats = d.stats := by
  have hreshape : (d.reshape caps r).stats = d.stats := by
    unfold reshape
    split_ifs <;> rfl
  have hreveal (d : Draft) : (d.reveal r).stats = d.stats := by
    unfold reveal
    by_cases hknown : d.state.cursorVisible = some r.visible
    · rw [if_neg (not_not.mpr hknown)]
    · rw [if_pos hknown]
      rfl
  have hplace (d : Draft) : (d.place f r).stats = d.stats := by
    unfold place
    by_cases hstay : r.x = -1 ∧ r.y = -1 ∧ d.state.cursor.isNone
    · rw [if_pos hstay]
    · rw [if_neg hstay]
      exact stats_moveTo d _ _
  rw [applyCursor_eq]
  exact (hplace _).trans ((hreveal _).trans hreshape)

end Draft

/-- Nothing but spaces to the right of the first column, and no wide cell. -/
structure Frame.IsColumn (f : Frame) : Prop where
  links : f.links = #[]
  width_eq_one : ∀ x y c, f.cell? x y = some c → c.width = 1
  eq_empty : ∀ x y c, x ≠ 0 → f.cell? x y = some c → c = .empty

namespace Frame.IsColumn

variable {f : Frame}

theorem blank (width height : UInt16) : (Frame.blank width height).IsColumn := by
  have hempty (x y : Nat) (c : Cell) (hc : (Frame.blank width height).cell? x y = some c) :
      c = .empty := by
    obtain ⟨-, hcell⟩ := Option.ite_none_right_eq_some.mp hc
    exact Array.eq_of_mem_replicate (Array.mem_of_getElem? hcell)
  exact ⟨rfl, fun x y c hc => hempty x y c hc ▸ rfl, fun x y c _ hc => hempty x y c hc⟩

theorem set (h : f.IsColumn) (y : Nat) (text : String) :
    (f.set 0 y (.ofCluster text 1 .plain)).IsColumn := by
  have hcases {x y' : Nat} {c : Cell}
      (hc : (f.set 0 y (.ofCluster text 1 .plain)).cell? x y' = some c) :
      x = 0 ∧ c = .ofCluster text 1 .plain ∨ f.cell? x y' = some c := by
    rw [cell?_set] at hc
    split_ifs at hc with hin
    · exact .inl ⟨hin.1, (Option.some.inj hc).symm⟩
    · exact .inr hc
  refine ⟨(links_set ..).trans h.links, ?_, ?_⟩
  · intro x y' c hc
    rcases hcases hc with ⟨-, rfl⟩ | hold
    · unfold Cell.ofCluster
      split_ifs <;> rfl
    · exact h.width_eq_one x y' c hold
  · intro x y' c hx hc
    rcases hcases hc with ⟨hzero, -⟩ | hold
    · exact absurd hzero hx
    · exact h.eq_empty x y' c hx hold

theorem isValid (h : f.IsColumn) : f.isValid = true := by
  rw [isValid_iff]
  intro x y
  unfold isPaired
  cases hc : f.cell? x y with
  | none => rfl
  | some c => simp [h.width_eq_one x y c hc]

theorem hasShortLinks (h : f.IsColumn) : f.HasShortLinks := by
  intro uri hmem
  exact absurd (h.links ▸ hmem) (Array.not_mem_empty uri)

end Frame.IsColumn

namespace Comparison

theorem sameCell_empty (c : Comparison) : c.sameCell .empty .empty = true := by
  have hlink : Cell.empty.style.link = 0 := rfl
  simp [sameCell, hlink]

variable {p f : Frame} (hp : p.IsColumn) (hf : f.IsColumn)
include hp hf

/-- Only the first column is compared. -/
theorem sameCells_of_isColumn {newRow oldRow x left : Nat} (hx : x ≠ 0)
    (hnew : newRow < f.height ∧ x + left ≤ f.width)
    (hold : oldRow < p.height ∧ x + left ≤ p.width) :
    (of p f).sameCells newRow oldRow x left = true := by
  induction left generalizing x with
  | zero => rfl
  | succ left ih =>
    obtain ⟨old, hold'⟩ := Frame.exists_cell? (f := p) (x := x) (y := oldRow) (by omega) hold.1
    obtain ⟨new, hnew'⟩ := Frame.exists_cell? (f := f) (x := x) (y := newRow) (by omega) hnew.1
    have hprevious : (of p f).previous.cell? x oldRow = some old := hold'
    have hnext : (of p f).next.cell? x newRow = some new := hnew'
    obtain rfl := hp.eq_empty x oldRow old hx hold'
    obtain rfl := hf.eq_empty x newRow new hx hnew'
    rw [sameCells, hprevious, hnext, ih (Nat.succ_ne_zero x) (by omega) (by omega)]
    exact congrArg (· && true) (sameCell_empty _)

theorem sameRow_of_isColumn (hw : p.width = f.width) (hpos : f.width ≠ 0) :
    (of p f).sameRow = fun newRow oldRow =>
      newRow < f.height && oldRow < p.height && (of p f).sameCells newRow oldRow 0 1 := by
  funext newRow oldRow
  have hnext : (of p f).next = f := rfl
  have hprevious : (of p f).previous = p := rfl
  rw [sameRow, hnext, hprevious]
  by_cases hnew : newRow < f.height
  · by_cases hold : oldRow < p.height
    · obtain ⟨left, hleft⟩ := Nat.exists_eq_succ_of_ne_zero hpos
      have htail : (of p f).sameCells newRow oldRow 1 left = true :=
        sameCells_of_isColumn hp hf (by decide) ⟨hnew, by omega⟩ ⟨hold, by omega⟩
      rw [hleft, sameCells, htail]
      simp [hnew, hold, hw, hleft, sameCells]
    · simp [hold]
  · simp [hnew]

theorem isDirty_of_isColumn {x : Nat} (y : Nat) (hx : x ≠ 0) : (of p f).isDirty x y = false := by
  have hnext (x : Nat) : (of p f).next.cell? x y = f.cell? x y := rfl
  have hprevious (x : Nat) : (of p f).previous.cell? x y = p.cell? x y := rfl
  have hclean {x : Nat} (hx : x ≠ 0) {old new : Cell} (hold : p.cell? x y = some old)
      (hnew : f.cell? x y = some new) : (of p f).sameCell old new = true := by
    rw [hp.eq_empty x y old hx hold, hf.eq_empty x y new hx hnew]
    exact sameCell_empty _
  unfold isDirty
  rw [hprevious, hprevious, hnext, hnext]
  cases hold : p.cell? x y with
  | none => rfl
  | some old =>
    cases hnew : f.cell? x y with
    | none => rfl
    | some new =>
      dsimp only
      rw [hclean hx hold hnew]
      cases hold' : p.cell? (x + 1) y with
      | none => rfl
      | some old' =>
        cases hnew' : f.cell? (x + 1) y with
        | none => rfl
        | some new' =>
          dsimp only
          rw [hclean (Nat.succ_ne_zero x) hold' hnew']
          simp

theorem spansFrom_of_isColumn {x resume left : Nat} (y : Nat) (hx : x ≠ 0) :
    (of p f).spansFrom y x resume left = [] := by
  induction left generalizing x with
  | zero => rfl
  | succ left ih =>
    rw [spansFrom, isDirty_of_isColumn hp hf y hx]
    simpa using ih (Nat.succ_ne_zero x)

/-- At most one cell of a row is written again. -/
theorem spanCells_le_one (y : Nat) : (of p f).spanCells y ≤ 1 := by
  rw [spanCells, spans]
  cases hw : (of p f).next.width with
  | zero => exact Nat.zero_le 1
  | succ left =>
    rw [spansFrom]
    split_ifs
    · rw [spansFrom_of_isColumn hp hf y (by decide)]
      exact Nat.zero_le 1
    · have hstop : (of p f).runEnd y (0 + 1) left = 1 := by
        cases left with
        | zero => rfl
        | succ left =>
          rw [runEnd, isDirty_of_isColumn hp hf y (by decide)]
          rfl
      have hnarrow : (f.cell? 0 y).any Cell.isWide = false := by
        cases hc : f.cell? 0 y with
        | none => rfl
        | some c => simp [Cell.isWide, hf.width_eq_one 0 y c hc]
      have hwiden : widen (of p f).next y 0 (1 - 1) = (0, 0) := by
        have hnext : (of p f).next = f := rfl
        simp [widen, hnext, hnarrow]
      dsimp only
      rw [spansFrom_of_isColumn hp hf y (by decide), hstop, hwiden]
      decide

end Comparison

namespace Session

variable {caps : Capabilities} {f p : Frame} {s : Session} {cursor : Option CursorRequest}

/-- The end of a frame counts nothing but the bytes. -/
theorem stats_drafted (hw : f.width ≠ 0) (hh : f.height ≠ 0) :
    (s.drafted f caps cursor).stats =
      { (s.body f caps).stats with bytes := (s.drafted f caps cursor).size } := by
  have hclosed (start d : Draft) : (closed caps start d).stats = d.stats := by
    unfold closed
    split_ifs <;> rfl
  have hsettled (d : Draft) : (settled caps f cursor d).stats = d.stats := by
    unfold settled
    cases cursor with
    | none => exact d.stats_closeLink
    | some r => exact (Draft.stats_closeLink _).trans (d.stats_applyCursor r)
  rw [drafted, if_neg (by simp [hw, hh])]
  dsimp only
  rw [hclosed, hsettled]

theorem cells_drafted (hw : f.width ≠ 0) (hh : f.height ≠ 0) :
    (s.drafted f caps cursor).cells = (s.body f caps).cells := by
  rw [Draft.cells, stats_drafted hw hh]
  rfl

/-- The same session with the scroll optimisation on or off. -/
def withScroll (s : Session) (scroll : Bool) : Session :=
  { s with options := { s.options with scrollOptimization := scroll } }

theorem IsSettled.withScroll (h : s.IsSettled) (scroll : Bool) :
    (s.withScroll scroll).IsSettled :=
  ⟨h.link, h.cursor⟩

theorem unlimited_withScroll (s : Session) (scroll : Bool) :
    (s.withScroll scroll).unlimited = s.unlimited.withScroll scroll := rfl

theorem scrollPlan?_eq_none {c : Comparison}
    (h : c.next.width = 0 ∨ c.next.height = 0 ∨ dirtyRows c = []) :
    scrollPlan? c (dirtyRows c).length = none := by
  have hskip : (decide (c.next.height < 2) || decide (c.next.width = 0) ||
      decide ((dirtyRows c).length < ScrollPlan.minDirtyRows)) = true := by
    rcases h with h | h | h <;> simp [h, ScrollPlan.minDirtyRows]
  rw [scrollPlan?, ScrollPlan.detect, if_pos hskip]

theorem cells_drafted_withScroll (hprevious : s.previous = some p) (hw : p.width = f.width)
    (hh : p.height = f.height) (hcaps : caps.scrollRegion = true) :
    ((s.withScroll true).drafted f caps cursor).cells + savedCells (.of p f) =
      ((s.withScroll false).drafted f caps cursor).cells + blankCells (.of p f) := by
  have hnone (h : f.width = 0 ∨ f.height = 0 ∨ dirtyRows (.of p f) = []) :
      savedCells (.of p f) = 0 ∧ blankCells (.of p f) = 0 := by
    rw [savedCells, blankCells, scrollPlan?_eq_none h]
    exact ⟨rfl, rfl⟩
  by_cases hempty : f.width = 0 ∨ f.height = 0
  · obtain ⟨hsaved, hblank⟩ := hnone (hempty.imp_right .inl)
    rw [drafted, drafted, if_pos hempty, if_pos hempty, hsaved, hblank]
    rfl
  · obtain ⟨hw', hh'⟩ := not_or.mp hempty
    have hbody (scroll : Bool) : (s.withScroll scroll).body f caps =
        if dirtyRows (.of p f) = [] then opened caps s.state
        else (opened caps s.state).updated caps scroll (.of p f) := by
      simp only [body, withScroll, hprevious]
      rw [if_pos ⟨hw, hh⟩]
    rw [cells_drafted hw' hh', cells_drafted hw' hh', hbody, hbody]
    by_cases hdirty : dirtyRows (.of p f) = []
    · obtain ⟨hsaved, hblank⟩ := hnone (.inr (.inr hdirty))
      rw [if_pos hdirty, if_pos hdirty, hsaved, hblank]
    · rw [if_neg hdirty, if_neg hdirty]
      exact Draft.cells_updated_true _ hw' hcaps

theorem stats_of_render {r : Session × RenderStats} (h : s.render f caps cursor = .ok r) :
    r.2 = (s.drafted f caps cursor).stats := by
  obtain ⟨d, hd, hrest⟩ := exists_of_bind_eq_ok h
  obtain ⟨d', hd', hrest⟩ := exists_of_bind_eq_ok hrest
  obtain ⟨output, -, hlast⟩ := exists_of_bind_eq_ok hrest
  obtain rfl := Draft.eq_of_within hd'
  obtain rfl := draft_ok hd
  cases hlast
  rfl

theorem dirtyCells_eq_cells {r : Session × RenderStats} (h : s.render f caps cursor = .ok r) :
    r.2.dirtyCells = (s.drafted f caps cursor).cells :=
  congrArg RenderStats.dirtyCells (stats_of_render h)

/-- In a column that has fewer rows than columns, a scroll saves less than a row. -/
theorem savedCells_lt_blankCells {p f : Frame} (hp : p.IsColumn) (hf : f.IsColumn)
    (hsize : f.height < f.width)
    (hplan : (scrollPlan? (.of p f) (dirtyRows (.of p f)).length).isSome = true) :
    savedCells (.of p f) < blankCells (.of p f) := by
  obtain ⟨plan, hplan⟩ := Option.isSome_iff_exists.mp hplan
  have hlines := (ScrollPlan.isSound_of_detect hplan).lines_pos
  have hrows : (dirtyRows (.of p f)).length ≤ f.height :=
    (List.length_filter_le _ _).trans (Nat.le_of_eq List.length_range)
  have hcovered := List.length_filter_le plan.covers (dirtyRows (.of p f))
  rw [savedCells, blankCells, hplan]
  calc (Comparison.of p f).changedCells ((dirtyRows (.of p f)).filter plan.covers)
      ≤ 1 * ((dirtyRows (.of p f)).filter plan.covers).length := by
        have hone : ∀ n ∈ ((dirtyRows (.of p f)).filter plan.covers).map
            (Comparison.of p f).spanCells, n ≤ 1 := by
          intro n hn
          obtain ⟨y, -, rfl⟩ := List.mem_map.mp hn
          exact Comparison.spanCells_le_one hp hf y
        have htotal := total_le _ hone
        rwa [List.length_map] at htotal
    _ < 1 * f.width := by omega
    _ ≤ plan.lines * f.width := Nat.mul_le_mul_right _ hlines

/-- Two sessions that know and retain the same, and of which only the first may scroll. -/
structure IsScrollPair (s t : Session) (p : Frame) : Prop where
  retained : s.previous = some p ∧ t.previous = some p
  state : s.state = t.state
  options : s.options = { t.options with scrollOptimization := true }
  plain : t.options.scrollOptimization = false

theorem isScrollPair_withScroll (hprevious : s.previous = some p) :
    IsScrollPair (s.withScroll true) (s.withScroll false) p :=
  ⟨⟨hprevious, hprevious⟩, rfl, rfl, rfl⟩

theorem cells_drafted_pair {t : Session} (cursor : Option CursorRequest)
    (h : IsScrollPair s t p) (hw : p.width = f.width) (hh : p.height = f.height)
    (hcaps : caps.scrollRegion = true) :
    (s.drafted f caps cursor).cells + savedCells (.of p f) =
      (t.drafted f caps cursor).cells + blankCells (.of p f) := by
  obtain ⟨⟨hs, ht⟩, hstate, hoptions, hplain⟩ := h
  have hon : s = { t.withScroll true with output := s.output } := by
    cases s
    simp_all [withScroll]
  have hoff : t = t.withScroll false := by
    rw [withScroll, ← hplain]
  rw [hon, hoff]
  exact cells_drafted_withScroll ht hw hh hcaps

/-- On a terminal that can scroll, a render with the scroll optimisation writes the cells of the one
without it, less those of the changes that the scroll covers, plus those of the rows that it leaves
blank. So it writes no more cells just when the blank rows have no more of them. -/
theorem scroll_cost {t : Session} {on off : Session × RenderStats} (pair : IsScrollPair s t p)
    (width : p.width = f.width) (height : p.height = f.height)
    (scrolls : caps.scrollRegion = true) (renders_on : s.render f caps cursor = .ok on)
    (renders_off : t.render f caps cursor = .ok off) :
    on.2.dirtyCells + savedCells (.of p f) = off.2.dirtyCells + blankCells (.of p f) ∧
      (on.2.dirtyCells ≤ off.2.dirtyCells ↔ blankCells (.of p f) ≤ savedCells (.of p f)) := by
  have hcells := cells_drafted_pair cursor pair width height scrolls
  rw [dirtyCells_eq_cells renders_on, dirtyCells_eq_cells renders_off]
  refine ⟨hcells, ?_⟩
  omega

/-- A column of labels at the left of 64 columns. -/
def labels (texts : List String) : Frame :=
  texts.zipIdx.foldl (fun f label => f.set 0 label.2 (.ofCluster label.1 1 .plain))
    (.blank 64 (.ofNat texts.length))

theorem isColumn_labels (texts : List String) : (labels texts).IsColumn := by
  have hset (f : Frame) (hf : f.IsColumn) (ls : List (String × Nat)) :
      (ls.foldl (fun f label => f.set 0 label.2 (.ofCluster label.1 1 .plain)) f).IsColumn := by
    induction ls generalizing f with
    | nil => exact hf
    | cons label ls ih => exact ih _ (hf.set label.2 label.1)
  exact hset _ (.blank 64 _) texts.zipIdx

/-- Labels before and after they move up by a row. -/
def lowerLabels : Frame := labels ["a", "b", "c", "d", "e"]

def upperLabels : Frame := labels ["b", "c", "d", "e", "f"]

theorem isSome_scrollPlan?_labels : (scrollPlan? (.of lowerLabels upperLabels)
    (dirtyRows (.of lowerLabels upperLabels)).length).isSome = true := by
  unfold dirtyRows scrollPlan?
  rw [Comparison.sameRow_of_isColumn (p := lowerLabels) (f := upperLabels) (isColumn_labels _)
    (isColumn_labels _) (by decide +kernel) (by decide +kernel)]
  decide +kernel

/-- A session without limits that shows the lower labels. -/
def labelSession : Session :=
  ((start {} .unbounded).unlimited.after (.render lowerLabels {} none)).unlimited

theorem exists_render_labels : labelSession.previous = some lowerLabels ∧ ∀ scroll, ∃ r,
    (labelSession.withScroll scroll).render upperLabels {} none = .ok r := by
  have hlower : lowerLabels.IsColumn := isColumn_labels _
  have hupper : upperLabels.IsColumn := isColumn_labels _
  have hstart := isSettled_start {} .unbounded
  have hafter := hstart.unlimited.after (.render lowerLabels {} none)
  refine ⟨previous_after_unlimited hstart hlower.isValid hlower.hasShortLinks, ?_⟩
  intro scroll
  have hsecond := render_unlimited (hafter.withScroll scroll) hupper.isValid hupper.hasShortLinks
    {} none
  rw [unlimited_withScroll] at hsecond
  exact ⟨_, hsecond⟩

theorem scroll_cost_labels :
    ∃ on off, (labelSession.withScroll true).render upperLabels {} none = .ok on ∧
      (labelSession.withScroll false).render upperLabels {} none = .ok off ∧
      on.2.dirtyCells + savedCells (.of lowerLabels upperLabels) =
        off.2.dirtyCells + blankCells (.of lowerLabels upperLabels) := by
  obtain ⟨hprevious, hrenders⟩ := exists_render_labels
  obtain ⟨on, hon⟩ := hrenders true
  obtain ⟨off, hoff⟩ := hrenders false
  exact ⟨on, off, hon, hoff,
    (scroll_cost (isScrollPair_withScroll hprevious) (by decide +kernel) (by decide +kernel) rfl hon
      hoff).1⟩

/-- When single labels move up, the plain update writes the labels and the scroll a whole row. -/
theorem scroll_writes_more :
    ¬ ∀ (s t : Session) (p f : Frame) (caps : Capabilities) (cursor : Option CursorRequest)
      (on off : Session × RenderStats), p.isValid = true → f.isValid = true →
        p.width = f.width → p.height = f.height → caps.scrollRegion = true →
        IsScrollPair s t p → s.render f caps cursor = .ok on → t.render f caps cursor = .ok off →
        on.2.dirtyCells ≤ off.2.dirtyCells := by
  intro hclaim
  obtain ⟨hprevious, hrenders⟩ := exists_render_labels
  obtain ⟨on, hon⟩ := hrenders true
  obtain ⟨off, hoff⟩ := hrenders false
  have hlower : lowerLabels.IsColumn := isColumn_labels _
  have hupper : upperLabels.IsColumn := isColumn_labels _
  have hwidth : lowerLabels.width = upperLabels.width := by decide +kernel
  have hheight : lowerLabels.height = upperLabels.height := by decide +kernel
  have hpair := isScrollPair_withScroll hprevious
  have hscrolls : ({} : Capabilities).scrollRegion = true := rfl
  have hle := hclaim _ _ lowerLabels upperLabels {} none on off hlower.isValid hupper.isValid hwidth
    hheight rfl hpair hon hoff
  have hcells := cells_drafted_pair none hpair hwidth hheight hscrolls
  have hlt := savedCells_lt_blankCells hlower hupper (by decide +kernel) isSome_scrollPlan?_labels
  rw [dirtyCells_eq_cells hon, dirtyCells_eq_cells hoff] at hle
  omega

end Session

end CellCanvas
