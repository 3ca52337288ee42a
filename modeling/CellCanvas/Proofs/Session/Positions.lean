import CellCanvas.Proofs.Session.Budget

/-!
# Where the cursor is sent

A frame only sends the cursor to its own cells, with one exception. After a glyph in the last column
the tracked column is the one behind it, and a request that keeps the column but not the row passes
it on. That sequence is the last one of its frame that moves the cursor.
-/

namespace CellCanvas

open Wire

namespace Wire

/-- The row and the column that a sequence sends the cursor to, counted from one. A number that is
left out is read as zero, which is no position. -/
def Token.address? : Token → Option (Nat × Nat)
  | .control ps 'H' => some ((numbers ps).getD 0 0, (numbers ps).getD 1 0)
  | _ => none

/-- Where a text sends the cursor, in order. -/
def addresses (cs : List Char) : List (Nat × Nat) := (scan .ground cs).2.filterMap Token.address?

end Wire

/-- A row and a column, counted from one, of a cell of the frame. -/
def Frame.HasAddress (f : Frame) (p : Nat × Nat) : Prop :=
  1 ≤ p.1 ∧ p.1 ≤ f.height ∧ 1 ≤ p.2 ∧ p.2 ≤ f.width

instance (f : Frame) (p : Nat × Nat) : Decidable (f.HasAddress p) :=
  inferInstanceAs (Decidable (_ ∧ _))

namespace Command

/-- The column and the row that a command sends the cursor to, counted from zero. -/
def target? : Command → Option (Nat × Nat)
  | cursorTo x y => some (x, y)
  | _ => none

/-- A position as it is written. -/
def address (p : Nat × Nat) : Nat × Nat := (p.2 + 1, p.1 + 1)

theorem address?_tokens (c : Command) :
    c.tokens.filterMap Token.address? = (c.target?.map address).toList := by
  cases c with
  | cursorTo x y => simp [tokens, target?, address, Token.address?]
  | text glyph =>
    rw [tokens, List.filterMap_map]
    exact List.filterMap_eq_nil_iff.mpr fun _ _ => rfl
  | _ => rfl

/-- A text moves the cursor where its commands do. -/
theorem addresses_encodeAll {cs : List Command} (h : ∀ c ∈ cs, c.IsSafe) :
    addresses (encodeAll cs).toList = (cs.filterMap target?).map address := by
  have hread : scan .ground (encodeAll cs).toList = (.ground, cs.flatMap tokens) :=
    spells_encodeAll h
  rw [addresses, hread]
  clear h hread
  induction cs with
  | nil => rfl
  | cons c cs ih =>
    rw [List.flatMap_cons, List.filterMap_append, address?_tokens, ih]
    cases htarget : c.target? with
    | none => simp [htarget]
    | some p => simp [htarget]

theorem size_pos_of_target? {c : Command} {p : Nat × Nat} (h : c.target? = some p) :
    0 < c.size := by
  cases c with
  | cursorTo x y =>
    have hopening : "\x1b[".utf8ByteSize = 2 := rfl
    simp only [size, pieces, List.map_cons, total_cons, hopening]
    omega
  | _ => cases h

theorem Arises.isSafe {kind : SgrStyle → Prop} {caps : Capabilities} {f : Frame} {c : Command}
    (h : c.Arises kind caps f) : c.IsSafe := by
  cases h with
  | openLink _ huri => exact (Draft.safe_linkUri? huri).2
  | @text x y cell _ => exact cell.isSafe
  | _ => trivial

end Command

/-- A cursor that is unknown, or on the screen of a frame, or behind the last column of a row. -/
def Frame.Bounds (f : Frame) (cursor : Option (Nat × Nat)) : Prop :=
  ∀ p, cursor = some p → p.1 ≤ f.width ∧ p.2 < f.height

namespace Draft

/-- Where a draft sends the cursor, in order. -/
def targets (d : Draft) : List (Nat × Nat) := d.commands.toList.filterMap Command.target?

/-- All positions so far are cells of the frame, and the cursor is not beyond the place behind a
row. -/
structure StaysIn (f : Frame) (d : Draft) : Prop where
  targets : ∀ p ∈ d.targets, p.1 < f.width ∧ p.2 < f.height
  cursor : f.Bounds d.state.cursor

variable {caps : Capabilities} {f : Frame} {d start : Draft} {x y : Nat}

theorem targets_emit (d : Draft) (c : Command) :
    (d.emit c).targets = d.targets ++ c.target?.toList := by
  unfold targets emit
  rw [Array.toList_push, List.filterMap_append]
  cases htarget : c.target? <;> simp [htarget]

/-- A draft that sends the cursor somewhere has content. -/
theorem Grows.size_lt_of_targets {kind : SgrStyle → Prop} {n : Nat}
    (h : d.Grows kind caps f n start) (hstart : start.targets = []) (hd : d.targets ≠ []) :
    start.size < d.size := by
  obtain ⟨cs, hcs, hsize, -⟩ := h.added
  have htargets : cs.filterMap Command.target? ≠ [] := by
    unfold targets at hstart hd
    rwa [hcs, List.filterMap_append, hstart, List.nil_append] at hd
  obtain ⟨p, hp⟩ := List.exists_mem_of_ne_nil _ htargets
  obtain ⟨c, hc, hcp⟩ := List.mem_filterMap.mp hp
  have hpos := Command.size_pos_of_target? hcp
  obtain ⟨before, after, rfl⟩ := List.append_of_mem hc
  rw [List.map_append, List.map_cons, total_append, total_cons] at hsize
  omega

namespace StaysIn

theorem withStats (h : d.StaysIn f) (stats : RenderStats) : { d with stats }.StaysIn f :=
  ⟨h.targets, h.cursor⟩

/-- A command that does not move the cursor. -/
theorem emit (h : d.StaysIn f) {c : Command} (hc : c.target? = none) {st : TermState}
    (hst : st.cursor = d.state.cursor) : { d.emit c with state := st }.StaysIn f := by
  refine ⟨?_, hst ▸ h.cursor⟩
  intro p hp
  have hsame : Draft.targets { d.emit c with state := st } = d.targets := by
    change (d.emit c).targets = d.targets
    rw [targets_emit, hc, Option.toList_none, List.append_nil]
  exact h.targets p (hsame ▸ hp)

theorem moveTo (h : d.StaysIn f) (hx : x < f.width) (hy : y < f.height) :
    (d.moveTo x y).StaysIn f := by
  unfold Draft.moveTo
  split_ifs
  · exact h
  · refine ⟨?_, ?_⟩
    · intro p hp
      have hp' : p ∈ d.targets ++ [(x, y)] := targets_emit d (.cursorTo x y) ▸ hp
      rcases List.mem_append.mp hp' with hp | hp
      · exact h.targets p hp
      · obtain rfl := List.mem_singleton.mp hp
        exact ⟨hx, hy⟩
    · rintro p ⟨⟩
      exact ⟨hx.le, hy⟩

theorem select (h : d.StaysIn f) (s : SgrStyle) : (d.select s).StaysIn f := by
  unfold Draft.select
  cases d.state.style with
  | none => exact h.emit (c := .establish s) rfl rfl
  | some current =>
    dsimp only
    unfold Command.restyling
    split_ifs
    · exact ⟨h.targets, h.cursor⟩
    · exact h.emit (c := .adjustStyle _) rfl rfl
    · exact h.emit (c := .establish s) rfl rfl

theorem closeLink (h : d.StaysIn f) : d.closeLink.StaysIn f := by
  unfold Draft.closeLink
  split_ifs
  · exact h.emit (c := .closeLink) rfl rfl
  · exact h

theorem openLink (h : d.StaysIn f) (uri : Option String) : (d.openLink uri).StaysIn f := by
  rw [openLink_eq]
  split_ifs
  · exact h
  · cases uri with
    | none => exact h.closeLink
    | some u => exact h.closeLink.emit (c := .openLink u) rfl rfl

theorem aim (h : d.StaysIn f) (hx : x < f.width) (hy : y < f.height) (s : Style) :
    (d.aim caps f x y s).StaysIn f := by
  have hselected := (h.moveTo hx hy).select (caps.resolve s)
  unfold Draft.aim
  split_ifs
  · exact hselected.openLink _
  · exact hselected

/-- A glyph of a valid frame ends in its row. -/
theorem writeCell (h : d.StaysIn f) (hf : f.isValid = true) (x y : Nat) :
    (writeCell caps f y d x).StaysIn f := by
  cases hc : f.cell? x y with
  | none => simpa [Draft.writeCell, hc] using h
  | some c =>
    by_cases hw : c.width = 0
    · rw [writeCell_of_continuation hc hw]
      exact h
    · obtain ⟨hx, hy⟩ := Frame.lt_of_cell? hc
      have haim : (d.aim caps f x y c.style).StaysIn f := h.aim hx hy c.style
      have htext := haim.emit (c := .text c.glyph) rfl rfl
      rw [writeCell_of_some hc hw]
      refine ⟨htext.targets, ?_⟩
      rintro p ⟨⟩
      exact ⟨(Nat.min_le_left _ _).trans (Frame.add_width_le hf hc), hy⟩

theorem foldl {α : Type*} {g : Draft → α → Draft} (h : d.StaysIn f)
    (hg : ∀ d a, StaysIn f d → (g d a).StaysIn f) (as : List α) : (as.foldl g d).StaysIn f := by
  induction as generalizing d with
  | nil => exact h
  | cons a as ih => exact ih (hg d a h)

theorem writeSpan (h : d.StaysIn f) (hf : f.isValid = true) (y : Nat) (span : Nat × Nat) :
    (d.writeSpan caps f y span).StaysIn f :=
  (h.foldl (fun _ x hd => hd.writeCell hf x y) (List.range' span.1 (span.2 + 1 - span.1))).withStats
    _

theorem writeRow (h : d.StaysIn f) (hf : f.isValid = true) (y : Nat) (spans : List (Nat × Nat)) :
    (d.writeRow caps f y spans).StaysIn f := by
  have hspans : (spans.foldl (fun d span => d.writeSpan caps f y span) d).StaysIn f :=
    h.foldl (fun _ span hd => hd.writeSpan hf y span) spans
  unfold Draft.writeRow
  split_ifs
  · exact hspans
  · exact hspans.withStats _

theorem wholeRows (h : d.StaysIn f) (hf : f.isValid = true) (rows : List Nat) :
    (rows.foldl (Session.wholeRow caps f) d).StaysIn f :=
  h.foldl (fun _ y hd => hd.writeRow hf y [(0, f.width - 1)]) rows

theorem rewritten {c : Comparison} (h : d.StaysIn c.next) (hf : c.next.isValid = true)
    (rows : List Nat) : (d.rewritten caps c rows).StaysIn c.next :=
  h.foldl (fun _ y hd => hd.writeRow hf y (c.spans y)) rows

theorem shifted (h : d.StaysIn f) (hf : f.isValid = true) (plan : ScrollPlan) :
    (d.shifted caps f plan).StaysIn f := by
  apply wholeRows _ hf
  have hregion := h.emit (c := .scrollRegion plan.top plan.bottom) rfl rfl
  have hmove : Command.target?
      (if plan.up then .scrollUp plan.lines else .scrollDown plan.lines) = none := by
    cases plan.up <;> rfl
  have hreset := (hregion.emit hmove rfl).emit (c := .resetScrollRegion) rfl rfl
  exact ⟨hreset.targets, nofun⟩

theorem updated {c : Comparison} (h : d.StaysIn c.next) (hf : c.next.isValid = true)
    (scroll : Bool) : (d.updated caps scroll c).StaysIn c.next := by
  have hattempted : d.attempted.StaysIn c.next := h.withStats _
  unfold Draft.updated
  split_ifs
  · cases Session.scrollPlan? c (Session.dirtyRows c).length with
    | none => exact hattempted.rewritten hf _
    | some plan => exact (hattempted.shifted hf plan).rewritten hf _
  · exact h.rewritten hf _

/-- A full redraw forgets where the cursor was. -/
theorem redrawn (htargets : d.targets = []) (hf : f.isValid = true) :
    (d.redrawn caps f).StaysIn f := by
  apply wholeRows _ hf
  have hforgotten : StaysIn f { d with state := { d.state with cursor := none } } :=
    ⟨fun p hp => absurd (htargets ▸ hp) List.not_mem_nil, nofun⟩
  have hcleared := (hforgotten.emit (c := .resetStyle) rfl rfl).emit (c := .clearScreen) rfl rfl
  exact ⟨hcleared.targets, nofun⟩

theorem reshape (h : d.StaysIn f) (r : CursorRequest) : (d.reshape caps r).StaysIn f := by
  unfold Draft.reshape
  split_ifs
  · exact h.emit (c := .shapeCursor r.shape) rfl rfl
  · exact h

theorem reveal (h : d.StaysIn f) (r : CursorRequest) : (d.reveal r).StaysIn f := by
  have hcommand : Command.target? (if r.visible then .showCursor else .hideCursor) = none := by
    cases r.visible <;> rfl
  unfold Draft.reveal
  by_cases hknown : d.state.cursorVisible = some r.visible
  · rw [if_neg (not_not.mpr hknown)]
    exact h
  · rw [if_pos hknown]
    exact h.emit hcommand rfl

end StaysIn

end Draft

/-- A request keeps the column of a cursor behind the last column and asks for another row. -/
def CursorRequest.Overshoots (r : CursorRequest) (f : Frame) (cursor : Option (Nat × Nat)) : Prop :=
  r.x = -1 ∧ r.y ≠ -1 ∧
    ∃ y, cursor = some (f.width, y) ∧ Draft.clampAxis r.y f.height ≠ y

namespace Draft

/-- All positions are cells of the frame, except that the last one is behind a row if the draft
overshoots. -/
structure EndsIn (f : Frame) (overshoots : Prop) (d : Draft) : Prop where
  targets : ∃ inside outside, d.targets = inside ++ outside ∧
    (∀ p ∈ inside, p.1 < f.width ∧ p.2 < f.height) ∧
      (overshoots ∧ (∃ y < f.height, outside = [(f.width, y)]) ∨ ¬overshoots ∧ outside = [])
  cursor : f.Bounds d.state.cursor

variable {caps : Capabilities} {f : Frame} {d : Draft} {overshoots : Prop}

theorem StaysIn.endsIn (h : d.StaysIn f) (hnone : ¬overshoots) : d.EndsIn f overshoots :=
  ⟨⟨d.targets, [], by simp, h.targets, .inr ⟨hnone, rfl⟩⟩, h.cursor⟩

theorem EndsIn.closeLink (h : d.EndsIn f overshoots) : d.closeLink.EndsIn f overshoots := by
  have htargets : d.closeLink.targets = d.targets := by
    unfold Draft.closeLink
    split_ifs
    · exact (targets_emit d .closeLink).trans (List.append_nil _)
    · rfl
  have hcursor : d.closeLink.state.cursor = d.state.cursor := by
    unfold Draft.closeLink
    split_ifs <;> rfl
  exact ⟨htargets ▸ h.targets, hcursor ▸ h.cursor⟩

/-- Requested columns and rows are on the screen, and so are those of a known cursor, except that it
may be behind the last column. There it stays, unless the request asks for another row. -/
theorem StaysIn.asked (h : d.StaysIn f) (hw : f.width ≠ 0) (hh : f.height ≠ 0) (r : CursorRequest)
    (hkept : ¬r.Overshoots f d.state.cursor) :
    d.state.cursor = some (d.askedColumn f r, d.askedRow f r) ∨
      d.askedColumn f r < f.width ∧ d.askedRow f r < f.height := by
  have hcolumn := clampAxis_lt r.x hw
  have hrow := clampAxis_lt r.y hh
  unfold askedColumn askedRow
  cases hcursor : d.state.cursor with
  | none =>
    have hleft := Nat.pos_of_ne_zero hw
    have htop := Nat.pos_of_ne_zero hh
    right
    split_ifs
    all_goals exact ⟨by assumption, by assumption⟩
  | some p =>
    obtain ⟨x, y⟩ := p
    obtain ⟨hx, hy⟩ := h.cursor _ hcursor
    rw [Option.getD_some]
    by_cases hbehind : r.x = -1 ∧ x = f.width
    · obtain ⟨hkeeps, rfl⟩ := hbehind
      left
      rw [if_pos hkeeps]
      split_ifs with hstays
      · rfl
      · have hsame : clampAxis r.y f.height = y := by
          by_contra hne
          exact hkept ⟨hkeeps, hstays, y, hcursor, hne⟩
        rw [hsame]
    · right
      constructor
      · split_ifs with hkeeps
        · have hne : x ≠ f.width := fun hlast => hbehind ⟨hkeeps, hlast⟩
          exact lt_of_le_of_ne hx hne
        · exact hcolumn
      · split_ifs
        · exact hy
        · exact hrow

/-- A request that keeps the column behind the last one but not the row sends the cursor there,
every other request to a cell. -/
theorem StaysIn.place (h : d.StaysIn f) (hw : f.width ≠ 0) (hh : f.height ≠ 0)
    (r : CursorRequest) : (d.place f r).EndsIn f (r.Overshoots f d.state.cursor) := by
  unfold Draft.place
  by_cases hstay : r.x = -1 ∧ r.y = -1 ∧ d.state.cursor.isNone
  · rw [if_pos hstay]
    exact h.endsIn fun hover => hover.2.1 hstay.2.1
  · rw [if_neg hstay]
    by_cases hover : r.Overshoots f d.state.cursor
    · obtain ⟨hx, hy, y, hcursor, hne⟩ := hover
      have hrow := clampAxis_lt r.y hh
      have hcolumn : d.askedColumn f r = f.width := by
        rw [askedColumn, if_pos hx, hcursor, Option.getD_some]
      have haway : d.state.cursor ≠ some (f.width, clampAxis r.y f.height) := by
        rw [hcursor]
        rintro ⟨⟩
        exact hne rfl
      rw [hcolumn, askedRow, if_neg hy, Draft.moveTo, if_neg haway]
      refine ⟨⟨d.targets, [(f.width, clampAxis r.y f.height)], ?_, h.targets, ?_⟩, ?_⟩
      · exact targets_emit d (.cursorTo _ _)
      · exact .inl ⟨⟨hx, hy, y, hcursor, hne⟩, _, hrow, rfl⟩
      · rintro p ⟨⟩
        exact ⟨Nat.le_refl _, hrow⟩
    · apply StaysIn.endsIn _ hover
      rcases h.asked hw hh r hover with hthere | ⟨hcolumn, hrow⟩
      · rwa [Draft.moveTo, if_pos hthere]
      · exact h.moveTo hcolumn hrow

end Draft

namespace Session

variable {caps : Capabilities} {f : Frame} {s s' : Session} {cursor : Option CursorRequest}
variable {stats : RenderStats}

/-- The cursor request of a frame overshoots when the content is written. -/
def Overshoots (s : Session) (f : Frame) (caps : Capabilities) (cursor : Option CursorRequest) :
    Prop :=
  f.width ≠ 0 ∧ f.height ≠ 0 ∧
    ∃ r, cursor = some r ∧ r.Overshoots f (s.body f caps).state.cursor

/-- The tracked cursor is on the screen of the retained frame or behind one of its rows. A frame
without cells says nothing about the cursor. -/
def IsBounded (s : Session) : Prop :=
  ∀ p, s.previous = some p → p.width ≠ 0 → p.height ≠ 0 → p.Bounds s.state.cursor

theorem targets_opened (caps : Capabilities) (st : TermState) : (opened caps st).targets = [] := by
  unfold opened
  split_ifs <;> rfl

theorem staysIn_body (hs : s.IsBounded) (hf : f.isValid = true) (hw : f.width ≠ 0)
    (hh : f.height ≠ 0) : (s.body f caps).StaysIn f := by
  have hredrawn : ((opened caps s.state).redrawn caps f).StaysIn f :=
    .redrawn (targets_opened caps s.state) hf
  unfold body
  cases hp : s.previous with
  | none => exact hredrawn
  | some p =>
    dsimp only
    by_cases hsize : p.width = f.width ∧ p.height = f.height
    · have hbounds := hs p hp (hsize.1 ▸ hw) (hsize.2 ▸ hh)
      have hopened : (opened caps s.state).StaysIn f := by
        refine ⟨?_, ?_⟩
        · rw [targets_opened]
          exact nofun
        · rw [state_opened]
          rwa [Frame.Bounds, hsize.1, hsize.2] at hbounds
      rw [if_pos hsize]
      split_ifs
      · exact hopened
      · exact Draft.StaysIn.updated (c := .of p f) hopened hf _
    · rw [if_neg hsize]
      exact hredrawn

theorem endsIn_settled (hs : s.IsBounded) (hf : f.isValid = true) (hw : f.width ≠ 0)
    (hh : f.height ≠ 0) (cursor : Option CursorRequest) :
    (settled caps f cursor (s.body f caps)).EndsIn f (s.Overshoots f caps cursor) := by
  have hbody : (s.body f caps).StaysIn f := staysIn_body hs hf hw hh
  unfold settled
  apply Draft.EndsIn.closeLink
  cases cursor with
  | none => exact hbody.endsIn nofun
  | some r =>
    have hready : (((s.body f caps).reshape caps r).reveal r).StaysIn f :=
      (hbody.reshape r).reveal r
    have hcursor : (((s.body f caps).reshape caps r).reveal r).state.cursor =
        (s.body f caps).state.cursor := by
      unfold Draft.reveal Draft.reshape
      split_ifs <;> rfl
    have hover : s.Overshoots f caps (some r) ↔
        r.Overshoots f (((s.body f caps).reshape caps r).reveal r).state.cursor := by
      rw [hcursor]
      constructor
      · rintro ⟨-, -, r', ⟨⟩, hover⟩
        exact hover
      · exact fun hover => ⟨hw, hh, r, rfl, hover⟩
    dsimp only
    rw [Draft.applyCursor_eq, hover]
    exact hready.place hw hh r

/-- The end of a frame does not move the cursor, and a frame that does is not dropped. -/
theorem targets_closed (hs : s.IsSettled) (hw : f.width ≠ 0) (hh : f.height ≠ 0)
    (cursor : Option CursorRequest) :
    (closed caps (opened caps s.state) (settled caps f cursor (s.body f caps))).targets =
      (settled caps f cursor (s.body f caps)).targets := by
  have hgrows := grows_settled (fun _ => trivial) (hs.suits caps) hw hh cursor
  unfold closed
  split_ifs with hsame
  · by_contra htargets
    have hlt := hgrows.size_lt_of_targets (targets_opened caps s.state) (Ne.symm htargets)
    exact hlt.ne' hsame
  · exact (Draft.targets_emit _ .endUpdate).trans (List.append_nil _)
  · rfl

theorem safe_drafted (hs : s.IsSettled) (f : Frame) (caps : Capabilities)
    (cursor : Option CursorRequest) :
    ∀ c ∈ (s.drafted f caps cursor).commands.toList, c.IsSafe := by
  unfold drafted
  by_cases hempty : f.width = 0 ∨ f.height = 0
  · rw [if_pos hempty]
    exact fun c hc => absurd hc List.not_mem_nil
  · rw [if_neg hempty]
    obtain ⟨hw, hh⟩ := not_or.mp hempty
    have hgrows := grows_settled (fun _ => trivial) (hs.suits caps) hw hh cursor
    obtain ⟨cs, hcs, -, -, harises, -⟩ := hgrows.added
    have hopened : ∀ c ∈ (opened caps s.state).commands.toList, c.IsSafe := by
      unfold opened
      split_ifs
      · exact Draft.safe_emit (fun c hc => absurd hc List.not_mem_nil) trivial
      · exact fun c hc => absurd hc List.not_mem_nil
    have hsettled : ∀ c ∈ (settled caps f cursor (s.body f caps)).commands.toList, c.IsSafe := by
      rw [hcs]
      exact List.forall_mem_append.mpr ⟨hopened, fun c hc => (harises c hc).isSafe⟩
    dsimp only
    unfold closed
    split_ifs
    · exact fun c hc => absurd hc List.not_mem_nil
    · exact Draft.safe_emit hsettled trivial
    · exact hsettled

theorem endsIn_drafted (hs : s.IsSettled) (hbounded : s.IsBounded) (hf : f.isValid = true)
    (hw : f.width ≠ 0) (hh : f.height ≠ 0) (cursor : Option CursorRequest) :
    (s.drafted f caps cursor).EndsIn f (s.Overshoots f caps cursor) := by
  have hsettled : (settled caps f cursor (s.body f caps)).EndsIn f (s.Overshoots f caps cursor) :=
    endsIn_settled hbounded hf hw hh cursor
  rw [drafted, if_neg (not_or.mpr ⟨hw, hh⟩)]
  refine ⟨?_, ?_⟩
  · change ∃ inside outside, (closed _ _ _).targets = _ ∧ _
    rw [targets_closed hs hw hh cursor]
    exact hsettled.targets
  · dsimp only
    rw [state_closed]
    exact hsettled.cursor

end Session

/-- A render of a valid frame, or a call without one. -/
def SessionCall.IsValid : SessionCall → Prop
  | .render f _ _ => f.isValid = true
  | _ => True

namespace Session

variable {caps : Capabilities} {f : Frame} {s s' : Session} {cursor : Option CursorRequest}
variable {stats : RenderStats}

theorem isBounded_start (options : RenderOptions) (output : Output) :
    (start options output).IsBounded := by
  rintro p ⟨⟩

theorem IsBounded.after (h : s.IsBounded) (hs : s.IsSettled) {call : SessionCall}
    (hcall : call.IsValid) : (s.after call).IsBounded := by
  cases call with
  | forceRedraw => exact nofun
  | deliver output => exact h
  | render f caps cursor =>
    unfold Session.after
    dsimp only
    cases hok : s.render f caps cursor with
    | error failure => exact h
    | ok result =>
      obtain ⟨d, hd, hprevious, hstate, -⟩ := render_ok hok
      obtain rfl := draft_ok hd
      intro (p : Frame) hp hw hh
      obtain rfl : f = p := Option.some.inj (hprevious.symm.trans hp)
      exact hstate ▸ (endsIn_drafted hs h hcall hw hh cursor).cursor

theorem IsBounded.run (h : s.IsBounded) (hs : s.IsSettled) {calls : List SessionCall}
    (hcalls : ∀ call ∈ calls, call.IsValid) : (s.run calls).IsBounded := by
  induction calls generalizing s with
  | nil => exact h
  | cons call calls ih =>
    have hafter := h.after hs (hcalls call List.mem_cons_self)
    exact ih hafter (hs.after call) fun c hc => hcalls c (List.mem_cons_of_mem call hc)

/-- What a draft says about where the cursor goes, said about its text. -/
theorem addresses_drafted (hs : s.IsSettled) (hbounded : s.IsBounded) (hf : f.isValid = true)
    (caps : Capabilities) (cursor : Option CursorRequest) :
    ∃ inside outside,
      addresses (Command.encodeAll (s.drafted f caps cursor).commands.toList).toList =
          inside ++ outside ∧
        (∀ p ∈ inside, f.HasAddress p) ∧
          (s.Overshoots f caps cursor ∧
              (∃ row, 1 ≤ row ∧ row ≤ f.height ∧ outside = [(row, f.width + 1)]) ∨
            ¬s.Overshoots f caps cursor ∧ outside = []) := by
  have haddresses : addresses (Command.encodeAll (s.drafted f caps cursor).commands.toList).toList =
      (s.drafted f caps cursor).targets.map Command.address :=
    Command.addresses_encodeAll (safe_drafted hs f caps cursor)
  by_cases hempty : f.width = 0 ∨ f.height = 0
  · have hnone : (s.drafted f caps cursor).targets = [] := by
      rw [drafted, if_pos hempty]
      rfl
    rw [hnone] at haddresses
    refine ⟨[], [], haddresses, List.forall_mem_nil _, .inr ⟨?_, rfl⟩⟩
    rintro ⟨hw, hh, -⟩
    exact hempty.elim hw hh
  · obtain ⟨hw, hh⟩ := not_or.mp hempty
    have hends : (s.drafted f caps cursor).EndsIn f (s.Overshoots f caps cursor) :=
      endsIn_drafted hs hbounded hf hw hh cursor
    obtain ⟨inside, outside, htargets, hinside, hend⟩ := hends.targets
    rw [htargets, List.map_append] at haddresses
    refine ⟨inside.map Command.address, outside.map Command.address, haddresses, ?_, ?_⟩
    · intro p hp
      obtain ⟨q, hq, rfl⟩ := List.mem_map.mp hp
      obtain ⟨hx, hy⟩ := hinside q hq
      exact ⟨Nat.succ_pos _, hy, Nat.succ_pos _, hx⟩
    · refine hend.imp ?_ ?_
      · rintro ⟨hover, y, hy, rfl⟩
        exact ⟨hover, y + 1, Nat.succ_pos _, hy, rfl⟩
      · rintro ⟨hover, rfl⟩
        exact ⟨hover, rfl⟩

/-- After any calls with valid frames, a render of a valid frame sends the cursor to cells of the
frame only, unless the cursor is behind the last column when the content is written and the request
keeps that column but not the row. Then one more address follows, which is behind a row. -/
theorem render_addresses (options : RenderOptions) (output : Output)
    {calls : List SessionCall} (validCalls : ∀ call ∈ calls, call.IsValid)
    (valid : f.isValid = true)
    (renders : ((start options output).run calls).render f caps cursor = .ok (s', stats)) :
    ∃ (text : String) (inside outside : List (Nat × Nat)),
      ((start options output).run calls).appended s' = text.toUTF8 ∧
        addresses text.toList = inside ++ outside ∧ (∀ p ∈ inside, f.HasAddress p) ∧
          (((start options output).run calls).Overshoots f caps cursor ∧
              (∃ row, 1 ≤ row ∧ row ≤ f.height ∧ outside = [(row, f.width + 1)]) ∨
            ¬((start options output).run calls).Overshoots f caps cursor ∧ outside = []) := by
  have hsettled := (isSettled_start options output).run calls
  have hbounded := (isBounded_start options output).run (isSettled_start options output) validCalls
  obtain ⟨d, hd, -, -, -, happended⟩ := render_ok renders
  obtain rfl := draft_ok hd
  obtain ⟨inside, outside, hspec⟩ := addresses_drafted hsettled hbounded valid caps cursor
  exact ⟨_, inside, outside, happended, hspec⟩

/-- Two rows of two spaces are shown. The cursor is behind the second row then. -/
def squareCalls : List SessionCall := [.render (.blank 2 2) {} none]

/-- The current column of the first row. -/
def firstRow : CursorRequest := { y := 0 }

theorem valid_squareCalls : ∀ call ∈ squareCalls, call.IsValid := by
  intro call hcall
  obtain rfl := List.mem_singleton.mp hcall
  exact (by decide +kernel : (Frame.blank 2 2).isValid = true)

/-- The text of a render that asks for the first row. -/
def firstRowText : String := "\x1b[?2026h\x1b[0 q\x1b[?25h\x1b[1;3H\x1b[?2026l"

theorem exists_render_firstRow :
    ∃ s' stats,
      ((start {} .unbounded).run squareCalls).render (.blank 2 2) {} (some firstRow) =
          .ok (s', stats) ∧
        ((start {} .unbounded).run squareCalls).appended s' = firstRowText.toUTF8 := by
  have happends : (((start {} .unbounded).run squareCalls).render (.blank 2 2) {}
      (some firstRow)).toOption.any (fun r =>
        ((start {} .unbounded).run squareCalls).appended r.1 = firstRowText.toUTF8) = true := by
    decide +kernel
  cases hrender : ((start {} .unbounded).run squareCalls).render (.blank 2 2) {}
      (some firstRow) with
  | error failure =>
    rw [hrender] at happends
    cases happends
  | ok r =>
    rw [hrender] at happends
    exact ⟨r.1, r.2, rfl, of_decide_eq_true happends⟩

theorem render_addresses_first_row :
    ∃ (s' : Session) (stats : RenderStats),
      ((start {} .unbounded).run squareCalls).render (.blank 2 2) {} (some firstRow) =
          .ok (s', stats) ∧
        ∃ (text : String) (inside outside : List (Nat × Nat)),
          ((start {} .unbounded).run squareCalls).appended s' = text.toUTF8 ∧
            addresses text.toList = inside ++ outside ∧
              (∀ p ∈ inside, (Frame.blank 2 2).HasAddress p) ∧
                (((start {} .unbounded).run squareCalls).Overshoots (.blank 2 2) {}
                      (some firstRow) ∧
                    (∃ row, 1 ≤ row ∧ row ≤ 2 ∧ outside = [(row, 3)]) ∨
                  ¬((start {} .unbounded).run squareCalls).Overshoots (.blank 2 2) {}
                      (some firstRow) ∧ outside = []) := by
  obtain ⟨s', stats, hrender, -⟩ := exists_render_firstRow
  exact ⟨s', stats, hrender,
    render_addresses {} .unbounded valid_squareCalls (by decide +kernel) hrender⟩

/-- The cursor is sent behind the first row of a frame with two columns. -/
theorem render_addresses_behind_row :
    ∃ (s' : Session) (stats : RenderStats) (text : String),
      ((start {} .unbounded).run squareCalls).render (.blank 2 2) {} (some firstRow) =
          .ok (s', stats) ∧
        ((start {} .unbounded).run squareCalls).appended s' = text.toUTF8 ∧
          (1, 3) ∈ addresses text.toList ∧ ¬(Frame.blank 2 2).HasAddress (1, 3) := by
  obtain ⟨s', stats, hrender, happends⟩ := exists_render_firstRow
  exact ⟨s', stats, firstRowText, hrender, happends, by decide +kernel, by decide +kernel⟩

end Session

end CellCanvas
