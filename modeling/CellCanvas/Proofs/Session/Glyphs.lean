import CellCanvas.Proofs.Session.Unbounded

/-!
# The texts of a draft

Among the commands of a draft only those that write cells carry text, one for each cell that is not
the right half of a wide glyph. So the texts of an update that does not scroll are the glyphs of its
spans, row by row.
-/

namespace CellCanvas

/-- The text of a command, if it is one. -/
def Command.text? : Command → Option String
  | text glyph => some glyph
  | _ => none

theorem Command.text?_of_mem_restyling {a b : SgrStyle} {c : Command} (h : c ∈ restyling a b) :
    c.text? = none := by
  unfold restyling at h
  split_ifs at h
  · cases h
  · rw [List.mem_singleton.mp h]
    rfl
  · rw [List.mem_singleton.mp h]
    rfl

/-- What is written for a place: the glyph of the cell, unless that is a right half. -/
def Frame.glyphAt (f : Frame) (y x : Nat) : List String :=
  match f.cell? x y with
  | none => []
  | some c => if c.isContinuation then [] else [c.glyph]

/-- The glyphs of the spans of some rows, in the order in which they are written. -/
def Comparison.glyphs (c : Comparison) (rows : List Nat) : List String :=
  rows.flatMap fun y => (columnsOf (c.spans y)).flatMap (c.next.glyphAt y)

namespace Draft

/-- The texts of a draft. -/
def texts (d : Draft) : List String := d.commands.toList.filterMap Command.text?

variable {caps : Capabilities} {f : Frame} {d : Draft}

theorem texts_emit (d : Draft) (c : Command) : (d.emit c).texts = d.texts ++ c.text?.toList := by
  unfold texts emit
  rw [Array.toList_push, List.filterMap_append]
  cases h : c.text? <;> simp [h]

theorem texts_emitAll {cs : List Command} (h : ∀ c ∈ cs, c.text? = none) :
    (d.emitAll cs).texts = d.texts := by
  unfold emitAll
  induction cs generalizing d with
  | nil => rfl
  | cons c cs ih =>
    obtain ⟨hc, hcs⟩ := List.forall_mem_cons.mp h
    rw [List.foldl_cons, ih hcs, texts_emit, hc]
    exact List.append_nil _

/-- A command without text adds none. -/
theorem texts_emit_of_none {c : Command} (h : c.text? = none) : (d.emit c).texts = d.texts :=
  texts_emitAll (List.forall_mem_singleton.mpr h)

theorem texts_moveTo (d : Draft) (x y : Nat) : (d.moveTo x y).texts = d.texts := by
  unfold moveTo
  split_ifs
  · rfl
  · exact texts_emit_of_none (c := .cursorTo x y) rfl

theorem texts_select (d : Draft) (s : SgrStyle) : (d.select s).texts = d.texts := by
  unfold select
  cases d.state.style with
  | none => exact texts_emit_of_none (c := .establish s) rfl
  | some current => exact texts_emitAll fun _ => Command.text?_of_mem_restyling

theorem texts_closeLink (d : Draft) : d.closeLink.texts = d.texts := by
  unfold closeLink
  split_ifs
  · exact texts_emit_of_none (c := .closeLink) rfl
  · rfl

theorem texts_openLink (d : Draft) (uri : Option String) : (d.openLink uri).texts = d.texts := by
  rw [openLink_eq]
  split_ifs
  · rfl
  · cases uri with
    | none => exact texts_closeLink d
    | some u => exact (texts_emit_of_none (c := .openLink u) rfl).trans (texts_closeLink d)

theorem texts_aim (d : Draft) (x y : Nat) (s : Style) : (d.aim caps f x y s).texts = d.texts := by
  unfold aim
  split_ifs
  · exact (texts_openLink _ _).trans ((texts_select _ _).trans (texts_moveTo _ _ _))
  · exact (texts_select _ _).trans (texts_moveTo _ _ _)

theorem texts_writeCell (d : Draft) (x y : Nat) :
    (writeCell caps f y d x).texts = d.texts ++ f.glyphAt y x := by
  unfold Frame.glyphAt
  cases hc : f.cell? x y with
  | none =>
    simp only [writeCell, hc]
    exact (List.append_nil _).symm
  | some c =>
    dsimp only
    by_cases hw : c.width = 0
    · rw [writeCell_of_continuation hc hw, if_pos (by simpa [Cell.isContinuation] using hw)]
      exact (List.append_nil _).symm
    · rw [writeCell_of_some hc hw, if_neg (by simpa [Cell.isContinuation] using hw)]
      change ((d.aim caps f x y c.style).emit (.text c.glyph)).texts = _
      rw [texts_emit, texts_aim]
      rfl

/-- A loop adds what its rounds add. -/
theorem texts_foldl {α : Type} {g : Draft → α → Draft} {added : α → List String}
    (h : ∀ d a, (g d a).texts = d.texts ++ added a) (as : List α) (d : Draft) :
    (as.foldl g d).texts = d.texts ++ as.flatMap added := by
  induction as generalizing d with
  | nil => exact (List.append_nil _).symm
  | cons a as ih => rw [List.foldl_cons, ih, h, List.flatMap_cons, List.append_assoc]

theorem texts_writeRow (d : Draft) (y : Nat) (spans : List (Nat × Nat)) :
    (d.writeRow caps f y spans).texts = d.texts ++ (columnsOf spans).flatMap (f.glyphAt y) := by
  have hspan (d : Draft) (span : Nat × Nat) : (d.writeSpan caps f y span).texts =
      d.texts ++ (List.range' span.1 (span.2 + 1 - span.1)).flatMap (f.glyphAt y) :=
    texts_foldl (fun d x => texts_writeCell d x y) _ d
  have hspans : (spans.foldl (fun d span => d.writeSpan caps f y span) d).texts =
      d.texts ++ (columnsOf spans).flatMap (f.glyphAt y) := by
    rw [texts_foldl hspan, columnsOf, List.flatMap_assoc]
  unfold writeRow
  split_ifs
  · exact hspans
  · exact hspans

theorem texts_rewritten (d : Draft) (c : Comparison) (rows : List Nat) :
    (d.rewritten caps c rows).texts = d.texts ++ c.glyphs rows :=
  texts_foldl (fun d y => texts_writeRow d y (c.spans y)) rows d

theorem texts_applyCursor (d : Draft) (r : CursorRequest) :
    (d.applyCursor caps f r).texts = d.texts := by
  have hreshape : (d.reshape caps r).texts = d.texts := by
    unfold reshape
    split_ifs
    · exact texts_emit_of_none (c := .shapeCursor r.shape) rfl
    · rfl
  have hreveal (d : Draft) : (d.reveal r).texts = d.texts := by
    have hnone : (if r.visible then Command.showCursor else .hideCursor).text? = none := by
      split_ifs <;> rfl
    unfold reveal
    by_cases hknown : d.state.cursorVisible = some r.visible
    · rw [if_neg (not_not.mpr hknown)]
    · rw [if_pos hknown]
      exact texts_emit_of_none hnone
  have hplace (d : Draft) : (d.place f r).texts = d.texts := by
    unfold place
    by_cases hstay : r.x = -1 ∧ r.y = -1 ∧ d.state.cursor.isNone
    · rw [if_pos hstay]
    · rw [if_neg hstay]
      exact texts_moveTo d _ _
  rw [applyCursor_eq]
  exact (hplace _).trans ((hreveal _).trans hreshape)

end Draft

namespace Session

variable {s : Session} {p f : Frame} {caps : Capabilities} {cursor : Option CursorRequest}

theorem texts_opened (caps : Capabilities) (st : TermState) : (opened caps st).texts = [] := by
  unfold opened
  split_ifs <;> rfl

theorem texts_settled (d : Draft) : (settled caps f cursor d).texts = d.texts := by
  unfold settled
  rw [Draft.texts_closeLink]
  cases cursor with
  | none => rfl
  | some r => exact d.texts_applyCursor r

/-- The end of a frame adds no text, and drops none from a draft that has grown. -/
theorem texts_closed {start d : Draft} (h : d.texts = [] ∨ d.size ≠ start.size) :
    (closed caps start d).texts = d.texts := by
  unfold closed
  split_ifs with hsize
  · rw [h.resolve_right (not_not.mpr hsize)]
    rfl
  · exact Draft.texts_emit_of_none (c := .endUpdate) rfl
  · rfl

end Session

end CellCanvas
