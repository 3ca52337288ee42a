import CellCanvas.Proofs.Scroll
import CellCanvas.Proofs.Session.Comparison

/-!
# What drafts are made of

A draft grows by a few kinds of commands, each with something of the frame or of the capabilities in
it, and every operation adds at most a known number of them. Links are opened and closed in turn,
and the cursor never moves while a scroll region is set. None of this depends on a terminal, nor on
the frame being valid.
-/

namespace CellCanvas

open Wire

/-- The position of a character in the grammar of a frame: whether a link is open, and whether a
scroll region is set. -/
structure Phase where
  isLinked : Bool
  isConfined : Bool
deriving DecidableEq

namespace Phase

/-- No link is open, and no scroll region is set. -/
def rest : Phase := ⟨false, false⟩

/-- Read a token. A link is opened when none is open and closed when one is; the cursor is not moved
while a scroll region is set. -/
def read (p : Phase) : Token → Option Phase
  | .string ']' ('8' :: ';' :: ';' :: uri) =>
    if p.isLinked = uri.isEmpty then some { p with isLinked := !uri.isEmpty } else none
  | .control ps 'r' =>
    if p.isConfined = ps.isEmpty then some { p with isConfined := !ps.isEmpty } else none
  | .control _ 'H' => if p.isConfined then none else some p
  | _ => some p

/-- Read tokens in order. -/
def readAll (p : Phase) (ts : List Token) : Option Phase := ts.foldlM read p

theorem readAll_append (p : Phase) (ts us : List Token) :
    p.readAll (ts ++ us) = (p.readAll ts).bind fun q => q.readAll us :=
  List.foldlM_append

/-- Text changes nothing. -/
theorem readAll_shown (p : Phase) (cs : List Char) : p.readAll (cs.map .shown) = some p := by
  induction cs with
  | nil => rfl
  | cons c cs ih => exact ih

end Phase

theorem Frame.mem_links_of_linkUri? {f : Frame} {id : Nat} {uri : String}
    (h : f.linkUri? id = some uri) : uri ∈ f.links := by
  cases id with
  | zero => cases h
  | succ n =>
    obtain ⟨hn, rfl⟩ := Array.getElem?_eq_some_iff.mp h
    exact Array.getElem_mem hn

/-- What is tracked between operations: styles of a certain kind, no link without support for links,
and a position within the largest screen. -/
structure TermState.Suits (kind : SgrStyle → Prop) (caps : Capabilities) (st : TermState) :
    Prop where
  style : ∀ s, st.style = some s → kind s
  link : caps.hyperlinks = false → st.link = none
  cursor : ∀ x y, st.cursor = some (x, y) → x < sideBound ∧ y < sideBound

theorem TermState.Suits.moved {kind : SgrStyle → Prop} {caps : Capabilities} {st : TermState}
    (h : st.Suits kind caps) {x y : Nat} (hx : x < sideBound) (hy : y < sideBound) :
    { st with cursor := some (x, y) }.Suits kind caps := by
  refine ⟨h.style, h.link, ?_⟩
  intro x' y' hxy
  cases hxy
  exact ⟨hx, hy⟩

/-- The commands of a frame between its start and its end, when the tracked styles are of a certain
kind. -/
inductive Command.Arises (kind : SgrStyle → Prop) (caps : Capabilities) (f : Frame) :
    Command → Prop
  | cursorTo {x y : Nat} : x < sideBound → y < sideBound → Arises kind caps f (.cursorTo x y)
  | establish (s : Style) : Arises kind caps f (.establish (caps.resolve s))
  | adjust {a : SgrStyle} (s : Style) :
      kind a → Arises kind caps f (.adjustStyle (a.changes (caps.resolve s)))
  | openLink {id : Nat} {uri : String} :
      caps.hyperlinks = true → f.linkUri? id = some uri → Arises kind caps f (.openLink uri)
  | closeLink : caps.hyperlinks = true → Arises kind caps f .closeLink
  | text {x y : Nat} {c : Cell} : f.cell? x y = some c → Arises kind caps f (.text c.glyph)
  | shapeCursor (k : CursorShape) : caps.cursorShape = true → Arises kind caps f (.shapeCursor k)
  | showCursor : Arises kind caps f .showCursor
  | hideCursor : Arises kind caps f .hideCursor
  | resetStyle : Arises kind caps f .resetStyle
  | clearScreen : Arises kind caps f .clearScreen
  | scrollRegion {top bottom : Nat} : caps.scrollRegion = true → top < sideBound →
      bottom < sideBound → Arises kind caps f (.scrollRegion top bottom)
  | resetScrollRegion : caps.scrollRegion = true → Arises kind caps f .resetScrollRegion
  | scrollUp {lines : Nat} :
      caps.scrollRegion = true → lines < sideBound → Arises kind caps f (.scrollUp lines)
  | scrollDown {lines : Nat} :
      caps.scrollRegion = true → lines < sideBound → Arises kind caps f (.scrollDown lines)

namespace Draft

/-- Between operations no scroll region is set. -/
def phase (d : Draft) : Phase := ⟨d.state.link.isSome, false⟩

/-- A draft is an earlier one with at most `n` more commands. -/
structure Grows (kind : SgrStyle → Prop) (caps : Capabilities) (f : Frame) (n : Nat)
    (d start : Draft) : Prop where
  added : ∃ cs, d.commands.toList = start.commands.toList ++ cs ∧
    d.size = start.size + total (cs.map Command.size) ∧ cs.length ≤ n ∧
      (∀ c ∈ cs, c.Arises kind caps f) ∧
        start.phase.readAll (cs.flatMap Command.tokens) = some d.phase
  suits : d.state.Suits kind caps

namespace Grows

variable {kind : SgrStyle → Prop} {caps : Capabilities} {f : Frame} {n m x y : Nat}
variable {d d' start : Draft}

theorem refl (h : d.state.Suits kind caps) : d.Grows kind caps f 0 d :=
  ⟨⟨[], by simp, rfl, Nat.le_refl 0, by simp, rfl⟩, h⟩

theorem mono (h : d.Grows kind caps f n start) (hnm : n ≤ m) : d.Grows kind caps f m start := by
  obtain ⟨cs, hcs, hsize, hlength, hrest⟩ := h.added
  exact ⟨⟨cs, hcs, hsize, hlength.trans hnm, hrest⟩, h.suits⟩

theorem size_le (h : d.Grows kind caps f n start) : start.size ≤ d.size := by
  obtain ⟨cs, -, hsize, -⟩ := h.added
  omega

/-- More commands, with the terminal state after them. -/
theorem emitAll (h : d.Grows kind caps f n start) (cs : List Command) (hm : cs.length ≤ m)
    (harises : ∀ c ∈ cs, c.Arises kind caps f) {st : TermState} (hst : st.Suits kind caps)
    (hread : d.phase.readAll (cs.flatMap Command.tokens) = some ⟨st.link.isSome, false⟩) :
    { d.emitAll cs with state := st }.Grows kind caps f (n + m) start := by
  have hemit : (d.emitAll cs).commands.toList = d.commands.toList ++ cs ∧
      (d.emitAll cs).size = d.size + total (cs.map Command.size) := by
    unfold Draft.emitAll
    clear h hm harises hread
    induction cs generalizing d with
    | nil => simp
    | cons c cs ih =>
      obtain ⟨hcommands, hsize⟩ := ih (d := d.emit c)
      rw [List.foldl_cons, hcommands, hsize]
      constructor
      · simp [Draft.emit]
      · simp only [Draft.emit, List.map_cons, total_cons]
        omega
  obtain ⟨bs, hbs, hsize, hlength, harises', hread'⟩ := h.added
  refine ⟨⟨bs ++ cs, ?_, ?_, ?_, ?_, ?_⟩, hst⟩
  · exact hemit.1.trans (by rw [hbs, List.append_assoc])
  · refine hemit.2.trans ?_
    rw [hsize, List.map_append, total_append]
    omega
  · rw [List.length_append]
    omega
  · intro c hc
    rcases List.mem_append.mp hc with hc | hc
    · exact harises' c hc
    · exact harises c hc
  · rw [List.flatMap_append, Phase.readAll_append, hread', Option.bind_some, hread]
    rfl

/-- One more command. -/
theorem emit (h : d.Grows kind caps f n start) {c : Command} (hc : c.Arises kind caps f)
    {st : TermState} (hst : st.Suits kind caps)
    (hread : d.phase.readAll c.tokens = some ⟨st.link.isSome, false⟩) :
    { d.emit c with state := st }.Grows kind caps f (n + 1) start := by
  apply h.emitAll [c] (Nat.le_refl 1) _ hst
  · rwa [List.flatMap_singleton]
  · intro c' hc'
    obtain rfl := List.mem_singleton.mp hc'
    exact hc

/-- Statistics are not sent. -/
theorem withStats (h : d.Grows kind caps f n start) (stats : RenderStats) :
    { d with stats }.Grows kind caps f n start :=
  ⟨h.added, h.suits⟩

theorem moveTo (h : d.Grows kind caps f n start) (hx : x < sideBound) (hy : y < sideBound) :
    (d.moveTo x y).Grows kind caps f (n + 1) start := by
  unfold Draft.moveTo
  split_ifs
  · exact h.mono (Nat.le_succ n)
  · exact h.emit (c := .cursorTo x y) (.cursorTo hx hy) (h.suits.moved hx hy) rfl

theorem select (h : d.Grows kind caps f n start) (hkind : ∀ s, kind (caps.resolve s)) (s : Style) :
    (d.select (caps.resolve s)).Grows kind caps f (n + 1) start := by
  have hst : { d.state with style := some (caps.resolve s) }.Suits kind caps := by
    refine ⟨?_, h.suits.link, h.suits.cursor⟩
    intro s' hs'
    cases hs'
    exact hkind s
  unfold Draft.select
  cases hstyle : d.state.style with
  | none => exact h.emit (c := .establish (caps.resolve s)) (.establish s) hst rfl
  | some current =>
    dsimp only
    unfold Command.restyling
    by_cases hsame : current = caps.resolve s
    · rw [if_pos hsame]
      exact ⟨(h.mono (Nat.le_succ n)).added, hst⟩
    · rw [if_neg hsame]
      by_cases hadds : current.onlyAdds (caps.resolve s) = true
      · rw [if_pos hadds]
        exact h.emit (.adjust s (h.suits.style current hstyle)) hst rfl
      · rw [if_neg hadds]
        exact h.emit (c := .establish (caps.resolve s)) (.establish s) hst rfl

theorem closeLink (h : d.Grows kind caps f n start) :
    d.closeLink.Grows kind caps f (n + 1) start := by
  unfold Draft.closeLink
  by_cases hopen : d.state.link.isSome = true
  · rw [if_pos hopen]
    have hlinks : caps.hyperlinks = true := by
      by_contra hnone
      rw [h.suits.link (by simpa using hnone)] at hopen
      cases hopen
    have hst : { d.state with link := none }.Suits kind caps :=
      ⟨h.suits.style, fun _ => rfl, h.suits.cursor⟩
    apply h.emit (.closeLink hlinks) hst
    rw [Draft.phase, hopen]
    rfl
  · rw [if_neg hopen]
    exact h.mono (Nat.le_succ n)

theorem link_closeLink (d : Draft) : d.closeLink.state.link = none := by
  unfold Draft.closeLink
  split_ifs with hopen
  · rfl
  · simpa using hopen

theorem openLink (h : d.Grows kind caps f n start) (hlinks : caps.hyperlinks = true) (id : Nat) :
    (d.openLink (f.linkUri? id)).Grows kind caps f (n + 2) start := by
  have hlink (st : TermState) (uri : Option String) (hst : st.Suits kind caps) :
      { st with link := uri }.Suits kind caps := by
    refine ⟨hst.style, ?_, hst.cursor⟩
    intro hnone
    rw [hlinks] at hnone
    cases hnone
  rw [openLink_eq]
  split_ifs
  · exact h.mono (by omega)
  · cases huri : f.linkUri? id with
    | none => exact h.closeLink.mono (by omega)
    | some uri =>
      have hsafe := (safe_linkUri? huri).1
      have hchars : uri.toList.isEmpty = false := by
        simpa [List.isEmpty_iff] using hsafe
      apply h.closeLink.emit (.openLink hlinks huri) (hlink _ _ h.closeLink.suits)
      rw [Draft.phase, link_closeLink]
      simp [Phase.readAll, Phase.read, Command.tokens, hchars]

theorem aim (h : d.Grows kind caps f n start) (hkind : ∀ s, kind (caps.resolve s))
    (hx : x < sideBound) (hy : y < sideBound) (s : Style) :
    (d.aim caps f x y s).Grows kind caps f (n + 4) start := by
  have hselected := (h.moveTo hx hy).select hkind s
  unfold Draft.aim
  split_ifs with hlinks
  · exact hselected.openLink hlinks s.link
  · exact hselected.mono (by omega)

theorem writeCell (h : d.Grows kind caps f n start) (hkind : ∀ s, kind (caps.resolve s))
    (x y : Nat) : (writeCell caps f y d x).Grows kind caps f (n + 5) start := by
  cases hc : f.cell? x y with
  | none =>
    rw [show Draft.writeCell caps f y d x = d by simp only [Draft.writeCell, hc]]
    exact h.mono (by omega)
  | some c =>
    by_cases hw : c.width = 0
    · rw [writeCell_of_continuation hc hw]
      exact h.mono (by omega)
    · obtain ⟨hx, hy⟩ := Frame.lt_of_cell? hc
      have hx' := hx.trans f.width_lt
      have hy' := hy.trans f.height_lt
      have hbound : min (x + c.width) lastColumn < sideBound := by
        simp only [lastColumn, sideBound]
        omega
      have haim := h.aim hkind hx' hy' c.style
      rw [writeCell_of_some hc hw]
      apply haim.emit (.text hc) (haim.suits.moved hbound hy')
      exact Phase.readAll_shown _ _

theorem foldl {α : Type*} {g : Draft → α → Draft} (as : List α) (h : d.Grows kind caps f n start)
    (hg : ∀ d n, ∀ a ∈ as, Grows kind caps f n d start → (g d a).Grows kind caps f (n + m) start) :
    (as.foldl g d).Grows kind caps f (n + m * as.length) start := by
  induction as generalizing d n with
  | nil => exact h
  | cons a as ih =>
    have hrest := ih (hg d n a List.mem_cons_self h)
      fun d n b hb hd => hg d n b (List.mem_cons_of_mem a hb) hd
    rw [List.length_cons, Nat.mul_succ, Nat.add_comm (m * as.length), ← Nat.add_assoc]
    exact hrest

/-- A span has five commands a column at most. -/
theorem writeSpan (h : d.Grows kind caps f n start) (hkind : ∀ s, kind (caps.resolve s)) (y : Nat)
    (span : Nat × Nat) :
    (d.writeSpan caps f y span).Grows kind caps f (n + 5 * (span.2 + 1 - span.1)) start := by
  have hcells := h.foldl (List.range' span.1 (span.2 + 1 - span.1))
    fun _ _ x _ hd => hd.writeCell hkind x y
  rw [List.length_range'] at hcells
  exact hcells.withStats _

theorem writeRow (h : d.Grows kind caps f n start) (hkind : ∀ s, kind (caps.resolve s)) (y : Nat)
    (spans : List (Nat × Nat)) :
    (d.writeRow caps f y spans).Grows kind caps f (n + 5 * (columnsOf spans).length) start := by
  have hspans : (spans.foldl (fun d span => d.writeSpan caps f y span) d).Grows kind caps f
      (n + 5 * (columnsOf spans).length) start := by
    induction spans generalizing d n with
    | nil => exact h
    | cons span spans ih =>
      have hrest := ih (h.writeSpan hkind y span)
      rw [columnsOf_cons, List.length_append, List.length_range', Nat.mul_add, ← Nat.add_assoc]
      exact hrest
  unfold Draft.writeRow
  split_ifs
  · exact hspans
  · exact hspans.withStats _

theorem wholeRow (h : d.Grows kind caps f n start) (hkind : ∀ s, kind (caps.resolve s)) (y : Nat) :
    (Session.wholeRow caps f d y).Grows kind caps f (n + 5 * sideBound) start := by
  have hrow := h.writeRow hkind y [(0, f.width - 1)]
  have hwidth := f.width_lt
  have hlength : (columnsOf [(0, f.width - 1)]).length = f.width - 1 + 1 := by simp [columnsOf]
  apply hrow.mono
  rw [hlength]
  simp only [sideBound] at hwidth ⊢
  omega

theorem wiped (h : d.Grows kind caps f n start) : d.wiped.Grows kind caps f (n + 2) start := by
  have hst : { d.state with style := none, cursor := none }.Suits kind caps :=
    ⟨nofun, h.suits.link, nofun⟩
  have harises : ∀ c ∈ [Command.resetStyle, .clearScreen], c.Arises kind caps f := by
    intro c hc
    simp only [List.mem_cons, List.not_mem_nil, or_false] at hc
    rcases hc with rfl | rfl
    · exact .resetStyle
    · exact .clearScreen
  exact (h.emitAll _ (Nat.le_refl 2) harises hst rfl).withStats _

/-- A scroll region is set for one shift only. -/
theorem scrolled (h : d.Grows kind caps f n start) (hcaps : caps.scrollRegion = true)
    {plan : ScrollPlan} {sameRow : Nat → Nat → Bool} (hplan : plan.IsSound f.height sameRow) :
    (d.scrolled plan).Grows kind caps f (n + 3) start := by
  have hst : { d.state with cursor := none }.Suits kind caps :=
    ⟨h.suits.style, h.suits.link, nofun⟩
  have hlines := hplan.lines_le
  have hbottom := hplan.bottom_lt.trans f.height_lt
  apply h.emitAll _ (Nat.le_refl 3) ?_ hst
  · cases plan.up
    · simp [Phase.readAll, Phase.read, Command.tokens, Draft.phase]
    · simp [Phase.readAll, Phase.read, Command.tokens, Draft.phase]
  · intro c hc
    simp only [List.mem_cons, List.not_mem_nil, or_false] at hc
    rcases hc with rfl | rfl | rfl
    · exact .scrollRegion hcaps (by omega) hbottom
    · cases plan.up
      · exact .scrollDown hcaps (by omega)
      · exact .scrollUp hcaps (by omega)
    · exact .resetScrollRegion hcaps

theorem reshape (h : d.Grows kind caps f n start) (r : CursorRequest) :
    (d.reshape caps r).Grows kind caps f (n + 1) start := by
  unfold Draft.reshape
  split_ifs with hshape
  · have hst : { d.state with cursorShape := some r.shape }.Suits kind caps :=
      ⟨h.suits.style, h.suits.link, h.suits.cursor⟩
    exact h.emit (.shapeCursor r.shape (Bool.and_eq_true_iff.mp hshape).1) hst rfl
  · exact h.mono (Nat.le_succ n)

theorem reveal (h : d.Grows kind caps f n start) (r : CursorRequest) :
    (d.reveal r).Grows kind caps f (n + 1) start := by
  have hst : { d.state with cursorVisible := some r.visible }.Suits kind caps :=
    ⟨h.suits.style, h.suits.link, h.suits.cursor⟩
  unfold Draft.reveal
  by_cases hknown : d.state.cursorVisible = some r.visible
  · rw [if_neg (not_not.mpr hknown)]
    exact h.mono (Nat.le_succ n)
  · rw [if_pos hknown]
    cases hvisible : r.visible with
    | false => exact h.emit (c := .hideCursor) .hideCursor (hvisible ▸ hst) rfl
    | true => exact h.emit (c := .showCursor) .showCursor (hvisible ▸ hst) rfl

theorem place (h : d.Grows kind caps f n start) (hw : f.width ≠ 0) (hh : f.height ≠ 0)
    (r : CursorRequest) : (d.place f r).Grows kind caps f (n + 1) start := by
  have hcurrent : (d.state.cursor.getD (0, 0)).1 < sideBound ∧
      (d.state.cursor.getD (0, 0)).2 < sideBound := by
    cases hcursor : d.state.cursor with
    | none => decide
    | some p => exact h.suits.cursor p.1 p.2 hcursor
  have hcolumn := (clampAxis_lt r.x hw).trans f.width_lt
  have hrow := (clampAxis_lt r.y hh).trans f.height_lt
  unfold Draft.place
  by_cases hstay : r.x = -1 ∧ r.y = -1 ∧ d.state.cursor.isNone
  · rw [if_pos hstay]
    exact h.mono (Nat.le_succ n)
  · rw [if_neg hstay]
    apply h.moveTo
    · unfold askedColumn
      split_ifs
      · exact hcurrent.1
      · exact hcolumn
    · unfold askedRow
      split_ifs
      · exact hcurrent.2
      · exact hrow

theorem settled (h : d.Grows kind caps f n start) (hw : f.width ≠ 0) (hh : f.height ≠ 0)
    (cursor : Option CursorRequest) :
    (Session.settled caps f cursor d).Grows kind caps f (n + 4) start := by
  unfold Session.settled
  cases cursor with
  | none => exact h.closeLink.mono (by omega)
  | some r =>
    dsimp only
    rw [applyCursor_eq]
    exact (((h.reshape r).reveal r).place hw hh r).closeLink

end Grows

end Draft

end CellCanvas
