import CellCanvas.Proofs.Except
import CellCanvas.Proofs.Session.Drafts

/-!
# What a render does to a terminal

A render of a frame with room is the content, which is a full redraw or an update, followed by the
cursor request and the end of the frame. The commands of all of them keep the terminal state true
of the terminal.
-/

namespace CellCanvas

open Wire

/-- Only the empty text takes no bytes. -/
theorem Command.tokens_of_size_eq_zero {c : Command} (h : c.size = 0) : c.tokens = [] := by
  cases c with
  | text glyph =>
    have hempty : glyph = "" := by simpa [size, pieces] using h
    subst hempty
    rfl
  | _ => simp [size, pieces] at h

namespace TermState.Knows

variable {f : Frame} {st : TermState} {t : Emulator}

/-- What is known depends on the size of the frame only. -/
theorem of_same_size (h : st.Knows f t) {g : Frame} (hw : f.width = g.width)
    (hh : f.height = g.height) : st.Knows g t := by
  have hfit : t.Fits g → t.Fits f := fun hg => ⟨hg.1.trans hw.symm, hg.2.trans hh.symm⟩
  exact ⟨h.link, h.style, h.visible, h.shape, fun hg => h.held (hfit hg),
    fun hg => h.cursor (hfit hg)⟩

theorem forget (h : st.Knows f t) : { st with cursor := none }.Knows f t :=
  ⟨h.link, h.style, h.visible, h.shape, h.held, nofun⟩

end TermState.Knows

/-- The rows that a plan leaves blank. -/
def ScrollPlan.exposedRows (p : ScrollPlan) : List Nat :=
  List.range' p.exposed.1 (p.exposed.2 + 1 - p.exposed.1)

/-- The commands that make the terminal shift rows. -/
def Draft.scrolled (plan : ScrollPlan) (d : Draft) : Draft :=
  (d.emitAll
    [.scrollRegion plan.top plan.bottom,
     if plan.up then .scrollUp plan.lines else .scrollDown plan.lines,
     .resetScrollRegion]).trackCursor none

namespace Session

/-- The rows that differ. -/
def dirtyRows (c : Comparison) : List Nat :=
  (List.range c.next.height).filter fun y => !c.sameRow y y

/-- An update does nothing when no row differs, writes the rows that differ, or shifts rows and then
writes the other rows that differ. -/
theorem update_cases {caps : Capabilities} {scroll : Bool} {budget : Nat} {c : Comparison}
    {d d' : Draft} (h : update caps scroll budget c d = .ok d') :
    (dirtyRows c = [] ∧ d' = d) ∨
      (∃ stats, updateRows caps budget c (dirtyRows c) { d with stats } = .ok d') ∨
        ∃ stats plan shifted,
          scrollPlan? c (dirtyRows c).length = some plan ∧
            shift caps c.next budget plan { d with stats } = .ok shifted ∧
              updateRows caps budget c ((dirtyRows c).filter fun y => !plan.covers y) shifted =
                .ok d' := by
  rw [update, ← dirtyRows] at h
  dsimp only at h
  by_cases hnone : (dirtyRows c).isEmpty = true
  · rw [if_pos hnone] at h
    cases h
    exact Or.inl ⟨List.isEmpty_iff.mp hnone, rfl⟩
  · rw [if_neg hnone] at h
    by_cases hscroll : (scroll && caps.scrollRegion) = true
    · rw [if_pos hscroll] at h
      cases hplan : scrollPlan? c (dirtyRows c).length with
      | none =>
        rw [hplan] at h
        exact Or.inr (Or.inl ⟨_, h⟩)
      | some plan =>
        rw [hplan] at h
        obtain ⟨shifted, hshift, hrows⟩ := exists_of_bind_eq_ok h
        exact Or.inr (Or.inr ⟨_, plan, shifted, rfl, hshift, hrows⟩)
    · rw [if_neg hscroll] at h
      exact Or.inr (Or.inl ⟨_, h⟩)

/-- A shift writes the exposed rows whole. -/
theorem shift_eq {caps : Capabilities} {f : Frame} {budget : Nat} {plan : ScrollPlan}
    {d d' : Draft} (h : shift caps f budget plan d = .ok d') :
    d' = plan.exposedRows.foldl (wholeRow caps f)
      (Draft.scrolled plan { d with stats := { d.stats with scrollHit := true } }) :=
  Draft.eq_of_within h

end Session

namespace Draft.Tracks

variable {f : Frame} {t : Emulator} {d d' start : Draft} {caps : Capabilities} {budget : Nat}

theorem refl (hsafe : ∀ c ∈ d.commands.toList, c.IsSafe)
    (h : d.state.Knows f (d.reached f.layout t)) : d.Tracks f t d :=
  ⟨⟨[], by simp⟩, hsafe, h⟩

/-- Statistics are not sent. -/
theorem withStats (h : d.Tracks f t start) (stats : RenderStats) :
    { d with stats }.Tracks f t start :=
  ⟨h.added, h.safe, h.knows⟩

/-- Scrolling moves the cursor to a place that is not tracked. -/
theorem scroll (h : d.Tracks f t start) (hcursor : d.state.cursor = none) {c : Command}
    (hc : c.scrolls = true) : (d.emit c).Tracks f t start := by
  obtain ⟨hkept, hheld⟩ := Emulator.keeps_execute f.layout (d.reached f.layout t) hc
  have hsafe : c.IsSafe := by
    cases c with
    | text | openLink => cases hc
    | _ => trivial
  apply h.emit hsafe
  have hknows : { d.state with cursor := none }.Knows f
      ((d.reached f.layout t).execute f.layout c) :=
    h.knows.passed hkept (fun _ => hheld) nofun
  rwa [← hcursor] at hknows

theorem writeRows (h : d.Tracks f t start) (hf : f.isValid = true)
    (hcaps : caps.attributes.IsNamed) (spans : Nat → List (Nat × Nat)) (rows : List Nat) :
    (rows.foldl (fun d y => d.writeRow caps f y (spans y)) d).Tracks f t start :=
  h.foldl (fun _ y hd => hd.writeRow hf hcaps y (spans y)) rows

theorem scrolled (h : d.Tracks f t start) (plan : ScrollPlan) :
    (d.scrolled plan).Tracks f t start := by
  have hlost : (d.trackCursor none).Tracks f t start := ⟨h.added, h.safe, h.knows.forget⟩
  have hmove : Command.scrolls
      (if plan.up then .scrollUp plan.lines else .scrollDown plan.lines) = true := by
    cases plan.up <;> rfl
  exact ((hlost.scroll rfl (c := .scrollRegion plan.top plan.bottom) rfl).scroll rfl
    hmove).scroll rfl (c := .resetScrollRegion) rfl

theorem shift (h : d.Tracks f t start) (hf : f.isValid = true) (hcaps : caps.attributes.IsNamed)
    {plan : ScrollPlan} (hd : Session.shift caps f budget plan d = .ok d') :
    d'.Tracks f t start := by
  rw [Session.shift_eq hd]
  exact ((h.withStats _).scrolled plan).writeRows hf hcaps (fun _ => [(0, f.width - 1)])
    plan.exposedRows

theorem updateRows (h : d.Tracks f t start) (hf : f.isValid = true)
    (hcaps : caps.attributes.IsNamed) {p : Frame} {rows : List Nat}
    (hd : Session.updateRows caps budget (.of p f) rows d = .ok d') : d'.Tracks f t start := by
  rw [Draft.foldlM_within hd]
  exact h.writeRows hf hcaps _ rows

theorem update (h : d.Tracks f t start) (hf : f.isValid = true) (hcaps : caps.attributes.IsNamed)
    {p : Frame} {scroll : Bool} (hd : Session.update caps scroll budget (.of p f) d = .ok d') :
    d'.Tracks f t start := by
  rcases Session.update_cases hd with
    ⟨-, rfl⟩ | ⟨stats, hrows⟩ | ⟨stats, plan, shifted, -, hshift, hrows⟩
  · exact h
  · exact (h.withStats stats).updateRows hf hcaps hrows
  · exact ((h.withStats stats).shift hf hcaps hshift).updateRows hf hcaps hrows

end Draft.Tracks

namespace Draft

/-- The start of a full redraw. -/
def wiped (d : Draft) : Draft :=
  let d := (d.emit .resetStyle).emit .clearScreen
  { d with
    state := { d.state with style := none, cursor := none }
    stats := { d.stats with fullRedraw := true } }

theorem reached_wiped (layout : Layout) (t : Emulator) (d : Draft) :
    d.wiped.reached layout t =
      { d.reached layout t with held := [], rendition := {}, screen := .blank {} } := by
  change ((d.emit .resetStyle).emit .clearScreen).reached layout t = _
  rw [reached_emit, reached_emit, Emulator.execute_clearScreen, Emulator.execute_resetStyle]

variable {f p : Frame} {t : Emulator} {d d' : Draft} {caps : Capabilities} {budget : Nat}

/-- A full redraw does not depend on what the cursor was known for. -/
theorem tracks_wiped (hsafe : ∀ c ∈ d.commands.toList, c.IsSafe)
    (h : d.state.Knows p (d.reached f.layout t)) : d.wiped.Tracks f t d.wiped := by
  apply Tracks.refl
  · exact safe_emit (safe_emit hsafe (c := .resetStyle) trivial) (c := .clearScreen) trivial
  · rw [reached_wiped]
    exact h.reset f {} (.blank {})

theorem redraw_eq (hd : Session.redraw caps f budget d = .ok d') :
    d' = (List.range f.height).foldl (Session.wholeRow caps f) d.wiped :=
  foldlM_within hd

theorem Tracks.redraw (h : d.wiped.Tracks f t d.wiped) (hf : f.isValid = true)
    (hcaps : caps.attributes.IsNamed) (hd : Session.redraw caps f budget d = .ok d') :
    d'.Tracks f t d.wiped := by
  rw [redraw_eq hd]
  exact h.writeRows hf hcaps (fun _ => [(0, f.width - 1)]) (List.range f.height)

end Draft

namespace Session

/-- The start of a frame. -/
def opened (caps : Capabilities) (st : TermState) : Draft :=
  if caps.synchronizedUpdate then (Draft.start st).emit .beginUpdate else .start st

/-- The content of a frame: an update when the retained frame has its size, else a full redraw. -/
def content (s : Session) (f : Frame) (caps : Capabilities) : Except Failure Draft :=
  match s.previous with
  | some p =>
    if p.width = f.width ∧ p.height = f.height then
      update caps s.options.scrollOptimization s.options.maxFrameBytes (.of p f)
        (opened caps s.state)
    else redraw caps f s.options.maxFrameBytes (opened caps s.state)
  | none => redraw caps f s.options.maxFrameBytes (opened caps s.state)

/-- The content followed by the cursor request. No link stays open. -/
def settled (caps : Capabilities) (f : Frame) (cursor : Option CursorRequest) (d : Draft) : Draft :=
  (match cursor with
    | some r => d.applyCursor caps f r
    | none => d).closeLink

/-- The end of a frame. A frame without commands sends nothing at all. -/
def closed (caps : Capabilities) (start d : Draft) : Draft :=
  if d.size = start.size then { d with commands := #[], size := 0 }
  else if caps.synchronizedUpdate then d.emit .endUpdate
  else d

theorem draft_of_empty {s : Session} {f : Frame} {caps : Capabilities}
    {cursor : Option CursorRequest} (h : f.width = 0 ∨ f.height = 0) :
    s.draft f caps cursor = .ok (.start s.state) := by
  unfold draft
  dsimp only
  rw [if_pos h]
  rfl

theorem draft_eq {s : Session} {f : Frame} {caps : Capabilities} {cursor : Option CursorRequest}
    (h : ¬(f.width = 0 ∨ f.height = 0)) :
    s.draft f caps cursor = (s.content f caps).map fun body =>
      let d := closed caps (opened caps s.state) (settled caps f cursor body)
      { d with stats := { d.stats with bytes := d.size } } := by
  have hbind (x : Except Failure Draft) (g : Draft → Draft) :
      (x >>= fun body => Except.ok (g body)) = x.map g := by
    cases x <;> rfl
  unfold draft content
  dsimp only
  rw [if_neg h]
  cases s.previous with
  | none => exact hbind _ _
  | some p =>
    dsimp only
    by_cases hsize : p.width = f.width ∧ p.height = f.height
    · rw [if_pos hsize, if_pos hsize]
      exact hbind _ _
    · rw [if_neg hsize, if_neg hsize]
      exact hbind _ _

/-- The bytes that a session has added to its output since an earlier state. -/
def appended (s s' : Session) : ByteArray :=
  s'.output.pending.extract s.output.pending.size s'.output.pending.size

/-- A render drafts the frame, checks its size and appends it. -/
theorem render_eq_bind (s : Session) (f : Frame) (caps : Capabilities)
    (cursor : Option CursorRequest) :
    s.render f caps cursor =
      (s.draft f caps cursor >>= fun d => d.within s.options.maxFrameBytes) >>= fun d =>
        s.output.append (Command.encodeAll d.commands.toList).toUTF8 >>= fun output =>
          .ok ({ s with output, previous := some f, state := d.state }, d.stats) := by
  unfold render
  cases s.draft f caps cursor with
  | error e => rfl
  | ok d => rfl

/-- A render that succeeds appends its draft, retains the frame and keeps the draft's state. -/
theorem render_ok {s s' : Session} {f : Frame} {caps : Capabilities}
    {cursor : Option CursorRequest} {stats : RenderStats}
    (h : s.render f caps cursor = .ok (s', stats)) :
    ∃ d, s.draft f caps cursor = .ok d ∧ s'.previous = some f ∧ s'.state = d.state ∧
      s'.options = s.options ∧
      s.appended s' = (Command.encodeAll d.commands.toList).toUTF8 := by
  obtain ⟨d, hd, hrest⟩ := exists_of_bind_eq_ok h
  obtain ⟨d', hd', hrest⟩ := exists_of_bind_eq_ok hrest
  obtain ⟨output, houtput, hlast⟩ := exists_of_bind_eq_ok hrest
  obtain rfl := Draft.eq_of_within hd'
  cases hlast
  refine ⟨d', hd, rfl, rfl, rfl, ?_⟩
  unfold Output.append at houtput
  split_ifs at houtput
  cases houtput
  exact ByteArray.extract_append_eq_right rfl (by simp [Output.push])

variable {s s' : Session} {f p : Frame} {t : Emulator} {d start : Draft} {caps : Capabilities}
  {cursor : Option CursorRequest} {stats : RenderStats}

theorem reached_opened (layout : Layout) (t : Emulator) (caps : Capabilities) (st : TermState) :
    (opened caps st).reached layout t = t ∨
      (opened caps st).reached layout t = { t with held := [] } := by
  unfold opened
  split_ifs
  · exact Or.inr rfl
  · exact Or.inl rfl

theorem safe_opened (caps : Capabilities) (st : TermState) :
    ∀ c ∈ (opened caps st).commands.toList, c.IsSafe := by
  unfold opened
  split_ifs <;> simp [Draft.emit, Draft.start, Command.IsSafe]

theorem stats_opened (caps : Capabilities) (st : TermState) : (opened caps st).stats = {} := by
  unfold opened
  split_ifs <;> rfl

theorem state_opened (caps : Capabilities) (st : TermState) : (opened caps st).state = st := by
  unfold opened
  split_ifs <;> rfl

theorem knows_opened {st : TermState} (layout : Layout) (caps : Capabilities)
    (h : st.Knows p t) : (opened caps st).state.Knows p ((opened caps st).reached layout t) := by
  rw [state_opened]
  rcases reached_opened layout t caps st with hreached | hreached <;> rw [hreached]
  · exact h
  · exact h.freed

/-- The content starts from what is known for a retained frame of the same size, or it is a full
redraw. -/
theorem tracks_content (hf : f.isValid = true) (hcaps : caps.attributes.IsNamed)
    (hknows : s.state.Knows p t)
    (hprevious : ∀ q, s.previous = some q → q.width = f.width → q.height = f.height →
      s.state.Knows q t)
    (h : s.content f caps = .ok d) :
    (d.Tracks f t (opened caps s.state) ∧ s.state.Knows f t) ∨
      d.Tracks f t (opened caps s.state).wiped := by
  have hwiped : (opened caps s.state).wiped.Tracks f t (opened caps s.state).wiped :=
    Draft.tracks_wiped (safe_opened caps s.state) (knows_opened f.layout caps hknows)
  unfold content at h
  cases hp : s.previous with
  | none =>
    rw [hp] at h
    exact Or.inr (hwiped.redraw hf hcaps h)
  | some q =>
    rw [hp] at h
    dsimp only at h
    split_ifs at h with hsize
    · have hsame := (hprevious q hp hsize.1 hsize.2).of_same_size hsize.1 hsize.2
      have hopened : (opened caps s.state).Tracks f t (opened caps s.state) :=
        .refl (safe_opened caps s.state) (knows_opened f.layout caps hsame)
      exact Or.inl ⟨hopened.update hf hcaps h, hsame⟩
    · exact Or.inr (hwiped.redraw hf hcaps h)

theorem tracks_settled (h : d.Tracks f t start) (hw : f.width ≠ 0) (hh : f.height ≠ 0)
    (cursor : Option CursorRequest) : (settled caps f cursor d).Tracks f t start := by
  unfold settled
  cases cursor with
  | none => exact h.closeLink
  | some r => exact (h.applyCursor hw hh r).closeLink

theorem executeAll_of_total_eq_zero {layout : Layout} {cs : List Command}
    (h : total (cs.map Command.size) = 0) (t : Emulator) : t.executeAll layout cs = t := by
  induction cs generalizing t with
  | nil => rfl
  | cons c cs ih =>
    rw [List.map_cons, total_cons, Nat.add_eq_zero_iff] at h
    have hnone : t.execute layout c = t := by
      rw [Emulator.execute, Command.tokens_of_size_eq_zero h.1, List.foldl_nil]
    rw [Emulator.executeAll, List.foldl_cons, hnone]
    exact ih h.2 t

/-- A draft as large as the one it started from leads to the same terminal. -/
theorem reached_of_size_eq (layout : Layout) (h : d.Tracks f t start)
    (hsize : d.size = start.size) : d.reached layout t = start.reached layout t := by
  obtain ⟨cs, hcs, hadded⟩ := h.added
  have hzero : total (cs.map Command.size) = 0 := by omega
  rw [Draft.reached, hcs, Emulator.executeAll, List.foldl_append]
  exact executeAll_of_total_eq_zero hzero _

theorem size_lt_wiped (d : Draft) : d.size < d.wiped.size := by
  have hreset : 0 < Command.resetStyle.size := by decide
  change d.size < d.size + Command.resetStyle.size + Command.clearScreen.size
  omega

/-- The end of a frame keeps what is known and what is shown. The commands of a frame that sends
nothing would not have changed anything. -/
theorem closed_spec (hstart : start = opened caps s.state ∧ s.state.Knows f t ∨
      start = (opened caps s.state).wiped)
    (h : d.Tracks f t start) :
    (∀ c ∈ (closed caps (opened caps s.state) d).commands.toList, c.IsSafe) ∧
      d.state.Knows f ((closed caps (opened caps s.state) d).reached f.layout t) ∧
      ((closed caps (opened caps s.state) d).reached f.layout t).screen =
        (d.reached f.layout t).screen := by
  unfold closed
  by_cases hsize : d.size = (opened caps s.state).size
  · rw [if_pos hsize]
    rcases hstart with ⟨rfl, hknows⟩ | rfl
    · have hreached := reached_of_size_eq f.layout h hsize
      have hnothing : ({ d with commands := #[], size := 0 } : Draft).reached f.layout t = t := rfl
      rw [hnothing, hreached]
      refine ⟨by simp, ?_, ?_⟩
      · have hd := h.knows
        rw [hreached] at hd
        rcases reached_opened f.layout t caps s.state with hopened | hopened
        · rwa [hopened] at hd
        · rw [hopened] at hd
          exact hd.of_freed hknows.held
      · rcases reached_opened f.layout t caps s.state with hopened | hopened <;> rw [hopened]
    · obtain ⟨cs, -, hadded⟩ := h.added
      have := size_lt_wiped (opened caps s.state)
      omega
  · rw [if_neg hsize]
    by_cases hsync : caps.synchronizedUpdate = true
    · rw [if_pos hsync]
      have hended := Draft.reached_emit f.layout t d .endUpdate
      rw [Emulator.execute_endUpdate] at hended
      refine ⟨Draft.safe_emit h.safe (c := .endUpdate) trivial, ?_, ?_⟩
      · rw [hended]
        exact h.knows.freed
      · rw [hended]
    · rw [if_neg hsync]
      exact ⟨h.safe, h.knows, rfl⟩

theorem link_settled (caps : Capabilities) (f : Frame) (cursor : Option CursorRequest) (d : Draft) :
    (settled caps f cursor d).state.link = none := by
  have hclose (d : Draft) : d.closeLink.state.link = none := by
    unfold Draft.closeLink
    split_ifs with hlink
    · rfl
    · simpa using hlink
  exact hclose _

theorem state_closed (caps : Capabilities) (start d : Draft) :
    (closed caps start d).state = d.state := by
  unfold closed
  split_ifs <;> rfl

/-- A frame without room appends nothing. -/
theorem render_of_empty (h : s.render f caps cursor = .ok (s', stats))
    (hempty : f.width = 0 ∨ f.height = 0) :
    s'.previous = some f ∧ s'.state = s.state ∧ s'.options = s.options := by
  obtain ⟨d, hd, hprevious, hstate, hoptions, -⟩ := render_ok h
  rw [draft_of_empty hempty] at hd
  cases hd
  exact ⟨hprevious, hstate, hoptions⟩

/-- A terminal that has read the bytes of a render is the one that its content leads to, up to the
cursor, and all that the session knows about it holds. -/
theorem render_spec (h : s.render f caps cursor = .ok (s', stats)) (hw : f.width ≠ 0)
    (hh : f.height ≠ 0) (hf : f.isValid = true) (hcaps : caps.attributes.IsNamed)
    (hmode : t.mode = .ground) (hknows : s.state.Knows p t)
    (hprevious : ∀ q, s.previous = some q → q.width = f.width → q.height = f.height →
      s.state.Knows q t) :
    (t.readBytes f.layout (s.appended s')).mode = .ground ∧
      s'.state.Knows f (t.readBytes f.layout (s.appended s')) ∧ s'.state.link = none ∧
      ∃ body, s.content f caps = .ok body ∧
        (t.readBytes f.layout (s.appended s')).screen =
          ((settled caps f cursor body).reached f.layout t).screen := by
  obtain ⟨d, hd, -, hstate, -, hbytes⟩ := render_ok h
  rw [draft_eq (by simp [hw, hh])] at hd
  cases hbody : s.content f caps with
  | error e =>
    rw [hbody] at hd
    cases hd
  | ok body =>
    rw [hbody] at hd
    cases hd
    have hclosed : ∃ start, (start = opened caps s.state ∧ s.state.Knows f t ∨
        start = (opened caps s.state).wiped) ∧ body.Tracks f t start := by
      rcases tracks_content hf hcaps hknows hprevious hbody with ⟨hbody, hsame⟩ | hbody
      · exact ⟨_, Or.inl ⟨rfl, hsame⟩, hbody⟩
      · exact ⟨_, Or.inr rfl, hbody⟩
    obtain ⟨start, hstart, htracks⟩ := hclosed
    obtain ⟨hsafe, hafter, hscreen⟩ :=
      closed_spec hstart (tracks_settled htracks hw hh cursor)
    rw [state_closed] at hstate
    rw [hbytes, Emulator.readBytes_encodeAll hmode hsafe, hstate]
    have hkept := (Emulator.IsSameDevice.executeAll f.layout t (closed caps (opened caps s.state)
      (settled caps f cursor body)).commands.toList).mode.trans hmode
    exact ⟨hkept, hafter, link_settled caps f cursor body, body, rfl, hscreen⟩

end Session

end CellCanvas
