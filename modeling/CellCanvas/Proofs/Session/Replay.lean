import CellCanvas.Proofs.Session.Scrolling

/-!
# Replaying a session reproduces its frames

The terminal reads what the session appends. As long as it has the size of the retained frame it
shows that frame, so an update has the right start. When the size changes or a redraw is forced,
everything is written, and what the terminal showed before does not matter.
-/

namespace CellCanvas

open Wire

namespace Draft.IsReady

variable {f p : Frame} {t : Emulator} {d d' start : Draft} {caps : Capabilities} {budget : Nat}

theorem withStats (h : d.IsReady caps f t start) (stats : RenderStats) :
    { d with stats }.IsReady caps f t start :=
  ⟨h.tracks.withStats stats, h.link⟩

theorem mem_wholeRow {f : Frame} {x : Nat} (hx : x < f.width) :
    x ∈ columnsOf [(0, f.width - 1)] := by
  rw [mem_columnsOf]
  exact ⟨_, List.mem_singleton_self _, Nat.zero_le x, by omega⟩

/-- Whole rows show whatever was there before. -/
theorem wholeRows (h : d.IsReady caps f t start) (hf : f.isValid = true)
    (hcaps : caps.attributes.IsNamed) (hfit : t.Fits f) (rows : List Nat)
    (hpaired : ∀ y ∈ rows, ((d.reached f.layout t).screen y).IsPaired) :
    (rows.foldl (Session.wholeRow caps f) d).IsReady caps f t start ∧
      ∀ y, if y ∈ rows then
          (((rows.foldl (Session.wholeRow caps f) d).reached f.layout t).screen y).Shows caps f y
        else ((rows.foldl (Session.wholeRow caps f) d).reached f.layout t).screen y =
          (d.reached f.layout t).screen y := by
  apply h.writeRows hf hcaps hfit (fun _ => [(0, f.width - 1)]) rows
  intro y hy
  refine ⟨hpaired y hy, ?_⟩
  intro x c hx hc _
  exact absurd (mem_wholeRow (Frame.lt_of_cell? hc).1) hx

/-- After a full redraw the terminal shows the frame. -/
theorem shows_redraw (h : d.wiped.IsReady caps f t start) (hf : f.isValid = true)
    (hcaps : caps.attributes.IsNamed) (hfit : t.Fits f)
    (hd : Session.redraw caps f budget d = .ok d') :
    (d'.reached f.layout t).screen.Shows caps f := by
  have hblank (y : Nat) : ((d.wiped.reached f.layout t).screen y).IsPaired := by
    rw [reached_wiped]
    exact ScreenRow.isPaired_blank {}
  obtain ⟨-, hrows⟩ := h.wholeRows hf hcaps hfit (List.range f.height) fun y _ => hblank y
  rw [redraw_eq hd]
  intro y hy
  have hrow := hrows y
  rwa [if_pos (List.mem_range.mpr hy)] at hrow

/-- After the shift of a plan the rows that it covers show the new frame, and the others still show
the old one. -/
theorem shows_shift (h : d.IsReady caps f t start) (hf : f.isValid = true)
    (hcaps : caps.attributes.IsNamed) (hfit : t.Fits f) {plan : ScrollPlan}
    (hplan : plan.IsSound f.height (Comparison.of p f).sameRow)
    (hshown : ∀ y < f.height, ((d.reached f.layout t).screen y).Shows caps p y)
    (hd : Session.shift caps f budget plan d = .ok d') :
    d'.IsReady caps f t start ∧
      ∀ y < f.height, if plan.covers y then ((d'.reached f.layout t).screen y).Shows caps f y
        else ((d'.reached f.layout t).screen y).Shows caps p y := by
  have hplan' : plan.IsSound t.height (Comparison.of p f).sameRow := hfit.2 ▸ hplan
  have hscreen (stats : RenderStats) := screen_scrolled hplan' f.layout { d with stats }
  have hpaired : ∀ y ∈ plan.exposedRows, ∀ stats : RenderStats,
      (((({ d with stats } : Draft).scrolled plan).reached f.layout t).screen y).IsPaired := by
    intro y hy stats
    rw [hscreen]
    have hin := ScrollPlan.covers_of_mem_exposedRows hplan hy
    exact ScrollPlan.isPaired_shifted hplan (fun z hz => (hshown z hz).1) hin.2
  obtain ⟨hready, hrows⟩ := ((h.withStats _).scrolled plan).wholeRows hf hcaps hfit plan.exposedRows
    fun y hy => hpaired y hy { d.stats with scrollHit := true }
  rw [Session.shift_eq hd]
  refine ⟨hready, ?_⟩
  intro y hy
  have hrow := hrows y
  by_cases hexposed : y ∈ plan.exposedRows
  · rw [if_pos hexposed] at hrow
    rw [if_pos (ScrollPlan.covers_of_mem_exposedRows hplan hexposed).1]
    exact hrow
  · rw [if_neg hexposed, hscreen] at hrow
    rw [hrow]
    by_cases hcovers : plan.covers y = true
    · obtain ⟨z, hz, hsame, hfrom⟩ := ScrollPlan.exists_of_shifted hplan hcovers hexposed
      rw [if_pos hcovers, hfrom]
      exact Comparison.shows_of_sameRow (hshown z hz) hsame
    · rw [if_neg hcovers, ScrollPlan.shifted_of_not_covers (by simpa using hcovers)]
      exact hshown y hy

/-- Writing the spans of rows that show the old frame makes them show the new one. -/
theorem shows_updateRows (h : d.IsReady caps f t start) (hf : f.isValid = true)
    (hcaps : caps.attributes.IsNamed) (hfit : t.Fits f) (hw : p.width = f.width)
    (hh : p.height = f.height) {rows : List Nat}
    (hshown : ∀ y ∈ rows, ((d.reached f.layout t).screen y).Shows caps p y)
    (hd : Session.updateRows caps budget (.of p f) rows d = .ok d') :
    ∀ y, if y ∈ rows then ((d'.reached f.layout t).screen y).Shows caps f y
      else (d'.reached f.layout t).screen y = (d.reached f.layout t).screen y := by
  rw [foldlM_within hd]
  apply (h.writeRows hf hcaps hfit (Comparison.of p f).spans rows _).2
  intro y hy
  exact ⟨(hshown y hy).1, Comparison.showsOn_of_spans hw hh (hshown y hy)⟩

/-- An update of a terminal that shows the old frame makes it show the new one. -/
theorem shows_update (h : d.IsReady caps f t start) (hf : f.isValid = true)
    (hcaps : caps.attributes.IsNamed) (hfit : t.Fits f) (hw : p.width = f.width)
    (hh : p.height = f.height) {scroll : Bool}
    (hshown : (d.reached f.layout t).screen.Shows caps p)
    (hd : Session.update caps scroll budget (.of p f) d = .ok d') :
    (d'.reached f.layout t).screen.Shows caps f := by
  have hold (y : Nat) (hy : y < f.height) : ((d.reached f.layout t).screen y).Shows caps p y :=
    hshown y (hh ▸ hy)
  have hdirty {y : Nat} : y ∈ Session.dirtyRows (.of p f) ↔
      y < f.height ∧ (Comparison.of p f).sameRow y y = false := by
    simp [Session.dirtyRows, Comparison.of]
  have hsame {y : Nat} (hy : y < f.height) (hclean : y ∉ Session.dirtyRows (.of p f)) :
      (Comparison.of p f).sameRow y y = true := by
    by_contra hdiffers
    exact hclean (hdirty.mpr ⟨hy, by simpa using hdiffers⟩)
  rcases Session.update_cases hd with
    ⟨hnone, rfl⟩ | ⟨stats, hrows⟩ | ⟨stats, plan, shifted, hplan, hshift, hrows⟩
  · intro y hy
    exact Comparison.shows_of_sameRow (hold y hy) (hsame hy (by simp [hnone]))
  · intro y hy
    have hrow := (h.withStats stats).shows_updateRows hf hcaps hfit hw hh
      (fun y hy => hold y (hdirty.mp hy).1) hrows y
    by_cases hmem : y ∈ Session.dirtyRows (.of p f)
    · rwa [if_pos hmem] at hrow
    · rw [if_neg hmem] at hrow
      rw [hrow]
      exact Comparison.shows_of_sameRow (hold y hy) (hsame hy hmem)
  · obtain ⟨hready, hshifted⟩ := (h.withStats stats).shows_shift hf hcaps hfit
      (ScrollPlan.isSound_of_detect hplan) hold hshift
    have hafter (y : Nat)
        (hy : y ∈ (Session.dirtyRows (.of p f)).filter fun y => !plan.covers y) :
        ((shifted.reached f.layout t).screen y).Shows caps p y := by
      obtain ⟨hmem, hcovers⟩ := List.mem_filter.mp hy
      have hrow := hshifted y (hdirty.mp hmem).1
      rwa [if_neg (by simpa using hcovers)] at hrow
    intro y hy
    have hrow := hready.shows_updateRows hf hcaps hfit hw hh hafter hrows y
    have hbefore := hshifted y hy
    by_cases hmem : y ∈ (Session.dirtyRows (.of p f)).filter fun y => !plan.covers y
    · rwa [if_pos hmem] at hrow
    · rw [if_neg hmem] at hrow
      rw [hrow]
      by_cases hcovers : plan.covers y = true
      · rwa [if_pos hcovers] at hbefore
      · rw [if_neg hcovers] at hbefore
        apply Comparison.shows_of_sameRow hbefore
        apply hsame hy
        intro hin
        exact hmem (List.mem_filter.mpr ⟨hin, by simpa using hcovers⟩)

end Draft.IsReady

namespace Session

variable {s s' : Session} {f p : Frame} {t : Emulator} {d : Draft} {caps : Capabilities}
  {cursor : Option CursorRequest} {stats : RenderStats}

theorem ready_opened (hknows : s.state.Knows f t) (hlink : s.state.link = none) :
    (opened caps s.state).IsReady caps f t (opened caps s.state) := by
  refine ⟨.refl (safe_opened caps s.state) (knows_opened f.layout caps hknows), ?_⟩
  intro _
  rw [state_opened, hlink]

theorem ready_wiped (hknows : s.state.Knows p t) (hlink : s.state.link = none) :
    (opened caps s.state).wiped.IsReady caps f t (opened caps s.state).wiped := by
  refine ⟨Draft.tracks_wiped (safe_opened caps s.state) (knows_opened f.layout caps hknows), ?_⟩
  intro _
  change (opened caps s.state).state.link = none
  rw [state_opened, hlink]

theorem screen_opened (layout : Layout) (t : Emulator) (caps : Capabilities) (st : TermState) :
    ((opened caps st).reached layout t).screen = t.screen := by
  rcases reached_opened layout t caps st with h | h <;> rw [h]

theorem screen_settled (layout : Layout) (d : Draft) :
    ((settled caps f cursor d).reached layout t).screen = (d.reached layout t).screen := by
  unfold settled
  cases cursor with
  | none => exact Draft.screen_closeLink
  | some r => exact Draft.screen_closeLink.trans (Draft.screen_applyCursor r)

/-- The content of a frame makes a terminal of its size show the frame, if the terminal shows the
retained frame or has another size. -/
theorem shows_content (hf : f.isValid = true) (hcaps : caps.attributes.IsNamed) (hfit : t.Fits f)
    (hlink : s.state.link = none) (hknows : s.state.Knows p t)
    (hprevious : ∀ q, s.previous = some q → q.width = f.width → q.height = f.height →
      s.state.Knows q t ∧ t.screen.Shows caps q)
    (h : s.content f caps = .ok d) : (d.reached f.layout t).screen.Shows caps f := by
  have hwiped : (opened caps s.state).wiped.IsReady caps f t (opened caps s.state).wiped :=
    ready_wiped hknows hlink
  unfold content at h
  cases hq : s.previous with
  | none =>
    rw [hq] at h
    exact hwiped.shows_redraw hf hcaps hfit h
  | some q =>
    rw [hq] at h
    dsimp only at h
    split_ifs at h with hsize
    · obtain ⟨hsame, hshown⟩ := hprevious q hq hsize.1 hsize.2
      have hready : (opened caps s.state).IsReady caps f t (opened caps s.state) :=
        ready_opened (hsame.of_same_size hsize.1 hsize.2) hlink
      apply hready.shows_update hf hcaps hfit hsize.1 hsize.2 _ h
      rw [screen_opened]
      exact hshown
    · exact hwiped.shows_redraw hf hcaps hfit h

/-- A run of a session, with fixed capabilities, and of the terminal that reads along. The terminal
is as large as each frame that is rendered, and is replaced when that takes another size. -/
inductive Run (caps : Capabilities) : Session → Emulator → Prop
  | start (options : RenderOptions) (output : Output) {t : Emulator} :
      t.IsIdle → Run caps (.start options output) t
  | rendered {s s' : Session} {t : Emulator} {f : Frame} {cursor : Option CursorRequest}
      {stats : RenderStats} :
      Run caps s t → t.Fits f → f.isValid = true → s.render f caps cursor = .ok (s', stats) →
      Run caps s' (t.readBytes f.layout (s.appended s'))
  /-- A render that fails leaves the session as it was. -/
  | failed {s : Session} {t : Emulator} {f : Frame} {cursor : Option CursorRequest}
      {failure : Failure} :
      Run caps s t → s.render f caps cursor = .error failure → Run caps s t
  | forced {s : Session} {t : Emulator} : Run caps s t → Run caps s.forceRedraw t
  /-- Without a retained frame of its size the terminal may come to show anything. -/
  | replaced {s : Session} {t : Emulator} (width height : Nat) (screen : Screen) (column row : Nat)
      (wrapNext : Bool) (top bottom : Nat) :
      Run caps s t →
      (∀ p, s.previous = some p → ¬(width = p.width ∧ height = p.height)) →
      Run caps s { t with width, height, screen, column, row, wrapNext, top, bottom }
  /-- The output may be delivered or dropped at any time. -/
  | delivered {s : Session} {t : Emulator} (output : Output) :
      Run caps s t → Run caps { s with output } t

/-- What every event keeps between a session and the terminal: what is known is true, and on a
terminal of its size the retained frame is shown. -/
structure Mirrors (caps : Capabilities) (s : Session) (t : Emulator) : Prop where
  mode : t.mode = .ground
  held : t.held = []
  link : s.state.link = none
  knows : ∃ p, s.state.Knows p t
  previous : ∀ p, s.previous = some p → p.width ≠ 0 → p.height ≠ 0 → t.Fits p →
    s.state.Knows p t ∧ t.screen.Shows caps p

namespace Mirrors

theorem start (options : RenderOptions) (output : Output) (h : t.IsIdle) :
    (Session.start options output).Mirrors caps t :=
  ⟨h.mode, h.held, rfl,
    ⟨.blank 0 0, h.link, nofun, nofun, nofun, fun _ => h.held, nofun⟩, nofun⟩

/-- A frame without room sends nothing. -/
theorem readBytes_of_empty (h : t.mode = .ground) (hs : s.render f caps cursor = .ok (s', stats))
    (hempty : f.width = 0 ∨ f.height = 0) : t.readBytes f.layout (s.appended s') = t := by
  obtain ⟨d, hd, -, -, -, hbytes⟩ := render_ok hs
  rw [draft_of_empty hempty] at hd
  cases hd
  rw [hbytes, Emulator.readBytes_encodeAll h (by simp [Draft.start])]
  rfl

theorem render (h : s.Mirrors caps t) (hcaps : caps.attributes.IsNamed) (hfit : t.Fits f)
    (hf : f.isValid = true) (hs : s.render f caps cursor = .ok (s', stats)) :
    s'.Mirrors caps (t.readBytes f.layout (s.appended s')) := by
  by_cases hempty : f.width = 0 ∨ f.height = 0
  · obtain ⟨hprevious, hstate, -⟩ := render_of_empty hs hempty
    rw [readBytes_of_empty h.mode hs hempty]
    refine ⟨h.mode, h.held, hstate ▸ h.link, hstate ▸ h.knows, ?_⟩
    intro p hp hw hh
    rw [hprevious] at hp
    cases hp
    omega
  · obtain ⟨hw, hh⟩ := not_or.mp hempty
    obtain ⟨p, hknows⟩ := h.knows
    have hfits (q : Frame) (hqw : q.width = f.width) (hqh : q.height = f.height) : t.Fits q :=
      ⟨hfit.1.trans hqw.symm, hfit.2.trans hqh.symm⟩
    have hprevious (q : Frame) (hq : s.previous = some q) (hqw : q.width = f.width)
        (hqh : q.height = f.height) : s.state.Knows q t ∧ t.screen.Shows caps q :=
      h.previous q hq (hqw ▸ hw) (hqh ▸ hh) (hfits q hqw hqh)
    obtain ⟨hmode, hafter, hlink, body, hbody, hscreen⟩ :=
      render_spec hs hw hh hf hcaps h.mode hknows fun q hq hqw hqh => (hprevious q hq hqw hqh).1
    have hshows := shows_content hf hcaps hfit h.link hknows hprevious hbody
    rw [← screen_settled f.layout body, ← hscreen] at hshows
    have hsize := Emulator.size_readBytes f.layout (s.appended s') t
    refine ⟨hmode, ?_, hlink, ⟨f, hafter⟩, ?_⟩
    · exact hafter.held ⟨hsize.1.trans hfit.1, hsize.2.trans hfit.2⟩
    · intro q hq _ _ _
      obtain ⟨-, -, hretained, -⟩ := render_ok hs
      rw [hretained] at hq
      cases hq
      exact ⟨hafter, hshows⟩

theorem forced (h : s.Mirrors caps t) : s.forceRedraw.Mirrors caps t := by
  obtain ⟨p, hknows⟩ := h.knows
  exact ⟨h.mode, h.held, rfl,
    ⟨p, hknows.link.trans h.link, nofun, nofun, nofun, fun _ => h.held, nofun⟩, nofun⟩

/-- What is known apart from the cursor does not depend on the size of the terminal. -/
theorem replaced (h : s.Mirrors caps t) (width height : Nat) (screen : Screen) (column row : Nat)
    (wrapNext : Bool) (top bottom : Nat)
    (hsize : ∀ p, s.previous = some p → ¬(width = p.width ∧ height = p.height)) :
    s.Mirrors caps { t with width, height, screen, column, row, wrapNext, top, bottom } := by
  obtain ⟨p, hknows⟩ := h.knows
  have hother : ∃ q : Frame, ¬(width = q.width ∧ height = q.height) := by
    by_cases hw : width = 0
    · exact ⟨.blank 1 1, fun hq => absurd (hw.symm.trans hq.1) (by decide)⟩
    · exact ⟨.blank 0 0, fun hq => hw hq.1⟩
  obtain ⟨q, hq⟩ := hother
  refine ⟨h.mode, h.held, h.link, ⟨q, ?_⟩, ?_⟩
  · exact ⟨hknows.link, hknows.style, hknows.visible, hknows.shape, fun _ => h.held,
      fun hfit => absurd hfit hq⟩
  · intro r hr _ _ hfit
    exact absurd hfit (hsize r hr)

end Mirrors

theorem Run.mirrors (h : Run caps s t) (hcaps : caps.attributes.IsNamed) : s.Mirrors caps t := by
  induction h with
  | start options output ht => exact .start options output ht
  | rendered _ hfit hf hs ih => exact ih.render hcaps hfit hf hs
  | failed _ _ ih => exact ih
  | forced _ ih => exact ih.forced
  | replaced width height screen column row wrapNext top bottom _ hsize ih =>
    exact ih.replaced width height screen column row wrapNext top bottom hsize
  | delivered output _ ih => exact ⟨ih.mode, ih.held, ih.link, ih.knows, ih.previous⟩

/-- After any run, a terminal that reads the bytes of a frame with room shows every cell of the
frame that is no continuation: its glyph, its width, its style as the terminal shows it, and the
address of its link. -/
theorem replay_shows_frame (hcaps : caps.attributes.IsNamed) (h : Run caps s t)
    (hfit : t.Fits f) (hf : f.isValid = true) (hw : f.width ≠ 0) (hh : f.height ≠ 0)
    (hs : s.render f caps cursor = .ok (s', stats)) (x y : Nat) (c : Cell)
    (hc : f.cell? x y = some c) (hlead : c.isContinuation = false) :
    (t.readBytes f.layout (s.appended s')).screen y x = .of caps f c := by
  have hmirrors := (h.mirrors hcaps).render hcaps hfit hf hs
  obtain ⟨-, -, hretained, -⟩ := render_ok hs
  have hsize := Emulator.size_readBytes f.layout (s.appended s') t
  have hshown := (hmirrors.previous f hretained hw hh
    ⟨hsize.1.trans hfit.1, hsize.2.trans hfit.2⟩).2
  have hwidth : c.width ≠ 0 := by simpa [Cell.isContinuation] using hlead
  exact (hshown y (Frame.lt_of_cell? hc).2).2 x c trivial hc hwidth

/-- A frame with one wide glyph. -/
def wideFrame : Frame :=
  ((Frame.blank 2 1).set 0 0 (.ofCluster "世" 2 .plain)).set 1 0 (.continuation .plain)

/-- A second frame that replaces two spaces by a wide glyph. -/
theorem replay_shows_frame_wide :
    ∃ s s' t, Run {} s t ∧ s.previous = some (.blank 2 1) ∧
      (∃ stats, s.render wideFrame {} none = .ok (s', stats)) ∧
        (t.readBytes wideFrame.layout (s.appended s')).screen 0 0 =
          .of {} wideFrame (.ofCluster "世" 2 .plain) := by
  have hsome : ((start {} .unbounded).render (.blank 2 1) {} none >>= fun r =>
      r.1.render wideFrame {} none).toOption.isSome = true := by decide +kernel
  cases hrun : (start {} .unbounded).render (.blank 2 1) {} none >>= fun r =>
      r.1.render wideFrame {} none with
  | error e =>
    rw [hrun] at hsome
    cases hsome
  | ok r =>
    obtain ⟨first, hfirst, hsecond⟩ := exists_of_bind_eq_ok hrun
    have hidle : (Emulator.fresh 2 1).IsIdle := ⟨rfl, rfl, rfl⟩
    have hbefore : Run {} (start {} .unbounded) (.fresh 2 1) := .start {} .unbounded hidle
    have hstart := hbefore.rendered ⟨rfl, rfl⟩ (by decide +kernel) hfirst
    have hsize := Emulator.size_readBytes (Frame.blank 2 1).layout
      ((start {} .unbounded).appended first.1) (.fresh 2 1)
    refine ⟨first.1, r.1, _, hstart, (render_ok hfirst).choose_spec.2.1, ⟨r.2, hsecond⟩, ?_⟩
    exact replay_shows_frame (by decide) hstart ⟨hsize.1, hsize.2⟩ (by decide +kernel) (by decide)
      (by decide) hsecond 0 0 _ (by decide +kernel) (by decide +kernel)

end Session

end CellCanvas
