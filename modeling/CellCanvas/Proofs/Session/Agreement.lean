import CellCanvas.Proofs.Session.Renders

/-!
# The tracked state is true

A history of a session is any sequence of renders, failed renders, forced redraws and deliveries. A
terminal of the last frame's size that has read everything the session ever appended is in the state
that the session tracks, and no link is open.
-/

namespace CellCanvas

open Wire

/-- What is known of a terminal is true of it. -/
structure TermState.Agrees (st : TermState) (t : Emulator) : Prop where
  cursor : ∀ x y, st.cursor = some (x, y) → t.IsAt x y
  style : ∀ s, st.style = some s → t.rendition = .ofStyle s
  visible : ∀ v, st.cursorVisible = some v → t.visible = v
  shape : ∀ k, st.cursorShape = some k → t.shape = k

theorem TermState.Knows.agrees {f : Frame} {st : TermState} {t : Emulator} (h : st.Knows f t)
    (hfit : t.Fits f) : st.Agrees t :=
  ⟨fun x y hc => (h.cursor hfit x y hc).1, fun s hs => (h.style s hs).2, h.visible, h.shape⟩

namespace Emulator

/-- Read pieces of output, each with the layout of the frame that it was written for. -/
def readPieces (t : Emulator) (pieces : List (Layout × ByteArray)) : Emulator :=
  pieces.foldl (fun t piece => t.readBytes piece.1 piece.2) t

theorem readPieces_append (t : Emulator) (pieces : List (Layout × ByteArray)) (layout : Layout)
    (bytes : ByteArray) :
    t.readPieces (pieces ++ [(layout, bytes)]) = (t.readPieces pieces).readBytes layout bytes := by
  rw [readPieces, List.foldl_append]
  rfl

theorem size_readPieces (t : Emulator) (pieces : List (Layout × ByteArray)) :
    (t.readPieces pieces).width = t.width ∧ (t.readPieces pieces).height = t.height := by
  induction pieces generalizing t with
  | nil => exact ⟨rfl, rfl⟩
  | cons piece pieces ih =>
    have hfirst := size_readBytes piece.1 piece.2 t
    have hrest := ih (t.readBytes piece.1 piece.2)
    exact ⟨hrest.1.trans hfirst.1, hrest.2.trans hfirst.2⟩

end Emulator

namespace Session

/-- What has happened to a session: the pieces of output that it appended, and the last frame that
was rendered. The capabilities may change from call to call. -/
inductive History : Session → List (Layout × ByteArray) → Option Frame → Prop
  | start (options : RenderOptions) (output : Output) : History (.start options output) [] none
  | rendered {s s' : Session} {pieces : List (Layout × ByteArray)} {last : Option Frame}
      {f : Frame} {caps : Capabilities} {cursor : Option CursorRequest} {stats : RenderStats} :
      History s pieces last → f.width ≠ 0 → f.height ≠ 0 → f.isValid = true →
      caps.attributes.IsNamed → s.render f caps cursor = .ok (s', stats) →
      History s' (pieces ++ [(f.layout, s.appended s')]) (some f)
  /-- A render that fails leaves the session as it was. -/
  | failed {s : Session} {pieces : List (Layout × ByteArray)} {last : Option Frame}
      {f : Frame} {caps : Capabilities} {cursor : Option CursorRequest} {failure : Failure} :
      History s pieces last → s.render f caps cursor = .error failure → History s pieces last
  | forced {s : Session} {pieces : List (Layout × ByteArray)} {last : Option Frame} :
      History s pieces last → History s.forceRedraw pieces last
  /-- The output may be delivered or dropped at any time. -/
  | delivered {s : Session} {pieces : List (Layout × ByteArray)} {last : Option Frame}
      (output : Output) : History s pieces last → History { s with output } pieces last

/-- What every event keeps between a session and a terminal that reads along. -/
structure InStep (s : Session) (last : Option Frame) (t : Emulator) : Prop where
  mode : t.mode = .ground
  link : s.state.link = none
  previous : ∀ f, s.previous = some f → last = some f
  fresh : last = none → s.state = {}
  /-- Before the first frame nothing is known, which is true of any size. -/
  knows : ∀ f, (∀ g, last = some g → g = f) → s.state.Knows f t

namespace InStep

variable {s s' : Session} {last : Option Frame} {t : Emulator}

theorem start (options : RenderOptions) (output : Output) (h : t.IsIdle) :
    (Session.start options output).InStep none t :=
  ⟨h.mode, rfl, nofun, fun _ => rfl,
    fun _ _ => ⟨h.link, nofun, nofun, nofun, fun _ => h.held, nofun⟩⟩

theorem render (h : s.InStep last t) {f : Frame} {caps : Capabilities}
    {cursor : Option CursorRequest} {stats : RenderStats} (hw : f.width ≠ 0) (hh : f.height ≠ 0)
    (hf : f.isValid = true) (hcaps : caps.attributes.IsNamed)
    (hs : s.render f caps cursor = .ok (s', stats)) :
    s'.InStep (some f) (t.readBytes f.layout (s.appended s')) := by
  obtain ⟨p, hp⟩ : ∃ p, ∀ g, last = some g → g = p := by
    cases last with
    | none => exact ⟨f, nofun⟩
    | some p => exact ⟨p, fun g hg => (Option.some.inj hg).symm⟩
  obtain ⟨hmode, hknows, hlink, -⟩ := render_spec hs hw hh hf hcaps h.mode (h.knows p hp)
    fun q hq _ _ => hp q (h.previous q hq) ▸ h.knows p hp
  obtain ⟨-, -, hprevious, -⟩ := render_ok hs
  refine ⟨hmode, hlink, fun g hg => hprevious.symm.trans hg, nofun, ?_⟩
  intro g hg
  obtain rfl := hg f rfl
  exact hknows

theorem forced (h : s.InStep last t) : s.forceRedraw.InStep last t := by
  refine ⟨h.mode, rfl, nofun, fun _ => rfl, ?_⟩
  intro f hf
  have hknows := h.knows f hf
  exact ⟨hknows.link.trans h.link, nofun, nofun, nofun, hknows.held, nofun⟩

theorem link_terminal (h : s.InStep last t) : t.link = none := by
  cases last with
  | none => exact (h.knows (.blank 0 0) nofun).link.trans h.link
  | some f => exact (h.knows f fun g hg => (Option.some.inj hg).symm).link.trans h.link

end InStep

theorem History.inStep {s : Session} {pieces : List (Layout × ByteArray)} {last : Option Frame}
    (h : s.History pieces last) {t : Emulator} (ht : t.IsIdle) :
    s.InStep last (t.readPieces pieces) := by
  induction h with
  | start options output => exact .start options output ht
  | rendered _ hw hh hf hcaps hs ih =>
    rw [Emulator.readPieces_append]
    exact ih.render hw hh hf hcaps hs
  | failed _ _ ih => exact ih
  | forced _ ih => exact ih.forced
  | delivered output _ ih => exact ⟨ih.mode, ih.link, ih.previous, ih.fresh, ih.knows⟩

/-- After any history a terminal that was idle before it and has read all of the output has no link
open, and if it has the size of the last frame it is in the state that the session tracks. Before
the first frame nothing is tracked. -/
theorem tracked_state_agrees {s : Session} {pieces : List (Layout × ByteArray)}
    {last : Option Frame} (h : s.History pieces last) (t : Emulator) (ht : t.IsIdle) :
    s.state.link = none ∧ (t.readPieces pieces).link = none ∧
      (last = none → s.state = {}) ∧
        ∀ f, last = some f → t.Fits f → s.state.Agrees (t.readPieces pieces) := by
  have hstep := h.inStep ht
  refine ⟨hstep.link, hstep.link_terminal, hstep.fresh, ?_⟩
  intro f hlast hfit
  have hsize := t.size_readPieces pieces
  apply (hstep.knows f _).agrees
  · exact ⟨hsize.1.trans hfit.1, hsize.2.trans hfit.2⟩
  · intro g hg
    rw [hlast] at hg
    exact (Option.some.inj hg).symm

theorem tracked_state_agrees_two_spaces :
    ∃ s pieces, History s pieces (some (.blank 2 1)) ∧ s.state.cursor = some (1, 0) ∧
      s.state.Agrees ((Emulator.fresh 2 1).readPieces pieces) := by
  have hcursor : (((start {} .unbounded).render (.blank 2 1) {} (some { x := 1 })).toOption.map
      fun r => r.1.state.cursor) = some (some (1, 0)) := by decide +kernel
  cases hr : (start {} .unbounded).render (.blank 2 1) {} (some { x := 1 }) with
  | error e =>
    rw [hr] at hcursor
    cases hcursor
  | ok r =>
    rw [hr] at hcursor
    have hhistory := History.rendered (.start {} .unbounded) (by decide) (by decide)
      (by decide +kernel) (by decide) hr
    have hidle : (Emulator.fresh 2 1).IsIdle := ⟨rfl, rfl, rfl⟩
    refine ⟨_, _, hhistory, Option.some.inj hcursor, ?_⟩
    exact (tracked_state_agrees hhistory _ hidle).2.2.2 _ rfl ⟨rfl, rfl⟩

end Session

end CellCanvas
