import CellCanvas.Proofs.Emulator.Commands
import CellCanvas.Proofs.Frame.Pairing
import CellCanvas.Session

/-!
# Tracking the terminal

While a draft grows, its terminal state must stay true of the terminal that has read its commands.
The position of the cursor is only promised on a terminal of the frame's size, everything else on
every terminal.
-/

namespace CellCanvas

open Wire

/-- The glyphs of a frame with the columns that they take. -/
def Frame.layout (f : Frame) : Layout := fun x y => (f.cell? x y).map fun c => ⟨c.glyph, c.width⟩

namespace Emulator

/-- Nothing is half read and no link is open. -/
structure IsIdle (t : Emulator) : Prop where
  mode : t.mode = .ground
  held : t.held = []
  link : t.link = none

/-- The terminal has the size of a frame. -/
def Fits (t : Emulator) (f : Frame) : Prop := t.width = f.width ∧ t.height = f.height

/-- The cursor is at a position. The column behind the last one stands for the last one, whether
a wrap is due or not. -/
def IsAt (t : Emulator) (x y : Nat) : Prop :=
  t.row = y ∧
    (x < t.width ∧ t.column = x ∧ t.wrapNext = false ∨ x = t.width ∧ t.column = t.width - 1)

end Emulator

/-- The terminal state is true of a terminal that shows, or is about to show, a frame. -/
structure TermState.Knows (f : Frame) (st : TermState) (t : Emulator) : Prop where
  link : t.link = st.link
  style : ∀ s, st.style = some s → s.attributes.IsNamed ∧ t.rendition = .ofStyle s
  visible : ∀ v, st.cursorVisible = some v → t.visible = v
  shape : ∀ k, st.cursorShape = some k → t.shape = k
  held : t.Fits f → t.held = []
  cursor : t.Fits f → ∀ x y, st.cursor = some (x, y) → t.IsAt x y ∧ y < t.height

namespace TermState.Knows

variable {f : Frame} {st : TermState} {t : Emulator}

theorem freed (h : st.Knows f t) : st.Knows f { t with held := [] } :=
  ⟨h.link, h.style, h.visible, h.shape, fun _ => rfl, h.cursor⟩

theorem of_freed (h : st.Knows f { t with held := [] }) (hheld : t.Fits f → t.held = []) :
    st.Knows f t :=
  ⟨h.link, h.style, h.visible, h.shape, hheld, h.cursor⟩

/-- Without style and cursor nothing depends on the size of a frame. -/
theorem reset (h : st.Knows f t) (g : Frame) (r : Rendition) (screen : Screen) :
    { st with style := none, cursor := none }.Knows g
      { t with held := [], rendition := r, screen } :=
  ⟨h.link, nofun, h.visible, h.shape, fun _ => rfl, nofun⟩

theorem moved {layout : Layout} (h : st.Knows f t) {x y : Nat}
    (hxy : t.Fits f → x ≤ f.width ∧ y < f.height) :
    { st with cursor := some (x, y) }.Knows f (t.execute layout (.cursorTo x y)) := by
  rw [Emulator.execute_cursorTo]
  refine ⟨h.link, h.style, h.visible, h.shape, fun _ => rfl, ?_⟩
  intro hfit x' y' hc
  obtain ⟨rfl, rfl⟩ : x = x' ∧ y = y' := by simpa using hc
  obtain ⟨hx, hy⟩ := hxy hfit
  obtain ⟨hw, hh⟩ := hfit
  simp only [Emulator.moveTo] at hw hh
  refine ⟨⟨?_, ?_⟩, ?_⟩
  · simp only [Emulator.moveTo]
    omega
  · by_cases hlast : x < t.width
    · refine Or.inl ⟨hlast, ?_, rfl⟩
      simp only [Emulator.moveTo]
      omega
    · refine Or.inr ⟨?_, ?_⟩ <;> simp only [Emulator.moveTo] <;> omega
  · simp only [Emulator.moveTo]
    omega

/-- A rendition leaves the cursor where it is. -/
theorem rendered (h : st.Knows f t) {s : SgrStyle} (hs : s.attributes.IsNamed) :
    { st with style := some s }.Knows f { t with held := [], rendition := .ofStyle s } := by
  refine ⟨h.link, ?_, h.visible, h.shape, fun _ => rfl, h.cursor⟩
  intro s' hs'
  obtain rfl : s = s' := by simpa using hs'
  exact ⟨hs, rfl⟩

theorem linked (h : st.Knows f t) (uri : Option String) :
    { st with link := uri }.Knows f { t with held := [], link := uri } :=
  ⟨rfl, h.style, h.visible, h.shape, fun _ => rfl, h.cursor⟩

theorem shown (h : st.Knows f t) (v : Bool) :
    { st with cursorVisible := some v }.Knows f { t with held := [], visible := v } := by
  refine ⟨h.link, h.style, ?_, h.shape, fun _ => rfl, h.cursor⟩
  intro v' hv
  simpa using hv

theorem shaped (h : st.Knows f t) (k : CursorShape) :
    { st with cursorShape := some k }.Knows f { t with held := [], shape := k } := by
  refine ⟨h.link, h.style, h.visible, ?_, fun _ => rfl, h.cursor⟩
  intro k' hk
  simpa using hk

/-- Text changes nothing that is known except the cursor. -/
theorem passed (h : st.Knows f t) {u : Emulator} (hu : t.Keeps u) {cursor : Option (Nat × Nat)}
    (hheld : u.Fits f → u.held = [])
    (hc : u.Fits f → ∀ x y, cursor = some (x, y) → u.IsAt x y ∧ y < u.height) :
    { st with cursor }.Knows f u := by
  refine ⟨hu.link.trans h.link, ?_, ?_, ?_, hheld, hc⟩
  · intro s hs
    exact ⟨(h.style s hs).1, hu.rendition.trans (h.style s hs).2⟩
  · intro v hv
    exact hu.visible.trans (h.visible v hv)
  · intro k hk
    exact hu.shape.trans (h.shape k hk)

end TermState.Knows

end CellCanvas
