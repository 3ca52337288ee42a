import CellCanvas.Proofs.Emulator
import CellCanvas.Proofs.Wire.Command

/-!
# What commands do to a terminal

Each command has one effect, stated as the terminal after it. Text is the exception: where it lands
depends on the layout, so there are two results, one for a glyph that fits the cluster at the cursor
and one for what no text can change.
-/

namespace CellCanvas

open Wire

/-- Whether a command writes on the screen or moves what it shows. -/
def Command.changesScreen : Command → Bool
  | text _ | clearScreen | scrollUp _ | scrollDown _ => true
  | _ => false

/-- Whether a command sets the scroll region or shifts it. -/
def Command.scrolls : Command → Bool
  | scrollRegion _ _ | resetScrollRegion | scrollUp _ | scrollDown _ => true
  | _ => false

namespace Emulator

/-- Read a command. -/
def execute (layout : Layout) (t : Emulator) (c : Command) : Emulator :=
  c.tokens.foldl (perform layout) t

/-- Read commands one after the other. -/
def executeAll (layout : Layout) (t : Emulator) (cs : List Command) : Emulator :=
  cs.foldl (execute layout) t

/-- Only the screen, the cursor and the scroll region may differ. -/
structure Keeps (t u : Emulator) : Prop where
  width : u.width = t.width
  height : u.height = t.height
  rendition : u.rendition = t.rendition
  link : u.link = t.link
  visible : u.visible = t.visible
  shape : u.shape = t.shape

namespace Keeps

theorem refl (t : Emulator) : t.Keeps t := ⟨rfl, rfl, rfl, rfl, rfl, rfl⟩

theorem trans {t u v : Emulator} (h : t.Keeps u) (h' : u.Keeps v) : t.Keeps v :=
  ⟨h'.width.trans h.width, h'.height.trans h.height, h'.rendition.trans h.rendition,
    h'.link.trans h.link, h'.visible.trans h.visible, h'.shape.trans h.shape⟩

end Keeps

theorem keeps_write (t : Emulator) (glyph : String) (columns : Nat) :
    t.Keeps (t.write glyph columns) := by
  unfold write
  split_ifs <;> exact ⟨rfl, rfl, rfl, rfl, rfl, rfl⟩

theorem keeps_receive (layout : Layout) (t : Emulator) (c : Char) :
    t.Keeps (t.receive layout c) := by
  have hfree : t.Keeps { t with held := [] } := ⟨rfl, rfl, rfl, rfl, rfl, rfl⟩
  unfold receive
  cases layout t.column t.row with
  | none => exact hfree.trans (keeps_write _ _ _)
  | some cluster =>
    dsimp only
    split_ifs
    · exact hfree.trans (keeps_write _ _ _)
    · exact ⟨rfl, rfl, rfl, rfl, rfl, rfl⟩
    · exact hfree.trans (keeps_write _ _ _)

theorem keeps_receiveAll (layout : Layout) (cs : List Char) (t : Emulator) :
    t.Keeps (cs.foldl (receive layout) t) := by
  induction cs generalizing t with
  | nil => exact .refl t
  | cons c cs ih => exact (keeps_receive layout t c).trans (ih _)

/-- A glyph of the layout that is read at its place is shown there. -/
theorem receiveAll_cluster {layout : Layout} {t : Emulator} {g : Cluster}
    (hg : layout t.column t.row = some g) (hne : g.text.toList ≠ []) (hheld : t.held = []) :
    g.text.toList.foldl (receive layout) t = t.write g.text g.columns := by
  -- While the glyph is incomplete the terminal only holds what it has read of it.
  have hpart (before after : List Char) (h : before ++ after = g.text.toList) (ha : after ≠ []) :
      after.foldl (receive layout) { t with held := before } = t.write g.text g.columns := by
    induction after generalizing before with
    | nil => exact absurd rfl ha
    | cons c rest ih =>
      have hread : receive layout { t with held := before } c =
          if g.text.toList = before ++ [c] then ({ t with held := [] }).write g.text g.columns
          else { t with held := before ++ [c] } := by
        have hprefix : before ++ [c] <+: g.text.toList := ⟨rest, by rw [← h]; simp⟩
        simp only [receive, hg, if_pos hprefix]
      have hfree : ({ t with held := [] } : Emulator) = t := by rw [← hheld]
      rw [List.foldl_cons, hread]
      by_cases hrest : rest = []
      · subst hrest
        rw [if_pos h.symm, hfree, List.foldl_nil]
      · have hlonger : g.text.toList ≠ before ++ [c] := by
          intro heq
          rw [← h] at heq
          simp [hrest] at heq
        rw [if_neg hlonger]
        exact ih (before ++ [c]) (by rw [← h]; simp) hrest
  have hstart : ({ t with held := [] } : Emulator) = t := by rw [← hheld]
  have := hpart [] g.text.toList rfl hne
  rwa [hstart] at this

section Effects

variable (layout : Layout) (t : Emulator)

theorem execute_text (glyph : String) :
    execute layout t (.text glyph) = glyph.toList.foldl (receive layout) t := by
  rw [execute, Command.tokens, List.foldl_map]
  rfl

theorem execute_cursorTo (x y : Nat) :
    execute layout t (.cursorTo x y) = ({ t with held := [] }).moveTo (x + 1) (y + 1) := by
  simp [execute, Command.tokens, perform, act]

theorem execute_resetStyle :
    execute layout t .resetStyle = { t with held := [], rendition := {} } := by
  have hzero : t.rendition.select ['0'] = {} := rfl
  simp only [execute, Command.tokens, List.foldl_cons, List.foldl_nil, perform, act, hzero]

theorem execute_clearScreen :
    execute layout t .clearScreen = { t with held := [], screen := .blank t.rendition } := rfl

theorem execute_restyle (ps : List SgrParameter) :
    execute layout t (.restyle ps) =
      { t with held := [], rendition := Rendition.applyAll {} ps } := by
  simp only [execute, Command.tokens, List.foldl_cons, List.foldl_nil, perform, act,
    SgrParameter.textAfter, Rendition.select_reset]

theorem execute_adjustStyle {ps : List SgrParameter} (h : ps ≠ []) :
    execute layout t (.adjustStyle ps) =
      { t with held := [], rendition := t.rendition.applyAll ps } := by
  cases ps with
  | nil => exact absurd rfl h
  | cons p ps =>
    simp only [execute, Command.tokens, List.foldl_cons, List.foldl_nil, perform, act,
      SgrParameter.textBetween, SgrParameter.textAfter, Rendition.select_cons]

/-- Parameters after a reset establish a style. -/
theorem rendition_establish (s : SgrStyle) :
    (execute layout t (.establish s)).rendition = .ofStyle s := by
  rw [Command.establish, execute_restyle]
  exact Rendition.applyAll_parameters s

/-- A sequence without parameters is a reset. -/
theorem execute_adjustStyle_nil :
    execute layout t (.adjustStyle []) = { t with held := [], rendition := {} } := rfl

theorem execute_openLink {uri : String} (h : uri ≠ "") :
    execute layout t (.openLink uri) = { t with held := [], link := some uri } := by
  have hne : uri.toList ≠ [] := by simpa using h
  simp [execute, Command.tokens, perform, obey, hne]

theorem execute_closeLink :
    execute layout t .closeLink = { t with held := [], link := none } := rfl

theorem execute_shapeCursor (shape : CursorShape) :
    execute layout t (.shapeCursor shape) = { t with held := [], shape } := by
  cases shape <;> rfl

theorem execute_endUpdate : execute layout t .endUpdate = { t with held := [] } := rfl

theorem execute_scrollRegion_eq_setRegion (top bottom : Nat) :
    execute layout t (.scrollRegion top bottom) =
      ({ t with held := [] }).setRegion (top + 1) (bottom + 1) := by
  simp [execute, Command.tokens, perform, act]

theorem execute_resetScrollRegion :
    execute layout t .resetScrollRegion = ({ t with held := [] }).setRegion 1 0 := rfl

theorem execute_scrollRegion {top bottom : Nat} (h : top < bottom) (hb : bottom < t.height) :
    execute layout t (.scrollRegion top bottom) =
      { t with held := [], top, bottom, column := 0, row := 0, wrapNext := false } := by
  have hmin : min (bottom + 1) t.height = bottom + 1 := by omega
  simp [execute_scrollRegion_eq_setRegion, setRegion, hmin, h]

theorem execute_scrollUp {lines : Nat} (h : 0 < lines) :
    execute layout t (.scrollUp lines) =
      { t with held := [], screen := t.screen.shiftUp t.top t.bottom lines t.rendition } := by
  have hmax : max lines 1 = lines := by omega
  simp [execute, Command.tokens, perform, act, hmax]

theorem execute_scrollDown {lines : Nat} (h : 0 < lines) :
    execute layout t (.scrollDown lines) =
      { t with held := [], screen := t.screen.shiftDown t.top t.bottom lines t.rendition } := by
  have hmax : max lines 1 = lines := by omega
  simp [execute, Command.tokens, perform, act, hmax]

end Effects

theorem screen_setRegion (t : Emulator) (top bottom : Nat) :
    (t.setRegion top bottom).screen = t.screen := by
  unfold setRegion
  dsimp only
  split_ifs <;> rfl

theorem keeps_setRegion (t : Emulator) (top bottom : Nat) :
    t.Keeps (t.setRegion top bottom) ∧ (t.setRegion top bottom).held = t.held := by
  unfold setRegion
  dsimp only
  split_ifs <;> exact ⟨⟨rfl, rfl, rfl, rfl, rfl, rfl⟩, rfl⟩

/-- No other command changes what the screen shows. -/
theorem screen_execute (layout : Layout) (t : Emulator) {c : Command}
    (h : c.changesScreen = false) : (execute layout t c).screen = t.screen := by
  cases c with
  | text | clearScreen | scrollUp | scrollDown => cases h
  | scrollRegion top bottom => rw [execute_scrollRegion_eq_setRegion, screen_setRegion]
  | resetScrollRegion => rw [execute_resetScrollRegion, screen_setRegion]
  | shapeCursor shape => rw [execute_shapeCursor]
  | _ => rfl

/-- Scrolling has no part in anything else. -/
theorem keeps_execute (layout : Layout) (t : Emulator) {c : Command} (h : c.scrolls = true) :
    t.Keeps (execute layout t c) ∧ (execute layout t c).held = [] := by
  have hfree : t.Keeps { t with held := [] } := ⟨rfl, rfl, rfl, rfl, rfl, rfl⟩
  cases c with
  | scrollRegion top bottom =>
    obtain ⟨hkeeps, hheld⟩ := keeps_setRegion { t with held := [] } (top + 1) (bottom + 1)
    rw [execute_scrollRegion_eq_setRegion]
    exact ⟨hfree.trans hkeeps, hheld⟩
  | resetScrollRegion =>
    obtain ⟨hkeeps, hheld⟩ := keeps_setRegion { t with held := [] } 1 0
    rw [execute_resetScrollRegion]
    exact ⟨hfree.trans hkeeps, hheld⟩
  | scrollUp lines => exact ⟨⟨rfl, rfl, rfl, rfl, rfl, rfl⟩, rfl⟩
  | scrollDown lines => exact ⟨⟨rfl, rfl, rfl, rfl, rfl, rfl⟩, rfl⟩
  | _ => cases h

/-- The size of a terminal is not up to what it reads, and tokens leave nothing unfinished. -/
structure IsSameDevice (t u : Emulator) : Prop where
  width : u.width = t.width
  height : u.height = t.height
  mode : u.mode = t.mode

namespace IsSameDevice

theorem refl (t : Emulator) : t.IsSameDevice t := ⟨rfl, rfl, rfl⟩

theorem trans {t u v : Emulator} (h : t.IsSameDevice u) (h' : u.IsSameDevice v) :
    t.IsSameDevice v :=
  ⟨h'.width.trans h.width, h'.height.trans h.height, h'.mode.trans h.mode⟩

variable (layout : Layout) (t : Emulator)

theorem write (glyph : String) (columns : Nat) : t.IsSameDevice (t.write glyph columns) := by
  unfold Emulator.write
  split_ifs <;> exact ⟨rfl, rfl, rfl⟩

theorem receive (c : Char) : t.IsSameDevice (t.receive layout c) := by
  have hfree : t.IsSameDevice { t with held := [] } := ⟨rfl, rfl, rfl⟩
  unfold Emulator.receive
  cases layout t.column t.row with
  | none => exact hfree.trans (write _ _ _)
  | some cluster =>
    dsimp only
    split_ifs
    · exact hfree.trans (write _ _ _)
    · exact ⟨rfl, rfl, rfl⟩
    · exact hfree.trans (write _ _ _)

theorem act (ps : List Char) (final : Char) : t.IsSameDevice (t.act ps final) := by
  unfold Emulator.act setRegion moveTo
  dsimp only
  split <;> (try split_ifs) <;> exact ⟨rfl, rfl, rfl⟩

theorem obey (opener : Char) (body : List Char) : t.IsSameDevice (t.obey opener body) := by
  unfold Emulator.obey
  split <;> exact ⟨rfl, rfl, rfl⟩

theorem perform (token : Token) : t.IsSameDevice (t.perform layout token) := by
  have hfree : t.IsSameDevice { t with held := [] } := ⟨rfl, rfl, rfl⟩
  cases token with
  | shown c => exact receive layout t c
  | control ps final => exact hfree.trans (act _ ps final)
  | string opener body => exact hfree.trans (obey _ opener body)

theorem performAll (ts : List Token) : t.IsSameDevice (ts.foldl (Emulator.perform layout) t) := by
  induction ts generalizing t with
  | nil => exact .refl t
  | cons token ts ih => exact (perform layout t token).trans (ih _)

theorem executeAll (cs : List Command) : t.IsSameDevice (t.executeAll layout cs) := by
  induction cs generalizing t with
  | nil => exact .refl t
  | cons c cs ih => exact (performAll layout t c.tokens).trans (ih _)

end IsSameDevice

/-- A terminal between two sequences acts on the tokens that a text spells. -/
theorem read_of_spells {layout : Layout} {t : Emulator} {cs : List Char} {ts : List Token}
    (hmode : t.mode = .ground) (h : Spells cs ts) :
    t.read layout cs = ts.foldl (perform layout) t := by
  have hkept := (IsSameDevice.performAll layout t ts).mode.trans hmode
  unfold Spells at h
  simp only [read, hmode, h]
  rw [← hkept]

theorem size_readBytes (layout : Layout) (bytes : ByteArray) (t : Emulator) :
    (t.readBytes layout bytes).width = t.width ∧ (t.readBytes layout bytes).height = t.height := by
  have hsame (ts : List Token) := IsSameDevice.performAll layout t ts
  unfold readBytes
  split
  · exact ⟨(hsame _).width, (hsame _).height⟩
  · exact ⟨rfl, rfl⟩

/-- Reading the written form of commands is reading the commands. -/
theorem readBytes_encodeAll {layout : Layout} {t : Emulator} {cs : List Command}
    (hmode : t.mode = .ground) (h : ∀ c ∈ cs, c.IsSafe) :
    t.readBytes layout (Command.encodeAll cs).toUTF8 = t.executeAll layout cs := by
  have hfold (cs : List Command) (t : Emulator) :
      (cs.flatMap Command.tokens).foldl (perform layout) t = t.executeAll layout cs := by
    induction cs generalizing t with
    | nil => rfl
    | cons c cs ih =>
      rw [List.flatMap_cons, List.foldl_append, ih]
      rfl
  rw [readBytes, fromUTF8?_toUTF8]
  exact (read_of_spells hmode (Command.spells_encodeAll h)).trans (hfold cs t)

end Emulator

end CellCanvas
