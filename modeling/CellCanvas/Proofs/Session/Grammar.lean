import CellCanvas.Proofs.Color.Nearest
import CellCanvas.Proofs.Session.Growth
import CellCanvas.Proofs.Wire.Token

/-!
# The grammar of a frame

A terminal is only sent what it supports: a few kinds of sequences whose parameters are numbers, the
glyphs of the frame's cells, and the addresses of its links. The commands that a frame is made of
are written in this grammar and in nothing else.
-/

namespace CellCanvas

open Wire

/-- One field of a rendition sequence for a terminal: a reset, a supported attribute, a colour in
the form of the terminal's colour mode, or an underline colour. -/
inductive RenditionField (caps : Capabilities) : List Char → Prop
  | reset : RenditionField caps ['0']
  | turnOn {x : Attribute} :
      caps.attributes.has x = true → RenditionField caps (numeral x.sgrCode)
  | classic {base n : Nat} : caps.colorMode = .classic16 → base ∈ [30, 40, 90, 100] → n < 8 →
      RenditionField caps (numeral (base + n))
  | palette {layer n : Nat} : caps.colorMode = .palette256 → layer ∈ [38, 48] → n < 256 →
      RenditionField caps (numeral layer ++ [';', '5', ';'] ++ numeral n)
  | direct {layer r g b : Nat} : caps.colorMode = .rgb → layer ∈ [38, 48] →
      r < 256 → g < 256 → b < 256 →
      RenditionField caps
        (numeral layer ++ [';', '2', ';'] ++ numeral r ++ ';' :: numeral g ++ ';' :: numeral b)
  | underline {r g b : Nat} : caps.underlineColor = true → r < 256 → g < 256 → b < 256 →
      RenditionField caps
        (['5', '8', ':', '2', ':', ':'] ++ numeral r ++ ':' :: numeral g ++ ':' :: numeral b)
  | defaultUnderline : caps.underlineColor = true → RenditionField caps ['5', '9']

/-- What a terminal may be sent within a frame. -/
inductive Wire.Token.Supported (caps : Capabilities) (f : Frame) : Token → Prop
  | shown {x y : Nat} {cell : Cell} {c : Char} : f.cell? x y = some cell → c ∈ cell.glyph.toList →
      isControl c = false → Supported caps f (.shown c)
  | cursorTo {row column : Nat} : row < sideBound → column < sideBound →
      Supported caps f (.control (numeral (row + 1) ++ ';' :: numeral (column + 1)) 'H')
  | rendition {fields : List (List Char)} : (∀ field ∈ fields, RenditionField caps field) →
      Supported caps f (.control ([';'].intercalate fields) 'm')
  | clearScreen : Supported caps f (.control ['2'] 'J')
  | scrollRegion {top bottom : Nat} : caps.scrollRegion = true →
      top < sideBound → bottom < sideBound →
      Supported caps f (.control (numeral (top + 1) ++ ';' :: numeral (bottom + 1)) 'r')
  | resetScrollRegion : caps.scrollRegion = true → Supported caps f (.control [] 'r')
  | scrollUp {lines : Nat} : caps.scrollRegion = true → lines < sideBound →
      Supported caps f (.control (numeral lines) 'S')
  | scrollDown {lines : Nat} : caps.scrollRegion = true → lines < sideBound →
      Supported caps f (.control (numeral lines) 'T')
  | shapeCursor (shape : CursorShape) : caps.cursorShape = true →
      Supported caps f (.control (numeral shape.number ++ [' ']) 'q')
  | showCursor : Supported caps f (.control ['?', '2', '5'] 'h')
  | hideCursor : Supported caps f (.control ['?', '2', '5'] 'l')
  | openLink {uri : String} : caps.hyperlinks = true → uri ∈ f.links → uri ≠ "" →
      isSafeText uri = true → Supported caps f (.string ']' (['8', ';', ';'] ++ uri.toList))
  | closeLink : caps.hyperlinks = true → Supported caps f (.string ']' ['8', ';', ';'])

/-- A tracked style has no underline colour on a terminal without support for it. -/
def SgrStyle.Fits (caps : Capabilities) (s : SgrStyle) : Prop :=
  caps.underlineColor = false → s.underline = .black

namespace RenditionField

variable {caps : Capabilities}

theorem isParameter {field : List Char} (h : RenditionField caps field) :
    ∀ c ∈ field, isParameter c = true := by
  have hnumeral (n : Nat) : ∀ c ∈ numeral n, Wire.isParameter c = true :=
    fun _ => isParameter_of_mem_numeral
  have happend {cs ds : List Char} (hcs : ∀ c ∈ cs, Wire.isParameter c = true)
      (hds : ∀ c ∈ ds, Wire.isParameter c = true) : ∀ c ∈ cs ++ ds, Wire.isParameter c = true :=
    List.forall_mem_append.mpr ⟨hcs, hds⟩
  have hliteral (cs : List Char) (hcs : cs.all Wire.isParameter = true) :
      ∀ c ∈ cs, Wire.isParameter c = true :=
    List.all_eq_true.mp hcs
  have hbehind {separator : Char} (hs : Wire.isParameter separator = true) (n : Nat) :
      ∀ c ∈ separator :: numeral n, Wire.isParameter c = true :=
    List.forall_mem_cons.mpr ⟨hs, hnumeral n⟩
  cases h with
  | turnOn _ => exact hnumeral _
  | classic _ _ _ => exact hnumeral _
  | palette _ _ _ => exact happend (happend (hnumeral _) (hliteral _ (by decide))) (hnumeral _)
  | @direct layer r g b _ _ _ _ _ =>
    have hform := happend (hnumeral layer) (hliteral [';', '2', ';'] (by decide))
    have hred := happend hform (hnumeral r)
    exact happend (happend hred (hbehind (by decide) g)) (hbehind (by decide) b)
  | @underline r g b _ _ _ _ =>
    have hform := hliteral ['5', '8', ':', '2', ':', ':'] (by decide)
    have hred := happend hform (hnumeral r)
    exact happend (happend hred (hbehind (by decide) g)) (hbehind (by decide) b)
  | _ => exact hliteral _ (by decide)

/-- A colour is written in the form of the terminal's colour mode. -/
theorem color {base : Nat} (hbase : base = 30 ∨ base = 40) (c : Color) :
    RenditionField caps ((SgrParameter.colorPieces base (.reduce caps.colorMode c)).flatMap
      String.toList) := by
  have hlayer : base + 8 ∈ [38, 48] := by rcases hbase with rfl | rfl <;> decide
  have htwo : ";2;".toList = [';', '2', ';'] := rfl
  have hfive : ";5;".toList = [';', '5', ';'] := rfl
  have hsemicolon : ";".toList = [';'] := rfl
  cases hmode : caps.colorMode with
  | rgb =>
    have hbyte (n : Nat) : (UInt8.ofNat n).toNat < 256 := UInt8.toNat_lt _
    have hfield := direct hmode hlayer (hbyte c.red) (hbyte c.green) (hbyte c.blue)
    simpa [ShownColor.reduce, SgrParameter.colorPieces, numeral, htwo, hsemicolon] using hfield
  | palette256 =>
    obtain ⟨hmin, hmax⟩ := (Palette.isFirst_nearestExtended c).mem
    have hfield := palette hmode hlayer (Nat.lt_succ_of_le hmax)
    simp only [ShownColor.reduce, SgrParameter.colorPieces, Palette.toNat_ofNat_nearestExtended]
    rw [if_neg (by omega), if_neg (by omega)]
    simpa [numeral, hfive] using hfield
  | classic16 =>
    have hmax : Palette.nearestClassic c < 16 :=
      Nat.lt_succ_of_le (Palette.isFirst_nearestClassic c).mem.2
    simp only [ShownColor.reduce, SgrParameter.colorPieces, Palette.toNat_ofNat_nearestClassic]
    by_cases hdark : Palette.nearestClassic c < 8
    · have hplain : base ∈ [30, 40, 90, 100] := by rcases hbase with rfl | rfl <;> decide
      rw [if_pos hdark]
      simpa [numeral] using classic hmode hplain hdark
    · have hbright : base + 60 ∈ [30, 40, 90, 100] := by rcases hbase with rfl | rfl <;> decide
      have hfield := classic hmode hbright (show Palette.nearestClassic c - 8 < 8 by omega)
      rw [show base + 60 + (Palette.nearestClassic c - 8) = base + 52 + Palette.nearestClassic c by
        omega] at hfield
      rw [if_neg hdark, if_pos hmax]
      simpa [numeral] using hfield

theorem text_turnOn {x : Attribute} (h : caps.attributes.has x = true) :
    RenditionField caps (SgrParameter.text (.turnOn x)) := by
  simpa [SgrParameter.text, SgrParameter.pieces, numeral] using turnOn h

theorem text_underline (h : caps.underlineColor = true) (c : Color) :
    RenditionField caps (SgrParameter.text (.underline c)) := by
  have hopening : "58:2::".toList = ['5', '8', ':', '2', ':', ':'] := rfl
  have hcolon : ":".toList = [':'] := rfl
  have hfield := underline h c.red_lt c.green_lt c.blue_lt
  simpa [SgrParameter.text, SgrParameter.pieces, numeral, hopening, hcolon] using hfield

theorem has_of_resolve {s : Style} {x : Attribute}
    (h : (caps.resolve s).attributes.has x = true) : caps.attributes.has x = true := by
  have hboth : (s.attributes.inter caps.attributes).has x = true := h
  rw [Attributes.has_inter, Bool.and_eq_true] at hboth
  exact hboth.2

theorem underlineColor_of_resolve {s : Style} (h : (caps.resolve s).underline ≠ .black) :
    caps.underlineColor = true := by
  by_contra hnone
  exact h (if_neg hnone)

theorem text_parameters (s : Style) :
    ∀ p ∈ (caps.resolve s).parameters, RenditionField caps p.text := by
  intro p hp
  simp only [SgrStyle.parameters, List.mem_append, List.mem_map, List.mem_filter, List.mem_cons,
    List.not_mem_nil, or_false] at hp
  rcases hp with (⟨x, ⟨-, hx⟩, rfl⟩ | rfl | rfl) | hp
  · exact text_turnOn (has_of_resolve hx)
  · exact color (.inl rfl) s.foreground
  · exact color (.inr rfl) s.background
  · split_ifs at hp with hzero
    · cases hp
    · obtain rfl := List.mem_singleton.mp hp
      apply text_underline
      apply underlineColor_of_resolve (s := s)
      intro hblack
      exact hzero (hblack ▸ rfl)

theorem text_changes {a : SgrStyle} (ha : a.Fits caps) (s : Style) :
    ∀ p ∈ a.changes (caps.resolve s), RenditionField caps p.text := by
  have hsupport (hne : a.underline ≠ (caps.resolve s).underline) : caps.underlineColor = true := by
    by_contra hnone
    have hblack : (caps.resolve s).underline = .black := if_neg hnone
    exact hne ((ha (by simpa using hnone)).trans hblack.symm)
  intro p hp
  simp only [SgrStyle.changes, List.mem_append, List.mem_map, List.mem_filter] at hp
  rcases hp with ((⟨x, ⟨-, hx⟩, rfl⟩ | hp) | hp) | hp
  · rw [Attributes.has_without, Bool.and_eq_true] at hx
    exact text_turnOn (has_of_resolve hx.1)
  · split_ifs at hp
    · cases hp
    · obtain rfl := List.mem_singleton.mp hp
      exact color (.inl rfl) s.foreground
  · split_ifs at hp
    · cases hp
    · obtain rfl := List.mem_singleton.mp hp
      exact color (.inr rfl) s.background
  · split_ifs at hp with hsame hzero
    · cases hp
    · obtain rfl := List.mem_singleton.mp hp
      exact defaultUnderline (hsupport hsame)
    · obtain rfl := List.mem_singleton.mp hp
      exact text_underline (hsupport hsame) _

end RenditionField

theorem mem_intercalate {fields : List (List Char)} {c : Char}
    (h : c ∈ [';'].intercalate fields) : c = ';' ∨ ∃ field ∈ fields, c ∈ field := by
  induction fields with
  | nil => cases h
  | cons first rest ih =>
    cases rest with
    | nil => exact .inr ⟨first, List.mem_singleton_self first, by simpa using h⟩
    | cons second rest =>
      rw [List.intercalate_cons_cons, List.mem_append, List.mem_append, List.mem_singleton] at h
      rcases h with (hfirst | hseparator) | hrest
      · exact .inr ⟨first, List.mem_cons_self, hfirst⟩
      · exact .inl hseparator
      · exact (ih hrest).imp_right fun ⟨field, hfield, hc⟩ =>
          ⟨field, List.mem_cons_of_mem first hfield, hc⟩

namespace SgrParameter

theorem intercalate_text (first : List Char) (ps : List SgrParameter) :
    [';'].intercalate (first :: ps.map text) = first ++ textAfter ps := by
  induction ps generalizing first with
  | nil => simp [textAfter]
  | cons p ps ih =>
    rw [List.map_cons, List.intercalate_cons_cons, ih, List.append_assoc]
    rfl

theorem textBetween_eq (ps : List SgrParameter) :
    textBetween ps = [';'].intercalate (ps.map text) := by
  cases ps with
  | nil => rfl
  | cons p ps => exact (intercalate_text p.text ps).symm

end SgrParameter

namespace Wire.Token.Supported

variable {caps : Capabilities} {f : Frame}

/-- A rendition sequence that starts with a reset. -/
theorem restyle (ps : List SgrParameter) (h : ∀ p ∈ ps, RenditionField caps p.text) :
    Supported caps f (.control ('0' :: SgrParameter.textAfter ps) 'm') := by
  have hfields : ∀ field ∈ ['0'] :: ps.map SgrParameter.text, RenditionField caps field := by
    intro field hfield
    rcases List.mem_cons.mp hfield with rfl | hfield
    · exact .reset
    · obtain ⟨p, hp, rfl⟩ := List.mem_map.mp hfield
      exact h p hp
  have hsupported := rendition (f := f) hfields
  rwa [SgrParameter.intercalate_text] at hsupported

/-- A rendition sequence that changes the current style. -/
theorem adjustStyle (ps : List SgrParameter) (h : ∀ p ∈ ps, RenditionField caps p.text) :
    Supported caps f (.control (SgrParameter.textBetween ps) 'm') := by
  rw [SgrParameter.textBetween_eq]
  apply rendition
  intro field hfield
  obtain ⟨p, hp, rfl⟩ := List.mem_map.mp hfield
  exact h p hp

theorem isComplete {t : Token} (h : t.Supported caps f) : t.IsComplete := by
  have hpair (m n : Nat) : ∀ c ∈ numeral m ++ ';' :: numeral n, isParameter c = true :=
    fun _ => Command.isParameter_of_mem_pair
  have hnumeral (n : Nat) : ∀ c ∈ numeral n, isParameter c = true :=
    fun _ => isParameter_of_mem_numeral
  cases h with
  | shown _ _ hc => exact hc
  | cursorTo _ _ => exact ⟨hpair _ _, by decide⟩
  | rendition hfields =>
    refine ⟨?_, by decide⟩
    intro c hc
    rcases mem_intercalate hc with rfl | ⟨field, hfield, hc⟩
    · decide
    · exact (hfields field hfield).isParameter c hc
  | scrollRegion _ _ _ => exact ⟨hpair _ _, by decide⟩
  | scrollUp _ _ => exact ⟨hnumeral _, by decide⟩
  | scrollDown _ _ => exact ⟨hnumeral _, by decide⟩
  | shapeCursor shape _ => exact ⟨List.all_eq_true.mp (by cases shape <;> decide), by decide⟩
  | openLink _ _ _ hsafe => exact ⟨by decide, Command.ne_of_mem_linkBody hsafe⟩
  | closeLink _ =>
    have hempty : isSafeText "" = true := by decide
    exact ⟨by decide, Command.ne_of_mem_linkBody hempty⟩
  | _ => exact ⟨List.all_eq_true.mp (by decide), by decide⟩

end Wire.Token.Supported

namespace Command

variable {caps : Capabilities} {f : Frame} {c : Command}

/-- A frame is only made of what the terminal supports. -/
theorem Arises.supported (h : c.Arises (SgrStyle.Fits caps) caps f) :
    ∀ t ∈ c.tokens, t.Supported caps f := by
  intro t ht
  have hsingle {u : Token} (hu : u.Supported caps f) (ht : t ∈ [u]) : t.Supported caps f :=
    List.mem_singleton.mp ht ▸ hu
  cases h with
  | cursorTo hx hy => exact hsingle (.cursorTo hy hx) ht
  | establish s => exact hsingle (.restyle _ (RenditionField.text_parameters s)) ht
  | adjust s ha => exact hsingle (.adjustStyle _ (RenditionField.text_changes ha s)) ht
  | openLink hlinks huri =>
    have hsafe := Draft.safe_linkUri? huri
    exact hsingle (.openLink hlinks (Frame.mem_links_of_linkUri? huri) hsafe.1 hsafe.2) ht
  | closeLink hlinks => exact hsingle (.closeLink hlinks) ht
  | @text x y cell hcell =>
    obtain ⟨shown, hshown, rfl⟩ := List.mem_map.mp ht
    exact .shown hcell hshown (not_isControl_of_isSafeText cell.isSafe shown hshown)
  | shapeCursor shape hshape => exact hsingle (.shapeCursor shape hshape) ht
  | showCursor => exact hsingle .showCursor ht
  | hideCursor => exact hsingle .hideCursor ht
  | resetStyle => exact hsingle (.restyle [] nofun) ht
  | clearScreen => exact hsingle .clearScreen ht
  | scrollRegion hcaps htop hbottom => exact hsingle (.scrollRegion hcaps htop hbottom) ht
  | resetScrollRegion hcaps => exact hsingle (.resetScrollRegion hcaps) ht
  | scrollUp hcaps hlines => exact hsingle (.scrollUp hcaps hlines) ht
  | scrollDown hcaps hlines => exact hsingle (.scrollDown hcaps hlines) ht

/-- A command is written as its tokens are. -/
theorem written_tokens (c : Command) : c.tokens.flatMap Token.written = c.encode.toList := by
  have hsingle (ps : List Char) (final : Char) :
      [Token.control ps final].flatMap Token.written = escapeChar :: '[' :: ps ++ [final] := by
    simp [Token.written]
  rw [toList_encode]
  cases c with
  | cursorTo x y => simp [tokens, pieces, hsingle, numeral, escapeChar]
  | shapeCursor shape => simp [tokens, pieces, hsingle, numeral, escapeChar]
  | scrollRegion top bottom => simp [tokens, pieces, hsingle, numeral, escapeChar]
  | scrollUp lines => simp [tokens, pieces, hsingle, numeral, escapeChar]
  | scrollDown lines => simp [tokens, pieces, hsingle, numeral, escapeChar]
  | restyle ps =>
    simp [tokens, pieces, hsingle, escapeChar, SgrParameter.textAfter, SgrParameter.text,
      List.flatMap_assoc]
  | adjustStyle ps => simp [tokens, pieces, hsingle, escapeChar, flatMap_separated]
  | openLink uri => simp [tokens, pieces, Token.written, escapeChar]
  | text glyph =>
    rw [pieces, List.flatMap_singleton, tokens, List.flatMap_map]
    exact List.flatMap_singleton' _
  | _ => rfl

end Command

end CellCanvas
