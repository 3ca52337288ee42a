import CellCanvas.Proofs.Session.Growth
import Mathlib.Data.String.Basic

/-!
# The sizes of commands

A command of a frame has a few hundred bytes at most, apart from a link, whose address is bounded by
the link table.
-/

namespace CellCanvas

open Wire

theorem total_le (ns : List Nat) {bound : Nat} (h : ∀ n ∈ ns, n ≤ bound) :
    total ns ≤ bound * ns.length := by
  induction ns with
  | nil => exact Nat.zero_le _
  | cons n ns ih =>
    have hn := h n List.mem_cons_self
    have hns := ih fun m hm => h m (List.mem_cons_of_mem n hm)
    rw [total_cons, List.length_cons, Nat.mul_succ]
    omega

theorem utf8ByteSize_join (texts : List String) :
    (String.join texts).utf8ByteSize = total (texts.map String.utf8ByteSize) := by
  induction texts with
  | nil => rfl
  | cons text texts ih => rw [String.join_cons, String.utf8ByteSize_append, ih]; rfl

theorem utf8ByteSize_le (text : String) : text.utf8ByteSize ≤ 4 * text.toList.length := by
  rw [← String.ofList_toList (s := text), String.utf8ByteSize_ofList, String.toList_ofList]
  induction text.toList with
  | nil => exact Nat.zero_le _
  | cons c cs ih =>
    have := c.utf8Size_le_four
    rw [List.length_cons, String.utf8Len_cons]
    omega

/-- A number of at most `k` digits. -/
theorem utf8ByteSize_digits_le {n k : Nat} (hk : 0 < k) (h : n < 10 ^ k) :
    (toString n).utf8ByteSize ≤ 4 * k := by
  have hlength := Nat.toDigits_length 10 n k hk h
  have hsize := utf8ByteSize_le (toString n)
  rw [toList_toString, numeral] at hsize
  omega

theorem utf8ByteSize_toString_le {n : Nat} (h : n < 10 ^ 5) : (toString n).utf8ByteSize ≤ 20 :=
  utf8ByteSize_digits_le (by decide) h

/-- Numbers and the fixed parts of commands are short. -/
abbrev IsShortPiece (piece : String) : Prop := piece.utf8ByteSize ≤ 20

theorem isShortPiece_byte (n : UInt8) : IsShortPiece (toString n.toNat) :=
  utf8ByteSize_toString_le (n.toNat_lt.trans (by decide))

namespace SgrParameter

theorem short_colorPieces {base : Nat} (hbase : base < 256) (c : ShownColor) :
    (colorPieces base c).length ≤ 7 ∧ ∀ piece ∈ colorPieces base c, IsShortPiece piece := by
  cases c with
  | indexed i =>
    have hi := i.toNat_lt
    rw [colorPieces]
    split_ifs
    · simpa using utf8ByteSize_toString_le (n := base + i.toNat) (by omega)
    · simpa using utf8ByteSize_toString_le (n := base + 52 + i.toNat) (by omega)
    · have hform := utf8ByteSize_toString_le (n := base + 8) (by omega)
      have hlit : IsShortPiece ";5;" := by decide
      simpa using ⟨hform, hlit, isShortPiece_byte i⟩
  | direct r g b =>
    have hform := utf8ByteSize_toString_le (n := base + 8) (by omega)
    have hlit : IsShortPiece ";2;" ∧ IsShortPiece ";" := by decide
    simpa [colorPieces] using
      ⟨hform, hlit.1, isShortPiece_byte r, hlit.2, isShortPiece_byte g, hlit.2,
        isShortPiece_byte b⟩

theorem short_pieces (p : SgrParameter) :
    p.pieces.length ≤ 7 ∧ ∀ piece ∈ p.pieces, IsShortPiece piece := by
  cases p with
  | turnOn x => cases x <;> decide
  | foreground c => exact short_colorPieces (by decide) c
  | background c => exact short_colorPieces (by decide) c
  | underline c =>
    have hlit : IsShortPiece "58:2::" ∧ IsShortPiece ":" := by decide
    have hred := utf8ByteSize_toString_le (c.red_lt.trans (by decide))
    have hgreen := utf8ByteSize_toString_le (c.green_lt.trans (by decide))
    have hblue := utf8ByteSize_toString_le (c.blue_lt.trans (by decide))
    simpa [pieces] using ⟨hlit.1, hred, hlit.2, hgreen, hlit.2, hblue⟩
  | defaultUnderline => decide

end SgrParameter

namespace SgrStyle

theorem length_parameters_le (s : SgrStyle) : s.parameters.length ≤ 10 := by
  have hcodes := List.length_filter_le s.attributes.has Attribute.byCode
  have hseven : Attribute.byCode.length = 7 := rfl
  simp only [parameters, List.length_append, List.length_map, List.length_cons, List.length_nil]
  split_ifs <;> simp only [List.length_cons, List.length_nil] <;> omega

theorem length_changes_le (a b : SgrStyle) : (a.changes b).length ≤ 10 := by
  have hcodes := List.length_filter_le (b.attributes.without a.attributes).has Attribute.byCode
  have hseven : Attribute.byCode.length = 7 := rfl
  simp only [changes, List.length_append, List.length_map]
  split_ifs <;> simp only [List.length_cons, List.length_nil] <;> omega

end SgrStyle

/-- Every address in the link table is as short as addresses must be. -/
def Frame.HasShortLinks (f : Frame) : Prop :=
  ∀ uri ∈ f.links, uri.utf8ByteSize ≤ Frame.maxLinkBytes

namespace Command

/-- The most bytes of a command of a frame: those of the longest link. -/
def maxSize : Nat := Frame.maxLinkBytes + 7

theorem size_le_of_short {c : Command} (hlength : c.pieces.length ≤ 82)
    (h : ∀ piece ∈ c.pieces, IsShortPiece piece) : c.size ≤ maxSize := by
  have hshort : ∀ n ∈ c.pieces.map String.utf8ByteSize, n ≤ 20 := by simpa using h
  have htotal := total_le _ hshort
  rw [List.length_map] at htotal
  unfold Command.size maxSize Frame.maxLinkBytes
  omega

theorem short_flatMap (ps : List SgrParameter) :
    (ps.flatMap fun p => ";" :: p.pieces).length ≤ 8 * ps.length ∧
      ∀ piece ∈ ps.flatMap fun p => ";" :: p.pieces, IsShortPiece piece := by
  constructor
  · induction ps with
    | nil => exact Nat.le_refl 0
    | cons p ps ih =>
      have hlength := p.short_pieces.1
      rw [List.flatMap_cons, List.length_append, List.length_cons, List.length_cons]
      omega
  · intro piece hpiece
    obtain ⟨p, -, hp⟩ := List.mem_flatMap.mp hpiece
    rcases List.mem_cons.mp hp with rfl | hp
    · decide
    · exact p.short_pieces.2 piece hp

theorem short_separated (ps : List SgrParameter) :
    (separated ps).length ≤ 8 * ps.length ∧ ∀ piece ∈ separated ps, IsShortPiece piece := by
  induction ps with
  | nil => exact ⟨Nat.le_refl 0, List.forall_mem_nil _⟩
  | cons p ps ih =>
    obtain ⟨hlength, hpieces⟩ := p.short_pieces
    cases ps with
    | nil => exact ⟨hlength.trans (by simp), hpieces⟩
    | cons q qs =>
      rw [separated.eq_3 p (q :: qs) (List.cons_ne_nil q qs)]
      constructor
      · rw [List.length_append, List.length_cons, List.length_cons]
        omega
      · intro piece hpiece
        rcases List.mem_append.mp hpiece with hpiece | hpiece
        · exact hpieces piece hpiece
        · rcases List.mem_cons.mp hpiece with rfl | hpiece
          · decide
          · exact ih.2 piece hpiece

theorem size_restyle_le {ps : List SgrParameter} (h : ps.length ≤ 10) :
    (restyle ps).size ≤ maxSize := by
  obtain ⟨hlength, hpieces⟩ := short_flatMap ps
  apply size_le_of_short
  · simp only [pieces, List.cons_append, List.length_cons, List.length_append, List.length_nil]
    omega
  · intro piece hpiece
    simp only [pieces, List.cons_append, List.mem_cons, List.mem_append, List.not_mem_nil,
      or_false] at hpiece
    rcases hpiece with rfl | hpiece | rfl
    · decide
    · exact hpieces piece hpiece
    · decide

theorem size_adjustStyle_le {ps : List SgrParameter} (h : ps.length ≤ 10) :
    (adjustStyle ps).size ≤ maxSize := by
  obtain ⟨hlength, hpieces⟩ := short_separated ps
  apply size_le_of_short
  · simp only [pieces, List.cons_append, List.length_cons, List.length_append, List.length_nil]
    omega
  · intro piece hpiece
    simp only [pieces, List.cons_append, List.mem_cons, List.mem_append, List.not_mem_nil,
      or_false] at hpiece
    rcases hpiece with rfl | hpiece | rfl
    · decide
    · exact hpieces piece hpiece
    · decide

/-- A command with numbers below the largest side. -/
theorem size_pair_le {c : Command} {m n : Nat} {final : String} (hm : m ≤ sideBound)
    (hn : n ≤ sideBound) (hfinal : IsShortPiece final)
    (h : c.pieces = ["\x1b[", toString m, ";", toString n, final]) : c.size ≤ maxSize := by
  simp only [sideBound] at hm hn
  have hm' := utf8ByteSize_toString_le (n := m) (by omega)
  have hn' := utf8ByteSize_toString_le (n := n) (by omega)
  have hlit : IsShortPiece "\x1b[" ∧ IsShortPiece ";" := by decide
  apply size_le_of_short
  · simp [h]
  · rw [h]
    simpa using ⟨hlit.1, hm', hlit.2, hn', hfinal⟩

theorem size_number_le {c : Command} {n : Nat} {final : String} (hn : n ≤ sideBound)
    (hfinal : IsShortPiece final) (h : c.pieces = ["\x1b[", toString n, final]) :
    c.size ≤ maxSize := by
  simp only [sideBound] at hn
  have hn' := utf8ByteSize_toString_le (n := n) (by omega)
  have hlit : IsShortPiece "\x1b[" := by decide
  apply size_le_of_short
  · simp [h]
  · rw [h]
    simpa using ⟨hlit, hn', hfinal⟩

theorem Arises.size_le {kind : SgrStyle → Prop} {caps : Capabilities} {f : Frame} {c : Command}
    (h : c.Arises kind caps f) (hlinks : f.HasShortLinks) : c.size ≤ maxSize := by
  cases h with
  | cursorTo hx hy => exact size_pair_le hy hx (by decide) rfl
  | establish s => exact size_restyle_le (SgrStyle.length_parameters_le _)
  | adjust s _ => exact size_adjustStyle_le (SgrStyle.length_changes_le _ _)
  | @openLink _ uri _ huri =>
    have hshort := hlinks uri (Frame.mem_links_of_linkUri? huri)
    have hlit : "\x1b]8;;".utf8ByteSize = 5 ∧ "\x1b\\".utf8ByteSize = 2 := by decide
    simp only [Command.size, pieces, List.map_cons, List.map_nil, total_cons, total_nil, hlit.1,
      hlit.2, maxSize]
    omega
  | @text _ _ c _ =>
    have hglyph := c.size_le
    simp only [Command.size, pieces, List.map_cons, List.map_nil, total_cons, total_nil, maxSize,
      Cell.maxGlyphBytes, Frame.maxLinkBytes] at hglyph ⊢
    omega
  | shapeCursor k _ =>
    have hk : k.number ≤ sideBound := by cases k <;> decide
    exact size_number_le hk (by decide) rfl
  | scrollRegion _ htop hbottom => exact size_pair_le htop hbottom (by decide) rfl
  | scrollUp _ hlines => exact size_number_le hlines.le (by decide) rfl
  | scrollDown _ hlines => exact size_number_le hlines.le (by decide) rfl
  | _ => decide

end Command

end CellCanvas
