import CellCanvas.Proofs.Wire.Writing
import CellCanvas.Proofs.Session.Sizes

/-!
# Emitters

An emitter writes a command, or the parameters of a colour. In a buffer with a limit it leaves the
pieces before the first that does not fit and none behind it, also where a later one is shorter.
-/

namespace CellCanvas

/-- What can be emitted, with its arguments. A text in memory has fewer than `2 ^ 63` bytes. -/
inductive Emitter where
  | cursorTo (x y : UInt16)
  | hideCursor
  | showCursor
  | shapeCursor (shape : CursorShape)
  | clearScreen
  | resetStyle
  | scrollRegion (top bottom : UInt16)
  | resetScrollRegion
  | scrollUp (lines : UInt16)
  | scrollDown (lines : UInt16)
  | color (c : ShownColor) (base : UInt8)
  | underlineColor (c : Color)
  | establish (s : SgrStyle)
  | change (a b : SgrStyle)
  | openLink (uri : String) (h : uri.utf8ByteSize < 2 ^ 63)
  | closeLink
  | beginUpdate
  | endUpdate
  | enterAlternateScreen
  | leaveAlternateScreen

namespace Emitter

open Writing

/-- What is written, step by step. -/
def writing : Emitter → Writing Unit
  | cursorTo x y => format ["\x1b[", toString (y.toUInt32 + 1), ";", toString (x.toUInt32 + 1), "H"]
  | hideCursor => write "\x1b[?25l"
  | showCursor => write "\x1b[?25h"
  | shapeCursor shape => format ["\x1b[", toString shape.number, " q"]
  | clearScreen => write "\x1b[2J"
  | resetStyle => write "\x1b[0m"
  | scrollRegion top bottom =>
    format ["\x1b[", toString (top.toUInt32 + 1), ";", toString (bottom.toUInt32 + 1), "r"]
  | resetScrollRegion => write "\x1b[r"
  | scrollUp lines => format ["\x1b[", toString lines, "S"]
  | scrollDown lines => format ["\x1b[", toString lines, "T"]
  | color c base => Writing.color c base
  | underlineColor c => Writing.underlineColor c
  | establish s => Writing.establish s
  | change a b => Writing.change a b
  | openLink uri _ => format ["\x1b]8;;", uri, "\x1b\\"]
  | closeLink => write "\x1b]8;;\x1b\\"
  | beginUpdate => write "\x1b[?2026h"
  | endUpdate => write "\x1b[?2026l"
  | enterAlternateScreen => write "\x1b[?1049h"
  | leaveAlternateScreen => write "\x1b[?1049l"

/-- The commands that are written. The parameters of a colour are only part of one. -/
def commands : Emitter → List Command
  | cursorTo x y => [.cursorTo x.toNat y.toNat]
  | hideCursor => [.hideCursor]
  | showCursor => [.showCursor]
  | shapeCursor shape => [.shapeCursor shape]
  | clearScreen => [.clearScreen]
  | resetStyle => [.resetStyle]
  | scrollRegion top bottom => [.scrollRegion top.toNat bottom.toNat]
  | resetScrollRegion => [.resetScrollRegion]
  | scrollUp lines => [.scrollUp lines.toNat]
  | scrollDown lines => [.scrollDown lines.toNat]
  | color .. | underlineColor .. => []
  | establish s => [.establish s]
  | change a b => Command.restyling a b
  | openLink uri _ => [.openLink uri]
  | closeLink => [.closeLink]
  | beginUpdate => [.beginUpdate]
  | endUpdate => [.endUpdate]
  | enterAlternateScreen => [.enterAlternateScreen]
  | leaveAlternateScreen => [.leaveAlternateScreen]

/-- The pieces of what is written. -/
def pieces : Emitter → List String
  | color c base => SgrParameter.colorPieces base.toNat c
  | underlineColor c => (SgrParameter.underline c).pieces
  | e => e.commands.flatMap Command.pieces

theorem toString_succ (n : UInt16) : toString (n.toUInt32 + 1) = toString (n.toNat + 1) := by
  have hn := n.toNat_lt
  change toString (n.toUInt32 + 1).toNat = _
  rw [UInt32.toNat_add, UInt16.toNat_toUInt32]
  exact congrArg toString (Nat.mod_eq_of_lt (show n.toNat + 1 < 2 ^ 32 by omega))

theorem writing_eq (e : Emitter) : e.writing = format e.pieces := by
  cases e with
  | cursorTo x y => rw [writing, toString_succ, toString_succ]; rfl
  | scrollRegion top bottom => rw [writing, toString_succ, toString_succ]; rfl
  | color c base => exact color_eq c base
  | underlineColor c => exact underlineColor_eq c
  | establish s => exact (establish_eq s).trans (congrArg format (List.flatMap_singleton _ _).symm)
  | change a b => exact change_eq a b
  | shapeCursor | scrollUp | scrollDown | openLink => rfl
  | _ => exact (format_singleton _).symm

theorem total_pieces_of_command {c : Command} (h : c.size ≤ Command.maxSize) :
    total (([c].flatMap Command.pieces).map String.utf8ByteSize) ≤ Size.largest := by
  rw [List.flatMap_singleton]
  exact h.trans (by decide)

theorem total_of_short {ps : List String} (h : ps.length ≤ 7 ∧ ∀ p ∈ ps, IsShortPiece p) :
    total (ps.map String.utf8ByteSize) ≤ Size.largest := by
  have htotal : total (ps.map String.utf8ByteSize) ≤ 20 * ps.length := by
    simpa using total_le (ps.map String.utf8ByteSize) (by simpa using h.2)
  have hlargest : 140 ≤ Size.largest := by decide
  omega

theorem total_pieces_le (e : Emitter) :
    total (e.pieces.map String.utf8ByteSize) ≤ Size.largest := by
  have hside (n : UInt16) : n.toNat + 1 ≤ sideBound := n.toNat_lt
  cases e with
  | color c base => exact total_of_short (SgrParameter.short_colorPieces base.toNat_lt c)
  | underlineColor c => exact total_of_short (SgrParameter.underline c).short_pieces
  | openLink uri h =>
    have hlit : "\x1b]8;;".utf8ByteSize = 5 ∧ "\x1b\\".utf8ByteSize = 2 := by decide
    have hlargest : Size.largest = 2 ^ 64 - 1 := by decide
    simp only [pieces, commands, List.flatMap_singleton, Command.pieces, List.map_cons,
      List.map_nil, total_cons, total_nil, hlit.1, hlit.2]
    omega
  | establish s =>
    exact total_pieces_of_command (Command.size_restyle_le s.length_parameters_le)
  | change a b =>
    simp only [pieces, commands, Command.restyling]
    split_ifs
    · exact Nat.zero_le _
    · exact total_pieces_of_command (Command.size_adjustStyle_le (a.length_changes_le b))
    · exact total_pieces_of_command (Command.size_restyle_le b.length_parameters_le)
  | cursorTo x y =>
    exact total_pieces_of_command (Command.size_pair_le (hside y) (hside x) (by decide) rfl)
  | scrollRegion top bottom =>
    exact total_pieces_of_command
      (Command.size_pair_le (hside top) (hside bottom) (by decide) rfl)
  | shapeCursor shape =>
    have hshape : shape.number ≤ sideBound := by cases shape <;> decide
    exact total_pieces_of_command (Command.size_number_le hshape (by decide) rfl)
  | scrollUp lines =>
    exact total_pieces_of_command
      (Command.size_number_le ((Nat.le_succ _).trans (hside lines)) (by decide) rfl)
  | scrollDown lines =>
    exact total_pieces_of_command
      (Command.size_number_le ((Nat.le_succ _).trans (hside lines)) (by decide) rfl)
  | _ => decide

/-- All bytes of what is written. -/
def bytes (e : Emitter) : ByteArray := (String.join e.pieces).toUTF8

theorem size_bytes_le (e : Emitter) : e.bytes.size ≤ Size.largest := by
  rw [bytes, String.toUTF8_eq_toByteArray, String.size_toByteArray, utf8ByteSize_join]
  exact e.total_pieces_le

theorem into_eq (e : Emitter) (o : Output) : e.writing.into o = o.write e.pieces := by
  rw [writing_eq, into_format]

theorem into_of_le {e : Emitter} {o : Output} (h : e.bytes.size ≤ o.remaining) :
    e.writing.into o = (o.push e.bytes, none) :=
  (e.into_eq o).trans (Output.write_of_le h)

theorem into_unbounded (e : Emitter) : e.writing.into .unbounded = (⟨e.bytes, none⟩, none) := by
  rw [into_of_le e.size_bytes_le]
  exact congrArg (fun bytes => (Output.mk bytes none, none)) ByteArray.empty_append

theorem into_of_lt {e : Emitter} {o : Output} (h : o.remaining < e.bytes.size) :
    ∃ before piece after, o.IsCut e.pieces before piece after ∧
      e.writing.into o = (o.push (String.join before).toUTF8, some .writeZero) := by
  rw [into_eq]
  cases hlimit : o.limit with
  | none =>
    have hremaining : o.remaining = Size.largest := by rw [Output.remaining, hlimit]
    exact absurd h (Nat.not_lt.mpr (hremaining ▸ e.size_bytes_le))
  | some n => exact Output.write_of_lt hlimit h

theorem bytes_of_isCut {e : Emitter} {o : Output} {before after : List String} {piece : String}
    (h : o.IsCut e.pieces before piece after) :
    e.bytes = (String.join before).toUTF8 ++ (String.join (piece :: after)).toUTF8 := by
  rw [bytes, h.pieces_eq, String.join_append]
  exact String.toByteArray_append

theorem size_into_le {e : Emitter} {o : Output} {n : ℕ} (hlimit : o.limit = some n)
    (hpending : o.pending.size ≤ n) : (e.writing.into o).1.pending.size ≤ n := by
  rcases le_or_gt e.bytes.size o.remaining with hle | hlt
  · rw [into_of_le hle]
    exact Output.size_push_le hlimit hpending hle
  · obtain ⟨before, piece, after, hcut, hinto⟩ := into_of_lt hlt
    rw [hinto]
    exact Output.size_push_le hlimit hpending hcut.fits

/-- An emitter offers the pieces of what it writes one by one, on every sink. A buffer that has
room for all of them takes them all; one that has not takes those before the first that does not
fit, and the emitter fails there. -/
theorem emits_prefix (e : Emitter) (o : Output) :
    let s := (e.writing.into .unbounded).1.pending
    e.writing = format e.pieces ∧ e.writing.into o = o.write e.pieces ∧
      s = (String.join e.pieces).toUTF8 ∧ e.writing.into .unbounded = (⟨s, none⟩, none) ∧
      (s.size ≤ o.remaining → e.writing.into o = (o.push s, none)) ∧
      (o.remaining < s.size → ∃ before piece after, o.IsCut e.pieces before piece after ∧
        s = (String.join before).toUTF8 ++ (String.join (piece :: after)).toUTF8 ∧
        e.writing.into o = (o.push (String.join before).toUTF8, some .writeZero)) ∧
      ∀ n, o.limit = some n → o.pending.size ≤ n →
        (e.writing.into o).1.pending.size ≤ n := by
  intro s
  have hs : s = e.bytes := congrArg (fun r => r.1.pending) e.into_unbounded
  rw [hs]
  refine ⟨e.writing_eq, e.into_eq o, rfl, e.into_unbounded, into_of_le, fun hlt => ?_,
    fun n => size_into_le⟩
  obtain ⟨before, piece, after, hcut, hinto⟩ := into_of_lt hlt
  exact ⟨before, piece, after, hcut, bytes_of_isCut hcut, hinto⟩

/-- Turn bold on and the foreground orange. -/
def boldOrange : Emitter :=
  .change ⟨.indexed 7, .indexed 0, .empty, .black⟩ ⟨.direct 255 128 0, .indexed 0, ⟨1⟩, .black⟩

/-- A buffer with some bytes of a limit of `n`. -/
def started (n : ℕ) : Output := ⟨"text".toUTF8, some n⟩

/-- With room for eight bytes the second piece of the colour does not fit. The semicolon behind it
would, but the emitter has failed by then. With room for sixty all is written. -/
theorem emits_prefix_bold_orange :
    let s := (boldOrange.writing.into .unbounded).1.pending
    (started 12).remaining < s.size ∧
      (∃ before piece after, (started 12).IsCut boldOrange.pieces before piece after ∧
        boldOrange.writing.into (started 12) =
          ((started 12).push (String.join before).toUTF8, some .writeZero)) ∧
      (boldOrange.writing.into (started 12)).1.pending = "text\x1b[1;38".toUTF8 ∧
      (boldOrange.writing.into (started 12)).1.pending.size ≤ 12 ∧
      s.size ≤ (started 64).remaining ∧
      boldOrange.writing.into (started 64) = ((started 64).push s, none) := by
  intro s
  obtain ⟨-, hwrite, hs, -, -, hstops, hlimit⟩ := emits_prefix boldOrange (started 12)
  obtain ⟨-, -, -, -, hfits, -, -⟩ := emits_prefix boldOrange (started 64)
  have hsize : s.size = 19 := by
    change ByteArray.size (boldOrange.writing.into .unbounded).1.pending = _
    rw [hs]
    decide +kernel
  have hlt : (started 12).remaining < s.size := by
    rw [hsize]
    decide
  have hle : s.size ≤ (started 64).remaining := by
    rw [hsize]
    decide
  obtain ⟨before, piece, after, hcut, -, hinto⟩ := hstops hlt
  refine ⟨hlt, ⟨before, piece, after, hcut, hinto⟩, ?_, hlimit 12 rfl (by decide), hle, hfits hle⟩
  rw [hwrite]
  decide +kernel

end Emitter

end CellCanvas
