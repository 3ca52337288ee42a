import CellCanvas.Style
import CellCanvas.Style.FlagText
import CellCanvas.Text.Quoted

/-!
# Cells

A cell shows one grapheme cluster. Width 1 is a normal cell, width 2 the lead of a wide glyph, and
width 0 the continuation to the right of a lead. Cells that the library builds hold short text
without control characters, so a cell can never smuggle a control sequence to the terminal.
-/

namespace CellCanvas

/-- Whether a character is a control: below the space, DEL, or one of the 32 from U+0080. -/
def isControl (c : Char) : Bool :=
  c.toNat < 0x20 || (0x7F ≤ c.toNat && c.toNat ≤ 0x9F)

/-- Whether a text holds no control. -/
def isSafeText (text : String) : Bool := text.toList.all fun c => !isControl c

/-- Whether bytes are a text without controls. -/
def isSafeBytes (bytes : ByteArray) : Bool := (String.fromUTF8? bytes).any isSafeText

/-- The most bytes that the glyph of a cell may have. -/
def Cell.maxGlyphBytes : Nat := 32

/-- One column of the screen. Only a cell without columns stores no text. -/
structure Cell where
  glyph : String
  width : Nat
  style : Style
  isSafe : isSafeText glyph = true
  size_le : glyph.utf8ByteSize ≤ Cell.maxGlyphBytes
  width_eq_zero : glyph = "" → width = 0
deriving DecidableEq, Repr

namespace Cell

/-- A space. -/
def blank (style : Style) : Cell := ⟨" ", 1, style, by decide, by decide, by decide⟩

/-- A space in the plain style. -/
def empty : Cell := blank .plain

instance : Inhabited Cell := ⟨empty⟩

/-- The right half of a wide glyph. -/
def continuation (style : Style) : Cell := ⟨"", 0, style, by decide, by decide, fun _ => rfl⟩

/-- The sign that stands for text that cannot be shown. -/
def replacement (style : Style) : Cell := ⟨"\ufffd", 1, style, by decide, by decide, by decide⟩

/-- The cell of a cluster: a space for no text, the replacement sign for text that is too long or
unsafe. -/
def ofCluster (text : String) (width : Nat) (style : Style) : Cell :=
  if h₀ : text = "" then blank style
  else if h : isSafeText text = true ∧ text.utf8ByteSize ≤ maxGlyphBytes then
    ⟨text, width, style, h.1, h.2, fun h' => absurd h' h₀⟩
  else replacement style

/-- The cell of a cluster given as bytes; bytes that are no text give the replacement sign. -/
def ofBytes (bytes : ByteArray) (width : Nat) (style : Style) : Cell :=
  match String.fromUTF8? bytes with
  | some text => ofCluster text width style
  | none => replacement style

/-- Whether the cell is the right half of a wide glyph. -/
def isContinuation (c : Cell) : Bool := c.width == 0

/-- Whether the cell is the lead of a wide glyph. -/
def isWide (c : Cell) : Bool := c.width == 2

/-- Whether the cell stores no text. -/
def isEmpty (c : Cell) : Bool := c.glyph.isEmpty

/-- Whether the cell is a space of width 1. -/
def isBlank (c : Cell) : Bool := c.width == 1 && c.glyph == " "

/-- The same glyph in another style. -/
def withStyle (c : Cell) (style : Style) : Cell := { c with style }

/-- The cell without its link. -/
def unlinked (c : Cell) : Cell := c.withStyle c.style.unlinked

/-- A short description for logs: the quoted glyph and all that differs from a plain cell. -/
def describe (c : Cell) : String :=
  if c.isContinuation then "Cell(continuation)"
  else
    let s := c.style
    let color (label : String) (x : Color) : String :=
      if x.word = 0 then "" else ", " ++ label ++ "=#" ++ Text.hex 6 x.word.toNat
    "Cell(" ++ Text.Quoted.quoted c.glyph
      ++ (if c.isWide then ", wide" else "")
      ++ color "fg" s.foreground ++ color "bg" s.background
      ++ (if s.attributes.isEmpty then "" else ", Attr(" ++ s.attributes.written ++ ")")
      ++ (if s.link = 0 then "" else ", link=" ++ toString s.link)
      ++ ")"

end Cell

end CellCanvas
