import CellCanvas.Style.Attributes
import CellCanvas.Text.Blank
import CellCanvas.Text.Numeral

/-!
# Attribute sets as text

A set is written as names joined by bars, such as `BOLD | ITALIC`; bits without a name are written
as one hexadecimal number. Blank text is the empty set when read.
-/

namespace CellCanvas

/-- The name of an attribute in configuration texts. -/
def Attribute.name : Attribute → String
  | .bold => "BOLD"
  | .italic => "ITALIC"
  | .underline => "UNDERLINE"
  | .reverse => "REVERSE"
  | .strikethrough => "STRIKETHROUGH"
  | .dim => "DIM"
  | .blink => "BLINK"

namespace Attributes

/-- One entry between bars: a name, or bits after `0x`. -/
def readFlag? (cs : List Char) : Option Attributes :=
  match cs with
  | '0' :: 'x' :: digits =>
    (Text.readNumeral? 16 256 digits).map fun n => ⟨UInt8.ofNat n⟩
  | _ => (Attribute.byBit.find? fun a => a.name.toList = cs).map fun a => ⟨a.mask⟩

/-- Read a set of attributes. -/
def read? (text : String) : Option Attributes :=
  let cs := text.toList
  if (Text.trim cs).isEmpty then some empty
  else (Text.pieces '|' cs).foldlM (fun set piece =>
    (readFlag? (Text.trim piece)).map set.union) empty

/-- The bits that no attribute stands for. -/
def unnamed (a : Attributes) : Attributes := a.without all

/-- The written form of a set. -/
def written (a : Attributes) : String :=
  let names := (Attribute.byBit.filter a.has).map Attribute.name
  let rest := if a.unnamed.isEmpty then [] else ["0x" ++ Text.hex 1 a.unnamed.bits.toNat]
  match names ++ rest with
  | [] => "0x0"
  | parts => String.intercalate " | " parts

end Attributes

end CellCanvas
