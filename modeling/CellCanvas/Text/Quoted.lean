import CellCanvas.Text.Numeral
import CellCanvas.Text.Quoted.Properties
import CellCanvas.Text.Ranges

/-!
# Quoted texts

A text between double quotes, in which characters without a visible form of their own are written
as escapes.
-/

namespace CellCanvas.Text.Quoted

open Ranges

/-- How a character is written between quotes. -/
def escape (c : Char) : String :=
  match c with
  | '\x00' => "\\0"
  | '\t' => "\\t"
  | '\n' => "\\n"
  | '\r' => "\\r"
  | '"' => "\\\""
  | '\\' => "\\\\"
  | _ =>
    if 0x20 ≤ c.toNat ∧ c.toNat < 0x7F then c.toString
    else if covers attaching c || covers invisible c then
      "\\u\x7b" ++ Text.hex 1 c.toNat ++ "\x7d"
    else c.toString

/-- A text between quotes. -/
def quoted (text : String) : String :=
  "\"" ++ String.join (text.toList.map escape) ++ "\""

end CellCanvas.Text.Quoted
