import CellCanvas.Text.Columns.Properties
import CellCanvas.Text.Ranges

/-!
# Columns of a cluster

How many columns, at most two, a grapheme cluster takes. The characters are read from the last to
the first, because a variation selector or a subscript letter changes the width of what precedes
it; `Following` is what the reader remembers of the characters after the current one. A cluster
takes two columns as soon as its characters do, so rules that only tell larger sums apart are not
needed.
-/

namespace CellCanvas.Text.Columns

open Ranges

/-- What follows the current character, as far as it matters for its width. -/
inductive Following where
  | anything
  | lineFeed
  | textSelector
  | pictureSelector
  | subscriptLetter
  | vowelE
  | vowelAi
deriving DecidableEq, Repr

/-- The width of a character on its own, and what it is to the character before it. -/
def alone (c : Char) : Int × Following :=
  let n := c.toNat
  if n = 0xA then (1, .lineFeed)
  else if n ≤ 0xA0 then (1, .anything)
  else if n = 0xFE0E then (0, .textSelector)
  else if n = 0xFE0F then (0, .pictureSelector)
  else if n = 0x16D67 then (1, .vowelE)
  else if n = 0x16D68 then (1, .vowelAi)
  else if covers subscriptLetter c then (1, .subscriptLetter)
  else if covers zero c then (0, .anything)
  else if covers wide c then (2, .anything)
  else (1, .anything)

/-- What a character adds to the width, given what follows it. -/
def contribution (next : Following) (c : Char) : Int × Following :=
  let n := c.toNat
  match next with
  | .lineFeed => if n = 0xD then (0, .anything) else alone c
  | .textSelector => if covers textEmoji c then (1, .anything) else alone c
  | .pictureSelector => if covers narrowEmoji c then (2, .anything) else alone c
  | .subscriptLetter =>
    if n = 0x17D2 then (-1, .anything)
    else if n = 0x200D || covers ignorableMark c then (0, .subscriptLetter)
    else alone c
  | .vowelE =>
    if n = 0x16D63 || n = 0x16D69 then (0, .anything)
    else if n = 0x16D67 then (0, .vowelAi)
    else if n = 0x16D68 then (1, .vowelE)
    else alone c
  | .vowelAi => if n = 0x16D63 then (0, .anything) else alone c
  | .anything => alone c

/-- The sum over a text, read from its end, with what its first character is to one before it. -/
def measure (cs : List Char) : Int × Following :=
  cs.foldr (fun c (width, next) =>
    let (own, seen) := contribution next c
    (width + own, seen)) (0, .anything)

/-- The columns of a cluster: none, one or two. -/
def columns (cluster : List Char) : Nat := min (measure cluster).1.toNat 2

end CellCanvas.Text.Columns
