/-!
# Blanks, comments and line breaks

The parts of a TOML text that carry no value. Only spaces and tabs are blank within a line, only a
line feed, alone or after a carriage return, ends a line, and a comment runs to the end of its
line.
-/

namespace CellCanvas.Toml

/-- Spaces and tabs are blank. -/
def isBlank (c : Char) : Bool := c = ' ' || c = '\t'

/-- Comments and strings hold the tab and every character that is no ASCII control character. -/
def isPlain (c : Char) : Bool := c = '\t' || (0x20 ≤ c.toNat && c.toNat ≠ 0x7F)

/-- The text after its leading blanks. -/
def afterBlanks (cs : List Char) : List Char := cs.dropWhile isBlank

/-- The text after one line break. -/
def afterBreak? : List Char → Option (List Char)
  | '\n' :: rest => some rest
  | '\r' :: '\n' :: rest => some rest
  | _ => none

/-- The text after a line break, if there is one. -/
def afterOptionalBreak (cs : List Char) : List Char := (afterBreak? cs).getD cs

/-- The text after the end of a line that holds nothing more than a comment. -/
def afterLine? (cs : List Char) : Option (List Char) :=
  let rest := match afterBlanks cs with
    | '#' :: comment => comment.dropWhile isPlain
    | rest => rest
  if rest.isEmpty then some [] else afterBreak? rest

/-- The text after blanks and line breaks. -/
def afterSpace : List Char → List Char
  | ' ' :: rest => afterSpace rest
  | '\t' :: rest => afterSpace rest
  | '\n' :: rest => afterSpace rest
  | '\r' :: '\n' :: rest => afterSpace rest
  | cs => cs

theorem length_afterSpace_le (cs : List Char) : (afterSpace cs).length ≤ cs.length := by
  fun_induction afterSpace cs <;> grind

/-- The text after blanks, line breaks and comments. -/
def afterGaps (cs : List Char) : List Char :=
  match h : afterSpace cs with
  | '#' :: comment =>
    have : (comment.dropWhile isPlain).length < cs.length := by
      have bound := length_afterSpace_le cs
      have shorter := (List.dropWhile_sublist (l := comment) isPlain).length_le
      simp only [h, List.length_cons] at bound
      omega
    afterGaps (comment.dropWhile isPlain)
  | rest => rest
termination_by cs.length

end CellCanvas.Toml
