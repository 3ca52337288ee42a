import CellCanvas.Text.Numeral
import CellCanvas.Toml.Spacing

/-!
# Quoted strings

A TOML string stands between double or single quotation marks, one of each for a string within a
line and three for one of several lines. Between double marks a backslash starts an escape.
-/

namespace CellCanvas.Toml

/-- How a string is quoted. -/
structure Quotation where
  mark : Char
  severalLines : Bool
deriving DecidableEq, Repr

namespace Quotation

/-- Escapes stand between double marks only. -/
def escapes (q : Quotation) : Bool := q.mark = '"'

/-- The character with the number that `count` hexadecimal digits name. -/
def numbered? (count : Nat) (cs : List Char) : Option Char := do
  let digits := cs.take count
  if digits.length ≠ count then none
  let n ← Text.digitsValue? 16 0 digits
  if n.isValidChar then some (Char.ofNat n) else none

/-- The character that an escape stands for, and how many characters follow the backslash. -/
def escaped? : List Char → Option (Char × Nat)
  | 'b' :: _ => some ('\x08', 1)
  | 't' :: _ => some ('\t', 1)
  | 'n' :: _ => some ('\n', 1)
  | 'f' :: _ => some ('\x0c', 1)
  | 'r' :: _ => some ('\r', 1)
  | '"' :: _ => some ('"', 1)
  | '\\' :: _ => some ('\\', 1)
  | 'u' :: rest => (numbered? 4 rest).map (·, 5)
  | 'U' :: rest => (numbered? 8 rest).map (·, 9)
  | _ => none

/-- The text after a line break that a backslash hides in a string of several lines, together with
all space that follows. -/
def afterHiddenBreak? (q : Quotation) (cs : List Char) : Option (List Char) :=
  if q.severalLines && (afterBreak? (afterBlanks cs)).isSome then some (afterSpace cs) else none

theorem length_afterHiddenBreak?_le {q : Quotation} {cs rest : List Char}
    (h : afterHiddenBreak? q cs = some rest) : rest.length ≤ cs.length := by
  unfold afterHiddenBreak? at h
  split at h
  · cases h
    exact length_afterSpace_le cs
  · cases h

/-- Put a character before the content of a string. -/
def prepend (c : Char) : List Char × List Char → List Char × List Char
  | (content, rest) => (c :: content, rest)

/-- The content of a string after its opening marks, and the text after its closing marks.
In a string of several lines up to two marks are content, also right before the closing ones. -/
def content? (q : Quotation) : List Char → Option (List Char × List Char)
  | [] => none
  | c :: rest =>
    if c = q.mark then
      let more := (rest.takeWhile (· = q.mark)).length
      if !q.severalLines then some ([], rest)
      else if more < 2 then (content? q rest).map (prepend c)
      else
        let inner := min (more - 2) 2
        some (List.replicate inner c, rest.drop (inner + 2))
    else if c = '\\' && q.escapes then
      match h : afterHiddenBreak? q rest with
      | some rest' =>
        have := length_afterHiddenBreak?_le h
        content? q rest'
      | none =>
        match escaped? rest with
        | some (e, taken) => (content? q (rest.drop taken)).map (prepend e)
        | none => none
    else if isPlain c then (content? q rest).map (prepend c)
    else if q.severalLines && c = '\n' then (content? q rest).map (prepend c)
    else
      match c, rest with
      | '\r', '\n' :: rest' =>
        if q.severalLines then (content? q rest').map (prepend '\n') else none
      | _, _ => none
termination_by cs => cs.length

/-- Read a string within a line. -/
def line? (cs : List Char) : Option (String × List Char) :=
  match cs with
  | '"' :: rest | '\'' :: rest => do
    let (content, rest) ← content? ⟨cs.headD '"', false⟩ rest
    return (String.ofList content, rest)
  | _ => none

/-- Read a string of any kind. A line break right after three opening marks does not count. -/
def read? (cs : List Char) : Option (String × List Char) :=
  match cs with
  | '"' :: '"' :: '"' :: rest | '\'' :: '\'' :: '\'' :: rest => do
    let (content, rest) ← content? ⟨cs.headD '"', true⟩ (afterOptionalBreak rest)
    return (String.ofList content, rest)
  | _ => line? cs

end Quotation

end CellCanvas.Toml
