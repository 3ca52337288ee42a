import CellCanvas.Toml.Moment
import CellCanvas.Toml.Number
import CellCanvas.Toml.Quotation
import CellCanvas.Toml.Table

/-!
# Keys, values and lines

What stands on the lines of a document. Every reader takes the text from where it starts and gives
what it read with the text that is left.
-/

namespace CellCanvas.Toml

/-- What is read from the beginning of a text, if the text begins so. -/
abbrev Reader (α : Type) := List Char → Option (α × List Char)

/-- The characters of keys without quotation marks. -/
def isBare (c : Char) : Bool := c.isAlphanum || c = '_' || c = '-'

/-- The characters of numbers, truth values, dates and times. -/
def isUnquoted (c : Char) : Bool := isBare c || c = '+' || c = '.' || c = ':'

/-- One part of a dotted key. -/
def keyPart? : Reader String := fun cs =>
  match cs with
  | '"' :: _ | '\'' :: _ => Quotation.line? cs
  | _ =>
    let name := cs.takeWhile isBare
    if name.isEmpty then none else some (String.ofList name, cs.dropWhile isBare)

/-- The parts of a dotted key, with blanks around them. -/
def keyParts? (cs : List Char) : Option (List String × List Char) :=
  match keyPart? (afterBlanks cs) with
  | none => none
  | some (part, rest) =>
    match afterBlanks rest with
    | '.' :: more =>
      if more.length < cs.length then
        (keyParts? more).map fun (parts, rest) => (part :: parts, rest)
      else none
    | rest => some ([part], rest)
termination_by cs.length

/-- Keys have fewer parts than this, and values are nested less deep. -/
def nestingBound : Nat := 80

/-- A dotted key. -/
def key? : Reader Key := fun cs => do
  let (parts, rest) ← keyParts? cs
  if parts.length ≥ nestingBound then none
  return (⟨parts.dropLast, ← parts.getLast?⟩, rest)

/-- The rest of a text that begins with a given character. -/
def afterMark? (mark : Char) : List Char → Option (List Char)
  | c :: rest => if c = mark then some rest else none
  | [] => none

/-- The value that a text without quotation marks stands for. -/
def Value.ofUnquoted? (cs : List Char) : Option Value :=
  if cs = ['t', 'r', 'u', 'e'] then some (.boolean true)
  else if cs = ['f', 'a', 'l', 's', 'e'] then some (.boolean false)
  else if Moment.isMoment cs then some .moment
  else if isFloat cs then some .float
  else (integer? cs).map .integer

/-- A number, a truth value, a date or a time. A blank may stand between a date and a time. -/
def unquoted? : Reader Value := fun cs =>
  let word := cs.takeWhile isUnquoted
  let rest := cs.dropWhile isUnquoted
  match rest with
  | ' ' :: more =>
    let next := more.takeWhile isUnquoted
    if Moment.isDate word && !next.isEmpty then
      (Value.ofUnquoted? (word ++ ' ' :: next)).map (·, more.dropWhile isUnquoted)
    else (Value.ofUnquoted? word).map (·, rest)
  | _ => (Value.ofUnquoted? word).map (·, rest)

/-- Items with commas between them up to a closing mark, at least one. Space may surround the
items. -/
def items? {α : Type} (item : Reader α) (space : List Char → List Char) (close : Char)
    (finalComma : Bool) (cs : List Char) : Option (List α × List Char) :=
  match item (space cs) with
  | none => none
  | some (x, rest) =>
    match space rest with
    | [] => none
    | c :: rest =>
      if c = close then some ([x], rest)
      else if c ≠ ',' then none
      else
        match (if finalComma then afterMark? close (space rest) else none) with
        | some rest => some ([x], rest)
        | none =>
          if rest.length < cs.length then
            (items? item space close finalComma rest).map fun (xs, rest) => (x :: xs, rest)
          else none
termination_by cs.length

/-- A key, an equals sign and a value. -/
def assignment? (value : Reader Value) : Reader (Key × Value) := fun cs => do
  let (k, rest) ← key? cs
  let (v, rest) ← value (afterBlanks (← afterMark? '=' rest))
  return ((k, v), rest)

/-- The items of an array after its opening bracket. -/
def array? (value : Reader Value) : Reader Value := fun cs =>
  match afterMark? ']' (afterGaps cs) with
  | some rest => some (.list [], rest)
  | none => (items? value afterGaps ']' true cs).map fun (vs, rest) => (.list vs, rest)

/-- The entries of an inline table after its opening brace. -/
def inlineTable? (value : Reader Value) : Reader Value := fun cs =>
  match afterMark? '\x7d' (afterBlanks cs) with
  | some rest => some (.table .inline [], rest)
  | none => do
    let (pairs, rest) ← items? (assignment? value) afterBlanks '\x7d' false cs
    let entries ← pairs.foldlM (fun (es : Entries) (k, v) => es.assign? k v) []
    return (.table .inline entries, rest)

/-- A value with at most `depth` arrays and inline tables around each other. -/
def value? : Nat → Reader Value
  | _, '"' :: rest => (Quotation.read? ('"' :: rest)).map fun (s, rest) => (.text s, rest)
  | _, '\'' :: rest => (Quotation.read? ('\'' :: rest)).map fun (s, rest) => (.text s, rest)
  | depth + 1, '[' :: rest => array? (value? depth) rest
  | depth + 1, '\x7b' :: rest => inlineTable? (value? depth) rest
  | _, cs => unquoted? cs

/-- A line of a document. -/
inductive Line where
  | empty
  | assignment (k : Key) (v : Value)
  | tableHeader (k : Key)
  | elementHeader (k : Key)

/-- A line and its end. -/
def line? : Reader Line := fun cs =>
  match afterBlanks cs with
  | [] => some (.empty, [])
  | '#' :: _ | '\n' :: _ | '\r' :: _ => (afterLine? cs).map (.empty, ·)
  | '[' :: '[' :: rest => do
    let (k, rest) ← key? rest
    return (.elementHeader k, ← afterLine? (← afterMark? ']' (← afterMark? ']' rest)))
  | '[' :: rest => do
    let (k, rest) ← key? rest
    return (.tableHeader k, ← afterLine? (← afterMark? ']' rest))
  | _ => do
    let ((k, v), rest) ← assignment? (value? (nestingBound - 1)) cs
    return (.assignment k v, ← afterLine? rest)

end CellCanvas.Toml
