import CellCanvas.Text.Numeral

/-!
# Numbers

Integers of 64 bits in four radices, and which texts are floating-point numbers. Underscores group
digits; each stands between two of them.
-/

namespace CellCanvas.Toml

/-- The digits of a number without the underscores that group them. -/
def ungrouped? (isDigit : Char → Bool) : List Char → Option (List Char)
  | [] => none
  | [c] => if isDigit c then some [c] else none
  | c :: '_' :: rest => if isDigit c then (ungrouped? isDigit rest).map (c :: ·) else none
  | c :: rest => if isDigit c then (ungrouped? isDigit rest).map (c :: ·) else none

/-- The number that grouped digits in a radix write. -/
def natural? (radix : Nat) (cs : List Char) : Option Nat := do
  Text.digitsValue? radix 0 (← ungrouped? (fun c => (Text.digitValue? radix c).isSome) cs)

/-- The number that grouped decimal digits write. Only the number zero starts with the digit
zero. -/
def decimal? (cs : List Char) : Option Nat :=
  match cs with
  | '0' :: _ :: _ => none
  | _ => natural? 10 cs

/-- A text without its sign, and whether that is a minus. -/
def unsigned : List Char → Bool × List Char
  | '-' :: rest => (true, rest)
  | '+' :: rest => (false, rest)
  | cs => (false, cs)

/-- The integer that a text writes, if 64 bits hold it. Other radices than ten take no sign. -/
def integer? (cs : List Char) : Option Int :=
  let value : Option Int := match cs with
    | '0' :: 'x' :: digits => (natural? 16 digits).map Int.ofNat
    | '0' :: 'o' :: digits => (natural? 8 digits).map Int.ofNat
    | '0' :: 'b' :: digits => (natural? 2 digits).map Int.ofNat
    | _ =>
      let (negative, digits) := unsigned cs
      (decimal? digits).map fun n => if negative then -n else n
  value.filter fun n => -9223372036854775808 ≤ n && n ≤ 9223372036854775807

/-- The least number that does not round to a finite number of double precision. -/
def doubleBound : Nat := Nat.pow 2 1024 - Nat.pow 2 970

/-- Whether `mantissa * 10 ^ exponent` lies beyond all finite numbers of double precision. -/
def isBeyondDouble (mantissa : Nat) (exponent : Int) : Bool :=
  if mantissa = 0 then false
  else if 400 < exponent then true
  else if 0 ≤ exponent then doubleBound ≤ mantissa * Nat.pow 10 exponent.toNat
  else if mantissa.log2 < exponent.natAbs then false
  else doubleBound * Nat.pow 10 exponent.natAbs ≤ mantissa

/-- Digits or underscores. -/
def isGrouped (c : Char) : Bool := c.isDigit || c = '_'

/-- The exponent of a floating-point number: zero for no text, else digits after the letter. -/
def exponent? (cs : List Char) : Option Int :=
  match cs with
  | [] => some 0
  | c :: rest =>
    if c = 'e' || c = 'E' then
      let (negative, digits) := unsigned rest
      (natural? 10 digits).map fun n => if negative then -n else n
    else none

/-- Whether a text without a sign is a decimal number with a fraction or an exponent. Positive
numbers may not be too large for double precision. -/
def isDecimalFloat (negative : Bool) (cs : List Char) : Bool :=
  let whole := cs.takeWhile isGrouped
  let (fraction, tail) := match cs.dropWhile isGrouped with
    | '.' :: rest => (some (rest.takeWhile isGrouped), rest.dropWhile isGrouped)
    | rest => (none, rest)
  match decimal? whole, fraction, exponent? tail with
  | some n, none, some e => !tail.isEmpty && (negative || !isBeyondDouble n e)
  | some n, some digits, some e =>
    match ungrouped? Char.isDigit digits with
    | some ds =>
      match Text.digitsValue? 10 n ds with
      | some m => negative || !isBeyondDouble m (e - ds.length)
      | none => false
    | none => false
  | _, _, _ => false

/-- Whether a text is a floating-point number. -/
def isFloat (cs : List Char) : Bool :=
  let (negative, rest) := unsigned cs
  rest = ['i', 'n', 'f'] || rest = ['n', 'a', 'n'] || isDecimalFloat negative rest

end CellCanvas.Toml
