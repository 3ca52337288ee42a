/-!
# Numerals

Reading and writing natural numbers in a radix up to sixteen.
-/

namespace CellCanvas.Text

/-- The value of a digit of either case, if it is below `radix`. -/
def digitValue? (radix : Nat) (c : Char) : Option Nat :=
  let n := c.toNat
  let v :=
    if 0x30 ≤ n ∧ n ≤ 0x39 then n - 0x30
    else if 0x61 ≤ n ∧ n ≤ 0x7A then n - 0x61 + 10
    else if 0x41 ≤ n ∧ n ≤ 0x5A then n - 0x41 + 10
    else radix
  if v < radix then some v else none

/-- The number that a sequence of digits continues from `start`. -/
def digitsValue? (radix : Nat) (start : Nat) : List Char → Option Nat
  | [] => some start
  | c :: rest => do digitsValue? radix (start * radix + (← digitValue? radix c)) rest

/-- Read a numeral below `bound`: at least one digit after an optional plus sign. -/
def readNumeral? (radix bound : Nat) (cs : List Char) : Option Nat :=
  let digits := match cs with
    | '+' :: rest => rest
    | _ => cs
  if digits.isEmpty then none
  else (digitsValue? radix 0 digits).filter (· < bound)

/-- Lower-case hexadecimal digits, padded with zeros to at least `width`. -/
def hex (width n : Nat) : String :=
  let digits := Nat.toDigits 16 n
  String.ofList (List.replicate (width - digits.length) '0' ++ digits)

end CellCanvas.Text
