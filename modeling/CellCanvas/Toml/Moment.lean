import CellCanvas.Text.Numeral

/-!
# Dates and times

Which texts are dates of the calendar, times of the day, or a date and a time with or without an
offset. A minute may have a leap second.
-/

namespace CellCanvas.Toml.Moment

/-- The number that decimal digits write, if it lies from `low` to `high`. -/
def within? (low high : Nat) (digits : List Char) : Option Nat :=
  (Text.digitsValue? 10 0 digits).filter fun n => low ≤ n && n ≤ high

/-- Every fourth year is a leap year, save centuries that 400 does not divide. -/
def isLeapYear (year : Nat) : Bool := year % 4 = 0 && (year % 100 ≠ 0 || year % 400 = 0)

/-- The number of days of a month. -/
def daysIn (year month : Nat) : Nat :=
  if month = 2 then if isLeapYear year then 29 else 28
  else if month ∈ [4, 6, 9, 11] then 30
  else 31

/-- Whether a text is a day of the calendar. -/
def isDate : List Char → Bool
  | [y, y', y'', y''', '-', m, m', '-', d, d'] =>
    match within? 0 9999 [y, y', y'', y'''], within? 1 12 [m, m'] with
    | some year, some month => (within? 1 (daysIn year month) [d, d']).isSome
    | _, _ => false
  | _ => false

/-- Whether a text is an hour and a minute. -/
def isMinute : List Char → Bool
  | [h, h', ':', m, m'] => (within? 0 23 [h, h']).isSome && (within? 0 59 [m, m']).isSome
  | _ => false

/-- Whether a text is nothing or a fraction of a second. -/
def isFraction : List Char → Bool
  | [] => true
  | '.' :: digits => !digits.isEmpty && digits.all Char.isDigit
  | _ => false

/-- Whether a text is a time of the day. -/
def isTime (cs : List Char) : Bool :=
  match cs.drop 5 with
  | ':' :: s :: s' :: fraction =>
    isMinute (cs.take 5) && (within? 0 60 [s, s']).isSome && isFraction fraction
  | _ => false

/-- Whether a text is nothing or an offset from universal time. -/
def isOffset : List Char → Bool
  | [] | ['Z'] | ['z'] => true
  | '+' :: minute | '-' :: minute => isMinute minute
  | _ => false

/-- Whether a text is a time of the day and perhaps an offset. -/
def isTimeWithOffset (cs : List Char) : Bool :=
  let isClock : Char → Bool := fun c => c.isDigit || c = ':' || c = '.'
  isTime (cs.takeWhile isClock) && isOffset (cs.dropWhile isClock)

/-- Whether a text is a date, a time, or both with a letter or a blank between them. -/
def isMoment (cs : List Char) : Bool :=
  isDate cs || isTime cs ||
    match cs.drop 10 with
    | 'T' :: time | 't' :: time | ' ' :: time => isDate (cs.take 10) && isTimeWithOffset time
    | _ => false

end CellCanvas.Toml.Moment
