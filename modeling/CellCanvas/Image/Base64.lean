/-!
# Base64

Three bytes are written as four characters of the standard alphabet; a last group of one or two
bytes is padded with equals signs. Reading accepts exactly the padded form, with the unused bits
zero.
-/

namespace CellCanvas.Base64

/-- The character of a number below 64. -/
def symbol (n : Nat) : Char :=
  if n < 26 then .ofNat (0x41 + n)
  else if n < 52 then .ofNat (0x61 + (n - 26))
  else if n < 62 then .ofNat (0x30 + (n - 52))
  else if n = 62 then '+'
  else '/'

/-- The number of a character of the alphabet. -/
def value? (c : Char) : Option Nat :=
  let n := c.toNat
  if 0x41 ≤ n ∧ n ≤ 0x5A then some (n - 0x41)
  else if 0x61 ≤ n ∧ n ≤ 0x7A then some (n - 0x61 + 26)
  else if 0x30 ≤ n ∧ n ≤ 0x39 then some (n - 0x30 + 52)
  else if c = '+' then some 62
  else if c = '/' then some 63
  else none

/-- The written form of bytes. -/
def encodeList : List UInt8 → List Char
  | [] => []
  | [a] =>
    let n := a.toNat * 65536
    [symbol (n / 262144), symbol (n / 4096 % 64), '=', '=']
  | [a, b] =>
    let n := a.toNat * 65536 + b.toNat * 256
    [symbol (n / 262144), symbol (n / 4096 % 64), symbol (n / 64 % 64), '=']
  | a :: b :: c :: rest =>
    let n := a.toNat * 65536 + b.toNat * 256 + c.toNat
    symbol (n / 262144) :: symbol (n / 4096 % 64) :: symbol (n / 64 % 64) :: symbol (n % 64)
      :: encodeList rest

/-- How many bytes are written at a time, a multiple of three. -/
def blockBytes : Nat := 3072

/-- The written form of a byte array. -/
def encode (bytes : ByteArray) : String :=
  String.join ((List.range ((bytes.size + blockBytes - 1) / blockBytes)).map fun i =>
    String.ofList (encodeList (bytes.extract (i * blockBytes) ((i + 1) * blockBytes)).toList))

/-- Read a written form and add its bytes to others. -/
def decodeFrom? (out : ByteArray) : List Char → Option ByteArray
  | [] => some out
  | [a, b, '=', '='] => do
    let n := (← value? a) * 64 + (← value? b)
    if n % 16 = 0 then some (out.push (.ofNat (n / 16))) else none
  | [a, b, c, '='] => do
    let n := ((← value? a) * 64 + (← value? b)) * 64 + (← value? c)
    if n % 4 = 0 then some ((out.push (.ofNat (n / 1024))).push (.ofNat (n / 4))) else none
  | a :: b :: c :: d :: rest => do
    let n := (((← value? a) * 64 + (← value? b)) * 64 + (← value? c)) * 64 + (← value? d)
    decodeFrom? (((out.push (.ofNat (n / 65536))).push (.ofNat (n / 256))).push (.ofNat n)) rest
  | _ => none

/-- The bytes of a written form. -/
def decode? (text : String) : Option ByteArray := decodeFrom? .empty text.toList

end CellCanvas.Base64
