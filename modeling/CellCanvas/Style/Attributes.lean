/-!
# Text attributes

A set of attributes is a byte with one bit for each of the seven attributes. The eighth bit has no
meaning, but it is kept and compared like the others.
-/

namespace CellCanvas

/-- A text attribute. -/
inductive Attribute where
  | bold
  | italic
  | underline
  | reverse
  | strikethrough
  | dim
  | blink
deriving DecidableEq, Repr

/-- A set of attributes as a byte. -/
structure Attributes where
  bits : UInt8
deriving DecidableEq, Inhabited, Repr

namespace Attribute

/-- The bit of an attribute. -/
def mask : Attribute → UInt8
  | bold => 1
  | italic => 2
  | underline => 4
  | reverse => 8
  | strikethrough => 16
  | dim => 32
  | blink => 64

/-- The select-graphic-rendition code that turns an attribute on. -/
def sgrCode : Attribute → Nat
  | bold => 1
  | dim => 2
  | italic => 3
  | underline => 4
  | blink => 5
  | reverse => 7
  | strikethrough => 9

/-- All attributes by ascending bit. -/
def byBit : List Attribute := [bold, italic, underline, reverse, strikethrough, dim, blink]

/-- All attributes by ascending code. -/
def byCode : List Attribute := [bold, dim, italic, underline, blink, reverse, strikethrough]

end Attribute

namespace Attributes

/-- No attribute. -/
def empty : Attributes := ⟨0⟩

/-- The seven attributes. -/
def all : Attributes := ⟨0x7F⟩

/-- The bits of both sets. -/
def inter (a b : Attributes) : Attributes := ⟨a.bits &&& b.bits⟩

/-- The bits of either set. -/
def union (a b : Attributes) : Attributes := ⟨a.bits ||| b.bits⟩

/-- The bits of `a` that `b` lacks. -/
def without (a b : Attributes) : Attributes := ⟨a.bits &&& ~~~b.bits⟩

/-- Whether no bit is set. -/
def isEmpty (a : Attributes) : Bool := a.bits == 0

/-- Whether the bit of an attribute is set. -/
def has (a : Attributes) (x : Attribute) : Bool :=
  a.bits &&& x.mask == x.mask

end Attributes

end CellCanvas
