import CellCanvas.Total

/-!
# Colours

A `Color` is a 32-bit word whose low 24 bits are red, green and blue, eight bits each. The high
byte is carried along but never shown. All colour arithmetic is exact integer arithmetic on the
three channels.
-/

namespace CellCanvas

/-- A packed colour, `0x00RRGGBB`. -/
structure Color where
  word : UInt32
deriving DecidableEq, Inhabited, Repr

namespace Color

/-- The colour with all bits zero. -/
def black : Color := ⟨0⟩

/-- The red channel, below 256. -/
def red (c : Color) : Nat := c.word.toNat / 65536 % 256

/-- The green channel, below 256. -/
def green (c : Color) : Nat := c.word.toNat / 256 % 256

/-- The blue channel, below 256. -/
def blue (c : Color) : Nat := c.word.toNat % 256

/-- Pack three channels; each is taken modulo 256. -/
def ofChannels (r g b : Nat) : Color :=
  ⟨UInt32.ofNat (r % 256 * 65536 + g % 256 * 256 + b % 256)⟩

/-- A gray with equal channels. -/
def gray (v : Nat) : Color := ofChannels v v v

theorem red_lt (c : Color) : c.red < 256 := Nat.mod_lt _ (by decide)
theorem green_lt (c : Color) : c.green < 256 := Nat.mod_lt _ (by decide)
theorem blue_lt (c : Color) : c.blue < 256 := Nat.mod_lt _ (by decide)

theorem word_ofChannels (r g b : Nat) :
    (ofChannels r g b).word.toNat = r % 256 * 65536 + g % 256 * 256 + b % 256 := by
  simp only [ofChannels, UInt32.toNat_ofNat']
  omega

@[simp] theorem red_ofChannels (r g b : Nat) : (ofChannels r g b).red = r % 256 := by
  simp only [red, word_ofChannels]; omega

@[simp] theorem green_ofChannels (r g b : Nat) : (ofChannels r g b).green = g % 256 := by
  simp only [green, word_ofChannels]; omega

@[simp] theorem blue_ofChannels (r g b : Nat) : (ofChannels r g b).blue = b % 256 := by
  simp only [blue, word_ofChannels]; omega

/-- The distance between two numbers. -/
def gap (a b : Nat) : Nat := (a - b) + (b - a)

/-- The squared distance of two colours in channel space. -/
def distanceSq (a b : Color) : Nat :=
  gap a.red b.red * gap a.red b.red
    + gap a.green b.green * gap a.green b.green
    + gap a.blue b.blue * gap a.blue b.blue

/-- Brightness in `0, …, 255`: `0.2126 R + 0.7152 G + 0.0722 B`, rounded to the nearest integer. -/
def luma (c : Color) : Nat := (2126 * c.red + 7152 * c.green + 722 * c.blue + 5000) / 10000

/-- The floored mean of each channel; none for no colours. -/
def mean? (cs : List Color) : Option Color :=
  match cs with
  | [] => none
  | _ =>
    let n := cs.length
    some (ofChannels (total (cs.map red) / n) (total (cs.map green) / n) (total (cs.map blue) / n))

/-- Alpha is binary: this value and above is opaque, below is transparent. -/
def opaqueAlpha : Nat := 128

/-- Whether an alpha value counts as opaque. -/
def isOpaque (alpha : UInt8) : Bool := opaqueAlpha ≤ alpha.toNat

end Color

end CellCanvas
