import CellCanvas.Argmin
import CellCanvas.Color

/-!
# The 256-colour palette

Entries 0 to 15 are the classic colours, 16 to 231 a cube with six levels a channel, 232 to 255 a
gray ramp. Nearest-entry searches compare squared channel distance and give ties to the smaller
index.
-/

namespace CellCanvas.Palette

open Argmin

/-- The sixteen classic colours. -/
def classic : Array Color := #[
  .ofChannels 0 0 0, .ofChannels 205 0 0, .ofChannels 0 205 0, .ofChannels 205 205 0,
  .ofChannels 0 0 238, .ofChannels 205 0 205, .ofChannels 0 205 205, .ofChannels 229 229 229,
  .ofChannels 127 127 127, .ofChannels 255 0 0, .ofChannels 0 255 0, .ofChannels 255 255 0,
  .ofChannels 92 92 255, .ofChannels 255 0 255, .ofChannels 0 255 255, .ofChannels 255 255 255]

/-- The classic colour with index `i`, black past the end. -/
def classicColor (i : Nat) : Color := classic[i]?.getD .black

/-- The channel value of a cube level. -/
def cubeLevel (i : Nat) : Nat := if i = 0 then 0 else 55 + 40 * i

/-- The cube level closest to a channel value. -/
def nearestLevel (v : Nat) : Nat := (leastUpTo (fun i => Color.gap v (cubeLevel i)) 5).1

/-- The cube colour with the given levels. -/
def cubeColor (r g b : Nat) : Color := .ofChannels (cubeLevel r) (cubeLevel g) (cubeLevel b)

/-- The colour of step `i` of the gray ramp. -/
def rampColor (i : Nat) : Color := .gray (8 + 10 * i)

/-- The colour of a palette entry. -/
def color (i : Nat) : Color :=
  if i < 16 then classicColor i
  else if i < 232 then cubeColor ((i - 16) / 36) ((i - 16) % 36 / 6) ((i - 16) % 6)
  else rampColor (i - 232)

/-- The nearest entry among 16 to 255: the better of the nearest cube colour, found level by
level, and the nearest gray. -/
def nearestExtended (c : Color) : Nat :=
  let r := nearestLevel c.red
  let g := nearestLevel c.green
  let b := nearestLevel c.blue
  let cube := 16 + 36 * r + 6 * g + b
  let cubeDistance := c.distanceSq (cubeColor r g b)
  let step := leastUpTo (fun i => c.distanceSq (rampColor i)) 23
  let ramp := 232 + step.1
  if step.2 < cubeDistance then ramp
  else if cubeDistance < step.2 then cube
  else min ramp cube

/-- The nearest entry among the sixteen classic colours. -/
def nearestClassic (c : Color) : Nat :=
  (leastUpTo (fun i => c.distanceSq (classicColor i)) 15).1

end CellCanvas.Palette
