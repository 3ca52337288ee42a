import CellCanvas.Argmin
import CellCanvas.Color

/-!
# Two-colour splits

A cell shows two colours. Its samples are split into a foreground and a background group so that
the total squared distance of the samples to the means of their groups is least; of equal splits
the one with the smaller mask is taken.
-/

namespace CellCanvas.Blit

open Argmin

/-- The samples whose bit in the mask is `bit`; bit `i` belongs to sample `i`. -/
def group (bit : Bool) (mask : Nat) : List Color → List Color
  | [] => []
  | c :: rest =>
    let others := group bit (mask / 2) rest
    if (mask % 2 == 1) == bit then c :: others else others

/-- The total squared distance of colours to one colour. -/
def spread (mean : Color) (cs : List Color) : Nat := total (cs.map fun c => c.distanceSq mean)

/-- The error of a split: each group against its mean. -/
def splitError (cs : List Color) (mask : Nat) : Nat :=
  let error (g : List Color) : Nat := spread ((Color.mean? g).getD .black) g
  error (group true mask cs) + error (group false mask cs)

/-- A split: its mask and the colours of the set and the unset samples. -/
structure Split where
  mask : Nat
  foreground : Color
  background : Color
deriving DecidableEq, Repr

/-- The best split. An empty group takes the colour of the other. -/
def bestSplit (cs : List Color) : Split :=
  let mask := (leastUpTo (splitError cs) (Nat.pow 2 cs.length - 1)).1
  let foreground := Color.mean? (group true mask cs)
  let background := Color.mean? (group false mask cs)
  { mask
    foreground := foreground.getD (background.getD .black)
    background := background.getD (foreground.getD .black) }

end CellCanvas.Blit
