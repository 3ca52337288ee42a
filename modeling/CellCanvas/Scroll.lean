/-!
# Scroll plans

When rows move up or down between two frames, the terminal can move them itself: a scroll region is
set, shifted, and only the rows that the shift leaves blank are written. `detect` tries every
distance in both directions and picks the plan that moves the most rows.
-/

namespace CellCanvas

/-- A shift of the rows `top` to `bottom` by `lines` rows. -/
structure ScrollPlan where
  up : Bool
  top : Nat
  bottom : Nat
  lines : Nat
  /-- How many rows the terminal carries over. -/
  moved : Nat
deriving DecidableEq, Repr

namespace ScrollPlan

/-- Frames with fewer changed rows are never scrolled. -/
def minDirtyRows : Nat := 4

/-- The largest distance that is tried. -/
def maxDistance : Nat := 64

/-- The fewest rows that a plan moves. -/
def minMovedRows : Nat := 4

/-- The fewest cells that a plan moves. -/
def minMovedCells : Nat := 256

/-- The first and the last row that the shift leaves blank. -/
def exposed (p : ScrollPlan) : Nat × Nat :=
  if p.up then (p.bottom + 1 - p.lines, p.bottom) else (p.top, p.top + p.lines - 1)

/-- Whether a row takes part in the shift. -/
def covers (p : ScrollPlan) (y : Nat) : Bool := p.top ≤ y && y ≤ p.bottom

/-- The order of preference: more moved rows, then a shorter shift, then the smaller top, then the
smaller bottom, then upward. -/
def better (a b : ScrollPlan) : Bool :=
  if a.moved ≠ b.moved then b.moved < a.moved
  else if a.lines ≠ b.lines then a.lines < b.lines
  else if a.top ≠ b.top then a.top < b.top
  else if a.bottom ≠ b.bottom then a.bottom < b.bottom
  else a.up && !b.up

/-- Whether a plan moves enough to be worth its control sequences. -/
def isWorthwhile (p : ScrollPlan) (columns : Nat) : Bool :=
  minMovedRows ≤ p.moved && minMovedCells ≤ p.moved * columns

/-- The maximal runs of consecutive positions below `n` at which `holds`, each as its first
position and its length. The run that position `y - 1` belongs to is passed along. -/
def runsFrom (holds : Nat → Bool) (y : Nat) (current : Nat) : Nat → List (Nat × Nat)
  | 0 => if 0 < current then [(y - current, current)] else []
  | left + 1 =>
    if holds y then runsFrom holds (y + 1) (current + 1) left
    else
      let rest := runsFrom holds (y + 1) 0 left
      if 0 < current then (y - current, current) :: rest else rest

/-- The maximal runs of consecutive positions below `n` at which `holds`. -/
def runs (holds : Nat → Bool) (n : Nat) : List (Nat × Nat) := runsFrom holds 0 0 n

/-- The plan that moves a run of rows by a distance. -/
def ofRun (up : Bool) (distance : Nat) (run : Nat × Nat) : ScrollPlan :=
  { up
    top := run.1
    bottom := run.1 + run.2 - 1 + distance
    lines := distance
    moved := run.2 }

/-- All plans that move a maximal run of rows by one of the distances, shorter distances first. -/
def candidates (rows : Nat) (sameRow : Nat → Nat → Bool) : List ScrollPlan :=
  (List.range (min (rows - 1) maxDistance)).flatMap fun d =>
    let distance := d + 1
    (runs (fun y => sameRow y (y + distance)) (rows - distance)).map (ofRun true distance)
      ++ (runs (fun y => sameRow (y + distance) y) (rows - distance)).map (ofRun false distance)

/-- The better of the best plan so far and a new one. -/
def choose (best : Option ScrollPlan) (p : ScrollPlan) : Option ScrollPlan :=
  match best with
  | none => some p
  | some b => if p.better b then some p else some b

/-- The best plan that turns the old rows into the new ones, if one is worthwhile.
`sameRow new old` compares a row of the new frame with a row of the old one. -/
def detect (rows columns dirtyRows : Nat) (sameRow : Nat → Nat → Bool) : Option ScrollPlan :=
  if rows < 2 || columns = 0 || dirtyRows < minDirtyRows then none
  else ((candidates rows sameRow).filter (isWorthwhile · columns)).foldl choose none

end ScrollPlan

end CellCanvas
