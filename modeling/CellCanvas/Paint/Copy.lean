import CellCanvas.Paint.Painter

/-!
# Copying within a frame

Cells are copied one by one to the destination, under the clip. When source and destination
overlap, rows and columns are walked in the direction that reads a cell before it is overwritten.
Continuations are skipped, since their lead brings them along.
-/

namespace CellCanvas.Painter

/-- Copy the cell at a source position, if there is one that can stand alone. -/
def copyCell (p : Painter) (toX toY fromX fromY : Int) : Painter :=
  if p.frame.bounds.contains fromX fromY then
    match p.frame.cell? fromX.toNat fromY.toNat with
    | some c =>
      if c.width = 1 ∨ c.width = 2 then p.place toX toY (.ofCluster c.glyph c.width c.style) else p
    | none => p
  else p

/-- The `i`-th of `count` offsets from `first`, counted from the other end when `backward`. -/
def offset (backward : Bool) (first : Int) (count i : Nat) : Int :=
  if backward then first + (count - 1 - i : Nat) else first + i

/-- Copy the area that both sizes have, from one position of the frame to another. -/
def copyRect (p : Painter) (target source : Rect) : Painter :=
  let w := min target.w source.w
  let h := min target.h source.h
  let written : Rect := ⟨target.x, target.y, w, h⟩
  let overlapping := !(written.inter ⟨source.x, source.y, w, h⟩).isEmpty
  let upward := overlapping && source.y < target.y
  let leftward := overlapping && target.y == source.y && source.x < target.x
  let (firstRow, rows) := overlap target.y h p.clip.y p.clip.bottom
  let (firstColumn, columns) := overlap target.x w p.clip.x p.clip.right
  Nat.fold rows (fun i _ p =>
    let y := offset upward firstRow rows i
    Nat.fold columns (fun j _ p =>
      let x := offset leftward firstColumn columns j
      p.copyCell x y (source.x + (x - target.x)) (source.y + (y - target.y))) p) p

end CellCanvas.Painter
