/-!
# Tables of ranges

A character property is a table of closed ranges of code points in ascending order; membership is
decided by binary search.
-/

namespace CellCanvas.Text.Ranges

/-- Search the entries with index in `lo, …, hi - 1`. -/
def search (table : Array (Nat × Nat)) (n lo hi : Nat) : Bool :=
  if lo < hi then
    let mid := (lo + hi) / 2
    match table[mid]? with
    | none => false
    | some (first, last) =>
      if n < first then search table n lo mid
      else if last < n then search table n (mid + 1) hi
      else true
  else false
termination_by hi - lo

/-- Whether a character lies in one of the ranges. -/
def covers (table : Array (Nat × Nat)) (c : Char) : Bool :=
  search table c.toNat 0 table.size

end CellCanvas.Text.Ranges
