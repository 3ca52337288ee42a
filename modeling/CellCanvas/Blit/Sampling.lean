/-!
# Sampling

Each destination cell is divided into sub-pixels, and each sub-pixel takes its colour from one
source pixel: positions are scaled proportionally and rounded down.
-/

namespace CellCanvas.Blit

/-- The first number that is no sub-pixel coordinate. -/
def coordinateBound : Nat := 4294967296

/-- The source index of sub-pixel `sub` when `source` pixels spread over `cells` cells with `per`
sub-pixels each: `sub * source / (cells * per)`, at most the last index, and zero when nothing is
spread. -/
def sampleAxis (sub source cells per : Nat) : Nat :=
  if source = 0 ∨ cells = 0 ∨ per = 0 then 0
  else min (sub * source / (cells * per)) (source - 1)

/-- The coordinate of sub-pixel `i` of a cell, a 32-bit number. -/
def subpixel (cell per i : Nat) : Nat := (cell * per + i) % coordinateBound

theorem sampleAxis_lt (sub source cells per : Nat) (h : 0 < source) :
    sampleAxis sub source cells per < source := by
  unfold sampleAxis
  split
  · exact h
  · omega

end CellCanvas.Blit
