import CellCanvas.Failure

/-!
# Checked sizes

Byte counts live below `2 ^ 64`. A product or sum that would leave that range is refused, so a
size that was computed is always the true one.
-/

namespace CellCanvas.Size

/-- The first number that is no byte count. -/
def bound : Nat := 18446744073709551616

/-- The largest byte count. -/
def largest : Nat := bound - 1

/-- The size of the largest buffer that can be reserved. The program stops when it asks for more. -/
def largestBuffer : Nat := 9223372036854775807

/-- Accept `n` if it is a byte count. -/
def checked (n : Nat) : Except Failure Nat :=
  if n < bound then .ok n else .error .overflow

/-- The product of two byte counts. -/
def mul (a b : Nat) : Except Failure Nat := checked (a * b)

/-- The sum of two byte counts. -/
def add (a b : Nat) : Except Failure Nat := checked (a + b)

/-- The bytes of a tightly packed raster with four bytes a pixel. -/
def rgba (width height : Nat) : Except Failure Nat := do
  mul (← mul width height) 4

theorem checked_eq_ok_iff {n m : Nat} : checked n = .ok m ↔ n < bound ∧ m = n := by
  unfold checked
  split
  · simp only [Except.ok.injEq, *, true_and, eq_comm]
  · simp only [*, false_and, reduceCtorEq]

end CellCanvas.Size
