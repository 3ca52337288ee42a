import CellCanvas.Color
import Mathlib.Algebra.BigOperators.Fin
import Mathlib.Tactic

/-!
# The distance of colours

A colour has three channels in the low 24 bits of its word. The distance of two colours is that of
the points with these coordinates, so it vanishes just when the low bits are the same.
-/

namespace CellCanvas.Color

variable {a b : Color}

/-- The low 24 bits, which are all that is shown. -/
def low (c : Color) : ℕ := c.word.toNat % 2 ^ 24

/-- The red, the green or the blue channel. -/
def channel (c : Color) (k : Fin 3) : ℕ := c.low / 256 ^ (2 - k.val) % 256

/-- The square of the distance of two colours, as points with their channels as coordinates. -/
def squaredDistance (a b : Color) : ℤ := ∑ k, ((a.channel k : ℤ) - b.channel k) ^ 2

theorem channel_zero (c : Color) : c.channel 0 = c.red := by
  simp only [channel, low, red, Fin.val_zero]
  omega

theorem channel_one (c : Color) : c.channel 1 = c.green := by
  simp only [channel, low, green, Fin.val_one]
  omega

theorem channel_two (c : Color) : c.channel 2 = c.blue := by
  simp only [channel, low, blue, Fin.val_two]
  omega

theorem low_eq (c : Color) : c.low = c.red * 65536 + c.green * 256 + c.blue := by
  simp only [low, red, green, blue]
  omega

theorem low_eq_iff : a.low = b.low ↔ a.red = b.red ∧ a.green = b.green ∧ a.blue = b.blue := by
  have := a.green_lt
  have := a.blue_lt
  have := b.green_lt
  have := b.blue_lt
  rw [low_eq, low_eq]
  omega

theorem channel_congr (h : a.low = b.low) (k : Fin 3) : a.channel k = b.channel k := by
  rw [channel, channel, h]

theorem sq_gap (m n : ℕ) : ((gap m n * gap m n : ℕ) : ℤ) = ((m : ℤ) - n) ^ 2 := by
  rcases Nat.le_total m n with hle | hle
  · have hgap : (gap m n : ℤ) = n - m := by
      unfold gap
      omega
    rw [Nat.cast_mul, hgap]
    ring
  · have hgap : (gap m n : ℤ) = m - n := by
      unfold gap
      omega
    rw [Nat.cast_mul, hgap]
    ring

theorem distanceSq_eq (a b : Color) : (a.distanceSq b : ℤ) = a.squaredDistance b := by
  rw [squaredDistance, Fin.sum_univ_three, channel_zero, channel_one, channel_two, channel_zero,
    channel_one, channel_two, distanceSq, Nat.cast_add, Nat.cast_add, sq_gap, sq_gap, sq_gap]

theorem gap_eq_zero {m n : ℕ} : gap m n = 0 ↔ m = n := by
  unfold gap
  omega

theorem distanceSq_eq_zero : a.distanceSq b = 0 ↔ a.low = b.low := by
  simp only [distanceSq, Nat.add_eq_zero_iff, mul_self_eq_zero, gap_eq_zero, low_eq_iff,
    and_assoc]

theorem squaredDistance_nonneg (a b : Color) : 0 ≤ a.squaredDistance b :=
  Finset.sum_nonneg fun _ _ => sq_nonneg _

theorem squaredDistance_eq_zero : a.squaredDistance b = 0 ↔ a.low = b.low := by
  rw [← distanceSq_eq, Nat.cast_eq_zero, distanceSq_eq_zero]

theorem distanceSq_self (a : Color) : a.distanceSq a = 0 := distanceSq_eq_zero.mpr rfl

/-- The distance to a colour depends on what is shown of it alone. -/
theorem distanceSq_congr (c : Color) (h : a.low = b.low) : c.distanceSq a = c.distanceSq b := by
  obtain ⟨hred, hgreen, hblue⟩ := low_eq_iff.mp h
  rw [distanceSq, distanceSq, hred, hgreen, hblue]

end CellCanvas.Color
