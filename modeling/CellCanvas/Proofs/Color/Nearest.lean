import CellCanvas.Color.Shown
import CellCanvas.Proofs.Argmin
import CellCanvas.Proofs.Color.Distance

/-!
# The nearest colour of the palette

The entry of the palette that stands for a colour is the first of the nearest ones. For the cube it
is found channel by channel: the squared distance is a sum over the channels, so it is least where
every part is, and of the entries that are as near the first has the lowest level in each channel.
What a terminal displays is then reduced to itself.
-/

namespace CellCanvas.Palette

open Argmin

theorem isFirst_nearestLevel (v : ℕ) :
    IsFirst (fun i => Color.gap v (cubeLevel i)) (Set.Iic 5) (nearestLevel v) :=
  isFirst_leastUpTo _ 5

/-- Half way between two levels the lower one is taken. -/
example : nearestLevel 115 = 1 ∧ cubeLevel 1 = 95 ∧ cubeLevel 2 = 135 := by decide

theorem cubeLevel_lt {i : ℕ} (h : i ≤ 5) : cubeLevel i < 256 := by
  unfold cubeLevel
  split_ifs <;> omega

theorem distanceSq_cubeColor (c : Color) {r g b : ℕ} (hr : r ≤ 5) (hg : g ≤ 5) (hb : b ≤ 5) :
    c.distanceSq (cubeColor r g b) =
      Color.gap c.red (cubeLevel r) * Color.gap c.red (cubeLevel r)
        + Color.gap c.green (cubeLevel g) * Color.gap c.green (cubeLevel g)
        + Color.gap c.blue (cubeLevel b) * Color.gap c.blue (cubeLevel b) := by
  simp only [Color.distanceSq, cubeColor, Color.red_ofChannels, Color.green_ofChannels,
    Color.blue_ofChannels, Nat.mod_eq_of_lt (cubeLevel_lt hr), Nat.mod_eq_of_lt (cubeLevel_lt hg),
    Nat.mod_eq_of_lt (cubeLevel_lt hb)]

/-- A sum of squares that are no larger is no smaller only if no root is smaller. -/
theorem le_of_sum_squares_le {x y z x' y' z' : ℕ} (hx : x ≤ x') (hy : y ≤ y') (hz : z ≤ z')
    (h : x' * x' + y' * y' + z' * z' ≤ x * x + y * y + z * z) : x' ≤ x ∧ y' ≤ y ∧ z' ≤ z := by
  have hxx := Nat.mul_self_le_mul_self hx
  have hyy := Nat.mul_self_le_mul_self hy
  have hzz := Nat.mul_self_le_mul_self hz
  exact ⟨Nat.mul_self_le_mul_self_iff.mp (by omega), Nat.mul_self_le_mul_self_iff.mp (by omega),
    Nat.mul_self_le_mul_self_iff.mp (by omega)⟩

theorem color_cube {i : ℕ} (h : i ∈ Set.Ico 16 232) :
    color i = cubeColor ((i - 16) / 36) ((i - 16) % 36 / 6) ((i - 16) % 6) := by
  rw [color, if_neg (Nat.not_lt.mpr h.1), if_pos h.2]

theorem color_ramp (i : ℕ) : color (232 + i) = rampColor i := by
  rw [color, if_neg (by omega), if_neg (by omega), Nat.add_sub_cancel_left]

theorem color_classic {i : ℕ} (h : i ∈ Set.Iic 15) : color i = classicColor i :=
  if_pos (Nat.lt_succ_of_le h)

/-- The entry of the cube that has the nearest level in each channel. -/
def nearestCube (c : Color) : ℕ :=
  16 + 36 * nearestLevel c.red + 6 * nearestLevel c.green + nearestLevel c.blue

theorem nearestCube_mem (c : Color) : nearestCube c ∈ Set.Ico 16 232 := by
  have hred : nearestLevel c.red ≤ 5 := (isFirst_nearestLevel c.red).mem
  have hgreen : nearestLevel c.green ≤ 5 := (isFirst_nearestLevel c.green).mem
  have hblue : nearestLevel c.blue ≤ 5 := (isFirst_nearestLevel c.blue).mem
  unfold nearestCube
  exact ⟨by omega, by omega⟩

theorem color_nearestCube (c : Color) :
    color (nearestCube c) =
      cubeColor (nearestLevel c.red) (nearestLevel c.green) (nearestLevel c.blue) := by
  have hgreen : nearestLevel c.green ≤ 5 := (isFirst_nearestLevel c.green).mem
  have hblue : nearestLevel c.blue ≤ 5 := (isFirst_nearestLevel c.blue).mem
  have hlevels : (nearestCube c - 16) / 36 = nearestLevel c.red ∧
      (nearestCube c - 16) % 36 / 6 = nearestLevel c.green ∧
      (nearestCube c - 16) % 6 = nearestLevel c.blue := by
    unfold nearestCube
    omega
  rw [color_cube (nearestCube_mem c), hlevels.1, hlevels.2.1, hlevels.2.2]

theorem isFirst_nearestCube (c : Color) :
    IsFirst (fun i => c.distanceSq (color i)) (Set.Ico 16 232) (nearestCube c) := by
  have hred := isFirst_nearestLevel c.red
  have hgreen := isFirst_nearestLevel c.green
  have hblue := isFirst_nearestLevel c.blue
  have hdistance := distanceSq_cubeColor c hred.mem hgreen.mem hblue.mem
  rw [← color_nearestCube] at hdistance
  have hlevels {i : ℕ} (hi : i ∈ Set.Ico 16 232) :
      (i - 16) / 36 ≤ 5 ∧ (i - 16) % 36 / 6 ≤ 5 ∧ (i - 16) % 6 ≤ 5 := by
    have := hi.2
    omega
  refine ⟨nearestCube_mem c, ?_, ?_⟩
  · intro i hi
    obtain ⟨hr, hg, hb⟩ := hlevels hi
    rw [hdistance, color_cube hi, distanceSq_cubeColor c hr hg hb]
    exact Nat.add_le_add (Nat.add_le_add (Nat.mul_self_le_mul_self (hred.le _ hr))
      (Nat.mul_self_le_mul_self (hgreen.le _ hg))) (Nat.mul_self_le_mul_self (hblue.le _ hb))
  · intro i hi hle
    obtain ⟨hr, hg, hb⟩ := hlevels hi
    rw [hdistance, color_cube hi, distanceSq_cubeColor c hr hg hb] at hle
    -- No part is larger than the least one, so an entry as near is as near in each channel.
    obtain ⟨hler, hleg, hleb⟩ :=
      le_of_sum_squares_le (hred.le _ hr) (hgreen.le _ hg) (hblue.le _ hb) hle
    have := hred.first _ hr hler
    have := hgreen.first _ hg hleg
    have := hblue.first _ hb hleb
    have := hi.1
    unfold nearestCube
    omega

theorem isFirst_nearestClassic (c : Color) :
    IsFirst (fun i => c.distanceSq (color i)) (Set.Icc 0 15) (nearestClassic c) := by
  have h := (isFirst_leastUpTo (fun i => c.distanceSq (classicColor i)) 15).shift 0
    (g := fun i => c.distanceSq (color i)) fun i hi => by rw [Nat.zero_add, color_classic hi]
  rw [show Set.Icc 0 15 = Set.Iic 15 from Set.Icc_bot]
  simpa only [Nat.zero_add, Set.image_id', nearestClassic] using h

theorem isFirst_nearestRamp (c : Color) :
    IsFirst (fun i => c.distanceSq (color i)) (Set.Icc 232 255)
      (232 + (leastUpTo (fun i => c.distanceSq (rampColor i)) 23).1) := by
  have h := (isFirst_leastUpTo (fun i => c.distanceSq (rampColor i)) 23).shift 232
    (g := fun i => c.distanceSq (color i)) fun i _ => by rw [color_ramp]
  have hrange : Set.Icc 232 255 = (232 + ·) '' Set.Iic 23 := by
    rw [← Set.Icc_bot, Set.image_const_add_Icc]
    rfl
  rwa [hrange]

/-- The nearest gray and the nearest entry of the cube are nearest in their parts of the palette,
and the better of the two is taken. -/
theorem isFirst_nearestExtended (c : Color) :
    IsFirst (fun i => c.distanceSq (color i)) (Set.Icc 16 255) (nearestExtended c) := by
  have h := (isFirst_nearestRamp c).union (isFirst_nearestCube c)
  have hstep := leastUpTo_snd (fun i => c.distanceSq (rampColor i)) 23
  have hrange : Set.Icc 232 255 ∪ Set.Ico 16 232 = Set.Icc 16 255 := by
    ext i
    simp only [Set.mem_union, Set.mem_Icc, Set.mem_Ico]
    omega
  rw [hrange, color_ramp, color_nearestCube, ← hstep] at h
  exact h

/-- What is nearest to a colour is also nearest to the colour that it displays. -/
theorem isFirst_color {c : Color} {s : Set ℕ} {i : ℕ}
    (h : IsFirst (fun i => c.distanceSq (color i)) s i) :
    IsFirst (fun j => (color i).distanceSq (color j)) s i where
  mem := h.mem
  le j _ := by
    rw [Color.distanceSq_self]
    exact Nat.zero_le _
  first j hj hle := by
    rw [Color.distanceSq_self] at hle
    -- An entry at no distance looks the same, so it is as near to the first colour too.
    have hlow := Color.distanceSq_eq_zero.mp (Nat.le_zero.mp hle)
    exact h.first j hj (Color.distanceSq_congr c hlow).ge

theorem nearestExtended_color (c : Color) :
    nearestExtended (color (nearestExtended c)) = nearestExtended c :=
  (isFirst_nearestExtended _).unique (isFirst_color (isFirst_nearestExtended c))

theorem nearestClassic_color (c : Color) :
    nearestClassic (color (nearestClassic c)) = nearestClassic c :=
  (isFirst_nearestClassic _).unique (isFirst_color (isFirst_nearestClassic c))

theorem toNat_ofNat_nearestExtended (c : Color) :
    (UInt8.ofNat (nearestExtended c)).toNat = nearestExtended c :=
  UInt8.toNat_ofNat_of_lt' (Nat.lt_succ_of_le (isFirst_nearestExtended c).mem.2)

theorem toNat_ofNat_nearestClassic (c : Color) :
    (UInt8.ofNat (nearestClassic c)).toNat = nearestClassic c :=
  UInt8.toNat_ofNat_of_lt' (Nat.lt_of_le_of_lt (isFirst_nearestClassic c).mem.2 (by decide))

/-- A displayed colour is reduced to itself in the mode that it was reduced in. -/
theorem reduce_displayed (mode : ColorMode) (c : Color) :
    ShownColor.reduce mode (ShownColor.reduce mode c).displayed = ShownColor.reduce mode c := by
  cases mode with
  | rgb =>
    simp only [ShownColor.reduce, ShownColor.displayed, Color.red_ofChannels,
      Color.green_ofChannels, Color.blue_ofChannels, UInt8.toNat_ofNat', Nat.reducePow,
      Nat.mod_eq_of_lt c.red_lt, Nat.mod_eq_of_lt c.green_lt, Nat.mod_eq_of_lt c.blue_lt]
  | palette256 =>
    simp only [ShownColor.reduce, ShownColor.displayed, toNat_ofNat_nearestExtended,
      nearestExtended_color]
  | classic16 =>
    simp only [ShownColor.reduce, ShownColor.displayed, toNat_ofNat_nearestClassic,
      nearestClassic_color]

/-- The entries of a part of the palette that are nearest to a colour. -/
def nearestIn (s : Set ℕ) (c : Color) : Set ℕ :=
  {i ∈ s | ∀ j ∈ s, c.squaredDistance (color i) ≤ c.squaredDistance (color j)}

theorem isLeast_nearestIn {c : Color} {s : Set ℕ} {i : ℕ}
    (h : IsFirst (fun i => c.distanceSq (color i)) s i) : IsLeast (nearestIn s c) i := by
  simpa only [nearestIn, ← Color.distanceSq_eq, Nat.cast_le] using h.isLeast

/-- Every colour is reduced to the first of the nearest entries, among those from 16 on or among the
classic ones, and what it is displayed as is reduced to itself. -/
theorem reduced_to_nearest (c : Color) :
    IsLeast (nearestIn (Set.Icc 16 255) c) (nearestExtended c) ∧
      IsLeast (nearestIn (Set.Icc 0 15) c) (nearestClassic c) ∧
      ∀ mode, ShownColor.reduce mode (ShownColor.reduce mode c).displayed =
        ShownColor.reduce mode c := by
  refine ⟨?_, ?_, ?_⟩
  · exact isLeast_nearestIn (isFirst_nearestExtended c)
  · exact isLeast_nearestIn (isFirst_nearestClassic c)
  · intro mode
    exact reduce_displayed mode c

end CellCanvas.Palette
