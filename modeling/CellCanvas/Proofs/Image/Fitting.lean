import CellCanvas.Image.Fit
import Mathlib.Algebra.Order.Floor.Div
import Mathlib.Tactic

/-!
# Exact fits

A fit that keeps the shape gives the scaled image one edge of the destination and a proportional
other edge: rounded down to lie inside it, rounded up to cover it. Positions are then proportional
in exact arithmetic, and never need to be cut to the source. If both sizes have one shape, nothing
is rounded and the fits agree.
-/

namespace CellCanvas.Fit

/-- One edge of the destination, and the other in proportion: rounded down, but at least 1. -/
def inscribed (source target : Extent) : Extent :=
  if source.2 * target.1 ≤ source.1 * target.2 then
    (target.1, max 1 (source.2 * target.1 / source.1))
  else (max 1 (source.1 * target.2 / source.2), target.2)

/-- One edge of the destination, and the other in proportion: rounded up. -/
def circumscribed (source target : Extent) : Extent :=
  if source.2 * target.1 ≤ source.1 * target.2 then
    (source.1 * target.2 ⌈/⌉ source.2, target.2)
  else (target.1, source.2 * target.1 ⌈/⌉ source.1)

/-- The source position in proportion to a position of an image scaled to a size. -/
def proportional (source scaled : Extent) (x y : Nat) : Nat × Nat :=
  (x * source.1 / scaled.1, y * source.2 / scaled.2)

/-- The source pixel of a destination pixel in exact arithmetic; none outside the scaled image. -/
def exactPixel? (fit : Fit) (source target : Extent) (x y : Nat) : Option (Nat × Nat) :=
  match fit with
  | fill => some (proportional source target x y)
  | contain =>
    let (w, h) := inscribed source target
    let left := (target.1 - w) / 2
    let top := (target.2 - h) / 2
    if left ≤ x ∧ x < left + w ∧ top ≤ y ∧ y < top + h then
      some (proportional source (w, h) (x - left) (y - top))
    else none
  | cover =>
    let (w, h) := circumscribed source target
    some (proportional source (w, h) (x + (w - target.1) / 2) (y + (h - target.2) / 2))

/-- Neither side is zero. -/
structure IsPositive (e : Extent) : Prop where
  width : 0 < e.1
  height : 0 < e.2

theorem le_mul_ceilDiv (a : Nat) {b : Nat} (hb : 0 < b) : a ≤ b * (a ⌈/⌉ b) := le_smul_ceilDiv hb

theorem ceilDiv_le_self (a : Nat) {b : Nat} (hb : 0 < b) : a ⌈/⌉ b ≤ a :=
  (ceilDiv_le_iff_le_mul hb).mpr (Nat.le_mul_of_pos_left a hb)

theorem mapAxis_eq {position source scaled : Nat} (h : position < scaled) (hs : 0 < source) :
    mapAxis position source scaled = position * source / scaled ∧
      position * source / scaled < source := by
  have hlt : position * source / scaled < source :=
    Nat.div_lt_of_lt_mul (Nat.mul_lt_mul_of_pos_right h hs)
  exact ⟨min_eq_left (Nat.le_pred_of_lt hlt), hlt⟩

variable {source target : Extent}

/-- The inscribed size is neither empty nor larger than the destination. -/
theorem inscribed_le (source : Extent) (ht : IsPositive target) :
    IsPositive (inscribed source target) ∧
      (inscribed source target).1 ≤ target.1 ∧ (inscribed source target).2 ≤ target.2 := by
  have hw := ht.width
  have hh := ht.height
  unfold inscribed
  split_ifs with hwide
  · have hle : source.2 * target.1 / source.1 ≤ target.2 := Nat.div_le_of_le_mul hwide
    refine ⟨⟨hw, ?_⟩, le_rfl, ?_⟩ <;> dsimp only <;> omega
  · have hle : source.1 * target.2 / source.2 ≤ target.1 := Nat.div_le_of_le_mul (by omega)
    refine ⟨⟨?_, hh⟩, ?_, le_rfl⟩ <;> dsimp only <;> omega

theorem containSize_eq (source : Extent) (ht : IsPositive target) :
    containSize source target = inscribed source target := by
  have hw : max target.1 1 = target.1 := max_eq_left ht.width
  have hh : max target.2 1 = target.2 := max_eq_left ht.height
  unfold containSize inscribed
  split_ifs
  · exact Prod.ext hw (max_comm _ _)
  · exact Prod.ext (max_comm _ _) hh

/-- The circumscribed size is not smaller than the destination. -/
theorem le_circumscribed (hs : IsPositive source) (target : Extent) :
    target.1 ≤ (circumscribed source target).1 ∧ target.2 ≤ (circumscribed source target).2 := by
  unfold circumscribed
  split_ifs with hwide
  · have hup := le_mul_ceilDiv (source.1 * target.2) hs.height
    exact ⟨Nat.le_of_mul_le_mul_left (hwide.trans hup) hs.height, le_rfl⟩
  · have hup := le_mul_ceilDiv (source.2 * target.1) hs.width
    exact ⟨le_rfl, Nat.le_of_mul_le_mul_left ((Nat.le_of_not_le hwide).trans hup) hs.width⟩

theorem coverSize_eq (hs : IsPositive source) (ht : IsPositive target) :
    coverSize source target = circumscribed source target := by
  obtain ⟨hw, hh⟩ := le_circumscribed hs target
  have hwidth : max (circumscribed source target).1 1 = _ := max_eq_left (ht.width.trans_le hw)
  have hheight : max (circumscribed source target).2 1 = _ := max_eq_left (ht.height.trans_le hh)
  unfold coverSize circumscribed at *
  split_ifs at hwidth hheight ⊢
  · exact Prod.ext hwidth hheight
  · exact Prod.ext hwidth hheight

/-- A position in the scaled image is proportional to one in the source. -/
theorem fromScaled_eq (hs : IsPositive source) {scaled : Extent} {x y : Nat} (hx : x < scaled.1)
    (hy : y < scaled.2) :
    fromScaled source scaled x y = proportional source scaled x y ∧
      (proportional source scaled x y).1 < source.1 ∧
      (proportional source scaled x y).2 < source.2 := by
  have hwidth := mapAxis_eq hx hs.width
  have hheight := mapAxis_eq hy hs.height
  exact ⟨Prod.ext hwidth.1 hheight.1, hwidth.2, hheight.2⟩

/-- The cropped position of a destination pixel lies in the circumscribed image. -/
theorem cropped_lt {position edge scaled : Nat} (h : position < edge) (hle : edge ≤ scaled) :
    position + (scaled - edge) / 2 < scaled := by omega

/-- Every destination pixel shows the source pixel of exact arithmetic, which is in the source. -/
theorem sourcePixel?_eq (fit : Fit) (hs : IsPositive source) (ht : IsPositive target) {x y : Nat}
    (hx : x < target.1) (hy : y < target.2) :
    fit.sourcePixel? source target x y = fit.exactPixel? source target x y ∧
      ∀ i j, fit.exactPixel? source target x y = some (i, j) → i < source.1 ∧ j < source.2 := by
  cases fit with
  | fill =>
    obtain ⟨heq, hlt⟩ := fromScaled_eq hs hx hy
    refine ⟨congrArg some heq, ?_⟩
    rintro i j ⟨⟩
    exact hlt
  | contain =>
    simp only [sourcePixel?, exactPixel?, containSize_eq source ht]
    split_ifs with hin
    · have hx' : x - (target.1 - (inscribed source target).1) / 2 <
          (inscribed source target).1 := by omega
      have hy' : y - (target.2 - (inscribed source target).2) / 2 <
          (inscribed source target).2 := by omega
      obtain ⟨heq, hlt⟩ := fromScaled_eq hs hx' hy'
      refine ⟨congrArg some heq, ?_⟩
      rintro i j ⟨⟩
      exact hlt
    · refine ⟨rfl, ?_⟩
      rintro i j ⟨⟩
  | cover =>
    obtain ⟨hw, hh⟩ := le_circumscribed hs target
    obtain ⟨heq, hlt⟩ := fromScaled_eq hs (cropped_lt hx hw) (cropped_lt hy hh)
    simp only [sourcePixel?, exactPixel?, coverSize_eq hs ht]
    refine ⟨congrArg some heq, ?_⟩
    rintro i j ⟨⟩
    exact hlt

section Contain

variable {w h x y : Nat} (hscaled : inscribed source target = (w, h))

include hscaled

/-- Inside the bars the image is shown. -/
theorem exactPixel?_inside (hx : x < w) (hy : y < h) :
    contain.exactPixel? source target (x + (target.1 - w) / 2) (y + (target.2 - h) / 2) =
      some (proportional source (w, h) x y) := by
  simp only [exactPixel?, hscaled, Nat.add_sub_cancel]
  apply if_pos
  omega

/-- On the bars nothing is shown. -/
theorem exactPixel?_outside
    (hout : ∀ x' < w, ∀ y' < h, ¬(x = x' + (target.1 - w) / 2 ∧ y = y' + (target.2 - h) / 2)) :
    contain.exactPixel? source target x y = none := by
  simp only [exactPixel?, hscaled]
  apply if_neg
  intro hin
  exact hout (x - (target.1 - w) / 2) (by omega) (y - (target.2 - h) / 2) (by omega) (by omega)

end Contain

section Shape

variable (hs : IsPositive source) (ht : IsPositive target)
  (hshape : source.1 * target.2 = source.2 * target.1)

include hs ht hshape

/-- Within a destination of the same shape the scaled image is the destination. -/
theorem inscribed_of_shape : inscribed source target = target := by
  have hh : source.1 * target.2 / source.1 = target.2 := Nat.mul_div_cancel_left _ hs.width
  rw [inscribed, if_pos hshape.ge, ← hshape, hh]
  exact Prod.ext rfl (max_eq_right ht.height)

omit ht in
theorem circumscribed_of_shape : circumscribed source target = target := by
  have hw : source.2 * target.1 ⌈/⌉ source.2 = target.1 := smul_ceilDiv hs.height target.1
  rw [circumscribed, if_pos hshape.ge, hshape, hw]

/-- Between sizes of one shape all fits show the same pixels. -/
theorem exactPixel?_of_shape (fit : Fit) {x y : Nat} (hx : x < target.1) (hy : y < target.2) :
    fit.exactPixel? source target x y = some (proportional source target x y) := by
  cases fit with
  | fill => rfl
  | contain =>
    simp only [exactPixel?, inscribed_of_shape hs ht hshape, Nat.sub_self, Nat.zero_div,
      Nat.zero_add, Nat.zero_le, hx, hy, and_self, if_true, Nat.sub_zero]
  | cover =>
    simp only [exactPixel?, circumscribed_of_shape hs hshape, Nat.sub_self, Nat.zero_div,
      Nat.add_zero]

end Shape

/-- Within the source itself every pixel shows itself. -/
theorem proportional_self (hs : IsPositive source) (x y : Nat) :
    proportional source source x y = (x, y) :=
  Prod.ext (Nat.mul_div_cancel x hs.width) (Nat.mul_div_cancel y hs.height)

end CellCanvas.Fit
