import CellCanvas.Blit.Partition
import CellCanvas.Proofs.Argmin
import CellCanvas.Proofs.Color.Distance
import Mathlib.Data.Nat.Bitwise

/-!
# The best split of a cell

A mask splits the samples of a cell in two groups, and each group is shown in its mean colour. The
split that is chosen has the least total squared distance between samples and colours, and the
smallest mask of those that do. A mask and its complement make the same groups, so the last sample
is never in the foreground. Samples of two colours are split by colour, and then nothing is lost.
-/

namespace CellCanvas.Blit

open Argmin

section Groups

variable (cs : List Color) (mask : ℕ) (bit : Bool)

/-- The samples whose bit in the mask is the given one. -/
def members : Finset (Fin cs.length) := {i | mask.testBit i = bit}

/-- The mean of a channel over a group, rounded down. -/
def meanChannel (k : Fin 3) : ℕ :=
  (∑ i ∈ members cs mask bit, cs[i].channel k) / (members cs mask bit).card

/-- The colour with the mean channels of a group. -/
def meanColor : Color :=
  .ofChannels (meanChannel cs mask bit 0) (meanChannel cs mask bit 1) (meanChannel cs mask bit 2)

/-- What a mask loses: the squared distances of the samples to the mean colours of their groups. -/
def lossOf : ℤ := ∑ i : Fin cs.length, cs[i].squaredDistance (meanColor cs mask (mask.testBit i))

end Groups

/-- The colour that a split shows at a sample. -/
def Split.colorAt (s : Split) (i : ℕ) : Color :=
  if s.mask.testBit i then s.foreground else s.background

variable {cs : List Color} {mask : ℕ} {bit : Bool}

theorem mem_members {i : Fin cs.length} : i ∈ members cs mask bit ↔ mask.testBit i = bit := by
  simp only [members, Finset.mem_filter, Finset.mem_univ, true_and]

/-- A total over a group, as the group is picked from the list bit by bit. -/
theorem total_group (f : Color → ℕ) (cs : List Color) (mask : ℕ) (bit : Bool) :
    total ((group bit mask cs).map f) = ∑ i ∈ members cs mask bit, f cs[i] := by
  rw [members, Finset.sum_filter]
  induction cs generalizing mask with
  | nil => rfl
  | cons c cs ih =>
    have hrest := ih (mask / 2)
    simp only [← Nat.testBit_succ] at hrest
    have hbit : ((mask % 2 == 1) == bit) = decide (mask.testBit 0 = bit) := by
      rw [Nat.testBit_zero]
      rfl
    have hsum : (∑ i : Fin (c :: cs).length, if mask.testBit i = bit then f (c :: cs)[i] else 0) =
        (if mask.testBit 0 = bit then f c else 0) +
          ∑ i : Fin cs.length, if mask.testBit (i + 1) = bit then f cs[i] else 0 :=
      Fin.sum_univ_succ _
    rw [hsum, group, hbit]
    by_cases hfirst : mask.testBit 0 = bit
    · rw [if_pos hfirst, if_pos (decide_eq_true hfirst), List.map_cons, total_cons, hrest]
    · rw [if_neg hfirst, if_neg (by simpa using hfirst), hrest, Nat.zero_add]

theorem length_group (cs : List Color) (mask : ℕ) (bit : Bool) :
    (group bit mask cs).length = (members cs mask bit).card := by
  rw [Finset.card_eq_sum_ones, ← total_group fun _ => 1]
  induction group bit mask cs with
  | nil => rfl
  | cons c cs ih => rw [List.map_cons, total_cons, ← ih, List.length_cons, Nat.add_comm]

theorem mean?_group_of_nonempty (h : (members cs mask bit).Nonempty) :
    Color.mean? (group bit mask cs) = some (meanColor cs mask bit) := by
  have hlength := length_group cs mask bit
  have hpos := h.card_pos
  have hred := total_group Color.red cs mask bit
  have hgreen := total_group Color.green cs mask bit
  have hblue := total_group Color.blue cs mask bit
  simp only [meanColor, meanChannel, Color.channel_zero, Color.channel_one, Color.channel_two]
  cases hgroup : group bit mask cs with
  | nil =>
    rw [hgroup, List.length_nil] at hlength
    omega
  | cons c rest =>
    rw [hgroup] at hlength hred hgreen hblue
    rw [Color.mean?, hlength, hred, hgreen, hblue]
    exact fun h => by cases h

theorem mean?_group_of_empty (h : ¬(members cs mask bit).Nonempty) :
    Color.mean? (group bit mask cs) = none := by
  have hlength := length_group cs mask bit
  rw [Finset.not_nonempty_iff_eq_empty.mp h, Finset.card_empty, List.length_eq_zero_iff] at hlength
  rw [hlength]
  rfl

/-- The error of one group; that of an empty one is zero, whatever its colour is. -/
theorem spread_group (cs : List Color) (mask : ℕ) (bit : Bool) :
    (spread ((Color.mean? (group bit mask cs)).getD .black) (group bit mask cs) : ℤ) =
      ∑ i ∈ members cs mask bit, cs[i].squaredDistance (meanColor cs mask bit) := by
  rw [spread, total_group, Nat.cast_sum]
  by_cases h : (members cs mask bit).Nonempty
  · rw [mean?_group_of_nonempty h, Option.getD_some]
    exact Finset.sum_congr rfl fun i _ => Color.distanceSq_eq _ _
  · rw [Finset.not_nonempty_iff_eq_empty.mp h, Finset.sum_empty, Finset.sum_empty]

theorem splitError_eq (cs : List Color) (mask : ℕ) : (splitError cs mask : ℤ) = lossOf cs mask := by
  have hgroups : lossOf cs mask =
      ∑ bit, ∑ i ∈ members cs mask bit, cs[i].squaredDistance (meanColor cs mask bit) := by
    rw [lossOf, ← Finset.sum_fiberwise Finset.univ fun i : Fin cs.length => mask.testBit i]
    refine Finset.sum_congr rfl fun bit _ => Finset.sum_congr rfl fun i hi => ?_
    rw [mem_members.mp hi]
  rw [hgroups, Fintype.sum_bool, ← spread_group, ← spread_group, ← Nat.cast_add]
  rfl

/-! ### Complements -/

theorem members_complement (h : mask < 2 ^ cs.length) (bit : Bool) :
    members cs (2 ^ cs.length - 1 - mask) bit = members cs mask !bit := by
  ext i
  have hbit : (2 ^ cs.length - 1 - mask).testBit i = !mask.testBit i := by
    rw [Nat.sub_sub, Nat.add_comm, Nat.testBit_two_pow_sub_succ h, decide_eq_true i.isLt,
      Bool.true_and]
  rw [mem_members, mem_members, hbit]
  cases bit <;> cases mask.testBit i <;> decide

theorem meanColor_complement (h : mask < 2 ^ cs.length) (bit : Bool) :
    meanColor cs (2 ^ cs.length - 1 - mask) bit = meanColor cs mask !bit := by
  simp only [meanColor, meanChannel, members_complement h]

theorem lossOf_complement (h : mask < 2 ^ cs.length) :
    lossOf cs (2 ^ cs.length - 1 - mask) = lossOf cs mask := by
  refine Finset.sum_congr rfl fun i _ => ?_
  have hi : i ∈ members cs mask !(2 ^ cs.length - 1 - mask).testBit i := by
    rw [← members_complement h, mem_members]
  rw [meanColor_complement h, mem_members.mp hi]

/-! ### Groups of one colour -/

/-- The mean of colours that look the same looks like them. -/
theorem low_meanColor {i : Fin cs.length} (hi : i ∈ members cs mask bit)
    (h : ∀ j ∈ members cs mask bit, cs[j].low = cs[i].low) :
    (meanColor cs mask bit).low = cs[i].low := by
  have hchannel (k : Fin 3) : meanChannel cs mask bit k = cs[i].channel k := by
    rw [meanChannel, Finset.sum_const_nat fun j hj => Color.channel_congr (h j hj) k]
    exact Nat.mul_div_cancel_left _ (Finset.card_pos.mpr ⟨i, hi⟩)
  rw [Color.low_eq_iff, meanColor, hchannel, hchannel, hchannel, Color.channel_zero,
    Color.channel_one, Color.channel_two]
  simp [Nat.mod_eq_of_lt, Color.red_lt, Color.green_lt, Color.blue_lt]

theorem lossOf_nonneg (cs : List Color) (mask : ℕ) : 0 ≤ lossOf cs mask :=
  Finset.sum_nonneg fun _ _ => Color.squaredDistance_nonneg _ _

/-- Nothing is lost just when every sample looks like the mean of its group. -/
theorem lossOf_eq_zero_iff :
    lossOf cs mask = 0 ↔
      ∀ i : Fin cs.length, cs[i].low = (meanColor cs mask (mask.testBit i)).low := by
  rw [lossOf, Finset.sum_eq_zero_iff_of_nonneg fun _ _ => Color.squaredDistance_nonneg _ _]
  simp only [Finset.mem_univ, forall_const, Color.squaredDistance_eq_zero]

/-- A mask that never puts samples of different colours together loses nothing. -/
theorem lossOf_eq_zero
    (h : ∀ i j : Fin cs.length, mask.testBit i = mask.testBit j → cs[i].low = cs[j].low) :
    lossOf cs mask = 0 := by
  refine lossOf_eq_zero_iff.mpr fun i => ?_
  refine (low_meanColor (mem_members.mpr rfl) fun j hj => ?_).symm
  exact h j i (mem_members.mp hj)

/-- Samples of at most two colours can be split by colour: into those that look like the first one
and all others. -/
theorem exists_lossOf_eq_zero (hcs : cs ≠ [])
    (h : (Finset.univ.image fun i : Fin cs.length => cs[i].low).card ≤ 2) :
    ∃ mask < 2 ^ cs.length, lossOf cs mask = 0 := by
  let head : Fin cs.length := ⟨0, List.length_pos_iff.mpr hcs⟩
  let differs (i : Fin cs.length) : Bool := cs[i].low ≠ cs[head].low
  refine ⟨Nat.ofBits differs, Nat.ofBits_lt_two_pow differs, lossOf_eq_zero fun i j hij => ?_⟩
  rw [Nat.testBit_ofBits_lt differs i i.isLt, Nat.testBit_ofBits_lt differs j j.isLt] at hij
  have hmem (k : Fin cs.length) :
      cs[k].low ∈ Finset.univ.image fun i : Fin cs.length => cs[i].low :=
    Finset.mem_image_of_mem _ (Finset.mem_univ k)
  -- Two samples of the other group that differ would make three colours with the first one.
  by_contra hne
  have hside : cs[i].low = cs[head].low ↔ cs[j].low = cs[head].low := by
    simpa only [differs, ne_eq, decide_not, Bool.not_inj_iff, decide_eq_decide] using hij
  have hi : cs[head].low ≠ cs[i].low := fun hi => hne (hi.symm.trans (hside.mp hi.symm).symm)
  have hj : cs[head].low ≠ cs[j].low := fun hj => hne ((hside.mpr hj.symm).trans hj)
  have hthree := Finset.two_lt_card.mpr ⟨_, hmem head, _, hmem i, _, hmem j, hi, hj, hne⟩
  omega

/-! ### The chosen split -/

theorem isFirst_bestSplit (cs : List Color) :
    IsFirst (splitError cs) (Set.Iio (2 ^ cs.length)) (bestSplit cs).mask := by
  have h := isFirst_leastUpTo (splitError cs) (2 ^ cs.length - 1)
  have hrange : Set.Iio (2 ^ cs.length) = Set.Iic (2 ^ cs.length - 1) := by
    ext m
    have := Nat.two_pow_pos cs.length
    simp only [Set.mem_Iio, Set.mem_Iic]
    omega
  rwa [hrange]

theorem isLeast_mask (cs : List Color) :
    IsLeast {m ∈ Set.Iio (2 ^ cs.length) | ∀ m' ∈ Set.Iio (2 ^ cs.length),
      lossOf cs m ≤ lossOf cs m'} (bestSplit cs).mask := by
  simpa only [← splitError_eq, Nat.cast_le] using (isFirst_bestSplit cs).isLeast

theorem members_nonempty_not (hcs : cs ≠ []) (h : ¬(members cs mask bit).Nonempty) :
    (members cs mask !bit).Nonempty := by
  let head : Fin cs.length := ⟨0, List.length_pos_iff.mpr hcs⟩
  exact ⟨head, mem_members.mpr (Bool.eq_not_of_ne fun hbit => h ⟨head, mem_members.mpr hbit⟩)⟩

/-- The colour of a group is its mean, or that of the other group when it is empty. -/
theorem getD_mean?_group (hcs : cs ≠ []) (mask : ℕ) (bit : Bool) :
    (Color.mean? (group bit mask cs)).getD ((Color.mean? (group (!bit) mask cs)).getD .black) =
      if (members cs mask bit).Nonempty then meanColor cs mask bit
      else meanColor cs mask !bit := by
  split_ifs with h
  · rw [mean?_group_of_nonempty h, Option.getD_some]
  · rw [mean?_group_of_empty h, mean?_group_of_nonempty (members_nonempty_not hcs h),
      Option.getD_none, Option.getD_some]

theorem colorAt_bestSplit (hcs : cs ≠ []) (i : Fin cs.length) :
    (bestSplit cs).colorAt i =
      meanColor cs (bestSplit cs).mask ((bestSplit cs).mask.testBit i) := by
  have hmember : i ∈ members cs (bestSplit cs).mask ((bestSplit cs).mask.testBit i) :=
    mem_members.mpr rfl
  unfold Split.colorAt
  split_ifs with hbit
  · rw [hbit] at hmember ⊢
    exact (getD_mean?_group hcs _ true).trans (if_pos ⟨i, hmember⟩)
  · rw [Bool.not_eq_true] at hbit
    rw [hbit] at hmember ⊢
    exact (getD_mean?_group hcs _ false).trans (if_pos ⟨i, hmember⟩)

/-- The complement would be a smaller mask with the same groups. -/
theorem testBit_mask_last (hcs : cs ≠ []) :
    (bestSplit cs).mask.testBit (cs.length - 1) = false := by
  have hfirst := isFirst_bestSplit cs
  have hmask : (bestSplit cs).mask < 2 ^ cs.length := hfirst.mem
  have hcomplement : 2 ^ cs.length - 1 - (bestSplit cs).mask ∈ Set.Iio (2 ^ cs.length) := by
    rw [Set.mem_Iio]
    omega
  have hequal : splitError cs (2 ^ cs.length - 1 - (bestSplit cs).mask) =
      splitError cs (bestSplit cs).mask := by
    exact_mod_cast (splitError_eq cs _).trans
      ((lossOf_complement hmask).trans (splitError_eq cs _).symm)
  have hle := hfirst.first _ hcomplement hequal.le
  -- A mask no larger than its complement is below half of all masks.
  have hhalf : 2 ^ cs.length = 2 * 2 ^ (cs.length - 1) := by
    rw [← Nat.pow_succ', Nat.succ_eq_add_one, Nat.sub_add_cancel (List.length_pos_iff.mpr hcs)]
  exact Nat.testBit_lt_two_pow (by omega)

theorem lossOf_bestSplit (hcs : cs ≠ [])
    (h : (Finset.univ.image fun i : Fin cs.length => cs[i].low).card ≤ 2) :
    lossOf cs (bestSplit cs).mask = 0 := by
  obtain ⟨mask, hmask, hzero⟩ := exists_lossOf_eq_zero hcs h
  exact (((isLeast_mask cs).1.2 mask hmask).trans hzero.le).antisymm (lossOf_nonneg cs _)

/-- The chosen split loses least, with the smallest mask that does, so the last sample is in the
background; its colours are the means of its groups, or that of the other group when one is empty;
and samples of at most two colours are shown as they are. -/
theorem bestSplit_least (hcs : cs ≠ []) :
    IsLeast {m ∈ Set.Iio (2 ^ cs.length) | ∀ m' ∈ Set.Iio (2 ^ cs.length),
        lossOf cs m ≤ lossOf cs m'} (bestSplit cs).mask ∧
      (bestSplit cs).foreground = (if (members cs (bestSplit cs).mask true).Nonempty
        then meanColor cs (bestSplit cs).mask true
        else meanColor cs (bestSplit cs).mask false) ∧
      (bestSplit cs).background = (if (members cs (bestSplit cs).mask false).Nonempty
        then meanColor cs (bestSplit cs).mask false
        else meanColor cs (bestSplit cs).mask true) ∧
      (bestSplit cs).mask.testBit (cs.length - 1) = false ∧
      (∀ m < 2 ^ cs.length, lossOf cs (2 ^ cs.length - 1 - m) = lossOf cs m) ∧
      ((Finset.univ.image fun i : Fin cs.length => cs[i].low).card ≤ 2 →
        lossOf cs (bestSplit cs).mask = 0 ∧
          ∀ i : Fin cs.length, ((bestSplit cs).colorAt i).low = cs[i].low) := by
  refine ⟨isLeast_mask cs, getD_mean?_group hcs _ true, getD_mean?_group hcs _ false,
    testBit_mask_last hcs, fun m hm => lossOf_complement hm, ?_⟩
  intro htwo
  have hloss := lossOf_bestSplit hcs htwo
  refine ⟨hloss, ?_⟩
  intro i
  rw [colorAt_bestSplit hcs, ← lossOf_eq_zero_iff.mp hloss i]

/-- Red, and blue with and without bits above the 24 that are shown. -/
def stripes : List Color := [⟨0xFF0000⟩, ⟨0x0000FF⟩, ⟨0xFF0000FF⟩, ⟨0x0000FF⟩]

/-- The red sample alone is set, since the last one never is. -/
theorem bestSplit_least_stripes :
    stripes ≠ [] ∧ (Finset.univ.image fun i : Fin stripes.length => stripes[i].low).card ≤ 2 ∧
      bestSplit stripes = ⟨1, ⟨0xFF0000⟩, ⟨0x0000FF⟩⟩ ∧
      lossOf stripes (bestSplit stripes).mask = 0 ∧
      ∀ i : Fin stripes.length, ((bestSplit stripes).colorAt i).low = stripes[i].low := by
  have hcs : stripes ≠ [] := by decide
  have htwo : (Finset.univ.image fun i : Fin stripes.length => stripes[i].low).card ≤ 2 := by
    decide +kernel
  have hleast := bestSplit_least hcs
  exact ⟨hcs, htwo, by decide +kernel, hleast.2.2.2.2.2 htwo⟩

end CellCanvas.Blit
