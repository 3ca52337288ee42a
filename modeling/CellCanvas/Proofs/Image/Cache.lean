import CellCanvas.Image.Cache
import Mathlib.Tactic

/-!
# What the cache operations do to the slots

The cache is seen as a function from indices to slots: behind the last slot there are empty ones. A
new slot is empty, so taking one more leaves the function as it was.
-/

namespace CellCanvas

namespace ImageCache

variable {c : ImageCache}

theorem slot_of_lt {i : Nat} (h : i < c.slots.size) : c.slot i = c.slots[i] := by
  simp [slot, h]

theorem slot_of_le {i : Nat} (h : c.slots.size ≤ i) : c.slot i = {} := by
  simp [slot, h]

theorem lt_of_transmitted {i : Nat} (h : (c.slot i).transmitted = true) : i < c.slots.size := by
  by_contra hle
  rw [slot_of_le (Nat.le_of_not_lt hle)] at h
  cases h

theorem slot_setSlot {i : Nat} (s : ImageSlot) (hi : i < c.slots.size) (j : Nat) :
    (c.setSlot i s).slot j = if i = j then s else c.slot j := by
  unfold setSlot slot
  by_cases hij : i = j
  · subst hij
    simp [hi]
  · simp [hij]

theorem slot_setSlot_cases {i : Nat} (s : ImageSlot) (hi : i < c.slots.size) (j : Nat) :
    (j = i ∧ (c.setSlot i s).slot j = s) ∨ (j ≠ i ∧ (c.setSlot i s).slot j = c.slot j) := by
  rw [slot_setSlot s hi]
  by_cases hij : i = j
  · exact .inl ⟨hij.symm, if_pos hij⟩
  · exact .inr ⟨Ne.symm hij, if_neg hij⟩

@[simp] theorem size_setSlot (i : Nat) (s : ImageSlot) :
    (c.setSlot i s).slots.size = c.slots.size := by
  simp [setSlot]

theorem setSlot_setSlot (i : Nat) (s s' : ImageSlot) :
    (c.setSlot i s).setSlot i s' = c.setSlot i s' := by
  simp [setSlot]

theorem slot_beginFrame (i : Nat) :
    c.beginFrame.slot i = { c.slot i with placed := false } := by
  by_cases hi : i < c.slots.size
  · simp [beginFrame, slot, hi]
  · simp [beginFrame, slot, hi]

@[simp] theorem size_beginFrame : c.beginFrame.slots.size = c.slots.size := by
  simp [beginFrame]

@[simp] theorem size_markPlaced (i : Nat) : (c.markPlaced i).slots.size = c.slots.size :=
  size_setSlot i _

theorem slot_markPlaced {i : Nat} (hi : i < c.slots.size) (j : Nat) :
    (c.markPlaced i).slot j =
      if i = j then { c.slot i with placed := true, tick := c.tick + 1 } else c.slot j :=
  slot_setSlot _ hi j

theorem holds_iff {hash : UInt64} {width height : Nat} {s : ImageSlot} :
    holds hash width height s = true ↔
      s.transmitted = true ∧ s.hash = hash ∧ s.width = width ∧ s.height = height := by
  simp [holds, and_assoc]

/-- What is found is an image with the same pixels. -/
theorem holds_of_find? {callerId : Nat} {hash : UInt64} {width height i : Nat}
    (h : c.find? callerId hash width height = some i) :
    holds hash width height (c.slot i) = true := by
  simp only [find?, Option.orElse_eq_orElse, Option.orElse_eq_or] at h
  rcases Option.or_eq_some_iff.mp h with h | ⟨-, h⟩
  · split_ifs at h
    obtain ⟨hi, hslot, -⟩ := Array.findIdx?_eq_some_iff_getElem.mp h
    rw [slot_of_lt hi]
    exact (Bool.and_eq_true_iff.mp hslot).1
  · obtain ⟨hi, hslot, -⟩ := Array.findIdx?_eq_some_iff_getElem.mp h
    rw [slot_of_lt hi]
    exact hslot

/-- When nothing is found, no image has the same pixels. -/
theorem not_holds_of_find? {callerId : Nat} {hash : UInt64} {width height : Nat}
    (h : c.find? callerId hash width height = none) (i : Nat) :
    holds hash width height (c.slot i) = false := by
  simp only [find?, Option.orElse_eq_orElse, Option.orElse_eq_or] at h
  have hnone := (Option.or_eq_none_iff.mp h).2
  by_cases hi : i < c.slots.size
  · rw [slot_of_lt hi]
    exact Array.findIdx?_eq_none_iff.mp hnone _ (Array.getElem_mem hi)
  · rw [slot_of_le (Nat.le_of_not_lt hi)]
    rfl

theorem leastRecent_lt (h : 0 < c.slots.size) : c.leastRecent < c.slots.size := by
  unfold leastRecent
  dsimp only
  cases hfound : c.slots.findIdx? _ with
  | none => exact h
  | some i => exact (Array.findIdx?_eq_some_iff_getElem.mp hfound).1

/-- Choosing a slot changes no slot. -/
theorem chooseSlot_spec (h : c.slots.size ≤ maxSlots) :
    (∀ j, c.chooseSlot.1.slot j = c.slot j) ∧ c.chooseSlot.1.nextNumber = c.nextNumber ∧
      c.chooseSlot.1.slots.size ≤ maxSlots ∧ c.chooseSlot.2 < c.chooseSlot.1.slots.size := by
  unfold chooseSlot
  by_cases hroom : c.slots.size < maxSlots
  · rw [if_pos hroom]
    refine ⟨?_, rfl, ?_, ?_⟩
    · intro j
      simp only [slot, Array.getD_eq_getD_getElem?, Array.getElem?_push]
      split_ifs with hj
      · simp [hj]
      · rfl
    · simpa using hroom
    · simp
  · rw [if_neg hroom]
    cases hfound : c.slots.findIdx? fun s => !s.transmitted with
    | some i => exact ⟨fun _ => rfl, rfl, h, (Array.findIdx?_eq_some_iff_getElem.mp hfound).1⟩
    | none =>
      refine ⟨fun _ => rfl, rfl, h, leastRecent_lt ?_⟩
      unfold maxSlots at hroom
      omega

/-- No image gives way while there is a slot without one. -/
theorem not_transmitted_chooseSlot {i : Nat} (hi : i < maxSlots)
    (hfree : (c.slot i).transmitted = false) : (c.slot c.chooseSlot.2).transmitted = false := by
  unfold chooseSlot
  by_cases hroom : c.slots.size < maxSlots
  · rw [if_pos hroom, slot_of_le (Nat.le_refl _)]
  · rw [if_neg hroom]
    cases hfound : c.slots.findIdx? fun s => !s.transmitted with
    | some j =>
      obtain ⟨hj, hslot, -⟩ := Array.findIdx?_eq_some_iff_getElem.mp hfound
      rw [slot_of_lt hj]
      simpa using hslot
    | none =>
      have hlt : i < c.slots.size := hi.trans_le (Nat.le_of_not_lt hroom)
      have hall := Array.findIdx?_eq_none_iff.mp hfound _ (Array.getElem_mem hlt)
      rw [slot_of_lt hlt] at hfree
      simp [hfree] at hall

theorem takeNumber_fst (h : c.nextNumber ≠ lastNumber) :
    c.takeNumber.1 = { c with nextNumber := c.nextNumber + 1 } := by
  simp [takeNumber, h]

theorem resident_le : c.resident ≤ c.slots.size := Array.countP_le_size

end ImageCache

/-- What an image is known by. -/
def ImageSlot.pixels (s : ImageSlot) : UInt64 × Nat × Nat := (s.hash, s.width, s.height)

namespace ImageCache

variable {c c' : ImageCache} {α : Type} {value : ImageSlot → α}

theorem holds_iff_pixels {hash : UInt64} {width height : Nat} {s : ImageSlot} :
    holds hash width height s = true ↔
      s.transmitted = true ∧ s.pixels = (hash, width, height) := by
  simp [holds_iff, ImageSlot.pixels]

/-- When nothing is found, every image has other pixels. -/
theorem pixels_ne_of_find? {callerId : Nat} {hash : UInt64} {width height : Nat}
    (h : c.find? callerId hash width height = none) {i : Nat}
    (hi : (c.slot i).transmitted = true) : (c.slot i).pixels ≠ (hash, width, height) := by
  intro heq
  have hno := not_holds_of_find? h i
  rw [holds_iff_pixels.mpr ⟨hi, heq⟩] at hno
  cases hno

/-- Whether a value tells the images of the slots apart. -/
def Distinguishes (c : ImageCache) (value : ImageSlot → α) : Prop :=
  ∀ i j, (c.slot i).transmitted = true → (c.slot j).transmitted = true →
    value (c.slot i) = value (c.slot j) → i = j

/-- Images that are kept with their values are still told apart. -/
theorem Distinguishes.congr (h : c.Distinguishes value)
    (hslot : ∀ i, (c'.slot i).transmitted = true →
      (c.slot i).transmitted = true ∧ value (c'.slot i) = value (c.slot i)) :
    c'.Distinguishes value := by
  intro i j hi hj heq
  obtain ⟨hi', hvalue⟩ := hslot i hi
  obtain ⟨hj', hvalue'⟩ := hslot j hj
  exact h i j hi' hj' (hvalue.symm.trans (heq.trans hvalue'))

/-- An image with a value of its own is told apart from the others. -/
theorem Distinguishes.setSlot (h : c.Distinguishes value) {i : Nat} (hi : i < c.slots.size)
    {new : ImageSlot}
    (hnew : ∀ j, (c.slot j).transmitted = true → value (c.slot j) ≠ value new) :
    (c.setSlot i new).Distinguishes value := by
  intro j k hj hk heq
  rcases slot_setSlot_cases new hi j with ⟨hji, hsame⟩ | ⟨-, hsame⟩
  · rcases slot_setSlot_cases new hi k with ⟨hki, -⟩ | ⟨-, hsame'⟩
    · rw [hji, hki]
    · rw [hsame'] at hk
      rw [hsame, hsame'] at heq
      exact absurd heq.symm (hnew k hk)
  · rw [hsame] at hj heq
    rcases slot_setSlot_cases new hi k with ⟨-, hsame'⟩ | ⟨-, hsame'⟩
    · rw [hsame'] at heq
      exact absurd heq (hnew j hj)
    · rw [hsame'] at hk heq
      exact h j k hj hk heq

end ImageCache

end CellCanvas
