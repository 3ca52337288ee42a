import CellCanvas.Proofs.Image.Mirror
import CellCanvas.Proofs.Image.Recency

/-!
# Images that stay through a frame

What placing, adopting and dropping an image do to the cache, whatever the fingerprints and as long
as there are slots: an image that the frame has placed is not touched any more, and the images that
are placed are those that have been asked for.
-/

namespace CellCanvas

open Kitty

namespace ImageCache

/-- The cache with a new image in the slot that is chosen for it, under the next number. -/
def adopt (c : ImageCache) (s : ImageSlot) : ImageCache :=
  c.chooseSlot.1.takeNumber.1.setSlot c.chooseSlot.2 s

variable {c c' c'' : ImageCache} {s : ImageSlot} {i : Nat}

section Adopt

variable (h : c.slots.size ≤ maxSlots)
include h

theorem slot_adopt (s : ImageSlot) (j : Nat) :
    (c.adopt s).slot j = if c.chooseSlot.2 = j then s else c.slot j := by
  obtain ⟨hslot, -, -, hlt⟩ := chooseSlot_spec h
  have hset := slot_setSlot (c := c.chooseSlot.1.takeNumber.1) s hlt j
  rwa [show c.chooseSlot.1.takeNumber.1.slot j = c.slot j from hslot j] at hset

theorem slot_adopt_cases (s : ImageSlot) (j : Nat) :
    (j = c.chooseSlot.2 ∧ (c.adopt s).slot j = s) ∨
      (j ≠ c.chooseSlot.2 ∧ (c.adopt s).slot j = c.slot j) := by
  rw [slot_adopt h]
  by_cases hj : c.chooseSlot.2 = j
  · exact .inl ⟨hj.symm, if_pos hj⟩
  · exact .inr ⟨Ne.symm hj, if_neg hj⟩

theorem size_adopt (s : ImageSlot) :
    (c.adopt s).slots.size ≤ maxSlots ∧ c.chooseSlot.2 < (c.adopt s).slots.size := by
  obtain ⟨-, -, hsize, hlt⟩ := chooseSlot_spec h
  rw [adopt, size_setSlot]
  exact ⟨hsize, hlt⟩

/-- An image with a value of its own is told apart when it is adopted. -/
theorem Distinguishes.adopt {α : Type} {value : ImageSlot → α} (hc : c.Distinguishes value)
    (hnew : ∀ j, (c.slot j).transmitted = true → value (c.slot j) ≠ value s) :
    (c.adopt s).Distinguishes value := by
  obtain ⟨hslot, -, -, hlt⟩ := chooseSlot_spec h
  have htaken (j : Nat) : c.chooseSlot.1.takeNumber.1.slot j = c.slot j := hslot j
  refine Distinguishes.setSlot (c := c.chooseSlot.1.takeNumber.1) ?_ hlt ?_
  · apply hc.congr
    intro j hj
    rw [htaken] at hj ⊢
    exact ⟨hj, rfl⟩
  · intro j hj
    rw [htaken] at hj ⊢
    exact hnew j hj

end Adopt

/-- Placing an image changes when it was placed, and nothing about the images. -/
theorem sameImage_markPlaced (hi : i < c.slots.size) (j : Nat) :
    ((c.markPlaced i).slot j).SameImage (c.slot j) := by
  rw [slot_markPlaced hi]
  split_ifs with hij
  · rw [hij]
    exact ⟨rfl, rfl, rfl⟩
  · exact ⟨rfl, rfl, rfl⟩

theorem sameImage_beginFrame (c : ImageCache) (j : Nat) :
    (c.beginFrame.slot j).SameImage (c.slot j) := by
  rw [slot_beginFrame]
  exact ⟨rfl, rfl, rfl⟩

/-- Images that are the same are told apart by what they say. -/
theorem Distinguishes.of_sameImage {α : Type} {value : ImageSlot → α} (h : c.Distinguishes value)
    (hvalue : ∀ s s' : ImageSlot, s.SameImage s' → value s = value s')
    (hslot : ∀ j, (c'.slot j).SameImage (c.slot j)) : c'.Distinguishes value :=
  h.congr fun j hj => ⟨(hslot j).transmitted.symm.trans hj, hvalue _ _ (hslot j)⟩

/-- Emptying a slot leaves the other images. -/
theorem Distinguishes.drop {α : Type} {value : ImageSlot → α} (h : c.Distinguishes value)
    (hi : i < c.slots.size) : (c.setSlot i {}).Distinguishes value := by
  apply h.congr
  intro j hj
  rcases slot_setSlot_cases {} hi j with ⟨-, hsame⟩ | ⟨-, hsame⟩
  · rw [hsame] at hj
    cases hj
  · rw [hsame] at hj ⊢
    exact ⟨hj, rfl⟩

/-- What holds of the cache while a frame is presented, however many images it has. -/
structure IsOrderly (start : Nat) (images : Finset (UInt64 × Nat × Nat)) (c : ImageCache) :
    Prop where
  size_le : c.slots.size ≤ maxSlots
  pixels : c.Distinguishes ImageSlot.pixels
  amid : c.IsAmid start images

namespace IsOrderly

variable {start : Nat} {images : Finset (UInt64 × Nat × Nat)}

theorem markPlaced (h : c.IsOrderly start images) (hi : (c.slot i).transmitted = true)
    (himage : (c.slot i).pixels ∈ images) : (c.markPlaced i).IsOrderly start images := by
  have hlt := lt_of_transmitted hi
  refine ⟨?_, ?_, h.amid.markPlaced hi himage⟩
  · rw [size_markPlaced]
    exact h.size_le
  · exact h.pixels.of_sameImage (fun _ _ hsame => hsame.pixels) (sameImage_markPlaced hlt)

/-- An image that no slot has is adopted. -/
theorem adopt (h : c.IsOrderly start images) (hplaced : s.placed = false) (htick : s.tick = 0)
    (hnew : ∀ j, (c.slot j).transmitted = true → (c.slot j).pixels ≠ s.pixels) :
    (c.adopt s).IsOrderly start images := by
  obtain ⟨hslot, -, -, hlt⟩ := chooseSlot_spec h.size_le
  have htaken : c.chooseSlot.1.takeNumber.1.IsAmid start images :=
    h.amid.congr c.tick_chooseSlot hslot
  exact ⟨(size_adopt h.size_le s).1, h.pixels.adopt h.size_le hnew,
    htaken.setSlot hlt hplaced htick⟩

theorem drop (h : c.IsOrderly start images) (hi : i < c.slots.size) :
    (c.setSlot i {}).IsOrderly start images := by
  refine ⟨?_, h.pixels.drop hi, h.amid.setSlot hi rfl rfl⟩
  rw [size_setSlot]
  exact h.size_le

end IsOrderly

/-- Every image that the first cache has placed is there in the second, and placed. -/
def KeepsPlaced (c c' : ImageCache) : Prop :=
  ∀ i, (c.slot i).placed = true →
    (c'.slot i).placed = true ∧ (c'.slot i).SameImage (c.slot i)

namespace KeepsPlaced

theorem refl (c : ImageCache) : c.KeepsPlaced c := fun _ hi => ⟨hi, rfl, rfl, rfl⟩

theorem trans (h : c.KeepsPlaced c') (h' : c'.KeepsPlaced c'') : c.KeepsPlaced c'' := by
  intro i hi
  obtain ⟨hplaced, hsame⟩ := h i hi
  obtain ⟨hplaced', hsame'⟩ := h' i hplaced
  exact ⟨hplaced', hsame'.transmitted.trans hsame.transmitted, hsame'.number.trans hsame.number,
    hsame'.pixels.trans hsame.pixels⟩

theorem markPlaced (hi : i < c.slots.size) : c.KeepsPlaced (c.markPlaced i) := by
  intro j hj
  refine ⟨?_, sameImage_markPlaced hi j⟩
  rw [slot_markPlaced hi]
  split_ifs
  · rfl
  · exact hj

/-- Only a slot that the frame has not placed is used for another image. -/
theorem of_slot (hi : (c.slot i).placed = false) (hslot : ∀ j, j ≠ i → c'.slot j = c.slot j) :
    c.KeepsPlaced c' := by
  intro j hj
  have hne : j ≠ i := by
    rintro rfl
    rw [hi] at hj
    cases hj
  rw [hslot j hne]
  exact ⟨hj, rfl, rfl, rfl⟩

end KeepsPlaced

/-- The pixels of the images that are placed. -/
def placedPixels (c : ImageCache) : Set (UInt64 × Nat × Nat) :=
  {k | ∃ i, (c.slot i).placed = true ∧ (c.slot i).pixels = k}

theorem placedPixels_beginFrame (c : ImageCache) : c.beginFrame.placedPixels = ∅ := by
  rw [Set.eq_empty_iff_forall_notMem]
  rintro k ⟨i, hi, -⟩
  rw [slot_beginFrame] at hi
  cases hi

theorem placedPixels_markPlaced (hi : i < c.slots.size) :
    (c.markPlaced i).placedPixels = insert (c.slot i).pixels c.placedPixels := by
  have hslot := slot_markPlaced hi
  ext k
  constructor
  · rintro ⟨j, hj, rfl⟩
    rw [hslot] at hj ⊢
    split_ifs at hj ⊢ with hij
    · exact .inl rfl
    · exact .inr ⟨j, hj, rfl⟩
  · rintro (rfl | ⟨j, hj, rfl⟩)
    · exact ⟨i, by rw [hslot, if_pos rfl], by rw [hslot, if_pos rfl]; rfl⟩
    · obtain ⟨hplaced, hsame⟩ := KeepsPlaced.markPlaced hi j hj
      exact ⟨j, hplaced, hsame.pixels⟩

/-- Another image in a slot that the frame has not placed is not placed either. -/
theorem placedPixels_of_slot (hi : (c.slot i).placed = false) (hi' : (c'.slot i).placed = false)
    (hslot : ∀ j, j ≠ i → c'.slot j = c.slot j) : c'.placedPixels = c.placedPixels := by
  ext k
  constructor
  · rintro ⟨j, hj, rfl⟩
    have hne : j ≠ i := by
      rintro rfl
      rw [hi'] at hj
      cases hj
    rw [hslot j hne] at hj ⊢
    exact ⟨j, hj, rfl⟩
  · rintro ⟨j, hj, rfl⟩
    obtain ⟨hplaced, hsame⟩ := KeepsPlaced.of_slot hi hslot j hj
    exact ⟨j, hplaced, hsame.pixels⟩

end ImageCache

end CellCanvas
