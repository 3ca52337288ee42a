import CellCanvas.Proofs.Image.Cache

/-!
# Which image gives way

Every placement takes the next tick, so the images that the current frame has placed have later
ticks than all others. The image that was placed least recently is therefore one of the current
frame only if all images are. With no more images in the frame than there are slots, that never
happens when a new image needs room.
-/

namespace CellCanvas

namespace ImageCache

variable {c : ImageCache}

/-- The least recent slot has the least tick. -/
theorem tick_leastRecent_le {i : Nat} (hi : i < c.slots.size) :
    (c.slot c.leastRecent).tick ≤ (c.slot i).tick := by
  obtain ⟨oldest, holdest⟩ : ∃ t, (c.slots.map ImageSlot.tick).toList.min? = some t := by
    apply Option.isSome_iff_exists.mp
    rw [List.isSome_min?_iff]
    intro hnil
    simp only [Array.toList_map, List.map_eq_nil_iff, Array.toList_eq_nil_iff] at hnil
    simp [hnil] at hi
  obtain ⟨hmem, hle⟩ := List.min?_eq_some_iff.mp holdest
  have hmin : oldest ≤ (c.slot i).tick := by
    apply hle
    rw [slot_of_lt hi, Array.toList_map]
    exact List.mem_map_of_mem (Array.getElem_mem_toList hi)
  obtain ⟨s, hs, htick⟩ : ∃ s ∈ c.slots, s.tick = oldest := by simpa using hmem
  have hfound : (c.slots.findIdx? fun s => s.tick == oldest).isSome = true := by
    rw [Array.findIdx?_isSome, Array.any_eq_true']
    exact ⟨s, hs, by simp [htick]⟩
  obtain ⟨j, hj⟩ := Option.isSome_iff_exists.mp hfound
  obtain ⟨hlt, hjtick, -⟩ := Array.findIdx?_eq_some_iff_getElem.mp hj
  have hleast : c.leastRecent = j := by
    unfold leastRecent
    dsimp only
    rw [holdest, Option.getD_some, hj, Option.getD_some]
  rw [hleast, slot_of_lt hlt, eq_of_beq hjtick]
  exact hmin

theorem tick_chooseSlot (c : ImageCache) : c.chooseSlot.1.tick = c.tick := by
  unfold chooseSlot
  split_ifs
  · rfl
  · cases c.slots.findIdx? fun s => !s.transmitted with
    | some i => rfl
    | none => rfl

/-- What holds of the ticks while a frame is presented. The frame started at a tick, and its images
are known by these pixels. -/
structure IsAmid (start : Nat) (images : Finset (UInt64 × Nat × Nat)) (c : ImageCache) : Prop where
  start_le : start ≤ c.tick
  tick_le : ∀ i, (c.slot i).tick ≤ c.tick
  placed : ∀ i, (c.slot i).placed = true →
    start < (c.slot i).tick ∧ (c.slot i).transmitted = true ∧ (c.slot i).pixels ∈ images
  unplaced : ∀ i, (c.slot i).placed = false → (c.slot i).tick ≤ start

namespace IsAmid

variable {c' : ImageCache} {start : Nat} {images : Finset (UInt64 × Nat × Nat)}

/-- A frame starts after all placements so far. -/
theorem beginFrame (h : ∀ i, (c.slot i).tick ≤ c.tick) : c.beginFrame.IsAmid c.tick images := by
  refine ⟨Nat.le_refl _, ?_, ?_, ?_⟩
  · intro i
    rw [slot_beginFrame]
    exact h i
  · intro i hi
    rw [slot_beginFrame] at hi
    cases hi
  · intro i _
    rw [slot_beginFrame]
    exact h i

theorem congr (h : c.IsAmid start images) (htick : c'.tick = c.tick)
    (hslot : ∀ i, c'.slot i = c.slot i) : c'.IsAmid start images := by
  refine ⟨htick ▸ h.start_le, ?_, ?_, ?_⟩
  · intro i
    rw [hslot, htick]
    exact h.tick_le i
  · intro i hi
    rw [hslot] at hi ⊢
    exact h.placed i hi
  · intro i hi
    rw [hslot] at hi ⊢
    exact h.unplaced i hi

/-- A slot may take anything that has not been placed yet. -/
theorem setSlot (h : c.IsAmid start images) {i : Nat} (hi : i < c.slots.size) {s : ImageSlot}
    (hplaced : s.placed = false) (htick : s.tick = 0) : (c.setSlot i s).IsAmid start images := by
  refine ⟨h.start_le, ?_, ?_, ?_⟩
  all_goals
    intro j
    rcases slot_setSlot_cases s hi j with ⟨-, hsame⟩ | ⟨-, hsame⟩ <;> rw [hsame]
  · exact htick ▸ Nat.zero_le _
  · exact h.tick_le j
  · intro hj
    rw [hplaced] at hj
    cases hj
  · exact h.placed j
  · exact fun _ => htick ▸ Nat.zero_le _
  · exact h.unplaced j

theorem markPlaced (h : c.IsAmid start images) {i : Nat} (hi : (c.slot i).transmitted = true)
    (himage : (c.slot i).pixels ∈ images) : (c.markPlaced i).IsAmid start images := by
  have hslot := slot_markPlaced (lt_of_transmitted hi)
  have hnext : (c.markPlaced i).tick = c.tick + 1 := rfl
  have hstart := h.start_le
  refine ⟨by omega, ?_, ?_, ?_⟩
  all_goals
    intro j
    rw [hslot]
    by_cases hij : i = j
  · rw [if_pos hij]
    exact hnext.ge
  · rw [if_neg hij]
    exact (h.tick_le j).trans (Nat.le_succ _)
  · rw [if_pos hij]
    exact fun _ => ⟨Nat.lt_succ_of_le hstart, hi, himage⟩
  · rw [if_neg hij]
    exact h.placed j
  · rw [if_pos hij]
    exact nofun
  · rw [if_neg hij]
    exact h.unplaced j

/-- When a slot of the frame is the least recent one, every slot is one of the frame. -/
theorem placed_of_leastRecent (h : c.IsAmid start images)
    (hleast : (c.slot c.leastRecent).placed = true) {i : Nat} (hi : i < c.slots.size) :
    (c.slot i).placed = true := by
  by_contra hnot
  have hold := h.unplaced i (by simpa using hnot)
  have hnew := (h.placed _ hleast).1
  have hle := tick_leastRecent_le hi
  omega

/-- A full cache has images besides those of the frame when the frame needs one that is missing and
has no more images than there are slots. -/
theorem exists_unplaced (h : c.IsAmid start images) (hpixels : c.Distinguishes ImageSlot.pixels)
    (hfull : maxSlots ≤ c.slots.size) (hfew : images.card ≤ maxSlots)
    {missing : UInt64 × Nat × Nat} (hmissing : missing ∈ images)
    (hnew : ∀ i, (c.slot i).transmitted = true → (c.slot i).pixels ≠ missing) :
    ∃ i < c.slots.size, (c.slot i).placed = false := by
  by_contra hnone
  have hall (i : Nat) (hi : i < c.slots.size) : (c.slot i).placed = true := by
    by_contra hnot
    exact hnone ⟨i, hi, by simpa using hnot⟩
  -- All slots have different pixels, none of them those of the missing image.
  have hmaps : ∀ i ∈ Finset.range c.slots.size, (c.slot i).pixels ∈ images.erase missing := by
    intro i hi
    obtain ⟨-, htransmitted, himage⟩ := h.placed i (hall i (Finset.mem_range.mp hi))
    exact Finset.mem_erase.mpr ⟨hnew i htransmitted, himage⟩
  have hinjective : Set.InjOn (fun i => (c.slot i).pixels) (Finset.range c.slots.size) := by
    intro i hi j hj heq
    have hi' := (h.placed i (hall i (by simpa using hi))).2.1
    have hj' := (h.placed j (hall j (by simpa using hj))).2.1
    exact hpixels i j hi' hj' heq
  have hcard := Finset.card_le_card_of_injOn _ hmaps hinjective
  rw [Finset.card_range, Finset.card_erase_of_mem hmissing] at hcard
  have hpos := Finset.card_pos.mpr ⟨missing, hmissing⟩
  omega

/-- The slot that is chosen for a missing image of the frame does not hold one of the frame. -/
theorem not_placed_chooseSlot (h : c.IsAmid start images)
    (hpixels : c.Distinguishes ImageSlot.pixels) (hfew : images.card ≤ maxSlots)
    {missing : UInt64 × Nat × Nat} (hmissing : missing ∈ images)
    (hnew : ∀ i, (c.slot i).transmitted = true → (c.slot i).pixels ≠ missing) :
    (c.slot c.chooseSlot.2).placed = false := by
  unfold chooseSlot
  by_cases hroom : c.slots.size < maxSlots
  · rw [if_pos hroom, slot_of_le (Nat.le_refl _)]
  · rw [if_neg hroom]
    cases hfound : c.slots.findIdx? fun s => !s.transmitted with
    | some i =>
      obtain ⟨hi, hfree, -⟩ := Array.findIdx?_eq_some_iff_getElem.mp hfound
      rw [← slot_of_lt hi] at hfree
      by_contra hplaced
      rw [(h.placed i (by simpa using hplaced)).2.1] at hfree
      cases hfree
    | none =>
      obtain ⟨i, hi, hunplaced⟩ :=
        h.exists_unplaced hpixels (Nat.le_of_not_lt hroom) hfew hmissing hnew
      by_contra hplaced
      have hbad := h.placed_of_leastRecent (by simpa using hplaced) hi
      rw [hunplaced] at hbad
      cases hbad

end IsAmid

end ImageCache

end CellCanvas
