import CellCanvas.Proofs.Image.Presentation
import CellCanvas.Proofs.Image.Recency

/-!
# What stays on show

A picture that is shown stays on show until its number is deleted; showing it again adds one more
placement. A gallery is a terminal with all placements that are still there. After a frame of at
most 64 images the gallery holds what the frame has shown, and with it every earlier placement of an
image that the frame has shown again. So an image that stays in the cache and moves leaves its old
placement behind.
-/

namespace CellCanvas

open Kitty ImageCache

namespace Kitty

/-- A terminal with the placements that are on show. -/
structure Gallery where
  terminal : Terminal
  live : List Showing

namespace Gallery

/-- Act on a request. A placement is added to those that are there, and a deleted picture takes all
of its placements along. -/
def act (g : Gallery) (r : Request) : Gallery where
  terminal := g.terminal.act r
  live := match r with
    | .transmit _ _ => g.live
    | .place id placement => match g.terminal.pictures id with
      | some picture => g.live ++ [⟨id, picture, placement⟩]
      | none => g.live
    | .delete id => g.live.filter fun e => e.id ≠ id

/-- Act on requests in order. -/
def actAll (g : Gallery) (requests : List Request) : Gallery := requests.foldl act g

/-- Receive the bytes of a frame. -/
def receive (g : Gallery) (bytes : ByteArray) : Gallery :=
  match requests? bytes with
  | some requests => ({ g with terminal.shown := [] }).actAll requests
  | none => { g with terminal := g.terminal.receive bytes }

@[simp] theorem actAll_nil (g : Gallery) : g.actAll [] = g := rfl

@[simp] theorem actAll_cons (g : Gallery) (r : Request) (rs : List Request) :
    g.actAll (r :: rs) = (g.act r).actAll rs := rfl

theorem actAll_append (g : Gallery) (rs ss : List Request) :
    g.actAll (rs ++ ss) = (g.actAll rs).actAll ss :=
  List.foldl_append

@[simp] theorem terminal_act (g : Gallery) (r : Request) :
    (g.act r).terminal = g.terminal.act r := rfl

@[simp] theorem terminal_actAll (g : Gallery) (rs : List Request) :
    (g.actAll rs).terminal = g.terminal.actAll rs := by
  induction rs generalizing g with
  | nil => rfl
  | cons r rs ih => exact ih (g.act r)

theorem terminal_receive (g : Gallery) (bytes : ByteArray) :
    (g.receive bytes).terminal = g.terminal.receive bytes := by
  unfold receive Terminal.receive
  cases requests? bytes with
  | none => rfl
  | some requests => exact terminal_actAll _ requests

/-- Nothing is on show whose picture is gone. -/
def IsHung (g : Gallery) : Prop := ∀ e ∈ g.live, (g.terminal.pictures e.id).isSome = true

theorem IsHung.act {g : Gallery} (h : g.IsHung) (r : Request) : (g.act r).IsHung := by
  intro e he
  cases r with
  | transmit id picture =>
    have hold := h e he
    by_cases hid : e.id = id
    · simp [Terminal.act, hid]
    · simpa [Terminal.act, Function.update_of_ne hid] using hold
  | place id placement =>
    unfold Gallery.act at he
    dsimp only at he
    cases hpicture : g.terminal.pictures id with
    | none =>
      rw [hpicture] at he
      simpa [Terminal.act, hpicture] using h e he
    | some picture =>
      rw [hpicture] at he
      rcases List.mem_append.mp he with he | he
      · simpa [Terminal.act, hpicture] using h e he
      · obtain rfl := List.mem_singleton.mp he
        simp [Terminal.act, hpicture]
  | delete id =>
    obtain ⟨he, hid⟩ := List.mem_filter.mp he
    have hid : e.id ≠ id := by simpa using hid
    simpa [Terminal.act, Function.update_of_ne hid] using h e he

theorem IsHung.actAll {g : Gallery} (h : g.IsHung) (rs : List Request) : (g.actAll rs).IsHung := by
  induction rs generalizing g with
  | nil => exact h
  | cons r rs ih => exact ih (h.act r)

theorem IsHung.receive {g : Gallery} (h : g.IsHung) (bytes : ByteArray) :
    (g.receive bytes).IsHung := by
  unfold Gallery.receive Terminal.receive
  cases requests? bytes with
  | none => exact h
  | some requests => exact IsHung.actAll (g := { g with terminal.shown := [] }) h requests

/-- On show is what the frame has shown, and of the older placements those whose picture is still
there. -/
structure Extends (old : List Showing) (g : Gallery) : Prop where
  live_iff : ∀ e, e ∈ g.live ↔
    e ∈ g.terminal.shown ∨ e ∈ old ∧ (g.terminal.pictures e.id).isSome = true
  old_le : ∀ e ∈ old, e.id ≤ g.terminal.transmissions

namespace Extends

variable {g : Gallery} {old : List Showing} {id : Nat}

theorem place (h : g.Extends old) (id : Nat) (placement : Placement) :
    (g.act (.place id placement)).Extends old := by
  cases hpicture : g.terminal.pictures id with
  | none =>
    refine ⟨?_, ?_⟩
    · simpa [Gallery.act, Terminal.act, hpicture] using h.live_iff
    · simpa [Gallery.act, Terminal.act, hpicture] using h.old_le
  | some picture =>
    refine ⟨?_, ?_⟩
    · intro e
      have hiff := h.live_iff e
      simp only [Gallery.act, Terminal.act, hpicture, List.mem_append, List.mem_singleton]
      tauto
    · simpa [Gallery.act, Terminal.act, hpicture] using h.old_le

/-- A picture that the frame has not shown may be deleted. -/
theorem delete (h : g.Extends old) (hid : ∀ e ∈ g.terminal.shown, e.id ≠ id) :
    (g.act (.delete id)).Extends old := by
  refine ⟨?_, h.old_le⟩
  intro e
  have hiff := h.live_iff e
  have hshown := hid e
  by_cases heq : e.id = id
  · simp only [Gallery.act, Terminal.act, List.mem_filter, heq, ne_eq, not_true_eq_false,
      decide_false, Bool.false_eq_true, and_false, Function.update_self, Option.isSome_none,
      or_false, false_iff]
    exact fun he => hshown he heq
  · simp only [Gallery.act, Terminal.act, List.mem_filter, heq, ne_eq, not_false_eq_true,
      decide_true, and_true, Function.update_of_ne heq]
    exact hiff

/-- No older placement has the number of a new picture. -/
theorem transmit (h : g.Extends old) (hid : g.terminal.transmissions < id) (picture : Picture) :
    (g.act (.transmit id picture)).Extends old := by
  refine ⟨?_, fun e he => (h.old_le e he).trans (Nat.le_succ _)⟩
  intro e
  rw [terminal_act]
  have hiff := h.live_iff e
  have hold := h.old_le e
  by_cases heq : e.id = id
  · have hnot : e ∉ old := fun he => by
      have := hold he
      omega
    simpa [Gallery.act, Terminal.act, hnot] using hiff
  · simpa [Gallery.act, Terminal.act, Function.update_of_ne heq] using hiff

end Extends

end Gallery

end Kitty

namespace ImageCache

/-- What the frame has shown and the older placements are on show, and the frame has placed what it
has shown. -/
structure Displays (old : List Showing) (c : ImageCache) (g : Gallery) : Prop where
  extend : g.Extends old
  placed : ∀ e ∈ g.terminal.shown, ∃ i, (c.slot i).transmitted = true ∧
    (c.slot i).placed = true ∧ (c.slot i).number = e.id

/-- What holds between the cache and the gallery while a frame is presented. No image of the frame
gives way to another one as long as there are slots for all of them. -/
structure Curates (blobs : Set ByteArray) (start : Nat) (images : Finset (UInt64 × Nat × Nat))
    (old : List Showing) (c : ImageCache) (g : Gallery) : Prop where
  mirrors : c.Mirrors blobs g.terminal
  amid : c.IsAmid start images
  displays : images.card ≤ maxSlots → c.Displays old g

namespace Curates

variable {blobs : Set ByteArray} {start : Nat} {images : Finset (UInt64 × Nat × Nat)}
variable {old : List Showing} {c : ImageCache} {g : Gallery}

/-- At the start of a frame nothing is shown, and what is on show is old. -/
theorem beginFrame (hmirrors : c.Mirrors blobs g.terminal)
    (htick : ∀ i, (c.slot i).tick ≤ c.tick) (hhung : g.IsHung) :
    Curates blobs c.tick images g.live c.beginFrame
      { g with terminal := { g.terminal with shown := [] } } := by
  refine ⟨hmirrors.beginFrame, .beginFrame htick, fun _ => ⟨⟨?_, ?_⟩, ?_⟩⟩
  · intro e
    have hthere := hhung e
    simp only [List.not_mem_nil, false_or]
    tauto
  · intro e he
    obtain ⟨i, hi, hnumber⟩ := hmirrors.resident e.id (hhung e he)
    rw [← hnumber]
    exact (hmirrors.kept i hi).number_le
  · exact fun e he => absurd he List.not_mem_nil

/-- Taking a slot changes nothing. -/
theorem chooseSlot (h : Curates blobs start images old c g) :
    Curates blobs start images old c.chooseSlot.1 g := by
  obtain ⟨hslot, -, -, -⟩ := chooseSlot_spec h.mirrors.size_le
  refine ⟨h.mirrors.chooseSlot, h.amid.congr c.tick_chooseSlot hslot, fun hfew => ?_⟩
  have hdisplays := h.displays hfew
  refine ⟨hdisplays.extend, ?_⟩
  simp only [hslot]
  exact hdisplays.placed

/-- The image of a slot is shown once more. -/
theorem place (h : Curates blobs start images old c g) {i : Nat}
    (hi : (c.slot i).transmitted = true) (himage : (c.slot i).pixels ∈ images)
    (placement : Placement) :
    Curates blobs start images old (c.markPlaced i)
      (g.act (.place (c.slot i).number placement)) := by
  refine ⟨h.mirrors.place hi placement, h.amid.markPlaced hi himage, fun hfew => ?_⟩
  have hdisplays := h.displays hfew
  have hslot := slot_markPlaced (lt_of_transmitted hi)
  obtain ⟨bytes, -, -, hact⟩ := h.mirrors.act_place hi placement
  refine ⟨hdisplays.extend.place _ placement, ?_⟩
  intro e he
  rw [Gallery.terminal_act, hact] at he
  rcases List.mem_append.mp he with he | he
  · obtain ⟨j, hj, hplaced, hnumber⟩ := hdisplays.placed e he
    refine ⟨j, ?_⟩
    rw [hslot]
    by_cases hij : i = j
    · rw [if_pos hij, hij]
      exact ⟨hj, rfl, hnumber⟩
    · rw [if_neg hij]
      exact ⟨hj, hplaced, hnumber⟩
  · obtain rfl := List.mem_singleton.mp he
    refine ⟨i, ?_⟩
    rw [hslot, if_pos rfl]
    exact ⟨hi, rfl, rfl⟩

/-- Nothing that the frame has shown has the number of an image that it has not placed. -/
theorem ne_number (h : Curates blobs start images old c g) (hfew : images.card ≤ maxSlots) {i : Nat}
    (hi : (c.slot i).transmitted = true) (hplaced : (c.slot i).placed = false) :
    ∀ e ∈ g.terminal.shown, e.id ≠ (c.slot i).number := by
  intro e he heq
  obtain ⟨j, hj, hplaced', hnumber⟩ := (h.displays hfew).placed e he
  rw [h.mirrors.numbers j i hj hi (hnumber.trans heq), hplaced] at hplaced'
  cases hplaced'

/-- A slot that the frame has not placed may take anything. -/
theorem placed_setSlot (h : Curates blobs start images old c g) (hfew : images.card ≤ maxSlots)
    {i : Nat} (hlt : i < c.slots.size) (hplaced : (c.slot i).placed = false) (s : ImageSlot) :
    ∀ e ∈ g.terminal.shown, ∃ j, ((c.setSlot i s).slot j).transmitted = true ∧
      ((c.setSlot i s).slot j).placed = true ∧ ((c.setSlot i s).slot j).number = e.id := by
  intro e he
  obtain ⟨j, hj, hplaced', hnumber⟩ := (h.displays hfew).placed e he
  have hij : i ≠ j := by
    rintro rfl
    rw [hplaced] at hplaced'
    cases hplaced'
  refine ⟨j, ?_⟩
  rw [slot_setSlot s hlt, if_neg hij]
  exact ⟨hj, hplaced', hnumber⟩

/-- An image that the frame has not placed is deleted. -/
theorem delete (h : Curates blobs start images old c g) {i : Nat}
    (hi : (c.slot i).transmitted = true) (hplaced : (c.slot i).placed = false) :
    Curates blobs start images old (c.setSlot i {}) (g.act (.delete (c.slot i).number)) := by
  have hlt := lt_of_transmitted hi
  refine ⟨h.mirrors.delete hi, h.amid.setSlot hlt rfl rfl, fun hfew => ⟨?_, ?_⟩⟩
  · exact (h.displays hfew).extend.delete (h.ne_number hfew hi hplaced)
  · exact h.placed_setSlot hfew hlt hplaced {}

/-- An image that is missing takes a slot that the frame has not placed. -/
theorem replace (h : Curates blobs start images old c g) {i : Nat} (hlt : i < c.slots.size)
    (hplaced : images.card ≤ maxSlots → (c.slot i).placed = false) {bytes : ByteArray}
    (hbytes : bytes ∈ blobs) (new : ImageSlot) (htransmitted : new.transmitted = true)
    (hunplaced : new.placed = false) (htick : new.tick = 0) (hnumber : new.number = c.nextNumber)
    (hhash : new.hash = fingerprint bytes)
    (hnew : ∀ j, (c.slot j).transmitted = true → (c.slot j).pixels ≠ new.pixels)
    (hnumbers : g.terminal.transmissions + 1 < lastNumber) :
    Curates blobs start images old (c.takeNumber.1.setSlot i new)
      ((g.actAll (c.slot i).evictions).act
        (.transmit c.nextNumber (.ofBytes bytes new.width new.height))) := by
  have hnext := h.mirrors.next
  have hmirrors := h.mirrors.replace hlt hbytes new htransmitted hunplaced hnumber hhash hnew
    hnumbers
  have htaken : c.takeNumber.1.IsAmid start images := h.amid.congr rfl fun _ => rfl
  refine ⟨?_, htaken.setSlot hlt hunplaced htick, fun hfew => ?_⟩
  · rw [Gallery.terminal_act, Gallery.terminal_actAll]
    exact hmirrors
  have hkept := Presentation.shown_evictions g.terminal (c.slot i)
  have hroom : (g.actAll (c.slot i).evictions).Extends old := by
    unfold ImageSlot.evictions
    by_cases hi : (c.slot i).transmitted = true
    · rw [if_pos hi]
      exact (h.displays hfew).extend.delete (h.ne_number hfew hi (hplaced hfew))
    · rw [if_neg hi]
      exact (h.displays hfew).extend
  refine ⟨hroom.transmit ?_ _, ?_⟩
  · rw [Gallery.terminal_actAll, hkept.2]
    omega
  · rw [Gallery.terminal_act, Gallery.terminal_actAll]
    have hshown : ∀ e ∈ g.terminal.shown, _ := h.placed_setSlot hfew hlt (hplaced hfew) new
    rw [← hkept.1] at hshown
    exact hshown

/-- At the end of a frame that has placed every image, the older placements that remain are those of
images that the frame has shown. -/
theorem live_iff (h : Curates blobs start images old c g) (hfew : images.card ≤ maxSlots)
    (hall : ∀ i, (c.slot i).transmitted = true → (c.slot i).placed = true) (e : Showing) :
    e ∈ g.live ↔ e ∈ g.terminal.shown ∨ e ∈ old ∧ ∃ e' ∈ g.terminal.shown, e'.id = e.id := by
  obtain ⟨hextend, hplaced⟩ := h.displays hfew
  have hthere : (g.terminal.pictures e.id).isSome = true ↔
      ∃ e' ∈ g.terminal.shown, e'.id = e.id := by
    constructor
    · intro hsome
      obtain ⟨i, hi, hnumber⟩ := h.mirrors.resident e.id hsome
      rw [← hnumber]
      exact (h.mirrors.kept i hi).shown (hall i hi)
    · rintro ⟨e', he', hid⟩
      obtain ⟨i, hi, -, hnumber⟩ := hplaced e' he'
      obtain ⟨bytes, -, -, hpicture⟩ := (h.mirrors.kept i hi).picture
      rw [← hid, ← hnumber, hpicture]
      rfl
  rw [hextend.live_iff, hthere]

end Curates

end ImageCache

end CellCanvas
