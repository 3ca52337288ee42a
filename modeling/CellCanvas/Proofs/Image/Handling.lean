import CellCanvas.Proofs.Image.Exhibit
import CellCanvas.Proofs.Image.Residence

/-!
# What one command does

A command for a terminal that keeps pictures places an image that is there, or adopts one that is
not. Every other command leaves the cache alone. Each command is counted once.
-/

namespace CellCanvas

open Kitty ImageCache

namespace Kitty

/-- The picture that a request transmits. -/
def Request.picture? : Request → Option Picture
  | .transmit _ picture => some picture
  | _ => none

/-- How many pictures some requests transmit. -/
def transmissionsIn (requests : List Request) : Nat := (requests.filterMap Request.picture?).length

@[simp] theorem transmissionsIn_append (rs ss : List Request) :
    transmissionsIn (rs ++ ss) = transmissionsIn rs + transmissionsIn ss := by
  simp [transmissionsIn]

theorem le_of_append {n m : Nat} {rs ss : List Request}
    (h : n + transmissionsIn (rs ++ ss) ≤ m) : n + transmissionsIn rs ≤ m := by
  rw [transmissionsIn_append] at h
  omega

theorem Terminal.transmissions_act (t : Terminal) (r : Request) :
    (t.act r).transmissions = t.transmissions + transmissionsIn [r] := by
  cases r with
  | transmit id picture => rfl
  | place id placement =>
    unfold Terminal.act
    dsimp only
    cases t.pictures id <;> rfl
  | delete id => rfl

theorem Terminal.transmissions_actAll (t : Terminal) (rs : List Request) :
    (t.actAll rs).transmissions = t.transmissions + transmissionsIn rs := by
  induction rs generalizing t with
  | nil => rfl
  | cons r rs ih =>
    have hsplit : transmissionsIn (r :: rs) = transmissionsIn [r] + transmissionsIn rs :=
      transmissionsIn_append [r] rs
    rw [Terminal.actAll_cons, ih, Terminal.transmissions_act, hsplit, Nat.add_assoc]

theorem picture?_evictions (s : ImageSlot) :
    s.evictions.filterMap Request.picture? = [] := by
  unfold ImageSlot.evictions
  split_ifs <;> rfl

/-- The requests for an image that is adopted transmit it. -/
theorem picture?_adoption (s : ImageSlot) (id id' : Nat) (picture : Picture)
    (placement : Placement) :
    (s.evictions ++ [Request.transmit id picture] ++ [Request.place id' placement]).filterMap
      Request.picture? = [picture] := by
  rw [List.filterMap_append, List.filterMap_append, picture?_evictions]
  rfl

theorem transmissionsIn_evictions (rs : List Request) (s : ImageSlot) :
    transmissionsIn (rs ++ s.evictions) = transmissionsIn rs := by
  rw [transmissionsIn_append, transmissionsIn, transmissionsIn, picture?_evictions]
  rfl

theorem transmissionsIn_adoption (rs : List Request) (s : ImageSlot) (id id' : Nat)
    (picture : Picture) (placement : Placement) :
    transmissionsIn (rs ++ (s.evictions ++ [.transmit id picture] ++ [.place id' placement])) =
      transmissionsIn rs + 1 := by
  rw [transmissionsIn_append, transmissionsIn, transmissionsIn, picture?_adoption]
  rfl

end Kitty

namespace Presentation

/-- What the cache knows the image of a command by. -/
def contentOf (command : ImageCommand × ByteArray) : UInt64 × Nat × Nat :=
  (fingerprint command.2, command.1.width, command.1.height)

/-- The picture of a command. -/
def pictureOf (command : ImageCommand × ByteArray) : Picture :=
  .ofBytes command.2 command.1.width command.1.height

/-- The commands for a terminal that keeps pictures. -/
def kittyCommands (support : ImageSupport) (commands : List (ImageCommand × ByteArray)) :
    List (ImageCommand × ByteArray) :=
  commands.filter fun command => command.1.protocol.resolve support = .kitty

/-- The different images of such commands. -/
def contents (support : ImageSupport) (commands : List (ImageCommand × ByteArray)) :
    Finset (UInt64 × Nat × Nat) :=
  ((kittyCommands support commands).map contentOf).toFinset

variable {p p' : Presentation} {c : ImageCommand} {bytes : ByteArray} {i : Nat}

/-- What a command for a terminal that keeps pictures does: place an image that is there, or adopt
one that is not and place it. -/
inductive Serves (command : ImageCommand × ByteArray) (p p' : Presentation) : List Request → Prop
  | reused {i : Nat} : (p.cache.slot i).transmitted = true →
      (p.cache.slot i).pixels = contentOf command → p'.cache = p.cache.markPlaced i →
      p'.stats.transmitted = p.stats.transmitted →
      Serves command p p' [.place (p.cache.slot i).number (.of command.1)]
  | adopted :
      (∀ j, (p.cache.slot j).transmitted = true →
        (p.cache.slot j).pixels ≠ contentOf command) →
      p'.cache = (p.cache.adopt (slotFor p.cache.nextNumber command.1
        (fingerprint command.2))).markPlaced p.cache.chooseSlot.2 →
      p'.stats.transmitted = p.stats.transmitted + 1 →
      Serves command p p' ((p.cache.slot p.cache.chooseSlot.2).evictions ++
        [.transmit p.cache.nextNumber (pictureOf command)] ++
          [.place p.cache.nextNumber (.of command.1)])

theorem serves_of_kitty (hsize : p.cache.slots.size ≤ maxSlots) (hok : p.kitty c bytes = .ok p') :
    p'.stats.handled = p.stats.handled + 1 ∧ ∃ rs, p.Sent p' rs ∧ Serves (c, bytes) p p' rs := by
  rcases kitty_cases hok with ⟨i, placed, hfound, hplace, rfl⟩ | ⟨hfound, hok⟩
  · obtain ⟨htransmitted, hpixels⟩ := holds_iff_pixels.mp (holds_of_find? hfound)
    obtain ⟨hcache, hsent⟩ := place_ok hplace
    have hstats := stats_place hplace
    have hcount : placed.stats.transmitted = p.stats.transmitted := by rw [hstats]
    refine ⟨?_, _, hsent, .reused htransmitted hpixels hcache hcount⟩
    simp only [PresentStats.handled, hstats]
    omega
  · obtain ⟨hslot, hnext, -, hlt⟩ := chooseSlot_spec hsize
    obtain ⟨chosen, i, hchosen, hcache, hsent⟩ := transmit_ok hok
    obtain ⟨hcount, hhandled⟩ := stats_transmit hok
    rw [hchosen] at hslot hnext hlt
    dsimp only at hslot hnext hlt
    have hstored : (chosen.takeNumber.1.setSlot i
        (slotFor chosen.nextNumber c (fingerprint bytes))).slot i =
          slotFor chosen.nextNumber c (fingerprint bytes) :=
      (slot_setSlot _ hlt i).trans (if_pos rfl)
    have hadopt : p.cache.adopt (slotFor p.cache.nextNumber c (fingerprint bytes)) =
        chosen.takeNumber.1.setSlot i (slotFor chosen.nextNumber c (fingerprint bytes)) := by
      rw [adopt, hchosen, hnext]
    rw [hstored, hslot, hnext] at hsent
    rw [hnext] at hcache hadopt
    refine ⟨hhandled, _, ?_, .adopted (fun j => pixels_ne_of_find? hfound) ?_ hcount⟩
    · rw [hchosen, List.append_assoc]
      exact hsent
    · rw [hchosen, hadopt]
      exact hcache

/-- What one command does to the cache and to the count of transmitted images. Only images for a
terminal that keeps pictures concern them. -/
inductive Handles (support : ImageSupport) (command : ImageCommand × ByteArray)
    (p p' : Presentation) : List Request → Prop
  | served {rs : List Request} : command.1.protocol.resolve support = .kitty →
      Serves command p p' rs → Handles support command p p' rs
  | passed : command.1.protocol.resolve support ≠ .kitty → p'.cache = p.cache →
      p'.stats.transmitted = p.stats.transmitted → Handles support command p p' []

theorem handles_of_display {png : PngEncoder} {support : ImageSupport} {scratch : Scratch}
    {command : ImageCommand × ByteArray} (hsize : p.cache.slots.size ≤ maxSlots)
    (hok : p.display png support scratch command = .ok p') :
    p'.stats.handled = p.stats.handled + 1 ∧
      ∃ rs, p.Sent p' rs ∧ Handles support command p p' rs := by
  rcases display_cases hok with ⟨hkitty, hok⟩ | ⟨hother, hcache, hsent, hcount, hhandled⟩
  · obtain ⟨hhandled, rs, hsent, hserves⟩ := serves_of_kitty hsize hok
    exact ⟨hhandled, rs, hsent, .served hkitty hserves⟩
  · exact ⟨hhandled, [], hsent, .passed hother hcache hcount⟩

/-- Dropping an image leaves those that are placed. -/
theorem keepsPlaced_dropUnplaced (hok : p.dropUnplaced i = .ok p') :
    p.cache.KeepsPlaced p'.cache := by
  rcases dropUnplaced_cases hok with ⟨rfl, -⟩ | ⟨htransmitted, hunplaced, hcache, -⟩
  · exact .refl _
  · have hslot := slot_setSlot (c := p.cache) {} (lt_of_transmitted htransmitted)
    rw [hcache]
    exact .of_slot hunplaced fun j hj => (hslot j).trans (if_neg hj.symm)

theorem keepsPlaced_dropAll {is : List Nat} (hok : is.foldlM dropUnplaced p = .ok p') :
    p.cache.KeepsPlaced p'.cache := by
  induction is generalizing p with
  | nil =>
    cases hok
    exact .refl _
  | cons i is ih =>
    obtain ⟨next, hnext, hrest⟩ := exists_of_bind_eq_ok hok
    exact (keepsPlaced_dropUnplaced hnext).trans (ih hrest)

end Presentation

end CellCanvas
