import CellCanvas.Image.Fingerprint
import CellCanvas.Proofs.Image.Cache
import CellCanvas.Proofs.Image.Graphics

/-!
# The cache as a mirror of the terminal

A terminal keeps pictures by number and shows them on request. The cache mirrors it when the
transmitted slots are, one by one, the pictures that the terminal keeps. Placing an image, deleting
one and transmitting one under the next number each keep the mirror, the last as long as the numbers
have not run out.
-/

namespace CellCanvas

namespace Kitty

/-- The picture of some bytes: those behind the last pixel are not part of it. -/
def Picture.ofBytes (bytes : ByteArray) (width height : Nat) : Picture :=
  ⟨bytes.extract 0 (width * height * 4), width, height⟩

/-- A picture as it was shown. -/
structure Showing where
  id : Nat
  picture : Picture
  placement : Placement
deriving DecidableEq

/-- What is shown, apart from the number of the picture. -/
def Showing.content (s : Showing) : Picture × Placement := (s.picture, s.placement)

/-- A terminal that keeps pictures. -/
structure Terminal where
  pictures : Nat → Option Picture
  /-- What the last bytes asked to show. -/
  shown : List Showing
  /-- How many pictures have been transmitted. -/
  transmissions : Nat
  /-- Whether every request made sense: a picture came under a number that is not zero and was
  free, and whatever was shown or deleted was there. -/
  isSound : Bool

namespace Terminal

/-- A terminal without pictures. -/
def blank : Terminal := ⟨fun _ => none, [], 0, true⟩

/-- A terminal that has been reset: the pictures are gone. -/
def reset (t : Terminal) : Terminal := { blank with isSound := t.isSound }

/-- Act on a request. -/
def act (t : Terminal) : Request → Terminal
  | .transmit id picture =>
    { t with
      pictures := Function.update t.pictures id (some picture)
      transmissions := t.transmissions + 1
      isSound := t.isSound && id != 0 && (t.pictures id).isNone }
  | .place id placement => match t.pictures id with
    | some picture => { t with shown := t.shown ++ [⟨id, picture, placement⟩] }
    | none => { t with isSound := false }
  | .delete id =>
    { t with
      pictures := Function.update t.pictures id none
      isSound := t.isSound && (t.pictures id).isSome }

/-- Act on requests in order. -/
def actAll (t : Terminal) (requests : List Request) : Terminal := requests.foldl act t

/-- Receive the bytes of a frame. Bytes that are not whole sequences make no sense. -/
def receive (t : Terminal) (bytes : ByteArray) : Terminal :=
  match requests? bytes with
  | some requests => { t with shown := [] }.actAll requests
  | none => { t with isSound := false }

@[simp] theorem actAll_nil (t : Terminal) : t.actAll [] = t := rfl

@[simp] theorem actAll_cons (t : Terminal) (r : Request) (rs : List Request) :
    t.actAll (r :: rs) = (t.act r).actAll rs := rfl

theorem actAll_append (t : Terminal) (rs ss : List Request) :
    t.actAll (rs ++ ss) = (t.actAll rs).actAll ss :=
  List.foldl_append

theorem transmissions_act_le (t : Terminal) (r : Request) :
    t.transmissions ≤ (t.act r).transmissions := by
  cases r with
  | transmit id picture => exact Nat.le_succ _
  | place id placement =>
    unfold act
    dsimp only
    cases t.pictures id with
    | none => exact Nat.le_refl _
    | some picture => exact Nat.le_refl _
  | delete id => exact Nat.le_refl _

/-- Transmissions are only ever added. -/
theorem transmissions_le (t : Terminal) (rs : List Request) :
    t.transmissions ≤ (t.actAll rs).transmissions := by
  induction rs generalizing t with
  | nil => exact Nat.le_refl _
  | cons r rs ih => exact (transmissions_act_le t r).trans (ih (t.act r))

end Terminal

end Kitty

open Kitty

namespace ImageSlot

/-- Two slots say the same about their images. -/
structure SameImage (s s' : ImageSlot) : Prop where
  transmitted : s.transmitted = s'.transmitted
  number : s.number = s'.number
  pixels : s.pixels = s'.pixels

/-- The request to delete the image of a slot, if it has one. -/
def evictions (s : ImageSlot) : List Request := if s.transmitted then [.delete s.number] else []

/-- The terminal keeps the image of a slot, made of some of the blobs, and has shown it if the slot
is placed. -/
structure IsKept (blobs : Set ByteArray) (t : Terminal) (s : ImageSlot) : Prop where
  number_le : s.number ≤ t.transmissions
  picture : ∃ bytes ∈ blobs, fingerprint bytes = s.hash ∧
    t.pictures s.number = some (.ofBytes bytes s.width s.height)
  shown : s.placed = true → ∃ e ∈ t.shown, e.id = s.number

namespace IsKept

variable {blobs : Set ByteArray} {t : Terminal} {s : ImageSlot} {id : Nat}

theorem transmit (h : s.IsKept blobs t) (hne : s.number ≠ id) (picture : Picture) :
    s.IsKept blobs (t.act (.transmit id picture)) := by
  obtain ⟨bytes, hbytes, hhash, hpicture⟩ := h.picture
  refine ⟨h.number_le.trans (Nat.le_succ _), ⟨bytes, hbytes, hhash, ?_⟩, h.shown⟩
  rw [← hpicture]
  exact Function.update_of_ne hne _ _

theorem delete (h : s.IsKept blobs t) (hne : s.number ≠ id) :
    s.IsKept blobs (t.act (.delete id)) := by
  obtain ⟨bytes, hbytes, hhash, hpicture⟩ := h.picture
  refine ⟨h.number_le, ⟨bytes, hbytes, hhash, ?_⟩, h.shown⟩
  rw [← hpicture]
  exact Function.update_of_ne hne _ _

end IsKept

end ImageSlot

namespace ImageCache

/-- The transmitted slots are the pictures that the terminal keeps. The blobs are those that the
pictures have been made of. -/
structure Mirrors (blobs : Set ByteArray) (c : ImageCache) (t : Terminal) : Prop where
  sound : t.isSound = true
  size_le : c.slots.size ≤ maxSlots
  next : c.nextNumber = t.transmissions + 1
  numbers : c.Distinguishes ImageSlot.number
  pixels : c.Distinguishes ImageSlot.pixels
  kept : ∀ i, (c.slot i).transmitted = true → (c.slot i).IsKept blobs t
  resident : ∀ id, (t.pictures id).isSome = true →
    ∃ i, (c.slot i).transmitted = true ∧ (c.slot i).number = id

namespace Mirrors

variable {blobs : Set ByteArray} {c : ImageCache} {t : Terminal}

/-- An empty cache mirrors a terminal without pictures. -/
theorem empty (t : Terminal) (h : t.isSound = true) : Mirrors blobs {} t.reset := by
  refine ⟨h, Nat.zero_le _, rfl, ?_, ?_, ?_, ?_⟩
  · intro i j hi
    cases hi
  · intro i j hi
    cases hi
  · intro i hi
    cases hi
  · intro id hid
    cases hid

/-- What matters is what the slots say about their images. -/
theorem congr {c' : ImageCache} {t' : Terminal} (h : Mirrors blobs c t) (hsound : t'.isSound = true)
    (hsize : c'.slots.size ≤ maxSlots) (hnext : c'.nextNumber = t'.transmissions + 1)
    (hpictures : t'.pictures = t.pictures) (hslot : ∀ i, (c'.slot i).SameImage (c.slot i))
    (hkept : ∀ i, (c'.slot i).transmitted = true → (c'.slot i).IsKept blobs t') :
    Mirrors blobs c' t' := by
  have hold (i : Nat) (hi : (c'.slot i).transmitted = true) : (c.slot i).transmitted = true :=
    (hslot i).transmitted.symm.trans hi
  refine ⟨hsound, hsize, hnext, ?_, ?_, hkept, ?_⟩
  · exact h.numbers.congr fun i hi => ⟨hold i hi, (hslot i).number⟩
  · exact h.pixels.congr fun i hi => ⟨hold i hi, (hslot i).pixels⟩
  · intro id hid
    rw [hpictures] at hid
    obtain ⟨i, hi, hnumber⟩ := h.resident id hid
    exact ⟨i, (hslot i).transmitted.trans hi, (hslot i).number.trans hnumber⟩

/-- At the start of a frame nothing is placed and nothing is shown. -/
theorem beginFrame (h : Mirrors blobs c t) : Mirrors blobs c.beginFrame { t with shown := [] } := by
  refine h.congr h.sound ?_ h.next rfl ?_ ?_
  · rw [size_beginFrame]
    exact h.size_le
  · intro i
    rw [slot_beginFrame]
    exact ⟨rfl, rfl, rfl⟩
  · intro i hi
    rw [slot_beginFrame] at hi ⊢
    exact ⟨(h.kept i hi).number_le, (h.kept i hi).picture, fun hplaced => by cases hplaced⟩

/-- Taking a slot changes nothing. -/
theorem chooseSlot (h : Mirrors blobs c t) : Mirrors blobs c.chooseSlot.1 t := by
  obtain ⟨hslot, hnext, hsize, -⟩ := chooseSlot_spec h.size_le
  refine h.congr h.sound hsize (hnext.trans h.next) rfl ?_ ?_
  · intro i
    rw [hslot]
    exact ⟨rfl, rfl, rfl⟩
  · intro i hi
    rw [hslot] at hi ⊢
    exact h.kept i hi

/-- Placing the image of a slot shows a picture of the blobs with its fingerprint. -/
theorem act_place (h : Mirrors blobs c t) {i : Nat} (hi : (c.slot i).transmitted = true)
    (placement : Placement) : ∃ bytes ∈ blobs, fingerprint bytes = (c.slot i).hash ∧
      t.act (.place (c.slot i).number placement) = { t with shown := t.shown ++
        [⟨(c.slot i).number, .ofBytes bytes (c.slot i).width (c.slot i).height, placement⟩] } := by
  obtain ⟨bytes, hbytes, hhash, hpicture⟩ := (h.kept i hi).picture
  refine ⟨bytes, hbytes, hhash, ?_⟩
  simp only [Terminal.act, hpicture]

/-- An image on the terminal is shown when its slot is placed. -/
theorem place (h : Mirrors blobs c t) {i : Nat} (hi : (c.slot i).transmitted = true)
    (placement : Placement) :
    Mirrors blobs (c.markPlaced i) (t.act (.place (c.slot i).number placement)) := by
  have hlt := lt_of_transmitted hi
  obtain ⟨bytes, -, -, hact⟩ := h.act_place hi placement
  rw [hact]
  refine h.congr h.sound ?_ h.next rfl ?_ ?_
  · rw [size_markPlaced]
    exact h.size_le
  · intro j
    rw [slot_markPlaced hlt]
    by_cases hij : i = j
    · rw [if_pos hij, hij]
      exact ⟨rfl, rfl, rfl⟩
    · rw [if_neg hij]
      exact ⟨rfl, rfl, rfl⟩
  · intro j hj
    rw [slot_markPlaced hlt] at hj ⊢
    by_cases hij : i = j
    · rw [if_pos hij]
      exact ⟨(h.kept i hi).number_le, (h.kept i hi).picture,
        fun _ => ⟨_, List.mem_append_right _ (List.mem_singleton_self _), rfl⟩⟩
    · rw [if_neg hij] at hj ⊢
      refine ⟨(h.kept j hj).number_le, (h.kept j hj).picture, ?_⟩
      intro hplaced
      obtain ⟨e, he, hid⟩ := (h.kept j hj).shown hplaced
      exact ⟨e, List.mem_append_left _ he, hid⟩

/-- An image is deleted when its slot is emptied. -/
theorem delete (h : Mirrors blobs c t) {i : Nat} (hi : (c.slot i).transmitted = true) :
    Mirrors blobs (c.setSlot i {}) (t.act (.delete (c.slot i).number)) := by
  have hlt := lt_of_transmitted hi
  obtain ⟨bytes, -, -, hpicture⟩ := (h.kept i hi).picture
  have hkeep (j : Nat) (hj : ((c.setSlot i {}).slot j).transmitted = true) :
      j ≠ i ∧ (c.setSlot i {}).slot j = c.slot j := by
    rcases slot_setSlot_cases {} hlt j with ⟨-, hsame⟩ | hother
    · rw [hsame] at hj
      cases hj
    · exact hother
  have hold (j : Nat) (hj : ((c.setSlot i {}).slot j).transmitted = true) :
      (c.slot j).transmitted = true := by
    rwa [(hkeep j hj).2] at hj
  refine ⟨?_, ?_, h.next, ?_, ?_, ?_, ?_⟩
  · simp [Terminal.act, h.sound, hpicture]
  · rw [size_setSlot]
    exact h.size_le
  · exact h.numbers.congr fun j hj => ⟨hold j hj, congrArg _ (hkeep j hj).2⟩
  · exact h.pixels.congr fun j hj => ⟨hold j hj, congrArg _ (hkeep j hj).2⟩
  · intro j hj
    rw [(hkeep j hj).2]
    apply (h.kept j (hold j hj)).delete
    exact fun heq => (hkeep j hj).1 (h.numbers j i (hold j hj) hi heq)
  · intro id hid
    have hne : id ≠ (c.slot i).number := by
      rintro rfl
      simp [Terminal.act] at hid
    have hthere : (t.pictures id).isSome = true := by
      simpa [Terminal.act, Function.update_of_ne hne] using hid
    obtain ⟨j, hj, rfl⟩ := h.resident id hthere
    have hij : i ≠ j := by
      rintro rfl
      exact hne rfl
    refine ⟨j, ?_⟩
    rw [slot_setSlot _ hlt, if_neg hij]
    exact ⟨hj, rfl⟩

/-- The next number is free as long as the numbers last. -/
theorem pictures_next (h : Mirrors blobs c t) : t.pictures c.nextNumber = none := by
  by_contra hsome
  obtain ⟨j, hj, hsame⟩ := h.resident c.nextNumber (Option.isSome_iff_ne_none.mpr hsome)
  have hle := (h.kept j hj).number_le
  have hnext := h.next
  omega

/-- An image whose pixels no slot has is transmitted into an unused slot. -/
theorem transmit (h : Mirrors blobs c t) {i : Nat} (hlt : i < c.slots.size)
    (hfree : (c.slot i).transmitted = false) {bytes : ByteArray} (hbytes : bytes ∈ blobs)
    {new : ImageSlot} (htransmitted : new.transmitted = true) (hplaced : new.placed = false)
    (hnumber : new.number = c.nextNumber) (hhash : new.hash = fingerprint bytes)
    (hnew : ∀ j, (c.slot j).transmitted = true → (c.slot j).pixels ≠ new.pixels)
    (hfew : t.transmissions + 1 < lastNumber) :
    Mirrors blobs (c.takeNumber.1.setSlot i new)
      (t.act (.transmit c.nextNumber (.ofBytes bytes new.width new.height))) := by
  have hnext := h.next
  have htake : c.takeNumber.1 = { c with nextNumber := c.nextNumber + 1 } := by
    apply takeNumber_fst
    omega
  have hfresh (j : Nat) (hj : (c.slot j).transmitted = true) : (c.slot j).number ≠ new.number := by
    have hle := (h.kept j hj).number_le
    omega
  have hcases := slot_setSlot_cases (c := { c with nextNumber := c.nextNumber + 1 }) new hlt
  rw [htake]
  refine ⟨?_, ?_, ?_, ?_, ?_, ?_, ?_⟩
  · have hpositive : c.nextNumber ≠ 0 := by omega
    simp [Terminal.act, h.sound, h.pictures_next, hpositive]
  · rw [size_setSlot]
    exact h.size_le
  · exact congrArg Nat.succ hnext
  · exact Distinguishes.setSlot h.numbers hlt hfresh
  · exact Distinguishes.setSlot h.pixels hlt hnew
  · intro j hj
    rcases hcases j with ⟨-, hsame⟩ | ⟨-, hsame⟩
    · rw [hsame]
      refine ⟨(hnumber.trans hnext).le, ⟨bytes, hbytes, hhash.symm, ?_⟩, ?_⟩
      · rw [hnumber]
        exact Function.update_self _ _ _
      · intro hyes
        rw [hplaced] at hyes
        cases hyes
    · rw [hsame] at hj ⊢
      exact (h.kept j hj).transmit (hnumber ▸ hfresh j hj) _
  · intro id hid
    by_cases heq : id = c.nextNumber
    · refine ⟨i, ?_⟩
      rw [slot_setSlot (c := { c with nextNumber := c.nextNumber + 1 }) new hlt, if_pos rfl]
      exact ⟨htransmitted, hnumber.trans heq.symm⟩
    · have hthere : (t.pictures id).isSome = true := by
        simpa [Terminal.act, Function.update_of_ne heq] using hid
      obtain ⟨j, hj, rfl⟩ := h.resident id hthere
      have hij : i ≠ j := by
        rintro rfl
        rw [hfree] at hj
        cases hj
      refine ⟨j, ?_⟩
      rw [slot_setSlot (c := { c with nextNumber := c.nextNumber + 1 }) new hlt, if_neg hij]
      exact ⟨hj, rfl⟩

/-- The image of a slot makes room for one whose pixels no slot has. -/
theorem replace (h : Mirrors blobs c t) {i : Nat} (hlt : i < c.slots.size) {bytes : ByteArray}
    (hbytes : bytes ∈ blobs) (new : ImageSlot) (htransmitted : new.transmitted = true)
    (hplaced : new.placed = false) (hnumber : new.number = c.nextNumber)
    (hhash : new.hash = fingerprint bytes)
    (hnew : ∀ j, (c.slot j).transmitted = true → (c.slot j).pixels ≠ new.pixels)
    (hfew : t.transmissions + 1 < lastNumber) :
    Mirrors blobs (c.takeNumber.1.setSlot i new) ((t.actAll (c.slot i).evictions).act
      (.transmit c.nextNumber (.ofBytes bytes new.width new.height))) := by
  unfold ImageSlot.evictions
  by_cases hi : (c.slot i).transmitted = true
  · rw [if_pos hi]
    have hempty : (c.setSlot i {}).slot i = {} := by
      rw [slot_setSlot _ hlt, if_pos rfl]
    have hnew' (j : Nat) (hj : ((c.setSlot i {}).slot j).transmitted = true) :
        ((c.setSlot i {}).slot j).pixels ≠ new.pixels := by
      rcases slot_setSlot_cases {} hlt j with ⟨-, hsame⟩ | ⟨-, hsame⟩
      · rw [hsame] at hj
        cases hj
      · rw [hsame] at hj ⊢
        exact hnew j hj
    have hafter := (h.delete hi).transmit (i := i) (by simpa using hlt) (by rw [hempty]) hbytes
      htransmitted hplaced hnumber hhash hnew' hfew
    have hsame : (c.setSlot i {}).takeNumber.1.setSlot i new = c.takeNumber.1.setSlot i new :=
      setSlot_setSlot (c := c.takeNumber.1) i {} new
    rw [hsame] at hafter
    exact hafter
  · rw [if_neg hi]
    exact h.transmit hlt (by simpa using hi) hbytes htransmitted hplaced hnumber hhash hnew hfew

end Mirrors

end ImageCache

end CellCanvas
