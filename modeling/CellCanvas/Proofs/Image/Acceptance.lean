import CellCanvas.Proofs.Image.Atomicity
import CellCanvas.Proofs.Image.Ledger
import CellCanvas.Proofs.Image.Transmission
import CellCanvas.Proofs.Session.Sizes

/-!
# Presentations with room

Images under numbers that can be sent are placed, transmitted and deleted as long as there is room
for the bytes. For an image of one pixel that is a hundred bytes for each request.
-/

namespace CellCanvas

open Kitty ImageCache

/-- One pixel in the first cell. -/
def cornerPixel : ImageCommand := { width := 1, height := 1, protocol := .named .kitty }

/-- The bytes of one pixel, whose written form is short. -/
structure IsPixel (bytes : ByteArray) : Prop where
  size_ge : 1 * 1 * 4 ≤ bytes.size
  short : (Base64.encode (Kitty.chunk (bytes.extract 0 (1 * 1 * 4)) Kitty.defaultChunk 0)
    ).utf8ByteSize ≤ 8

namespace Kitty

variable {n : Nat}

/-- A text that has a number in it is short when the rest is. -/
theorem exists_short {result : Except Failure String} {front back : String} (h : IsNumber n)
    (htext : result = .ok (front ++ toString n ++ back)) (hfront : front.utf8ByteSize ≤ 30)
    (hback : back.utf8ByteSize ≤ 30) :
    ∃ text, result = .ok text ∧ text.utf8ByteSize ≤ 100 := by
  have hnumber := utf8ByteSize_digits_le (n := n) (k := 10) (by decide) (h.2.trans_lt (by decide))
  refine ⟨_, htext, ?_⟩
  rw [String.utf8ByteSize_append, String.utf8ByteSize_append]
  omega

theorem exists_place_corner (h : IsNumber n) :
    ∃ text, place n 0 0 1 1 0 = .ok text ∧ text.utf8ByteSize ≤ 100 := by
  have htext : place n 0 0 1 1 0 =
      .ok ("\x1b[1;1H\x1b_Ga=p,i=" ++ toString n ++ ",c=1,r=1,z=0\x1b\\") := by
    rw [place, if_neg h.1.ne', if_neg (by decide)]
    refine congrArg Except.ok (String.toList_injective ?_)
    simp only [Kitty.sequence, String.toList_append, List.append_assoc]
    rfl
  exact exists_short h htext (by decide) (by decide)

theorem exists_delete (h : IsNumber n) :
    ∃ text, delete n = .ok text ∧ text.utf8ByteSize ≤ 100 := by
  have htext : delete n = .ok ("\x1b_Ga=d,d=i,i=" ++ toString n ++ "\x1b\\") := by
    rw [delete, if_neg h.1.ne']
    refine congrArg Except.ok (String.toList_injective ?_)
    simp only [Kitty.sequence, String.toList_append, List.append_assoc]
    rfl
  exact exists_short h htext (by decide) (by decide)

theorem exists_transmit_corner (h : IsNumber n) {bytes : ByteArray} (hpixel : IsPixel bytes) :
    ∃ text, transmit n bytes 1 1 1 1 = .ok text ∧ text.utf8ByteSize ≤ 100 := by
  have hsize : (bytes.extract 0 (1 * 1 * 4)).size = 1 * 1 * 4 := by simp [hpixel.size_ge]
  have hcount : chunkCount (1 * 1 * 4) defaultChunk = 1 := by decide
  have htext : transmit n bytes 1 1 1 1 = .ok ("\x1b_Ga=t,f=32,s=1,v=1,i=" ++ toString n ++
      (",m=0;" ++ Base64.encode (chunk (bytes.extract 0 (1 * 1 * 4)) defaultChunk 0) ++ "\x1b\\")) := by
    rw [transmit, payload_eq_ok h.1.ne' (by decide) (by decide) (by decide) (by decide) (by decide)
      (by decide) (by decide) hpixel.size_ge]
    refine congrArg Except.ok (String.toList_injective ?_)
    rw [sequences, hsize, hcount]
    simp only [List.range_one, List.map_cons, List.map_nil, String.toList_join, List.flatMap_cons,
      List.flatMap_nil, List.append_nil, chunkText, chunkControl, if_pos, Kitty.sequence,
      String.toList_append, List.append_assoc]
    rfl
  refine exists_short h htext (by decide) ?_
  have hshort := hpixel.short
  have hlit : ",m=0;".utf8ByteSize = 5 ∧ "\x1b\\".utf8ByteSize = 2 := by decide
  rw [String.utf8ByteSize_append, String.utf8ByteSize_append]
  omega

end Kitty

namespace Presentation

variable {p p' : Presentation} {room m n : Nat} {i : Nat}

/-- The buffer has room for some more bytes. -/
structure HasRoom (p : Presentation) (room m : Nat) : Prop where
  limit : p.output.limit = some room
  fits : p.output.pending.size + m ≤ room

theorem HasRoom.mono (h : p.HasRoom room n) (hle : m ≤ n) : p.HasRoom room m :=
  ⟨h.limit, (Nat.add_le_add_left hle _).trans h.fits⟩

theorem exists_send {text : String} (h : p.HasRoom room (n + m)) (hsize : text.utf8ByteSize ≤ n) :
    ∃ p', p.send text = .ok p' ∧ p'.cache = p.cache ∧ p'.HasRoom room m := by
  have hfits := h.fits
  have hbytes : text.toUTF8.size = text.utf8ByteSize := by
    rw [String.toUTF8_eq_toByteArray, String.size_toByteArray]
  refine ⟨{ p with output := p.output.push text.toUTF8 }, ?_, rfl, h.limit, ?_⟩
  · unfold send
    rw [Output.append_of_limit h.limit (by omega), if_pos (by omega)]
    rfl
  · simp only [Output.push, ByteArray.size_append]
    omega

theorem exists_place (h : p.HasRoom room (100 + m)) (hnumber : IsNumber (p.cache.slot i).number) :
    ∃ p', p.place i cornerPixel = .ok p' ∧ p'.HasRoom room m := by
  obtain ⟨text, htext, hsize⟩ := exists_place_corner hnumber
  obtain ⟨next, hnext, -, hroom⟩ := exists_send h hsize
  refine ⟨{ next with cache := next.cache.markPlaced i }, ?_, hroom.limit, hroom.fits⟩
  exact (bind_of_eq_ok htext _).trans (bind_of_eq_ok hnext _)

theorem exists_evict (h : p.HasRoom room (100 + m))
    (hnumber : (p.cache.slot i).transmitted = true → IsNumber (p.cache.slot i).number) :
    ∃ p', p.evict i = .ok p' ∧ p'.cache = p.cache ∧ p'.HasRoom room m := by
  unfold evict
  by_cases hi : (p.cache.slot i).transmitted = true
  · obtain ⟨text, htext, hsize⟩ := exists_delete (hnumber hi)
    obtain ⟨next, hnext, hcache, hroom⟩ := exists_send h hsize
    refine ⟨{ next with stats := { next.stats with deleted := next.stats.deleted + 1 } }, ?_,
      hcache, hroom.limit, hroom.fits⟩
    rw [if_pos hi]
    exact (bind_of_eq_ok htext _).trans (bind_of_eq_ok hnext _)
  · rw [if_neg hi]
    exact ⟨p, rfl, rfl, h.mono (Nat.le_add_left _ _)⟩

theorem exists_dropUnplaced (h : p.HasRoom room (100 + m))
    (hnumber : (p.cache.slot i).transmitted = true → IsNumber (p.cache.slot i).number) :
    ∃ p', p.dropUnplaced i = .ok p' ∧ p'.HasRoom room m := by
  obtain ⟨evicted, hevict, -, hroom⟩ := exists_evict h hnumber
  unfold dropUnplaced
  dsimp only
  split_ifs
  · exact ⟨_, bind_of_eq_ok hevict _, hroom.limit, hroom.fits⟩
  · exact ⟨p, rfl, h.mono (Nat.le_add_left _ _)⟩

/-- A pixel is transmitted to the slot that is chosen for it. -/
theorem exists_transmit (h : p.HasRoom room (300 + m)) (hsize : p.cache.slots.size ≤ maxSlots)
    (hnext : IsNumber p.cache.nextNumber)
    (hnumber : ∀ i, (p.cache.slot i).transmitted = true → IsNumber (p.cache.slot i).number)
    {bytes : ByteArray} (hpixel : IsPixel bytes) (hash : UInt64) :
    ∃ p', p.transmit cornerPixel bytes hash = .ok p' ∧ p'.HasRoom room m := by
  obtain ⟨hslot, hsame, -, hlt⟩ := chooseSlot_spec hsize
  obtain ⟨chosen, i, hchosen⟩ : ∃ chosen i, p.cache.chooseSlot = (chosen, i) := ⟨_, _, rfl⟩
  rw [hchosen] at hslot hsame hlt
  dsimp only at hslot hsame hlt
  have hfits := h.fits
  -- The slot is freed, the picture is sent under the next number, and the slot is placed.
  obtain ⟨⟨cache, output, stats⟩, hevict, hcache, hroom⟩ := exists_evict (i := i) (m := 200 + m)
    (p := ⟨chosen, p.output, p.stats⟩) ⟨h.limit, by dsimp only; omega⟩
    (by rw [hslot]; exact hnumber i)
  obtain rfl : chosen = cache := hcache.symm
  have hfits' := hroom.fits
  obtain ⟨text, htext, hbytes⟩ := exists_transmit_corner (hsame ▸ hnext) hpixel
  let stored : ImageCache :=
    chosen.takeNumber.1.setSlot i (slotFor chosen.nextNumber cornerPixel hash)
  obtain ⟨sent, hsend, hcache', hroom'⟩ := exists_send (p := ⟨stored, output, stats⟩) (m := 100 + m)
    ⟨hroom.limit, by dsimp only at hfits' ⊢; omega⟩ hbytes
  have htaken : (sent.cache.slot i).number = chosen.nextNumber := by
    rw [hcache']
    exact congrArg ImageSlot.number ((slot_setSlot _ hlt i).trans (if_pos rfl))
  obtain ⟨placed, hplace, hroom''⟩ := exists_place hroom' (i := i)
    (by rw [htaken, hsame]; exact hnext)
  refine ⟨{ placed with
    stats := { placed.stats with transmitted := placed.stats.transmitted + 1 } },
    ?_, hroom''.limit, hroom''.fits⟩
  unfold transmit
  rw [hchosen]
  exact (bind_of_eq_ok hevict _).trans ((bind_of_eq_ok htext _).trans
    ((bind_of_eq_ok hsend _).trans (bind_of_eq_ok hplace _)))

variable {l : Ledger}

theorem exists_dropAll {is : List Nat} (h : p.cache.IsDated l)
    (hroom : p.HasRoom room (100 * is.length + m)) :
    ∃ p', is.foldlM dropUnplaced p = .ok p' ∧ p'.HasRoom room m := by
  induction is generalizing p with
  | nil => exact ⟨p, rfl, by simpa using hroom⟩
  | cons i is ih =>
    rw [List.length_cons, Nat.mul_succ, Nat.add_comm _ 100, Nat.add_assoc] at hroom
    obtain ⟨next, hnext, hroom'⟩ := exists_dropUnplaced (i := i) hroom fun hi => h.isNumber hi
    obtain ⟨p', hp', hroom''⟩ := ih (enters_dropUnplaced h hnext).1 hroom'
    refine ⟨p', ?_, hroom''⟩
    rw [List.foldlM_cons, hnext]
    exact hp'

end Presentation

end CellCanvas
