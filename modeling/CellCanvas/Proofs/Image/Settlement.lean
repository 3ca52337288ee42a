import CellCanvas.Proofs.Image.Visits

/-!
# What a frame leaves

A frame of at most 64 different images leaves exactly these on the terminal, after any calls. It
deletes none of them, unless an image that is a whole round of numbers older is still there: then a
new image takes the number of the old one, and the deletion of the old one at the end of the frame
is that of the new one.
-/

namespace CellCanvas

open Kitty ImageCache

namespace Presentation

/-- A frame does not transmit more often than it has images. -/
theorem TransmitsOnce.le_card {support : ImageSupport}
    {commands : List (ImageCommand × ByteArray)} {rs : List Request} {transmitted : Nat}
    (h : TransmitsOnce (kittyCommands support commands) rs transmitted) :
    transmitted ≤ (contents support commands).card := by
  obtain ⟨sent, hsublist, hnodup, -, rfl⟩ := h
  have hsubset : (sent.map contentOf).toFinset ⊆ contents support commands := by
    intro content hcontent
    rw [List.mem_toFinset] at hcontent
    obtain ⟨c, hc, rfl⟩ := List.mem_map.mp hcontent
    exact mem_contents.mpr ⟨c, hsublist.subset hc, rfl⟩
  have hcard := Finset.card_le_card hsubset
  rwa [List.toFinset_card_of_nodup hnodup, List.length_map] at hcard

/-- An image in the first slot is the first that is dropped, when the frame has not placed it. -/
theorem deletes_of_dropAll {p p' : Presentation}
    (htransmitted : (p.cache.slot 0).transmitted = true)
    (hunplaced : (p.cache.slot 0).placed = false)
    (hok : (List.range p.cache.slots.size).foldlM dropUnplaced p = .ok p') :
    ∃ rs, p.Sent p' ([.delete (p.cache.slot 0).number] ++ rs) := by
  obtain ⟨k, hk⟩ := Nat.exists_eq_succ_of_ne_zero (lt_of_transmitted htransmitted).ne'
  rw [hk, List.range_succ_eq_map] at hok
  obtain ⟨next, hnext, hrest⟩ := exists_of_bind_eq_ok hok
  obtain ⟨⟨rs, hsent, -⟩, -⟩ := dropAll_ok ∅ hrest
  rcases dropUnplaced_cases hnext with ⟨rfl, hplaced⟩ | ⟨-, -, -, hdeleted, -⟩
  · rw [hplaced htransmitted] at hunplaced
    cases hunplaced
  · rw [ImageSlot.evictions, if_pos htransmitted] at hdeleted
    exact ⟨rs, hdeleted.trans hsent⟩

end Presentation

namespace Stage

open Presentation

/-- After any calls, a frame of at most 64 different images that is presented keeps every image that
it has placed to its end, transmits no image twice, and leaves as many images as it has. It asks the
terminal to delete none that it has placed, if less than a round of numbers lies between its last
transmission and that of each image that was there before it. -/
theorem present_settles (png : PngEncoder) (budget : Nat) (calls : List PresenterCall)
    (f : ImageFrame) (support : ImageSupport) (out out' : Output) (p' : Presenter)
    (stats : PresentStats) (fits : (contents support f.commands.toList).card ≤ maxSlots)
    (succeeds : ((start budget).run png calls).presenter.present png f support out =
      .ok (p', out', stats)) :
    let s := (start budget).run png calls
    let ledger := Ledger.blank.run png (start budget) calls
    ledger.count = s.terminal.transmissions ∧ ∃ requests,
      requests? (out'.pending.extract out.pending.size out'.pending.size) = some requests ∧
        s.presenter.Settles png p' f support out.remaining stats requests ∧
          ((∀ i, (s.presenter.cache.slot i).transmitted = true →
            ledger.count + stats.transmitted ≤ ledger.before i + lastNumber) →
              requests.Pairwise Request.Spares) := by
  intro s ledger
  have hentered : s.IsEntered ledger := (IsEntered.start budget).run calls
  have htidy : s.IsTidy := IsTidy.run (.empty (.withBudget budget) .blank) (.start budget) calls
  obtain ⟨-, requests, hrequests, hsettles⟩ := htidy.present hentered.dated.from_zero succeeds
  obtain ⟨hsettled, -⟩ := hsettles fits
  refine ⟨hentered.count, requests, hrequests, hsettled, ?_⟩
  intro hround
  have htransmitted := hsettled.once.le_card.trans fits
  have hdated : s.presenter.cache.IsDatedFrom (ledger.count + stats.transmitted - lastNumber)
      ledger.count := by
    refine ⟨ledger, hentered.dated, rfl, ?_, ?_⟩
    · unfold maxSlots at htransmitted
      unfold lastNumber
      omega
    · intro i hi
      have hle := hround i hi
      omega
  -- The requests are the same, since they are read from the same bytes.
  obtain ⟨-, requests', hrequests', hsettles'⟩ := htidy.present hdated succeeds
  obtain rfl : requests = requests' := Option.some.inj (hrequests.symm.trans hrequests')
  exact (hsettles' fits).2 (by omega)

/-- A pixel in two places. -/
def pixelTwice : ImageFrame :=
  ⟨(Exhibit.onePixelFrame 0).commands ++ (Exhibit.onePixelFrame 5).commands⟩

/-- The pixel is on the terminal already, so nothing is transmitted. -/
theorem present_settles_same_pixel :
    let before := (start 0).run Png.encoder [Exhibit.showPixel 0]
    ∃ p' out' stats requests,
      before.presenter.present Png.encoder pixelTwice {} .unbounded = .ok (p', out', stats) ∧
        stats = { reused := 2 } ∧
          before.presenter.Settles Png.encoder p' pixelTwice {} Output.unbounded.remaining stats
            requests ∧ requests.Pairwise Request.Spares := by
  intro before
  have hstats : (before.presenter.present Png.encoder pixelTwice {} .unbounded).toOption.map
      (·.2.2) = some { reused := 2 } := by
    decide +kernel
  have hcount : (Ledger.blank.run Png.encoder (start 0) [Exhibit.showPixel 0]).count = 1 := by
    decide +kernel
  cases hok : before.presenter.present Png.encoder pixelTwice {} .unbounded with
  | error failure =>
    rw [hok] at hstats
    cases hstats
  | ok result =>
    obtain ⟨p', out', stats⟩ := result
    rw [hok] at hstats
    have htwice : stats = { reused := 2 } := Option.some.inj hstats
    obtain ⟨-, requests, -, hsettles, hspares⟩ := present_settles Png.encoder 0
      [Exhibit.showPixel 0] pixelTwice {} .unbounded out' p' stats (by decide +kernel) hok
    refine ⟨p', out', stats, requests, rfl, htwice, hsettles, hspares ?_⟩
    intro i _
    rw [hcount, htwice]
    exact Nat.le_add_left_of_le (by decide)

/-- An image that no visit has shown. -/
def strangeImage : ImageCommand × ByteArray := (cornerPixel, [9, 10, 11, 12].toByteArray)

theorem isPixel_strangeImage : IsPixel strangeImage.2 := ⟨by decide, by decide +kernel⟩

/-- The passing image and the strange one, without the staying one. -/
def newImages : ImageFrame := ⟨#[passingImage, strangeImage]⟩

variable {png : PngEncoder} {s : Stage} {n : Nat}

/-- The two new images are placed, and the staying one is not. -/
theorem exists_showFirst_newImages (png : PngEncoder) (h : s.presenter.cache.Hosts n)
    (halone : s.presenter.cache.IsAlone) :
    ∃ shown rs l,
      s.presenter.showFirst png newImages {} Output.unbounded.remaining 2 = .ok shown ∧
      s.opened.Sent shown (rs ++ [.place (Ledger.numberAfter (n + 1)) (.of cornerPixel)]) ∧
        shown.HasRoom Size.largest (100 * maxSlots) ∧ shown.cache.IsDated l ∧
          shown.cache.slot 0 = s.opened.cache.slot 0 := by
  have hopened : s.opened.cache.Hosts n := hosts_beginFrame h
  have halone' : s.opened.cache.IsAlone := by
    intro i hi
    exact (sameImage_beginFrame _ i).transmitted.trans (halone i hi)
  obtain ⟨mid, new, hfirst, hroom, hvisited⟩ := exists_display_passing png s.presenter.scratch
    hopened halone' ((hasRoom_opened s).mono (by decide : 300 + (300 + 100 * maxSlots) ≤ _))
  have hmissing (i : Nat) (hi : (mid.cache.slot i).transmitted = true) :
      (mid.cache.slot i).pixels ≠ contentOf strangeImage := by
    by_cases hnew : i = new
    · rw [hnew, hvisited.stored.pixels]
      change contentOf passingImage ≠ contentOf strangeImage
      decide +kernel
    · rw [hvisited.kept i hnew] at hi ⊢
      exact hopened.pixels_ne halone' (by decide +kernel) hi
  obtain ⟨l, hdated, -⟩ := hvisited.hosts.dated
  obtain ⟨shown, hsecond, hroom', hadopts⟩ := exists_display_missing png s.presenter.scratch hdated
    isPixel_strangeImage hmissing hroom
  -- Of the first two slots behind that of the staying image one is free.
  obtain ⟨i, hi, hi0, hinew⟩ : ∃ i < maxSlots, i ≠ 0 ∧ i ≠ new := by
    by_cases hnew : new = 1
    · exact ⟨2, by decide, by decide, by omega⟩
    · exact ⟨1, by decide, by decide, Ne.symm hnew⟩
  have hne := hvisited.hosts.chooseSlot_ne hi (by rw [hvisited.kept i hinew]; exact halone' i hi0)
  have hcache := hadopts.cache
  have hlt := (size_adopt hdated.size_le (slotFor mid.cache.nextNumber strangeImage.1
    (fingerprint strangeImage.2))).2
  obtain ⟨-, hothers⟩ := slot_markPlaced_adopt hdated.size_le (slotFor mid.cache.nextNumber
    strangeImage.1 (fingerprint strangeImage.2))
  have hsent := hvisited.adopts.sent.trans hadopts.sent
  rw [← List.append_assoc, hvisited.hosts.nextNumber_eq] at hsent
  have hadopted : shown.cache.IsDated (l.add mid.cache.chooseSlot.2) := by
    rw [hcache]
    exact (hdated.adopt rfl).markPlaced hlt
  refine ⟨shown, _, _, ?_, hsent, hroom', hadopted, ?_⟩
  · exact (bind_of_eq_ok hfirst _).trans (bind_of_eq_ok hsecond _)
  · rw [hcache]
    exact (hothers 0 hne.symm).trans (hvisited.kept 0 hvisited.new_ne.symm)

/-- When the numbers run out with the last but one transmission of a frame, its last image takes the
number of the image that has been there from the start, and is deleted in its place. -/
theorem exists_placed_deleted (png : PngEncoder) :
    let s := (start 0).run png (visits (lastNumber - 2))
    s.terminal.transmissions < lastNumber ∧ ∃ p' out' stats requests,
      s.presenter.present png newImages {} .unbounded = .ok (p', out', stats) ∧
        requests? (out'.pending.extract Output.unbounded.pending.size out'.pending.size) =
          some requests ∧ ¬ requests.Pairwise Request.Spares := by
  obtain ⟨hhosts, halone, hcount⟩ := run_visits png (lastNumber - 2)
  generalize (start 0).run png (visits (lastNumber - 2)) = stage at hhosts halone hcount ⊢
  have hnumber : Ledger.numberAfter (lastNumber - 2 + 1 + 1) = 1 := by
    rw [Ledger.numberAfter, show lastNumber - 2 + 1 + 1 = lastNumber by decide, Nat.mod_self]
  obtain ⟨shown, rs, l, hshown, hsent, hroom, hdated, hslot⟩ :=
    exists_showFirst_newImages png hhosts halone
  obtain ⟨done, hdrop, hpresent⟩ := exists_present hshown hdated hroom
  have hopened : stage.opened.cache.Hosts (lastNumber - 2 + 1) := hosts_beginFrame hhosts
  obtain ⟨ss, hdeletes⟩ := deletes_of_dropAll (by rw [hslot]; exact hopened.staying.1)
    (by rw [hslot]; exact congrArg ImageSlot.placed (slot_beginFrame 0)) hdrop
  rw [hslot, hopened.number_eq] at hdeletes
  rw [hnumber] at hsent
  refine ⟨by rw [hcount]; decide, _, _, _, _, hpresent,
    Presenter.requests?_of_present rfl (hsent.trans hdeletes), ?_⟩
  intro hspares
  have hsublist : List.Sublist ([Request.place 1 (.of cornerPixel)] ++ [Request.delete 1])
      (rs ++ [Request.place 1 (.of cornerPixel)] ++ ([Request.delete 1] ++ ss)) :=
    (List.sublist_append_right _ _).append (List.sublist_append_left _ _)
  exact List.rel_of_pairwise_cons (hspares.sublist hsublist) (List.mem_singleton_self _) rfl

/-- With no encoder of PNG files does a frame of at most 64 images spare what it has placed whenever
fewer images have been transmitted before it than there are numbers. -/
theorem placed_image_deleted :
    ¬ ∃ png : PngEncoder, ∀ (budget : Nat) (calls : List PresenterCall) (f : ImageFrame)
      (support : ImageSupport) (out out' : Output) (p' : Presenter) (stats : PresentStats)
      (requests : List Request),
      ((start budget).run png calls).terminal.transmissions < lastNumber →
      (contents support f.commands.toList).card ≤ maxSlots →
      ((start budget).run png calls).presenter.present png f support out =
        .ok (p', out', stats) →
      requests? (out'.pending.extract out.pending.size out'.pending.size) = some requests →
        requests.Pairwise Request.Spares := by
  rintro ⟨png, hclaim⟩
  obtain ⟨hfew, p', out', stats, requests, hpresent, hrequests, hnot⟩ := exists_placed_deleted png
  exact hnot (hclaim 0 (visits (lastNumber - 2)) newImages {} .unbounded out' p' stats requests hfew
    (by decide +kernel) hpresent hrequests)

end Stage

end CellCanvas
