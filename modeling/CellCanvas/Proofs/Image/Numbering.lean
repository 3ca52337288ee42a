import CellCanvas.Proofs.Image.Visits

/-!
# When a number is taken twice

A new image gets a number that another image still has just when a whole number of rounds lies
between their transmissions. That takes an image that stays on the terminal while the numbers run
out.
-/

namespace CellCanvas

open Kitty ImageCache

namespace Stage

open Presentation

/-- After any calls and the first commands of a frame, an image that is transmitted gets the number
that follows from how many were transmitted before it. Another image that is still there has the
same number exactly when a whole number of rounds lies between the two transmissions. -/
theorem number_eq_iff (png : PngEncoder) (budget : Nat) (calls : List PresenterCall)
    (f : ImageFrame) (support : ImageSupport) (room k : Nat)
    (command : ImageCommand × ByteArray) (mid next : Presentation)
    (shown : ((start budget).run png calls).presenter.showFirst png f support room k = .ok mid)
    (succeeds : mid.display png support ((start budget).run png calls).presenter.scratch command =
      .ok next)
    (transmits : next.stats.transmitted ≠ mid.stats.transmitted) :
    let ledger := (Ledger.blank.run png (start budget) calls).amid png
      ((start budget).run png calls).presenter f support room k
    ∃ new requests, mid.Sent next requests ∧
      .transmit (next.cache.slot new).number (pictureOf command) ∈ requests ∧
        (next.cache.slot new).transmitted = true ∧
          (next.cache.slot new).number = Ledger.numberAfter ledger.count ∧
            ∀ i, i ≠ new → (next.cache.slot i).transmitted = true →
              ledger.before i < ledger.count ∧
                ((next.cache.slot i).number = (next.cache.slot new).number ↔
                  lastNumber ∣ ledger.count - ledger.before i) := by
  intro ledger
  have hmid : mid.cache.IsDated ledger :=
    (Presenter.enters_showFirst ((IsEntered.start budget).run calls).dated shown).1
  obtain ⟨-, requests, hsent, hhandles⟩ := handles_of_display hmid.size_le succeeds
  cases hhandles with
  | passed hother hcache hcount => exact absurd hcount transmits
  | served hkitty hserves =>
    cases hserves with
    | reused htransmitted hpixels hcache hcount => exact absurd hcount transmits
    | adopted hnew hcache hcount =>
      obtain ⟨hself, hothers⟩ := slot_markPlaced_adopt hmid.size_le
        (slotFor mid.cache.nextNumber command.1 (fingerprint command.2))
      rw [← hcache] at hself hothers
      have hnumber : (next.cache.slot mid.cache.chooseSlot.2).number = mid.cache.nextNumber :=
        hself.number
      refine ⟨mid.cache.chooseSlot.2, _, hsent, ?_, hself.transmitted,
        hnumber.trans hmid.next, ?_⟩
      · rw [hnumber]
        simp
      · intro i hi htransmitted
        -- The other images are those from before, with the numbers that the ledger tells.
        rw [hothers i hi] at htransmitted ⊢
        have hearlier := hmid.earlier i htransmitted
        refine ⟨hearlier, ?_⟩
        rw [hnumber, hmid.number i htransmitted, hmid.next]
        exact Ledger.numberAfter_eq_iff hearlier.le

/-- A second pixel gets the second number. -/
theorem number_eq_iff_second_image :
    let s := (start 0).run Png.encoder (visits 0)
    ∃ mid next new,
      s.presenter.showFirst Png.encoder bothImages {} Output.unbounded.remaining 1 = .ok mid ∧
      mid.display Png.encoder {} s.presenter.scratch passingImage = .ok next ∧
        (next.cache.slot new).number = 2 ∧
          ∀ i, i ≠ new → (next.cache.slot i).transmitted = true →
            (next.cache.slot i).number ≠ 2 := by
  intro s
  obtain ⟨hhosts, halone, -⟩ := run_visits Png.encoder 0
  obtain ⟨mid, next, _, hmid, hnext, _, _, _, hvisited⟩ := exists_visit Png.encoder hhosts halone
  have htransmits := hvisited.adopts.counted
  obtain ⟨new, requests, -, -, -, hnumber, hothers⟩ := number_eq_iff Png.encoder 0 (visits 0)
    bothImages {} Output.unbounded.remaining 1 passingImage mid next hmid hnext (by omega)
  have hcount : ((Ledger.blank.run Png.encoder (start 0) (visits 0)).amid Png.encoder s.presenter
      bothImages {} Output.unbounded.remaining 1).count = 1 := by
    decide +kernel
  rw [hcount] at hnumber hothers
  refine ⟨mid, next, new, hmid, hnext, hnumber, ?_⟩
  intro i hi htransmitted hsame
  obtain ⟨hearlier, hiff⟩ := hothers i hi htransmitted
  have hrounds := hiff.mp (hsame.trans hnumber.symm)
  rw [Nat.lt_one_iff.mp hearlier] at hrounds
  exact absurd hrounds (by decide)

/-- An image that has stayed while the numbers ran out has the number that the next one gets. -/
theorem exists_number_again (png : PngEncoder) :
    let s := (start 0).run png (visits (lastNumber - 1))
    ∃ mid next new,
      s.presenter.showFirst png bothImages {} Output.unbounded.remaining 1 = .ok mid ∧
      mid.display png {} s.presenter.scratch passingImage = .ok next ∧
        next.stats.transmitted = mid.stats.transmitted + 1 ∧ new ≠ 0 ∧
          (next.cache.slot 0).transmitted = true ∧ (next.cache.slot new).transmitted = true ∧
            (next.cache.slot 0).number = 1 ∧ (next.cache.slot new).number = 1 := by
  obtain ⟨hhosts, halone, -⟩ := run_visits png (lastNumber - 1)
  -- What the stage is does not matter any more, and it is too large to be looked into.
  generalize (start 0).run png (visits (lastNumber - 1)) = stage at hhosts halone ⊢
  obtain ⟨mid, next, new, hmid, hnext, -, -, -, hvisited⟩ := exists_visit png hhosts halone
  have hround : Ledger.numberAfter (lastNumber - 1 + 1) = 1 := by
    rw [Ledger.numberAfter, Nat.sub_add_cancel (by decide), Nat.mod_self]
  exact ⟨mid, next, new, hmid, hnext, hvisited.adopts.counted, hvisited.new_ne,
    hvisited.hosts.staying.1, hvisited.stored.transmitted, hvisited.hosts.number_eq,
    hvisited.stored.number.trans hround⟩

/-- With no encoder of PNG files do the images that are there always have different numbers. -/
theorem number_taken_again :
    ¬ ∃ png : PngEncoder, ∀ (budget : Nat) (calls : List PresenterCall) (f : ImageFrame)
      (support : ImageSupport) (room k : Nat) (command : ImageCommand × ByteArray)
      (mid next : Presentation) (i j : Nat),
      ((start budget).run png calls).presenter.showFirst png f support room k = .ok mid →
      mid.display png support ((start budget).run png calls).presenter.scratch command =
        .ok next →
      next.stats.transmitted ≠ mid.stats.transmitted → i ≠ j →
      (next.cache.slot i).transmitted = true → (next.cache.slot j).transmitted = true →
        (next.cache.slot i).number ≠ (next.cache.slot j).number := by
  rintro ⟨png, hclaim⟩
  obtain ⟨mid, next, new, hmid, hnext, hcounted, hne, hold, hnew, hnumber, hnumber'⟩ :=
    exists_number_again png
  exact hclaim 0 (visits (lastNumber - 1)) bothImages {} _ 1 passingImage mid next 0 new hmid hnext
    (by omega) hne.symm hold hnew (hnumber.trans hnumber'.symm)

end Stage

end CellCanvas
