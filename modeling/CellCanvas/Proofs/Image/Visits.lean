import CellCanvas.Proofs.Image.Acceptance
import CellCanvas.Proofs.Image.Turnover

/-!
# Visits

An image stays on the terminal while the numbers run out when every frame shows it, beside another
that comes and goes. After any number of visits it is still in the first slot, alone, and the count
of transmissions is one more than that number.
-/

namespace CellCanvas

open Kitty ImageCache

/-- An image that every frame shows. -/
def stayingImage : ImageCommand × ByteArray := (cornerPixel, [1, 2, 3, 4].toByteArray)

/-- An image that some frames show. -/
def passingImage : ImageCommand × ByteArray := (cornerPixel, [5, 6, 7, 8].toByteArray)

theorem isPixel_passingImage : IsPixel passingImage.2 := ⟨by decide, by decide +kernel⟩

namespace ImageCache

open Presentation

variable {c c' : ImageCache} {n : Nat}

/-- The staying image has been in the first slot from the start, and `n` images have been
transmitted. -/
structure Hosts (c : ImageCache) (n : Nat) : Prop where
  dated : ∃ l, c.IsDated l ∧ l.count = n ∧ l.before 0 = 0
  pixels : c.Distinguishes ImageSlot.pixels
  staying : (c.slot 0).transmitted = true ∧ (c.slot 0).pixels = contentOf stayingImage

/-- No other slot has an image. -/
def IsAlone (c : ImageCache) : Prop := ∀ i, i ≠ 0 → (c.slot i).transmitted = false

namespace Hosts

theorem number_eq (h : c.Hosts n) : (c.slot 0).number = 1 := by
  obtain ⟨l, hdated, -, hbefore⟩ := h.dated
  rw [hdated.number 0 h.staying.1, hbefore]
  rfl

theorem nextNumber_eq (h : c.Hosts n) : c.nextNumber = Ledger.numberAfter n := by
  obtain ⟨l, hdated, rfl, -⟩ := h.dated
  exact hdated.next

theorem size_le (h : c.Hosts n) : c.slots.size ≤ maxSlots := by
  obtain ⟨l, hdated, -⟩ := h.dated
  exact hdated.size_le

theorem of_sameImage (h : c.Hosts n) (hsize : c'.slots.size = c.slots.size)
    (hnext : c'.nextNumber = c.nextNumber) (hslot : ∀ i, (c'.slot i).SameImage (c.slot i)) :
    c'.Hosts n := by
  obtain ⟨l, hdated, hcount⟩ := h.dated
  refine ⟨⟨l, hdated.of_sameImage hsize hnext hslot, hcount⟩, ?_, ?_, ?_⟩
  · exact h.pixels.of_sameImage (fun _ _ hsame => hsame.pixels) hslot
  · exact (hslot 0).transmitted.trans h.staying.1
  · exact (hslot 0).pixels.trans h.staying.2

theorem markPlaced (h : c.Hosts n) {i : Nat} (hi : i < c.slots.size) : (c.markPlaced i).Hosts n :=
  h.of_sameImage (size_markPlaced i) rfl (sameImage_markPlaced hi)

/-- As long as a slot is free, the staying image keeps its own. -/
theorem chooseSlot_ne (h : c.Hosts n) {i : Nat} (hi : i < maxSlots)
    (hfree : (c.slot i).transmitted = false) : c.chooseSlot.2 ≠ 0 := by
  intro heq
  have hchosen := not_transmitted_chooseSlot hi hfree
  rw [heq, h.staying.1] at hchosen
  cases hchosen

/-- Another image is not there. -/
theorem pixels_ne (h : c.Hosts n) (halone : c.IsAlone) {image : ImageCommand × ByteArray}
    (hother : contentOf stayingImage ≠ contentOf image) {i : Nat}
    (hi : (c.slot i).transmitted = true) : (c.slot i).pixels ≠ contentOf image := by
  obtain rfl : i = 0 := by
    by_contra hi0
    rw [halone i hi0] at hi
    cases hi
  rwa [h.staying.2]

/-- The passing image takes another slot. -/
theorem adopt (h : c.Hosts n) (halone : c.IsAlone) {s : ImageSlot}
    (hnumber : s.number = c.nextNumber) (hpixels : s.pixels = contentOf passingImage) :
    c.chooseSlot.2 ≠ 0 ∧ (c.adopt s).Hosts (n + 1) := by
  obtain ⟨l, hdated, hcount, hbefore⟩ := h.dated
  have hne := h.chooseSlot_ne (i := 1) (by decide) (halone 1 (by decide))
  have hself : (c.adopt s).slot 0 = c.slot 0 := (slot_adopt h.size_le s 0).trans (if_neg hne)
  refine ⟨hne, ⟨_, hdated.adopt hnumber, congrArg Nat.succ hcount, ?_⟩, ?_, ?_⟩
  · rw [Ledger.before_add_of_ne l hne.symm, hbefore]
  · apply h.pixels.adopt h.size_le
    intro i hi
    rw [hpixels]
    exact h.pixels_ne halone (by decide +kernel) hi
  · rw [hself]
    exact h.staying

end Hosts

end ImageCache

namespace Presentation

variable {p p' p'' : Presentation} {c : ImageCommand} {bytes : ByteArray} {room k m n i : Nat}

/-- Between two presentations requests were sent that transmit `k` pictures. -/
def Transfers (k : Nat) (p p' : Presentation) : Prop :=
  ∃ rs, p.Sent p' rs ∧ transmissionsIn rs = k

theorem Transfers.trans (h : Transfers k p p') (h' : Transfers m p' p'') :
    Transfers (k + m) p p'' := by
  obtain ⟨rs, hsent, rfl⟩ := h
  obtain ⟨ss, hsent', rfl⟩ := h'
  exact ⟨rs ++ ss, hsent.trans hsent', transmissionsIn_append rs ss⟩

/-- An image that is found is placed. -/
theorem kitty_of_find? (hformat : c.format = .rgba)
    (hfound : p.cache.find? c.callerId (fingerprint bytes) c.width c.height = some i) :
    p.kitty c bytes = (p.place i c).map fun p =>
      { p with stats := { p.stats with reused := p.stats.reused + 1 } } := by
  rw [kitty, if_neg (not_not_intro hformat)]
  simp only [hfound]
  rfl

/-- An image that is not found is transmitted. -/
theorem kitty_of_find?_eq_none (hformat : c.format = .rgba)
    (hfound : p.cache.find? c.callerId (fingerprint bytes) c.width c.height = none) :
    p.kitty c bytes = p.transmit c bytes (fingerprint bytes) := by
  rw [kitty, if_neg (not_not_intro hformat)]
  simp only [hfound]

/-- The staying image is placed again. -/
theorem exists_display_staying (png : PngEncoder) (scratch : Scratch) (h : p.cache.Hosts n)
    (hroom : p.HasRoom room (100 + m)) :
    ∃ p', p.display png {} scratch stayingImage = .ok p' ∧ p'.HasRoom room m ∧
      p'.cache = p.cache.markPlaced 0 ∧ Transfers 0 p p' := by
  change ∃ p', p.kitty cornerPixel stayingImage.2 = .ok p' ∧ _ ∧ _ ∧ _
  cases hfound : p.cache.find? 0 (fingerprint stayingImage.2) 1 1 with
  | none => exact absurd h.staying.2 (pixels_ne_of_find? hfound h.staying.1)
  | some i =>
    obtain ⟨htransmitted, hpixels⟩ := holds_iff_pixels.mp (holds_of_find? hfound)
    obtain rfl : i = 0 := h.pixels i 0 htransmitted h.staying.1 (hpixels.trans h.staying.2.symm)
    obtain ⟨l, hdated, -⟩ := h.dated
    obtain ⟨placed, hplace, hroom'⟩ := exists_place hroom (hdated.isNumber h.staying.1)
    obtain ⟨hcache, hsent⟩ := place_ok hplace
    refine ⟨{ placed with stats := { placed.stats with reused := placed.stats.reused + 1 } }, ?_,
      ⟨hroom'.limit, hroom'.fits⟩, hcache, _, hsent, rfl⟩
    rw [kitty_of_find? rfl hfound]
    exact congrArg (Except.map _) hplace

/-- An image is transmitted to the slot that is chosen for it, under the next number, and placed. -/
structure Adopts (p : Presentation) (image : ImageCommand × ByteArray) (p' : Presentation) :
    Prop where
  cache : p'.cache = (p.cache.adopt (slotFor p.cache.nextNumber image.1
    (fingerprint image.2))).markPlaced p.cache.chooseSlot.2
  counted : p'.stats.transmitted = p.stats.transmitted + 1
  sent : p.Sent p' ((p.cache.slot p.cache.chooseSlot.2).evictions ++
    [.transmit p.cache.nextNumber (pictureOf image)] ++
      [.place p.cache.nextNumber (.of image.1)])

theorem Adopts.transfers {image : ImageCommand × ByteArray} (h : p.Adopts image p') :
    Transfers 1 p p' :=
  ⟨_, h.sent, transmissionsIn_adoption [] ..⟩

/-- A pixel that is not there is adopted. -/
theorem exists_display_missing (png : PngEncoder) (scratch : Scratch) {l : Ledger}
    (h : p.cache.IsDated l) (hpixel : IsPixel bytes)
    (hmissing : ∀ i, (p.cache.slot i).transmitted = true →
      (p.cache.slot i).pixels ≠ contentOf (cornerPixel, bytes))
    (hroom : p.HasRoom room (300 + m)) :
    ∃ p', p.display png {} scratch (cornerPixel, bytes) = .ok p' ∧ p'.HasRoom room m ∧
      p.Adopts (cornerPixel, bytes) p' := by
  obtain ⟨p', hok, hroom'⟩ := exists_transmit hroom h.size_le h.isNumber_next
    (fun i hi => h.isNumber hi) hpixel (fingerprint bytes)
  have hkitty : p.kitty cornerPixel bytes = .ok p' := by
    cases hfound : p.cache.find? 0 (fingerprint bytes) 1 1 with
    | none => exact (kitty_of_find?_eq_none rfl hfound).trans hok
    | some i =>
      obtain ⟨htransmitted, hpixels⟩ := holds_iff_pixels.mp (holds_of_find? hfound)
      exact absurd hpixels (hmissing i htransmitted)
  obtain ⟨-, rs, hsent, hserves⟩ := serves_of_kitty h.size_le hkitty
  cases hserves with
  | reused htransmitted hpixels => exact absurd hpixels (hmissing _ htransmitted)
  | adopted hnew hcache hcount => exact ⟨p', hkitty, hroom', hcache, hcount, hsent⟩

/-- The passing image is transmitted to another slot. -/
structure IsVisited (p : Presentation) (n : Nat) (p' : Presentation) (new : Nat) : Prop where
  hosts : p'.cache.Hosts (n + 1)
  adopts : p.Adopts passingImage p'
  new_ne : new ≠ 0
  kept : ∀ i, i ≠ new → p'.cache.slot i = p.cache.slot i
  stored : (p'.cache.slot new).SameImage
    (slotFor (Ledger.numberAfter n) cornerPixel (fingerprint passingImage.2))

theorem exists_display_passing (png : PngEncoder) (scratch : Scratch) (h : p.cache.Hosts n)
    (halone : p.cache.IsAlone) (hroom : p.HasRoom room (300 + m)) :
    ∃ p' new, p.display png {} scratch passingImage = .ok p' ∧ p'.HasRoom room m ∧
      p.IsVisited n p' new := by
  obtain ⟨l, hdated, -⟩ := h.dated
  obtain ⟨p', hok, hroom', hadopts⟩ := exists_display_missing png scratch hdated
    isPixel_passingImage (fun i hi => h.pixels_ne halone (by decide +kernel) hi) hroom
  obtain ⟨hne, hadopt⟩ := h.adopt halone
    (s := slotFor p.cache.nextNumber cornerPixel (fingerprint passingImage.2)) rfl rfl
  have hlt := (size_adopt h.size_le
    (slotFor p.cache.nextNumber cornerPixel (fingerprint passingImage.2))).2
  obtain ⟨hself, hothers⟩ := slot_markPlaced_adopt h.size_le
    (slotFor p.cache.nextNumber cornerPixel (fingerprint passingImage.2))
  have hcache : p'.cache = (p.cache.adopt (slotFor p.cache.nextNumber cornerPixel
    (fingerprint passingImage.2))).markPlaced p.cache.chooseSlot.2 := hadopts.cache
  have hhosts : p'.cache.Hosts (n + 1) := hcache ▸ hadopt.markPlaced hlt
  rw [← hcache] at hself hothers
  rw [h.nextNumber_eq] at hself
  exact ⟨p', p.cache.chooseSlot.2, hok, hroom', hhosts, hadopts, hne, hothers, hself⟩

/-- Dropping images at the end of a frame leaves the staying one, if the frame has placed it. -/
theorem hosts_dropAll {is : List Nat} (h : p.cache.Hosts n)
    (hplaced : (p.cache.slot 0).placed = true) (hok : is.foldlM dropUnplaced p = .ok p') :
    p'.cache.Hosts n := by
  obtain ⟨l, hdated, hcount⟩ := h.dated
  obtain ⟨-, hkeeps, -⟩ := dropAll_ok ∅ hok
  obtain ⟨-, hsame⟩ := keepsPlaced_dropAll hok 0 hplaced
  refine ⟨⟨l, (enters_dropAll hdated hok).1, hcount⟩, ?_, ?_, ?_⟩
  · apply h.pixels.congr
    intro i hi
    have hsame := hkeeps i hi
    rw [hsame] at hi ⊢
    exact ⟨hi, rfl⟩
  · exact hsame.transmitted.trans h.staying.1
  · exact hsame.pixels.trans h.staying.2

theorem transfers_dropAll {l : Ledger} {is : List Nat} (h : p.cache.IsDated l)
    (hok : is.foldlM dropUnplaced p = .ok p') : Transfers 0 p p' := by
  obtain ⟨-, rs, hsent, hcount⟩ := enters_dropAll h hok
  exact ⟨rs, hsent, by omega⟩

end Presentation

namespace Stage

open Presentation

variable {png : PngEncoder} {s : Stage} {k n : Nat} {f : ImageFrame}

/-- The presentation of a frame before its first command, when the buffer has no limit. -/
def opened (s : Stage) : Presentation := s.presenter.opened Size.largest

theorem hasRoom_opened (s : Stage) : s.opened.HasRoom Size.largest (600 + 100 * maxSlots) := by
  refine ⟨rfl, ?_⟩
  change 0 + (600 + 100 * maxSlots) ≤ Size.largest
  decide

/-- A frame whose commands are done is presented. -/
theorem exists_present {shown : Presentation} {l : Ledger}
    (hshown : s.presenter.showFirst png f {} Output.unbounded.remaining f.commands.size = .ok shown)
    (h : shown.cache.IsDated l) (hroom : shown.HasRoom Size.largest (100 * maxSlots)) :
    ∃ done, (List.range shown.cache.slots.size).foldlM dropUnplaced shown = .ok done ∧
      s.presenter.present png f {} .unbounded =
        .ok ({ s.presenter with cache := done.cache }, Output.unbounded.push done.output.pending,
          done.stats) := by
  have hsize := h.size_le
  have hroom' : shown.HasRoom Size.largest
      (100 * (List.range shown.cache.slots.size).length + 0) := by
    apply hroom.mono
    rw [List.length_range]
    omega
  obtain ⟨done, hdrop, hfits⟩ := exists_dropAll h hroom'
  refine ⟨done, hdrop, ?_⟩
  have hcompose : s.presenter.compose png f {} Output.unbounded.remaining = .ok done := by
    rw [Presenter.compose_eq, hshown]
    exact hdrop
  rw [Presenter.present_eq, hcompose]
  exact if_pos hfits.fits

/-- A frame that has placed the staying image is presented. -/
theorem after_staying {shown : Presentation}
    (hshown : s.presenter.showFirst png f {} Output.unbounded.remaining f.commands.size = .ok shown)
    (hsent : Transfers k s.opened shown) (h : shown.cache.Hosts n)
    (hplaced : (shown.cache.slot 0).placed = true)
    (hroom : shown.HasRoom Size.largest (100 * maxSlots)) :
    (s.after png (.present f {} .unbounded)).presenter.cache.Hosts n ∧
      (s.after png (.present f {} .unbounded)).terminal.transmissions =
        s.terminal.transmissions + k ∧
      ∀ i, ((s.after png (.present f {} .unbounded)).presenter.cache.slot i).transmitted = true →
        (shown.cache.slot i).placed = true := by
  obtain ⟨l, hdated, -⟩ := h.dated
  obtain ⟨done, hdrop, hpresent⟩ := exists_present hshown hdated hroom
  obtain ⟨-, hkeeps, -⟩ := dropAll_ok ∅ hdrop
  have hcache : (s.after png (.present f {} .unbounded)).presenter.cache = done.cache := by
    simp only [Stage.after, hpresent]
  obtain ⟨requests, hrequests, hcount⟩ := hsent.trans (transfers_dropAll hdated hdrop)
  have hread : requests? ((Output.unbounded.push done.output.pending).pending.extract
      Output.unbounded.pending.size (Output.unbounded.push done.output.pending).pending.size) =
        some requests :=
    Presenter.requests?_of_present rfl hrequests
  rw [hcache]
  refine ⟨hosts_dropAll h hplaced hdrop, ?_, ?_⟩
  · simp only [Stage.after, hpresent, Terminal.receive, hread, Terminal.transmissions_actAll]
    exact congrArg _ hcount
  intro i hi
  rw [← hkeeps i hi]
  exact placed_of_dropAll hdrop hi

/-- Show the staying image alone. -/
def showAlone : PresenterCall := .present ⟨#[stayingImage]⟩ {} .unbounded

/-- The staying image beside the passing one. -/
def bothImages : ImageFrame := ⟨#[stayingImage, passingImage]⟩

/-- The staying image is shown all the time, and the passing one comes and goes. -/
def visits : Nat → List PresenterCall
  | 0 => [showAlone]
  | n + 1 => visits n ++ [.present bothImages {} .unbounded, showAlone]

theorem hosts_beginFrame (h : s.presenter.cache.Hosts n) : s.presenter.cache.beginFrame.Hosts n :=
  h.of_sameImage size_beginFrame rfl (sameImage_beginFrame _)

/-- A frame places the staying image first. -/
theorem exists_showFirst (h : s.presenter.cache.Hosts n)
    (hfirst : f.commands.toList.take 1 = [stayingImage]) :
    ∃ mid, s.presenter.showFirst png f {} Output.unbounded.remaining 1 = .ok mid ∧
      mid.HasRoom Size.largest (300 + 100 * maxSlots) ∧
        mid.cache = s.presenter.cache.beginFrame.markPlaced 0 ∧ Transfers 0 s.opened mid := by
  obtain ⟨mid, hok, hroom', hcache, hsent⟩ :=
    exists_display_staying png s.presenter.scratch (p := s.opened) (hosts_beginFrame h)
      ((hasRoom_opened s).mono (by decide : 100 + (300 + 100 * maxSlots) ≤ _))
  refine ⟨mid, ?_, hroom', hcache, hsent⟩
  rw [Presenter.showFirst, hfirst]
  exact bind_of_eq_ok hok _

/-- After its first command a frame has placed the staying image, and no other. -/
theorem placed_iff (h : s.presenter.cache.Hosts n) (i : Nat) :
    ((s.presenter.cache.beginFrame.markPlaced 0).slot i).placed = true ↔ i = 0 := by
  rw [slot_markPlaced (lt_of_transmitted (hosts_beginFrame h).staying.1)]
  split_ifs with hi
  · exact iff_of_true rfl hi.symm
  · rw [slot_beginFrame]
    exact iff_of_false nofun (Ne.symm hi)

theorem after_showAlone (png : PngEncoder) (h : s.presenter.cache.Hosts n) :
    (s.after png showAlone).presenter.cache.Hosts n ∧
      (s.after png showAlone).presenter.cache.IsAlone ∧
        (s.after png showAlone).terminal.transmissions = s.terminal.transmissions := by
  obtain ⟨shown, hshown, hroom, hcache, hsent⟩ := exists_showFirst (f := ⟨#[stayingImage]⟩) h rfl
  have hlt := lt_of_transmitted (hosts_beginFrame h).staying.1
  obtain ⟨hhosts, hcount, hplaced⟩ := after_staying hshown hsent
    (hcache ▸ (hosts_beginFrame h).markPlaced hlt) (by rw [hcache, placed_iff h])
    (hroom.mono (Nat.le_add_left _ _))
  refine ⟨hhosts, ?_, hcount⟩
  intro i hi
  by_contra htransmitted
  have hthere := hplaced i (eq_true_of_ne_false htransmitted)
  rw [hcache, placed_iff h] at hthere
  exact hi hthere

/-- The passing image comes when the staying one has been placed. -/
theorem exists_visit (png : PngEncoder) (h : s.presenter.cache.Hosts n)
    (halone : s.presenter.cache.IsAlone) :
    ∃ mid next new,
      s.presenter.showFirst png bothImages {} Output.unbounded.remaining 1 = .ok mid ∧
      mid.display png {} s.presenter.scratch passingImage = .ok next ∧
        next.HasRoom Size.largest (100 * maxSlots) ∧ (mid.cache.slot 0).placed = true ∧
          Transfers 1 s.opened next ∧ mid.IsVisited n next new := by
  obtain ⟨mid, hmid, hroom, hcache, hsent⟩ := exists_showFirst (f := bothImages) h rfl
  have hlt := lt_of_transmitted (hosts_beginFrame h).staying.1
  have hhosts : mid.cache.Hosts n := hcache ▸ (hosts_beginFrame h).markPlaced hlt
  have halone' : mid.cache.IsAlone := by
    intro i hi
    rw [hcache, (sameImage_markPlaced hlt i).transmitted, (sameImage_beginFrame _ i).transmitted]
    exact halone i hi
  obtain ⟨next, new, hnext, hroom', hvisited⟩ :=
    exists_display_passing png s.presenter.scratch hhosts halone' hroom
  refine ⟨mid, next, new, hmid, hnext, hroom', ?_, hsent.trans hvisited.adopts.transfers, hvisited⟩
  rw [hcache, placed_iff h]

theorem after_bothImages (png : PngEncoder) (h : s.presenter.cache.Hosts n)
    (halone : s.presenter.cache.IsAlone) :
    (s.after png (.present bothImages {} .unbounded)).presenter.cache.Hosts (n + 1) ∧
      (s.after png (.present bothImages {} .unbounded)).terminal.transmissions =
        s.terminal.transmissions + 1 := by
  obtain ⟨mid, next, new, hmid, hnext, hroom, hplaced, hsent, hvisited⟩ := exists_visit png h halone
  suffices hshown : s.presenter.showFirst png bothImages {} Output.unbounded.remaining 2 =
      .ok next by
    obtain ⟨hhosts, hcount, -⟩ := after_staying hshown hsent hvisited.hosts
      ((hvisited.kept 0 hvisited.new_ne.symm) ▸ hplaced) hroom
    exact ⟨hhosts, hcount⟩
  have hfirst : s.opened.display png {} s.presenter.scratch stayingImage = .ok mid := by
    obtain ⟨mid', hok, hpure⟩ := exists_of_bind_eq_ok hmid
    cases hpure
    exact hok
  exact (bind_of_eq_ok hfirst _).trans (bind_of_eq_ok hnext _)

theorem sendsFile_visits (n : Nat) : ∀ call ∈ visits n, call.sendsFile = false := by
  induction n with
  | zero => decide
  | succ n ih =>
    have hlast : ∀ call ∈ [.present bothImages {} .unbounded, showAlone],
        PresenterCall.sendsFile call = false := by decide
    intro call hcall
    rcases List.mem_append.mp hcall with hcall | hcall
    · exact ih call hcall
    · exact hlast call hcall

/-- After `n` visits the staying image is still there, and alone again. -/
theorem run_visits (png : PngEncoder) (n : Nat) :
    ((start 0).run png (visits n)).presenter.cache.Hosts (n + 1) ∧
      ((start 0).run png (visits n)).presenter.cache.IsAlone ∧
        ((start 0).run png (visits n)).terminal.transmissions = n + 1 := by
  induction n with
  | zero =>
    rw [run_eq png Png.encoder (sendsFile_visits 0)]
    have hentered : ((start 0).run Png.encoder (visits 0)).IsEntered
        (Ledger.blank.run Png.encoder (start 0) (visits 0)) :=
      (IsEntered.start 0).run (visits 0)
    have htidy : ((start 0).run Png.encoder (visits 0)).IsTidy :=
      IsTidy.run (.empty (.withBudget 0) .blank) (.start 0) (visits 0)
    refine ⟨⟨⟨_, hentered.dated, ?_, ?_⟩, htidy.pixels, ?_, ?_⟩, ?_, ?_⟩
    · decide +kernel
    · decide +kernel
    · decide +kernel
    · decide +kernel
    · have hsize : ((start 0).run Png.encoder (visits 0)).presenter.cache.slots.size = 1 := by
        decide +kernel
      intro i hi
      rw [slot_of_le (by omega)]
    · decide +kernel
  | succ n ih =>
    obtain ⟨hhosts, halone, hcount⟩ := ih
    obtain ⟨hvisited, hcount'⟩ := after_bothImages png hhosts halone
    obtain ⟨hhosts', halone', hcount''⟩ := after_showAlone png hvisited
    rw [visits, run, List.foldl_append]
    exact ⟨hhosts', halone', hcount''.trans (hcount'.trans (congrArg (· + 1) hcount))⟩

end Stage

end CellCanvas
