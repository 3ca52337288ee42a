import CellCanvas.Proofs.Image.Ledger

/-!
# Which images give way

Each command and each image that is dropped keeps what the cache looks like in the middle of a
frame. As long as the frame has no more images than there are slots, the images that it has placed
are those that its commands have asked for, each was transmitted at most once, and none was deleted.
-/

namespace CellCanvas

open Kitty ImageCache

/-- The second request does not delete what the first has placed. -/
def Kitty.Request.Spares : Request → Request → Prop
  | .place id _, .delete id' => id ≠ id'
  | _, _ => True

namespace ImageCache

variable {c c' : ImageCache} {rs : List Request} {i : Nat}

/-- The requests of a frame delete nothing that they have placed, and what they have placed is
recorded. -/
structure Spared (rs : List Request) (c : ImageCache) : Prop where
  later : rs.Pairwise Request.Spares
  placed : ∀ id placement, .place id placement ∈ rs →
    ∃ i, (c.slot i).placed = true ∧ (c.slot i).transmitted = true ∧ (c.slot i).number = id

namespace Spared

theorem nil (c : ImageCache) : Spared [] c := ⟨.nil, nofun⟩

theorem keep (h : Spared rs c) (hkeeps : c.KeepsPlaced c') : Spared rs c' := by
  refine ⟨h.later, ?_⟩
  intro id placement hr
  obtain ⟨i, hi, htransmitted, hnumber⟩ := h.placed id placement hr
  obtain ⟨hplaced, hsame⟩ := hkeeps i hi
  exact ⟨i, hplaced, hsame.transmitted.trans htransmitted, hsame.number.trans hnumber⟩

theorem transmit (h : Spared rs c) (id : Nat) (picture : Picture) :
    Spared (rs ++ [.transmit id picture]) c := by
  refine ⟨?_, ?_⟩
  · refine List.pairwise_append.mpr ⟨h.later, List.pairwise_singleton _ _, ?_⟩
    intro r _ r' hr'
    obtain rfl := List.mem_singleton.mp hr'
    cases r <;> trivial
  · intro id placement hr
    rcases List.mem_append.mp hr with hr | hr
    · exact h.placed id placement hr
    · cases List.mem_singleton.mp hr

theorem place (h : Spared rs c) (hi : (c.slot i).transmitted = true) (placement : Placement) :
    Spared (rs ++ [.place (c.slot i).number placement]) (c.markPlaced i) := by
  have hlt := lt_of_transmitted hi
  have hold := h.keep (KeepsPlaced.markPlaced hlt)
  refine ⟨?_, ?_⟩
  · refine List.pairwise_append.mpr ⟨h.later, List.pairwise_singleton _ _, ?_⟩
    intro r _ r' hr'
    obtain rfl := List.mem_singleton.mp hr'
    cases r <;> trivial
  · intro id placement' hr
    rcases List.mem_append.mp hr with hr | hr
    · exact hold.placed id placement' hr
    · cases List.mem_singleton.mp hr
      refine ⟨i, ?_⟩
      rw [slot_markPlaced hlt, if_pos rfl]
      exact ⟨rfl, hi, rfl⟩

/-- The image of a slot that the frame has not placed may be deleted. -/
theorem evict (h : Spared rs c) (hnumbers : c.Distinguishes ImageSlot.number)
    (hi : (c.slot i).placed = false) : Spared (rs ++ (c.slot i).evictions) c := by
  unfold ImageSlot.evictions
  split_ifs with htransmitted
  · refine ⟨?_, ?_⟩
    · refine List.pairwise_append.mpr ⟨h.later, List.pairwise_singleton _ _, ?_⟩
      intro r hr r' hr'
      obtain rfl := List.mem_singleton.mp hr'
      cases r with
      | place id placement =>
        rintro rfl
        obtain ⟨j, hj, htransmitted', hnumber⟩ := h.placed _ placement hr
        rw [hnumbers j i htransmitted' htransmitted hnumber, hi] at hj
        cases hj
      | transmit => trivial
      | delete => trivial
    · intro id placement hr
      rcases List.mem_append.mp hr with hr | hr
      · exact h.placed id placement hr
      · cases List.mem_singleton.mp hr
  · rwa [List.append_nil]

end Spared

end ImageCache

namespace Presentation

variable {p p' : Presentation} {i : Nat}

section Progress

variable {png : PngEncoder} {support : ImageSupport} {oldest count start : Nat}
variable {images : Finset (UInt64 × Nat × Nat)}
variable {done : List (ImageCommand × ByteArray)} {command : ImageCommand × ByteArray}
variable {rs ss : List Request}

theorem kittyCommands_append_kitty (h : command.1.protocol.resolve support = .kitty) :
    kittyCommands support (done ++ [command]) = kittyCommands support done ++ [command] := by
  simp [kittyCommands, h]

theorem kittyCommands_append_other (h : command.1.protocol.resolve support ≠ .kitty) :
    kittyCommands support (done ++ [command]) = kittyCommands support done := by
  simp [kittyCommands, h]

theorem contents_append_kitty (h : command.1.protocol.resolve support = .kitty) :
    contents support (done ++ [command]) = insert (contentOf command) (contents support done) := by
  rw [contents, kittyCommands_append_kitty h, List.map_append, List.toFinset_append,
    Finset.union_comm]
  rfl

theorem mem_contents {content : UInt64 × Nat × Nat} :
    content ∈ contents support done ↔ ∃ c ∈ kittyCommands support done, contentOf c = content := by
  simp [contents]

/-- The pictures that are transmitted are those of some of the commands, all of different images. -/
def TransmitsOnce (commands : List (ImageCommand × ByteArray)) (rs : List Request)
    (transmitted : Nat) : Prop :=
  ∃ sent : List (ImageCommand × ByteArray), sent.Sublist commands ∧ (sent.map contentOf).Nodup ∧
    rs.filterMap Request.picture? = sent.map pictureOf ∧ transmitted = sent.length

/-- What holds while a frame that has no more images than there are slots is presented: the commands
are done, and the requests have been made. -/
structure Fits (support : ImageSupport) (oldest count : Nat)
    (done : List (ImageCommand × ByteArray)) (p : Presentation) (rs : List Request) : Prop where
  placed : p.cache.placedPixels = contents support done
  once : TransmitsOnce (kittyCommands support done) rs p.stats.transmitted
  spared : count + transmissionsIn rs ≤ oldest + lastNumber → Spared rs p.cache

/-- What holds while a frame is presented. It started after `count` transmissions, with images that
had been transmitted after at least `oldest` others. -/
structure Progress (support : ImageSupport) (oldest count start : Nat)
    (images : Finset (UInt64 × Nat × Nat)) (done : List (ImageCommand × ByteArray))
    (p : Presentation) (rs : List Request) : Prop where
  orderly : p.cache.IsOrderly start images
  dated : p.cache.IsDatedFrom oldest (count + transmissionsIn rs)
  handled : p.stats.handled = done.length
  fits : images.card ≤ maxSlots → Fits support oldest count done p rs

namespace TransmitsOnce

variable {commands : List (ImageCommand × ByteArray)} {transmitted : Nat}

theorem transmissionsIn_eq (h : TransmitsOnce commands rs transmitted) :
    transmissionsIn rs = transmitted := by
  obtain ⟨sent, -, -, hpictures, hcount⟩ := h
  rw [transmissionsIn, hpictures, List.length_map, hcount]

/-- Requests that transmit nothing. -/
theorem keep (h : TransmitsOnce commands rs transmitted)
    (hnone : ss.filterMap Request.picture? = []) {commands' : List (ImageCommand × ByteArray)}
    (hcommands : commands.Sublist commands') : TransmitsOnce commands' (rs ++ ss) transmitted := by
  obtain ⟨sent, hsublist, hnodup, hpictures, hcount⟩ := h
  refine ⟨sent, hsublist.trans hcommands, hnodup, ?_, hcount⟩
  rw [List.filterMap_append, hnone, List.append_nil, hpictures]

/-- A command with an image of its own. -/
theorem add (h : TransmitsOnce commands rs transmitted)
    (hpicture : ss.filterMap Request.picture? = [pictureOf command])
    (hnew : ∀ c ∈ commands, contentOf c ≠ contentOf command) :
    TransmitsOnce (commands ++ [command]) (rs ++ ss) (transmitted + 1) := by
  obtain ⟨sent, hsublist, hnodup, hpictures, hcount⟩ := h
  refine ⟨sent ++ [command], hsublist.append (List.Sublist.refl _), ?_, ?_, ?_⟩
  · rw [List.map_append, List.nodup_append]
    refine ⟨hnodup, List.nodup_singleton _, ?_⟩
    intro content hcontent content' hcontent'
    obtain ⟨c, hc, rfl⟩ := List.mem_map.mp hcontent
    obtain rfl := List.mem_singleton.mp hcontent'
    exact hnew c (hsublist.subset hc)
  · rw [List.filterMap_append, hpictures, hpicture, List.map_append, List.map_singleton]
  · rw [hcount, List.length_append, List.length_singleton]

end TransmitsOnce

namespace Fits

/-- An image that is there is placed. -/
theorem reused (h : Fits support oldest count done p rs)
    (hkitty : command.1.protocol.resolve support = .kitty)
    (htransmitted : (p.cache.slot i).transmitted = true)
    (hpixels : (p.cache.slot i).pixels = contentOf command)
    (hcache : p'.cache = p.cache.markPlaced i)
    (hcount : p'.stats.transmitted = p.stats.transmitted) (placement : Placement) :
    Fits support oldest count (done ++ [command]) p'
      (rs ++ [.place (p.cache.slot i).number placement]) := by
  refine ⟨?_, ?_, ?_⟩
  · rw [hcache, placedPixels_markPlaced (lt_of_transmitted htransmitted), h.placed, hpixels,
      contents_append_kitty hkitty, Finset.coe_insert]
  · rw [hcount, kittyCommands_append_kitty hkitty]
    exact h.once.keep rfl (List.sublist_append_left _ _)
  · intro hround
    rw [hcache]
    exact (h.spared (le_of_append hround)).place htransmitted placement

/-- An image that is missing is adopted to a slot that the frame has not placed. -/
theorem adopted (h : Fits support oldest count done p rs)
    (hkitty : command.1.protocol.resolve support = .kitty)
    (horderly : p.cache.IsOrderly start images)
    (hdated : p.cache.IsDatedFrom oldest (count + transmissionsIn rs))
    (hunplaced : (p.cache.slot p.cache.chooseSlot.2).placed = false)
    (hnew : ∀ j, (p.cache.slot j).transmitted = true → (p.cache.slot j).pixels ≠ contentOf command)
    (hcache : p'.cache = (p.cache.adopt (slotFor p.cache.nextNumber command.1
      (fingerprint command.2))).markPlaced p.cache.chooseSlot.2)
    (hcount : p'.stats.transmitted = p.stats.transmitted + 1) (placement : Placement) :
    Fits support oldest count (done ++ [command]) p' (rs ++
      ((p.cache.slot p.cache.chooseSlot.2).evictions ++
        [.transmit p.cache.nextNumber (pictureOf command)] ++
          [.place p.cache.nextNumber placement])) := by
  have hlt := (size_adopt horderly.size_le
    (slotFor p.cache.nextNumber command.1 (fingerprint command.2))).2
  have hslot := slot_adopt horderly.size_le
    (slotFor p.cache.nextNumber command.1 (fingerprint command.2))
  have hself := (hslot p.cache.chooseSlot.2).trans (if_pos rfl)
  have hothers (j : Nat) (hj : j ≠ p.cache.chooseSlot.2) := (hslot j).trans (if_neg hj.symm)
  have hplaced := placedPixels_of_slot hunplaced (by rw [hself]; rfl) hothers
  refine ⟨?_, ?_, ?_⟩
  · rw [hcache, placedPixels_markPlaced hlt, hplaced, h.placed, contents_append_kitty hkitty,
      Finset.coe_insert, hself]
    rfl
  · rw [hcount, kittyCommands_append_kitty hkitty]
    apply h.once.add (picture?_adoption _ _ _ _ _)
    intro c hc heq
    have hthere : contentOf c ∈ p.cache.placedPixels := by
      rw [h.placed, Finset.mem_coe]
      exact mem_contents.mpr ⟨c, hc, rfl⟩
    obtain ⟨j, hj, hpixels⟩ := hthere
    exact hnew j (horderly.amid.placed j hj).2.1 (hpixels.trans heq)
  · intro hround
    have hround' := le_of_append hround
    have hroom := (h.spared hround').evict (hdated.numbers hround') hunplaced
    have hsent := (hroom.keep (KeepsPlaced.of_slot hunplaced hothers)).transmit
      p.cache.nextNumber (pictureOf command)
    have hshown := hsent.place (i := p.cache.chooseSlot.2) (by rw [hself]; rfl) placement
    rw [hself] at hshown
    rw [hcache, ← List.append_assoc, ← List.append_assoc]
    exact hshown

/-- A command that does not concern the cache. -/
theorem passed (h : Fits support oldest count done p rs)
    (hother : command.1.protocol.resolve support ≠ .kitty) (hcache : p'.cache = p.cache)
    (hcount : p'.stats.transmitted = p.stats.transmitted) :
    Fits support oldest count (done ++ [command]) p' rs := by
  refine ⟨?_, ?_, ?_⟩
  · rw [hcache, h.placed, contents, contents, kittyCommands_append_other hother]
  · rw [hcount, kittyCommands_append_other hother]
    exact h.once
  · rw [hcache]
    exact h.spared

/-- The image of a slot that the frame has not placed is dropped. -/
theorem drop (h : Fits support oldest count done p rs)
    (hdated : p.cache.IsDatedFrom oldest (count + transmissionsIn rs))
    (htransmitted : (p.cache.slot i).transmitted = true)
    (hunplaced : (p.cache.slot i).placed = false) (hcache : p'.cache = p.cache.setSlot i {})
    (hcount : p'.stats.transmitted = p.stats.transmitted) :
    Fits support oldest count done p' (rs ++ (p.cache.slot i).evictions) := by
  have hslot := slot_setSlot (c := p.cache) {} (lt_of_transmitted htransmitted)
  have hself := (hslot i).trans (if_pos rfl)
  have hothers (j : Nat) (hj : j ≠ i) := (hslot j).trans (if_neg hj.symm)
  refine ⟨?_, ?_, ?_⟩
  · rw [hcache, placedPixels_of_slot hunplaced (by rw [hself]) hothers, h.placed]
  · rw [hcount]
    exact h.once.keep (picture?_evictions _) (List.Sublist.refl _)
  · intro hround
    have hround' := le_of_append hround
    rw [hcache]
    exact ((h.spared hround').evict (hdated.numbers hround') hunplaced).keep
      (KeepsPlaced.of_slot hunplaced hothers)

end Fits

namespace Progress

/-- At the start of a frame nothing is placed and nothing has been sent. -/
theorem beginFrame {c : ImageCache} (output : Output) (hsize : c.slots.size ≤ maxSlots)
    (hpixels : c.Distinguishes ImageSlot.pixels) (htick : ∀ i, (c.slot i).tick ≤ c.tick)
    (hdated : c.IsDatedFrom oldest count) :
    Progress support oldest count c.tick images [] ⟨c.beginFrame, output, {}⟩ [] := by
  refine ⟨⟨?_, ?_, .beginFrame htick⟩, ?_, rfl, fun _ => ⟨?_, ?_, fun _ => .nil _⟩⟩
  · rw [size_beginFrame]
    exact hsize
  · exact hpixels.of_sameImage (fun _ _ hsame => hsame.pixels) (sameImage_beginFrame c)
  · exact hdated.of_sameImage size_beginFrame rfl (sameImage_beginFrame c)
  · rw [placedPixels_beginFrame]
    exact Finset.coe_empty.symm
  · exact ⟨[], List.Sublist.refl _, List.nodup_nil, rfl, rfl⟩

theorem reused (h : Progress support oldest count start images done p rs)
    (hkitty : command.1.protocol.resolve support = .kitty) (himage : contentOf command ∈ images)
    (htransmitted : (p.cache.slot i).transmitted = true)
    (hpixels : (p.cache.slot i).pixels = contentOf command)
    (hcache : p'.cache = p.cache.markPlaced i)
    (hcount : p'.stats.transmitted = p.stats.transmitted)
    (hlength : p'.stats.handled = (done ++ [command]).length) (placement : Placement) :
    Progress support oldest count start images (done ++ [command]) p'
        (rs ++ [.place (p.cache.slot i).number placement]) ∧ p.cache.KeepsPlaced p'.cache := by
  have hlt := lt_of_transmitted htransmitted
  refine ⟨⟨?_, ?_, hlength, ?_⟩, ?_⟩
  · rw [hcache]
    exact h.orderly.markPlaced htransmitted (hpixels ▸ himage)
  · rw [hcache, transmissionsIn_append]
    exact h.dated.of_sameImage (size_markPlaced i) rfl (sameImage_markPlaced hlt)
  · exact fun hfits => (h.fits hfits).reused hkitty htransmitted hpixels hcache hcount placement
  · rw [hcache]
    exact .markPlaced hlt

/-- The slot for an image that is missing is not one that the frame has placed, when there are slots
enough. -/
theorem adopted (h : Progress support oldest count start images done p rs)
    (hkitty : command.1.protocol.resolve support = .kitty) (himage : contentOf command ∈ images)
    (hnew : ∀ j, (p.cache.slot j).transmitted = true → (p.cache.slot j).pixels ≠ contentOf command)
    (hcache : p'.cache = (p.cache.adopt (slotFor p.cache.nextNumber command.1
      (fingerprint command.2))).markPlaced p.cache.chooseSlot.2)
    (hcount : p'.stats.transmitted = p.stats.transmitted + 1)
    (hlength : p'.stats.handled = (done ++ [command]).length) (placement : Placement) :
    Progress support oldest count start images (done ++ [command]) p' (rs ++
        ((p.cache.slot p.cache.chooseSlot.2).evictions ++
          [.transmit p.cache.nextNumber (pictureOf command)] ++
            [.place p.cache.nextNumber placement])) ∧
      (images.card ≤ maxSlots → p.cache.KeepsPlaced p'.cache) := by
  have hsize := h.orderly.size_le
  have hlt := (size_adopt hsize
    (slotFor p.cache.nextNumber command.1 (fingerprint command.2))).2
  have hslot := slot_adopt hsize
    (slotFor p.cache.nextNumber command.1 (fingerprint command.2))
  have hself := (hslot p.cache.chooseSlot.2).trans (if_pos rfl)
  have hunplaced (hfits : images.card ≤ maxSlots) :=
    h.orderly.amid.not_placed_chooseSlot h.orderly.pixels hfits himage hnew
  have hadopted := h.orderly.adopt
    (s := slotFor p.cache.nextNumber command.1 (fingerprint command.2)) rfl rfl hnew
  refine ⟨⟨?_, ?_, hlength, ?_⟩, ?_⟩
  · rw [hcache]
    refine hadopted.markPlaced ?_ ?_
    · rw [hself]
      rfl
    · rw [hself]
      exact himage
  · rw [hcache, transmissionsIn_adoption]
    exact (h.dated.adopt rfl).of_sameImage (size_markPlaced _) rfl (sameImage_markPlaced hlt)
  · intro hfits
    exact (h.fits hfits).adopted hkitty h.orderly h.dated (hunplaced hfits) hnew hcache hcount
      placement
  · intro hfits
    rw [hcache]
    exact (KeepsPlaced.of_slot (hunplaced hfits)
      fun j hj => (hslot j).trans (if_neg hj.symm)).trans (.markPlaced hlt)

theorem passed (h : Progress support oldest count start images done p rs)
    (hother : command.1.protocol.resolve support ≠ .kitty) (hcache : p'.cache = p.cache)
    (hcount : p'.stats.transmitted = p.stats.transmitted)
    (hlength : p'.stats.handled = (done ++ [command]).length) :
    Progress support oldest count start images (done ++ [command]) p' rs ∧
      p.cache.KeepsPlaced p'.cache := by
  refine ⟨⟨?_, ?_, hlength, fun hfits => (h.fits hfits).passed hother hcache hcount⟩, ?_⟩
  · rw [hcache]
    exact h.orderly
  · rw [hcache]
    exact h.dated
  · rw [hcache]
    exact .refl _

theorem handles (h : Progress support oldest count start images done p rs)
    (himage : command.1.protocol.resolve support = .kitty → contentOf command ∈ images)
    (hhandled : p'.stats.handled = p.stats.handled + 1) (hok : Handles support command p p' ss) :
    Progress support oldest count start images (done ++ [command]) p' (rs ++ ss) ∧
      (images.card ≤ maxSlots → p.cache.KeepsPlaced p'.cache) := by
  have hlength : p'.stats.handled = (done ++ [command]).length := by
    rw [hhandled, h.handled, List.length_append, List.length_singleton]
  cases hok with
  | passed hother hcache hcount =>
    rw [List.append_nil]
    exact (h.passed hother hcache hcount hlength).imp_right fun hkeeps _ => hkeeps
  | served hkitty hserves =>
    cases hserves with
    | reused htransmitted hpixels hcache hcount =>
      exact (h.reused hkitty (himage hkitty) htransmitted hpixels hcache hcount hlength _).imp_right
        fun hkeeps _ => hkeeps
    | adopted hnew hcache hcount =>
      exact h.adopted hkitty (himage hkitty) hnew hcache hcount hlength _

theorem display (h : Progress support oldest count start images done p rs) {scratch : Scratch}
    (himage : command.1.protocol.resolve support = .kitty → contentOf command ∈ images)
    (hok : p.display png support scratch command = .ok p') :
    ∃ ss, p.Sent p' ss ∧
      Progress support oldest count start images (done ++ [command]) p' (rs ++ ss) ∧
      (images.card ≤ maxSlots → p.cache.KeepsPlaced p'.cache) := by
  obtain ⟨hhandled, ss, hsent, hhandles⟩ := handles_of_display h.orderly.size_le hok
  exact ⟨ss, hsent, h.handles himage hhandled hhandles⟩

/-- The commands of a frame in order. -/
theorem displayAll (h : Progress support oldest count start images done p rs) {scratch : Scratch}
    {commands : List (ImageCommand × ByteArray)}
    (himages : ∀ c ∈ commands, c.1.protocol.resolve support = .kitty → contentOf c ∈ images)
    (hok : commands.foldlM (fun s c => s.display png support scratch c) p = .ok p') :
    ∃ ss, p.Sent p' ss ∧
      Progress support oldest count start images (done ++ commands) p' (rs ++ ss) ∧
      (images.card ≤ maxSlots → p.cache.KeepsPlaced p'.cache) := by
  induction commands generalizing p done rs with
  | nil =>
    cases hok
    refine ⟨[], .refl _, ?_, fun _ => .refl _⟩
    rwa [List.append_nil, List.append_nil]
  | cons c commands ih =>
    obtain ⟨next, hnext, hrest⟩ := exists_of_bind_eq_ok hok
    obtain ⟨ss, hsent, hprogress, hkeeps⟩ := h.display (himages c (by simp)) hnext
    obtain ⟨ss', hsent', hprogress', hkeeps'⟩ :=
      ih hprogress (fun c' hc' => himages c' (by simp [hc'])) hrest
    refine ⟨ss ++ ss', hsent.trans hsent', ?_, fun hfits => (hkeeps hfits).trans (hkeeps' hfits)⟩
    rwa [List.append_assoc, List.append_assoc] at hprogress'

theorem dropUnplaced (h : Progress support oldest count start images done p rs)
    (hok : p.dropUnplaced i = .ok p') :
    ∃ ss, p.Sent p' ss ∧ Progress support oldest count start images done p' (rs ++ ss) := by
  rcases dropUnplaced_cases hok with
    ⟨rfl, -⟩ | ⟨htransmitted, hunplaced, hcache, hsent, hcount, hhandled⟩
  · refine ⟨[], .refl _, ?_⟩
    rwa [List.append_nil]
  · have hlt := lt_of_transmitted htransmitted
    refine ⟨_, hsent, ?_, ?_, hhandled.trans h.handled, ?_⟩
    · rw [hcache]
      exact h.orderly.drop hlt
    · rw [hcache, transmissionsIn_evictions]
      exact h.dated.drop hlt
    · exact fun hfits => (h.fits hfits).drop h.dated htransmitted hunplaced hcache hcount

theorem dropAll (h : Progress support oldest count start images done p rs) {is : List Nat}
    (hok : is.foldlM Presentation.dropUnplaced p = .ok p') :
    ∃ ss, p.Sent p' ss ∧ Progress support oldest count start images done p' (rs ++ ss) := by
  induction is generalizing p rs with
  | nil =>
    cases hok
    refine ⟨[], .refl _, ?_⟩
    rwa [List.append_nil]
  | cons i is ih =>
    obtain ⟨next, hnext, hrest⟩ := exists_of_bind_eq_ok hok
    obtain ⟨ss, hsent, hprogress⟩ := h.dropUnplaced hnext
    obtain ⟨ss', hsent', hprogress'⟩ := ih hprogress hrest
    refine ⟨ss ++ ss', hsent.trans hsent', ?_⟩
    rwa [List.append_assoc] at hprogress'

end Progress

end Progress

end Presentation

end CellCanvas
