import CellCanvas.Image.Presenter
import CellCanvas.Proofs.Image.Kitty
import CellCanvas.Proofs.Image.Mirror

/-!
# What a presentation sends

Every step of a presentation appends a text of whole sequences and changes the cache. A step
`Advances` when a terminal that is mirrored before it is mirrored after it has acted on the requests
of that text, and has shown what the step was asked to show.
-/

namespace CellCanvas

open Kitty ImageCache

namespace Kitty

/-- Where a command wants its image. -/
def Placement.of (c : ImageCommand) : Placement := ⟨c.column, c.row, c.columns, c.rows, c.z⟩

end Kitty

theorem Output.pending_append {o o' : Output} {bytes : ByteArray} (h : o.append bytes = .ok o') :
    o'.pending = o.pending ++ bytes := by
  unfold append at h
  split_ifs at h
  cases h
  rfl

/-- The commands that were handled, each in one way. -/
def PresentStats.handled (s : PresentStats) : Nat :=
  s.transmitted + s.reused + s.encoded + s.skipped

namespace Presentation

/-- The second presentation has sent a text with these requests after the first. -/
def Sent (p p' : Presentation) (requests : List Request) : Prop :=
  ∃ text : String, Carries text requests ∧
    p'.output.pending = p.output.pending ++ text.toUTF8

variable {p p' p'' : Presentation} {rs ss : List Request}

theorem Sent.refl (p : Presentation) : p.Sent p [] :=
  ⟨"", .empty, by simp⟩

theorem Sent.trans (h : p.Sent p' rs) (h' : p'.Sent p'' ss) : p.Sent p'' (rs ++ ss) := by
  obtain ⟨s, hs, hp⟩ := h
  obtain ⟨t, ht, hp'⟩ := h'
  refine ⟨s ++ t, hs.append ht, ?_⟩
  rw [hp', hp, String.toUTF8_eq_toByteArray, String.toUTF8_eq_toByteArray,
    String.toUTF8_eq_toByteArray, String.toByteArray_append, ByteArray.append_assoc]

theorem send_ok {text : String} (hok : p.send text = .ok p') (h : Carries text rs) :
    p'.cache = p.cache ∧ p.Sent p' rs := by
  obtain ⟨output, happend, hok⟩ := exists_of_bind_eq_ok hok
  cases hok
  exact ⟨rfl, text, h, Output.pending_append happend⟩

theorem place_ok {i : Nat} {c : ImageCommand} (hok : p.place i c = .ok p') :
    p'.cache = p.cache.markPlaced i ∧
      p.Sent p' [.place (p.cache.slot i).number (.of c)] := by
  obtain ⟨text, htext, hok⟩ := exists_of_bind_eq_ok hok
  obtain ⟨next, hsend, hok⟩ := exists_of_bind_eq_ok hok
  obtain ⟨hcache, hsent⟩ := send_ok hsend (carries_place htext)
  cases hok
  exact ⟨by rw [hcache], hsent⟩

theorem evict_ok {i : Nat} (hok : p.evict i = .ok p') :
    p'.cache = p.cache ∧ p.Sent p' (p.cache.slot i).evictions := by
  unfold evict at hok
  unfold ImageSlot.evictions
  by_cases hi : (p.cache.slot i).transmitted = true
  · rw [if_pos hi] at hok ⊢
    obtain ⟨text, htext, hok⟩ := exists_of_bind_eq_ok hok
    obtain ⟨next, hsend, hok⟩ := exists_of_bind_eq_ok hok
    obtain ⟨hcache, hsent⟩ := send_ok hsend (carries_delete htext)
    cases hok
    exact ⟨hcache, hsent⟩
  · rw [if_neg hi] at hok ⊢
    cases hok
    exact ⟨rfl, .refl p⟩

/-- What an image is recorded as when it has been transmitted under a number. -/
def slotFor (number : Nat) (c : ImageCommand) (hash : UInt64) : ImageSlot :=
  { number, callerId := c.callerId, hash, width := c.width, height := c.height
    transmitted := true }

theorem transmit_ok {c : ImageCommand} {bytes : ByteArray} {hash : UInt64}
    (hok : p.transmit c bytes hash = .ok p') :
    ∃ chosen i, p.cache.chooseSlot = (chosen, i) ∧
      p'.cache = (chosen.takeNumber.1.setSlot i (slotFor chosen.nextNumber c hash)).markPlaced i ∧
      p.Sent p' ((chosen.slot i).evictions ++
        [.transmit chosen.nextNumber (.ofBytes bytes c.width c.height),
          .place ((chosen.takeNumber.1.setSlot i (slotFor chosen.nextNumber c hash)).slot i).number
            (.of c)]) := by
  obtain ⟨chosen, i, hchosen⟩ : ∃ chosen i, p.cache.chooseSlot = (chosen, i) := ⟨_, _, rfl⟩
  refine ⟨chosen, i, hchosen, ?_⟩
  unfold transmit at hok
  rw [hchosen] at hok
  obtain ⟨⟨cache, output, stats⟩, hevict, hrest⟩ := exists_of_bind_eq_ok hok
  obtain ⟨rfl, hsent⟩ : cache = chosen ∧ _ := evict_ok hevict
  obtain ⟨text, htext, hrest⟩ := exists_of_bind_eq_ok hrest
  obtain ⟨sent, hsend, hrest⟩ := exists_of_bind_eq_ok hrest
  obtain ⟨placed, hplace, hrest⟩ := exists_of_bind_eq_ok hrest
  cases hrest
  obtain ⟨hcache', hsent'⟩ := send_ok hsend (carries_transmit htext)
  obtain ⟨hcache'', hsent''⟩ := place_ok hplace
  rw [hcache'] at hcache'' hsent''
  exact ⟨hcache'', hsent.trans (hsent'.trans hsent'')⟩

theorem carries_sixelText {c : ImageCommand} {bytes : ByteArray} {support : ImageSupport}
    {scratch : Scratch} {text : String} (h : (sixelText c bytes support scratch).1 = .ok text) :
    Carries text [] := by
  unfold sixelText at h
  by_cases hformat : c.format ≠ .rgba
  · rw [if_pos hformat] at h
    cases h
  rw [if_neg hformat] at h
  obtain ⟨target, after, -, h⟩ := Scratch.exists_of_bind_eq_ok h
  obtain ⟨pixels, after, -, h⟩ := Scratch.exists_of_bind_eq_ok (s := after) h
  obtain ⟨image, rfl⟩ := Sixel.exists_of_encode_eq_ok h
  exact carries_other (Sixel.spells_encodeIndexed image _ _ _ _) (by decide)

theorem carries_inlineText {png : PngEncoder} {c : ImageCommand} {bytes : ByteArray}
    {support : ImageSupport} {scratch : Scratch} {text : String}
    (h : (inlineText png c bytes support scratch).1 = .ok text) : Carries text [] := by
  unfold inlineText at h
  by_cases hformat : c.format = .png
  · rw [if_pos hformat] at h
    exact carries_other (InlineFile.spells_encode h) (by decide)
  rw [if_neg hformat] at h
  obtain ⟨target, after, -, h⟩ := Scratch.exists_of_bind_eq_ok h
  obtain ⟨pixels, after, -, h⟩ := Scratch.exists_of_bind_eq_ok (s := after) h
  obtain ⟨file, after, -, h⟩ := Scratch.exists_of_bind_eq_ok (s := after) h
  exact carries_other (InlineFile.spells_encode h) (by decide)

theorem encoded_ok {text : Scratching String} {scratch : Scratch}
    (hok : p.encoded text scratch = .ok p')
    (h : ∀ {t}, (text scratch).1 = .ok t → Carries t []) : p'.cache = p.cache ∧ p.Sent p' [] := by
  obtain ⟨t, htext, hok⟩ := exists_of_bind_eq_ok hok
  obtain ⟨sent, hsend, hok⟩ := exists_of_bind_eq_ok hok
  obtain ⟨hcache, hsent⟩ := send_ok hsend (h htext)
  cases hok
  exact ⟨hcache, hsent⟩

theorem stats_send {text : String} (hok : p.send text = .ok p') : p'.stats = p.stats := by
  obtain ⟨output, -, hok⟩ := exists_of_bind_eq_ok hok
  cases hok
  rfl

theorem stats_place {i : Nat} {c : ImageCommand} (hok : p.place i c = .ok p') :
    p'.stats = p.stats := by
  obtain ⟨text, -, hok⟩ := exists_of_bind_eq_ok hok
  obtain ⟨next, hsend, hok⟩ := exists_of_bind_eq_ok hok
  have hstats := stats_send hsend
  cases hok
  exact hstats

theorem stats_evict {i : Nat} (hok : p.evict i = .ok p') :
    p'.stats.transmitted = p.stats.transmitted ∧ p'.stats.handled = p.stats.handled := by
  unfold evict at hok
  split_ifs at hok
  · obtain ⟨text, -, hok⟩ := exists_of_bind_eq_ok hok
    obtain ⟨next, hsend, hok⟩ := exists_of_bind_eq_ok hok
    cases hok
    rw [← stats_send hsend]
    exact ⟨rfl, rfl⟩
  · cases hok
    exact ⟨rfl, rfl⟩

theorem stats_transmit {c : ImageCommand} {bytes : ByteArray} {hash : UInt64}
    (hok : p.transmit c bytes hash = .ok p') :
    p'.stats.transmitted = p.stats.transmitted + 1 ∧
      p'.stats.handled = p.stats.handled + 1 := by
  obtain ⟨chosen, i, hchosen⟩ : ∃ chosen i, p.cache.chooseSlot = (chosen, i) := ⟨_, _, rfl⟩
  unfold transmit at hok
  rw [hchosen] at hok
  obtain ⟨evicted, hevict, hok⟩ := exists_of_bind_eq_ok hok
  obtain ⟨text, -, hok⟩ := exists_of_bind_eq_ok hok
  obtain ⟨sent, hsend, hok⟩ := exists_of_bind_eq_ok hok
  obtain ⟨placed, hplace, hok⟩ := exists_of_bind_eq_ok hok
  obtain ⟨htransmitted, hhandled⟩ := stats_evict hevict
  have hsame := stats_send hsend
  have hstats : placed.stats = evicted.stats := (stats_place hplace).trans hsame
  rw [← hstats] at htransmitted hhandled
  cases hok
  refine ⟨congrArg (· + 1) htransmitted, ?_⟩
  simp only [PresentStats.handled] at hhandled ⊢
  omega

theorem stats_encoded {text : Scratching String} {scratch : Scratch}
    (hok : p.encoded text scratch = .ok p') :
    p'.stats.transmitted = p.stats.transmitted ∧ p'.stats.handled = p.stats.handled + 1 := by
  obtain ⟨t, -, hok⟩ := exists_of_bind_eq_ok hok
  obtain ⟨sent, hsend, hok⟩ := exists_of_bind_eq_ok hok
  have hstats := stats_send hsend
  cases hok
  simp only [PresentStats.handled, hstats, true_and]
  omega

/-- An image is found and placed, or it is missing and transmitted. -/
theorem kitty_cases {c : ImageCommand} {bytes : ByteArray} (hok : p.kitty c bytes = .ok p') :
    (∃ i placed, p.cache.find? c.callerId (fingerprint bytes) c.width c.height = some i ∧
      p.place i c = .ok placed ∧
        p' = { placed with stats := { placed.stats with reused := placed.stats.reused + 1 } }) ∨
      p.cache.find? c.callerId (fingerprint bytes) c.width c.height = none ∧
        p.transmit c bytes (fingerprint bytes) = .ok p' := by
  unfold kitty at hok
  by_cases hformat : c.format ≠ .rgba
  · rw [if_pos hformat] at hok
    cases hok
  rw [if_neg hformat] at hok
  dsimp only [pure_bind] at hok
  cases hfound : p.cache.find? c.callerId (fingerprint bytes) c.width c.height with
  | some i =>
    rw [hfound] at hok
    obtain ⟨placed, hplace, hrest⟩ := exists_of_bind_eq_ok hok
    cases hrest
    exact .inl ⟨i, placed, rfl, hplace, rfl⟩
  | none =>
    rw [hfound] at hok
    exact .inr ⟨rfl, hok⟩

/-- Only commands for a terminal that keeps pictures concern the cache and make requests. -/
theorem display_cases {png : PngEncoder} {support : ImageSupport} {scratch : Scratch}
    {command : ImageCommand × ByteArray} (hok : p.display png support scratch command = .ok p') :
    command.1.protocol.resolve support = .kitty ∧ p.kitty command.1 command.2 = .ok p' ∨
      command.1.protocol.resolve support ≠ .kitty ∧ p'.cache = p.cache ∧ p.Sent p' [] ∧
        p'.stats.transmitted = p.stats.transmitted ∧
          p'.stats.handled = p.stats.handled + 1 := by
  unfold display at hok
  dsimp only at hok
  cases hprotocol : command.1.protocol.resolve support with
  | kitty =>
    rw [hprotocol] at hok
    exact .inl ⟨rfl, hok⟩
  | sixel =>
    rw [hprotocol] at hok
    obtain ⟨hcache, hsent⟩ := encoded_ok hok carries_sixelText
    exact .inr ⟨by decide, hcache, hsent, stats_encoded hok⟩
  | iterm2 =>
    rw [hprotocol] at hok
    obtain ⟨hcache, hsent⟩ := encoded_ok hok carries_inlineText
    exact .inr ⟨by decide, hcache, hsent, stats_encoded hok⟩
  | none =>
    rw [hprotocol] at hok
    cases hok
    exact .inr ⟨by decide, rfl, .refl p, rfl, rfl⟩

/-- A slot without an image and one that has been placed are kept, every other slot is emptied. -/
theorem dropUnplaced_cases {i : Nat} (hok : p.dropUnplaced i = .ok p') :
    (p' = p ∧ ((p'.cache.slot i).transmitted = true → (p'.cache.slot i).placed = true)) ∨
      (p.cache.slot i).transmitted = true ∧ (p.cache.slot i).placed = false ∧
        p'.cache = p.cache.setSlot i {} ∧ p.Sent p' (p.cache.slot i).evictions ∧
          p'.stats.transmitted = p.stats.transmitted ∧ p'.stats.handled = p.stats.handled := by
  unfold dropUnplaced at hok
  dsimp only at hok
  by_cases hdrop : ((p.cache.slot i).transmitted && !(p.cache.slot i).placed) = true
  · rw [if_pos hdrop] at hok
    obtain ⟨htransmitted, hunplaced⟩ : (p.cache.slot i).transmitted = true ∧
        (p.cache.slot i).placed = false := by simpa using hdrop
    obtain ⟨evicted, hevict, hrest⟩ := exists_of_bind_eq_ok hok
    obtain ⟨hcache, hsent⟩ := evict_ok hevict
    obtain ⟨hcount, hhandled⟩ := stats_evict hevict
    cases hrest
    exact .inr ⟨htransmitted, hunplaced, by rw [hcache], hsent, hcount, hhandled⟩
  · rw [if_neg hdrop] at hok
    cases hok
    exact .inl ⟨rfl, fun hi => by simpa [hi] using hdrop⟩

/-- A terminal that is mirrored before the step is mirrored after it, as long as numbers are left,
and has been asked to show these pictures. -/
def Advances (blobs : Set ByteArray) (p p' : Presentation) (asked : List (Picture × Placement)) :
    Prop :=
  ∃ requests, p.Sent p' requests ∧ ∀ t, p.cache.Mirrors blobs t →
    (t.actAll requests).transmissions < lastNumber →
      p'.cache.Mirrors blobs (t.actAll requests) ∧
        (t.actAll requests).shown.map Showing.content = t.shown.map Showing.content ++ asked

namespace Advances

variable {blobs : Set ByteArray} {as bs : List (Picture × Placement)}

theorem refl (p : Presentation) : Advances blobs p p [] :=
  ⟨[], .refl p, fun _ h _ => ⟨h, (List.append_nil _).symm⟩⟩

theorem trans (h : Advances blobs p p' as) (h' : Advances blobs p' p'' bs) :
    Advances blobs p p'' (as ++ bs) := by
  obtain ⟨rs, hsent, hmirror⟩ := h
  obtain ⟨ss, hsent', hmirror'⟩ := h'
  refine ⟨rs ++ ss, hsent.trans hsent', ?_⟩
  intro t ht hfew
  rw [Terminal.actAll_append] at hfew ⊢
  obtain ⟨hfirst, hshown⟩ := hmirror t ht ((Terminal.transmissions_le _ ss).trans_lt hfew)
  obtain ⟨hsecond, hshown'⟩ := hmirror' _ hfirst hfew
  refine ⟨hsecond, ?_⟩
  rw [hshown', hshown, List.append_assoc]

/-- A step that leaves the cache alone and makes no request. -/
theorem of_cache_eq (hcache : p'.cache = p.cache) (hsent : p.Sent p' []) :
    Advances blobs p p' [] := by
  refine ⟨[], hsent, ?_⟩
  intro t ht _
  rw [hcache]
  exact ⟨ht, (List.append_nil _).symm⟩

end Advances

variable {blobs : Set ByteArray}

/-- An image whose pixels are on the terminal is shown from there. -/
theorem advances_reused (separate : Set.InjOn fingerprint blobs) {c : ImageCommand}
    {bytes : ByteArray} (hbytes : bytes ∈ blobs) {i : Nat}
    (hfound : p.cache.find? c.callerId (fingerprint bytes) c.width c.height = some i)
    (hok : p.place i c = .ok p') :
    Advances blobs p p' [(.ofBytes bytes c.width c.height, .of c)] := by
  obtain ⟨htransmitted, hhash, hwidth, hheight⟩ := holds_iff.mp (holds_of_find? hfound)
  obtain ⟨hcache, hsent⟩ := place_ok hok
  refine ⟨_, hsent, ?_⟩
  intro t ht _
  obtain ⟨old, hold, hsame, hact⟩ := ht.act_place htransmitted (.of c)
  obtain rfl := separate hold hbytes (hsame.trans hhash)
  have hmirrors := ht.place htransmitted (.of c)
  rw [hact, hwidth, hheight] at hmirrors
  rw [hcache, Terminal.actAll_cons, Terminal.actAll_nil, hact, hwidth, hheight]
  exact ⟨hmirrors, List.map_append⟩

theorem shown_evictions (t : Terminal) (s : ImageSlot) :
    (t.actAll s.evictions).shown = t.shown ∧
      (t.actAll s.evictions).transmissions = t.transmissions := by
  unfold ImageSlot.evictions
  split_ifs
  · exact ⟨rfl, rfl⟩
  · exact ⟨rfl, rfl⟩

/-- An image that is not on the terminal is transmitted and shown. -/
theorem advances_transmitted (separate : Set.InjOn fingerprint blobs) {c : ImageCommand}
    {bytes : ByteArray} (hbytes : bytes ∈ blobs)
    (hfound : p.cache.find? c.callerId (fingerprint bytes) c.width c.height = none)
    (hok : p.transmit c bytes (fingerprint bytes) = .ok p') :
    Advances blobs p p' [(.ofBytes bytes c.width c.height, .of c)] := by
  obtain ⟨chosen, i, hchosen, hcache, hsent⟩ := transmit_ok hok
  refine ⟨_, hsent, ?_⟩
  intro t ht hfew
  obtain ⟨hslot, -, -, hlt⟩ := chooseSlot_spec ht.size_le
  have hroom := ht.chooseSlot
  rw [hchosen] at hslot hlt hroom
  obtain ⟨hkept, hcount⟩ := shown_evictions t (chosen.slot i)
  rw [Terminal.actAll_append, Terminal.actAll_cons, Terminal.actAll_cons, Terminal.actAll_nil]
    at hfew ⊢
  have hnew (j : Nat) (hj : (chosen.slot j).transmitted = true) :
      (chosen.slot j).pixels ≠ (fingerprint bytes, c.width, c.height) := by
    rw [hslot] at hj ⊢
    exact pixels_ne_of_find? hfound hj
  have hfew' : t.transmissions + 1 < lastNumber := by
    rw [← hcount]
    exact (Terminal.transmissions_act_le _ _).trans_lt hfew
  have hstored := hroom.replace hlt hbytes (slotFor chosen.nextNumber c (fingerprint bytes))
    rfl rfl rfl rfl hnew hfew'
  have hslot' : (chosen.takeNumber.1.setSlot i
      (slotFor chosen.nextNumber c (fingerprint bytes))).slot i =
        slotFor chosen.nextNumber c (fingerprint bytes) :=
    (slot_setSlot _ hlt i).trans (if_pos rfl)
  have htransmitted : ((chosen.takeNumber.1.setSlot i
      (slotFor chosen.nextNumber c (fingerprint bytes))).slot i).transmitted = true := by
    rw [hslot']
    rfl
  obtain ⟨old, hold, hsame, hact⟩ := hstored.act_place htransmitted (.of c)
  have hmirrors := hstored.place htransmitted (.of c)
  rw [hslot'] at hsame hact hmirrors ⊢
  obtain rfl := separate hold hbytes hsame
  rw [hcache]
  refine ⟨hmirrors, ?_⟩
  have hfinal := congrArg Terminal.shown hact
  exact (congrArg (List.map Showing.content) (hfinal.trans (congrArg (· ++ _) hkept))).trans
    List.map_append

end Presentation

end CellCanvas
