import CellCanvas.Proofs.Image.Gallery
import CellCanvas.Proofs.Image.Presenter

/-!
# Frames before a gallery

A gallery reads what a presenter sends over any sequence of calls. After a frame of at most 64
images everything that the frame asked for is on show. What else is on show are earlier placements
of images that the frame shows again: an image that is still in the cache is only placed once more,
and nothing takes the earlier placement away. So the gallery is exact just when every such placement
is one that the frame asked for too.
-/

namespace CellCanvas

open Kitty ImageCache

namespace Presentation

/-- The images of commands by their bytes and sizes, for a terminal with some support. -/
def kittyImages (support : ImageSupport) (commands : List (ImageCommand × ByteArray)) :
    Finset (ByteArray × Nat × Nat) :=
  ((commands.filter fun c => c.1.protocol.resolve support = .kitty).map fun c =>
    (c.2, c.1.width, c.1.height)).toFinset

/-- What the cache knows an image by. -/
def keyOf (image : ByteArray × Nat × Nat) : UInt64 × Nat × Nat :=
  (fingerprint image.1, image.2)

/-- A gallery that is curated before the step is curated after it, as long as numbers are left. -/
def Upholds (blobs : Set ByteArray) (images : Finset (UInt64 × Nat × Nat)) (p p' : Presentation) :
    Prop :=
  ∃ requests, p.Sent p' requests ∧ ∀ start old g, Curates blobs start images old p.cache g →
    (g.terminal.actAll requests).transmissions < lastNumber →
      Curates blobs start images old p'.cache (g.actAll requests)

variable {blobs : Set ByteArray} {images : Finset (UInt64 × Nat × Nat)}
variable {p p' p'' : Presentation}

namespace Upholds

theorem refl (p : Presentation) : Upholds blobs images p p :=
  ⟨[], .refl p, fun _ _ _ h _ => h⟩

theorem trans (h : Upholds blobs images p p') (h' : Upholds blobs images p' p'') :
    Upholds blobs images p p'' := by
  obtain ⟨rs, hsent, hcurates⟩ := h
  obtain ⟨ss, hsent', hcurates'⟩ := h'
  refine ⟨rs ++ ss, hsent.trans hsent', ?_⟩
  intro start old g hg hfew
  rw [Terminal.actAll_append] at hfew
  rw [Gallery.actAll_append]
  have hfirst := hcurates start old g hg ((Terminal.transmissions_le _ ss).trans_lt hfew)
  exact hcurates' start old _ hfirst (by rwa [Gallery.terminal_actAll])

theorem of_cache_eq (hcache : p'.cache = p.cache) (hsent : p.Sent p' []) :
    Upholds blobs images p p' := by
  refine ⟨[], hsent, ?_⟩
  intro start old g hg _
  rw [hcache]
  exact hg

end Upholds

/-- An image of the frame that is on the terminal is placed. -/
theorem upholds_reused {c : ImageCommand} {bytes : ByteArray}
    (himage : (fingerprint bytes, c.width, c.height) ∈ images) {i : Nat}
    (hfound : p.cache.find? c.callerId (fingerprint bytes) c.width c.height = some i)
    (hok : p.place i c = .ok p') : Upholds blobs images p p' := by
  obtain ⟨htransmitted, hpixels⟩ := holds_iff_pixels.mp (holds_of_find? hfound)
  obtain ⟨hcache, hsent⟩ := place_ok hok
  refine ⟨_, hsent, ?_⟩
  intro start old g hg _
  rw [hcache]
  exact hg.place htransmitted (hpixels ▸ himage) _

/-- An image of the frame that is not on the terminal is transmitted and placed. -/
theorem upholds_transmitted {c : ImageCommand} {bytes : ByteArray} (hbytes : bytes ∈ blobs)
    (himage : (fingerprint bytes, c.width, c.height) ∈ images)
    (hfound : p.cache.find? c.callerId (fingerprint bytes) c.width c.height = none)
    (hok : p.transmit c bytes (fingerprint bytes) = .ok p') : Upholds blobs images p p' := by
  obtain ⟨chosen, i, hchosen, hcache, hsent⟩ := transmit_ok hok
  refine ⟨_, hsent, ?_⟩
  intro start old g hg hfew
  obtain ⟨hslot, -, -, hlt⟩ := chooseSlot_spec hg.mirrors.size_le
  have hroom := hg.chooseSlot
  have hmissing (j : Nat) (hj : (p.cache.slot j).transmitted = true) :
      (p.cache.slot j).pixels ≠ (fingerprint bytes, c.width, c.height) :=
    pixels_ne_of_find? hfound hj
  have hunplaced (hfits : images.card ≤ maxSlots) :=
    hg.amid.not_placed_chooseSlot hg.mirrors.pixels hfits himage hmissing
  simp only [← hslot] at hmissing hunplaced
  rw [hchosen] at hmissing hunplaced hlt hroom
  rw [Terminal.actAll_append, Terminal.actAll_cons, Terminal.actAll_cons, Terminal.actAll_nil]
    at hfew
  have hnumbers : g.terminal.transmissions + 1 < lastNumber := by
    rw [← (shown_evictions g.terminal (chosen.slot i)).2]
    exact (Terminal.transmissions_act_le _ _).trans_lt hfew
  have hstored := hroom.replace hlt hunplaced hbytes
    (slotFor chosen.nextNumber c (fingerprint bytes)) rfl rfl rfl rfl rfl hmissing hnumbers
  have hslot' : (chosen.takeNumber.1.setSlot i
      (slotFor chosen.nextNumber c (fingerprint bytes))).slot i =
        slotFor chosen.nextNumber c (fingerprint bytes) :=
    (slot_setSlot _ hlt i).trans (if_pos rfl)
  have hplaced := hstored.place (i := i) (by rw [hslot']; rfl) (by rw [hslot']; exact himage)
    (.of c)
  rw [hcache, Gallery.actAll_append]
  exact hplaced

theorem upholds_kitty {c : ImageCommand} {bytes : ByteArray} (hbytes : bytes ∈ blobs)
    (himage : (fingerprint bytes, c.width, c.height) ∈ images) (hok : p.kitty c bytes = .ok p') :
    Upholds blobs images p p' := by
  rcases kitty_cases hok with ⟨i, placed, hfound, hplace, rfl⟩ | ⟨hfound, hok⟩
  · have hupholds : Upholds blobs images p placed := upholds_reused himage hfound hplace
    exact hupholds
  · exact upholds_transmitted hbytes himage hfound hok

/-- One command. Only Kitty images concern the cache. -/
theorem upholds_display {png : PngEncoder} {support : ImageSupport} {scratch : Scratch}
    {command : ImageCommand × ByteArray} (hbytes : command.2 ∈ blobs)
    (himage : command.1.protocol.resolve support = .kitty →
      (fingerprint command.2, command.1.width, command.1.height) ∈ images)
    (hok : p.display png support scratch command = .ok p') : Upholds blobs images p p' := by
  rcases display_cases hok with ⟨hkitty, hok⟩ | ⟨-, hcache, hsent, -⟩
  · exact upholds_kitty hbytes (himage hkitty) hok
  · exact .of_cache_eq hcache hsent

theorem mem_kittyImages {support : ImageSupport} {commands : List (ImageCommand × ByteArray)}
    {command : ImageCommand × ByteArray} (h : command ∈ commands)
    (hkitty : command.1.protocol.resolve support = .kitty) :
    (command.2, command.1.width, command.1.height) ∈ kittyImages support commands := by
  rw [kittyImages, List.mem_toFinset, List.mem_map]
  exact ⟨command, List.mem_filter.mpr ⟨h, decide_eq_true hkitty⟩, rfl⟩

/-- The commands of a frame in order. -/
theorem upholds_displayAll {png : PngEncoder} {support : ImageSupport} {scratch : Scratch}
    {commands : List (ImageCommand × ByteArray)} (hbytes : ∀ c ∈ commands, c.2 ∈ blobs)
    (himages : ∀ c ∈ commands, c.1.protocol.resolve support = .kitty →
      (fingerprint c.2, c.1.width, c.1.height) ∈ images)
    (hok : commands.foldlM (fun s c => s.display png support scratch c) p = .ok p') :
    Upholds blobs images p p' := by
  induction commands generalizing p with
  | nil =>
    cases hok
    exact .refl _
  | cons c commands ih =>
    obtain ⟨next, hnext, hrest⟩ := exists_of_bind_eq_ok hok
    have hfirst : Upholds blobs images p next :=
      upholds_display (hbytes c (by simp)) (himages c (by simp)) hnext
    exact hfirst.trans (ih (fun c' hc' => hbytes c' (by simp [hc']))
      (fun c' hc' => himages c' (by simp [hc'])) hrest)

/-- Deleting the image of a slot that has not been placed. -/
theorem upholds_dropUnplaced {i : Nat} (hok : p.dropUnplaced i = .ok p') :
    Upholds blobs images p p' := by
  rcases dropUnplaced_cases hok with ⟨rfl, -⟩ | ⟨htransmitted, hunplaced, hcache, hsent, -⟩
  · exact .refl _
  · rw [ImageSlot.evictions, if_pos htransmitted] at hsent
    refine ⟨_, hsent, ?_⟩
    intro start old g hg _
    rw [hcache]
    exact hg.delete htransmitted hunplaced

theorem upholds_dropAll {is : List Nat} (hok : is.foldlM dropUnplaced p = .ok p') :
    Upholds blobs images p p' := by
  induction is generalizing p with
  | nil =>
    cases hok
    exact .refl _
  | cons i is ih =>
    obtain ⟨next, hnext, hrest⟩ := exists_of_bind_eq_ok hok
    have hfirst : Upholds blobs images p next := upholds_dropUnplaced hnext
    exact hfirst.trans (ih hrest)

end Presentation

namespace Presenter

open Presentation

variable {blobs : Set ByteArray} {png : PngEncoder} {p p' : Presenter} {f : ImageFrame}
  {support : ImageSupport}

/-- A frame that is presented is curated, whatever its images. -/
theorem upholds_compose {room : Nat} {done : Presentation} (hbytes : ∀ c ∈ f.commands, c.2 ∈ blobs)
    (hok : p.compose png f support room = .ok done) :
    Upholds blobs ((kittyImages support f.commands.toList).image keyOf)
      ⟨p.cache.beginFrame, .withLimit room, {}⟩ done := by
  obtain ⟨shown, hshown, hdrop⟩ := exists_of_bind_eq_ok hok
  have himages (c : ImageCommand × ByteArray) (hc : c ∈ f.commands.toList)
      (hkitty : c.1.protocol.resolve support = .kitty) :=
    Finset.mem_image_of_mem keyOf (mem_kittyImages hc hkitty)
  have hfirst := upholds_displayAll (fun c hc => hbytes c (by simpa using hc)) himages hshown
  exact hfirst.trans (upholds_dropAll hdrop)

/-- What is appended for a frame makes the requests that were sent for it. -/
theorem requests?_of_present {out out' : Output} {done : Presentation} {requests : List Request}
    {room : Nat} (hpending : out'.pending = out.pending ++ done.output.pending)
    (hsent : Sent ⟨p.cache.beginFrame, .withLimit room, {}⟩ done requests) :
    requests? (out'.pending.extract out.pending.size out'.pending.size) = some requests := by
  obtain ⟨text, hcarries, htext⟩ := hsent
  have hnew : done.output.pending = text.toUTF8 := htext.trans ByteArray.empty_append
  rw [hpending, ByteArray.extract_append_eq_right rfl ByteArray.size_append, hnew,
    hcarries.requests?]

end Presenter

/-- A stage before which all placements are kept that are still there. -/
structure Exhibit where
  stage : Stage
  live : List Showing

namespace Exhibit

/-- A presenter and an empty gallery. -/
def start (budget : Nat) : Exhibit := ⟨.start budget, []⟩

/-- The terminal with the placements that are on show. -/
def gallery (s : Exhibit) : Gallery := ⟨s.stage.terminal, s.live⟩

/-- The exhibit after a call. -/
def after (png : PngEncoder) (s : Exhibit) (call : PresenterCall) : Exhibit where
  stage := s.stage.after png call
  live := match call with
    | .present f support out => match s.stage.presenter.present png f support out with
      | .ok (_, out', _) =>
        (s.gallery.receive (out'.pending.extract out.pending.size out'.pending.size)).live
      | .error _ => s.live
    | .forget => []

/-- The exhibit after calls in order. -/
def run (png : PngEncoder) (s : Exhibit) (calls : List PresenterCall) : Exhibit :=
  calls.foldl (after png) s

/-- Whether what is on show is what the last frame asked for. -/
def IsExact (s : Exhibit) : Prop :=
  ∀ content, content ∈ s.live.map Showing.content ↔ content ∈ s.stage.asked

@[simp] theorem stage_after (png : PngEncoder) (s : Exhibit) (call : PresenterCall) :
    (s.after png call).stage = s.stage.after png call := rfl

theorem run_append (png : PngEncoder) (s : Exhibit) (calls calls' : List PresenterCall) :
    s.run png (calls ++ calls') = (s.run png calls).run png calls' :=
  List.foldl_append

theorem run_eq (png png' : PngEncoder) {calls : List PresenterCall}
    (h : ∀ call ∈ calls, call.sendsFile = false) (s : Exhibit) :
    s.run png calls = s.run png' calls := by
  induction calls generalizing s with
  | nil => rw [run, run, List.foldl_nil, List.foldl_nil]
  | cons call calls ih =>
    have hfirst : s.after png call = s.after png' call := by
      have hcall := h call (by simp)
      cases call with
      | forget => rfl
      | present f support out =>
        simp only [after, Stage.after_eq png png' hcall, PresenterCall.present_eq png png' hcall]
    rw [run, run, List.foldl_cons, List.foldl_cons, hfirst]
    exact ih (fun c hc => h c (by simp [hc])) _

/-- What each call keeps. -/
structure IsOpen (blobs : Set ByteArray) (s : Exhibit) : Prop where
  inStep : s.stage.InStep blobs
  tick_le : ∀ i, (s.stage.presenter.cache.slot i).tick ≤ s.stage.presenter.cache.tick
  hung : s.gallery.IsHung

variable {blobs : Set ByteArray} {png : PngEncoder} {s : Exhibit}

theorem IsOpen.start (budget : Nat) : IsOpen blobs (start budget) := by
  refine ⟨.start budget, fun _ => Nat.le_refl _, ?_⟩
  intro e he
  cases he

theorem after_error {f : ImageFrame} {support : ImageSupport} {out : Output} {failure : Failure}
    (herror : s.stage.presenter.present png f support out = .error failure) :
    s.after png (.present f support out) = s := by
  unfold after Stage.after
  simp only [herror]

theorem gallery_after {f : ImageFrame} {support : ImageSupport} {out out' : Output}
    {p : Presenter} {stats : PresentStats}
    (hok : s.stage.presenter.present png f support out = .ok (p, out', stats)) :
    (s.after png (.present f support out)).gallery =
      s.gallery.receive (out'.pending.extract out.pending.size out'.pending.size) := by
  have hterminal := s.gallery.terminal_receive
    (out'.pending.extract out.pending.size out'.pending.size)
  simp only [gallery, after, Stage.after, hok]
  exact congrArg (Gallery.mk · _) hterminal.symm

/-- What a frame that succeeds leaves. -/
theorem IsOpen.curates (h : IsOpen blobs s) {f : ImageFrame} {support : ImageSupport}
    {out out' : Output} {p : Presenter} {stats : PresentStats}
    (hbytes : ∀ c ∈ f.commands, c.2 ∈ blobs)
    (hok : s.stage.presenter.present png f support out = .ok (p, out', stats))
    (hfew : (s.after png (.present f support out)).stage.terminal.transmissions < lastNumber) :
    Curates blobs s.stage.presenter.cache.tick
      ((Presentation.kittyImages support f.commands.toList).image Presentation.keyOf) s.live
      (s.after png (.present f support out)).stage.presenter.cache
      (s.after png (.present f support out)).gallery := by
  obtain ⟨done, hdone, hcache, hpending⟩ := Presenter.present_ok hok
  obtain ⟨requests, hsent, hcurates⟩ := Presenter.upholds_compose hbytes hdone
  have hgallery : (s.after png (.present f support out)).gallery =
      ({ s.gallery with terminal.shown := [] } : Gallery).actAll requests := by
    rw [gallery_after hok, Gallery.receive, Presenter.requests?_of_present hpending hsent]
  have hpresenter : (s.after png (.present f support out)).stage.presenter.cache = done.cache := by
    simp only [stage_after, Stage.after, hok, hcache]
  have hnumbers := congrArg (fun g => g.terminal.transmissions) hgallery
  dsimp only at hnumbers
  rw [Gallery.terminal_actAll] at hnumbers
  rw [hgallery, hpresenter]
  exact hcurates _ _ _ (.beginFrame h.inStep.mirrors h.tick_le h.hung) (hnumbers ▸ hfew)

theorem IsOpen.after (h : IsOpen blobs s) (separate : Set.InjOn fingerprint blobs)
    {call : PresenterCall} (hbytes : ∀ b ∈ call.blobs, b ∈ blobs)
    (hfew : (s.after png call).stage.terminal.transmissions < lastNumber) :
    IsOpen blobs (s.after png call) := by
  have hinStep := h.inStep.after separate hbytes hfew
  cases call with
  | forget =>
    refine ⟨hinStep, fun _ => Nat.le_refl _, ?_⟩
    intro e he
    cases he
  | present f support out =>
    cases hok : s.stage.presenter.present png f support out with
    | error failure =>
      rw [after_error hok]
      exact h
    | ok result =>
      obtain ⟨p, out', stats⟩ := result
      have hbytes' (c : ImageCommand × ByteArray) (hc : c ∈ f.commands) : c.2 ∈ blobs :=
        hbytes c.2 (List.mem_map_of_mem (by simpa using hc))
      refine ⟨hinStep, (h.curates hbytes' hok hfew).amid.tick_le, ?_⟩
      rw [gallery_after hok]
      exact h.hung.receive _

theorem IsOpen.run {calls : List PresenterCall} (h : IsOpen blobs s)
    (separate : Set.InjOn fingerprint blobs)
    (hbytes : ∀ call ∈ calls, ∀ b ∈ call.blobs, b ∈ blobs)
    (hfew : ∀ n, (s.run png (calls.take n)).stage.terminal.transmissions < lastNumber) :
    IsOpen blobs (s.run png calls) := by
  induction calls generalizing s with
  | nil => exact h
  | cons call calls ih =>
    apply ih (h.after separate (hbytes call (by simp)) (hfew 1))
    · exact fun c hc => hbytes c (by simp [hc])
    · exact fun n => hfew (n + 1)

/-- What a frame adds to an exhibit. -/
structure Adds (old new : Exhibit) : Prop where
  /-- The terminal shows what the frame asked for. -/
  shows : new.stage.terminal.shown.map Showing.content = new.stage.asked
  /-- That is on show, and the older placements of what is shown again. -/
  live_iff : ∀ e, e ∈ new.live ↔ e ∈ new.stage.terminal.shown ∨
    e ∈ old.live ∧ ∃ e' ∈ new.stage.terminal.shown, e'.id = e.id

/-- Nothing else is on show just when all older placements of what is shown again are asked for. -/
theorem Adds.isExact_iff {old new : Exhibit} (h : Adds old new) :
    new.IsExact ↔ ∀ e ∈ old.live, (∃ e' ∈ new.stage.terminal.shown, e'.id = e.id) →
      e.content ∈ new.stage.asked := by
  constructor
  · intro hexact e he hagain
    exact (hexact e.content).mp (List.mem_map_of_mem ((h.live_iff e).mpr (.inr ⟨he, hagain⟩)))
  · intro hasked content
    constructor
    · intro hcontent
      obtain ⟨e, he, rfl⟩ := List.mem_map.mp hcontent
      rcases (h.live_iff e).mp he with hshown | ⟨hold, hagain⟩
      · rw [← h.shows]
        exact List.mem_map_of_mem hshown
      · exact hasked e hold hagain
    · intro hcontent
      rw [← h.shows] at hcontent
      obtain ⟨e, he, rfl⟩ := List.mem_map.mp hcontent
      exact List.mem_map_of_mem ((h.live_iff e).mpr (.inl he))

theorem IsOpen.adds (h : IsOpen blobs s) (separate : Set.InjOn fingerprint blobs)
    {f : ImageFrame} {support : ImageSupport} {out : Output}
    (hbytes : ∀ b ∈ (PresenterCall.present f support out).blobs, b ∈ blobs)
    (hfew : (s.after png (.present f support out)).stage.terminal.transmissions < lastNumber)
    (hfits : (Presentation.kittyImages support f.commands.toList).card ≤ maxSlots)
    (hok : (s.stage.presenter.present png f support out).isOk = true) :
    (s.after png (.present f support out)).stage.asked =
        f.commands.toList.flatMap (Presentation.requested support) ∧
      Adds s (s.after png (.present f support out)) := by
  have hinStep := h.inStep.after separate hbytes hfew
  cases hresult : s.stage.presenter.present png f support out with
  | error failure =>
    rw [hresult] at hok
    cases hok
  | ok result =>
    obtain ⟨p, out', stats⟩ := result
    have hcurates := h.curates
      (fun c hc => hbytes c.2 (List.mem_map_of_mem (by simpa using hc))) hresult hfew
    refine ⟨?_, hinStep.shows, ?_⟩
    · simp only [stage_after, Stage.after, hresult]
    · exact hcurates.live_iff (Finset.card_image_le.trans hfits) hinStep.placed

/-- After each frame of at most 64 images that succeeds, what it asked for is on show together with
the older placements of the images that it shows again, and with nothing else. -/
theorem live_after_frame (png : PngEncoder) (budget : Nat) (calls : List PresenterCall)
    (f : ImageFrame) (support : ImageSupport) (out : Output)
    (separate : Set.InjOn fingerprint
      {b | ∃ call ∈ calls ++ [PresenterCall.present f support out], b ∈ call.blobs})
    (few : ∀ n, ((start budget).run png ((calls ++ [PresenterCall.present f support out]).take n)
      ).stage.terminal.transmissions < lastNumber)
    (fits : (Presentation.kittyImages support f.commands.toList).card ≤ maxSlots)
    (succeeds :
      (((start budget).run png calls).stage.presenter.present png f support out).isOk = true) :
    let old := (start budget).run png calls
    let new := old.after png (.present f support out)
    new.stage.asked = f.commands.toList.flatMap (Presentation.requested support) ∧ Adds old new ∧
      (new.IsExact ↔ ∀ e ∈ old.live, (∃ e' ∈ new.stage.terminal.shown, e'.id = e.id) →
        e.content ∈ new.stage.asked) := by
  intro old new
  have hopen : IsOpen {b | ∃ call ∈ calls ++ [PresenterCall.present f support out],
      b ∈ call.blobs} old := by
    apply (IsOpen.start budget).run separate
    · exact fun call hcall b hb => ⟨call, List.mem_append_left _ hcall, hb⟩
    · intro n
      have hfew := few (min n calls.length)
      rwa [List.take_append_of_le_length (Nat.min_le_right _ _), ← List.take_eq_take_min] at hfew
  have hlast := few (calls.length + 1)
  rw [List.take_of_length_le (by simp), run_append] at hlast
  obtain ⟨hasked, hadds⟩ := hopen.adds separate
    (fun b hb => ⟨_, List.mem_append_right _ (List.mem_singleton_self _), hb⟩) hlast fits succeeds
  exact ⟨hasked, hadds, hadds.isExact_iff⟩

/-- A frame of one image of one pixel. -/
def onePixelFrame (column : Nat) : ImageFrame :=
  ⟨#[({ column, width := 1, height := 1, protocol := .named .kitty },
    [1, 2, 3, 4].toByteArray)]⟩

/-- Present the pixel at a column. -/
def showPixel (column : Nat) : PresenterCall := .present (onePixelFrame column) {} .unbounded

theorem live_after_frame_moved_image :
    let old := (start 0).run Png.encoder [showPixel 0]
    let new := old.after Png.encoder (showPixel 5)
    Adds old new ∧ new.live.map (·.placement.column) = [0, 5] := by
  intro old new
  have hblobs : ∀ a ∈ [showPixel 0, showPixel 5].flatMap PresenterCall.blobs,
      ∀ b ∈ [showPixel 0, showPixel 5].flatMap PresenterCall.blobs,
        fingerprint a = fingerprint b → a = b := by
    decide +kernel
  have hfew : ∀ n < 3, ((start 0).run Png.encoder
      ([showPixel 0, showPixel 5].take n)).stage.terminal.transmissions < lastNumber := by
    decide +kernel
  refine ⟨(live_after_frame Png.encoder 0 [showPixel 0] (onePixelFrame 5) {} .unbounded
    ?_ ?_ ?_ ?_).2.1, ?_⟩
  · rintro a ⟨call, hcall, ha⟩ b ⟨call', hcall', hb⟩
    exact hblobs a (List.mem_flatMap.mpr ⟨call, hcall, ha⟩) b
      (List.mem_flatMap.mpr ⟨call', hcall', hb⟩)
  · intro n
    have hfew' := hfew (min n 2) (by omega)
    rwa [show 2 = [showPixel 0, showPixel 5].length from rfl, ← List.take_eq_take_min] at hfew'
  · decide +kernel
  · decide +kernel
  · decide +kernel

/-- An image that moves is seen in both places, whatever makes the PNG files. -/
theorem not_isExact_of_moved_image :
    ¬ ∃ png : PngEncoder, ((start 0).run png [showPixel 0, showPixel 5]).IsExact := by
  rintro ⟨png, hexact⟩
  rw [run_eq png Png.encoder (by decide)] at hexact
  have hghost := (hexact (.ofBytes [1, 2, 3, 4].toByteArray 1 1, ⟨0, 0, 1, 1, 0⟩)).mp
    (by decide +kernel)
  exact absurd hghost (by decide +kernel)

end Exhibit

end CellCanvas
