import CellCanvas.Proofs.Image.Eviction

/-!
# Frames of at most 64 images

A frame of at most 64 different images transmits each of them at most once, deletes none that it has
placed, and leaves exactly its images on the terminal, whatever was there before.
-/

namespace CellCanvas

open Kitty ImageCache

namespace Presenter

open Presentation

variable {png : PngEncoder} {p p' : Presenter} {f : ImageFrame} {support : ImageSupport}
variable {room : Nat}

/-- How a frame is presented when its images have slots enough. -/
structure Settles (png : PngEncoder) (p p' : Presenter) (f : ImageFrame) (support : ImageSupport)
    (room : Nat) (stats : PresentStats) (requests : List Request) : Prop where
  /-- The images that the frame has placed after some of its commands are those of the commands, and
  they are still there and placed at its end. -/
  keeps : ∀ k, ∃ mid, p.showFirst png f support room k = .ok mid ∧
    mid.cache.placedPixels = contents support (f.commands.toList.take k) ∧
      mid.cache.KeepsPlaced p'.cache
  /-- No image is transmitted twice. -/
  once : TransmitsOnce (kittyCommands support f.commands.toList) requests stats.transmitted
  /-- The images of the frame stay on the terminal, and no others. -/
  resident : p'.cache.resident = (contents support f.commands.toList).card
  /-- Every command is counted in one way. -/
  handled : stats.transmitted + stats.reused + stats.encoded + stats.skipped = f.commands.size

theorem stats_of_present {out out' : Output} {stats : PresentStats} {done : Presentation}
    (hok : p.present png f support out = .ok (p', out', stats))
    (hdone : p.compose png f support out.remaining = .ok done) : stats = done.stats := by
  obtain ⟨done', hdone', hrest⟩ := exists_of_bind_eq_ok hok
  obtain ⟨output, -, hrest⟩ := exists_of_bind_eq_ok hrest
  rw [hdone] at hdone'
  cases hdone'
  cases hrest
  rfl

/-- A frame that is presented. -/
theorem progress_compose {oldest count : Nat} {done : Presentation}
    (hsize : p.cache.slots.size ≤ maxSlots)
    (hpixels : p.cache.Distinguishes ImageSlot.pixels)
    (htick : ∀ i, (p.cache.slot i).tick ≤ p.cache.tick)
    (hdated : p.cache.IsDatedFrom oldest count) (hok : p.compose png f support room = .ok done) :
    ∃ requests, Sent ⟨p.cache.beginFrame, .withLimit room, {}⟩ done requests ∧
      Progress support oldest count p.cache.tick (contents support f.commands.toList)
        f.commands.toList done requests ∧
      (∀ i, (done.cache.slot i).transmitted = true → (done.cache.slot i).placed = true) ∧
      ((contents support f.commands.toList).card ≤ maxSlots → ∀ k, ∃ mid,
        p.showFirst png f support room k = .ok mid ∧
          mid.cache.placedPixels = contents support (f.commands.toList.take k) ∧
            mid.cache.KeepsPlaced done.cache) := by
  obtain ⟨shown, hshown, hdrop⟩ := exists_of_bind_eq_ok hok
  have hstart : Progress support oldest count p.cache.tick (contents support f.commands.toList) []
      ⟨p.cache.beginFrame, .withLimit room, {}⟩ [] :=
    .beginFrame (.withLimit room) hsize hpixels htick hdated
  have himages (c : ImageCommand × ByteArray) (hc : c ∈ f.commands.toList)
      (hkitty : c.1.protocol.resolve support = .kitty) :
      contentOf c ∈ contents support f.commands.toList :=
    mem_contents.mpr ⟨c, List.mem_filter.mpr ⟨hc, decide_eq_true hkitty⟩, rfl⟩
  obtain ⟨rs, hsent, hprogress, -⟩ := hstart.displayAll himages hshown
  obtain ⟨ss, hsent', hprogress'⟩ := hprogress.dropAll hdrop
  refine ⟨rs ++ ss, hsent.trans hsent', hprogress', fun i hi => placed_of_dropAll hdrop hi, ?_⟩
  intro hfits k
  -- The commands are those up to the `k`-th and those behind it.
  rw [← List.take_append_drop k f.commands.toList, List.foldlM_append] at hshown
  obtain ⟨mid, hmid, hrest⟩ := exists_of_bind_eq_ok hshown
  obtain ⟨rs', -, hfirst, -⟩ :=
    hstart.displayAll (fun c hc => himages c (List.mem_of_mem_take hc)) hmid
  obtain ⟨-, -, -, hkeeps⟩ :=
    hfirst.displayAll (fun c hc => himages c (List.mem_of_mem_drop hc)) hrest
  exact ⟨mid, hmid, (hfirst.fits hfits).placed, (hkeeps hfits).trans (keepsPlaced_dropAll hdrop)⟩

end Presenter

namespace Stage

open Presentation

variable {png : PngEncoder} {s : Stage} {f : ImageFrame} {support : ImageSupport}
variable {out out' : Output}
variable {p' : Presenter} {stats : PresentStats}

/-- When exactly these images are placed and nothing else is there, the cache holds that many. -/
theorem resident_eq_card {images : Finset (UInt64 × Nat × Nat)}
    (hpixels : s.presenter.cache.Distinguishes ImageSlot.pixels)
    (hplaced : ∀ i, (s.presenter.cache.slot i).transmitted = true ↔
      (s.presenter.cache.slot i).placed = true)
    (himages : s.presenter.cache.placedPixels = images) :
    s.presenter.cache.resident = images.card := by
  have hlength : s.presenter.cache.resident = (s.residents.map ImageSlot.pixels).length := by
    rw [List.length_map, residents, resident, ← Array.countP_toList, List.countP_eq_length_filter]
  have hset : (s.residents.map ImageSlot.pixels).toFinset = images := by
    ext pixels
    rw [List.mem_toFinset, List.mem_map, ← Finset.mem_coe, ← himages]
    constructor
    · rintro ⟨slot, hslot, rfl⟩
      obtain ⟨i, hi, rfl⟩ := mem_residents.mp hslot
      exact ⟨i, (hplaced i).mp hi, rfl⟩
    · rintro ⟨i, hi, rfl⟩
      exact ⟨_, mem_residents.mpr ⟨i, (hplaced i).mpr hi, rfl⟩, rfl⟩
  rw [hlength, ← List.toFinset_card_of_nodup (nodup_residents hpixels), hset]

/-- What each call keeps, whatever the fingerprints. -/
structure IsTidy (s : Stage) : Prop where
  size_le : s.presenter.cache.slots.size ≤ maxSlots
  pixels : s.presenter.cache.Distinguishes ImageSlot.pixels
  tick_le : ∀ i, (s.presenter.cache.slot i).tick ≤ s.presenter.cache.tick

namespace IsTidy

/-- An empty cache. -/
theorem empty (scratch : Scratch) (terminal : Terminal) : IsTidy ⟨⟨{}, scratch⟩, terminal, []⟩ :=
  ⟨Nat.zero_le _, nofun, fun _ => Nat.le_refl _⟩

/-- A frame that is presented makes some requests, and settles if it has slots enough. It deletes
nothing that it has placed when less than a round lies between its last transmission and the oldest
of the images that were there before it. -/
theorem present {oldest count : Nat} (h : s.IsTidy)
    (hdated : s.presenter.cache.IsDatedFrom oldest count)
    (hok : s.presenter.present png f support out = .ok (p', out', stats)) :
    (s.after png (.present f support out)).IsTidy ∧ ∃ requests,
      requests? (out'.pending.extract out.pending.size out'.pending.size) = some requests ∧
        ((contents support f.commands.toList).card ≤ maxSlots →
          s.presenter.Settles png p' f support out.remaining stats requests ∧
            (count + stats.transmitted ≤ oldest + lastNumber →
              requests.Pairwise Request.Spares)) := by
  obtain ⟨done, hdone, hcache, hpending⟩ := Presenter.present_ok hok
  have hstats := Presenter.stats_of_present hok hdone
  obtain ⟨requests, hsent, hprogress, hplaced, hkeeps⟩ :=
    Presenter.progress_compose h.size_le h.pixels h.tick_le hdated hdone
  have hrequests := Presenter.requests?_of_present hpending hsent
  have hpresenter : (s.after png (.present f support out)).presenter.cache = done.cache := by
    simp only [Stage.after, hok, hcache]
  refine ⟨⟨?_, ?_, ?_⟩, requests, hrequests, fun hfits => ⟨⟨?_, ?_, ?_, ?_⟩, ?_⟩⟩
  · rw [hpresenter]
    exact hprogress.orderly.size_le
  · rw [hpresenter]
    exact hprogress.orderly.pixels
  · rw [hpresenter]
    exact hprogress.orderly.amid.tick_le
  · rw [hcache]
    exact hkeeps hfits
  · rw [hstats]
    exact (hprogress.fits hfits).once
  · have hpixels := hprogress.orderly.pixels
    have hthere (i : Nat) : (done.cache.slot i).transmitted = true ↔
        (done.cache.slot i).placed = true :=
      ⟨hplaced i, fun hi => (hprogress.orderly.amid.placed i hi).2.1⟩
    have himages := (hprogress.fits hfits).placed
    rw [← hcache] at hpixels himages
    simp only [← hcache] at hthere
    exact resident_eq_card (s := ⟨p', s.terminal, []⟩) hpixels hthere himages
  · rw [hstats, ← Array.length_toList]
    exact hprogress.handled
  · intro hround
    have hsettled := hprogress.fits hfits
    rw [hstats, ← hsettled.once.transmissionsIn_eq] at hround
    exact (hsettled.spared hround).later

theorem after (h : s.IsTidy) {l : Ledger} (hentered : s.IsEntered l) (call : PresenterCall) :
    (s.after png call).IsTidy := by
  cases call with
  | forget => exact .empty _ _
  | present f support out =>
    cases hok : s.presenter.present png f support out with
    | error failure =>
      unfold Stage.after
      dsimp only
      rw [hok]
      exact h
    | ok result =>
      obtain ⟨p', out', stats⟩ := result
      exact (h.present (hentered.dated.from_zero) hok).1

theorem run (h : s.IsTidy) {l : Ledger} (hentered : s.IsEntered l) (calls : List PresenterCall) :
    (s.run png calls).IsTidy := by
  induction calls generalizing s l with
  | nil => exact h
  | cons call calls ih => exact ih (h.after hentered call) (hentered.after call)

end IsTidy

end Stage

end CellCanvas
