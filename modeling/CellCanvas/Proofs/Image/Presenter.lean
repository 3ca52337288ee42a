import CellCanvas.Proofs.Image.Presentation

/-!
# The presenter and the terminal

A terminal reads what a presenter sends over any sequence of frames, whether they succeed or fail,
and is reset whenever the presenter forgets its images. As long as the numbers last, the cache
mirrors the terminal after each call.
-/

namespace CellCanvas

open Kitty ImageCache

namespace Presentation

variable {blobs : Set ByteArray} {p p' : Presentation}

/-- What a command asks a terminal that keeps pictures to show. -/
def requested (support : ImageSupport) (command : ImageCommand × ByteArray) :
    List (Picture × Placement) :=
  if command.1.protocol.resolve support = .kitty then
    [(.ofBytes command.2 command.1.width command.1.height, .of command.1)]
  else []

theorem advances_kitty (separate : Set.InjOn fingerprint blobs) {c : ImageCommand}
    {bytes : ByteArray} (hbytes : bytes ∈ blobs) (hok : p.kitty c bytes = .ok p') :
    Advances blobs p p' [(.ofBytes bytes c.width c.height, .of c)] := by
  rcases kitty_cases hok with ⟨i, placed, hfound, hplace, rfl⟩ | ⟨hfound, hok⟩
  · have hadvances : Advances blobs p placed _ := advances_reused separate hbytes hfound hplace
    exact hadvances
  · exact advances_transmitted separate hbytes hfound hok

/-- One command. -/
theorem advances_display (separate : Set.InjOn fingerprint blobs) {png : PngEncoder}
    {support : ImageSupport} {scratch : Scratch} {command : ImageCommand × ByteArray}
    (hbytes : command.2 ∈ blobs) (hok : p.display png support scratch command = .ok p') :
    Advances blobs p p' (requested support command) := by
  unfold requested
  rcases display_cases hok with ⟨hkitty, hok⟩ | ⟨hother, hcache, hsent, -⟩
  · rw [if_pos hkitty]
    exact advances_kitty separate hbytes hok
  · rw [if_neg hother]
    exact .of_cache_eq hcache hsent

/-- The commands of a frame in order. -/
theorem advances_displayAll (separate : Set.InjOn fingerprint blobs) {png : PngEncoder}
    {support : ImageSupport} {scratch : Scratch} {commands : List (ImageCommand × ByteArray)}
    (hbytes : ∀ c ∈ commands, c.2 ∈ blobs)
    (hok : commands.foldlM (fun s c => s.display png support scratch c) p = .ok p') :
    Advances blobs p p' (commands.flatMap (requested support)) := by
  induction commands generalizing p with
  | nil =>
    cases hok
    exact .refl _
  | cons c commands ih =>
    obtain ⟨next, hnext, hrest⟩ := exists_of_bind_eq_ok hok
    have hfirst := advances_display separate (hbytes c (by simp)) hnext
    exact hfirst.trans (ih (fun c' hc' => hbytes c' (by simp [hc'])) hrest)

/-- Slots are kept or emptied. -/
def Keeps (p p' : Presentation) : Prop :=
  ∀ i, (p'.cache.slot i).transmitted = true → p'.cache.slot i = p.cache.slot i

/-- Deleting the image of a slot that has not been placed. -/
theorem dropUnplaced_ok (blobs : Set ByteArray) {i : Nat} (hok : p.dropUnplaced i = .ok p') :
    Advances blobs p p' [] ∧ Keeps p p' ∧
      ((p'.cache.slot i).transmitted = true → (p'.cache.slot i).placed = true) := by
  rcases dropUnplaced_cases hok with ⟨rfl, hplaced⟩ | ⟨htransmitted, -, hcache, hsent, -⟩
  · exact ⟨.refl _, fun _ _ => rfl, hplaced⟩
  · have hslot := slot_setSlot (c := p.cache) {} (lt_of_transmitted htransmitted)
    rw [ImageSlot.evictions, if_pos htransmitted] at hsent
    refine ⟨⟨_, hsent, ?_⟩, ?_, ?_⟩
    · intro t ht _
      rw [hcache]
      exact ⟨ht.delete htransmitted, (List.append_nil _).symm⟩
    · intro j hj
      rw [hcache, hslot] at hj ⊢
      by_cases hij : i = j
      · rw [if_pos hij] at hj
        cases hj
      · rw [if_neg hij]
    · intro hi
      rw [hcache, hslot, if_pos rfl] at hi
      cases hi

/-- Deleting the images of all slots that have not been placed. -/
theorem dropAll_ok (blobs : Set ByteArray) {is : List Nat}
    (hok : is.foldlM dropUnplaced p = .ok p') :
    Advances blobs p p' [] ∧ Keeps p p' ∧
      ∀ i ∈ is, (p'.cache.slot i).transmitted = true → (p'.cache.slot i).placed = true := by
  induction is generalizing p with
  | nil =>
    cases hok
    exact ⟨.refl _, fun i _ => rfl, fun i hi => absurd hi (by simp)⟩
  | cons i is ih =>
    obtain ⟨next, hnext, hrest⟩ := exists_of_bind_eq_ok hok
    obtain ⟨hfirst, hkeeps, hplaced⟩ := dropUnplaced_ok blobs hnext
    obtain ⟨hsecond, hkeeps', hplaced'⟩ := ih hrest
    refine ⟨hfirst.trans hsecond, ?_, ?_⟩
    · intro j hj
      have hsame := hkeeps' j hj
      rw [hsame] at hj ⊢
      exact hkeeps j hj
    · intro j hj htransmitted
      rcases List.mem_cons.mp hj with rfl | hj
      · have hsame := hkeeps' j htransmitted
        rw [hsame] at htransmitted ⊢
        exact hplaced htransmitted
      · exact hplaced' j hj htransmitted

/-- Only images that have been placed are left at the end of a frame. -/
theorem placed_of_dropAll (hok : (List.range p.cache.slots.size).foldlM dropUnplaced p = .ok p')
    {i : Nat} (hi : (p'.cache.slot i).transmitted = true) : (p'.cache.slot i).placed = true := by
  obtain ⟨-, hkeeps, hplaced⟩ := dropAll_ok ∅ hok
  apply hplaced i _ hi
  rw [List.mem_range]
  apply lt_of_transmitted
  rwa [← hkeeps i hi]

end Presentation

namespace Presenter

open Presentation

variable {blobs : Set ByteArray} {png : PngEncoder} {p p' : Presenter} {f : ImageFrame}
  {support : ImageSupport}

/-- A frame that is presented leaves only images that it has placed. -/
theorem compose_ok (separate : Set.InjOn fingerprint blobs) {room : Nat} {done : Presentation}
    (hbytes : ∀ c ∈ f.commands, c.2 ∈ blobs) (hok : p.compose png f support room = .ok done) :
    Advances blobs ⟨p.cache.beginFrame, .withLimit room, {}⟩ done
        (f.commands.toList.flatMap (requested support)) ∧
      ∀ i, (done.cache.slot i).transmitted = true → (done.cache.slot i).placed = true := by
  obtain ⟨shown, hshown, hdrop⟩ := exists_of_bind_eq_ok hok
  have hfirst := advances_displayAll separate (fun c hc => hbytes c (by simpa using hc)) hshown
  have hboth := hfirst.trans (dropAll_ok blobs hdrop).1
  rw [List.append_nil] at hboth
  exact ⟨hboth, fun i hi => placed_of_dropAll hdrop hi⟩

theorem present_ok {out out' : Output} {stats : PresentStats}
    (hok : p.present png f support out = .ok (p', out', stats)) :
    ∃ done, p.compose png f support out.remaining = .ok done ∧ p'.cache = done.cache ∧
      out'.pending = out.pending ++ done.output.pending := by
  obtain ⟨done, hdone, hrest⟩ := exists_of_bind_eq_ok hok
  obtain ⟨output, happend, hrest⟩ := exists_of_bind_eq_ok hrest
  cases hrest
  exact ⟨done, hdone, rfl, Output.pending_append happend⟩

/-- An image that is not sent as a file does not concern the encoder of PNG files. -/
theorem display_eq (png png' : PngEncoder) {scratch : Scratch} {c : ImageCommand}
    {bytes : ByteArray} (h : c.protocol.resolve support ≠ .iterm2) (q : Presentation) :
    q.display png support scratch (c, bytes) = q.display png' support scratch (c, bytes) := by
  unfold display
  dsimp only
  cases hprotocol : c.protocol.resolve support with
  | iterm2 => exact absurd hprotocol h
  | kitty | sixel | none => rfl

theorem displayAll_eq (png png' : PngEncoder) {scratch : Scratch}
    {commands : List (ImageCommand × ByteArray)}
    (h : ∀ c ∈ commands, c.1.protocol.resolve support ≠ .iterm2) (q : Presentation) :
    commands.foldlM (fun s c => s.display png support scratch c) q =
      commands.foldlM (fun s c => s.display png' support scratch c) q := by
  induction commands generalizing q with
  | nil => rw [List.foldlM_nil, List.foldlM_nil]
  | cons c commands ih =>
    rw [List.foldlM_cons, List.foldlM_cons, display_eq png png' (h c (by simp))]
    exact bind_congr (ih fun c' hc' => h c' (by simp [hc']))

end Presenter

/-- Something a caller does with a presenter: present a frame into a buffer, for a terminal with
some support, or forget the images because the terminal has been reset. -/
inductive PresenterCall where
  | present (frame : ImageFrame) (support : ImageSupport) (output : Output)
  | forget

/-- Whether a call sends an image as a file. -/
def PresenterCall.sendsFile : PresenterCall → Bool
  | present f support _ => f.commands.toList.any fun c => c.1.protocol.resolve support = .iterm2
  | forget => false

theorem PresenterCall.present_eq (png png' : PngEncoder) {f : ImageFrame} {support : ImageSupport}
    {out : Output} (h : (present f support out).sendsFile = false) (p : Presenter) :
    p.present png f support out = p.present png' f support out := by
  have hnone (c : ImageCommand × ByteArray) (hc : c ∈ f.commands.toList) :
      c.1.protocol.resolve support ≠ .iterm2 :=
    fun hfile => List.any_eq_false.mp h c hc (decide_eq_true hfile)
  unfold Presenter.present Presenter.compose
  simp only [Presenter.displayAll_eq png png' hnone]

/-- The bytes of the images that a call presents. -/
def PresenterCall.blobs : PresenterCall → List ByteArray
  | present f _ _ => f.commands.toList.map Prod.snd
  | forget => []

/-- A presenter, the terminal that reads what it sends, and what the last frame that was presented
asked the terminal to show. -/
structure Stage where
  presenter : Presenter
  terminal : Terminal
  asked : List (Picture × Placement)

namespace Stage

/-- A presenter and a terminal that both start. -/
def start (budget : Nat) : Stage := ⟨.withBudget budget, .blank, []⟩

/-- The stage after a call. The terminal receives what has been appended to the buffer. -/
def after (png : PngEncoder) (s : Stage) : PresenterCall → Stage
  | .present f support out => match s.presenter.present png f support out with
    | .ok (p, out', _) =>
      ⟨p, s.terminal.receive (out'.pending.extract out.pending.size out'.pending.size),
        f.commands.toList.flatMap (Presentation.requested support)⟩
    | .error _ => s
  | .forget => ⟨s.presenter.forget, s.terminal.reset, []⟩

/-- The stage after calls in order. -/
def run (png : PngEncoder) (s : Stage) (calls : List PresenterCall) : Stage :=
  calls.foldl (after png) s

theorem after_eq (png png' : PngEncoder) {call : PresenterCall} (h : call.sendsFile = false)
    (s : Stage) : s.after png call = s.after png' call := by
  cases call with
  | forget => rfl
  | present f support out => simp only [after, PresenterCall.present_eq png png' h]

/-- Calls that send no image as a file go the same way with every encoder of PNG files. -/
theorem run_eq (png png' : PngEncoder) {calls : List PresenterCall}
    (h : ∀ call ∈ calls, call.sendsFile = false) (s : Stage) :
    s.run png calls = s.run png' calls := by
  induction calls generalizing s with
  | nil => rw [run, run, List.foldl_nil, List.foldl_nil]
  | cons call calls ih =>
    rw [run, run, List.foldl_cons, List.foldl_cons, after_eq png png' (h call (by simp))]
    exact ih (fun c hc => h c (by simp [hc])) _

/-- The slots whose images are on the terminal. -/
def residents (s : Stage) : List ImageSlot :=
  s.presenter.cache.slots.toList.filter ImageSlot.transmitted

/-- What holds between the presenter and the terminal after each call. -/
structure IsFaithful (s : Stage) : Prop where
  /-- Pictures came under free numbers other than zero, and what was shown or deleted was there. -/
  sound : s.terminal.isSound = true
  /-- The terminal shows the pictures of the last frame where its commands want them. -/
  shows : s.terminal.shown.map Showing.content = s.asked
  resident_iff : ∀ id, (s.terminal.pictures id).isSome = true ↔
    id ∈ s.residents.map ImageSlot.number
  numbers_nodup : (s.residents.map ImageSlot.number).Nodup
  pixels_nodup : (s.residents.map fun slot => (slot.hash, slot.width, slot.height)).Nodup
  resident_le : s.presenter.cache.resident ≤ maxSlots
  /-- The last frame has placed every image that is on the terminal. -/
  placed : ∀ id, (s.terminal.pictures id).isSome = true → ∃ e ∈ s.terminal.shown, e.id = id

/-- What each call keeps. -/
structure InStep (blobs : Set ByteArray) (s : Stage) : Prop where
  mirrors : s.presenter.cache.Mirrors blobs s.terminal
  shows : s.terminal.shown.map Showing.content = s.asked
  placed : ∀ i, (s.presenter.cache.slot i).transmitted = true →
    (s.presenter.cache.slot i).placed = true

variable {blobs : Set ByteArray} {png : PngEncoder} {s : Stage}

theorem InStep.start (budget : Nat) : InStep blobs (start budget) := by
  refine ⟨Mirrors.empty .blank rfl, rfl, ?_⟩
  intro i hi
  cases hi

theorem nodup_residents {α : Type} {value : ImageSlot → α}
    (h : s.presenter.cache.Distinguishes value) : (s.residents.map value).Nodup := by
  rw [residents, List.Nodup, List.pairwise_map, List.pairwise_filter, List.pairwise_iff_getElem]
  intro i j hi hj hij htransmitted htransmitted' heq
  have hslot := slot_of_lt (c := s.presenter.cache) (i := i) (by simpa using hi)
  have hslot' := slot_of_lt (c := s.presenter.cache) (i := j) (by simpa using hj)
  rw [Array.getElem_toList] at htransmitted htransmitted' heq
  rw [Array.getElem_toList, ← hslot, ← hslot'] at heq
  rw [← hslot] at htransmitted
  rw [← hslot'] at htransmitted'
  exact hij.ne (h i j htransmitted htransmitted' heq)

theorem mem_residents {slot : ImageSlot} :
    slot ∈ s.residents ↔ ∃ i, (s.presenter.cache.slot i).transmitted = true ∧
      s.presenter.cache.slot i = slot := by
  rw [residents, List.mem_filter, Array.mem_toList_iff, Array.mem_iff_getElem]
  constructor
  · rintro ⟨⟨i, hi, rfl⟩, htransmitted⟩
    rw [← slot_of_lt hi] at htransmitted ⊢
    exact ⟨i, htransmitted, rfl⟩
  · rintro ⟨i, htransmitted, rfl⟩
    have hi := lt_of_transmitted htransmitted
    exact ⟨⟨i, hi, (slot_of_lt hi).symm⟩, htransmitted⟩

theorem InStep.isFaithful (h : InStep blobs s) : s.IsFaithful := by
  have hresident (id : Nat) : (s.terminal.pictures id).isSome = true ↔
      ∃ i, (s.presenter.cache.slot i).transmitted = true ∧
        (s.presenter.cache.slot i).number = id := by
    constructor
    · exact h.mirrors.resident id
    · rintro ⟨i, hi, rfl⟩
      obtain ⟨bytes, -, -, hpicture⟩ := (h.mirrors.kept i hi).picture
      rw [hpicture]
      rfl
  refine ⟨h.mirrors.sound, h.shows, ?_, ?_, ?_, ?_, ?_⟩
  · intro id
    rw [hresident, List.mem_map]
    constructor
    · rintro ⟨i, hi, hnumber⟩
      exact ⟨_, mem_residents.mpr ⟨i, hi, rfl⟩, hnumber⟩
    · rintro ⟨slot, hslot, hnumber⟩
      obtain ⟨i, hi, rfl⟩ := mem_residents.mp hslot
      exact ⟨i, hi, hnumber⟩
  · exact nodup_residents h.mirrors.numbers
  · exact nodup_residents h.mirrors.pixels
  · exact resident_le.trans h.mirrors.size_le
  · intro id hid
    obtain ⟨i, hi, rfl⟩ := (hresident id).mp hid
    exact (h.mirrors.kept i hi).shown (h.placed i hi)

/-- A call keeps the presenter and the terminal in step. -/
theorem InStep.after (h : InStep blobs s) (separate : Set.InjOn fingerprint blobs)
    {call : PresenterCall} (hbytes : ∀ b ∈ call.blobs, b ∈ blobs)
    (hfew : (s.after png call).terminal.transmissions < lastNumber) :
    InStep blobs (s.after png call) := by
  cases call with
  | forget =>
    refine ⟨Mirrors.empty s.terminal h.mirrors.sound, rfl, ?_⟩
    intro i hi
    cases hi
  | present f support out =>
    unfold Stage.after at hfew ⊢
    dsimp only at hfew ⊢
    cases hok : s.presenter.present png f support out with
    | error failure => exact h
    | ok result =>
      obtain ⟨p, out', stats⟩ := result
      rw [hok] at hfew
      obtain ⟨done, hdone, hcache, hpending⟩ := Presenter.present_ok hok
      have hbytes' (c : ImageCommand × ByteArray) (hc : c ∈ f.commands) : c.2 ∈ blobs :=
        hbytes c.2 (List.mem_map_of_mem (by simpa using hc))
      obtain ⟨⟨requests, ⟨text, hcarries, htext⟩, hadvances⟩, hplaced⟩ :=
        Presenter.compose_ok separate hbytes' hdone
      have hreceived : s.terminal.receive
          (out'.pending.extract out.pending.size out'.pending.size) =
            ({ s.terminal with shown := [] } : Terminal).actAll requests := by
        have hnew : done.output.pending = text.toUTF8 := htext.trans ByteArray.empty_append
        rw [hpending, ByteArray.extract_append_eq_right rfl ByteArray.size_append, hnew,
          Terminal.receive, hcarries.requests?]
      dsimp only at hfew ⊢
      rw [hreceived] at hfew ⊢
      obtain ⟨hmirrors, hshown⟩ := hadvances _ h.mirrors.beginFrame hfew
      refine ⟨?_, hshown, ?_⟩
      · rw [hcache]
        exact hmirrors
      · rw [hcache]
        exact hplaced

theorem InStep.run {calls : List PresenterCall} (h : InStep blobs s)
    (separate : Set.InjOn fingerprint blobs)
    (hbytes : ∀ call ∈ calls, ∀ b ∈ call.blobs, b ∈ blobs)
    (hfew : ∀ n, (s.run png (calls.take n)).terminal.transmissions < lastNumber) :
    InStep blobs (s.run png calls) := by
  induction calls generalizing s with
  | nil => exact h
  | cons call calls ih =>
    apply ih (h.after separate (hbytes call (by simp)) (hfew 1))
    · exact fun c hc => hbytes c (by simp [hc])
    · exact fun n => hfew (n + 1)

/-- After each call of any sequence the cache mirrors the terminal, whatever makes the PNG files,
when the fingerprint tells the images apart and fewer pictures are transmitted between two resets
than there are numbers. -/
theorem cache_mirrors_terminal (png : PngEncoder) (budget : Nat) (calls : List PresenterCall)
    (separate : Set.InjOn fingerprint {b | ∃ call ∈ calls, b ∈ call.blobs})
    (few : ∀ n, ((start budget).run png (calls.take n)).terminal.transmissions < lastNumber)
    (n : Nat) : ((start budget).run png (calls.take n)).IsFaithful := by
  apply InStep.isFaithful
  apply (InStep.start budget).run separate
  · intro call hcall b hb
    exact ⟨call, List.mem_of_mem_take hcall, hb⟩
  · intro m
    rw [List.take_take]
    exact few _

/-- Two frames of one pixel each, after which the terminal is reset. -/
def twoFrames : List PresenterCall :=
  let onePixel (pixels : List UInt8) : ImageFrame :=
    ⟨#[({ width := 1, height := 1, protocol := .named .kitty }, pixels.toByteArray)]⟩
  [.present (onePixel [1, 2, 3, 4]) {} .unbounded, .present (onePixel [5, 6, 7, 8]) {} .unbounded,
    .forget]

theorem cache_mirrors_terminal_two_frames :
    ((start 0).run Png.encoder (twoFrames.take 2)).IsFaithful ∧
      ((start 0).run Png.encoder (twoFrames.take 2)).residents.map ImageSlot.number = [2] := by
  have hblobs : ∀ a ∈ twoFrames.flatMap PresenterCall.blobs,
      ∀ b ∈ twoFrames.flatMap PresenterCall.blobs, fingerprint a = fingerprint b → a = b := by
    decide +kernel
  have hfew : ∀ n < 3,
      ((start 0).run Png.encoder (twoFrames.take n)).terminal.transmissions < lastNumber := by
    decide +kernel
  have hreset : ((start 0).run Png.encoder twoFrames).terminal.transmissions < lastNumber := by
    decide
  refine ⟨cache_mirrors_terminal Png.encoder 0 twoFrames ?_ ?_ 2, by decide +kernel⟩
  · rintro a ⟨call, hcall, ha⟩ b ⟨call', hcall', hb⟩
    exact hblobs a (List.mem_flatMap.mpr ⟨call, hcall, ha⟩) b
      (List.mem_flatMap.mpr ⟨call', hcall', hb⟩)
  · intro n
    by_cases hn : n < 3
    · exact hfew n hn
    · rw [List.take_of_length_le (show twoFrames.length ≤ n from Nat.le_of_not_lt hn)]
      exact hreset

end Stage

end CellCanvas
