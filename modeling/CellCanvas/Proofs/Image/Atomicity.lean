import CellCanvas.Proofs.Image.Limits

/-!
# A frame is presented completely or not at all

A call of a presenter with its whole effect: the answer, and what presenter and buffer are
afterwards, also when the call fails in the middle of a frame and leaves the charges of the work
that it broke off. The buffer decides whether the frame is taken, and nothing else about it. A call
that fails changes nothing, and no call changes the account.
-/

namespace CellCanvas

open Scratch

namespace Presentation

/-- Send an image whose text is encoded at the expense of the account. -/
def encodedCharged (p : Presentation) (text : Scratching String) : Scratching Presentation := do
  let p ← p.send (← text)
  return { p with stats := { p.stats with encoded := p.stats.encoded + 1 } }

/-- Show one image through the protocol that its command asks for. -/
def displayCharged (png : PngEncoder) (support : ImageSupport) (p : Presentation)
    (command : ImageCommand × ByteArray) : Scratching Presentation :=
  let (c, bytes) := command
  match c.protocol.resolve support with
  | .kitty => p.kitty c bytes
  | .sixel => p.encodedCharged (sixelCharged c bytes support)
  | .iterm2 => p.encodedCharged (inlineCharged png c bytes support)
  | .none => return { p with stats := { p.stats with skipped := p.stats.skipped + 1 } }

theorem restores_encodedCharged {text : Scratching String} (h : Restores text) (p : Presentation) :
    Restores (p.encodedCharged text) :=
  h.bind fun _ => (Keeps.lift _).bind fun _ => .pure _

theorem restores_displayCharged (png : PngEncoder) (support : ImageSupport) (p : Presentation)
    (command : ImageCommand × ByteArray) : Restores (p.displayCharged png support command) := by
  obtain ⟨c, bytes⟩ := command
  unfold displayCharged
  dsimp only
  split
  · exact .lift _
  · exact restores_encodedCharged (restores_sixelCharged c bytes support) p
  · exact restores_encodedCharged (restores_inlineCharged png c bytes support) p
  · exact .pure _

theorem fst_encodedCharged (p : Presentation) (text : Scratching String) (scratch : Scratch) :
    (p.encodedCharged text scratch).1 = p.encoded text scratch := by
  unfold encodedCharged encoded
  rw [run_bind]
  cases htext : text scratch with
  | mk result after =>
    cases result with
    | error e => rfl
    | ok t =>
      dsimp only
      rw [run_bind, run_lift]
      change _ = p.send t >>= _
      cases p.send t <;> rfl

theorem fst_displayCharged (png : PngEncoder) (support : ImageSupport) (p : Presentation)
    (command : ImageCommand × ByteArray) (scratch : Scratch) :
    (p.displayCharged png support command scratch).1 =
      p.display png support scratch command := by
  obtain ⟨c, bytes⟩ := command
  unfold displayCharged display
  rw [inlineCharged_eq, sixelCharged_eq]
  dsimp only
  cases c.protocol.resolve support with
  | kitty => rfl
  | sixel => exact fst_encodedCharged p _ scratch
  | iterm2 => exact fst_encodedCharged p _ scratch
  | none => rfl

theorem transparent_displayCharged (png : PngEncoder) (support : ImageSupport)
    (command : ImageCommand × ByteArray) (scratch : Scratch) :
    IsTransparent fun p => (p.displayCharged png support command scratch).1 := by
  have hencoded (text : Scratching String) :
      IsTransparent fun p => (p.encodedCharged text scratch).1 := by
    simp only [fst_encodedCharged]
    exact .lift (text scratch).1 fun t => (IsTransparent.send t).bind
      (.record id fun stats => { stats with encoded := stats.encoded + 1 })
  obtain ⟨c, bytes⟩ := command
  unfold displayCharged
  dsimp only
  cases c.protocol.resolve support with
  | kitty => exact transparent_kitty c bytes
  | sixel => exact hencoded _
  | iterm2 => exact hencoded _
  | none => exact .record id fun stats => { stats with skipped := stats.skipped + 1 }

/-- Delete the images that the frame did not place. -/
def dropAllUnplaced (p : Presentation) : Except Failure Presentation :=
  (List.range p.cache.slots.size).foldlM dropUnplaced p

theorem transparent_dropAllUnplaced : IsTransparent dropAllUnplaced := by
  apply IsTransparent.byCache
  intro cache
  refine ⟨_, .foldlM transparent_dropUnplaced (List.range cache.slots.size), ?_⟩
  rintro p rfl
  rfl

end Presentation

namespace Presenter

variable (png : PngEncoder) (p : Presenter) (f : ImageFrame) (support : ImageSupport)

/-- The presentation before the first image, in a buffer of its own. -/
def opened (room : Nat) : Presentation := ⟨p.cache.beginFrame, .withLimit room, {}⟩

/-- Present a frame into a buffer of its own, at the expense of the account. -/
def composeCharged (room : Nat) : Scratching Presentation := do
  let shown ← f.commands.toList.foldlM (fun s c => s.displayCharged png support c) (p.opened room)
  shown.dropAllUnplaced

/-- One call: the answer, and the presenter and the buffer after it. The cache and the buffer are
replaced at the end; the account is as the work has left it. -/
def attempt (out : Output) : Except Failure PresentStats × Presenter × Output :=
  match p.composeCharged png f support out.remaining p.scratch with
  | (.error e, scratch) => (.error e, { p with scratch }, out)
  | (.ok done, scratch) =>
    match out.append done.output.pending with
    | .error e => (.error e, { p with scratch }, out)
    | .ok out => (.ok done.stats, ⟨done.cache, scratch⟩, out)

/-- The images of a frame and the deletions at its end, when no work leaves a charge. -/
def composed (scratch : Scratch) (start : Presentation) : Except Failure Presentation := do
  let shown ← f.commands.toList.foldlM
    (fun s c => (s.displayCharged png support c scratch).1) start
  shown.dropAllUnplaced

theorem run_composeCharged (room : Nat) (scratch : Scratch) :
    p.composeCharged png f support room scratch =
      (composed png f support scratch (p.opened room), scratch) := by
  unfold composeCharged composed
  rw [run_bind, Keeps.run_foldlM (fun s c => Presentation.restores_displayCharged png support s c)]
  cases f.commands.toList.foldlM
    (fun s c => (Presentation.displayCharged png support s c scratch).1) (p.opened room) <;> rfl

theorem transparent_composed (scratch : Scratch) :
    Presentation.IsTransparent (composed png f support scratch) := by
  have hshown := Presentation.IsTransparent.foldlM
    (fun c => Presentation.transparent_displayCharged png support c scratch) f.commands.toList
  exact hshown.bind Presentation.transparent_dropAllUnplaced

/-- A call in terms of its work: it is taken when the work succeeds and its bytes fit. -/
theorem attempt_eq (out : Output) :
    p.attempt png f support out =
      match composed png f support p.scratch (p.opened out.remaining) with
      | .error e => (.error e, p, out)
      | .ok done =>
        if done.output.pending.size ≤ out.remaining then
          (.ok done.stats, { p with cache := done.cache }, out.push done.output.pending)
        else (.error (.limit .output), p, out) := by
  unfold attempt
  rw [run_composeCharged]
  cases composed png f support p.scratch (p.opened out.remaining) with
  | error e => rfl
  | ok done =>
    dsimp only
    rw [Output.append_eq]
    split_ifs <;> rfl

theorem present_eq (out : Output) :
    p.present png f support out =
      match p.compose png f support out.remaining with
      | .error e => .error e
      | .ok done =>
        if done.output.pending.size ≤ out.remaining then
          .ok ({ p with cache := done.cache }, out.push done.output.pending, done.stats)
        else .error (.limit .output) := by
  unfold present
  cases p.compose png f support out.remaining with
  | error e => rfl
  | ok done =>
    change out.append done.output.pending >>= _ = ite _ _ _
    rw [Output.append_eq]
    split_ifs <;> rfl

/-- The call of a presenter is an attempt whose changes are seen when it succeeds. -/
theorem attempt_eq_present (out : Output) :
    p.attempt png f support out =
      match p.present png f support out with
      | .error e => (.error e, p, out)
      | .ok (q, out, stats) => (.ok stats, q, out) := by
  have hcompose : p.compose png f support out.remaining =
      composed png f support p.scratch (p.opened out.remaining) := by
    unfold compose composed
    simp only [Presentation.fst_displayCharged]
    rfl
  rw [attempt_eq, present_eq, hcompose]
  cases composed png f support p.scratch (p.opened out.remaining) with
  | error e => rfl
  | ok done =>
    dsimp only
    split_ifs <;> rfl

/-- A frame is presented completely or not at all, and the buffer only decides whether it is. What
a buffer without limit takes is taken by one with room for it, with the same bytes, counts and
cache, and else it is refused for the room; what a buffer without limit refuses is refused by all.
A call that fails changes nothing, and no call changes the account. -/
theorem attempt_law (out wide : Output) (hwide : wide.limit = none)
    (hroom : out.remaining ≤ Size.largest) :
    (p.attempt png f support out =
      match p.present png f support out with
      | .error e => (.error e, p, out)
      | .ok (q, out, stats) => (.ok stats, q, out)) ∧
    ((∃ stats q bytes, p.attempt png f support wide = (.ok stats, q, wide.push bytes) ∧
        q.scratch = p.scratch ∧
        p.attempt png f support out =
          if bytes.size ≤ out.remaining then (.ok stats, q, out.push bytes)
          else (.error (.limit .output), p, out)) ∨
      ∃ e e', p.attempt png f support wide = (.error e, p, wide) ∧
        p.attempt png f support out = (.error e', p, out)) := by
  refine ⟨p.attempt_eq_present png f support out, ?_⟩
  have hlargest : wide.remaining = Size.largest := by simp only [Output.remaining, hwide]
  have htransparent := transparent_composed png f support p.scratch
  have hopened (room : Nat) : p.opened room = (p.opened Size.largest).within room := rfl
  have hself := htransparent.narrows (p := p.opened Size.largest) rfl le_rfl (Nat.zero_le _)
  have hnarrows := htransparent.narrows (p := p.opened Size.largest) rfl hroom (Nat.zero_le _)
  rw [← hopened] at hself hnarrows
  rw [attempt_eq, attempt_eq, hlargest]
  generalize composed png f support p.scratch (p.opened out.remaining) = narrow at hnarrows ⊢
  generalize composed png f support p.scratch (p.opened Size.largest) = result at hself hnarrows ⊢
  cases hnarrows with
  | @fits done hfits =>
    exact Or.inl ⟨_, _, done.output.pending, if_pos (hfits.trans hroom), rfl, rfl⟩
  | @exceeds done hexceeds =>
    exact Or.inl ⟨_, _, done.output.pending, if_pos hself.size_le, rfl,
      (if_neg (Nat.not_le.mpr hexceeds)).symm⟩
  | fails e => exact Or.inr ⟨_, _, rfl, rfl⟩
  | cut e => exact Or.inr ⟨_, _, rfl, rfl⟩

/-- One pixel through Kitty and one through Sixel. -/
def mixedFrame : ImageFrame :=
  ⟨#[({ width := 1, height := 1, protocol := .named .kitty }, [1, 2, 3, 4].toByteArray),
    ({ width := 1, height := 1, protocol := .named .sixel }, [5, 6, 7, 8].toByteArray)]⟩

/-- With cells of one pixel the frame needs 93 bytes. -/
theorem attempt_law_mixed_frame :
    let p := Presenter.withBudget 5
    let attempted := p.attempt Png.encoder mixedFrame { cellWidth := 1, cellHeight := 1 }
    attempted (.withLimit 92) = (.error (.limit .output), p, .withLimit 92) ∧
      (attempted (.withLimit 93)).1 = .ok { transmitted := 1, encoded := 1 } ∧
      (attempted (.withLimit 93)).2.1.scratch = p.scratch := by
  intro p attempted
  have hwide : ((attempted .unbounded).1, (attempted .unbounded).2.2.pending.size) =
      (.ok { transmitted := 1, encoded := 1 }, 93) := by decide +kernel
  have hlaw (n : Nat) (hn : n ≤ Size.largest) :
      ∃ q bytes, q.scratch = p.scratch ∧ bytes.size = 93 ∧ attempted (.withLimit n) =
        if bytes.size ≤ n then
          (.ok { transmitted := 1, encoded := 1 }, q, (Output.withLimit n).push bytes)
        else (.error (.limit .output), p, .withLimit n) := by
    obtain ⟨-, hcases⟩ := attempt_law Png.encoder p mixedFrame { cellWidth := 1, cellHeight := 1 }
      (.withLimit n) .unbounded rfl hn
    rcases hcases with ⟨stats, q, bytes, hok, hscratch, hout⟩ | ⟨e, e', herror, -⟩
    · change attempted .unbounded = _ at hok
      rw [hok] at hwide
      obtain ⟨hstats, hsize⟩ := Prod.ext_iff.mp hwide
      cases hstats
      exact ⟨q, bytes, hscratch, by simpa [Output.push, Output.unbounded] using hsize, hout⟩
    · change attempted .unbounded = _ at herror
      rw [herror] at hwide
      cases hwide
  obtain ⟨q, bytes, -, hsize, hrefused⟩ := hlaw 92 (by decide)
  obtain ⟨q', bytes', hscratch, hsize', htaken⟩ := hlaw 93 (by decide)
  rw [hsize, if_neg (by decide)] at hrefused
  rw [hsize', if_pos le_rfl] at htaken
  exact ⟨hrefused, congrArg Prod.fst htaken, (congrArg (·.2.1.scratch) htaken).trans hscratch⟩

end Presenter

end CellCanvas
