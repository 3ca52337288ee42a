import CellCanvas.Image.Presenter
import CellCanvas.Proofs.Except

/-!
# What encoding charges

The encoders of images with an account that is kept step by step: a scope remembers the charge,
does its work and lowers the charge to what it was. The work may fail anywhere and may charge and
nest as it likes, since no work changes the budget. So a scope restores the account, and with it
every text of an image.
-/

namespace CellCanvas

namespace Scratch

variable {α β γ : Type}

/-- Do some work, then lower the charge to what it was before, also when the work fails. -/
def rewind (work : Scratching α) : Scratching α := fun s =>
  let (result, after) := work s
  (result, if h : s.used ≤ after.budget then ⟨after.budget, s.used, h⟩ else after)

/-- Work that leaves a part of the account, also when it fails. -/
def Keeps (part : Scratch → γ) (work : Scratching α) : Prop := ∀ s, part (work s).2 = part s

/-- Work that gives back what it charges. -/
abbrev Restores (work : Scratching α) : Prop := Keeps id work

theorem charge_of_le {s : Scratch} {n : Nat} (h : n ≤ s.remaining) :
    ∃ after, Scratch.charge n s = (.ok (), after) ∧ after.budget = s.budget ∧
      after.used = s.used + n :=
  ⟨_, dif_pos h, rfl, rfl⟩

theorem charge_of_lt {s : Scratch} {n : Nat} (h : s.remaining < n) :
    Scratch.charge n s = (.error (.limit .scratch), s) :=
  dif_neg (Nat.not_le.mpr h)

theorem run_lift (x : Except Failure α) (s : Scratch) : (liftM x : Scratching α) s = (x, s) := rfl

namespace Keeps

variable {part : Scratch → γ} {work : Scratching α} {next : α → Scratching β}

theorem pure (a : α) : Keeps part (pure a : Scratching α) := fun _ => rfl

theorem throw (e : Failure) : Keeps part (throw e : Scratching α) := fun _ => rfl

theorem lift (x : Except Failure α) : Keeps part (liftM x : Scratching α) := fun _ => rfl

theorem bind (h : Keeps part work) (h' : ∀ a, Keeps part (next a)) :
    Keeps part (work >>= next) := by
  intro s
  have hs := h s
  rw [run_bind]
  cases hwork : work s with
  | mk result after =>
    rw [hwork] at hs
    cases result with
    | ok a => exact (h' a after).trans hs
    | error e => exact hs

/-- A loop of restoring rounds runs as if the account were read only. -/
theorem run_foldlM {step : β → α → Scratching β} (h : ∀ b a, Restores (step b a)) (as : List α)
    (b : β) (s : Scratch) :
    as.foldlM step b s = (as.foldlM (fun b a => (step b a s).1) b, s) := by
  induction as generalizing b with
  | nil => rfl
  | cons a as ih =>
    have hs : (step b a s).2 = s := h b a s
    rw [List.foldlM_cons, List.foldlM_cons, run_bind]
    cases hstep : step b a s with
    | mk result after =>
      rw [hstep] at hs
      dsimp only at hs
      subst hs
      cases result with
      | ok b' => exact ih b'
      | error e => rfl

theorem charge (n : Nat) : Keeps budget (Scratch.charge n) := by
  intro s
  unfold Scratch.charge
  split_ifs <;> rfl

theorem of_restores (h : Restores work) : Keeps part work := fun s => congrArg part (h s)

/-- Lowering the charge gives the account back as it was. -/
theorem rewind_eq_scope (h : Keeps budget work) : rewind work = scope work := by
  funext s
  obtain ⟨budget, used, used_le⟩ := s
  have hbudget := h ⟨budget, used, used_le⟩
  unfold rewind scope
  cases hwork : work ⟨budget, used, used_le⟩ with
  | mk result after =>
    rw [hwork] at hbudget
    dsimp only at hbudget ⊢
    subst hbudget
    rw [dif_pos used_le]

theorem restores_rewind (h : Keeps budget work) : Restores (rewind work) := by
  rw [h.rewind_eq_scope]
  exact fun _ => rfl

end Keeps

end Scratch

open Scratch

namespace Scale

theorem keeps_charged (bytes : ByteArray) (source : Fit.Extent) (fit : Fit) (target : Fit.Extent) :
    Keeps budget (charged bytes source fit target) := by
  unfold charged
  exact (Keeps.lift _).bind fun length => (Keeps.charge length).bind fun _ =>
    (Keeps.lift _).bind fun _ => .pure _

end Scale

namespace Sixel

/-- Encode pixels; the charge is lowered by hand. -/
def encodeCharged (pixels : ByteArray) (w h column row : Nat) : Scratching String := do
  if w = 0 ∨ h = 0 then throw (.invalid .imageSide)
  let size ← Size.rgba w h
  if pixels.size < size then throw (.invalid .pixelLength)
  rewind do
    Scratch.charge (size / 4)
    return encodeIndexed (index pixels (size / 4)) w h column row

theorem keeps_indexed (pixels : ByteArray) (size w h column row : Nat) :
    Keeps budget (do
      Scratch.charge (size / 4)
      return encodeIndexed (index pixels (size / 4)) w h column row) :=
  (Keeps.charge _).bind fun _ => .pure _

theorem encodeCharged_eq : encodeCharged = encode := by
  funext pixels w h column row
  unfold encodeCharged encode
  simp only [(keeps_indexed _ _ _ _ _ _).rewind_eq_scope]

theorem restores_encodeCharged (pixels : ByteArray) (w h column row : Nat) :
    Restores (encodeCharged pixels w h column row) := by
  unfold encodeCharged
  split_ifs
  · exact .throw _
  · refine (Keeps.lift _).bind fun size => ?_
    split_ifs
    · exact .throw _
    · exact (keeps_indexed _ _ _ _ _ _).restores_rewind

end Sixel

namespace InlineFile

variable (png : PngEncoder) (pixels : ByteArray) (w h column row columns rows : Nat)

/-- Show pixels as a PNG file; the charge is lowered by hand. -/
def encodePixelsCharged : Scratching String :=
  rewind do
    let file ← pngFile png pixels w h
    encode file column row columns rows

theorem keeps_pngFile : Keeps budget (pngFile png pixels w h) := by
  unfold pngFile
  split_ifs
  · exact .throw _
  · refine (Keeps.lift _).bind fun size => ?_
    split_ifs
    · exact .throw _
    · exact (Keeps.charge _).bind fun _ => .lift _

theorem restores_encodePixelsCharged :
    Restores (encodePixelsCharged png pixels w h column row columns rows) :=
  ((keeps_pngFile png pixels w h).bind fun _ => .lift _).restores_rewind

theorem encodePixelsCharged_eq : encodePixelsCharged = encodePixels := by
  funext png pixels w h column row columns rows
  exact ((keeps_pngFile png pixels w h).bind fun _ => .lift _).rewind_eq_scope

end InlineFile

namespace Presentation

variable (png : PngEncoder) (c : ImageCommand) (bytes : ByteArray) (support : ImageSupport)

/-- The text of an image for the Sixel protocol; the charge is lowered by hand. -/
def sixelCharged : Scratching String := do
  if c.format ≠ .rgba then throw (.unsupported .sixelPng)
  let target ← targetSize c support
  rewind do
    let pixels ← Scale.charged bytes (c.width, c.height) c.fit target
    Sixel.encodeCharged pixels target.1 target.2 c.column c.row

/-- The text of an image for the iTerm2 protocol; the charge is lowered by hand. -/
def inlineCharged : Scratching String := do
  if c.format = .png then InlineFile.encode bytes c.column c.row c.columns c.rows
  else
    let target ← targetSize c support
    rewind do
      let pixels ← Scale.charged bytes (c.width, c.height) c.fit target
      InlineFile.encodePixelsCharged png pixels target.1 target.2 c.column c.row c.columns c.rows

theorem keeps_sixelScaled (target : Fit.Extent) :
    Keeps budget (do
      let pixels ← Scale.charged bytes (c.width, c.height) c.fit target
      Sixel.encodeCharged pixels target.1 target.2 c.column c.row) :=
  (Scale.keeps_charged _ _ _ _).bind fun _ => .of_restores (Sixel.restores_encodeCharged _ _ _ _ _)

theorem keeps_inlineScaled (target : Fit.Extent) :
    Keeps budget (do
      let pixels ← Scale.charged bytes (c.width, c.height) c.fit target
      InlineFile.encodePixelsCharged png pixels target.1 target.2 c.column c.row c.columns
        c.rows) :=
  (Scale.keeps_charged _ _ _ _).bind fun _ =>
    .of_restores (InlineFile.restores_encodePixelsCharged _ _ _ _ _ _ _ _)

theorem restores_sixelCharged : Restores (sixelCharged c bytes support) := by
  unfold sixelCharged
  split_ifs
  · exact .throw _
  · exact (Keeps.lift _).bind fun target => (keeps_sixelScaled c bytes target).restores_rewind

theorem restores_inlineCharged : Restores (inlineCharged png c bytes support) := by
  unfold inlineCharged
  split_ifs
  · exact .lift _
  · exact (Keeps.lift _).bind fun target => (keeps_inlineScaled png c bytes target).restores_rewind

theorem sixelCharged_eq : sixelCharged = sixelText := by
  funext c bytes support
  unfold sixelCharged sixelText
  simp only [(keeps_sixelScaled _ _ _).rewind_eq_scope]
  rw [Sixel.encodeCharged_eq]

theorem inlineCharged_eq : inlineCharged = inlineText := by
  funext png c bytes support
  unfold inlineCharged inlineText
  simp only [(keeps_inlineScaled _ _ _ _).rewind_eq_scope]
  rw [InlineFile.encodePixelsCharged_eq]

end Presentation

end CellCanvas
