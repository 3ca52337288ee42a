import CellCanvas.Proofs.Image.Charges
import CellCanvas.Proofs.Image.WordScale

/-!
# What is left charged

An image operation checks its input, charges for a buffer and fills the buffer. One that works in a
scope gives its charge back however it ends. The other two, which hand the buffer to the caller,
keep the charge also when they fail after it: scaling, which looks at the source only then, and the
encoder of PNG files, when the file cannot be made.
-/

namespace CellCanvas

namespace Scratch

variable {α β : Type}

/-- The three stages of an operation. -/
structure Stages (α : Type) where
  /-- What is checked before the charge. -/
  early : Except Failure Unit
  cost : Nat
  /-- What is done with the buffer. -/
  late : Except Failure α
  /-- Whether the charge is given back at the end. -/
  restores : Bool

namespace Stages

/-- Charge for the buffer and fill it. -/
def fill (g : Stages α) : Scratching α := do
  Scratch.charge g.cost
  liftM g.late

/-- One stage after the other. -/
def run (g : Stages α) : Scratching α := do
  liftM g.early
  if g.restores then rewind g.fill else g.fill

/-- All the ways in which the stages can end. -/
inductive Ends (g : Stages α) (s : Scratch) : Except Failure α × Scratch → Prop
  | refused {e : Failure} : g.early = .error e → Ends g s (.error e, s)
  | exhausted : g.early = .ok () → s.remaining < g.cost → Ends g s (.error (.limit .scratch), s)
  | given : g.early = .ok () → g.cost ≤ s.remaining → g.restores = true → Ends g s (g.late, s)
  | kept {after : Scratch} : g.early = .ok () → g.cost ≤ s.remaining → g.restores = false →
      after.budget = s.budget → after.used = s.used + g.cost → Ends g s (g.late, after)

theorem fill_of_lt {g : Stages α} {s : Scratch} (h : s.remaining < g.cost) :
    g.fill s = (.error (.limit .scratch), s) := by
  rw [fill, run_bind, charge_of_lt h]

theorem fill_of_le {g : Stages α} {s : Scratch} (h : g.cost ≤ s.remaining) :
    ∃ after, g.fill s = (g.late, after) ∧ after.budget = s.budget ∧
      after.used = s.used + g.cost := by
  obtain ⟨after, hcharge, hbudget, hused⟩ := charge_of_le h
  refine ⟨after, ?_, hbudget, hused⟩
  rw [fill, run_bind, hcharge]
  rfl

theorem keeps_fill (g : Stages α) : Keeps budget g.fill :=
  (Keeps.charge _).bind fun _ => .lift _

theorem ends (g : Stages α) (s : Scratch) : g.Ends s (g.run s) := by
  rw [run, run_bind, run_lift]
  cases hearly : g.early with
  | error e => exact .refused hearly
  | ok =>
    dsimp only
    rcases Nat.lt_or_ge s.remaining g.cost with hlt | hle
    · have hfill := fill_of_lt hlt
      split_ifs with hrestores
      · rw [(keeps_fill g).rewind_eq_scope, scope, hfill]
        exact .exhausted hearly hlt
      · rw [hfill]
        exact .exhausted hearly hlt
    · obtain ⟨after, hfill, hbudget, hused⟩ := fill_of_le hle
      split_ifs with hrestores
      · rw [(keeps_fill g).rewind_eq_scope, scope, hfill]
        exact .given hearly hle hrestores
      · rw [hfill]
        exact .kept hearly hle (by simpa using hrestores) hbudget hused

end Stages

theorem lift_bind (x : Except Failure α) (f : α → Except Failure β) :
    (liftM (x >>= f) : Scratching β) = (do liftM (f (← liftM x))) := by
  funext s
  rw [run_bind, run_lift, run_lift]
  cases x with
  | error e => rfl
  | ok a => rfl

/-- A check makes no difference to the account, so it may stand before the scope. -/
theorem rewind_lift_bind (x : Except Failure α) (work : α → Scratching β) :
    rewind (do work (← liftM x)) = (do rewind (work (← liftM x))) := by
  funext s
  rw [run_bind, run_lift, rewind, run_bind, run_lift]
  cases x with
  | error e =>
    dsimp only
    rw [dif_pos s.used_le]
  | ok a => rfl

/-- A step that does not look at the account may as well stand in the scope. -/
theorem scope_bind_lift (work : Scratching α) (f : α → Except Failure β) :
    (do liftM (f (← scope work)) : Scratching β) = scope (do liftM (f (← work))) := by
  funext s
  simp only [run_bind, scope]
  cases work s with
  | mk result after =>
    cases result with
    | error e => rfl
    | ok a => rfl

/-- The failure that work ends with, if any, and the account after it. -/
def outcome (work : Scratching α) (s : Scratch) : Option Failure × Scratch :=
  match work s with
  | (.ok _, after) => (none, after)
  | (.error e, after) => (some e, after)

end Scratch

open Scratch WordScale

/-- The pixels of an image have sides and enough bytes. -/
def checkPixels (pixels : ByteArray) (w h : UInt16) : Except Failure Unit :=
  if w.toNat = 0 ∨ h.toNat = 0 then .error (.invalid .imageSide)
  else if pixels.size < w.toNat * h.toNat * 4 then .error (.invalid .pixelLength)
  else .ok ()

theorem checkPixels_bind {α : Type} (pixels : ByteArray) (w h : UInt16)
    (next : Nat → Scratching α) :
    (do
      if w.toNat = 0 ∨ h.toNat = 0 then throw (.invalid .imageSide)
      let size ← Size.rgba w.toNat h.toNat
      if pixels.size < size then throw (.invalid .pixelLength)
      next size) = (do
        liftM (checkPixels pixels w h)
        next (w.toNat * h.toNat * 4)) := by
  have hsize : Size.rgba w.toNat h.toNat = .ok (w.toNat * h.toNat * 4) :=
    Scale.rgba_eq (e := sides w h) ⟨w.toNat_lt, h.toNat_lt⟩
  funext s
  rw [hsize]
  unfold checkPixels
  by_cases hside : w.toNat = 0 ∨ h.toNat = 0
  · rw [if_pos hside, if_pos hside]
    rfl
  · rw [if_neg hside, if_neg hside]
    by_cases hshort : pixels.size < w.toNat * h.toNat * 4
    · simp only [run_bind, run_lift, if_pos hshort]
      rfl
    · simp only [run_bind, run_lift, if_neg hshort]

theorem Scale.charged_eq (bytes : ByteArray) (sw sh : UInt16) (fit : Fit) (dw dh : UInt16) :
    charged bytes (sides sw sh) fit (sides dw dh) = (do
      Scratch.charge (dw.toNat * dh.toNat * 4)
      liftM (do
        check bytes (sides sw sh) (sides dw dh) (dw.toNat * dh.toNat * 4)
        return scaled bytes (sides sw sh) fit (sides dw dh) : Except Failure ByteArray)) := by
  have hsize : Size.rgba (sides dw dh).1 (sides dw dh).2 = .ok (dw.toNat * dh.toNat * 4) :=
    rgba_eq ⟨dw.toNat_lt, dh.toNat_lt⟩
  rw [charged, hsize]
  simp only [lift_bind]
  rfl

/-- Encode pixels for Sixel into an output; the charge is lowered by hand. -/
def Sixel.emit (out : Output) (pixels : ByteArray) (w h column row : Nat) : Scratching Output := do
  if w = 0 ∨ h = 0 then throw (.invalid .imageSide)
  let size ← Size.rgba w h
  if pixels.size < size then throw (.invalid .pixelLength)
  rewind do
    Scratch.charge (size / 4)
    let text := encodeIndexed (index pixels (size / 4)) w h column row
    out.append text.toUTF8

/-- Show pixels as a PNG file in an output; the charge is lowered by hand. -/
def InlineFile.emit (png : PngEncoder) (out : Output) (pixels : ByteArray)
    (w h column row columns rows : Nat) : Scratching Output :=
  rewind do
    let file ← pngFile png pixels w h
    let text ← encode file column row columns rows
    out.append text.toUTF8

theorem Sixel.emit_eq (out : Output) (pixels : ByteArray) (w h column row : Nat) :
    emit out pixels w h column row = (do
      let text ← encode pixels w h column row
      out.append text.toUTF8) := by
  funext s
  unfold emit encode
  by_cases hside : w = 0 ∨ h = 0
  · rw [if_pos hside, if_pos hside]
    rfl
  · rw [if_neg hside, if_neg hside]
    cases Size.rgba w h with
    | error e => rfl
    | ok size =>
      by_cases hshort : pixels.size < size
      · simp only [run_bind, run_lift, if_pos hshort]
        rfl
      · have hfill : Keeps budget (do
            Scratch.charge (size / 4)
            let text := encodeIndexed (index pixels (size / 4)) w h column row
            liftM (out.append text.toUTF8)) :=
          (Keeps.charge _).bind fun _ => .lift _
        have hscope := congrFun (scope_bind_lift (do
          Scratch.charge (size / 4)
          return encodeIndexed (index pixels (size / 4)) w h column row)
          fun text => out.append text.toUTF8) s
        simp only [run_bind, run_lift, bind_assoc, pure_bind] at hscope
        simp only [run_bind, run_lift, if_neg hshort, hfill.rewind_eq_scope]
        exact hscope.symm

theorem InlineFile.emit_eq (png : PngEncoder) (out : Output) (pixels : ByteArray)
    (w h column row columns rows : Nat) :
    emit png out pixels w h column row columns rows = (do
      let text ← encodePixels png pixels w h column row columns rows
      out.append text.toUTF8) := by
  have hfile := keeps_pngFile png pixels w h
  rw [← encodePixelsCharged_eq, encodePixelsCharged, emit,
    (hfile.bind fun _ => (Keeps.lift _).bind fun _ => .lift _).rewind_eq_scope,
    (hfile.bind fun _ => .lift _).rewind_eq_scope, scope_bind_lift, bind_assoc]

/-- An image operation that charges a scratch budget. -/
inductive Operation
  | scale (bytes : ByteArray) (sw sh : UInt16) (fit : Fit) (dw dh : UInt16)
  | sixel (out : Output) (pixels : ByteArray) (w h column row : UInt16)
  | pngFile (pixels : ByteArray) (w h : UInt16)
  | inline (out : Output) (pixels : ByteArray) (w h column row columns rows : UInt16)

namespace Operation

/-- Do the operation. -/
def run (png : PngEncoder) : Operation → Scratch → Option Failure × Scratch
  | scale bytes sw sh fit dw dh => outcome (Scale.charged bytes (sides sw sh) fit (sides dw dh))
  | sixel out pixels w h column row =>
    outcome (Sixel.emit out pixels w.toNat h.toNat column.toNat row.toNat)
  | pngFile pixels w h => outcome (InlineFile.pngFile png pixels w.toNat h.toNat)
  | inline out pixels w h column row columns rows =>
    outcome (InlineFile.emit png out pixels w.toNat h.toNat column.toNat row.toNat columns.toNat
      rows.toNat)

/-- What the operation charges for its buffer. -/
def cost : Operation → Nat
  | scale _ _ _ _ dw dh => dw.toNat * dh.toNat * 4
  | sixel _ _ w h _ _ => w.toNat * h.toNat
  | pngFile _ w h | inline _ _ w h _ _ _ _ =>
    w.toNat * h.toNat * 4 + h.toNat + InlineFile.fileOverhead

/-- Whether the buffer is given back at the end. -/
def restores : Operation → Bool
  | scale .. | pngFile .. => false
  | sixel .. | inline .. => true

/-- The operation fails when it has charged for a buffer that it does not give back: a raster that
cannot be scaled, or pixels that the encoder of PNG files cannot encode. -/
def FailsLate (png : PngEncoder) : Operation → Prop
  | scale bytes sw sh _ dw dh => Scale.IsInvalid bytes (sides sw sh) (sides dw dh)
  | pngFile pixels w h => checkPixels pixels w h = .ok () ∧
    ∃ e, png (pixels.extract 0 (w.toNat * h.toNat * 4)) w.toNat h.toNat = .error e
  | sixel .. | inline .. => False

/-- The account after the operation was tried a number of times. -/
def attempts (png : PngEncoder) (k : Operation) : Nat → Scratch → Scratch
  | 0, s => s
  | n + 1, s => k.attempts png n (k.run png s).2

theorem exists_stages (png : PngEncoder) (k : Operation) :
    ∃ (α : Type) (g : Stages α), k.run png = outcome g.run ∧ g.cost = k.cost ∧
      g.restores = k.restores ∧
      (k.FailsLate png ↔ g.early = .ok () ∧ g.restores = false ∧ ∃ e, g.late = .error e) := by
  cases k with
  | scale bytes sw sh fit dw dh =>
    refine ⟨ByteArray, ⟨.ok (), dw.toNat * dh.toNat * 4, do
      Scale.check bytes (sides sw sh) (sides dw dh) (dw.toNat * dh.toNat * 4)
      return Scale.scaled bytes (sides sw sh) fit (sides dw dh), false⟩, ?_, rfl, rfl, ?_⟩
    · rw [run, Scale.charged_eq]
      rfl
    · have hsource : Scale.IsShort (sides sw sh) := ⟨sw.toNat_lt, sh.toNat_lt⟩
      have htarget : Scale.IsShort (sides dw dh) := ⟨dw.toNat_lt, dh.toNat_lt⟩
      simp only [FailsLate, Scale.check_eq hsource htarget, true_and]
      cases hrefusal : Scale.refusal? bytes (sides sw sh) (sides dw dh)
          (dw.toNat * dh.toNat * 4) with
      | none => simpa using (Scale.refusal?_none_iff.mp hrefusal).1
      | some e =>
        have hinvalid : Scale.IsInvalid bytes (sides sw sh) (sides dw dh) := by
          by_contra hvalid
          have hnone : Scale.refusal? bytes (sides sw sh) (sides dw dh)
              (dw.toNat * dh.toNat * 4) = none :=
            Scale.refusal?_none_iff.mpr ⟨hvalid, le_rfl⟩
          rw [hnone] at hrefusal
          cases hrefusal
        exact iff_of_true hinvalid ⟨e, rfl⟩
  | sixel out pixels w h column row =>
    refine ⟨Output, ⟨checkPixels pixels w h, w.toNat * h.toNat, out.append
      (Sixel.encodeIndexed (Sixel.index pixels (w.toNat * h.toNat)) w.toNat h.toNat column.toNat
        row.toNat).toUTF8, true⟩, ?_, rfl, rfl, ?_⟩
    · rw [run, Sixel.emit, checkPixels_bind, Nat.mul_div_cancel _ (by decide)]
      rfl
    · simp [FailsLate]
  | pngFile pixels w h =>
    refine ⟨ByteArray, ⟨checkPixels pixels w h, w.toNat * h.toNat * 4 + h.toNat +
      InlineFile.fileOverhead, png (pixels.extract 0 (w.toNat * h.toNat * 4)) w.toNat h.toNat,
      false⟩, ?_, rfl, rfl, ?_⟩
    · rw [run, InlineFile.pngFile, checkPixels_bind]
      rfl
    · simp [FailsLate]
  | inline out pixels w h column row columns rows =>
    refine ⟨Output, ⟨checkPixels pixels w h, w.toNat * h.toNat * 4 + h.toNat +
      InlineFile.fileOverhead, do
        let file ← png (pixels.extract 0 (w.toNat * h.toNat * 4)) w.toNat h.toNat
        let text ← InlineFile.encode file column.toNat row.toNat columns.toNat rows.toNat
        out.append text.toUTF8, true⟩, ?_, rfl, rfl, ?_⟩
    · rw [run, InlineFile.emit, InlineFile.pngFile, checkPixels_bind, bind_assoc,
        rewind_lift_bind]
      simp only [Stages.run, Stages.fill, lift_bind, bind_assoc, if_true]
    · simp [FailsLate]

/-- All the ways in which an operation can end. -/
inductive Ends (png : PngEncoder) (k : Operation) (s : Scratch) : Option Failure × Scratch → Prop
  | unchanged {r : Option Failure} : (r = none → k.restores = true ∧ ¬k.FailsLate png) →
      ¬(k.FailsLate png ∧ k.cost ≤ s.remaining) → Ends png k s (r, s)
  | charged {r : Option Failure} {after : Scratch} : k.restores = false → k.cost ≤ s.remaining →
      after.budget = s.budget → after.used = s.used + k.cost → (r ≠ none ↔ k.FailsLate png) →
      Ends png k s (r, after)

theorem ends (png : PngEncoder) (k : Operation) (s : Scratch) : k.Ends png s (k.run png s) := by
  obtain ⟨α, g, hrun, hcost, hrestores, hlate⟩ := k.exists_stages png
  have hends := g.ends s
  rw [hrun, outcome]
  generalize g.run s = ended at hends ⊢
  cases hends with
  | refused hearly =>
    refine .unchanged (fun h => by cases h) ?_
    rintro ⟨hfails, -⟩
    rw [hlate, hearly] at hfails
    cases hfails.1
  | exhausted hearly hlt =>
    refine .unchanged (fun h => by cases h) ?_
    rintro ⟨-, hle⟩
    omega
  | given hearly hle hgiven =>
    have hnever : ¬k.FailsLate png := by
      rw [hlate, hgiven]
      simp
    cases g.late with
    | error e => exact .unchanged (fun h => by cases h) fun h => hnever h.1
    | ok a => exact .unchanged (fun _ => ⟨hrestores ▸ hgiven, hnever⟩) fun h => hnever h.1
  | kept hearly hle hkept hbudget hused =>
    rw [hcost] at hle hused
    have hfails : k.FailsLate png ↔ ∃ e, g.late = .error e := by
      rw [hlate]
      simp [hearly, hkept]
    cases hresult : g.late with
    | error e =>
      exact .charged (hrestores ▸ hkept) hle hbudget hused
        (iff_of_true (Option.some_ne_none e) (hfails.mpr ⟨e, hresult⟩))
    | ok a =>
      refine .charged (hrestores ▸ hkept) hle hbudget hused (iff_of_false (fun h => h rfl) ?_)
      rw [hfails, hresult]
      rintro ⟨e, he⟩
      cases he

variable {png : PngEncoder} {k : Operation} {s : Scratch}

/-- An operation that fails late takes its charge as often as the budget allows. -/
theorem used_attempts (hfails : k.FailsLate png) (n : Nat) :
    (k.attempts png n s).used = s.used + k.cost * min n (s.remaining / k.cost) := by
  induction n generalizing s with
  | zero => simp [attempts]
  | succ n ih =>
    rw [attempts, ih]
    have hends := k.ends png s
    generalize k.run png s = ended at hends ⊢
    cases hends with
    | unchanged _ hfull =>
      have hlt : s.remaining < k.cost := by
        by_contra hle
        exact hfull ⟨hfails, by omega⟩
      simp [Nat.div_eq_of_lt hlt]
    | @charged _ after _ hle hbudget hused =>
      have hremaining : s.remaining = after.remaining + k.cost := by
        have := after.used_le
        unfold remaining at hle ⊢
        omega
      change after.used + k.cost * min n (after.remaining / k.cost) = _
      rcases Nat.eq_zero_or_pos k.cost with hzero | hpos
      · simp [hused, hzero]
      · rw [hused, hremaining, Nat.add_div_right _ hpos, ← Nat.succ_eq_add_one,
          ← Nat.succ_eq_add_one, Nat.succ_min_succ, Nat.mul_succ]
        omega

theorem attempts_eq (hnever : ¬k.FailsLate png)
    (h : k.restores = true ∨ (k.run png s).1 ≠ none) (n : Nat) : k.attempts png n s = s := by
  have hsame : (k.run png s).2 = s := by
    have hends := k.ends png s
    generalize k.run png s = ended at h hends ⊢
    cases hends with
    | unchanged _ _ => rfl
    | charged hkept _ _ _ hiff =>
      rcases h with hrestores | herror
      · rw [hkept] at hrestores
        cases hrestores
      · exact absurd (hiff.mp herror) hnever
  induction n with
  | zero => rfl
  | succ n ih => rw [attempts, hsame, ih]

/-- An operation of a scope leaves the account as it was, however it ends. Scaling and the encoder
of PNG files add the size of the buffer that they return. They add it also when they fail after the
charge, so trying again uses up the budget; any other failure changes nothing, however often it is
tried. -/
theorem charges_left (png : PngEncoder) (k : Operation) (s : Scratch) :
    (k.run png s).2.budget = s.budget ∧
      ((k.run png s).1 = none →
        (k.run png s).2.used = s.used + if k.restores then 0 else k.cost) ∧
      (∀ e, (k.run png s).1 = some e →
        (k.FailsLate png → k.cost ≤ s.remaining → (k.run png s).2.used = s.used + k.cost) ∧
        (¬(k.FailsLate png ∧ k.cost ≤ s.remaining) → (k.run png s).2 = s)) ∧
      (k.FailsLate png → (k.run png s).1 ≠ none) ∧
      ∀ n, (k.FailsLate png →
          (k.attempts png n s).used = s.used + k.cost * min n (s.remaining / k.cost)) ∧
        (¬k.FailsLate png → k.restores = true ∨ (k.run png s).1 ≠ none →
          k.attempts png n s = s) := by
  refine ⟨?_, ?_, ?_, ?_, fun n => ⟨fun h => used_attempts h n, fun h h' => attempts_eq h h' n⟩⟩
  all_goals
    have hends := k.ends png s
    generalize k.run png s = ended at hends ⊢
  · cases hends with
    | unchanged _ _ => rfl
    | charged _ _ hbudget _ _ => exact hbudget
  · intro hok
    cases hends with
    | unchanged hdone _ =>
      rw [if_pos (hdone hok).1]
      rfl
    | charged hkept _ _ hused _ =>
      rw [hkept]
      exact hused
  · intro e herror
    cases hends with
    | unchanged _ hfull => exact ⟨fun hfails hle => absurd ⟨hfails, hle⟩ hfull, fun _ => rfl⟩
    | charged _ hle _ hused hiff =>
      cases herror
      have hfails := hiff.mp (Option.some_ne_none e)
      exact ⟨fun _ _ => hused, fun hnot => absurd ⟨hfails, hle⟩ hnot⟩
  · intro hfails hok
    cases hends with
    | unchanged hdone _ => exact (hdone hok).2 hfails
    | charged _ _ _ _ hiff => exact hiff.mpr hfails hok

/-- Scale an image of one pixel whose bytes are missing. -/
def scaleNothing : Operation := .scale .empty 1 1 .fill 2 2

/-- A budget of 16 bytes is used up by the first try. -/
theorem charges_left_sixteen :
    (scaleNothing.run Png.encoder (.withBudget 16)).1 = some (.invalid .sourceLength) ∧
      (scaleNothing.run Png.encoder (.withBudget 16)).2.used = 16 ∧
      (scaleNothing.attempts Png.encoder 5 (.withBudget 16)).used = 16 := by
  have hfails : scaleNothing.FailsLate Png.encoder := .inr (by decide)
  have hresult : (scaleNothing.run Png.encoder (.withBudget 16)).1 =
      some (.invalid .sourceLength) := by decide +kernel
  obtain ⟨-, -, herror, -, hattempts⟩ := charges_left Png.encoder scaleNothing (.withBudget 16)
  exact ⟨hresult, (herror _ hresult).1 hfails (by decide), (hattempts 5).1 hfails⟩

/-- A failure does not always give back what was charged. -/
theorem charges_kept :
    ¬ ∀ (png : PngEncoder) (k : Operation) (s : Scratch) (e : Failure),
      (k.run png s).1 = some e → (k.run png s).2.used = s.used := by
  intro hclaim
  have hused := hclaim Png.encoder scaleNothing (.withBudget 16) (.invalid .sourceLength)
    (by decide +kernel)
  exact absurd hused (by decide +kernel)

end Operation

end CellCanvas
