import CellCanvas.Proofs.Session.Unbounded

/-!
# The spans of a row

Between two valid frames of one size, the spans of a row contain the columns whose cells differ and
the halves of the wide glyphs that differ in a half, and no other column. They come in order, have
no column in common and cut no wide glyph.
-/

namespace CellCanvas.Comparison

/-- The cells at a place compare as different. -/
def Differs (c : Comparison) (x y : Nat) : Prop :=
  ∃ old new, c.previous.cell? x y = some old ∧ c.next.cell? x y = some new ∧
    c.sameCell old new = false

/-- A wide glyph of the new frame starts at a place. -/
def IsLead (c : Comparison) (x y : Nat) : Prop :=
  ∃ new, c.next.cell? x y = some new ∧ new.width = 2

/-- The cells at a place differ, or it holds half of a wide glyph of the new frame that differs in
one of its halves. -/
def IsChanged (c : Comparison) (x y : Nat) : Prop :=
  c.Differs x y ∨
    ∃ w, c.IsLead w y ∧ (x = w ∨ x = w + 1) ∧ (c.Differs w y ∨ c.Differs (w + 1) y)

/-- Two valid frames of one size. -/
structure IsAligned (c : Comparison) : Prop where
  previous : c.previous.isValid = true
  next : c.next.isValid = true
  width : c.previous.width = c.next.width
  height : c.previous.height = c.next.height

variable {c : Comparison} {x y z w : Nat}

theorem Differs.lt (h : c.Differs x y) : x < c.next.width ∧ y < c.next.height := by
  obtain ⟨-, new, -, hnew, -⟩ := h
  exact Frame.lt_of_cell? hnew

/-- Cells that compare as the same have the same width. -/
theorem width_eq_of_sameCell {old new : Cell} (h : c.sameCell old new = true) :
    old.width = new.width := by
  unfold sameCell at h
  split_ifs at h
  · rw [of_decide_eq_true h]
  · have hcell := of_decide_eq_true (Bool.and_eq_true_iff.mp h).1
    change old.unlinked.width = new.unlinked.width
    rw [hcell]

theorem isDirty_eq_false (h : ¬(x < c.next.width ∧ y < c.next.height)) :
    c.isDirty x y = false := by
  unfold isDirty
  rw [Frame.cell?_eq_none h]
  cases c.previous.cell? x y <;> rfl

theorem isDirty_of_differs (h : c.Differs x y) : c.isDirty x y = true := by
  obtain ⟨old, new, hold, hnew, hdiffers⟩ := h
  simp only [isDirty, hold, hnew, hdiffers, Bool.not_false, Bool.true_or]

/-- A dirty cell differs, or it is the same and a cell to its right differs that is a continuation
in one of the frames. -/
theorem cases_of_isDirty (hdirty : c.isDirty x y = true) : c.Differs x y ∨
    ∃ old new old' new', c.previous.cell? x y = some old ∧ c.next.cell? x y = some new ∧
      c.sameCell old new = true ∧ c.previous.cell? (x + 1) y = some old' ∧
      c.next.cell? (x + 1) y = some new' ∧ (old'.width = 0 ∨ new'.width = 0) ∧
      c.sameCell old' new' = false := by
  unfold isDirty at hdirty
  cases hold : c.previous.cell? x y with
  | none => simp [hold] at hdirty
  | some old =>
    cases hnew : c.next.cell? x y with
    | none => simp [hold, hnew] at hdirty
    | some new =>
      cases hsame : c.sameCell old new with
      | false => exact .inl ⟨old, new, hold, hnew, hsame⟩
      | true =>
        cases hold' : c.previous.cell? (x + 1) y with
        | none => simp [hold, hnew, hsame, hold'] at hdirty
        | some old' =>
          cases hnew' : c.next.cell? (x + 1) y with
          | none => simp [hold, hnew, hsame, hold', hnew'] at hdirty
          | some new' =>
            simp only [hold, hnew, hsame, hold', hnew', Cell.isContinuation, Bool.not_true,
              Bool.false_or, Bool.and_eq_true, Bool.or_eq_true, Bool.not_eq_true',
              beq_iff_eq] at hdirty
            exact .inr ⟨old, new, old', new', rfl, rfl, hsame, rfl, rfl, hdirty.1, hdirty.2⟩

namespace IsAligned

variable (h : c.IsAligned)

include h

theorem exists_previous {new : Cell} (hnew : c.next.cell? x y = some new) :
    ∃ old, c.previous.cell? x y = some old := by
  obtain ⟨hx, hy⟩ := Frame.lt_of_cell? hnew
  exact Frame.exists_cell? (h.width ▸ hx) (h.height ▸ hy)

/-- To the right of a lead there is a continuation. -/
theorem continuation_of_isLead (hlead : c.IsLead w y) :
    ∃ tail, c.next.cell? (w + 1) y = some tail ∧ tail.width = 0 := by
  obtain ⟨new, hnew, hwide⟩ := hlead
  exact (Frame.isPaired_cellRow h.next y).tail hnew hwide

/-- To the left of a continuation there is a lead. -/
theorem isLead_of_continuation {new : Cell} (hnew : c.next.cell? x y = some new)
    (hzero : new.width = 0) : ∃ w, x = w + 1 ∧ c.IsLead w y := by
  obtain ⟨-, w, lead, rfl, hlead, hwide⟩ := (Frame.isPaired_cellRow h.next y).lead hnew hzero
  exact ⟨w, rfl, lead, hlead, hwide⟩

/-- A continuation to the right of a cell that is the same belongs to a lead of the new frame. -/
theorem isDirty_iff : c.isDirty x y = true ↔
    c.Differs x y ∨ c.IsLead x y ∧ c.Differs (x + 1) y := by
  constructor
  · intro hdirty
    rcases cases_of_isDirty hdirty with
      hdiffers | ⟨old, new, old', new', hold, hnew, hsame, hold', hnew', hzero, hdiffers⟩
    · exact .inl hdiffers
    refine .inr ⟨?_, old', new', hold', hnew', hdiffers⟩
    rcases hzero with hzero | hzero
    · obtain ⟨-, w, lead, hw, hlead, hwide⟩ :=
        (Frame.isPaired_cellRow h.previous y).lead hold' hzero
      obtain rfl : x = w := Nat.succ.inj hw
      change c.previous.cell? x y = some lead at hlead
      rw [hold] at hlead
      cases hlead
      exact ⟨new, hnew, width_eq_of_sameCell hsame ▸ hwide⟩
    · obtain ⟨w, hw, hlead⟩ := h.isLead_of_continuation hnew' hzero
      obtain rfl : x = w := Nat.succ.inj hw
      exact hlead
  · rintro (hdiffers | ⟨hlead, hdiffers⟩)
    · exact isDirty_of_differs hdiffers
    · obtain ⟨tail, htail, hzero⟩ := h.continuation_of_isLead hlead
      obtain ⟨new, hnew, -⟩ := hlead
      obtain ⟨old, hold⟩ := h.exists_previous hnew
      obtain ⟨old', new', hold', hnew', hdiffers⟩ := hdiffers
      rw [htail] at hnew'
      cases hnew'
      have hcontinuation : tail.isContinuation = true := by simp [Cell.isContinuation, hzero]
      simp only [isDirty, hold, hnew, hold', htail, hdiffers, hcontinuation, Bool.or_true,
        Bool.not_false, Bool.and_true]

/-- What is changed is what is dirty, and the right halves of the leads that are. -/
theorem isChanged_iff : c.IsChanged x y ↔
    c.isDirty x y = true ∨ ∃ w, x = w + 1 ∧ c.IsLead w y ∧ c.isDirty w y = true := by
  constructor
  · rintro (hdiffers | ⟨w, hlead, rfl | rfl, hhalf⟩)
    · exact .inl (isDirty_of_differs hdiffers)
    · exact .inl (h.isDirty_iff.mpr (hhalf.imp_right fun hright => ⟨hlead, hright⟩))
    · exact .inr ⟨w, rfl, hlead, h.isDirty_iff.mpr (hhalf.imp_right fun hright => ⟨hlead, hright⟩)⟩
  · rintro (hdirty | ⟨w, rfl, hlead, hdirty⟩)
    · rcases h.isDirty_iff.mp hdirty with hdiffers | ⟨hlead, hdiffers⟩
      · exact .inl hdiffers
      · exact .inr ⟨x, hlead, .inl rfl, .inr hdiffers⟩
    · exact .inr ⟨w, hlead, .inr rfl, (h.isDirty_iff.mp hdirty).imp_right And.right⟩

theorem lt_of_isChanged (hchanged : c.IsChanged x y) : x < c.next.width ∧ y < c.next.height := by
  rcases hchanged with hdiffers | ⟨w, hlead, hx, -⟩
  · exact hdiffers.lt
  · obtain ⟨tail, htail, -⟩ := h.continuation_of_isLead hlead
    obtain ⟨hw, hy⟩ := Frame.lt_of_cell? htail
    omega

end IsAligned

theorem isDirty_of_lt_runEnd {left : Nat} (h₁ : x ≤ z) (h₂ : z < c.runEnd y x left) :
    c.isDirty z y = true := by
  induction left generalizing x with
  | zero =>
    rw [runEnd] at h₂
    omega
  | succ left ih =>
    rw [runEnd] at h₂
    split_ifs at h₂ with hdirty
    · rcases Nat.eq_or_lt_of_le h₁ with rfl | hlt
      · exact hdirty
      · exact ih hlt h₂
    · omega

/-- A run ends at a column that is not dirty, or at the end of the row. -/
theorem isDirty_runEnd {left : Nat} (hrow : x + left = c.next.width) :
    c.isDirty (c.runEnd y x left) y = false := by
  induction left generalizing x with
  | zero => exact isDirty_eq_false fun hin => by rw [runEnd] at hin; omega
  | succ left ih =>
    rw [runEnd]
    split_ifs with hdirty
    · exact ih (by omega)
    · simpa using hdirty

/-- No wide glyph of which a half must be written starts right before a column. -/
def StartsAfresh (c : Comparison) (y x : Nat) : Prop :=
  ∀ w, w + 1 = x → c.IsLead w y → c.isDirty w y = false

/-- A span cuts no wide glyph: it does not start on a continuation or end on a lead. -/
structure IsWhole (c : Comparison) (y : Nat) (span : Nat × Nat) : Prop where
  le : span.1 ≤ span.2
  lt_width : span.2 < c.next.width
  first : ∀ new, c.next.cell? span.1 y = some new → new.width ≠ 0
  last : ¬c.IsLead span.2 y

/-- Spans that cover what is changed in a row from a column on. -/
structure Covers (c : Comparison) (y x : Nat) (spans : List (Nat × Nat)) : Prop where
  mem_iff : ∀ z, z ∈ columnsOf spans ↔ x ≤ z ∧ c.IsChanged z y
  ordered : spans.Pairwise fun a b => a.2 < b.1
  whole : ∀ span ∈ spans, c.IsWhole y span

namespace Covers

variable {spans : List (Nat × Nat)}

theorem le_first (h : c.Covers y x spans) {span : Nat × Nat} (hspan : span ∈ spans) :
    x ≤ span.1 :=
  ((h.mem_iff span.1).mp (mem_columnsOf.mpr
    ⟨span, hspan, Nat.le_refl _, (h.whole span hspan).le⟩)).1

/-- A column that is not changed can be passed. -/
theorem pass (h : c.Covers y (x + 1) spans) (hx : ¬c.IsChanged x y) : c.Covers y x spans := by
  refine ⟨?_, h.ordered, h.whole⟩
  intro z
  rw [h.mem_iff z]
  constructor
  · exact fun hz => ⟨by omega, hz.2⟩
  · rintro ⟨hle, hz⟩
    refine ⟨Nat.lt_of_le_of_ne hle ?_, hz⟩
    rintro rfl
    exact hx hz

/-- A span whose columns are all changed goes before the spans that cover the rest. -/
theorem cons {span : Nat × Nat} (h : c.Covers y (span.2 + 1) spans) (hwhole : c.IsWhole y span)
    (hall : ∀ z, span.1 ≤ z → z ≤ span.2 → c.IsChanged z y) :
    c.Covers y span.1 (span :: spans) := by
  refine ⟨?_, ?_, ?_⟩
  · intro z
    have hle := hwhole.le
    rw [columnsOf_cons, List.mem_append, List.mem_range'_1, h.mem_iff z]
    constructor
    · rintro (hin | ⟨hlater, hz⟩)
      · exact ⟨hin.1, hall z hin.1 (by omega)⟩
      · exact ⟨by omega, hz⟩
    · rintro ⟨hz, hchanged⟩
      by_cases hin : z ≤ span.2
      · exact .inl ⟨hz, by omega⟩
      · exact .inr ⟨by omega, hchanged⟩
  · exact List.pairwise_cons.mpr ⟨fun later hlater => h.le_first hlater, h.ordered⟩
  · intro s hs
    rcases List.mem_cons.mp hs with rfl | hs
    · exact hwhole
    · exact h.whole s hs

end Covers

namespace IsAligned

variable (h : c.IsAligned)

include h

/-- A span starts where its run does: a dirty continuation comes after its dirty lead. -/
theorem width_ne_zero_of_startsAfresh (hstart : c.StartsAfresh y x)
    (hdirty : c.isDirty x y = true) {new : Cell} (hnew : c.next.cell? x y = some new) :
    new.width ≠ 0 := by
  intro hzero
  obtain ⟨w, rfl, hlead⟩ := h.isLead_of_continuation hnew hzero
  have hdiffers : c.Differs (w + 1) y := by
    rcases h.isDirty_iff.mp hdirty with hdiffers | ⟨⟨new', hnew', hwide⟩, -⟩
    · exact hdiffers
    · rw [hnew] at hnew'
      cases hnew'
      omega
  have hclean := hstart w rfl hlead
  rw [h.isDirty_iff.mpr (.inr ⟨hlead, hdiffers⟩)] at hclean
  cases hclean

/-- Widening a run adds the right half of the lead that it ends on, and nothing else. -/
theorem widen_eq (hstart : c.StartsAfresh y x) (hdirty : c.isDirty x y = true) {last : Nat} :
    widen c.next y x last =
      (x, if (c.next.cell? last y).any Cell.isWide then last + 1 else last) := by
  have hfirst : (decide (0 < x) && (c.next.cell? x y).any Cell.isContinuation) = false := by
    cases hnew : c.next.cell? x y with
    | none => simp
    | some new =>
      have hwidth := h.width_ne_zero_of_startsAfresh hstart hdirty hnew
      simp [Cell.isContinuation, hwidth]
  unfold widen
  rw [hfirst, if_neg Bool.false_ne_true]
  cases hwide : (c.next.cell? last y).any Cell.isWide with
  | false => rfl
  | true =>
    obtain ⟨new, hnew, hlead⟩ := (Option.any_eq_true _ _).mp hwide
    have hroom := Frame.add_width_le h.next hnew
    have hwidth : new.width = 2 := by simpa [Cell.isWide] using hlead
    have hlt : last + 1 < c.next.width := by omega
    simp [hlt]

/-- A run of dirty columns, widened, is a whole span of changed columns. What follows it starts
afresh. -/
theorem span_of_run (hstart : c.StartsAfresh y x) {stop : Nat} (hx : x < stop)
    (hstop : stop ≤ c.next.width) (hrun : ∀ z, x ≤ z → z < stop → c.isDirty z y = true)
    (hend : c.isDirty stop y = false) :
    ∃ last, widen c.next y x (stop - 1) = (x, last) ∧ stop ≤ last + 1 ∧ c.IsWhole y (x, last) ∧
      (∀ z, x ≤ z → z ≤ last → c.IsChanged z y) ∧ c.StartsAfresh y (last + 1) := by
  have hdirty := hrun x (Nat.le_refl x) hx
  have hfirst (new : Cell) (hnew : c.next.cell? x y = some new) :=
    h.width_ne_zero_of_startsAfresh hstart hdirty hnew
  have hchanged (z : Nat) (h₁ : x ≤ z) (h₂ : z < stop) : c.IsChanged z y :=
    h.isChanged_iff.mpr (.inl (hrun z h₁ h₂))
  rw [h.widen_eq hstart hdirty]
  by_cases hwide : (c.next.cell? (stop - 1) y).any Cell.isWide = true
  · obtain ⟨new, hnew, hlead⟩ := (Option.any_eq_true _ _).mp hwide
    have hlead : c.IsLead (stop - 1) y := ⟨new, hnew, by simpa [Cell.isWide] using hlead⟩
    have hsucc : stop - 1 + 1 = stop := by omega
    obtain ⟨tail, htail, hzero⟩ := h.continuation_of_isLead hlead
    rw [hsucc] at htail
    rw [if_pos hwide, hsucc]
    refine ⟨stop, rfl, Nat.le_succ stop, ⟨hx.le, (Frame.lt_of_cell? htail).1, hfirst, ?_⟩, ?_, ?_⟩
    · rintro ⟨new', hnew', hwide'⟩
      rw [htail] at hnew'
      cases hnew'
      omega
    · intro z h₁ h₂
      rcases Nat.lt_or_eq_of_le h₂ with hlt | rfl
      · exact hchanged z h₁ hlt
      · exact h.isChanged_iff.mpr (.inr ⟨_, hsucc.symm, hlead, hrun _ (by omega) (by omega)⟩)
    · intro w hw _
      obtain rfl : w = stop := Nat.succ.inj hw
      exact hend
  · have hnarrow : ¬c.IsLead (stop - 1) y := by
      rintro ⟨new, hnew, hlead⟩
      exact hwide (by simp [hnew, Cell.isWide, hlead])
    rw [if_neg hwide]
    refine ⟨stop - 1, rfl, by omega, ⟨by dsimp only; omega, by dsimp only; omega, hfirst, hnarrow⟩,
      fun z h₁ h₂ => hchanged z h₁ (by omega), ?_⟩
    intro w hw hlead
    obtain rfl : w = stop - 1 := Nat.succ.inj hw
    exact absurd hlead hnarrow

/-- The scan from a column on, when the columns before `resume` are in a span already. -/
theorem covers_spansFrom {left resume : Nat} (hrow : x + left = c.next.width)
    (hstart : c.StartsAfresh y (max x resume)) :
    c.Covers y (max x resume) (c.spansFrom y x resume left) := by
  induction left generalizing x resume with
  | zero =>
    refine ⟨?_, List.Pairwise.nil, nofun⟩
    intro z
    refine ⟨nofun, ?_⟩
    rintro ⟨hz, hchanged⟩
    have := (h.lt_of_isChanged hchanged).1
    omega
  | succ left ih =>
    rw [spansFrom]
    by_cases hresume : x < resume
    · have hmax : max x resume = max (x + 1) resume := by omega
      rw [hmax] at hstart ⊢
      rw [if_pos (by simp [hresume])]
      exact ih (by omega) hstart
    · have hmax : max x resume = x := by omega
      rw [hmax] at hstart ⊢
      by_cases hdirty : c.isDirty x y = true
      · have hlt := c.le_runEnd y (x + 1) left
        have hle := c.runEnd_le y (x + 1) left
        have hrun (z : Nat) (h₁ : x ≤ z) (h₂ : z < c.runEnd y (x + 1) left) :
            c.isDirty z y = true := by
          rcases Nat.eq_or_lt_of_le h₁ with rfl | hlt
          · exact hdirty
          · exact isDirty_of_lt_runEnd hlt h₂
        obtain ⟨last, hwiden, hlast, hwhole, hall, hafter⟩ :=
          h.span_of_run hstart hlt (by omega) hrun (isDirty_runEnd (by omega))
        have hnext : max (x + 1) (max (c.runEnd y (x + 1) left) (last + 1)) = last + 1 := by
          have := hwhole.le
          dsimp only at this
          omega
        have hrest := ih (show x + 1 + left = c.next.width by omega) (hnext.symm ▸ hafter)
        rw [hnext] at hrest
        rw [if_neg (by simp [hresume, hdirty])]
        dsimp only
        rw [hwiden]
        exact hrest.cons hwhole hall
      · have hclean : c.isDirty x y = false := by simpa using hdirty
        have hnext : max (x + 1) resume = x + 1 := by omega
        have hafter : c.StartsAfresh y (max (x + 1) resume) := by
          rw [hnext]
          intro w hw _
          obtain rfl : w = x := Nat.succ.inj hw
          exact hclean
        have hrest := ih (show x + 1 + left = c.next.width by omega) hafter
        rw [hnext] at hrest
        rw [if_pos (by simp [hclean])]
        apply hrest.pass
        intro hchanged
        rcases h.isChanged_iff.mp hchanged with hx | ⟨w, hw, hlead, hw'⟩
        · exact hdirty hx
        · rw [hstart w hw.symm hlead] at hw'
          cases hw'

/-- The spans of a row cover what is changed in it. -/
theorem covers_spans (y : Nat) : c.Covers y 0 (c.spans y) :=
  h.covers_spansFrom (Nat.zero_add _) nofun

theorem mem_columnsOf_spans_iff : x ∈ columnsOf (c.spans y) ↔ c.IsChanged x y := by
  rw [(h.covers_spans y).mem_iff x]
  exact and_iff_right (Nat.zero_le x)

end IsAligned

end CellCanvas.Comparison
