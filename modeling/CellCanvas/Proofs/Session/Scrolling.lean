import CellCanvas.Proofs.Scroll
import CellCanvas.Proofs.Session.Comparison

/-!
# Letting the terminal shift rows

A sound plan moves old rows to where the new frame wants them. The rows that it leaves blank are
written whole, so after the shift every row that the plan covers shows the new frame.
-/

namespace CellCanvas

open Wire

namespace ScrollPlan

/-- What a screen shows after the shift. -/
def shifted (p : ScrollPlan) (screen : Screen) (r : Rendition) : Screen :=
  if p.up then screen.shiftUp p.top p.bottom p.lines r
  else screen.shiftDown p.top p.bottom p.lines r

variable {plan : ScrollPlan} {rows y : Nat} {sameRow : Nat → Nat → Bool} {screen : Screen}
  {r : Rendition}

theorem shifted_of_not_covers (h : plan.covers y = false) : plan.shifted screen r y = screen y := by
  have hout : ¬(plan.top ≤ y ∧ y ≤ plan.bottom) := by simpa [covers] using h
  unfold shifted
  split_ifs
  · exact if_neg hout
  · exact if_neg hout

/-- A covered row that is not exposed comes from a row that looks like it. -/
theorem exists_of_shifted (h : plan.IsSound rows sameRow) (hcovers : plan.covers y = true)
    (hexposed : y ∉ plan.exposedRows) :
    ∃ z, z < rows ∧ sameRow y z = true ∧ plan.shifted screen r y = screen z := by
  have hin : plan.top ≤ y ∧ y ≤ plan.bottom := by simpa [covers] using hcovers
  have hlines := h.lines_pos
  have hbottom := h.bottom_lt
  have hroom := h.lines_le
  simp only [exposedRows, exposed, List.mem_range'_1] at hexposed
  cases hup : plan.up with
  | true =>
    simp only [hup, if_true] at hexposed
    have hfrom : y + plan.lines ≤ plan.bottom := by omega
    refine ⟨y + plan.lines, by omega, h.moves_up hup y hin.1 hfrom, ?_⟩
    simp only [shifted, hup, if_true, Screen.shiftUp]
    rw [if_pos hin, if_pos hfrom]
  | false =>
    simp only [hup, Bool.false_eq_true, if_false] at hexposed
    have hfrom : plan.top + plan.lines ≤ y := by omega
    have hsame := h.moves_down hup (y - plan.lines) (by omega) (by omega)
    rw [Nat.sub_add_cancel (by omega)] at hsame
    refine ⟨y - plan.lines, by omega, hsame, ?_⟩
    simp only [shifted, hup, Bool.false_eq_true, if_false, Screen.shiftDown]
    rw [if_pos hin, if_pos hfrom]

theorem isPaired_shifted (h : plan.IsSound rows sameRow)
    (hscreen : ∀ z < rows, (screen z).IsPaired) (hy : y < rows) :
    (plan.shifted screen r y).IsPaired := by
  have hbottom := h.bottom_lt
  cases hup : plan.up with
  | true =>
    simp only [shifted, hup, if_true, Screen.shiftUp]
    split_ifs
    · exact hscreen _ (by omega)
    · exact ScreenRow.isPaired_blank r
    · exact hscreen _ hy
  | false =>
    simp only [shifted, hup, Bool.false_eq_true, if_false, Screen.shiftDown]
    split_ifs
    · exact hscreen _ (by omega)
    · exact ScreenRow.isPaired_blank r
    · exact hscreen _ hy

theorem covers_of_mem_exposedRows (h : plan.IsSound rows sameRow) (hy : y ∈ plan.exposedRows) :
    plan.covers y = true ∧ y < rows := by
  have hbottom := h.bottom_lt
  have hroom := h.lines_le
  have hlines := h.lines_pos
  simp only [exposedRows, exposed, List.mem_range'_1] at hy
  have hin : plan.top ≤ y ∧ y ≤ plan.bottom := by
    split_ifs at hy <;> simp only at hy <;> omega
  simp only [covers, Bool.and_eq_true, decide_eq_true_eq]
  omega

end ScrollPlan

namespace Draft

variable {f p : Frame} {t : Emulator} {d d' start : Draft} {caps : Capabilities} {budget : Nat}
  {plan : ScrollPlan}

theorem screen_scrolled {sameRow : Nat → Nat → Bool} (hplan : plan.IsSound t.height sameRow)
    (layout : Layout) (d : Draft) :
    ((d.scrolled plan).reached layout t).screen =
      plan.shifted (d.reached layout t).screen (d.reached layout t).rendition := by
  have hlines := hplan.lines_pos
  have hroom := hplan.lines_le
  have hbottom : plan.bottom < (d.reached layout t).height := by
    rw [(size_reached layout t d).2]
    exact hplan.bottom_lt
  change ((((d.emit (.scrollRegion plan.top plan.bottom)).emit
    (if plan.up then .scrollUp plan.lines else .scrollDown plan.lines)).emit
      .resetScrollRegion).reached layout t).screen = _
  rw [screen_emit rfl, reached_emit, reached_emit,
    Emulator.execute_scrollRegion _ _ (by omega) hbottom, ScrollPlan.shifted]
  cases plan.up with
  | true => simp only [if_true, Emulator.execute_scrollUp _ _ hlines]
  | false =>
    simp only [Bool.false_eq_true, if_false, Emulator.execute_scrollDown _ _ hlines]

theorem IsReady.scrolled (h : d.IsReady caps f t start) (plan : ScrollPlan) :
    (d.scrolled plan).IsReady caps f t start := ⟨h.tracks.scrolled plan, h.link⟩

end Draft

end CellCanvas
