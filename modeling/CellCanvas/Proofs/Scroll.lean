import CellCanvas.Scroll
import Mathlib.Tactic

/-!
# Scroll plans are sound

Whatever plan is preferred, it lies within the screen, and every row that it moves looks after the
move like the row that is wanted there.
-/

namespace CellCanvas.ScrollPlan

/-- The plan moves rows within the screen, and only to where they are wanted. `sameRow new old`
compares a wanted row with a row that is there. -/
structure IsSound (rows : Nat) (sameRow : Nat → Nat → Bool) (p : ScrollPlan) : Prop where
  lines_pos : 0 < p.lines
  lines_le : p.top + p.lines ≤ p.bottom
  bottom_lt : p.bottom < rows
  moves_up : p.up = true → ∀ y, p.top ≤ y → y + p.lines ≤ p.bottom → sameRow y (y + p.lines) = true
  moves_down : p.up = false → ∀ y, p.top ≤ y → y + p.lines ≤ p.bottom →
    sameRow (y + p.lines) y = true

variable {holds : Nat → Bool} {sameRow : Nat → Nat → Bool} {rows : Nat}

/-- A run is not empty, ends in time, and holds throughout. -/
theorem mem_runsFrom {y current left : Nat} (hcurrent : current ≤ y)
    (hheld : ∀ i, y - current ≤ i → i < y → holds i = true) {run : Nat × Nat}
    (h : run ∈ runsFrom holds y current left) :
    0 < run.2 ∧ run.1 + run.2 ≤ y + left ∧
      ∀ i, run.1 ≤ i → i < run.1 + run.2 → holds i = true := by
  have hlast (hpos : 0 < current) : 0 < current ∧ y - current + current ≤ y + left ∧
      ∀ i, y - current ≤ i → i < y - current + current → holds i = true := by
    refine ⟨hpos, by omega, ?_⟩
    intro i h₁ h₂
    exact hheld i h₁ (by omega)
  induction left generalizing y current with
  | zero =>
    rw [runsFrom] at h
    split_ifs at h with hpos
    · obtain rfl := List.mem_singleton.mp h
      exact hlast hpos
    · cases h
  | succ left ih =>
    rw [runsFrom] at h
    by_cases hy : holds y = true
    · rw [if_pos hy] at h
      have hextended (i : Nat) (h₁ : y + 1 - (current + 1) ≤ i) (h₂ : i < y + 1) :
          holds i = true := by
        by_cases hi : i = y
        · exact hi ▸ hy
        · exact hheld i (by omega) (by omega)
      have hrun := ih (by omega) hextended h (fun hpos => ⟨hpos, by omega, fun i h₁ h₂ =>
        hextended i h₁ (by omega)⟩)
      exact ⟨hrun.1, by omega, hrun.2.2⟩
    · rw [if_neg hy] at h
      have hfresh (h : run ∈ runsFrom holds (y + 1) 0 left) :
          0 < run.2 ∧ run.1 + run.2 ≤ y + (left + 1) ∧
            ∀ i, run.1 ≤ i → i < run.1 + run.2 → holds i = true := by
        have hrun := ih (Nat.zero_le _) (fun i h₁ h₂ => by omega) h (fun hpos => by omega)
        exact ⟨hrun.1, by omega, hrun.2.2⟩
      dsimp only at h
      split_ifs at h with hpos
      · rcases List.mem_cons.mp h with rfl | h
        · exact hlast hpos
        · exact hfresh h
      · exact hfresh h

theorem mem_runs {n : Nat} {run : Nat × Nat} (h : run ∈ runs holds n) :
    0 < run.2 ∧ run.1 + run.2 ≤ n ∧ ∀ i, run.1 ≤ i → i < run.1 + run.2 → holds i = true := by
  have hrun := mem_runsFrom (Nat.le_refl 0) (fun i h₁ h₂ => by omega) h
  rwa [Nat.zero_add] at hrun

theorem isSound_of_mem_candidates {p : ScrollPlan} (h : p ∈ candidates rows sameRow) :
    p.IsSound rows sameRow := by
  simp only [candidates, List.mem_flatMap, List.mem_append, List.mem_map, List.mem_range] at h
  obtain ⟨d, hd, ⟨run, hrun, rfl⟩ | ⟨run, hrun, rfl⟩⟩ := h
  all_goals
    obtain ⟨hpos, hend, hheld⟩ := mem_runs hrun
    refine ⟨by simp [ofRun], ?_, ?_, ?_, ?_⟩
    · simp only [ofRun]
      omega
    · simp only [ofRun]
      omega
    · intro hup y h₁ h₂
      simp only [ofRun] at hup h₁ h₂
      first | exact hheld y h₁ (by omega) | cases hup
    · intro hup y h₁ h₂
      simp only [ofRun] at hup h₁ h₂
      first | exact hheld y h₁ (by omega) | cases hup

theorem choose_eq (best : Option ScrollPlan) (p : ScrollPlan) :
    choose best p = some p ∨ choose best p = best := by
  unfold choose
  cases best with
  | none => exact Or.inl rfl
  | some b =>
    dsimp only
    split_ifs
    · exact Or.inl rfl
    · exact Or.inr rfl

/-- The best plan is one of the plans that were tried. -/
theorem mem_of_foldl_choose {plans : List ScrollPlan} {best : Option ScrollPlan} {p : ScrollPlan}
    (h : plans.foldl choose best = some p) : p ∈ plans ∨ best = some p := by
  induction plans generalizing best with
  | nil => exact Or.inr h
  | cons q plans ih =>
    rcases ih h with hp | hp
    · exact Or.inl (List.mem_cons_of_mem q hp)
    · rcases choose_eq best q with hq | hq
      · rw [hq] at hp
        cases hp
        exact Or.inl List.mem_cons_self
      · exact Or.inr (hq ▸ hp)

theorem isSound_of_detect {columns dirtyRows : Nat} {p : ScrollPlan}
    (h : detect rows columns dirtyRows sameRow = some p) : p.IsSound rows sameRow := by
  unfold detect at h
  split_ifs at h
  rcases mem_of_foldl_choose h with hp | hp
  · exact isSound_of_mem_candidates (List.mem_of_mem_filter hp)
  · cases hp

end CellCanvas.ScrollPlan
