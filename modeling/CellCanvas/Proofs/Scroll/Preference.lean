import CellCanvas.Proofs.Scroll

/-!
# The preferred scroll plan

Among all runs of rows that some shift moves to where they are wanted, and that are long enough, the
plan that is used is the first in the order of preference. Only maximal runs are tried, but every
other run is part of one, which is preferred to it.
-/

namespace CellCanvas.ScrollPlan

/-- Whether a row is wanted where a shift moves it: upwards from `y + distance` to `y`, downwards
from `y` to `y + distance`. -/
def agrees (up : Bool) (distance : Nat) (sameRow : Nat → Nat → Bool) (y : Nat) : Bool :=
  if up then sameRow y (y + distance) else sameRow (y + distance) y

/-- A shift of a run of rows that are all wanted where it moves them, with enough rows and cells to
be worth it. The run need not be maximal. -/
structure IsCandidate (rows columns : Nat) (sameRow : Nat → Nat → Bool) (p : ScrollPlan) :
    Prop where
  lines_pos : 1 ≤ p.lines
  lines_le : p.lines ≤ min (rows - 1) maxDistance
  rows_le : minMovedRows ≤ p.moved
  cells_le : minMovedCells ≤ p.moved * columns
  bottom_eq : p.bottom + 1 = p.top + p.moved + p.lines
  bottom_lt : p.bottom < rows
  wanted : ∀ y, p.top ≤ y → y < p.top + p.moved → agrees p.up p.lines sameRow y = true

/-- The order of preference as an order of keys: preferred plans have smaller ones. -/
def key (p : ScrollPlan) : ℕᵒᵈ ×ₗ ℕ ×ₗ ℕ ×ₗ ℕ ×ₗ Bool :=
  toLex (.toDual p.moved, toLex (p.lines, toLex (p.top, toLex (p.bottom, !p.up))))

variable {holds : Nat → Bool} {sameRow : Nat → Nat → Bool} {rows columns dirtyRows : Nat}
variable {a b p q : ScrollPlan}

theorem key_injective : Function.Injective key := by
  intro a b h
  obtain ⟨up, top, bottom, lines, moved⟩ := a
  obtain ⟨up', top', bottom', lines', moved'⟩ := b
  simp only [key, EmbeddingLike.apply_eq_iff_eq, Prod.mk.injEq, Bool.not_inj_iff] at h
  obtain ⟨rfl, rfl, rfl, rfl, rfl⟩ := h
  rfl

theorem better_iff : a.better b = true ↔ a.key < b.key := by
  simp only [key, Prod.Lex.toLex_lt_toLex, OrderDual.toDual_lt_toDual, better]
  split_ifs <;> simp_all [Bool.lt_iff]

theorem choose_eq_argAux :
    choose = List.argAux fun a b => key a < key b := by
  funext best p
  cases best with
  | none => rfl
  | some b =>
    simp only [choose, List.argAux, better_iff]

/-- The plan that is left is the one with the least key. -/
theorem foldl_choose_eq_argmin (plans : List ScrollPlan) :
    plans.foldl choose none = plans.argmin key := by
  rw [choose_eq_argAux]
  rfl

/-- A run is part of a maximal one. -/
theorem exists_mem_runsFrom {y current left first length : Nat} (hcurrent : current ≤ y)
    (hfirst : y - current ≤ first) (hend : first + length ≤ y + left) (hlength : 0 < length)
    (hheld : ∀ i, first ≤ i → i < first + length → holds i = true) :
    ∃ run ∈ runsFrom holds y current left, run.1 ≤ first ∧ first + length ≤ run.1 + run.2 := by
  induction left generalizing y current with
  | zero =>
    rw [runsFrom, if_pos (by omega)]
    exact ⟨_, List.mem_singleton_self _, hfirst, by dsimp only; omega⟩
  | succ left ih =>
    rw [runsFrom]
    by_cases hy : holds y = true
    · rw [if_pos hy]
      exact ih (by omega) (by omega) (by omega)
    · rw [if_neg hy]
      dsimp only
      -- The run ends before `y`, where nothing holds, or starts after it.
      by_cases hbefore : first + length ≤ y
      · rw [if_pos (by omega)]
        exact ⟨_, List.mem_cons_self, hfirst, by dsimp only; omega⟩
      · have hafter : y < first := by
          by_contra hle
          exact hy (hheld y (by omega) (by omega))
        obtain ⟨run, hrun, hin⟩ := ih (Nat.zero_le (y + 1)) (by omega) (by omega)
        refine ⟨run, ?_, hin⟩
        split_ifs
        · exact List.mem_cons_of_mem _ hrun
        · exact hrun

theorem exists_mem_runs {n first length : Nat} (hend : first + length ≤ n) (hlength : 0 < length)
    (hheld : ∀ i, first ≤ i → i < first + length → holds i = true) :
    ∃ run ∈ runs holds n, run.1 ≤ first ∧ first + length ≤ run.1 + run.2 :=
  exists_mem_runsFrom (Nat.le_refl 0) (Nat.zero_le _) (by omega) hlength hheld

theorem mem_candidates : p ∈ candidates rows sameRow ↔
    ∃ up d run, d < min (rows - 1) maxDistance ∧
      run ∈ runs (agrees up (d + 1) sameRow) (rows - (d + 1)) ∧ ofRun up (d + 1) run = p := by
  simp only [candidates, List.mem_flatMap, List.mem_append, List.mem_map, List.mem_range]
  constructor
  · rintro ⟨d, hd, ⟨run, hrun, rfl⟩ | ⟨run, hrun, rfl⟩⟩
    · exact ⟨true, d, run, hd, hrun, rfl⟩
    · exact ⟨false, d, run, hd, hrun, rfl⟩
  · rintro ⟨up, d, run, hd, hrun, rfl⟩
    cases up with
    | true => exact ⟨d, hd, .inl ⟨run, hrun, rfl⟩⟩
    | false => exact ⟨d, hd, .inr ⟨run, hrun, rfl⟩⟩

theorem isCandidate_of_mem (h : p ∈ (candidates rows sameRow).filter (isWorthwhile · columns)) :
    p.IsCandidate rows columns sameRow := by
  obtain ⟨hp, hworth⟩ := List.mem_filter.mp h
  obtain ⟨hrows, hcells⟩ : minMovedRows ≤ p.moved ∧ minMovedCells ≤ p.moved * columns := by
    simpa [isWorthwhile] using hworth
  obtain ⟨up, d, run, hd, hrun, rfl⟩ := mem_candidates.mp hp
  obtain ⟨hpos, hend, hheld⟩ := mem_runs hrun
  refine ⟨Nat.succ_pos d, hd, hrows, hcells, ?_, ?_, hheld⟩
  · simp only [ofRun]
    omega
  · simp only [ofRun]
    omega

/-- A maximal run is preferred to its parts. -/
theorem IsCandidate.exists_key_le (h : q.IsCandidate rows columns sameRow) :
    ∃ p ∈ (candidates rows sameRow).filter (isWorthwhile · columns), p.key ≤ q.key := by
  obtain ⟨d, hd⟩ := Nat.exists_eq_add_of_le' h.lines_pos
  have hlines := h.lines_le
  have hbottom := h.bottom_eq
  have hlt := h.bottom_lt
  have hrows := h.rows_le
  have hpos : 0 < q.moved := Nat.lt_of_lt_of_le (by decide) hrows
  obtain ⟨run, hrun, hfirst, hlast⟩ := exists_mem_runs (n := rows - (d + 1))
    (show q.top + q.moved ≤ rows - (d + 1) by omega) hpos (hd ▸ h.wanted)
  have hmoved : q.moved ≤ run.2 := by omega
  refine ⟨ofRun q.up (d + 1) run, List.mem_filter.mpr ⟨mem_candidates.mpr
    ⟨q.up, d, run, by omega, hrun, rfl⟩, ?_⟩, ?_⟩
  · have hcells := h.cells_le.trans (Nat.mul_le_mul_right columns hmoved)
    simp [isWorthwhile, ofRun, hrows.trans hmoved, hcells]
  · rcases Nat.eq_or_lt_of_le hmoved with heq | hless
    · have hsame : ofRun q.up (d + 1) run = q := by
        have htop : run.1 = q.top := by omega
        have hregion : run.1 + run.2 - 1 + (d + 1) = q.bottom := by omega
        rw [ofRun, hregion, ← heq, ← hd, htop]
      rw [hsame]
    · apply le_of_lt
      simp only [key, Prod.Lex.toLex_lt_toLex, OrderDual.toDual_lt_toDual]
      exact .inl hless

theorem detect_of_small (h : rows < 2 ∨ columns = 0 ∨ dirtyRows < minDirtyRows) :
    detect rows columns dirtyRows sameRow = none :=
  if_pos (by simpa [or_assoc] using h)

section

variable (h : ¬(rows < 2 ∨ columns = 0 ∨ dirtyRows < minDirtyRows))

include h

theorem detect_eq_argmin : detect rows columns dirtyRows sameRow =
    ((candidates rows sameRow).filter (isWorthwhile · columns)).argmin key := by
  rw [detect, if_neg (by simpa [or_assoc] using h), foldl_choose_eq_argmin]

/-- There is no plan just when there is no candidate. -/
theorem detect_eq_none_iff : detect rows columns dirtyRows sameRow = none ↔
    ∀ p : ScrollPlan, ¬p.IsCandidate rows columns sameRow := by
  rw [detect_eq_argmin h, List.argmin_eq_none]
  constructor
  · intro hnil q hq
    obtain ⟨p, hp, -⟩ := hq.exists_key_le
    rw [hnil] at hp
    cases hp
  · intro hnone
    rw [List.eq_nil_iff_forall_not_mem]
    exact fun p hp => hnone p (isCandidate_of_mem hp)

/-- The plan is the candidate that is preferred to all others. -/
theorem detect_eq_some_iff : detect rows columns dirtyRows sameRow = some p ↔
    p.IsCandidate rows columns sameRow ∧
      ∀ q : ScrollPlan, q.IsCandidate rows columns sameRow → q ≠ p → p.key < q.key := by
  rw [detect_eq_argmin h]
  constructor
  · intro hp
    refine ⟨isCandidate_of_mem (List.argmin_mem hp), ?_⟩
    intro q hq hne
    obtain ⟨r, hr, hle⟩ := hq.exists_key_le
    apply lt_of_le_of_ne ((List.le_of_mem_argmin hr hp).trans hle)
    exact fun heq => hne (key_injective heq).symm
  · rintro ⟨hp, hfirst⟩
    cases hbest : ((candidates rows sameRow).filter (isWorthwhile · columns)).argmin key with
    | none =>
      obtain ⟨r, hr, -⟩ := hp.exists_key_le
      rw [List.argmin_eq_none.mp hbest] at hr
      cases hr
    | some b =>
      obtain ⟨r, hr, hle⟩ := hp.exists_key_le
      have hb := (List.le_of_mem_argmin hr hbest).trans hle
      by_contra hne
      have hlt := hfirst b (isCandidate_of_mem (List.argmin_mem hbest)) fun heq => hne (heq ▸ rfl)
      exact absurd hb (not_le_of_gt hlt)

end

/-- The rows that get what the shift carries over. -/
def destinations (p : ScrollPlan) : Finset Nat :=
  (Finset.Ico p.top (p.top + p.moved)).image fun y => if p.up then y else y + p.lines

/-- The rows of the region that the shift leaves blank. -/
def blanks (p : ScrollPlan) : Finset Nat := Finset.Icc p.exposed.1 p.exposed.2

/-- A row of the region is either left blank or gets a row that is carried over. -/
theorem IsCandidate.parts (h : p.IsCandidate rows columns sameRow) :
    Disjoint p.blanks p.destinations ∧
      p.blanks ∪ p.destinations = Finset.Icc p.top p.bottom := by
  have hbottom := h.bottom_eq
  have hlines := h.lines_pos
  have hdestinations (y : Nat) : y ∈ p.destinations ↔
      (if p.up then p.top else p.top + p.lines) ≤ y ∧
        y < (if p.up then p.top else p.top + p.lines) + p.moved := by
    simp only [destinations, Finset.mem_image, Finset.mem_Ico]
    constructor
    · rintro ⟨z, hz, rfl⟩
      split_ifs <;> omega
    · intro hy
      refine ⟨if p.up then y else y - p.lines, ?_⟩
      split_ifs at hy ⊢ <;> omega
  rw [Finset.disjoint_left]
  constructor
  · intro y hy hy'
    rw [hdestinations] at hy'
    simp only [blanks, exposed, Finset.mem_Icc] at hy
    split_ifs at hy hy' <;> dsimp only at hy <;> omega
  · ext y
    rw [Finset.mem_union, hdestinations]
    simp only [blanks, exposed, Finset.mem_Icc]
    split_ifs <;> dsimp only <;> omega

end CellCanvas.ScrollPlan
