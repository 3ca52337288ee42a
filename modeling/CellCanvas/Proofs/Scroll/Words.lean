import CellCanvas.Proofs.Scroll.Preference

/-!
# Scroll plans in machine words

The search for a scroll plan with rows of 16 bits, row by row and with the run that is under way.
Every computation is checked here and has no result when a word cannot hold it. This never happens,
and the plan is the one that `ScrollPlan.detect` finds among all runs.
-/

namespace CellCanvas

/-- A scroll plan in words. -/
structure WordPlan where
  up : Bool
  top : UInt16
  bottom : UInt16
  lines : UInt16
  moved : UInt16

namespace WordPlan

open ScrollPlan

/-- A sum of 16 bits, unless it overflows. -/
def sum? (a b : UInt16) : Option UInt16 :=
  if (a + b).toNat = a.toNat + b.toNat then some (a + b) else none

/-- A difference of 16 bits, unless it is negative. -/
def difference? (a b : UInt16) : Option UInt16 :=
  if (a - b).toNat + b.toNat = a.toNat then some (a - b) else none

/-- The plan in whole numbers. -/
def exact (p : WordPlan) : ScrollPlan :=
  ⟨p.up, p.top.toNat, p.bottom.toNat, p.lines.toNat, p.moved.toNat⟩

/-- The first and the last row that the shift leaves blank. -/
def exposed? (p : WordPlan) : Option (UInt16 × UInt16) := do
  if p.up then return (← difference? (← sum? p.bottom 1) p.lines, p.bottom)
  else return (p.top, ← difference? (← sum? p.top p.lines) 1)

/-- The plan that moves a run of rows by a distance. -/
def ofRun? (up : Bool) (first length distance : UInt16) : Option WordPlan := do
  let last ← difference? (← sum? first length) 1
  return ⟨up, first, ← sum? last distance, distance, length⟩

/-- The better of the best plan so far and a new one, which is passed over when it leaves the screen
or is not worthwhile. -/
def consider (rows columns : UInt16) (best : Option WordPlan) (p : WordPlan) : Option WordPlan :=
  if rows ≤ p.bottom || !p.exact.isWorthwhile columns.toNat then best
  else match best with
    | none => some p
    | some b => if p.exact.better b.exact then some p else some b

/-- What a search works on: the size of the screen, and which of the wanted rows are there. -/
structure Task where
  rows : UInt16
  columns : UInt16
  sameRow : Nat → Nat → Bool

/-- A scan over the rows: the run that is under way, and the best plan so far. -/
structure Scan where
  first : UInt16
  length : UInt16
  best : Option WordPlan

/-- Consider the run that is under way, if there is one. -/
def Scan.close? (s : Scan) (t : Task) (up : Bool) (distance : UInt16) :
    Option (Option WordPlan) :=
  if 0 < s.length then do
    return consider t.rows t.columns s.best (← ofRun? up s.first s.length distance)
  else some s.best

/-- Extend the run by a row, or end it. -/
def Scan.step? (t : Task) (up : Bool) (distance : UInt16) (s : Scan) (y : UInt16) :
    Option Scan := do
  let far ← sum? y distance
  if (if up then t.sameRow y.toNat far.toNat else t.sameRow far.toNat y.toNat) then
    return ⟨if s.length = 0 then y else s.first, ← sum? s.length 1, s.best⟩
  else return ⟨s.first, 0, ← s.close? t up distance⟩

/-- Look for runs that a shift by a distance moves to where they are wanted. -/
def scan? (t : Task) (up : Bool) (distance : UInt16) (best : Option WordPlan) :
    Option (Option WordPlan) := do
  let stop ← difference? t.rows distance
  let s ← (List.range stop.toNat).foldlM (fun s y => s.step? t up distance (.ofNat y))
    (⟨0, 0, best⟩ : Scan)
  s.close? t up distance

/-- A last check of the region of the best plan. -/
def settle? : Option WordPlan → Option (Option WordPlan)
  | none => some none
  | some p =>
    if 0 < p.lines && p.top < p.bottom then do
      let height ← sum? (← difference? p.bottom p.top) 1
      return if p.lines < height then some p else none
    else some none

/-- The best plan, if one is worthwhile. -/
def detect? (t : Task) (dirtyRows : Nat) : Option (Option WordPlan) :=
  if t.rows < 2 || t.columns = 0 || dirtyRows < minDirtyRows then some none
  else do
    let last ← difference? t.rows 1
    let best ← (List.range (min last.toNat maxDistance)).foldlM
      (fun best d => scan? t true (.ofNat (d + 1)) best >>= scan? t false (.ofNat (d + 1))) none
    settle? best

theorem sum?_eq {a b : UInt16} (h : a.toNat + b.toNat < 65536) :
    ∃ c, sum? a b = some c ∧ c.toNat = a.toNat + b.toNat := by
  have hexact : (a + b).toNat = a.toNat + b.toNat := by
    rw [UInt16.toNat_add]
    exact Nat.mod_eq_of_lt h
  exact ⟨a + b, if_pos hexact, hexact⟩

theorem difference?_eq {a b : UInt16} (h : b.toNat ≤ a.toNat) :
    ∃ c, difference? a b = some c ∧ c.toNat = a.toNat - b.toNat := by
  have hexact : (a - b).toNat = a.toNat - b.toNat :=
    UInt16.toNat_sub_of_le a b (UInt16.le_iff_toNat_le.mpr h)
  exact ⟨a - b, if_pos (by omega), hexact⟩

theorem pos_iff {a : UInt16} : 0 < a ↔ 0 < a.toNat := UInt16.lt_iff_toNat_lt

theorem ofRun?_eq (up : Bool) {first length distance : UInt16} (hpos : 0 < length.toNat)
    (hend : first.toNat + length.toNat + distance.toNat < 65536) :
    ∃ p, ofRun? up first length distance = some p ∧
      p.exact = ofRun up distance.toNat (first.toNat, length.toNat) := by
  obtain ⟨stop, hstop, hstop'⟩ := sum?_eq (a := first) (b := length) (by omega)
  obtain ⟨last, hlast, hlast'⟩ := difference?_eq (a := stop) (b := 1)
    (by rw [hstop', UInt16.toNat_one]; omega)
  rw [hstop', UInt16.toNat_one] at hlast'
  obtain ⟨bottom, hbottom, hbottom'⟩ := sum?_eq (a := last) (b := distance) (by omega)
  rw [hlast'] at hbottom'
  refine ⟨⟨up, first, bottom, distance, length⟩, ?_, ?_⟩
  · simp only [ofRun?, Option.bind_eq_bind, hstop, Option.bind_some, hlast, hbottom]
    rfl
  · rw [exact, ofRun, hbottom']

/-- The best of a plan that is known already and the worthwhile ones among some others. -/
def prefer (columns : Nat) (best : Option ScrollPlan) (plans : List ScrollPlan) :
    Option ScrollPlan :=
  (plans.filter (isWorthwhile · columns)).foldl choose best

theorem prefer_append (columns : Nat) (best : Option ScrollPlan) (plans later : List ScrollPlan) :
    prefer columns best (plans ++ later) = prefer columns (prefer columns best plans) later := by
  rw [prefer, List.filter_append, List.foldl_append]
  rfl

/-- A plan within the screen is considered with the others. -/
theorem consider_eq (t : Task) (best : Option WordPlan) {p : WordPlan}
    (hbottom : p.bottom.toNat < t.rows.toNat) :
    (consider t.rows t.columns best p).map exact =
      prefer t.columns.toNat (best.map exact) [p.exact] := by
  have hinside : decide (t.rows ≤ p.bottom) = false :=
    decide_eq_false fun h => absurd (UInt16.le_iff_toNat_le.mp h) (Nat.not_le_of_gt hbottom)
  unfold consider
  rw [hinside, Bool.false_or, prefer, List.filter_singleton]
  cases hworth : p.exact.isWorthwhile t.columns.toNat with
  | false => rfl
  | true =>
    cases best with
    | none => rfl
    | some b =>
      simp only [Bool.not_true, Bool.false_eq_true, if_false, Option.map_some, cond_true,
        List.foldl_cons, List.foldl_nil, choose]
      split_ifs
      · rfl
      · rfl

/-- The run that is under way ends before row `y`. -/
structure Scan.IsAt (s : Scan) (y : Nat) : Prop where
  le : s.length.toNat ≤ y
  first : 0 < s.length.toNat → s.first.toNat + s.length.toNat = y

theorem Scan.close?_eq (t : Task) (up : Bool) (distance : UInt16) {s : Scan} {y : Nat}
    (hat : s.IsAt y) (hroom : y + distance.toNat ≤ t.rows.toNat) :
    ∃ best, s.close? t up distance = some best ∧
      best.map exact = prefer t.columns.toNat (s.best.map exact)
        (if 0 < s.length.toNat then [ofRun up distance.toNat (y - s.length.toNat, s.length.toNat)]
         else []) := by
  have hrows := t.rows.toNat_lt
  by_cases hpos : 0 < s.length.toNat
  · have hfirst := hat.first hpos
    obtain ⟨p, hp, hexact⟩ := ofRun?_eq up hpos
      (show s.first.toNat + s.length.toNat + distance.toNat < 65536 by omega)
    have hbottom : p.bottom.toNat = s.first.toNat + s.length.toNat - 1 + distance.toNat :=
      congrArg ScrollPlan.bottom hexact
    have htop : s.first.toNat = y - s.length.toNat := by omega
    refine ⟨consider t.rows t.columns s.best p, ?_, ?_⟩
    · rw [Scan.close?, if_pos (pos_iff.mpr hpos)]
      simp only [Option.bind_eq_bind, hp, Option.bind_some]
      rfl
    · rw [consider_eq t s.best (by omega), hexact, if_pos hpos, htop]
  · refine ⟨s.best, ?_, ?_⟩
    · rw [Scan.close?, if_neg fun h => hpos (pos_iff.mp h)]
    · rw [if_neg hpos]
      rfl

/-- A scan from row `y` on finds the runs from there on. -/
theorem Scan.run_eq (t : Task) (up : Bool) (distance : UInt16) {s : Scan} {y left : Nat}
    (hat : s.IsAt y) (hroom : y + left + distance.toNat = t.rows.toNat) :
    ∃ best, ((List.range' y left).foldlM (fun s y => s.step? t up distance (.ofNat y)) s >>=
        fun s => s.close? t up distance) = some best ∧
      best.map exact = prefer t.columns.toNat (s.best.map exact)
        ((runsFrom (agrees up distance.toNat t.sameRow) y s.length.toNat left).map
          (ofRun up distance.toNat)) := by
  induction left generalizing y s with
  | zero =>
    obtain ⟨best, hclose, hbest⟩ := s.close?_eq t up distance hat (Nat.le_of_eq hroom)
    refine ⟨best, hclose, hbest.trans ?_⟩
    rw [runsFrom]
    split_ifs
    · rfl
    · rfl
  | succ left ih =>
    have hrows := t.rows.toNat_lt
    have hlt : y < UInt16.size := by
      rw [UInt16.size]
      omega
    have hy : (UInt16.ofNat y).toNat = y := UInt16.toNat_ofNat_of_lt hlt
    obtain ⟨far, hfar, hfar'⟩ := sum?_eq (a := .ofNat y) (b := distance) (by omega)
    rw [hy] at hfar'
    have hstep : s.step? t up distance (.ofNat y) =
        if agrees up distance.toNat t.sameRow y then
          (sum? s.length 1).bind fun length =>
            some ⟨if s.length = 0 then .ofNat y else s.first, length, s.best⟩
        else (s.close? t up distance).bind fun best => some ⟨s.first, 0, best⟩ := by
      unfold Scan.step?
      rw [hfar, Option.bind_eq_bind, Option.bind_some, hy, hfar']
      rfl
    rw [List.range'_succ, List.foldlM_cons, hstep, runsFrom]
    by_cases hholds : agrees up distance.toNat t.sameRow y = true
    · obtain ⟨length, hlength, hlength'⟩ := sum?_eq (a := s.length) (b := 1)
        (by have := hat.le; rw [UInt16.toNat_one]; omega)
      rw [UInt16.toNat_one] at hlength'
      rw [if_pos hholds, if_pos hholds, hlength, ← hlength']
      apply ih _ (by omega)
      refine ⟨?_, ?_⟩
      · have := hat.le
        dsimp only
        omega
      · intro _
        dsimp only
        split_ifs with hzero
        · rw [hlength', hzero, hy, UInt16.toNat_zero]
        · have hpos : 0 < s.length.toNat :=
            Nat.pos_of_ne_zero fun h => hzero (UInt16.toNat_inj.mp h)
          rw [hlength', ← Nat.add_assoc, hat.first hpos]
    · obtain ⟨best, hclose, hbest⟩ := s.close?_eq t up distance hat (by omega)
      rw [if_neg hholds, if_neg hholds, hclose]
      obtain ⟨best', hrest, hbest'⟩ := ih (s := ⟨s.first, 0, best⟩) (y := y + 1)
        ⟨Nat.zero_le _, fun h => absurd h (Nat.lt_irrefl 0)⟩ (by omega)
      refine ⟨best', hrest, hbest'.trans ?_⟩
      dsimp only
      rw [hbest, ← prefer_append]
      split_ifs
      · rfl
      · rfl

/-- A scan never overflows, and finds the best among all maximal runs. -/
theorem scan?_eq (t : Task) (up : Bool) {distance : UInt16} (best : Option WordPlan)
    (hdistance : distance.toNat ≤ t.rows.toNat) :
    ∃ best', scan? t up distance best = some best' ∧
      best'.map exact = prefer t.columns.toNat (best.map exact)
        ((runs (agrees up distance.toNat t.sameRow) (t.rows.toNat - distance.toNat)).map
          (ofRun up distance.toNat)) := by
  obtain ⟨stop, hstop, hstop'⟩ := difference?_eq hdistance
  have hat : (⟨0, 0, best⟩ : Scan).IsAt 0 := ⟨Nat.le_refl 0, nofun⟩
  obtain ⟨best', hrun, hbest⟩ := Scan.run_eq t up distance hat
    (show 0 + stop.toNat + distance.toNat = t.rows.toNat by omega)
  refine ⟨best', ?_, hstop' ▸ hbest⟩
  rw [← List.range_eq_range'] at hrun
  rw [scan?, hstop]
  exact hrun

/-- The runs for the first `n` distances. -/
theorem foldlM_scan?_eq (t : Task) (best : Option WordPlan) {n : Nat} (hn : n ≤ t.rows.toNat - 1) :
    ∃ best', (List.range n).foldlM
        (fun best d => scan? t true (.ofNat (d + 1)) best >>= scan? t false (.ofNat (d + 1))) best =
          some best' ∧
      best'.map exact = prefer t.columns.toNat (best.map exact)
        ((List.range n).flatMap fun d =>
          (runs (agrees true (d + 1) t.sameRow) (t.rows.toNat - (d + 1))).map (ofRun true (d + 1))
            ++ (runs (agrees false (d + 1) t.sameRow) (t.rows.toNat - (d + 1))).map
              (ofRun false (d + 1))) := by
  induction n with
  | zero => exact ⟨best, rfl, rfl⟩
  | succ n ih =>
    have hrows := t.rows.toNat_lt
    have hlt : n + 1 < UInt16.size := by
      rw [UInt16.size]
      omega
    have hdistance : (UInt16.ofNat (n + 1)).toNat = n + 1 := UInt16.toNat_ofNat_of_lt hlt
    obtain ⟨before, hbefore, hbest⟩ := ih (by omega)
    have hroom : (UInt16.ofNat (n + 1)).toNat ≤ t.rows.toNat := by omega
    obtain ⟨up, hup, hup'⟩ := scan?_eq t true before hroom
    obtain ⟨down, hdown, hdown'⟩ := scan?_eq t false up hroom
    refine ⟨down, ?_, ?_⟩
    · rw [List.range_succ, List.foldlM_append, hbefore]
      simp only [Option.bind_eq_bind, Option.bind_some, List.foldlM_cons, hup, hdown,
        List.foldlM_nil]
      rfl
    · rw [hdistance] at hup' hdown'
      rw [hdown', hup', hbest, List.range_succ, List.flatMap_append, List.flatMap_singleton,
        prefer_append, prefer_append]

/-- The last check passes every plan that is found. -/
theorem settle?_eq {p : WordPlan} (hlines : 0 < p.lines.toNat)
    (hregion : p.top.toNat + p.lines.toNat ≤ p.bottom.toNat) (hbottom : p.bottom.toNat < 65535) :
    settle? (some p) = some (some p) := by
  obtain ⟨span, hspan, hspan'⟩ := difference?_eq (a := p.bottom) (b := p.top) (by omega)
  obtain ⟨height, hheight, hheight'⟩ := sum?_eq (a := span) (b := 1)
    (by rw [UInt16.toNat_one]; omega)
  rw [UInt16.toNat_one] at hheight'
  have hproper : (decide (0 < p.lines) && decide (p.top < p.bottom)) = true := by
    rw [Bool.and_eq_true, decide_eq_true_eq, decide_eq_true_eq, pos_iff, UInt16.lt_iff_toNat_lt]
    omega
  have hless : p.lines < height := UInt16.lt_iff_toNat_lt.mpr (by omega)
  rw [settle?, if_pos hproper, hspan, Option.bind_eq_bind, Option.bind_some, hheight,
    Option.bind_some, if_pos hless]
  rfl

/-- The search never overflows, and finds the plan that `ScrollPlan.detect` finds. -/
theorem detect?_eq (t : Task) (dirtyRows : Nat) :
    ∃ plan?, detect? t dirtyRows = some plan? ∧
      plan?.map exact = detect t.rows.toNat t.columns.toNat dirtyRows t.sameRow := by
  have hskip : (decide (t.rows < 2) || decide (t.columns = 0) ||
      decide (dirtyRows < minDirtyRows)) =
        (decide (t.rows.toNat < 2) || decide (t.columns.toNat = 0) ||
          decide (dirtyRows < minDirtyRows)) := by
    simp only [UInt16.lt_iff_toNat_lt, ← UInt16.toNat_inj]
    rfl
  rw [detect?, hskip]
  by_cases hnone : (decide (t.rows.toNat < 2) || decide (t.columns.toNat = 0) ||
      decide (dirtyRows < minDirtyRows)) = true
  · exact ⟨none, if_pos hnone, by rw [detect, if_pos hnone]; rfl⟩
  · have hrows : 1 ≤ t.rows.toNat := by
      by_contra hzero
      exact hnone (by simp [show t.rows.toNat < 2 by omega])
    obtain ⟨last, hlast, hlast'⟩ := difference?_eq (a := t.rows) (b := 1) hrows
    obtain ⟨best, hbest, hbest'⟩ := foldlM_scan?_eq t none
      (show min last.toNat maxDistance ≤ t.rows.toNat - 1 by rw [hlast']; exact Nat.min_le_left _ _)
    have hdetect : best.map exact = detect t.rows.toNat t.columns.toNat dirtyRows t.sameRow := by
      rw [hbest', detect, if_neg hnone, hlast']
      rfl
    refine ⟨best, ?_, hdetect⟩
    rw [if_neg hnone, hlast, Option.bind_eq_bind, Option.bind_some, hbest]
    change settle? best = some best
    cases best with
    | none => rfl
    | some p =>
      have hsound := isSound_of_detect hdetect.symm
      have hbottom : p.bottom.toNat < t.rows.toNat := hsound.bottom_lt
      have hrows := t.rows.toNat_lt
      exact settle?_eq hsound.lines_pos hsound.lines_le (by omega)

/-- The rows that a plan leaves blank never overflow. -/
theorem exposed?_eq {p : WordPlan} (hlines : 0 < p.lines.toNat)
    (hregion : p.top.toNat + p.lines.toNat ≤ p.bottom.toNat) (hbottom : p.bottom.toNat < 65535) :
    ∃ e, p.exposed? = some e ∧ (e.1.toNat, e.2.toNat) = p.exact.exposed := by
  rw [exposed?, exposed, exact]
  cases p.up with
  | true =>
    obtain ⟨stop, hstop, hstop'⟩ := sum?_eq (a := p.bottom) (b := 1)
      (by rw [UInt16.toNat_one]; omega)
    rw [UInt16.toNat_one] at hstop'
    obtain ⟨first, hfirst, hfirst'⟩ := difference?_eq (a := stop) (b := p.lines) (by omega)
    refine ⟨(first, p.bottom), ?_, ?_⟩
    · rw [if_pos rfl, hstop, Option.bind_eq_bind, Option.bind_some, hfirst]
      rfl
    · rw [hfirst', hstop']
      rfl
  | false =>
    obtain ⟨stop, hstop, hstop'⟩ := sum?_eq (a := p.top) (b := p.lines) (by omega)
    obtain ⟨last, hlast, hlast'⟩ := difference?_eq (a := stop) (b := 1)
      (by rw [UInt16.toNat_one]; omega)
    rw [UInt16.toNat_one] at hlast'
    refine ⟨(p.top, last), ?_, ?_⟩
    · rw [if_neg Bool.false_ne_true, hstop, Option.bind_eq_bind, Option.bind_some, hlast]
      rfl
    · rw [hlast', hstop']
      rfl

end WordPlan

namespace ScrollPlan

/-- No computation of the search overflows. Without changes enough there is no plan. Otherwise there
is one if there is a candidate, and it is the one that is preferred to all others. Its region lies
on the screen and consists of the rows that are carried over to and of those that are left blank. -/
theorem detect_finds_preferred (rows columns : UInt16) (dirtyRows : Nat)
    (sameRow : Nat → Nat → Bool) :
    let plan? := detect rows.toNat columns.toNat dirtyRows sameRow
    let isCandidate := IsCandidate rows.toNat columns.toNat sameRow
    let isSmall := rows.toNat < 2 ∨ columns.toNat = 0 ∨ dirtyRows < 4
    (∃ word?, WordPlan.detect? ⟨rows, columns, sameRow⟩ dirtyRows = some word? ∧
        word?.map WordPlan.exact = plan? ∧
        ∀ p ∈ word?, ∃ e, p.exposed? = some e ∧ (e.1.toNat, e.2.toNat) = p.exact.exposed) ∧
      (isSmall → plan? = none) ∧
      (¬isSmall → (plan? = none ↔ ∀ p, ¬isCandidate p) ∧
        ∀ p, plan? = some p ↔ isCandidate p ∧ ∀ q, isCandidate q → q ≠ p → p.key < q.key) ∧
      ∀ p, plan? = some p →
        p.top < p.bottom ∧ p.bottom < rows.toNat ∧ p.moved = p.bottom - p.top + 1 - p.lines ∧
          Disjoint p.blanks p.destinations ∧
          p.blanks ∪ p.destinations = Finset.Icc p.top p.bottom := by
  intro plan? isCandidate isSmall
  have hsmall : isSmall → plan? = none := detect_of_small
  have hlarge {p : ScrollPlan} (h : plan? = some p) : ¬isSmall := fun hs => by
    rw [hsmall hs] at h
    cases h
  refine ⟨?_, hsmall, fun h => ⟨detect_eq_none_iff h, fun p => detect_eq_some_iff h⟩, ?_⟩
  · obtain ⟨word?, hword, hexact⟩ := WordPlan.detect?_eq ⟨rows, columns, sameRow⟩ dirtyRows
    refine ⟨word?, hword, hexact, ?_⟩
    intro p hp
    rw [Option.mem_def.mp hp] at hexact
    have hsound := isSound_of_detect hexact.symm
    have hbottom : p.bottom.toNat < rows.toNat := hsound.bottom_lt
    have hrows := rows.toNat_lt
    exact WordPlan.exposed?_eq hsound.lines_pos hsound.lines_le (by omega)
  · intro p hp
    obtain ⟨hcandidate, -⟩ := (detect_eq_some_iff (hlarge hp)).mp hp
    have hlines := hcandidate.lines_pos
    have hbottom := hcandidate.bottom_eq
    have hmoved : 4 ≤ p.moved := hcandidate.rows_le
    exact ⟨by omega, hcandidate.bottom_lt, by omega, hcandidate.parts⟩

/-- Ten rows of which nine move up by one. -/
theorem detect_finds_preferred_log :
    detect 10 80 10 (fun new old => new + 1 == old) = some ⟨true, 0, 9, 1, 9⟩ ∧
      ∀ q : ScrollPlan, q.IsCandidate 10 80 (fun new old => new + 1 == old) →
        q ≠ ⟨true, 0, 9, 1, 9⟩ → (⟨true, 0, 9, 1, 9⟩ : ScrollPlan).key < q.key := by
  have hplan : detect 10 80 10 (fun new old => new + 1 == old) = some ⟨true, 0, 9, 1, 9⟩ := by
    decide +kernel
  obtain ⟨-, -, hlarge, -⟩ := detect_finds_preferred 10 80 10 fun new old => new + 1 == old
  exact ⟨hplan, (((hlarge (by decide)).2 _).mp hplan).2⟩

end ScrollPlan

end CellCanvas
