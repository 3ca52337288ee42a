import CellCanvas.Proofs.Paint.Confinement

/-!
# Copying from a snapshot

A copy reads the frame that it writes, cell by cell. The same copy can be done from a snapshot of
the frame. Both come out the same as long as no step changes what a later one reads.
-/

namespace CellCanvas

/-- A cell with columns is the cell of its own glyph. -/
theorem Cell.ofCluster_glyph {c : Cell} (h : c.width ≠ 0) :
    Cell.ofCluster c.glyph c.width c.style = c := by
  have hglyph : c.glyph ≠ "" := fun hempty => h (c.width_eq_zero hempty)
  rw [ofCluster, dif_neg hglyph, dif_pos ⟨c.isSafe, c.size_le⟩]

namespace CellRow

variable {row : CellRow} {x : Nat} {c : Cell}

theorem narrow_self (hc : row x = some c) (hw : c.width = 1) : row.narrow x c = row := by
  have hwidth : row.width? x = some 1 := width?_eq_some.mpr ⟨c, hc, hw⟩
  funext i
  rw [narrow, hwidth]
  split_ifs with hx hleft hright
  · rw [hx, hc]
  · cases hleft.2
  · cases hright.2
  · rfl

/-- A wide glyph that is written where it is may change the style of its right half. -/
theorem wide_self (h : row.IsPaired) (hc : row x = some c) (hw : c.width = 2) (i : Nat) :
    row.wide x c i = if i = x + 1 then some (.continuation c.style) else row i := by
  have hlead : row.width? x = some 2 := width?_eq_some.mpr ⟨c, hc, hw⟩
  have htail : row.width? (x + 1) = some 0 := (((isPaired_iff_width? row).mp h).2.2 x).mpr hlead
  rw [wide, hlead, htail]
  split_ifs with hx hnext hnext hleft hright
  · omega
  · rw [hx, hc]
  · rfl
  · cases hleft.2
  · cases hright.2
  · rfl

end CellRow

theorem Rect.isEmpty_eq_false_iff (r : Rect) : r.isEmpty = false ↔ 0 < r.w ∧ 0 < r.h := by
  simp [isEmpty]

/-- Whether a cell can stand alone, unlike a continuation. -/
def Cell.isGlyph (c : Cell) : Bool := c.width = 1 ∨ c.width = 2

namespace Frame

/-- The cell at a point, if there is one that can stand alone. -/
def glyphAt? (f : Frame) (x y : Int) : Option Cell :=
  if f.bounds.contains x y then (f.cell? x.toNat y.toNat).filter Cell.isGlyph else none

variable {f : Frame} {x y : Int} {c : Cell}

theorem glyphAt?_natCast (f : Frame) (i j : Nat) :
    f.glyphAt? i j = (f.cell? i j).filter Cell.isGlyph := by
  rw [glyphAt?]
  split_ifs with hin
  · rfl
  · have hout : ¬(i < f.width ∧ j < f.height) := by
      rw [Rect.contains_iff] at hin
      simp only [bounds] at hin
      omega
    rw [cell?_eq_none hout]
    rfl

theorem glyphAt?_of_cell? {i j : Nat} (h : f.cell? i j = some c) :
    f.glyphAt? i j = if c.isGlyph then some c else none := by
  rw [glyphAt?_natCast, h]
  rfl

theorem glyphAt?_of_neg (f : Frame) (h : x < 0 ∨ y < 0) : f.glyphAt? x y = none := by
  apply if_neg
  rw [Rect.contains_iff]
  simp only [bounds]
  omega

theorem exists_of_glyphAt? (h : f.glyphAt? x y = some c) :
    ∃ i j : Nat, x = i ∧ y = j ∧ f.cell? i j = some c ∧ (c.width = 1 ∨ c.width = 2) := by
  by_cases hneg : x < 0 ∨ y < 0
  · rw [glyphAt?_of_neg f hneg] at h
    cases h
  · obtain ⟨i, rfl⟩ := Int.eq_ofNat_of_zero_le (show 0 ≤ x by omega)
    obtain ⟨j, rfl⟩ := Int.eq_ofNat_of_zero_le (show 0 ≤ y by omega)
    rw [glyphAt?_natCast, Option.filter_eq_some_iff] at h
    exact ⟨i, j, rfl, rfl, h.1, of_decide_eq_true h.2⟩

end Frame

namespace Painter

/-- Place the cell that a snapshot has at a source position, if there is one that can stand
alone. -/
def pasteCell (p : Painter) (seen : Frame) (toX toY fromX fromY : Int) : Painter :=
  match seen.glyphAt? fromX fromY with
  | some c => p.place toX toY (.ofCluster c.glyph c.width c.style)
  | none => p

theorem copyCell_eq (p : Painter) (toX toY fromX fromY : Int) :
    p.copyCell toX toY fromX fromY = p.pasteCell p.frame toX toY fromX fromY := by
  unfold copyCell pasteCell Frame.glyphAt?
  split_ifs
  · cases p.frame.cell? fromX.toNat fromY.toNat with
    | none => rfl
    | some c =>
      dsimp only [Option.filter, Cell.isGlyph]
      by_cases hwidth : c.width = 1 ∨ c.width = 2
      · simp only [hwidth, decide_true, if_true]
      · simp only [hwidth, decide_false, Bool.false_eq_true, if_false]
  · rfl

/-- The area that a copy writes: the target in the size that both areas have. -/
def written (target source : Rect) : Rect :=
  ⟨target.x, target.y, min target.w source.w, min target.h source.h⟩

/-- The area that a copy reads. -/
def seenArea (target source : Rect) : Rect :=
  ⟨source.x, source.y, min target.w source.w, min target.h source.h⟩

/-- Whether the area that is written meets the area that is read. -/
def overlapping (target source : Rect) : Bool :=
  !((written target source).inter (seenArea target source)).isEmpty

/-- Whether the rows are walked from the last one up. -/
def upward (target source : Rect) : Bool :=
  overlapping target source && source.y < target.y

/-- Whether the columns are walked from the last one to the left. -/
def leftward (target source : Rect) : Bool :=
  overlapping target source && target.y == source.y && source.x < target.x

/-- The first of the written columns that the clip admits, and how many there are. -/
def admittedColumns (p : Painter) (target source : Rect) : Int × Nat :=
  overlap target.x (written target source).w p.clip.x p.clip.right

/-- The first of the written rows that the clip admits, and how many there are. -/
def admittedRows (p : Painter) (target source : Rect) : Int × Nat :=
  overlap target.y (written target source).h p.clip.y p.clip.bottom

/-- The target points of a copy under the clip, in the order in which they are written. -/
def copyOrder (p : Painter) (target source : Rect) : List (Int × Int) :=
  let rows := p.admittedRows target source
  let columns := p.admittedColumns target source
  (List.range rows.2).flatMap fun i => (List.range columns.2).map fun j =>
    (offset (leftward target source) columns.1 columns.2 j,
      offset (upward target source) rows.1 rows.2 i)

/-- What a frame has at the source of a target point. -/
def source? (target source : Rect) (f : Frame) (t : Int × Int) : Option Cell :=
  f.glyphAt? (source.x + (t.1 - target.x)) (source.y + (t.2 - target.y))

/-- Write a target point with what a snapshot has at its source. -/
def pasteAt (target source : Rect) (seen : Frame) (p : Painter) (t : Int × Int) : Painter :=
  p.pasteCell seen t.1 t.2 (source.x + (t.1 - target.x)) (source.y + (t.2 - target.y))

/-- The same copy, in the same order, with every source cell read from the frame before it. -/
def pasteRect (p : Painter) (target source : Rect) : Painter :=
  (p.copyOrder target source).foldl (pasteAt target source p.frame) p

/-- Write a target point with what is at its source by then. -/
def copyAt (target source : Rect) (p : Painter) (t : Int × Int) : Painter :=
  pasteAt target source p.frame p t

theorem fold_eq_foldl {α : Type*} (n : Nat) (g : Nat → α → α) (a : α) :
    Nat.fold n (fun i _ a => g i a) a = (List.range n).foldl (fun a i => g i a) a := by
  induction n with
  | zero => rfl
  | succ n ih => rw [Nat.fold_succ, ih, List.range_succ, List.foldl_append]; rfl

/-- A copy goes through its target points in order. -/
theorem copyRect_eq (p : Painter) (target source : Rect) :
    p.copyRect target source = (p.copyOrder target source).foldl (copyAt target source) p := by
  unfold copyRect copyOrder
  simp only [fold_eq_foldl, List.foldl_flatMap, List.foldl_map, copyCell_eq]
  rfl

/-- In which order two coordinates are walked. -/
def Precedes (backward : Bool) (a b : Int) : Prop := if backward then b < a else a < b

/-- In which order two points are walked. -/
def Earlier (target source : Rect) (t u : Int × Int) : Prop :=
  Precedes (upward target source) t.2 u.2 ∨
    t.2 = u.2 ∧ Precedes (leftward target source) t.1 u.1

theorem precedes_offset {backward : Bool} {first : Int} {n i j : Nat} (h : i < j) (hj : j < n) :
    Precedes backward (offset backward first n i) (offset backward first n j) := by
  unfold Precedes offset
  split_ifs <;> omega

theorem exists_offset_iff {backward : Bool} {first x : Int} {n : Nat} :
    (∃ j < n, offset backward first n j = x) ↔ first ≤ x ∧ x < first + n := by
  unfold offset
  constructor
  · rintro ⟨j, hj, rfl⟩
    split_ifs <;> omega
  · intro hx
    cases backward with
    | false =>
      refine ⟨(x - first).toNat, by omega, ?_⟩
      simp only [Bool.false_eq_true, if_false]
      omega
    | true =>
      refine ⟨n - 1 - (x - first).toNat, by omega, ?_⟩
      simp only [if_true]
      omega

variable {p q : Painter} {target source : Rect} {t u : Int × Int} {f : Frame}

theorem pairwise_offset (backward : Bool) (first : Int) (n : Nat) :
    (List.range n).Pairwise fun i j =>
      Precedes backward (offset backward first n i) (offset backward first n j) := by
  apply List.pairwise_lt_range.imp_of_mem
  intro i j _ hj hlt
  exact precedes_offset hlt (List.mem_range.mp hj)

theorem pairwise_copyOrder (p : Painter) (target source : Rect) :
    (p.copyOrder target source).Pairwise (Earlier target source) := by
  have hrows := pairwise_offset (upward target source) (p.admittedRows target source).1
    (p.admittedRows target source).2
  have hcolumns := pairwise_offset (leftward target source) (p.admittedColumns target source).1
    (p.admittedColumns target source).2
  refine List.pairwise_flatMap.mpr ⟨?_, hrows.imp ?_⟩
  · intro i _
    exact List.pairwise_map.mpr (hcolumns.imp fun hprecedes => .inr ⟨rfl, hprecedes⟩)
  · intro i i' hprecedes t ht u hu
    obtain ⟨j, -, rfl⟩ := List.mem_map.mp ht
    obtain ⟨k, -, rfl⟩ := List.mem_map.mp hu
    exact .inl hprecedes

theorem mem_copyOrder : t ∈ p.copyOrder target source ↔
    (written target source).contains t.1 t.2 = true ∧ p.clip.contains t.1 t.2 = true := by
  obtain ⟨x, y⟩ := t
  have hpoint : (x, y) ∈ p.copyOrder target source ↔
      (∃ i < (p.admittedRows target source).2, offset (upward target source)
        (p.admittedRows target source).1 (p.admittedRows target source).2 i = y) ∧
      ∃ j < (p.admittedColumns target source).2, offset (leftward target source)
        (p.admittedColumns target source).1 (p.admittedColumns target source).2 j = x := by
    simp only [copyOrder, List.mem_flatMap, List.mem_map, List.mem_range, Prod.mk.injEq]
    constructor
    · rintro ⟨i, hi, j, hj, hx, hy⟩
      exact ⟨⟨i, hi, hy⟩, j, hj, hx⟩
    · rintro ⟨⟨i, hi, hy⟩, j, hj, hx⟩
      exact ⟨i, hi, j, hj, hx, hy⟩
  rw [hpoint, exists_offset_iff, exists_offset_iff, Rect.contains_iff, Rect.contains_iff]
  simp only [admittedRows, admittedColumns, overlap, written, Rect.bottom, Rect.right]
  omega

/-- The areas meet when the source is nearer than the size that is copied. -/
theorem overlapping_iff (hw : 0 < (written target source).w) (hh : 0 < (written target source).h) :
    overlapping target source = true ↔
      target.x < source.x + (written target source).w ∧
        source.x < target.x + (written target source).w ∧
        target.y < source.y + (written target source).h ∧
        source.y < target.y + (written target source).h := by
  have hwritten := (Rect.isEmpty_eq_false_iff (written target source)).mpr ⟨hw, hh⟩
  have hseen := (Rect.isEmpty_eq_false_iff (seenArea target source)).mpr ⟨hw, hh⟩
  rw [overlapping, Bool.not_eq_true', Rect.isEmpty_eq_false_iff, Rect.inter, hwritten, hseen,
    Bool.or_false, if_neg Bool.false_ne_true]
  simp only [written, seenArea, Rect.right, Rect.bottom] at *
  omega

theorem pasteAt_of_some {c : Cell} (h : source? target source f t = some c) :
    pasteAt target source f p t = p.place t.1 t.2 c := by
  obtain ⟨-, -, -, -, -, hwidth⟩ := Frame.exists_of_glyphAt? h
  have hglyph := Cell.ofCluster_glyph (show c.width ≠ 0 by omega)
  unfold pasteAt pasteCell
  change f.glyphAt? _ _ = some c at h
  simp only [h, hglyph]

theorem pasteAt_of_none (h : source? target source f t = none) :
    pasteAt target source f p t = p := by
  unfold pasteAt pasteCell
  change f.glyphAt? _ _ = none at h
  simp only [h]

/-- Only what is read matters to a step. -/
theorem copyAt_eq_pasteAt (h : source? target source p.frame t = source? target source f t) :
    copyAt target source p t = pasteAt target source f p t := by
  unfold copyAt
  cases hread : source? target source f t with
  | none => rw [pasteAt_of_none hread, pasteAt_of_none (h.trans hread)]
  | some c => rw [pasteAt_of_some hread, pasteAt_of_some (h.trans hread)]

section Place

variable {x y : Int} {c : Cell} (hvalid : p.frame.isValid = true)

include hvalid

/-- A placed cell reaches one column to its left and one to its right. -/
theorem cell?_place_of_far (hc : c.width = 1 ∨ c.width = 2) {i j : Nat}
    (hfar : (j : Int) ≠ y ∨ (i : Int) + 1 < x ∨ x + c.width < i) :
    (p.place x y c).frame.cell? i j = p.frame.cell? i j := by
  unfold place
  cases htouch : p.touch? x y with
  | none => rfl
  | some position =>
    obtain ⟨a, b⟩ := position
    obtain ⟨rfl, rfl, -, ha, hb⟩ := of_touch?_eq_some htouch
    have hpaired := Frame.isPaired_cellRow hvalid b
    dsimp only
    split_ifs with hwide hroom
    · have htwo : c.width = 2 := by simpa [Cell.isWide] using hwide
      obtain ⟨⟨a', b'⟩, hroom⟩ := Option.isSome_iff_exists.mp hroom
      obtain ⟨hnext, -, -, ha', -⟩ := of_touch?_eq_some hroom
      have hrow := congrFun (Frame.cellRow_writeWide hvalid (show a + 1 < p.frame.width by omega) hb
        c j) i
      rw [Frame.cellRow] at hrow
      split_ifs at hrow with hj
      · subst hj
        rcases CellRow.wide_beside hpaired c (show i ≠ a by omega) (by omega) with
          hsame | ⟨hhalves, -⟩
        · exact hrow.trans hsame
        · simp only [CellRow.Halves] at hhalves
          omega
      · exact hrow
    · rfl
    · have hone : c.width = 1 := by
        have : c.width ≠ 2 := by simpa [Cell.isWide] using hwide
        omega
      have hrow := congrFun (Frame.cellRow_writeNarrow hvalid ha hb c j) i
      rw [Frame.cellRow] at hrow
      split_ifs at hrow with hj
      · subst hj
        rcases CellRow.narrow_beside hpaired c (show i ≠ a by omega) with hsame | ⟨hhalves, -⟩
        · exact hrow.trans hsame
        · simp only [CellRow.Halves] at hhalves
          omega
      · exact hrow

theorem glyphAt?_place_of_far (hc : c.width = 1 ∨ c.width = 2) {x' y' : Int}
    (hfar : y' ≠ y ∨ x' + 1 < x ∨ x + c.width < x') :
    (p.place x y c).frame.glyphAt? x' y' = p.frame.glyphAt? x' y' := by
  by_cases hneg : x' < 0 ∨ y' < 0
  · rw [Frame.glyphAt?_of_neg _ hneg, Frame.glyphAt?_of_neg _ hneg]
  · obtain ⟨i, rfl⟩ := Int.eq_ofNat_of_zero_le (show 0 ≤ x' by omega)
    obtain ⟨j, rfl⟩ := Int.eq_ofNat_of_zero_le (show 0 ≤ y' by omega)
    rw [Frame.glyphAt?_natCast, Frame.glyphAt?_natCast, cell?_place_of_far hvalid hc hfar]

/-- A cell that is placed where it is changes no glyph. -/
theorem glyphAt?_place_self (hread : p.frame.glyphAt? x y = some c) (x' y' : Int) :
    (p.place x y c).frame.glyphAt? x' y' = p.frame.glyphAt? x' y' := by
  obtain ⟨a, b, rfl, rfl, hcell, hwidth⟩ := Frame.exists_of_glyphAt? hread
  by_cases hneg : x' < 0 ∨ y' < 0
  · rw [Frame.glyphAt?_of_neg _ hneg, Frame.glyphAt?_of_neg _ hneg]
  obtain ⟨i, rfl⟩ := Int.eq_ofNat_of_zero_le (show 0 ≤ x' by omega)
  obtain ⟨j, rfl⟩ := Int.eq_ofNat_of_zero_le (show 0 ≤ y' by omega)
  rw [Frame.glyphAt?_natCast, Frame.glyphAt?_natCast]
  unfold place
  cases htouch : p.touch? a b with
  | none => rfl
  | some position =>
    obtain ⟨a', b'⟩ := position
    obtain ⟨ha, hb, -, ha', hb'⟩ := of_touch?_eq_some htouch
    obtain rfl : a = a' := by omega
    obtain rfl : b = b' := by omega
    have hpaired := Frame.isPaired_cellRow hvalid b
    dsimp only
    split_ifs with hwide hroom
    · have htwo : c.width = 2 := by simpa [Cell.isWide] using hwide
      obtain ⟨r, hr, hzero⟩ := hpaired.tail hcell htwo
      have hroom : a + 1 < p.frame.width := (Frame.lt_of_cell? hr).1
      have hrow := congrFun (Frame.cellRow_writeWide hvalid hroom hb' c j) i
      rw [Frame.cellRow] at hrow
      rw [hrow]
      split_ifs with hj
      · subst hj
        rw [CellRow.wide_self hpaired hcell htwo]
        split_ifs with hi
        · subst hi
          change p.frame.cell? (a + 1) j = some r at hr
          simp [hr, Option.filter, Cell.isGlyph, Cell.continuation, hzero]
        · rfl
      · rfl
    · rfl
    · have hone : c.width = 1 := by
        have : c.width ≠ 2 := by simpa [Cell.isWide] using hwide
        omega
      have hrow := congrFun (Frame.cellRow_writeNarrow hvalid ha' hb' c j) i
      rw [Frame.cellRow] at hrow
      rw [hrow]
      split_ifs with hj
      · subst hj
        have hsame : (p.frame.cellRow j).narrow a c = p.frame.cellRow j :=
          CellRow.narrow_self hcell hone
        rw [hsame]
        rfl
      · rfl

end Place

/-- A painter with the clip and the size of another one, and a valid frame. -/
structure Matches (p q : Painter) : Prop where
  valid : q.frame.isValid = true
  clips : q.clips = p.clips
  width : q.frame.width = p.frame.width
  height : q.frame.height = p.frame.height

theorem Matches.place (h : Matches p q) (x y : Int) {c : Cell} (hc : c.width = 1 ∨ c.width = 2) :
    Matches p (q.place x y c) := by
  have hconfined := confined_place h.valid x y c
  exact ⟨isValid_place h.valid x y hc, (clips_place q x y c).trans h.clips,
    hconfined.width.trans h.width, hconfined.height.trans h.height⟩

theorem Matches.pasteAt (h : Matches p q) (seen : Frame) (t : Int × Int) :
    Matches p (pasteAt target source seen q t) := by
  cases hread : source? target source seen t with
  | none => rwa [pasteAt_of_none hread]
  | some c =>
    obtain ⟨-, -, -, -, -, hwidth⟩ := Frame.exists_of_glyphAt? hread
    rw [pasteAt_of_some hread]
    exact h.place _ _ hwidth

/-- A copy comes out like the one from a snapshot when no step changes what a later one reads. -/
theorem foldl_copyAt_eq {I : Painter → Prop} {order : List (Int × Int)}
    (hI : I p)
    (hread : ∀ t ∈ order, source? target source p.frame t = source? target source f t)
    (hstep : ∀ t ∈ order, ∀ q, I q →
      source? target source q.frame t = source? target source f t →
      I (copyAt target source q t))
    (hclear : order.Pairwise fun t u => ∀ q, I q →
      source? target source q.frame t = source? target source f t →
      source? target source (copyAt target source q t).frame u = source? target source q.frame u) :
    order.foldl (copyAt target source) p = order.foldl (pasteAt target source f) p := by
  induction order generalizing p with
  | nil => rfl
  | cons t order ih =>
    obtain ⟨hfirst, hrest⟩ := List.pairwise_cons.mp hclear
    have hsame := hread t List.mem_cons_self
    rw [List.foldl_cons, List.foldl_cons, ← copyAt_eq_pasteAt hsame]
    apply ih (hstep t List.mem_cons_self p hI hsame)
    · intro u hu
      exact (hfirst u hu p hI hsame).trans (hread u (List.mem_cons_of_mem t hu))
    · exact fun u hu => hstep u (List.mem_cons_of_mem t hu)
    · exact hrest

end Painter

end CellCanvas
