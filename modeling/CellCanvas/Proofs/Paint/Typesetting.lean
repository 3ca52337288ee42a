import CellCanvas.Proofs.Paint.Clips
import CellCanvas.Proofs.Paint.Snapshots
import CellCanvas.Proofs.Text.Controls

/-!
# What a text leaves in its columns

A text moves on by the columns of its clusters. A cluster of two columns that cannot be shown
becomes a sign of one column, so the column behind the sign is passed over. Every other column up to
the one that is returned holds a cell of the text.
-/

namespace CellCanvas

theorem Cell.width_ofCluster_one (text : String) (s : Style) : (ofCluster text 1 s).width = 1 := by
  unfold ofCluster
  split_ifs <;> rfl

theorem Cell.style_ofCluster (text : String) (n : Nat) (s : Style) :
    (ofCluster text n s).style = s := by
  unfold ofCluster
  split_ifs <;> rfl

/-- No cell can show the cluster: it is empty, unsafe or too long. -/
def Cluster.IsUnshown (c : Cluster) : Prop :=
  c.text = "" ∨ isSafeText c.text = false ∨ Cell.maxGlyphBytes < c.text.utf8ByteSize

/-- By the rules of Unicode a cluster of two columns that no cell can show is too long. -/
theorem Segmentation.IsStandard.lt_of_isUnshown {split : Segmentation} (h : split.IsStandard)
    {text : String} {c : Cluster} (hc : c ∈ split text) (hcolumns : 2 ≤ c.columns)
    (hunshown : c.IsUnshown) : Cell.maxGlyphBytes < c.text.utf8ByteSize := by
  rcases hunshown with hempty | hunsafe | hlong
  · exact absurd hempty (h.ne_empty text c hc)
  · have := h.columns_le_one text c hc hunsafe
    omega
  · exact hlong

/-- What no cell can show becomes a space or a sign. -/
theorem Cell.width_ofCluster_two (c : Cluster) (s : Style) :
    (ofCluster c.text 2 s).width = 2 ↔ ¬ c.IsUnshown := by
  unfold ofCluster Cluster.IsUnshown
  split_ifs with hempty hshown
  · simp [blank, hempty]
  · simp [hempty, hshown.1, hshown.2]
  · refine iff_of_false (by simp [replacement]) (not_not.mpr (.inr ?_))
    rwa [← Bool.not_eq_true, ← Nat.not_le, ← not_and_or]

/-- A cluster as it is drawn. -/
inductive Piece where
  | narrow (c : Cell) (h : c.width = 1)
  | wide (c : Cell) (h : c.width = 2)
  /-- The sign for a cluster of two columns that cannot be shown. -/
  | sign (c : Cell) (h : c.width = 1)

namespace Piece

/-- The cell that is placed. -/
def cell : Piece → Cell
  | narrow c _ | wide c _ | sign c _ => c

/-- How far the column moves on. -/
def columns : Piece → Nat
  | narrow _ _ => 1
  | wide _ _ | sign _ _ => 2

/-- What is left in each of the columns. The one behind a sign is passed over. -/
def entries : Piece → List (Option Cell)
  | narrow c _ => [some c]
  | wide c _ => [some c, some (.continuation c.style)]
  | sign c _ => [some c, none]

theorem length_entries (g : Piece) : g.entries.length = g.columns := by
  cases g <;> rfl

theorem width_cell (g : Piece) : g.cell.width = 1 ∨ g.cell.width = 2 := by
  cases g with
  | narrow c h => exact .inl h
  | wide c h => exact .inr h
  | sign c h => exact .inl h

/-- The row after the piece is placed. -/
def stamp (row : CellRow) (x : Nat) : Piece → CellRow
  | narrow c _ | sign c _ => row.narrow x c
  | wide c _ => row.wide x c

/-- How a cluster is drawn, if it has columns. -/
def ofCluster? (style : Style) (c : Cluster) : Option Piece :=
  if min c.columns 2 = 0 then none
  else if min c.columns 2 = 1 then some (.narrow _ (Cell.width_ofCluster_one c.text style))
  else if h : (Cell.ofCluster c.text 2 style).width = 2 then some (.wide _ h)
  else some (.sign _ ((Cell.width_ofCluster c.text (.inr rfl) style).resolve_right h))

/-- How clusters are drawn, from left to right. -/
def ofClusters (style : Style) (cs : List Cluster) : List Piece := cs.filterMap (ofCluster? style)

/-- What clusters leave in the columns that they take. -/
def typeset (ps : List Piece) : List (Option Cell) := ps.flatMap entries

theorem ofCluster?_eq_none {style : Style} {c : Cluster} (h : min c.columns 2 = 0) :
    ofCluster? style c = none :=
  if_pos h

/-- A cluster with columns is drawn as the cell that stands for it. -/
theorem exists_ofCluster? (style : Style) {c : Cluster} (h : min c.columns 2 ≠ 0) :
    ∃ g, ofCluster? style c = some g ∧ g.columns = min c.columns 2 ∧
      g.cell = .ofCluster c.text (min c.columns 2) style := by
  rcases (show min c.columns 2 = 1 ∨ min c.columns 2 = 2 by omega) with hone | htwo
  · refine ⟨.narrow _ (Cell.width_ofCluster_one c.text style), ?_, hone.symm, by rw [hone]; rfl⟩
    rw [ofCluster?, if_neg h, if_pos hone]
  · by_cases hwide : (Cell.ofCluster c.text 2 style).width = 2
    · refine ⟨.wide _ hwide, ?_, htwo.symm, by rw [htwo]; rfl⟩
      rw [ofCluster?, if_neg h, if_neg (by omega), dif_pos hwide]
    · refine ⟨.sign _ ((Cell.width_ofCluster c.text (.inr rfl) style).resolve_right hwide), ?_,
        htwo.symm, by rw [htwo]; rfl⟩
      rw [ofCluster?, if_neg h, if_neg (by omega), dif_neg hwide]

theorem style_of_mem {style : Style} {cs : List Cluster} {g : Piece}
    (h : g ∈ ofClusters style cs) : g.cell.style = style := by
  obtain ⟨c, -, hc⟩ := List.mem_filterMap.mp h
  by_cases hzero : min c.columns 2 = 0
  · rw [ofCluster?_eq_none hzero] at hc
    cases hc
  · obtain ⟨g', hg', -, hcell⟩ := exists_ofCluster? style hzero
    rw [hc] at hg'
    cases hg'
    rw [hcell, Cell.style_ofCluster]

/-- What is left of the pieces is in their style. -/
theorem style_of_mem_typeset {style : Style} {ps : List Piece} {c : Cell}
    (hstyle : ∀ g ∈ ps, g.cell.style = style) (hc : some c ∈ typeset ps) : c.style = style := by
  obtain ⟨g, hg, hc⟩ := List.mem_flatMap.mp hc
  have hg := hstyle g hg
  cases g with
  | narrow d hd =>
    rw [entries, List.mem_singleton] at hc
    cases hc
    exact hg
  | wide d hd =>
    rcases List.mem_cons.mp hc with hc | hc
    · cases hc
      exact hg
    · cases List.mem_singleton.mp hc
      exact hg
  | sign d hd =>
    rcases List.mem_cons.mp hc with hc | hc
    · cases hc
      exact hg
    · cases List.mem_singleton.mp hc

/-- A column is passed over behind a cluster that takes two columns and is not shown. -/
theorem none_mem_entries_iff {style : Style} {c : Cluster} :
    (∃ g, ofCluster? style c = some g ∧ none ∈ g.entries) ↔ 2 ≤ c.columns ∧ c.IsUnshown := by
  rw [← not_not (a := c.IsUnshown), ← Cell.width_ofCluster_two c style]
  unfold ofCluster?
  split_ifs with hzero hone hwide
  · simp only [false_and, exists_false, false_iff]
    omega
  · simp [entries]
    omega
  · simp [entries, hwide]
  · simp [entries, hwide]
    omega

theorem none_mem_typeset {style : Style} {cs : List Cluster} :
    none ∈ typeset (ofClusters style cs) ↔ ∃ c ∈ cs, 2 ≤ c.columns ∧ c.IsUnshown := by
  simp only [typeset, ofClusters, List.mem_flatMap, List.mem_filterMap]
  constructor
  · rintro ⟨g, ⟨c, hc, hg⟩, hnone⟩
    exact ⟨c, hc, none_mem_entries_iff.mp ⟨g, hg, hnone⟩⟩
  · rintro ⟨c, hc, hunshown⟩
    obtain ⟨g, hg, hnone⟩ := none_mem_entries_iff.mpr hunshown
    exact ⟨g, ⟨c, hc, hg⟩, hnone⟩

/-- A text does not begin with a column that is passed over. -/
theorem typeset_zero_ne_none (ps : List Piece) : (typeset ps)[0]? ≠ some none := by
  cases ps with
  | nil => simp [typeset]
  | cons g ps => cases g <;> simp [typeset, entries]

theorem typeset_cons (g : Piece) (ps : List Piece) : typeset (g :: ps) = g.entries ++ typeset ps :=
  List.flatMap_cons

theorem length_typeset_cons (g : Piece) (ps : List Piece) :
    (typeset (g :: ps)).length = g.columns + (typeset ps).length := by
  rw [typeset_cons, List.length_append, length_entries]

theorem columns_pos (g : Piece) : 0 < g.columns := by
  cases g <;> simp [columns]

theorem length_typeset_eq_zero {ps : List Piece} : (typeset ps).length = 0 ↔ ps = [] := by
  cases ps with
  | nil => simp [typeset]
  | cons g ps =>
    have := g.columns_pos
    simp only [length_typeset_cons, reduceCtorEq, iff_false]
    omega

end Piece

namespace CellRow

open Piece

variable {row : CellRow} {x i k : Nat} {c : Cell} {g : Piece} {ps : List Piece} {style : Style}

/-- The row after pieces are placed one behind the other from a column on. -/
def set (row : CellRow) (x : Nat) : List Piece → CellRow
  | [] => row
  | g :: ps => (g.stamp row x).set (x + g.columns) ps

theorem IsPaired.stamp (h : row.IsPaired) (g : Piece) (x : Nat) : (g.stamp row x).IsPaired := by
  cases g with
  | narrow c hc => exact h.narrow x hc
  | wide c hc => exact h.wide x hc
  | sign c hc => exact h.narrow x hc

theorem stamp_self (g : Piece) (row : CellRow) (x : Nat) : g.stamp row x x = some g.cell := by
  cases g <;> simp [Piece.stamp, Piece.cell, narrow, wide]

/-- Two columns to the left nothing changes. -/
theorem stamp_before (g : Piece) (h : i + 1 < x) : g.stamp row x i = row i := by
  have hself : i ≠ x := by omega
  have hnext : i ≠ x + 1 := by omega
  have hleft : i + 1 ≠ x := by omega
  have hbehind : i ≠ x + 2 := by omega
  cases g <;> simp [Piece.stamp, narrow, wide, hself, hnext, hleft, hbehind]

/-- Behind the piece one column can change. -/
theorem stamp_behind (g : Piece) (h : x + g.columns < i) : g.stamp row x i = row i := by
  have hself : i ≠ x := by omega
  have hleft : i + 1 ≠ x := by omega
  cases g with
  | narrow c hc =>
    have hnext : i ≠ x + 1 := by simp only [Piece.columns] at h; omega
    simp [Piece.stamp, narrow, hself, hnext, hleft]
  | wide c hc =>
    have hnext : i ≠ x + 1 := by simp only [Piece.columns] at h; omega
    have hbehind : i ≠ x + 2 := by simp only [Piece.columns] at h; omega
    simp [Piece.stamp, wide, hself, hnext, hleft, hbehind]
  | sign c hc =>
    have hnext : i ≠ x + 1 := by simp only [Piece.columns] at h; omega
    simp [Piece.stamp, narrow, hself, hnext, hleft]

/-- To the left the lead of an overwritten right half becomes a space. -/
theorem stamp_left (g : Piece) (row : CellRow) (x : Nat) :
    g.stamp row (x + 1) x =
      if row.width? (x + 1) = some 0 then some (.blank g.cell.style) else row x := by
  have hnext : x ≠ x + 1 + 1 := by omega
  have hbehind : x ≠ x + 1 + 2 := by omega
  cases g <;> simp [Piece.stamp, Piece.cell, narrow, wide, hnext, hbehind]

/-- No right half is left over behind a piece, unless its lead is there. -/
theorem width?_stamp_behind (h : row.IsPaired) (hg : g.columns = g.cell.width) :
    (g.stamp row x).width? (x + g.columns) ≠ some 0 := by
  intro hzero
  have hpair := ((isPaired_iff_width? _).mp (h.stamp g x)).2.2
  cases g with
  | narrow c hc =>
    have hlead := (hpair x).mp hzero
    rw [width?, stamp_self] at hlead
    simp [Piece.cell, hc] at hlead
  | wide c hc =>
    have hlead := (hpair (x + 1)).mp hzero
    simp [width?, Piece.stamp, wide, Cell.continuation] at hlead
  | sign c hc => simp [Piece.columns, Piece.cell, hc] at hg

theorem set_before (h : i + 1 < x) : row.set x ps i = row i := by
  induction ps generalizing row x with
  | nil => rfl
  | cons g ps ih => rw [set, ih (by omega), stamp_before g h]

/-- Pieces reach the column to their left when the first one overwrites a right half. -/
theorem set_left (row : CellRow) (x : Nat) (g : Piece) (ps : List Piece) :
    row.set (x + 1) (g :: ps) x =
      if row.width? (x + 1) = some 0 then some (.blank g.cell.style) else row x := by
  rw [set, set_before (by have := g.columns_pos; omega), stamp_left]

theorem set_left_of_ne (hne : row.width? (x + 1) ≠ some 0) (ps : List Piece) :
    row.set (x + 1) ps x = row x := by
  cases ps with
  | nil => rfl
  | cons g ps => rw [set_left, if_neg hne]

/-- A column that is not passed over holds what was placed there last. -/
theorem set_of_entry (h : row.IsPaired) (hk : (typeset ps)[k]? = some (some c)) :
    row.set x ps (x + k) = some c := by
  induction ps generalizing row x k with
  | nil => simp [typeset] at hk
  | cons g ps ih =>
    rw [typeset_cons] at hk
    rw [set]
    have hpaired := h.stamp g x
    rcases Nat.lt_or_ge k g.columns with hlt | hge
    · rw [List.getElem?_append_left (by rwa [length_entries])] at hk
      cases g with
      | narrow d hd =>
        obtain rfl : k = 0 := Nat.lt_one_iff.mp hlt
        cases hk
        have hbehind := width?_stamp_behind (x := x) (g := .narrow _ hd) h hd.symm
        exact (set_left_of_ne hbehind ps).trans (stamp_self _ row x)
      | wide d hd =>
        obtain rfl | rfl := Nat.le_one_iff_eq_zero_or_eq_one.mp (Nat.le_of_lt_succ hlt)
        · cases hk
          exact (set_before (by simp [Piece.columns])).trans (stamp_self _ row x)
        · cases hk
          have hbehind := width?_stamp_behind (x := x) (g := .wide _ hd) h hd.symm
          exact (set_left_of_ne hbehind ps).trans (by simp [Piece.stamp, wide])
      | sign d hd =>
        obtain rfl | rfl := Nat.le_one_iff_eq_zero_or_eq_one.mp (Nat.le_of_lt_succ hlt)
        · cases hk
          exact (set_before (by simp [Piece.columns])).trans (stamp_self _ row x)
        · cases hk
    · rw [List.getElem?_append_right (by rwa [length_entries]), length_entries] at hk
      have hcolumn : x + k = x + g.columns + (k - g.columns) := by omega
      rw [hcolumn]
      exact ih hpaired hk

/-- The column behind a sign keeps a cell of one column. It keeps a lead if the text ends there. -/
theorem set_behind_sign {old : Cell} (h : row.IsPaired) (hc : c.width = 1)
    (hstyle : c.style = style) (hps : ∀ g ∈ ps, g.cell.style = style)
    (hold : row (x + 1) = some old) :
    (row.narrow x c).set (x + 2) ps (x + 1) =
      some (if old.width = 1 ∨ old.width = 2 ∧ ps = [] then old else .blank style) := by
  have hpair := ((isPaired_iff_width? _).mp h).2.2
  have hpair' := ((isPaired_iff_width? _).mp (h.narrow x hc)).2.2
  have hwidth : row.width? (x + 1) = some old.width := width?_eq_some.mpr ⟨old, hold, rfl⟩
  by_cases hzero : old.width = 0
  · -- The sign is written over the lead.
    have hlead : row.width? x = some 2 := (hpair x).mp (hzero ▸ hwidth)
    have hblank : row.narrow x c (x + 1) = some (.blank style) := by
      simp [narrow, hlead, hstyle]
    have hnext : (row.narrow x c).width? (x + 1 + 1) ≠ some 0 := by
      rw [Ne, hpair', width?, hblank]
      simp [Cell.blank]
    rw [set_left_of_ne hnext, hblank, if_neg (by omega)]
  · have hlead : row.width? x ≠ some 2 := fun htwo => by
      have := (hpair x).mpr htwo
      rw [hwidth, Option.some_inj] at this
      exact hzero this
    have hkept : row.narrow x c (x + 1) = some old := by
      simp [narrow, hlead, hold, show x + 1 + 1 ≠ x by omega]
    have hnext : (row.narrow x c).width? (x + 1 + 1) = some 0 ↔ old.width = 2 := by
      rw [hpair', width?, hkept, Option.map_some, Option.some_inj]
    have hle := h.width_le_two hold
    cases ps with
    | nil =>
      rw [set, hkept, if_pos (by simp only [and_true]; omega)]
    | cons g ps =>
      rw [set_left]
      by_cases htwo : old.width = 2
      · rw [if_pos (hnext.mpr htwo), hps g List.mem_cons_self, if_neg (by simp [htwo])]
      · rw [if_neg (hnext.not.mpr htwo), hkept, if_pos (by omega)]

/-- A column that is passed over keeps its cell, unless it was half of a wide glyph of which the
other half is written over. -/
theorem set_of_gap {old : Cell} (h : row.IsPaired) (hstyle : ∀ g ∈ ps, g.cell.style = style)
    (hk : (typeset ps)[k]? = some none) (hold : row (x + k) = some old) :
    row.set x ps (x + k) =
      some (if old.width = 1 ∨ old.width = 2 ∧ k + 1 = (typeset ps).length then old
        else .blank style) := by
  induction ps generalizing row x k with
  | nil => simp [typeset] at hk
  | cons g ps ih =>
    obtain ⟨hhead, hrest⟩ := List.forall_mem_cons.mp hstyle
    have hlength := length_typeset_cons g ps
    rw [typeset_cons] at hk
    rw [set]
    have hpaired := h.stamp g x
    rcases Nat.lt_or_ge k g.columns with hlt | hge
    · rw [List.getElem?_append_left (by rwa [length_entries])] at hk
      cases g with
      | narrow d hd =>
        obtain rfl : k = 0 := Nat.lt_one_iff.mp hlt
        cases hk
      | wide d hd =>
        obtain rfl | rfl := Nat.le_one_iff_eq_zero_or_eq_one.mp (Nat.le_of_lt_succ hlt)
        · cases hk
        · cases hk
      | sign d hd =>
        obtain rfl | rfl := Nat.le_one_iff_eq_zero_or_eq_one.mp (Nat.le_of_lt_succ hlt)
        · cases hk
        · have hlast : ps = [] ↔ 1 + 1 = (Piece.sign d hd).columns + (typeset ps).length := by
            rw [← length_typeset_eq_zero, Piece.columns]
            omega
          rw [Piece.stamp, Piece.columns, set_behind_sign h hd hhead hrest hold, hlength]
          simp only [hlast]
    · rw [List.getElem?_append_right (by rwa [length_entries]), length_entries] at hk
      have hcolumn : x + k = x + g.columns + (k - g.columns) := by omega
      have hfar : x + g.columns < x + k := by
        rcases Nat.eq_or_lt_of_le hge with rfl | hlt
        · rw [Nat.sub_self] at hk
          exact absurd hk (typeset_zero_ne_none ps)
        · omega
      replace hold := (stamp_behind g hfar).trans hold
      rw [hcolumn] at hold ⊢
      rw [ih hpaired hrest hk hold, hlength]
      have hlast : k - g.columns + 1 = (typeset ps).length ↔
          k + 1 = g.columns + (typeset ps).length := by omega
      simp only [hlast]

end CellRow

namespace Painter

open Piece

variable {p : Painter} {f : Frame} {ps : List Piece} {style : Style}

/-- Place pieces from left to right and return the column after the last. -/
def set (p : Painter) (x y : Int) : List Piece → Painter × Int
  | [] => (p, x)
  | g :: ps => (p.place x y g.cell).set (min (x + g.columns) lastColumn) y ps

theorem clusters_eq_set (p : Painter) (x y : Int) (style : Style) (cs : List Cluster) :
    p.clusters x y style cs = p.set x y (ofClusters style cs) := by
  induction cs generalizing p x with
  | nil => rfl
  | cons c cs ih =>
    rw [clusters, ofClusters]
    by_cases hzero : min c.columns 2 = 0
    · rw [List.filterMap_cons_none (ofCluster?_eq_none hzero)]
      simp only [hzero, if_true]
      exact ih p x
    · obtain ⟨g, hg, hcolumns, hcell⟩ := exists_ofCluster? style hzero
      rw [List.filterMap_cons_some hg, set, hcolumns, hcell]
      simp only [hzero, if_false]
      exact ih _ _

/-- Where a text ends does not depend on the clip. -/
theorem column_set (p : Painter) (x y : Int) (ps : List Piece) :
    (p.set x y ps).2 = if ps = [] then x else min (x + (typeset ps).length) lastColumn := by
  induction ps generalizing p x with
  | nil => rfl
  | cons g ps ih =>
    rw [set, ih, if_neg (List.cons_ne_nil g ps), length_typeset_cons]
    split_ifs with hnil
    · simp [hnil, typeset]
    · omega

/-- A text whose columns may all be written is set in its row. -/
theorem cellRow_set (hvalid : p.frame.isValid = true) {x y : Nat}
    (hin : ∀ i < (typeset ps).length, p.clip.contains (x + i : Nat) y = true ∧
      x + i < p.frame.width ∧ y < p.frame.height) :
    (p.set x y ps).1.frame.cellRow y = (p.frame.cellRow y).set x ps := by
  induction ps generalizing p x with
  | nil => rfl
  | cons g ps ih =>
    rw [length_typeset_cons] at hin
    have htouch (i : Nat) (hi : i < g.columns) : p.touch? (x + i : Nat) y = some (x + i, y) := by
      obtain ⟨hclip, hx, hy⟩ := hin i (by omega)
      exact touch?_eq_some hclip hx hy
    have hrow : (p.place x y g.cell).frame.cellRow y = g.stamp (p.frame.cellRow y) x := by
      have hfirst := htouch 0 g.columns_pos
      cases g with
      | narrow c hc => exact cellRow_place_narrow hvalid hc hfirst
      | wide c hc => exact cellRow_place_wide hvalid hc hfirst (htouch 1 (by simp [Piece.columns]))
      | sign c hc => exact cellRow_place_narrow hvalid hc hfirst
    have hmatch := (show Matches p p from ⟨hvalid, rfl, rfl, rfl⟩).place x y g.width_cell
    have hclip : (p.place x y g.cell).clip = p.clip := congrArg ClipStack.top hmatch.clips
    have hcolumn : min ((x : Int) + g.columns) lastColumn = (x + g.columns : Nat) := by
      have hwidth : p.frame.width < 65536 := p.frame.width_lt
      have hlast := (hin (g.columns - 1) (by have := g.columns_pos; omega)).2.1
      have : lastColumn = 2147483647 := rfl
      omega
    rw [set, CellRow.set, hcolumn, ← hrow]
    apply ih hmatch.valid
    intro i hi
    rw [hclip, hmatch.width, hmatch.height, Nat.add_assoc]
    exact hin (g.columns + i) (by omega)

/-- Columns that lie inside the clip end before any that could not be counted. -/
theorem column_set_of_clip {capacity : Nat} {rects : List WordRect} (h : p.Nests f capacity rects)
    {x y : Int} (hlt : x < (p.set x y ps).2)
    (hclip : ∀ k, x ≤ k → k < (p.set x y ps).2 → p.clip.contains k y = true) :
    (p.set x y ps).2 = x + (typeset ps).length := by
  obtain ⟨-, -, hlast, -⟩ := h.inside (hclip ((p.set x y ps).2 - 1) (by omega) (by omega))
  have hwidth : f.width < 65536 := f.width_lt
  have hcolumn := column_set p x y ps
  have : lastColumn = 2147483647 := rfl
  split_ifs at hcolumn with hnil
  · omega
  · omega

/-- What pieces leave in a column, if it is not passed over, or what is left there of the old
cell. -/
theorem cell?_set {old : Cell} {entry : Option Cell} {x y n : Nat}
    (hvalid : p.frame.isValid = true)
    (hin : ∀ i < (typeset ps).length, p.clip.contains (x + i : Nat) y = true ∧
      x + i < p.frame.width ∧ y < p.frame.height)
    (hstyle : ∀ g ∈ ps, g.cell.style = style) (hentry : (typeset ps)[n]? = some entry)
    (hold : p.frame.cell? (x + n) y = some old) :
    (p.set x y ps).1.frame.cell? (x + n) y = some (entry.getD
      (if old.width = 1 ∨ old.width = 2 ∧ n + 1 = (typeset ps).length then old
        else .blank style)) := by
  have hpaired := Frame.isPaired_cellRow hvalid y
  refine (congrFun (cellRow_set hvalid hin) (x + n)).trans ?_
  cases entry with
  | none => exact CellRow.set_of_gap hpaired hstyle hentry hold
  | some c => exact CellRow.set_of_entry hpaired hentry

/-- When all columns up to the one that is returned lie inside the clip, each of them holds a cell
of the text in its style, but for those behind a sign, however the text is split. The signs stand
for clusters of two columns that no cell can show; by the rules of Unicode these are the ones that
are too long. The column behind a sign keeps its old cell if that is one column wide, or if it is
the lead of a wide glyph and the text ends there. -/
theorem text_leaves {capacity : Nat} {rects : List WordRect} (h : p.Nests f capacity rects)
    (hvalid : f.isValid = true) (split : Segmentation) (x y : Int) (text : String) (style : Style)
    (hclip : ∀ k, x ≤ k → k < (p.text split x y text style).2 → p.clip.contains k y = true) :
    ∀ k, x ≤ k → k < (p.text split x y text style).2 →
      ∃ (i j : Nat) (old : Cell) (entry : Option Cell),
        k = i ∧ y = j ∧ f.cell? i j = some old ∧
        (typeset (ofClusters style (split text)))[(k - x).toNat]? = some entry ∧
        (∀ c, entry = some c →
          c.style = style ∧ (p.text split x y text style).1.frame.cell? i j = some c) ∧
        (entry = none →
          (∃ c ∈ split text, 2 ≤ c.columns ∧ c.IsUnshown ∧
            (split.IsStandard → Cell.maxGlyphBytes < c.text.utf8ByteSize)) ∧
          (p.text split x y text style).1.frame.cell? i j =
            some (if old.width = 1 ∨ old.width = 2 ∧ k + 1 = (p.text split x y text style).2
              then old else .blank style)) := by
  have hset : p.text split x y text style = p.set x y (ofClusters style (split text)) :=
    clusters_eq_set p x y style (split text)
  have hunshown (hnone : none ∈ typeset (ofClusters style (split text))) :
      ∃ c ∈ split text, 2 ≤ c.columns ∧ c.IsUnshown ∧
        (split.IsStandard → Cell.maxGlyphBytes < c.text.utf8ByteSize) := by
    obtain ⟨c, hc, htwo, hunshown⟩ := none_mem_typeset.mp hnone
    exact ⟨c, hc, htwo, hunshown, fun hsplit => hsplit.lt_of_isUnshown hc htwo hunshown⟩
  have hstyle (g : Piece) (hg : g ∈ ofClusters style (split text)) := style_of_mem hg
  rw [hset] at hclip ⊢
  generalize ofClusters style (split text) = ps at hclip hunshown hstyle ⊢
  intro k hk hlt
  obtain ⟨hx, hy, -⟩ := h.inside (hclip x le_rfl (by omega))
  have hcolumn := column_set_of_clip h (by omega) hclip
  obtain ⟨i, rfl⟩ := Int.eq_ofNat_of_zero_le hx
  obtain ⟨j, rfl⟩ := Int.eq_ofNat_of_zero_le hy
  obtain ⟨n, rfl⟩ : ∃ n : Nat, k = (i + n : Nat) := ⟨(k - i).toNat, by omega⟩
  have hin (n : Nat) (hn : n < (typeset ps).length) : p.clip.contains (i + n : Nat) j = true ∧
      i + n < p.frame.width ∧ j < p.frame.height := by
    have hin := hclip (i + n : Nat) (by omega) (by omega)
    have := h.inside hin
    rw [h.frame]
    exact ⟨hin, by omega, by omega⟩
  have hn : n < (typeset ps).length := by omega
  obtain ⟨entry, hentry⟩ : ∃ entry, (typeset ps)[n]? = some entry :=
    ⟨_, List.getElem?_eq_getElem hn⟩
  obtain ⟨old, hold⟩ := Frame.exists_cell? (hin n hn).2.1 (hin n hn).2.2
  have hcell := cell?_set (h.frame ▸ hvalid) hin hstyle hentry hold
  rw [h.frame] at hold
  refine ⟨i + n, j, old, entry, rfl, rfl, hold, ?_, ?_, ?_⟩
  · rw [show ((i + n : Nat) - (i : Int)).toNat = n by omega, hentry]
  · rintro c rfl
    exact ⟨style_of_mem_typeset hstyle (List.mem_of_getElem? hentry), hcell⟩
  · rintro rfl
    have hends : ((i + n : Nat) : Int) + 1 = (p.set i j ps).2 ↔ n + 1 = (typeset ps).length := by
      omega
    refine ⟨hunshown (List.mem_of_getElem? hentry), ?_⟩
    simp only [hends]
    exact hcell

/-- Three letters in a row of three columns. -/
def letters : Painter :=
  (Painter.clusters ⟨.blank 3 1, ⟨⟨0, 0, 3, 1⟩, [], 1, Nat.zero_lt_one⟩⟩ 0 0 .plain
    [⟨"a", 1⟩, ⟨"b", 1⟩, ⟨"c", 1⟩]).1

/-- Two people of different skin tones with a heart and a kiss between them, joined to one picture:
35 bytes. -/
def kiss : String :=
  String.ofList ([0x1F469, 0x1F3FB, 0x200D, 0x2764, 0xFE0F, 0x200D, 0x1F48B, 0x200D, 0x1F468,
    0x1F3FD].map Char.ofNat)

/-- A style with a blue background. -/
def onBlue : Style := .colors .black (.ofChannels 0 0 255)

theorem letters_nests : letters.Nests letters.frame 1 [] := ⟨rfl, rfl, rfl, rfl⟩

theorem ofText_kiss : Cluster.ofText kiss = [⟨kiss, 2⟩] := by decide +kernel

variable {split : Segmentation}

theorem column_letters (hsplit : split kiss = [⟨kiss, 2⟩]) :
    (letters.text split 0 0 kiss onBlue).2 = 2 := by
  rw [text, hsplit]
  rfl

theorem letters_clip (hsplit : split kiss = [⟨kiss, 2⟩]) :
    ∀ k, 0 ≤ k → k < (letters.text split 0 0 kiss onBlue).2 →
      letters.clip.contains k 0 = true := by
  have hclip : letters.clip = ⟨0, 0, 3, 1⟩ := rfl
  intro k hk hlt
  rw [column_letters hsplit] at hlt
  rw [hclip, Rect.contains_iff]
  dsimp only
  omega

/-- The picture becomes a sign of one column, and the letter behind the sign stays. -/
theorem text_leaves_letter :
    let drawn := letters.text Cluster.ofText 0 0 kiss onBlue
    letters.frame.isValid = true ∧
      drawn.2 = 2 ∧
      (∃ c ∈ Cluster.ofText kiss, 2 ≤ c.columns ∧ Cell.maxGlyphBytes < c.text.utf8ByteSize) ∧
      drawn.1.frame.cell? 1 0 = some (.ofCluster "b" 1 .plain) := by
  have hvalid : letters.frame.isValid = true := by decide +kernel
  obtain ⟨i, j, old, entry, hi, hj, hold, hentry, -, hgap⟩ :=
    text_leaves letters_nests hvalid Cluster.ofText 0 0 kiss onBlue (letters_clip ofText_kiss) 1
      (by decide) (by rw [column_letters ofText_kiss]; decide)
  obtain rfl : i = 1 := by omega
  obtain rfl : j = 0 := by omega
  have hnone : (typeset (ofClusters onBlue (Cluster.ofText kiss)))[1]? = some none := by
    rw [ofText_kiss]
    decide +kernel
  obtain rfl : entry = none := by
    rw [show ((1 : Int) - 0).toNat = 1 from rfl, hnone] at hentry
    exact (Option.some_inj.mp hentry).symm
  have hletter : letters.frame.cell? 1 0 = some (.ofCluster "b" 1 .plain) := by decide +kernel
  rw [hletter] at hold
  cases hold
  obtain ⟨⟨c, hc, hcolumns, -, hlong⟩, hcell⟩ := hgap rfl
  exact ⟨hvalid, column_letters ofText_kiss,
    ⟨c, hc, hcolumns, hlong Cluster.isStandard_ofText⟩, hcell⟩

/-- With no segmentation that keeps such a picture together does a text leave cells in its style in
all of its columns: one behind a sign can keep a cell that was there before. -/
theorem text_leaves_stale :
    ¬ ∃ split : Segmentation, split kiss = [⟨kiss, 2⟩] ∧
      ∀ (p : Painter) (f : Frame) (capacity : Nat) (rects : List WordRect) (x y : Int)
        (text : String) (style : Style), p.Nests f capacity rects → f.isValid = true →
        (∀ k, x ≤ k → k < (p.text split x y text style).2 → p.clip.contains k y = true) →
        ∀ k, x ≤ k → k < (p.text split x y text style).2 → ∃ (i j : Nat) (c : Cell),
          k = i ∧ y = j ∧ (p.text split x y text style).1.frame.cell? i j = some c ∧
            c.style = style := by
  rintro ⟨split, hsplit, hclaim⟩
  obtain ⟨i, j, c, hi, hj, hcell, hstyle⟩ := hclaim letters letters.frame 1 [] 0 0 kiss
    onBlue letters_nests (by decide +kernel) (letters_clip hsplit) 1 (by decide)
    (by rw [column_letters hsplit]; decide)
  obtain rfl : i = 1 := by omega
  obtain rfl : j = 0 := by omega
  have hletter : (letters.text split 0 0 kiss onBlue).1.frame.cell? 1 0 =
      some (.ofCluster "b" 1 .plain) := by
    rw [text, hsplit]
    decide +kernel
  rw [hletter] at hcell
  cases hcell
  exact absurd hstyle (by decide)

end Painter

end CellCanvas
