import CellCanvas.Proofs.Paint.Addresses

/-!
# Drawing stays in the clip

A placed cell changes columns that the clip admits and at most one column beside them: the half that
is left over of a wide glyph becomes a space. A space is no half of anything, so placing more cells
does not reach further. Outside the clip only the halves of glyphs that straddle its left or right
edge can change, whatever is drawn.
-/

namespace CellCanvas

namespace CellRow

/-- The cell at a column is half of a wide glyph, and the other half is at column `other`. -/
def Halves (row : CellRow) (x other : Nat) : Prop :=
  (other = x + 1 ∧ row.width? x = some 2) ∨ (x = other + 1 ∧ row.width? x = some 0)

variable {row : CellRow} {x i : Nat}

theorem narrow_beside (h : row.IsPaired) (c : Cell) (hi : i ≠ x) :
    row.narrow x c i = row i ∨ row.Halves i x ∧ row.narrow x c i = some (.blank c.style) := by
  have hpair := ((isPaired_iff_width? row).mp h).2.2
  rw [narrow, if_neg hi]
  split_ifs with hleft hright
  · obtain ⟨rfl, hzero⟩ := hleft
    exact Or.inr ⟨Or.inl ⟨rfl, (hpair i).mp hzero⟩, rfl⟩
  · obtain ⟨rfl, htwo⟩ := hright
    exact Or.inr ⟨Or.inr ⟨rfl, (hpair x).mpr htwo⟩, rfl⟩
  · exact Or.inl rfl

theorem wide_beside (h : row.IsPaired) (lead : Cell) (hi : i ≠ x) (hi' : i ≠ x + 1) :
    row.wide x lead i = row i ∨
      (row.Halves i x ∨ row.Halves i (x + 1)) ∧ row.wide x lead i = some (.blank lead.style) := by
  have hpair := ((isPaired_iff_width? row).mp h).2.2
  rw [wide, if_neg hi, if_neg hi']
  split_ifs with hleft hright
  · obtain ⟨rfl, hzero⟩ := hleft
    exact Or.inr ⟨Or.inl (Or.inl ⟨rfl, (hpair i).mp hzero⟩), rfl⟩
  · obtain ⟨rfl, htwo⟩ := hright
    exact Or.inr ⟨Or.inr (Or.inr ⟨rfl, (hpair (x + 1)).mpr htwo⟩), rfl⟩
  · exact Or.inl rfl

end CellRow

namespace Frame

/-- The cell at a position is half of a wide glyph, and the other half lies in a rectangle. -/
def Straddles (f : Frame) (r : Rect) (x y : Nat) : Prop :=
  ∃ other, (f.cellRow y).Halves x other ∧ r.contains other y = true

/-- The second frame differs from the first in a rectangle, and outside it in spaces that stand for
halves of straddling glyphs. -/
structure Confined (r : Rect) (f g : Frame) : Prop where
  width : g.width = f.width
  height : g.height = f.height
  links : g.links = f.links
  cells : ∀ x y : Nat, r.contains x y = false →
    g.cell? x y = f.cell? x y ∨ f.Straddles r x y ∧ ∃ s, g.cell? x y = some (.blank s)

variable {f g k : Frame} {r : Rect} {x y : Nat} {c : Cell}

theorem Straddles.congr (hcell : g.cell? x y = f.cell? x y) (h : g.Straddles r x y) :
    f.Straddles r x y := by
  have hwidth : (g.cellRow y).width? x = (f.cellRow y).width? x := congrArg _ hcell
  obtain ⟨other, hhalves, hin⟩ := h
  rw [CellRow.Halves, hwidth] at hhalves
  exact ⟨other, hhalves, hin⟩

/-- A straddling glyph has its outer half next to an edge, in a row of the rectangle. -/
theorem Straddles.beside (h : f.Straddles r x y) (hout : r.contains x y = false) :
    ((x : Int) + 1 = r.x ∨ (x : Int) = r.right) ∧ r.y ≤ y ∧ y < r.bottom := by
  obtain ⟨other, hhalves, hin⟩ := h
  rw [Rect.contains_iff] at hin
  rw [← Bool.not_eq_true, Rect.contains_iff] at hout
  simp only [Rect.right, Rect.bottom]
  rcases hhalves with ⟨rfl, -⟩ | ⟨rfl, -⟩
  · omega
  · omega

/-- A space is no half of a wide glyph. -/
theorem not_straddles_blank {s : Style} (hcell : f.cell? x y = some (.blank s)) :
    ¬f.Straddles r x y := by
  have hwidth : (f.cellRow y).width? x = some 1 := CellRow.width?_eq_some.mpr ⟨_, hcell, rfl⟩
  rintro ⟨other, ⟨-, htwo⟩ | ⟨-, hzero⟩, -⟩
  · simp [hwidth] at htwo
  · simp [hwidth] at hzero

namespace Confined

theorem refl (r : Rect) (f : Frame) : Confined r f f :=
  ⟨rfl, rfl, rfl, fun _ _ _ => Or.inl rfl⟩

/-- Repairs do not chain: the cell beside the rectangle that a second change may touch is the one
that a first change may have touched. -/
theorem trans (h : Confined r f g) (h' : Confined r g k) : Confined r f k := by
  refine ⟨h'.width.trans h.width, h'.height.trans h.height, h'.links.trans h.links, ?_⟩
  intro x y hout
  rcases h.cells x y hout with hsame | ⟨hstraddles, s, hblank⟩
  · rcases h'.cells x y hout with hsame' | ⟨hstraddles', hblank'⟩
    · exact Or.inl (hsame'.trans hsame)
    · exact Or.inr ⟨hstraddles'.congr hsame, hblank'⟩
  · rcases h'.cells x y hout with hsame' | ⟨hstraddles', -⟩
    · exact Or.inr ⟨hstraddles, s, hsame'.trans hblank⟩
    · exact absurd hstraddles' (not_straddles_blank hblank)

end Confined

theorem size_writeWide (f : Frame) (x y : Nat) (c : Cell) :
    (f.writeWide x y c).width = f.width ∧ (f.writeWide x y c).height = f.height := by
  have h := size_writeNarrow f x y (.blank c.style)
  have h' := size_writeNarrow (f.writeNarrow x y (.blank c.style)) (x + 1) y (.blank c.style)
  unfold writeWide
  dsimp only
  split_ifs
  · exact ⟨rfl, rfl⟩
  · simpa using ⟨h'.1.trans h.1, h'.2.trans h.2⟩
  · exact h

theorem confined_writeNarrow (hf : f.isValid = true) (hx : x < f.width) (hy : y < f.height)
    (hin : r.contains x y = true) (c : Cell) : Confined r f (f.writeNarrow x y c) := by
  refine ⟨(f.size_writeNarrow x y c).1, (f.size_writeNarrow x y c).2, links_writeNarrow, ?_⟩
  intro i j hout
  have hrow := congrFun (cellRow_writeNarrow hf hx hy c j) i
  rw [cellRow] at hrow
  split_ifs at hrow with hj
  · subst hj
    have hi : i ≠ x := by
      rintro rfl
      simp [hin] at hout
    rcases CellRow.narrow_beside (isPaired_cellRow hf j) c hi with hsame | ⟨hhalves, hblank⟩
    · exact Or.inl (hrow.trans hsame)
    · exact Or.inr ⟨⟨x, hhalves, hin⟩, c.style, hrow.trans hblank⟩
  · exact Or.inl hrow

theorem confined_writeWide (hf : f.isValid = true) (hx : x + 1 < f.width) (hy : y < f.height)
    (hin : r.contains x y = true) (hin' : r.contains (x + 1 : Nat) y = true) (c : Cell) :
    Confined r f (f.writeWide x y c) := by
  refine ⟨(f.size_writeWide x y c).1, (f.size_writeWide x y c).2, links_writeWide, ?_⟩
  intro i j hout
  have hrow := congrFun (cellRow_writeWide hf hx hy c j) i
  rw [cellRow] at hrow
  split_ifs at hrow with hj
  · subst hj
    have hi : i ≠ x := by
      rintro rfl
      simp [hin] at hout
    have hi' : i ≠ x + 1 := by
      rintro rfl
      rw [hin'] at hout
      cases hout
    rcases CellRow.wide_beside (isPaired_cellRow hf j) c hi hi' with hsame | ⟨hhalves, hblank⟩
    · exact Or.inl (hrow.trans hsame)
    · refine Or.inr ⟨?_, c.style, hrow.trans hblank⟩
      rcases hhalves with hhalves | hhalves
      · exact ⟨x, hhalves, hin⟩
      · exact ⟨x + 1, hhalves, hin'⟩
  · exact Or.inl hrow

end Frame

namespace Painter

open CellCanvas.Frame

variable {p q : Painter}

/-- A point that may be touched lies in the clip and in the grid. -/
theorem of_touch?_eq_some {x y : Int} {i j : Nat} (h : p.touch? x y = some (i, j)) :
    x = i ∧ y = j ∧ p.clip.contains i j = true ∧ i < p.frame.width ∧ j < p.frame.height := by
  unfold touch? at h
  split_ifs at h with hin
  cases h
  rw [Bool.and_eq_true, Rect.contains_iff p.frame.bounds] at hin
  simp only [bounds] at hin
  obtain ⟨hclip, hbounds⟩ := hin
  have hx : (x.toNat : Int) = x := Int.toNat_of_nonneg hbounds.1
  have hy : (y.toNat : Int) = y := Int.toNat_of_nonneg hbounds.2.1
  refine ⟨hx.symm, hy.symm, ?_, by omega, by omega⟩
  rw [hx, hy]
  exact hclip

theorem clips_place (p : Painter) (x y : Int) (c : Cell) : (p.place x y c).clips = p.clips := by
  unfold place
  cases p.touch? x y with
  | none => rfl
  | some position =>
    dsimp only
    split_ifs <;> rfl

/-- A placed cell stays in a rectangle that has the columns it takes up, where these may be
touched. -/
theorem confined_place_of (hvalid : p.frame.isValid = true) {r : Rect} {x y : Int} {c : Cell}
    (hlead : ∀ i j : Nat, p.touch? x y = some (i, j) → r.contains i j = true)
    (htail : c.width = 2 → ∀ i j : Nat, p.touch? (x + 1) y = some (i, j) →
      r.contains i j = true) :
    Confined r p.frame (p.place x y c).frame := by
  unfold place
  cases htouch : p.touch? x y with
  | none => exact .refl _ _
  | some position =>
    obtain ⟨i, j⟩ := position
    have hin := hlead i j htouch
    obtain ⟨rfl, rfl, -, hi, hj⟩ := of_touch?_eq_some htouch
    dsimp only
    split_ifs with hwide hroom
    · obtain ⟨⟨i', j'⟩, hroom⟩ := Option.isSome_iff_exists.mp hroom
      have htwo : c.width = 2 := by simpa [Cell.isWide] using hwide
      have hin' := htail htwo i' j' hroom
      obtain ⟨hnext, hj', -, hi', -⟩ := of_touch?_eq_some hroom
      obtain rfl : i' = i + 1 := by omega
      obtain rfl : j' = j := by omega
      exact confined_writeWide hvalid hi' hj hin hin' c
    · exact .refl _ _
    · exact confined_writeNarrow hvalid hi hj hin c

/-- A placed cell stays in the clip. -/
theorem confined_place (hvalid : p.frame.isValid = true) (x y : Int) (c : Cell) :
    Confined p.clip p.frame (p.place x y c).frame :=
  confined_place_of hvalid (fun _ _ htouch => (of_touch?_eq_some htouch).2.2.1)
    fun _ _ _ htouch => (of_touch?_eq_some htouch).2.2.1

/-- Placed cells stay in the clip, which placing does not change. -/
theorem Paints.confined (hvalid : p.frame.isValid = true) (h : Paints p q) :
    Confined p.clip p.frame q.frame ∧ q.clips = p.clips := by
  induction h with
  | refl => exact ⟨.refl _ _, rfl⟩
  | @tail q u hpaints hplaced ih =>
    obtain ⟨x, y, c, -, rfl⟩ := hplaced
    obtain ⟨hconfined, hclips⟩ := ih
    have hq := keepsPlacing_isValid.paints hpaints hvalid
    have hstep := confined_place hq x y c
    rw [clip, hclips] at hstep
    exact ⟨hconfined.trans hstep, (clips_place q x y c).trans hclips⟩

/-- An operation that draws, under the clip that is in force. -/
def Draws (p q : Painter) : Prop := Step p q ∧ q.clips = p.clips

/-- All operations draw, but for the two that move the clip. -/
theorem Step.draws_or (hvalid : p.frame.isValid = true) (h : Step p q) :
    Draws p q ∨ (∃ r, p.pushClip r = .ok q) ∨ p.popClip = .ok q := by
  rcases h.cases with hpaints | hmoves
  · exact Or.inl ⟨h, (hpaints.confined hvalid).2⟩
  · exact Or.inr hmoves

theorem Draws.confined (hvalid : p.frame.isValid = true) (h : Draws p q) :
    Confined p.clip p.frame q.frame := by
  have hsame (hframe : q.frame = p.frame) : Confined p.clip p.frame q.frame := by
    rw [hframe]
    exact .refl _ _
  rcases h.1.cases with hpaints | ⟨r, hpush⟩ | hpop
  · exact (hpaints.confined hvalid).1
  · exact hsame (frame_pushClip hpush)
  · exact hsame (frame_popClip hpop)

theorem confined_of_draws (hvalid : p.frame.isValid = true) (h : Relation.ReflTransGen Draws p q) :
    Confined p.clip p.frame q.frame ∧ q.clips = p.clips ∧ q.frame.isValid = true := by
  induction h with
  | refl => exact ⟨.refl _ _, rfl, hvalid⟩
  | @tail q u _ hdraws ih =>
    obtain ⟨hconfined, hclips, hq⟩ := ih
    have hnext := hdraws.confined hq
    rw [clip, hclips] at hnext
    exact ⟨hconfined.trans hnext, hdraws.2.trans hclips, keepsPlacing_isValid.step hdraws.1 hq⟩

/-- Whatever is drawn under a clip, a cell outside it stays, or it was half of a wide glyph that
straddled the left or the right edge and is a space now. The addresses stay. -/
theorem draws_confined (hvalid : p.frame.isValid = true) (h : Relation.ReflTransGen Draws p q) :
    q.clip = p.clip ∧ q.frame.width = p.frame.width ∧ q.frame.height = p.frame.height ∧
      q.frame.links = p.frame.links ∧
      ∀ x y : Nat, p.clip.contains x y = false →
        q.frame.cell? x y = p.frame.cell? x y ∨
          p.frame.Straddles p.clip x y ∧ ((x : Int) + 1 = p.clip.x ∨ (x : Int) = p.clip.right) ∧
            p.clip.y ≤ y ∧ y < p.clip.bottom ∧ ∃ s, q.frame.cell? x y = some (.blank s) := by
  obtain ⟨hconfined, hclips, -⟩ := confined_of_draws hvalid h
  refine ⟨congrArg ClipStack.top hclips, hconfined.width, hconfined.height, hconfined.links, ?_⟩
  intro x y hout
  rcases hconfined.cells x y hout with hsame | ⟨hstraddles, hblank⟩
  · exact Or.inl hsame
  · obtain ⟨hcolumn, htop, hbottom⟩ := hstraddles.beside hout
    exact Or.inr ⟨hstraddles, hcolumn, htop, hbottom, hblank⟩

/-- Two wide glyphs side by side, under a clip from the middle of one to the middle of the other. -/
def twoStraddling : Painter :=
  let drawn := Painter.clusters ⟨.blank 4 1, ⟨⟨0, 0, 4, 1⟩, [], 2, by decide⟩⟩ 0 0 .plain
    [⟨"日", 2⟩, ⟨"本", 2⟩]
  ⟨drawn.1.frame, ⟨⟨0, 0, 4, 1⟩, [⟨1, 0, 2, 1⟩], 2, by decide⟩⟩

/-- Filling the clip takes away the halves inside, and then those outside are spaces. -/
theorem draws_confined_straddling :
    ∃ q, twoStraddling.frame.isValid = true ∧ Draws twoStraddling q ∧
      twoStraddling.frame.cells.map Cell.width = #[2, 0, 2, 0] ∧
      q.frame.cells = Array.replicate 4 .empty ∧ q.frame.links = twoStraddling.frame.links := by
  have hvalid : twoStraddling.frame.isValid = true := by decide +kernel
  have hdraws : Draws twoStraddling (twoStraddling.fill ⟨0, 0, 4, 1⟩ .plain) :=
    ⟨.fill _ _ _, ((paints_fill _ _ _).confined hvalid).2⟩
  refine ⟨_, hvalid, hdraws, ?_, ?_, (draws_confined hvalid (.single hdraws)).2.2.2.1⟩
  · decide +kernel
  · decide +kernel

end Painter

end CellCanvas
