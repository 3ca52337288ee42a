import CellCanvas.Proofs.Paint.Copying

/-!
# When a copy is that of a snapshot

The order of a copy keeps cells from being overwritten before they are read, but it does not keep
wide glyphs whole. A slide by one column to the left squeezes a glyph that is copied with both of
its halves: when its lead is placed, the half that is left over becomes a space, which is copied as
well. Beside each other, areas can break a glyph that straddles one of their edges. Apart from these
a copy is that of a snapshot.
-/

namespace CellCanvas.Painter

/-- The source lies one column to the right of the target. -/
def SlidesLeft (target source : Rect) : Prop := source.x = target.x + 1 ∧ source.y = target.y

/-- A write near an edge of the target can reach a column of the source that is still to be read. -/
def Abuts (target source : Rect) : Prop :=
  source.y ≤ target.y ∧ target.y < source.y + (written target source).h ∧
    (target.x = source.x + (written target source).w ∨
      source.y < target.y ∧ (source.x = target.x + (written target source).w ∨
        source.x = target.x + (written target source).w + 1))

/-- A slide to the left copies both halves of a wide glyph, to columns `x` and `x + 1`. -/
structure Squeezes (p : Painter) (target source : Rect) (x y : Nat) : Prop where
  lead : ∃ c, p.frame.cell? (x + 1) y = some c ∧ c.width = 2
  left : ((x : Int), (y : Int)) ∈ p.copyOrder target source
  right : ((x : Int) + 1, (y : Int)) ∈ p.copyOrder target source

variable {p q : Painter} {target source : Rect} {t u : Int × Int}

theorem side_pos_of_contains {r : Rect} {x y : Int} (h : r.contains x y = true) :
    0 < r.w ∧ 0 < r.h := by
  rw [Rect.contains_iff] at h
  omega

/-- The source of a later point is out of the reach of a write. -/
theorem clear_of_earlier (ht : t ∈ p.copyOrder target source)
    (hu : u ∈ p.copyOrder target source) (h : Earlier target source t u)
    (hmoves : ¬(source.x = target.x ∧ source.y = target.y)) (hslide : ¬SlidesLeft target source)
    (habut : ¬Abuts target source) :
    source.y + (u.2 - target.y) ≠ t.2 ∨ source.x + (u.1 - target.x) + 1 < t.1 ∨
      t.1 + 2 < source.x + (u.1 - target.x) := by
  have ht := (mem_copyOrder.mp ht).1
  have hu := (mem_copyOrder.mp hu).1
  obtain ⟨hw, hh⟩ := side_pos_of_contains ht
  have hoverlap := overlapping_iff hw hh
  rw [Rect.contains_iff] at ht hu
  have hx : (written target source).x = target.x := rfl
  have hy : (written target source).y = target.y := rfl
  rw [hx, hy] at ht hu
  unfold SlidesLeft at hslide
  unfold Abuts at habut
  cases hmeet : overlapping target source with
  | false =>
    simp only [Earlier, Precedes, upward, leftward, hmeet, Bool.false_and, Bool.false_eq_true,
      if_false] at h
    have hapart := hoverlap.not.mp (hmeet ▸ Bool.false_ne_true)
    omega
  | true =>
    simp only [Earlier, Precedes, upward, leftward, hmeet, Bool.true_and, Bool.and_eq_true,
      decide_eq_true_eq, beq_iff_eq] at h
    have hnear := hoverlap.mp hmeet
    split_ifs at h <;> omega

theorem pasteRect_eq_of_clear (hvalid : p.frame.isValid = true)
    (hclear : (p.copyOrder target source).Pairwise fun t u => ∀ q, Matches p q →
      source? target source q.frame t = source? target source p.frame t →
      source? target source (copyAt target source q t).frame u = source? target source q.frame u) :
    p.copyRect target source = p.pasteRect target source := by
  rw [copyRect_eq, pasteRect]
  exact foldl_copyAt_eq ⟨hvalid, rfl, rfl, rfl⟩ (fun _ _ => rfl)
    (fun t _ q hq _ => hq.pasteAt q.frame t) hclear

/-- A later point is read as before when it is out of reach of the cell that is placed. -/
theorem source?_copyAt (hq : q.frame.isValid = true)
    (hfar : ∀ c, source? target source q.frame t = some c →
      (source.y + (u.2 - target.y) ≠ t.2 ∨ source.x + (u.1 - target.x) + 1 < t.1 ∨
        t.1 + c.width < source.x + (u.1 - target.x)) ∨ q.touch? t.1 t.2 = none) :
    source? target source (copyAt target source q t).frame u = source? target source q.frame u := by
  unfold copyAt
  cases hread : source? target source q.frame t with
  | none => rw [pasteAt_of_none hread]
  | some c =>
    obtain ⟨-, -, -, -, -, hwidth⟩ := Frame.exists_of_glyphAt? hread
    rw [pasteAt_of_some hread]
    rcases hfar c hread with hfar | hout
    · exact glyphAt?_place_of_far hq hwidth hfar
    · unfold place
      rw [hout]

/-- Neither a slide to the left nor beside each other. -/
theorem copyRect_eq_of_apart (hvalid : p.frame.isValid = true)
    (hslide : ¬SlidesLeft target source) (habut : ¬Abuts target source) :
    p.copyRect target source = p.pasteRect target source := by
  apply pasteRect_eq_of_clear hvalid
  apply (p.pairwise_copyOrder target source).imp_of_mem
  intro t u ht hu hearlier q hq _
  by_cases hstays : source.x = target.x ∧ source.y = target.y
  · -- The area is copied onto itself.
    have hsource : source.x + (t.1 - target.x) = t.1 ∧ source.y + (t.2 - target.y) = t.2 := by omega
    unfold copyAt
    cases hread : source? target source q.frame t with
    | none => rw [pasteAt_of_none hread]
    | some c =>
      rw [pasteAt_of_some hread]
      rw [source?, hsource.1, hsource.2] at hread
      exact glyphAt?_place_self hq.valid hread _ _
  · apply source?_copyAt hq.valid
    intro c hread
    obtain ⟨-, -, -, -, -, hwidth⟩ := Frame.exists_of_glyphAt? hread
    have hclear := clear_of_earlier ht hu hearlier hstays hslide habut
    omega

theorem earlier_of_slidesLeft (hslide : SlidesLeft target source) :
    Earlier target source t u ↔ t.2 < u.2 ∨ t.2 = u.2 ∧ t.1 < u.1 := by
  obtain ⟨hx, hy⟩ := hslide
  have hup : upward target source = false := by simp [upward, hy]
  have hleft : leftward target source = false := by
    simp only [leftward, Bool.and_eq_false_iff, decide_eq_false_iff_not]
    omega
  simp only [Earlier, Precedes, hup, hleft, Bool.false_eq_true, if_false]

/-- A slide to the left that squeezes no wide glyph. -/
theorem copyRect_eq_of_slidesLeft (hvalid : p.frame.isValid = true)
    (hslide : SlidesLeft target source) (hnone : ∀ x y, ¬p.Squeezes target source x y) :
    p.copyRect target source = p.pasteRect target source := by
  apply pasteRect_eq_of_clear hvalid
  apply (p.pairwise_copyOrder target source).imp_of_mem
  intro t u ht hu hearlier q hq hsame
  have hearlier := (earlier_of_slidesLeft hslide).mp hearlier
  obtain ⟨hx, hy⟩ := hslide
  apply source?_copyAt hq.valid
  intro c hread
  by_contra hnear
  obtain ⟨hnear, htouch⟩ := not_or.mp hnear
  obtain ⟨⟨a, b⟩, htouch⟩ := Option.ne_none_iff_exists'.mp htouch
  obtain ⟨ha, hb, -⟩ := of_touch?_eq_some htouch
  rw [hsame] at hread
  obtain ⟨i, j, hi, hj, hcell, hwidth⟩ := Frame.exists_of_glyphAt? hread
  have hu' : u = ((a : Int) + 1, (b : Int)) :=
    Prod.ext (show u.1 = a + 1 by omega) (show u.2 = b by omega)
  have ht' : t = ((a : Int), (b : Int)) := Prod.ext ha hb
  obtain rfl : i = a + 1 := by omega
  obtain rfl : j = b := by omega
  exact hnone a j ⟨⟨c, hcell, by omega⟩, ht' ▸ ht, hu' ▸ hu⟩

/-- A cell that is placed in an area, with both columns if it is wide, stays there. -/
theorem confined_place_within {r : Rect} (hq : q.frame.isValid = true) {x y : Int} {c : Cell}
    (hin : r.contains x y = true) (hin' : c.width = 2 → r.contains (x + 1) y = true) :
    Frame.Confined r q.frame (q.place x y c).frame := by
  have hpoint {x' y' : Int} (h : r.contains x' y' = true) (i j : Nat)
      (htouch : q.touch? x' y' = some (i, j)) : r.contains i j = true := by
    obtain ⟨rfl, rfl, -⟩ := of_touch?_eq_some htouch
    exact h
  exact confined_place_of hq (hpoint hin) fun hwide => hpoint (hin' hwide)

/-- No wide glyph has one half in an area and the other one outside. -/
def HasCleanEdges (f : Frame) (r : Rect) : Prop :=
  ∀ x y : Nat, r.contains x y = false → ¬f.Straddles r x y

theorem HasCleanEdges.cell?_eq {f g : Frame} {r : Rect} (hedges : HasCleanEdges f r)
    (h : Frame.Confined r f g) {x y : Nat} (hout : r.contains x y = false) :
    g.cell? x y = f.cell? x y :=
  (h.cells x y hout).resolve_right fun hstraddles => hedges x y hout hstraddles.1

/-- A lead in an area with clean edges has its right half there. -/
theorem HasCleanEdges.contains_next {f : Frame} {r : Rect} (hedges : HasCleanEdges f r)
    (hf : f.isValid = true) {i j : Nat} {c : Cell} (hcell : f.cell? i j = some c)
    (hwide : c.width = 2) (hin : r.contains i j = true) : r.contains (i + 1 : Nat) j = true := by
  obtain ⟨tail, htail, hzero⟩ := (Frame.isPaired_cellRow hf j).tail hcell hwide
  by_contra hout
  rw [Bool.not_eq_true] at hout
  exact hedges (i + 1) j hout ⟨i, .inr ⟨rfl, CellRow.width?_eq_some.mpr ⟨tail, htail, hzero⟩⟩, hin⟩

/-- The source of a point that is copied lies in the area that is read. -/
theorem seenArea_contains (ht : (written target source).contains t.1 t.2 = true) :
    (seenArea target source).contains (source.x + (t.1 - target.x)) (source.y + (t.2 - target.y)) =
      true := by
  rw [Rect.contains_iff] at ht ⊢
  simp only [written, seenArea] at ht ⊢
  omega

/-- Areas that lie beside each other have no point in common. -/
theorem written_contains_eq_false (habut : Abuts target source) {x y : Int}
    (hin : (seenArea target source).contains x y = true) :
    (written target source).contains x y = false := by
  rw [← Bool.not_eq_true, Rect.contains_iff]
  rw [Rect.contains_iff] at hin
  unfold Abuts at habut
  simp only [written, seenArea] at *
  omega

/-- Changes in the area that is written, if no glyph straddles its edges, are not read. -/
theorem source?_of_confined {f g : Frame} (habut : Abuts target source)
    (hwritten : HasCleanEdges f (written target source))
    (h : Frame.Confined (written target source) f g)
    (ht : (written target source).contains t.1 t.2 = true) :
    source? target source g t = source? target source f t := by
  have hin := seenArea_contains ht
  unfold source?
  generalize source.x + (t.1 - target.x) = x at hin ⊢
  generalize source.y + (t.2 - target.y) = y at hin ⊢
  by_cases hneg : x < 0 ∨ y < 0
  · rw [Frame.glyphAt?_of_neg _ hneg, Frame.glyphAt?_of_neg _ hneg]
  · obtain ⟨i, rfl⟩ := Int.eq_ofNat_of_zero_le (show 0 ≤ x by omega)
    obtain ⟨j, rfl⟩ := Int.eq_ofNat_of_zero_le (show 0 ≤ y by omega)
    rw [Frame.glyphAt?_natCast, Frame.glyphAt?_natCast,
      hwritten.cell?_eq h (written_contains_eq_false habut hin)]

/-- What comes from an area with clean edges stays in the area that is written. -/
theorem confined_pasteAt {f : Frame} (hf : f.isValid = true)
    (hseen : HasCleanEdges f (seenArea target source)) (hq : q.frame.isValid = true)
    (ht : (written target source).contains t.1 t.2 = true) :
    Frame.Confined (written target source) q.frame (pasteAt target source f q t).frame ∧
      (pasteAt target source f q t).frame.isValid = true := by
  cases hread : source? target source f t with
  | none =>
    rw [pasteAt_of_none hread]
    exact ⟨.refl _ _, hq⟩
  | some c =>
    obtain ⟨i, j, hi, hj, hcell, hwidth⟩ := Frame.exists_of_glyphAt? hread
    rw [pasteAt_of_some hread]
    refine ⟨confined_place_within hq ht ?_, isValid_place hq _ _ hwidth⟩
    intro hwide
    have hin := seenArea_contains ht
    rw [hi, hj] at hin
    have hnext := hseen.contains_next hf hcell hwide hin
    rw [Rect.contains_iff] at hnext ht ⊢
    simp only [written, seenArea] at *
    omega

/-- Beside each other, with no glyph across an edge, nothing that is read is changed. -/
theorem copyRect_eq_of_abuts (hvalid : p.frame.isValid = true) (habut : Abuts target source)
    (hwritten : HasCleanEdges p.frame (written target source))
    (hseen : HasCleanEdges p.frame (seenArea target source)) :
    p.copyRect target source = p.pasteRect target source := by
  have hread (t : Int × Int) (ht : t ∈ p.copyOrder target source) (q : Painter)
      (hq : Frame.Confined (written target source) p.frame q.frame) :
      source? target source q.frame t = source? target source p.frame t :=
    source?_of_confined habut hwritten hq (mem_copyOrder.mp ht).1
  have hstep (t : Int × Int) (ht : t ∈ p.copyOrder target source) (q : Painter)
      (hq : Frame.Confined (written target source) p.frame q.frame ∧ q.frame.isValid = true) :
      Frame.Confined (written target source) p.frame (copyAt target source q t).frame ∧
        (copyAt target source q t).frame.isValid = true := by
    have hpaste := confined_pasteAt hvalid hseen hq.2 (mem_copyOrder.mp ht).1
    rw [copyAt_eq_pasteAt (hread t ht q hq.1)]
    exact ⟨hq.1.trans hpaste.1, hpaste.2⟩
  rw [copyRect_eq, pasteRect]
  refine foldl_copyAt_eq ⟨Frame.Confined.refl _ _, hvalid⟩ (fun _ _ => rfl)
    (fun t ht q hq _ => hstep t ht q hq) ?_
  apply List.pairwise_of_forall_mem_list
  intro t ht u hu q hq _
  exact (hread u hu _ (hstep t ht q hq).1).trans (hread u hu q hq.1).symm

theorem touch?_eq_some {x y : Nat} (hclip : q.clip.contains x y = true) (hx : x < q.frame.width)
    (hy : y < q.frame.height) : q.touch? x y = some (x, y) := by
  have hin : q.frame.bounds.contains x y = true := by
    rw [Rect.contains_iff]
    simp only [Frame.bounds]
    omega
  simp [touch?, hclip, hin]

theorem cellRow_place_wide (hq : q.frame.isValid = true) {x y : Nat} {c : Cell}
    (hwide : c.width = 2) (htouch : q.touch? x y = some (x, y))
    (htouch' : q.touch? (x + 1 : Nat) y = some (x + 1, y)) :
    (q.place x y c).frame.cellRow y = (q.frame.cellRow y).wide x c := by
  obtain ⟨-, -, -, hroom, hy⟩ := of_touch?_eq_some htouch'
  have hiswide : c.isWide = true := by simp [Cell.isWide, hwide]
  have hnext : q.touch? ((x : Int) + 1) y = some (x + 1, y) := htouch'
  have hrow := Frame.cellRow_writeWide hq hroom hy c y
  rw [if_pos rfl] at hrow
  simp only [place, htouch, hiswide, if_true, hnext, Option.isSome_some]
  exact hrow

theorem cellRow_place_narrow (hq : q.frame.isValid = true) {x y : Nat} {c : Cell}
    (hnarrow : c.width = 1) (htouch : q.touch? x y = some (x, y)) :
    (q.place x y c).frame.cellRow y = (q.frame.cellRow y).narrow x c := by
  obtain ⟨-, -, -, hx, hy⟩ := of_touch?_eq_some htouch
  have hiswide : c.isWide = false := by simp [Cell.isWide, hnarrow]
  have hrow := Frame.cellRow_writeNarrow hq hx hy c y
  rw [if_pos rfl] at hrow
  simp only [place, htouch, hiswide, Bool.false_eq_true, if_false]
  exact hrow

/-- A point out of reach of what is pasted keeps its cell. -/
theorem cell?_pasteAt (hq : q.frame.isValid = true) {seen : Frame} {i j : Nat}
    (hfar : ∀ c, source? target source seen t = some c →
      (j : Int) ≠ t.2 ∨ (i : Int) + 1 < t.1 ∨ t.1 + c.width < i) :
    (pasteAt target source seen q t).frame.cell? i j = q.frame.cell? i j := by
  cases hread : source? target source seen t with
  | none => rw [pasteAt_of_none hread]
  | some c =>
    obtain ⟨-, -, -, -, -, hwidth⟩ := Frame.exists_of_glyphAt? hread
    rw [pasteAt_of_some hread]
    exact cell?_place_of_far hq hwidth (hfar c hread)

/-- The two points that a glyph is squeezed to follow each other in the order of the copy. -/
theorem Squeezes.split (hslide : SlidesLeft target source) {x y : Nat}
    (h : p.Squeezes target source x y) :
    ∃ before after,
      p.copyOrder target source = before ++ ((x : Int), (y : Int)) :: ((x : Int) + 1, (y : Int)) ::
        after ∧
      (∀ t ∈ before, t.2 < y ∨ t.2 = y ∧ t.1 < x) ∧
      ∀ t ∈ after, y < t.2 ∨ t.2 = y ∧ (x : Int) + 1 < t.1 := by
  have hordered := p.pairwise_copyOrder target source
  have hright := h.right
  obtain ⟨before, rest, hsplit⟩ := List.append_of_mem h.left
  rw [hsplit] at hordered hright ⊢
  obtain ⟨-, hrest, hacross⟩ := List.pairwise_append.mp hordered
  obtain ⟨hfirst, hrest⟩ := List.pairwise_cons.mp hrest
  have hbefore (t : Int × Int) (ht : t ∈ before) : t.2 < y ∨ t.2 = y ∧ t.1 < x :=
    (earlier_of_slidesLeft hslide).mp (hacross t ht _ List.mem_cons_self)
  have hlater : ((x : Int) + 1, (y : Int)) ∈ rest := by
    rcases List.mem_append.mp hright with hin | hin
    · have := hbefore _ hin
      dsimp only at this
      omega
    · rcases List.mem_cons.mp hin with heq | hin
      · have := congrArg Prod.fst heq
        dsimp only at this
        omega
      · exact hin
  cases rest with
  | nil => cases hlater
  | cons u after =>
    obtain ⟨hsecond, -⟩ := List.pairwise_cons.mp hrest
    -- Nothing lies between two neighbours.
    have hu : u = ((x : Int) + 1, (y : Int)) := by
      rcases List.mem_cons.mp hlater with heq | hin
      · exact heq.symm
      · have hu := (earlier_of_slidesLeft hslide).mp (hfirst u List.mem_cons_self)
        have hu' := (earlier_of_slidesLeft hslide).mp (hsecond _ hin)
        dsimp only at hu hu'
        omega
    subst hu
    refine ⟨before, after, rfl, hbefore, ?_⟩
    intro t ht
    have := (earlier_of_slidesLeft hslide).mp (hsecond t ht)
    dsimp only at this
    omega

theorem source?_of_slidesLeft (hslide : SlidesLeft target source) (f : Frame) (t : Int × Int) :
    source? target source f t = f.glyphAt? (t.1 + 1) t.2 := by
  obtain ⟨hx, hy⟩ := hslide
  rw [source?]
  congr 1 <;> omega

theorem source?_of_cell? (hslide : SlidesLeft target source) {f : Frame} {x y : Nat} {c : Cell}
    (hcell : f.cell? (x + 1) y = some c) :
    source? target source f ((x : Int), (y : Int)) = if c.isGlyph then some c else none := by
  rw [source?_of_slidesLeft hslide]
  exact Frame.glyphAt?_of_cell? hcell

namespace Squeezes

variable {x y : Nat} (h : p.Squeezes target source x y)

include h

theorem touch (hq : Matches p q) :
    q.touch? x y = some (x, y) ∧ q.touch? (x + 1 : Nat) y = some (x + 1, y) := by
  obtain ⟨c, hc, -⟩ := h.lead
  obtain ⟨hx, hy⟩ := Frame.lt_of_cell? hc
  have hclip : q.clip = p.clip := congrArg ClipStack.top hq.clips
  have hleft := (mem_copyOrder.mp h.left).2
  have hright := (mem_copyOrder.mp h.right).2
  rw [← hq.width] at hx
  rw [← hq.height] at hy
  rw [← hclip] at hleft hright
  exact ⟨touch?_eq_some hleft (by omega) hy, touch?_eq_some hright hx hy⟩

/-- When a slide from the frame itself comes to the glyph, the glyph is still there. -/
theorem lead_kept (hvalid : p.frame.isValid = true) (hslide : SlidesLeft target source)
    {before : List (Int × Int)} (hbefore : ∀ t ∈ before, t.2 < y ∨ t.2 = y ∧ t.1 < x) :
    Matches p (before.foldl (copyAt target source) p) ∧
      (before.foldl (copyAt target source) p).frame.cell? (x + 1) y = p.frame.cell? (x + 1) y := by
  obtain ⟨d, hd, hdwide⟩ := h.lead
  refine List.foldlRecOn before (copyAt target source)
    (motive := fun q => Matches p q ∧ q.frame.cell? (x + 1) y = p.frame.cell? (x + 1) y)
    ⟨⟨hvalid, rfl, rfl, rfl⟩, rfl⟩ ?_
  rintro q ⟨hq, hkept⟩ t ht
  refine ⟨hq.pasteAt q.frame t, (cell?_pasteAt hq.valid ?_).trans hkept⟩
  intro c hread
  rw [source?_of_slidesLeft hslide] at hread
  obtain ⟨i, j, hi, hj, hcell, hwidth⟩ := Frame.exists_of_glyphAt? hread
  by_contra hnear
  -- Only a wide glyph one column further left could reach the lead, and it would end there.
  have hbefore := hbefore t ht
  obtain rfl : i = x := by omega
  obtain rfl : j = y := by omega
  obtain ⟨tail, htail, hzero⟩ := (Frame.isPaired_cellRow hq.valid j).tail hcell (by omega)
  change q.frame.cell? (i + 1) j = some tail at htail
  rw [hkept, hd] at htail
  cases htail
  omega

omit h in
/-- What comes later does not reach the glyph. -/
theorem cell?_after {g : Painter → Int × Int → Painter}
    (hg : ∀ q t, ∃ seen, g q t = pasteAt target source seen q t) {after : List (Int × Int)}
    (hafter : ∀ t ∈ after, y < t.2 ∨ t.2 = y ∧ (x : Int) + 1 < t.1) (hq : Matches p q) :
    (after.foldl g q).frame.cell? x y = q.frame.cell? x y := by
  refine (List.foldlRecOn after g
    (motive := fun q' => Matches p q' ∧ q'.frame.cell? x y = q.frame.cell? x y) ⟨hq, rfl⟩ ?_).2
  rintro q' ⟨hq', hkept⟩ t ht
  obtain ⟨seen, hseen⟩ := hg q' t
  have hlater := hafter t ht
  rw [hseen]
  exact ⟨hq'.pasteAt seen t, (cell?_pasteAt hq'.valid fun c _ => by omega).trans hkept⟩

/-- When the lead is placed, the right half it had becomes a space behind the new one. -/
theorem left_over (hq : Matches p q) {d : Cell} (hlead : q.frame.cell? (x + 1) y = some d)
    (hwide : d.width = 2) :
    (q.place x y d).frame.cell? (x + 1) y = some (.continuation d.style) ∧
      (q.place x y d).frame.cell? (x + 2) y = some (.blank d.style) := by
  have hrow := cellRow_place_wide hq.valid hwide (h.touch hq).1 (h.touch hq).2
  have hwidth : (q.frame.cellRow y).width? (x + 1) = some 2 :=
    CellRow.width?_eq_some.mpr ⟨d, hlead, hwide⟩
  constructor
  · change (q.place x y d).frame.cellRow y (x + 1) = _
    simp [hrow, CellRow.wide]
  · change (q.place x y d).frame.cellRow y (x + 2) = _
    simp [hrow, CellRow.wide, hwidth]

/-- A space over the right half makes one of the left half. -/
theorem cell?_place_space (hq : Matches p q) {s : Style}
    (hright : q.frame.cell? (x + 1) y = some (.continuation s)) :
    (q.place (x + 1 : Nat) y (.blank s)).frame.cell? x y = some (.blank s) := by
  have hrow := cellRow_place_narrow hq.valid (c := .blank s) rfl (h.touch hq).2
  have hwidth : (q.frame.cellRow y).width? (x + 1) = some 0 :=
    CellRow.width?_eq_some.mpr ⟨_, hright, rfl⟩
  change (q.place (x + 1 : Nat) y (.blank s)).frame.cellRow y x = _
  rw [hrow]
  simp [CellRow.narrow, hwidth, Cell.blank]

/-- A slide leaves a space where the left half of the glyph should be. -/
theorem cell?_copyRect (hvalid : p.frame.isValid = true) (hslide : SlidesLeft target source) :
    ∃ s, (p.copyRect target source).frame.cell? x y = some (.blank s) := by
  obtain ⟨before, after, hsplit, hbefore, hafter⟩ := h.split hslide
  obtain ⟨d, hd, hwide⟩ := h.lead
  obtain ⟨hq, hkept⟩ := h.lead_kept hvalid hslide hbefore
  rw [copyRect_eq, hsplit, List.foldl_append, List.foldl_cons, List.foldl_cons]
  generalize before.foldl (copyAt target source) p = q at hq hkept ⊢
  have hlead : q.frame.cell? (x + 1) y = some d := hkept.trans hd
  have hread := (source?_of_cell? hslide hlead).trans (if_pos (by simp [Cell.isGlyph, hwide]))
  have hfirst : copyAt target source q (x, y) = q.place x y d := pasteAt_of_some hread
  obtain ⟨hright, hbehind⟩ := h.left_over hq hlead hwide
  have hq₁ := hq.place x y (.inr hwide)
  rw [hfirst]
  generalize q.place x y d = q₁ at hq₁ hright hbehind ⊢
  -- The space is what the next point reads.
  have hread₁ := (source?_of_cell? hslide hbehind).trans (if_pos rfl)
  have hsecond : copyAt target source q₁ ((x : Int) + 1, (y : Int)) =
      q₁.place (x + 1 : Nat) y (.blank d.style) := pasteAt_of_some hread₁
  have hq₂ := hq₁.place (x + 1 : Nat) y (c := .blank d.style) (.inl rfl)
  rw [hsecond, cell?_after (g := copyAt target source) (fun q t => ⟨q.frame, rfl⟩) hafter hq₂]
  exact ⟨d.style, h.cell?_place_space hq₁ hright⟩

/-- A snapshot brings the glyph there. -/
theorem cell?_pasteRect (hvalid : p.frame.isValid = true) (hslide : SlidesLeft target source) :
    ∃ c, (p.pasteRect target source).frame.cell? x y = some c ∧ c.width = 2 := by
  obtain ⟨before, after, hsplit, -, hafter⟩ := h.split hslide
  obtain ⟨d, hd, hwide⟩ := h.lead
  have hq : Matches p (before.foldl (pasteAt target source p.frame) p) :=
    List.foldlRecOn before (pasteAt target source p.frame) ⟨hvalid, rfl, rfl, rfl⟩
      fun q hq t _ => hq.pasteAt p.frame t
  rw [pasteRect, hsplit, List.foldl_append, List.foldl_cons, List.foldl_cons]
  generalize before.foldl (pasteAt target source p.frame) p = q at hq ⊢
  have hread := (source?_of_cell? hslide hd).trans (if_pos (by simp [Cell.isGlyph, hwide]))
  have hskip : source? target source p.frame ((x : Int) + 1, (y : Int)) = none := by
    obtain ⟨tail, htail, hzero⟩ := (Frame.isPaired_cellRow hvalid y).tail hd hwide
    exact (source?_of_cell? hslide htail).trans (if_neg (by simp [Cell.isGlyph, hzero]))
  have hq₁ := hq.place x y (.inr hwide)
  have hrow₁ := cellRow_place_wide hq.valid hwide (h.touch hq).1 (h.touch hq).2
  rw [pasteAt_of_some hread, pasteAt_of_none hskip,
    cell?_after (fun q t => ⟨p.frame, rfl⟩) hafter hq₁]
  refine ⟨d, ?_, hwide⟩
  change (q.place x y d).frame.cellRow y x = _
  simp [hrow₁, CellRow.wide]

theorem copyRect_ne (hvalid : p.frame.isValid = true) (hslide : SlidesLeft target source) :
    p.copyRect target source ≠ p.pasteRect target source := by
  intro heq
  obtain ⟨s, hspace⟩ := h.cell?_copyRect hvalid hslide
  obtain ⟨c, hglyph, hwide⟩ := h.cell?_pasteRect hvalid hslide
  rw [heq, hglyph] at hspace
  cases hspace
  cases hwide

end Squeezes

/-- A copy is that of a snapshot, for any two areas under any clip. The exceptions are a slide to
the left by one column, just when it squeezes a wide glyph, and areas beside each other, where it
takes a wide glyph across an edge of one of them. -/
theorem copyRect_of_snapshot (hvalid : p.frame.isValid = true) (target source : Rect) :
    (¬SlidesLeft target source → ¬Abuts target source →
      p.copyRect target source = p.pasteRect target source) ∧
    (SlidesLeft target source →
      (p.copyRect target source = p.pasteRect target source ↔
        ∀ x y, ¬p.Squeezes target source x y)) ∧
    (Abuts target source → HasCleanEdges p.frame (written target source) →
      HasCleanEdges p.frame (seenArea target source) →
      p.copyRect target source = p.pasteRect target source) := by
  refine ⟨copyRect_eq_of_apart hvalid, ?_, copyRect_eq_of_abuts hvalid⟩
  intro hslide
  constructor
  · intro heq x y hsqueezes
    exact hsqueezes.copyRect_ne hvalid hslide heq
  · exact copyRect_eq_of_slidesLeft hvalid hslide

/-- A wide glyph between two narrow ones, and a free column behind them. -/
def wideBetween : Painter :=
  (Painter.clusters ⟨.blank 5 1, ⟨⟨0, 0, 5, 1⟩, [], 2, Nat.zero_lt_two⟩⟩ 0 0 .plain
    [⟨"a", 1⟩, ⟨"日", 2⟩, ⟨"b", 1⟩]).1

/-- Moved to the right by one column, the glyphs stay as they are. Moved to the left, they do
not. -/
theorem copyRect_of_snapshot_wide :
    wideBetween.frame.isValid = true ∧
      wideBetween.frame.cells.map Cell.width = #[1, 2, 0, 1, 1] ∧
      wideBetween.copyRect ⟨1, 0, 4, 1⟩ ⟨0, 0, 4, 1⟩ =
        wideBetween.pasteRect ⟨1, 0, 4, 1⟩ ⟨0, 0, 4, 1⟩ ∧
      (wideBetween.copyRect ⟨1, 0, 4, 1⟩ ⟨0, 0, 4, 1⟩).frame.cells.map Cell.width =
        #[1, 1, 2, 0, 1] ∧
      wideBetween.copyRect ⟨0, 0, 4, 1⟩ ⟨1, 0, 4, 1⟩ ≠
        wideBetween.pasteRect ⟨0, 0, 4, 1⟩ ⟨1, 0, 4, 1⟩ := by
  have hvalid : wideBetween.frame.isValid = true := by decide +kernel
  have hsqueezes : wideBetween.Squeezes ⟨0, 0, 4, 1⟩ ⟨1, 0, 4, 1⟩ 0 0 :=
    ⟨CellRow.width?_eq_some.mp (by decide +kernel), by decide +kernel, by decide +kernel⟩
  have hright := copyRect_of_snapshot hvalid ⟨1, 0, 4, 1⟩ ⟨0, 0, 4, 1⟩
  have hleft := copyRect_of_snapshot hvalid ⟨0, 0, 4, 1⟩ ⟨1, 0, 4, 1⟩
  refine ⟨hvalid, by decide +kernel, hright.1 ?_ ?_, by decide +kernel, ?_⟩
  · simp [SlidesLeft]
  · simp [Abuts, written]
  · intro heq
    exact (hleft.2.1 ⟨rfl, rfl⟩).mp heq 0 0 hsqueezes

/-- A slide to the left by one column takes a wide glyph apart. -/
theorem copyRect_squeezes :
    ¬ ∀ (p : Painter) (target source : Rect), p.frame.isValid = true →
      p.copyRect target source = p.pasteRect target source := by
  intro hclaim
  have heq := hclaim wideBetween ⟨0, 0, 4, 1⟩ ⟨1, 0, 4, 1⟩ (by decide +kernel)
  have hwidths : (wideBetween.copyRect ⟨0, 0, 4, 1⟩ ⟨1, 0, 4, 1⟩).frame.cells.map Cell.width =
      #[1, 1, 1, 1, 1] := by decide +kernel
  have hpasted : (wideBetween.pasteRect ⟨0, 0, 4, 1⟩ ⟨1, 0, 4, 1⟩).frame.cells.map Cell.width =
      #[2, 0, 1, 1, 1] := by decide +kernel
  rw [heq, hpasted] at hwidths
  cases hwidths

end CellCanvas.Painter
