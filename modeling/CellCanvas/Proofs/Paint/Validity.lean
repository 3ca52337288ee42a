import CellCanvas.Frame.Links
import CellCanvas.Proofs.Frame.Resizing
import CellCanvas.Proofs.Frame.Writing
import CellCanvas.Proofs.Paint.Places

/-!
# Painted frames are valid

A frame that starts blank and is only changed through the operations of frames and painters stays
valid: every wide glyph has both of its halves, and no half stands alone. Only a cell that is stored
directly can break the rule.
-/

namespace CellCanvas

namespace Painter

/-- Placing a cell repairs what it breaks, also outside the clip. -/
theorem isValid_place {p : Painter} (h : p.frame.isValid = true) (x y : Int) {c : Cell}
    (hc : c.width = 1 ∨ c.width = 2) : (p.place x y c).frame.isValid = true := by
  unfold place
  cases p.touch? x y with
  | none => exact h
  | some position =>
    by_cases hwide : c.width = 2
    · have hiswide : c.isWide = true := by simp [Cell.isWide, hwide]
      simp only [hiswide, if_true]
      split_ifs
      · exact Frame.isValid_writeWide h _ _ hwide
      · exact h
    · have hiswide : c.isWide = false := by simp [Cell.isWide, hwide]
      simp only [hiswide, Bool.false_eq_true, if_false]
      exact Frame.isValid_writeNarrow h _ _ (by omega)

/-- A property of frames that a painter keeps when it places a cell. -/
def KeepsPlacing (P : Frame → Prop) : Prop :=
  ∀ (p : Painter) (x y : Int) (c : Cell), c.width = 1 ∨ c.width = 2 →
    P p.frame → P (p.place x y c).frame

theorem KeepsPlacing.paints {P : Frame → Prop} (hP : KeepsPlacing P) {p q : Painter}
    (h : Paints p q) (hp : P p.frame) : P q.frame := by
  induction h with
  | refl => exact hp
  | tail _ hplaced ih =>
    obtain ⟨x, y, c, hc, rfl⟩ := hplaced
    exact hP _ x y c hc ih

/-- One operation of a painter that succeeds. The ones that can fail leave the painter as it was
when they do. -/
inductive Step : Painter → Painter → Prop
  | pushClip {p q : Painter} {r : Rect} : p.pushClip r = .ok q → Step p q
  | popClip {p q : Painter} : p.popClip = .ok q → Step p q
  | fill (p : Painter) (r : Rect) (s : Style) : Step p (p.fill r s)
  | put {p q : Painter} {x y : Int} {bytes : ByteArray} {n : Nat} {s : Style} :
      p.put x y bytes n s = .ok q → Step p q
  /-- Text in any segmentation, with clusters of any width. -/
  | clusters (p : Painter) (x y : Int) (s : Style) (cs : List Cluster) :
      Step p (p.clusters x y s cs).1
  | horizontalLine (p : Painter) (x y length : Int) (s : Style) :
      Step p (p.horizontalLine x y length s)
  | verticalLine (p : Painter) (x y length : Int) (s : Style) :
      Step p (p.verticalLine x y length s)
  | box (p : Painter) (r : Rect) (s : Style) : Step p (p.box r s)
  | copyRect (p : Painter) (target source : Rect) : Step p (p.copyRect target source)
  | blit {p q : Painter} {dst : Rect} {raster : Raster} {request : Blit.Request}
      {support : Blit.Support} {mode : Blit.Mode} :
      p.blit dst raster request support = .ok (q, mode) → Step p q

theorem frame_pushClip {p q : Painter} {r : Rect} (h : p.pushClip r = .ok q) :
    q.frame = p.frame := by
  unfold pushClip at h
  cases hpush : p.clips.push r with
  | error e =>
    rw [hpush] at h
    cases h
  | ok clips =>
    rw [hpush] at h
    cases h
    rfl

theorem frame_popClip {p q : Painter} (h : p.popClip = .ok q) : q.frame = p.frame := by
  unfold popClip at h
  cases hpop : p.clips.pop with
  | error e =>
    rw [hpop] at h
    cases h
  | ok clips =>
    rw [hpop] at h
    cases h
    rfl

/-- An operation places cells, unless it is one of the two that move the clip. -/
theorem Step.cases {p q : Painter} (h : Step p q) :
    Paints p q ∨ (∃ r, p.pushClip r = .ok q) ∨ p.popClip = .ok q := by
  cases h with
  | pushClip h => exact Or.inr (Or.inl ⟨_, h⟩)
  | popClip h => exact Or.inr (Or.inr h)
  | fill r s => exact Or.inl (paints_fill p r s)
  | put h => exact Or.inl (paints_put h)
  | clusters x y s cs => exact Or.inl (paints_clusters p x y s cs)
  | horizontalLine x y length s => exact Or.inl (paints_horizontalLine p x y length s)
  | verticalLine x y length s => exact Or.inl (paints_verticalLine p x y length s)
  | box r s => exact Or.inl (paints_box p r s)
  | copyRect target source => exact Or.inl (paints_copyRect p target source)
  | blit h => exact Or.inl (paints_blit h)

theorem KeepsPlacing.step {P : Frame → Prop} (hP : KeepsPlacing P) {p q : Painter} (h : Step p q)
    (hp : P p.frame) : P q.frame := by
  rcases h.cases with hpaints | ⟨r, hpush⟩ | hpop
  · exact hP.paints hpaints hp
  · rwa [frame_pushClip hpush]
  · rwa [frame_popClip hpop]

/-- A painter pass is any sequence of operations. -/
theorem KeepsPlacing.steps {P : Frame → Prop} (hP : KeepsPlacing P) {p q : Painter}
    (h : Relation.ReflTransGen Step p q) (hp : P p.frame) : P q.frame := by
  induction h with
  | refl => exact hp
  | tail _ hstep ih => exact hP.step hstep ih

theorem keepsPlacing_isValid : KeepsPlacing (·.isValid = true) :=
  fun _ x y _ hc hp => isValid_place hp x y hc

theorem frame_start {f : Frame} {capacity : Nat} {p : Painter} (h : start f capacity = .ok p) :
    p.frame = f := by
  unfold start at h
  cases hclips : ClipStack.start f.bounds capacity with
  | error e =>
    rw [hclips] at h
    cases h
  | ok clips =>
    rw [hclips] at h
    cases h
    rfl

end Painter

namespace Frame

/-- The frames that can be made from blank ones without storing a cell directly. -/
inductive Drawn : Frame → Prop
  | blank (width height : UInt16) : Drawn (.blank width height)
  | clear {f : Frame} (s : Style) : Drawn f → Drawn (f.clear s)
  | resize {f : Frame} (width height : UInt16) : Drawn f → Drawn (f.resize width height)
  | copyFrom {f g : Frame} : Drawn f → Drawn g → Drawn (f.copyFrom g)
  | internLink {f g : Frame} {uri : String} {id : Nat} :
      Drawn f → f.internLink uri = .ok (g, id) → Drawn g
  | resetLinks {f : Frame} : Drawn f → Drawn f.resetLinks
  | paint {f : Frame} {capacity : Nat} {p q : Painter} :
      Drawn f → Painter.start f capacity = .ok p → Relation.ReflTransGen Painter.Step p q →
      Drawn q.frame

/-- A frame of spaces is valid. -/
theorem isValid_of_cells_eq {f : Frame} {n : Nat} {s : Style}
    (h : f.cells = Array.replicate n (.blank s)) : f.isValid = true := by
  rw [isValid_iff_rows]
  intro y x c hc
  unfold cellRow cell? at hc
  split_ifs at hc
  rw [h] at hc
  obtain rfl := (Array.mem_replicate.mp (Array.mem_of_getElem? hc)).2
  exact Or.inr (Or.inl rfl)

/-- Validity is about cells alone. -/
theorem isValid_congr {f g : Frame} (h : ∀ x y, g.cell? x y = f.cell? x y)
    (hf : f.isValid = true) : g.isValid = true := by
  rw [isValid_iff_rows] at hf ⊢
  intro y
  have hrow : g.cellRow y = f.cellRow y := funext fun x => h x y
  rw [hrow]
  exact hf y

theorem cell?_internLink {f g : Frame} {uri : String} {id : Nat}
    (h : f.internLink uri = .ok (g, id)) (x y : Nat) : g.cell? x y = f.cell? x y := by
  unfold internLink at h
  split at h
  · cases h
  · split at h
    · cases h
      rfl
    · split_ifs at h
      cases h
      rfl

theorem Drawn.isValid {f : Frame} (h : Drawn f) : f.isValid = true := by
  induction h with
  | blank width height => exact isValid_of_cells_eq rfl
  | clear s _ _ => exact isValid_of_cells_eq rfl
  | resize width height _ ih => exact isValid_resize ih width height
  | copyFrom _ _ _ ih => exact ih
  | internLink _ hlink ih => exact isValid_congr (cell?_internLink hlink) ih
  | resetLinks _ ih => exact isValid_congr (fun _ _ => rfl) ih
  | paint _ hstart hsteps ih =>
    apply Painter.keepsPlacing_isValid.steps hsteps
    rwa [Painter.frame_start hstart]

/-- Frames that are only drawn on hold one cell for every position and are valid: a lead is followed
by a continuation without text, a continuation follows a lead, and no cell is wider than two
columns. -/
theorem drawn_keeps_grid {f : Frame} (h : Drawn f) :
    f.cells.size = f.width * f.height ∧ f.isValid = true ∧
      ∀ x y c, f.cell? x y = some c →
        c.width ≤ 2 ∧
          (c.width = 2 → ∃ r, f.cell? (x + 1) y = some r ∧ r.width = 0 ∧ r.glyph = "") ∧
          (c.width = 0 → ∃ w l, x = w + 1 ∧ f.cell? w y = some l ∧ l.width = 2) := by
  refine ⟨f.size_cells, h.isValid, ?_⟩
  intro x y c hc
  have hpaired := isPaired_cellRow h.isValid y
  refine ⟨hpaired.width_le_two hc, ?_, ?_⟩
  · intro hwide
    obtain ⟨r, hr, hr₀⟩ := hpaired.tail hc hwide
    exact ⟨r, hr, hr₀, (hpaired.lead hr hr₀).1⟩
  · intro hcont
    exact (hpaired.lead hc hcont).2

/-- A wide glyph that loses its right half to a resize becomes the replacement sign. -/
theorem drawn_keeps_grid_cut_glyph :
    ∃ f, Drawn f ∧ f.cells = #[.replacement .plain] ∧ f.isValid = true := by
  have hstart : ∃ p, Painter.start (blank 2 1) 1 = .ok p := ⟨_, rfl⟩
  obtain ⟨p, hp⟩ := hstart
  have hpaint := (Drawn.blank 2 1).paint hp (.single (.clusters p 0 0 .plain [⟨"日", 2⟩]))
  have hdrawn := hpaint.resize 1 1
  refine ⟨_, hdrawn, ?_, (drawn_keeps_grid hdrawn).2.1⟩
  cases hp
  decide +kernel

end Frame

end CellCanvas
