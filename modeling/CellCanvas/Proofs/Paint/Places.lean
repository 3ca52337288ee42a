import CellCanvas.Blit
import CellCanvas.Paint.Copy
import Mathlib.Tactic
import Mathlib.Logic.Relation

/-!
# Drawing is placing cells

Every drawing operation of a painter is a sequence of placed cells of one or two columns, whatever
its arguments are. What placing a cell keeps is therefore kept by all of them.
-/

namespace CellCanvas

namespace Cell

theorem width_ofCluster (text : String) {n : Nat} (h : n = 1 ∨ n = 2) (s : Style) :
    (ofCluster text n s).width = 1 ∨ (ofCluster text n s).width = 2 := by
  unfold ofCluster
  split_ifs
  · exact Or.inl rfl
  · exact h
  · exact Or.inl rfl

theorem width_ofBytes (bytes : ByteArray) {n : Nat} (h : n = 1 ∨ n = 2) (s : Style) :
    (ofBytes bytes n s).width = 1 ∨ (ofBytes bytes n s).width = 2 := by
  unfold ofBytes
  cases String.fromUTF8? bytes with
  | none => exact Or.inl rfl
  | some text => exact width_ofCluster text h s

end Cell

namespace Painter

/-- One cell of one or two columns was placed. -/
def Placed (p q : Painter) : Prop :=
  ∃ x y c, (c.width = 1 ∨ c.width = 2) ∧ q = p.place x y c

/-- Cells were placed one after the other. -/
abbrev Paints : Painter → Painter → Prop := Relation.ReflTransGen Placed

variable {p q : Painter} {c : Cell}

theorem paints_place (p : Painter) (x y : Int) (hc : c.width = 1 ∨ c.width = 2) :
    Paints p (p.place x y c) :=
  .single ⟨x, y, c, hc, rfl⟩

/-- A loop whose rounds place cells places cells. -/
theorem paints_fold {n : Nat} {g : (i : Nat) → i < n → Painter → Painter}
    (h : ∀ i hi p, Paints p (g i hi p)) (p : Painter) : Paints p (Nat.fold n g p) := by
  induction n with
  | zero => exact .refl
  | succ n ih =>
    rw [Nat.fold_succ]
    exact (ih fun i hi p => h i (by omega) p).trans (h n (by omega) _)

theorem paints_fill (p : Painter) (r : Rect) (s : Style) : Paints p (p.fill r s) := by
  unfold fill
  apply paints_fold
  intro i _ p
  apply paints_fold
  intro j _ p
  exact paints_place p _ _ (Or.inl rfl)

theorem paints_put {x y : Int} {bytes : ByteArray} {n : Nat} {s : Style}
    (h : p.put x y bytes n s = .ok q) : Paints p q := by
  unfold put at h
  split_ifs at h with hn
  cases h
  exact paints_place p x y (Cell.width_ofBytes bytes hn s)

/-- Clusters of any width may be drawn: no column draws nothing, and many count as two. -/
theorem paints_clusters (p : Painter) (x y : Int) (s : Style) (cs : List Cluster) :
    Paints p (p.clusters x y s cs).1 := by
  induction cs generalizing p x with
  | nil => exact .refl
  | cons c cs ih =>
    rw [clusters]
    split_ifs with hzero
    · exact ih p x
    · have hcolumns : min c.columns 2 = 1 ∨ min c.columns 2 = 2 := by omega
      exact (paints_place p x y (Cell.width_ofCluster c.text hcolumns s)).trans (ih _ _)

theorem paints_alongRow (p : Painter) (x y length : Int) (hc : c.width = 1 ∨ c.width = 2) :
    Paints p (p.alongRow x y length c) := by
  unfold alongRow
  apply paints_fold
  intro i _ p
  exact paints_place p _ y hc

theorem paints_alongColumn (p : Painter) (x y length : Int) (hc : c.width = 1 ∨ c.width = 2) :
    Paints p (p.alongColumn x y length c) := by
  unfold alongColumn
  apply paints_fold
  intro i _ p
  exact paints_place p x _ hc

theorem paints_horizontalLine (p : Painter) (x y length : Int) (s : Style) :
    Paints p (p.horizontalLine x y length s) :=
  p.paints_alongRow x y length (Cell.width_ofCluster "-" (Or.inl rfl) s)

theorem paints_verticalLine (p : Painter) (x y length : Int) (s : Style) :
    Paints p (p.verticalLine x y length s) :=
  p.paints_alongColumn x y length (Cell.width_ofCluster "|" (Or.inl rfl) s)

theorem paints_box (p : Painter) (r : Rect) (s : Style) : Paints p (p.box r s) := by
  unfold box
  split_ifs
  · exact .refl
  · have hcorner := Cell.width_ofCluster "+" (Or.inl rfl) s
    have hcorners := (((p.paints_place r.x r.y hcorner).trans
      (paints_place _ (r.right - 1) r.y hcorner)).trans
      (paints_place _ r.x (r.bottom - 1) hcorner)).trans
      (paints_place _ (r.right - 1) (r.bottom - 1) hcorner)
    have hrows := (hcorners.trans (paints_horizontalLine _ (r.x + 1) r.y (r.w - 2) s)).trans
      (paints_horizontalLine _ (r.x + 1) (r.bottom - 1) (r.w - 2) s)
    exact (hrows.trans (paints_verticalLine _ r.x (r.y + 1) (r.h - 2) s)).trans
      (paints_verticalLine _ (r.right - 1) (r.y + 1) (r.h - 2) s)

theorem paints_copyCell (p : Painter) (toX toY fromX fromY : Int) :
    Paints p (p.copyCell toX toY fromX fromY) := by
  unfold copyCell
  split_ifs
  · cases p.frame.cell? fromX.toNat fromY.toNat with
    | none => exact .refl
    | some c =>
      dsimp only
      split_ifs with hwidth
      · exact paints_place p toX toY (Cell.width_ofCluster c.glyph hwidth c.style)
      · exact .refl
  · exact .refl

theorem paints_copyRect (p : Painter) (target source : Rect) :
    Paints p (p.copyRect target source) := by
  unfold copyRect
  apply paints_fold
  intro i _ p
  apply paints_fold
  intro j _ p
  exact paints_copyCell p _ _ _ _

theorem paints_drawCell (raster : Raster) (mode : Blit.Mode) (dst : Rect) (p : Painter)
    (cx cy : Nat) : Paints p (Blit.drawCell raster mode dst p cx cy) := by
  unfold Blit.drawCell
  dsimp only
  split_ifs
  · exact paints_place p _ _ (Cell.width_ofCluster _ (Or.inl rfl) _)
  · exact .refl

theorem paints_blit {dst : Rect} {raster : Raster} {request : Blit.Request}
    {support : Blit.Support} {mode : Blit.Mode}
    (h : p.blit dst raster request support = .ok (q, mode)) : Paints p q := by
  unfold blit at h
  cases hmode : blitMode dst request support with
  | error e =>
    rw [hmode] at h
    cases h
  | ok mode =>
    rw [hmode] at h
    cases h
    unfold Blit.draw
    apply paints_fold
    intro i _ p
    apply paints_fold
    intro j _ p
    exact paints_drawCell raster mode dst p _ _

end Painter

end CellCanvas
