import CellCanvas.Blit
import CellCanvas.Proofs.Paint.Snapshots

/-!
# What transparent samples show

A blit reads the background of a cell when it comes to it. Up to then the blit can have changed the
cell in one way only: it was the right half of a wide glyph, the blit drew over the left half, and
the right half became a space in the colours that were drawn there. Transparent samples of all other
cells show the background from before the blit.
-/

namespace CellCanvas.Blit

open CellCanvas.Painter

/-- The offsets of the destination cells that the clip admits, in the order in which they are
drawn. -/
def order (p : Painter) (dst : Rect) : List (Nat × Nat) :=
  let rows := overlap dst.y dst.h p.clip.y p.clip.bottom
  let columns := overlap dst.x dst.w p.clip.x p.clip.right
  (List.range rows.2).flatMap fun i => (List.range columns.2).map fun j =>
    ((columns.1 - dst.x).toNat + j, (rows.1 - dst.y).toNat + i)

/-- The cell at an offset of the destination, if it lies in the grid. -/
def cellAt? (dst : Rect) (f : Frame) (t : Nat × Nat) : Option Cell :=
  if f.bounds.contains (dst.x + t.1) (dst.y + t.2) then
    f.cell? (dst.x + t.1).toNat (dst.y + t.2).toNat
  else none

/-- The background that a frame has at an offset of the destination. -/
def under (dst : Rect) (f : Frame) (t : Nat × Nat) : Color :=
  backgroundAt f (dst.x + t.1) (dst.y + t.2)

/-- The ink of the cell at an offset over a background. There is none if all samples are
transparent. -/
def ink? (raster : Raster) (mode : Mode) (dst : Rect) (t : Nat × Nat) (under : Color) :
    Option Ink :=
  let seen := samples raster mode dst.w.toNat dst.h.toNat t.1 t.2 under
  if seen.any Sample.isOpaque then some (mode.shade seen under) else none

/-- The colours of an ink as a style. -/
def Ink.style (ink : Ink) : Style := .colors ink.foreground ink.background

/-- The cell that shows an ink. -/
def Ink.cell (ink : Ink) : Cell := .ofCluster ink.glyph.toString 1 ink.style

/-- Place an ink, if there is one, at an offset of the destination. -/
def placeInk (dst : Rect) (p : Painter) (t : Nat × Nat) : Option Ink → Painter
  | some ink => p.place (dst.x + t.1) (dst.y + t.2) ink.cell
  | none => p

/-- Draw the cell at an offset over the background that it has by then. -/
def drawAt (raster : Raster) (mode : Mode) (dst : Rect) (p : Painter) (t : Nat × Nat) : Painter :=
  drawCell raster mode dst p t.1 t.2

/-- Draw a raster over backgrounds that are given. -/
def drawOver (p : Painter) (dst : Rect) (raster : Raster) (mode : Mode)
    (shown : Nat × Nat → Color) : Painter :=
  (order p dst).foldl (fun q t => placeInk dst q t (ink? raster mode dst t (shown t))) p

/-- The ink that reaches the cell at an offset before the cell is drawn itself: that of the cell to
its left, if the two are the halves of a wide glyph and both are drawn. -/
def spill? (p : Painter) (dst : Rect) (raster : Raster) (mode : Mode) : Nat × Nat → Option Ink
  | (0, _) => none
  | (i + 1, j) =>
    if p.clip.contains (dst.x + i) (dst.y + j) &&
        (cellAt? dst p.frame (i + 1, j)).any Cell.isContinuation then
      ink? raster mode dst (i, j) (under dst p.frame (i, j))
    else none

/-- The background that a blit finds at an offset. -/
def shown (p : Painter) (dst : Rect) (raster : Raster) (mode : Mode) (t : Nat × Nat) : Color :=
  match spill? p dst raster mode t with
  | some ink => ink.background
  | none => under dst p.frame t

/-- The cell that a blit finds at an offset. -/
def found? (p : Painter) (dst : Rect) (raster : Raster) (mode : Mode) (t : Nat × Nat) :
    Option Cell :=
  match spill? p dst raster mode t with
  | some ink => some (.blank ink.style)
  | none => cellAt? dst p.frame t

/-- The next column becomes a space if it is the other half of what is overwritten. -/
theorem narrow_next {row : CellRow} (h : row.IsPaired) (x : Nat) (c : Cell) :
    row.narrow x c (x + 1) =
      if (row (x + 1)).any Cell.isContinuation then some (.blank c.style) else row (x + 1) := by
  have hpair := ((CellRow.isPaired_iff_width? row).mp h).2.2 x
  have hcont : (row (x + 1)).any Cell.isContinuation = true ↔ row.width? x = some 2 := by
    rw [← hpair, CellRow.width?, Option.any_eq_true, Option.map_eq_some_iff]
    simp [Cell.isContinuation]
  have hleft : ¬(x + 1 + 1 = x ∧ row.width? x = some 0) := by omega
  simp only [CellRow.narrow, hcont, hleft, true_and, if_false, Nat.succ_ne_self]

variable {p q : Painter} {dst : Rect} {raster : Raster} {mode : Mode} {t u : Nat × Nat}

/-- Rows come from top to bottom, and the cells of a row from left to right. -/
def Before (t u : Nat × Nat) : Prop := t.2 < u.2 ∨ t.2 = u.2 ∧ t.1 < u.1

theorem pairwise_order (p : Painter) (dst : Rect) : (order p dst).Pairwise Before := by
  refine List.pairwise_flatMap.mpr ⟨?_, List.pairwise_lt_range.imp ?_⟩
  · intro i _
    refine List.pairwise_map.mpr (List.pairwise_lt_range.imp ?_)
    intro j j' hlt
    exact .inr ⟨rfl, Nat.add_lt_add_left hlt _⟩
  · intro i i' hlt t ht u hu
    obtain ⟨j, -, rfl⟩ := List.mem_map.mp ht
    obtain ⟨k, -, rfl⟩ := List.mem_map.mp hu
    exact .inl (Nat.add_lt_add_left hlt _)

theorem mem_order : t ∈ order p dst ↔
    dst.contains (dst.x + t.1) (dst.y + t.2) = true ∧
      p.clip.contains (dst.x + t.1) (dst.y + t.2) = true := by
  obtain ⟨a, b⟩ := t
  simp only [order, overlap, List.mem_flatMap, List.mem_map, List.mem_range, Prod.mk.injEq,
    Rect.contains_iff, Rect.bottom, Rect.right]
  constructor
  · rintro ⟨i, hi, j, hj, rfl, rfl⟩
    omega
  · intro hin
    refine ⟨b - (max dst.y p.clip.y - dst.y).toNat, ?_, a - (max dst.x p.clip.x - dst.x).toNat, ?_⟩
    all_goals omega

theorem width_cell (ink : Ink) : ink.cell.width = 1 := by
  unfold Ink.cell Cell.ofCluster
  split_ifs <;> rfl

theorem style_cell (ink : Ink) : ink.cell.style = ink.style := by
  unfold Ink.cell Cell.ofCluster
  split_ifs <;> rfl

theorem drawAt_eq (raster : Raster) (mode : Mode) (dst : Rect) (p : Painter) (t : Nat × Nat) :
    drawAt raster mode dst p t =
      placeInk dst p t (ink? raster mode dst t (under dst p.frame t)) := by
  unfold drawAt drawCell ink? under
  dsimp only
  split_ifs <;> rfl

/-- A blit goes through the cells in order. -/
theorem draw_eq (p : Painter) (dst : Rect) (raster : Raster) (mode : Mode) :
    draw p dst raster mode = (order p dst).foldl (drawAt raster mode dst) p := by
  simp only [draw, order, fold_eq_foldl, List.foldl_flatMap, List.foldl_map]
  rfl

theorem under_eq (dst : Rect) (f : Frame) (t : Nat × Nat) :
    under dst f t = ((cellAt? dst f t).map fun c => c.style.background).getD .black := by
  unfold under backgroundAt cellAt?
  split_ifs <;> rfl

/-- The background is that of the cell that is found. -/
theorem under_eq_shown {f : Frame} (h : cellAt? dst f t = found? p dst raster mode t) :
    under dst f t = shown p dst raster mode t := by
  rw [under_eq, h, found?, shown]
  cases spill? p dst raster mode t with
  | some ink => rfl
  | none => exact (under_eq dst p.frame t).symm

/-- An offset in the grid stands for a position. -/
theorem exists_of_cellAt? {f : Frame} {c : Cell} (h : cellAt? dst f t = some c) :
    ∃ x y : Nat, dst.x + t.1 = x ∧ dst.y + t.2 = y ∧ f.cell? x y = some c := by
  unfold cellAt? at h
  split_ifs at h with hin
  rw [Rect.contains_iff] at hin
  exact ⟨_, _, (Int.toNat_of_nonneg hin.1).symm, (Int.toNat_of_nonneg hin.2.1).symm, h⟩

theorem cellAt?_of_natCast {f : Frame} {x y : Nat} (hx : dst.x + t.1 = x) (hy : dst.y + t.2 = y) :
    cellAt? dst f t = f.cell? x y := by
  rw [cellAt?, hx, hy, Int.toNat_natCast, Int.toNat_natCast]
  split_ifs with hin
  · rfl
  · rw [Frame.cell?_eq_none]
    rw [Rect.contains_iff] at hin
    simp only [Frame.bounds] at hin
    omega

/-- The cell to the left of a right half is a lead. -/
theorem lead_of_continuation {f : Frame} (hf : f.isValid = true)
    (h : (cellAt? dst f (t.1 + 1, t.2)).any Cell.isContinuation = true) :
    ∃ c, cellAt? dst f t = some c ∧ c.width = 2 := by
  obtain ⟨r, hr, hcont⟩ := (Option.any_eq_true _ _).mp h
  have hzero : r.width = 0 := by simpa [Cell.isContinuation] using hcont
  obtain ⟨x, y, hx, hy, hcell⟩ := exists_of_cellAt? hr
  obtain ⟨-, w, l, rfl, hlead, hwide⟩ := (Frame.isPaired_cellRow hf y).lead hcell hzero
  have hx' : dst.x + t.1 = w := by
    dsimp only at hx
    omega
  exact ⟨l, (cellAt?_of_natCast hx' hy).trans hlead, hwide⟩

/-- Nothing is placed outside the grid. -/
theorem place_of_cellAt?_eq_none (h : cellAt? dst q.frame t = none) (c : Cell) :
    q.place (dst.x + t.1) (dst.y + t.2) c = q := by
  unfold place
  cases htouch : q.touch? (dst.x + t.1) (dst.y + t.2) with
  | none => rfl
  | some position =>
    obtain ⟨hx, hy, -, hxlt, hylt⟩ := of_touch?_eq_some htouch
    obtain ⟨old, hold⟩ := Frame.exists_cell? hxlt hylt
    rw [cellAt?_of_natCast hx hy, hold] at h
    cases h

section Place

variable {c : Cell} (hq : q.frame.isValid = true) (hc : c.width = 1)

include hq hc

/-- What is placed reaches no later cell but the next one in its row. -/
theorem cellAt?_place_of_before (hbefore : Before t u) (hnext : u ≠ (t.1 + 1, t.2)) :
    cellAt? dst (q.place (dst.x + t.1) (dst.y + t.2) c).frame u = cellAt? dst q.frame u := by
  have hconfined := confined_place hq (dst.x + t.1) (dst.y + t.2) c
  have hbounds : (q.place (dst.x + t.1) (dst.y + t.2) c).frame.bounds = q.frame.bounds := by
    rw [Frame.bounds, hconfined.width, hconfined.height, Frame.bounds]
  rw [cellAt?, cellAt?, hbounds]
  split_ifs with hin
  · rw [Rect.contains_iff] at hin
    simp only [Frame.bounds] at hin
    apply cell?_place_of_far hq (.inl hc)
    have hapart : u.2 ≠ t.2 ∨ t.1 + 1 < u.1 := by
      by_contra hnear
      apply hnext
      unfold Before at hbefore
      ext <;> dsimp only <;> omega
    omega
  · rfl

/-- The next cell in the row becomes a space if it was the other half of what is overwritten. -/
theorem cellAt?_place_next (hclip : q.clip.contains (dst.x + t.1) (dst.y + t.2) = true) :
    cellAt? dst (q.place (dst.x + t.1) (dst.y + t.2) c).frame (t.1 + 1, t.2) =
      if (cellAt? dst q.frame (t.1 + 1, t.2)).any Cell.isContinuation then some (.blank c.style)
      else cellAt? dst q.frame (t.1 + 1, t.2) := by
  cases hcell : cellAt? dst q.frame t with
  | none =>
    have hsingle : ¬(cellAt? dst q.frame (t.1 + 1, t.2)).any Cell.isContinuation = true := by
      intro hcont
      obtain ⟨l, hlead, -⟩ := lead_of_continuation hq hcont
      rw [hcell] at hlead
      cases hlead
    rw [place_of_cellAt?_eq_none hcell, if_neg hsingle]
  | some old =>
    obtain ⟨x, y, hx, hy, hold⟩ := exists_of_cellAt? hcell
    obtain ⟨hxlt, hylt⟩ := Frame.lt_of_cell? hold
    have hx' : dst.x + (t.1 + 1 : Nat) = (x + 1 : Nat) := by omega
    have hnext (f : Frame) : cellAt? dst f (t.1 + 1, t.2) = f.cellRow y (x + 1) :=
      cellAt?_of_natCast hx' hy
    rw [hx, hy] at hclip ⊢
    have hrow := cellRow_place_narrow hq hc (touch?_eq_some hclip hxlt hylt)
    rw [hnext, hnext, hrow, narrow_next (Frame.isPaired_cellRow hq y)]

end Place

theorem matches_placeInk (h : Matches p q) (dst : Rect) (t : Nat × Nat) (ink : Option Ink) :
    Matches p (placeInk dst q t ink) := by
  cases ink with
  | none => exact h
  | some ink => exact h.place _ _ (.inl (width_cell ink))

theorem cellAt?_drawAt_of_before (hq : q.frame.isValid = true) (hbefore : Before t u)
    (hnext : u ≠ (t.1 + 1, t.2)) :
    cellAt? dst (drawAt raster mode dst q t).frame u = cellAt? dst q.frame u := by
  rw [drawAt_eq]
  cases ink? raster mode dst t (under dst q.frame t) with
  | none => rfl
  | some ink => exact cellAt?_place_of_before hq (width_cell ink) hbefore hnext

/-- Nothing spills over a lead. -/
theorem spill?_of_wide {c : Cell} (h : cellAt? dst p.frame t = some c) (hc : c.width = 2) :
    spill? p dst raster mode t = none := by
  obtain ⟨i, j⟩ := t
  cases i with
  | zero => rfl
  | succ i => simp [spill?, h, Cell.isContinuation, hc]

/-- Drawing a cell leaves the next one as it will be found. -/
theorem cellAt?_drawAt_next (hp : p.frame.isValid = true) (hq : Matches p q)
    (hclip : p.clip.contains (dst.x + t.1) (dst.y + t.2) = true)
    (hfound : cellAt? dst q.frame t = found? p dst raster mode t)
    (hkept : cellAt? dst q.frame (t.1 + 1, t.2) = cellAt? dst p.frame (t.1 + 1, t.2)) :
    cellAt? dst (drawAt raster mode dst q t).frame (t.1 + 1, t.2) =
      found? p dst raster mode (t.1 + 1, t.2) := by
  have hclip' : q.clip.contains (dst.x + t.1) (dst.y + t.2) = true := by
    rwa [clip, hq.clips]
  rw [drawAt_eq, found?, spill?, hclip, Bool.true_and]
  cases hcont : (cellAt? dst p.frame (t.1 + 1, t.2)).any Cell.isContinuation with
  | true =>
    obtain ⟨c, hlead, hwide⟩ := lead_of_continuation hp hcont
    have hunder : under dst q.frame t = under dst p.frame t := by
      rw [under_eq_shown hfound, shown, spill?_of_wide hlead hwide]
    rw [hunder, if_pos rfl]
    cases ink? raster mode dst t (under dst p.frame t) with
    | none => exact hkept
    | some ink =>
      have hnext := cellAt?_place_next hq.valid (width_cell ink) hclip'
      rw [hkept, hcont, if_pos rfl, style_cell] at hnext
      exact hnext
  | false =>
    cases ink? raster mode dst t (under dst q.frame t) with
    | none => exact hkept
    | some ink =>
      have hnext := cellAt?_place_next hq.valid (width_cell ink) hclip'
      rw [hkept, hcont] at hnext
      exact hnext

/-- What a blit has left of the cells that are still to be drawn. Only those that come next in
their rows differ from what they were. -/
structure Pending (p : Painter) (dst : Rect) (raster : Raster) (mode : Mode) (q : Painter)
    (rest : List (Nat × Nat)) : Prop where
  matched : Matches p q
  kept : ∀ t ∈ rest, (t.1 + 1, t.2) ∈ rest →
    cellAt? dst q.frame (t.1 + 1, t.2) = cellAt? dst p.frame (t.1 + 1, t.2)
  found : ∀ t ∈ rest, (∀ u ∈ rest, t ≠ (u.1 + 1, u.2)) →
    cellAt? dst q.frame t = found? p dst raster mode t

namespace Pending

variable {before rest : List (Nat × Nat)}

theorem start (hp : p.frame.isValid = true) (dst : Rect) (raster : Raster) (mode : Mode) :
    Pending p dst raster mode p (order p dst) := by
  refine ⟨⟨hp, rfl, rfl, rfl⟩, fun _ _ _ => rfl, ?_⟩
  rintro ⟨i, j⟩ ht hfirst
  suffices hspill : spill? p dst raster mode (i, j) = none by rw [found?, hspill]
  cases i with
  | zero => rfl
  | succ i =>
    have hout : p.clip.contains (dst.x + i) (dst.y + j) = false := by
      rw [← Bool.not_eq_true]
      intro hclip
      refine hfirst (i, j) (mem_order.mpr ⟨?_, hclip⟩) rfl
      have hin := (mem_order.mp ht).1
      rw [Rect.contains_iff] at hin ⊢
      dsimp only at hin ⊢
      omega
    rw [spill?, hout]
    rfl

/-- The cell that is drawn next is as it is found. -/
theorem head (h : Pending p dst raster mode q (t :: rest)) (hfirst : ∀ u ∈ rest, Before t u) :
    cellAt? dst q.frame t = found? p dst raster mode t := by
  apply h.found t List.mem_cons_self
  intro u hu heq
  rcases List.mem_cons.mp hu with rfl | hu
  · have := congrArg Prod.fst heq
    dsimp only at this
    omega
  · have hlater := hfirst u hu
    rw [heq] at hlater
    unfold Before at hlater
    dsimp only at hlater
    omega

theorem step (hp : p.frame.isValid = true) (h : Pending p dst raster mode q (t :: rest))
    (hfirst : ∀ u ∈ rest, Before t u)
    (hclip : p.clip.contains (dst.x + t.1) (dst.y + t.2) = true) :
    Pending p dst raster mode (drawAt raster mode dst q t) rest := by
  refine ⟨drawAt_eq raster mode dst q t ▸ matches_placeInk h.matched dst t _, ?_, ?_⟩
  · intro u hu hnext
    have hlater := hfirst u hu
    have hne : ((u.1 + 1, u.2) : Nat × Nat) ≠ (t.1 + 1, t.2) := by
      intro heq
      simp only [Prod.mk.injEq] at heq
      unfold Before at hlater
      omega
    rw [cellAt?_drawAt_of_before h.matched.valid (hfirst _ hnext) hne]
    exact h.kept u (List.mem_cons_of_mem t hu) (List.mem_cons_of_mem t hnext)
  · intro u hu hnone
    by_cases hnext : u = (t.1 + 1, t.2)
    · subst hnext
      exact cellAt?_drawAt_next hp h.matched hclip (h.head hfirst)
        (h.kept t List.mem_cons_self (List.mem_cons_of_mem t hu))
    · rw [cellAt?_drawAt_of_before h.matched.valid (hfirst u hu) hnext]
      exact h.found u (List.mem_cons_of_mem t hu) (List.forall_mem_cons.mpr ⟨hnext, hnone⟩)

/-- Any number of cells into the blit. -/
theorem foldl (hp : p.frame.isValid = true) (h : Pending p dst raster mode q (before ++ rest))
    (hsorted : (before ++ rest).Pairwise Before)
    (hclip : ∀ t ∈ before, p.clip.contains (dst.x + t.1) (dst.y + t.2) = true) :
    Pending p dst raster mode (before.foldl (drawAt raster mode dst) q) rest := by
  induction before generalizing q with
  | nil => exact h
  | cons t before ih =>
    obtain ⟨hfirst, hsorted⟩ := List.pairwise_cons.mp hsorted
    obtain ⟨ht, hclip⟩ := List.forall_mem_cons.mp hclip
    exact ih (h.step hp hfirst ht) hsorted hclip

end Pending

section Draw

variable (hp : p.frame.isValid = true)

include hp

/-- When a blit comes to a cell, the cell is as it is found. -/
theorem cellAt?_of_order {before after : List (Nat × Nat)}
    (hsplit : order p dst = before ++ t :: after) :
    cellAt? dst (before.foldl (drawAt raster mode dst) p).frame t =
      found? p dst raster mode t := by
  have hstart := Pending.start hp dst raster mode
  have hsorted := pairwise_order p dst
  have hclip (u : Nat × Nat) (hu : u ∈ order p dst) := (mem_order.mp hu).2
  rw [hsplit] at hstart hsorted hclip
  have hpending := hstart.foldl hp hsorted fun u hu => hclip u (List.mem_append_left _ hu)
  exact hpending.head (List.pairwise_cons.mp (List.pairwise_append.mp hsorted).2.1).1

theorem draw_eq_drawOver (dst : Rect) (raster : Raster) (mode : Mode) :
    draw p dst raster mode = drawOver p dst raster mode (shown p dst raster mode) := by
  rw [draw_eq, drawOver]
  suffices h : ∀ before after, order p dst = before ++ after →
      before.foldl (drawAt raster mode dst) p = before.foldl (fun q t =>
        placeInk dst q t (ink? raster mode dst t (shown p dst raster mode t))) p by
    exact h (order p dst) [] (List.append_nil _).symm
  intro before
  induction before using List.reverseRecOn with
  | nil => exact fun _ _ => rfl
  | append_singleton before t ih =>
    intro after hsplit
    rw [List.append_assoc, List.singleton_append] at hsplit
    have hunder : under dst (before.foldl (drawAt raster mode dst) p).frame t =
        shown p dst raster mode t := under_eq_shown (cellAt?_of_order hp hsplit)
    rw [List.foldl_concat, List.foldl_concat, drawAt_eq, hunder, ih _ hsplit]

/-- Where no wide glyph has both halves drawn over, a blit is the one over the backgrounds from
before it. -/
theorem draw_of_no_spill (hnone : ∀ t ∈ order p dst, spill? p dst raster mode t = none) :
    draw p dst raster mode = drawOver p dst raster mode (under dst p.frame) := by
  rw [draw_eq_drawOver hp, drawOver, drawOver]
  apply List.foldl_ext
  intro q t ht
  rw [shown, hnone t ht]

end Draw

/-- A blit draws every cell over the background that the cell had before, but for the right half of
a wide glyph whose left half it has drawn over: there the background is the one it drew. -/
theorem blit_underlay (hp : p.frame.isValid = true) (dst : Rect) (raster : Raster)
    (request : Request) (support : Support) :
    p.blit dst raster request support = (blitMode dst request support).map (fun mode =>
        (drawOver p dst raster mode (shown p dst raster mode), mode)) ∧
      ∀ mode before t after, order p dst = before ++ t :: after →
        under dst (before.foldl (drawAt raster mode dst) p).frame t =
          shown p dst raster mode t := by
  refine ⟨?_, fun mode before t after hsplit => under_eq_shown (cellAt?_of_order hp hsplit)⟩
  rw [blit]
  cases blitMode dst request support with
  | error e => rfl
  | ok mode =>
    simp only [draw_eq_drawOver hp]
    rfl

/-- A wide glyph over red, alone in its frame. -/
def wideOverRed : Painter :=
  (Painter.clusters ⟨.blank 2 1, ⟨⟨0, 0, 2, 1⟩, [], 1, Nat.zero_lt_one⟩⟩ 0 0
    (.colors .black (.ofChannels 255 0 0)) [⟨"日", 2⟩]).1

/-- Blue on the left; on the right green, and nothing under the green. -/
def notched : Raster :=
  ⟨⟨#[0, 0, 255, 255, 0, 255, 0, 255, 0, 0, 255, 255, 0, 0, 0, 0]⟩, 2, 2, 8, by decide, by decide,
    by decide, by decide⟩

/-- Drawn over the glyph, the green comes to stand on blue, which is drawn over the left half. -/
theorem blit_underlay_wide :
    wideOverRed.frame.isValid = true ∧
      wideOverRed.blit ⟨0, 0, 2, 1⟩ notched (.glyphs .halfblock) {} =
        .ok (drawOver wideOverRed ⟨0, 0, 2, 1⟩ notched .halfblock
          (shown wideOverRed ⟨0, 0, 2, 1⟩ notched .halfblock), .halfblock) ∧
      shown wideOverRed ⟨0, 0, 2, 1⟩ notched .halfblock (0, 0) = .ofChannels 255 0 0 ∧
      shown wideOverRed ⟨0, 0, 2, 1⟩ notched .halfblock (1, 0) = .ofChannels 0 0 255 := by
  have hvalid : wideOverRed.frame.isValid = true := by decide +kernel
  have hblit := blit_underlay hvalid ⟨0, 0, 2, 1⟩ notched (.glyphs .halfblock) {}
  exact ⟨hvalid, hblit.1, by decide +kernel, by decide +kernel⟩

/-- The samples of a cell do not always show what was there before the blit. -/
theorem blit_restyles_underlay :
    ¬ ∀ (p : Painter) (dst : Rect) (raster : Raster) (mode : Mode), p.frame.isValid = true →
      ∀ before t after, order p dst = before ++ t :: after →
        ink? raster mode dst t (under dst (before.foldl (drawAt raster mode dst) p).frame t) =
          ink? raster mode dst t (under dst p.frame t) := by
  intro hclaim
  have heq := hclaim wideOverRed ⟨0, 0, 2, 1⟩ notched .halfblock (by decide +kernel) [(0, 0)] (1, 0)
    [] (by decide +kernel)
  have hdrawn : ink? notched .halfblock ⟨0, 0, 2, 1⟩ (1, 0)
      (under ⟨0, 0, 2, 1⟩ ([(0, 0)].foldl (drawAt notched .halfblock ⟨0, 0, 2, 1⟩)
        wideOverRed).frame (1, 0)) =
      some ⟨'\u2580', .ofChannels 0 255 0, .ofChannels 0 0 255⟩ := by decide +kernel
  have hbefore : ink? notched .halfblock ⟨0, 0, 2, 1⟩ (1, 0)
      (under ⟨0, 0, 2, 1⟩ wideOverRed.frame (1, 0)) =
      some ⟨'\u2580', .ofChannels 0 255 0, .ofChannels 255 0 0⟩ := by decide +kernel
  rw [hdrawn, hbefore] at heq
  cases heq

end CellCanvas.Blit
