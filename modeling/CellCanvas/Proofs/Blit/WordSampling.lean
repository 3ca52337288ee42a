import CellCanvas.Proofs.Blit.Underlay
import CellCanvas.Proofs.Except
import CellCanvas.Proofs.Image.WordScale
import CellCanvas.Proofs.Paint.Clips

/-!
# Sampling in machine words

The sampling of a blit with positions and sub-pixel coordinates of 32 bits, and products and byte
indices of 64 bits. Coordinates wrap around; every other step is checked and has no result when a
word cannot hold its number or a byte lies outside the buffer. The checks never fail. A column
coordinate never wraps around either, but the row coordinate of a destination that begins far above
the screen can, and the source row is then that of a coordinate `2 ^ 32` smaller.
-/

namespace CellCanvas

namespace Blit

open Painter WordScale

/-- The source index of a sub-pixel in whole numbers. -/
def exactIndex (sub source cells per : Nat) : Nat := sub * source / (cells * per)

/-- A sum of 32 bits that is cut off at the largest number. The second operand is not negative. -/
def cappedSum (a b : Int32) : Int32 :=
  if a.toInt + b.toInt ≤ 2147483647 then a + b else 2147483647

/-- A product of 32 bits, unless it overflows. -/
def shortProduct? (a b : UInt32) : Option UInt32 :=
  if (a * b).toNat = a.toNat * b.toNat then some (a * b) else none

/-- The coordinate of a sub-pixel. It wraps around. -/
def coordinate (cell per i : UInt32) : UInt32 := cell * per + i

/-- The coordinate of a sub-pixel, unless it overflows. -/
def coordinate? (cell per i : UInt32) : Option UInt32 := do shortSum? (← shortProduct? cell per) i

/-- The source index of a sub-pixel, cut off at the last one. -/
def sampleAxis? (sub source cells per : UInt32) : Option UInt32 :=
  if source = 0 ∨ cells = 0 ∨ per = 0 then some 0
  else do
    let scaled ← product? sub.toUInt64 source.toUInt64
    let spread ← product? cells.toUInt64 per.toUInt64
    let v ← quotient? scaled spread
    if source.toUInt64 ≤ v then difference? source 1 else narrow? v

/-- Whether a cell of a destination lies in a clip. -/
def admits? (clip dst : WordRect) (t : Pair) : Option Bool :=
  clip.contains? (cappedSum dst.x t.1.toInt32) (cappedSum dst.y t.2.toInt32)

end Blit

/-- A raster with sides of 32 bits and a stride of 64. -/
structure WordRaster where
  bytes : ByteArray
  width : UInt32
  height : UInt32
  stride : UInt64

namespace WordRaster

open WordScale

/-- The raster, if all of its rows lie in the bytes. -/
def exact (w : WordRaster) : Except Failure Raster :=
  Raster.ofBytes w.bytes w.width.toNat w.height.toNat w.stride.toNat

/-- The four bytes of a pixel, if they lie in the buffer. -/
def pixel? (w : WordRaster) (x y : UInt32) : Option Pixel := do
  let row ← product? y.toUInt64 w.stride
  let column ← product? x.toUInt64 4
  let start ← sum? row column
  let stop ← sum? start 4
  if stop.toNat ≤ w.bytes.size then
    let byte (i : Nat) := Raster.byteAt w.bytes (start.toNat + i)
    some ⟨byte 0, byte 1, byte 2, byte 3⟩
  else none

/-- The source pixel of a sub-pixel of a destination. -/
def read? (w : WordRaster) (mode : Blit.Mode) (dst : WordRect) (t : Pair) (i j : UInt32) :
    Option Pixel := do
  let x ← Blit.sampleAxis? (Blit.coordinate t.1 (.ofNat mode.subpixels.1) i) w.width
    dst.w.toUInt32 (.ofNat mode.subpixels.1)
  let y ← Blit.sampleAxis? (Blit.coordinate t.2 (.ofNat mode.subpixels.2) j) w.height
    dst.h.toUInt32 (.ofNat mode.subpixels.2)
  w.pixel? x y

end WordRaster

namespace Blit

open Painter WordScale

/-- What a cell sees of a source pixel. -/
def seen (under : Color) (q : Pixel) : Sample :=
  if Color.isOpaque q.alpha then ⟨q.color, true⟩ else ⟨under, false⟩

/-- The source pixel of a sub-pixel, given its column in the cell and its row coordinate. -/
def sourcePixel (raster : Raster) (mode : Mode) (dst : Rect) (cx i row : Nat) : Pixel :=
  raster.pixel
    (exactIndex (cx * mode.subpixels.1 + i) raster.width dst.w.toNat mode.subpixels.1)
    (exactIndex row raster.height dst.h.toNat mode.subpixels.2)

/-- The samples of a cell, given the row coordinates of its sub-pixels. -/
def samplesAt (raster : Raster) (mode : Mode) (dst : Rect) (cx : Nat) (under : Color)
    (row : Nat → Nat) : List Sample :=
  (List.range mode.subpixels.2).flatMap fun j => (List.range mode.subpixels.1).map fun i =>
    seen under (sourcePixel raster mode dst cx i (row j))

section Words

variable {cell per i sub source cells : UInt32}

theorem toNat_coordinate (cell per i : UInt32) :
    (coordinate cell per i).toNat = (cell.toNat * per.toNat + i.toNat) % 2 ^ 32 := by
  rw [coordinate, UInt32.toNat_add, UInt32.toNat_mul, Nat.mod_add_mod]

/-- A coordinate has a checked result just when it does not wrap around. -/
theorem coordinate?_eq (cell per i : UInt32) :
    coordinate? cell per i =
      if cell.toNat * per.toNat + i.toNat < 2 ^ 32 then some (coordinate cell per i) else none := by
  have hproduct : (cell * per).toNat = cell.toNat * per.toNat % 2 ^ 32 := UInt32.toNat_mul _ _
  have hsum : (cell * per + i).toNat = ((cell * per).toNat + i.toNat) % 2 ^ 32 :=
    UInt32.toNat_add _ _
  unfold coordinate? shortProduct?
  split_ifs with hexact hlt hlt
  · exact (shortSum?_eq (by omega)).1
  · exact if_neg (by omega)
  · omega
  · rfl

theorem exactIndex_lt {sub source cells per : Nat} (hsub : sub < cells * per) (hs : 0 < source) :
    exactIndex sub source cells per < source :=
  (Fit.mapAxis_eq hsub hs).2

theorem sampleAxis_eq {sub source cells per : Nat} (hsub : sub < cells * per) (hs : 0 < source) :
    sampleAxis sub source cells per = exactIndex sub source cells per := by
  have hlt := exactIndex_lt hsub hs
  have hpos := Nat.zero_lt_of_lt hsub
  have hcells : cells ≠ 0 := (Nat.pos_of_mul_pos_right hpos).ne'
  have hper : per ≠ 0 := (Nat.pos_of_mul_pos_left hpos).ne'
  rw [sampleAxis, if_neg (by simp [hs.ne', hcells, hper])]
  unfold exactIndex at hlt ⊢
  omega

/-- Sub-pixels that lie in the destination are scaled exactly, and the source has the index. -/
theorem sampleAxis?_eq (hsub : sub.toNat < cells.toNat * per.toNat) (hs : 0 < source.toNat) :
    ∃ v, sampleAxis? sub source cells per = some v ∧
      v.toNat = exactIndex sub.toNat source.toNat cells.toNat per.toNat := by
  have hlt := exactIndex_lt hsub hs
  have hpos := Nat.zero_lt_of_lt hsub
  have hnonzero : ¬(source = 0 ∨ cells = 0 ∨ per = 0) := by
    rintro (rfl | rfl | rfl)
    · exact absurd hs (by decide)
    · simp at hpos
    · simp at hpos
  obtain ⟨scaled, hscaled, hscaled'⟩ := product?_sides sub source
  obtain ⟨spread, hspread, hspread'⟩ := product?_sides cells per
  obtain ⟨q, hq, hq'⟩ := quotient?_eq scaled (b := spread) (by omega)
  rw [hscaled', hspread'] at hq'
  change q.toNat = exactIndex sub.toNat source.toNat cells.toNat per.toNat at hq'
  obtain ⟨v, hv, hv'⟩ := narrow?_eq (a := q) (by rw [hq']; exact hlt.trans source.toNat_lt)
  have hin : ¬source.toUInt64 ≤ q := by
    rw [UInt64.le_iff_toNat_le, UInt32.toNat_toUInt64, hq']
    exact Nat.not_le_of_lt hlt
  refine ⟨v, ?_, hv'.trans hq'⟩
  simp only [sampleAxis?, if_neg hnonzero, Option.bind_eq_bind, hscaled, hspread, Option.bind_some,
    hq, if_neg hin, hv]

end Words

/-- A raster is accepted when the end of its last row is a byte count. -/
theorem of_ofBytes {bytes : ByteArray} {width height stride : Nat} {raster : Raster}
    (h : Raster.ofBytes bytes width height stride = .ok raster) :
    raster.bytes = bytes ∧ raster.width = width ∧ raster.height = height ∧
      raster.stride = stride ∧ stride * (height - 1) + width * 4 < Size.bound := by
  unfold Raster.ofBytes at h
  split_ifs at h with hwidth hheight hstride hfits
  · obtain ⟨row, hrow, h⟩ := exists_of_bind_eq_ok h
    obtain ⟨rows, hrows, h⟩ := exists_of_bind_eq_ok h
    obtain ⟨needed, hneeded, h⟩ := exists_of_bind_eq_ok h
    cases h
    obtain ⟨-, rfl⟩ := Size.checked_eq_ok_iff.mp hrow
    obtain ⟨-, rfl⟩ := Size.checked_eq_ok_iff.mp hrows
    exact ⟨rfl, rfl, rfl, rfl, (Size.checked_eq_ok_iff.mp hneeded).1⟩
  · obtain ⟨row, -, h⟩ := exists_of_bind_eq_ok h
    obtain ⟨rows, -, h⟩ := exists_of_bind_eq_ok h
    obtain ⟨needed, -, h⟩ := exists_of_bind_eq_ok h
    cases h
  · obtain ⟨row, -, h⟩ := exists_of_bind_eq_ok h
    cases h

/-- A pixel of a raster that was accepted lies in the buffer, at a 64-bit index. -/
theorem pixel?_eq {w : WordRaster} {raster : Raster} (h : w.exact = .ok raster) {x y : UInt32}
    (hx : x.toNat < raster.width) (hy : y.toNat < raster.height) :
    w.pixel? x y = some (raster.pixel x.toNat y.toNat) := by
  obtain ⟨hbytes, hwidth, hheight, hstride, hbound⟩ := of_ofBytes h
  have hfits := raster.fits
  have hbound' : Size.bound = 2 ^ 64 := rfl
  have hrow : y.toNat * raster.stride ≤ raster.stride * (raster.height - 1) := by
    rw [Nat.mul_comm]
    exact Nat.mul_le_mul_left _ (by omega)
  rw [← hwidth, ← hheight, ← hstride] at hbound
  obtain ⟨r, hr, hr'⟩ := product?_eq (a := y.toUInt64) (b := w.stride)
    (by rw [UInt32.toNat_toUInt64, ← hstride]; omega)
  obtain ⟨c, hc, hc'⟩ := product?_eq (a := x.toUInt64) (b := 4)
    (by change x.toUInt64.toNat * 4 < _; rw [UInt32.toNat_toUInt64]; omega)
  rw [UInt32.toNat_toUInt64] at hr' hc'
  change c.toNat = x.toNat * 4 at hc'
  rw [← hstride] at hr'
  obtain ⟨start, hstart, hstart'⟩ := sum?_eq (a := r) (b := c) (by omega)
  obtain ⟨stop, hstop, hstop'⟩ := sum?_eq (a := start) (b := 4)
    (by change start.toNat + 4 < _; omega)
  change stop.toNat = start.toNat + 4 at hstop'
  rw [hr', hc'] at hstart'
  have hin : stop.toNat ≤ w.bytes.size := by
    rw [← hbytes]
    omega
  simp only [WordRaster.pixel?, Option.bind_eq_bind, hr, hc, Option.bind_some, hstart, hstop,
    if_pos hin, Raster.pixel, hbytes, hstart', Nat.add_zero]

theorem subpixels_le (mode : Mode) :
    mode.subpixels.1 ≤ 2 ∧ mode.subpixels.2 ≤ 4 := by
  cases mode <;> decide

theorem of_subpixels {mode : Mode} (h : 2 < mode.subpixels.2) :
    mode = .braille ∨ mode = .sextant := by
  revert h
  cases mode <;> decide

/-- A sub-pixel of a cell lies in the destination. -/
theorem subpixel_lt {cell cells per i : Nat} (hcell : cell < cells) (hi : i < per) :
    cell * per + i < cells * per :=
  calc cell * per + i < (cell + 1) * per := by rw [Nat.succ_mul]; omega
    _ ≤ cells * per := Nat.mul_le_mul_right per hcell

/-- Columns have at most two sub-pixels, so their coordinates fit. -/
theorem column_lt (mode : Mode) {cell cells i : Nat} (hcell : cell < cells)
    (hcells : cells < 2 ^ 31) (hi : i < mode.subpixels.1) :
    cell * mode.subpixels.1 + i < 2 ^ 32 := by
  have hle : cells * mode.subpixels.1 ≤ cells * 2 :=
    Nat.mul_le_mul_left cells (subpixels_le mode).1
  have := subpixel_lt hcell hi
  omega

theorem samples_eq (raster : Raster) (mode : Mode) {dst : Rect} {cx cy : Nat}
    (hx : cx < dst.w.toNat) (hy : cy < dst.h.toNat) (hw : dst.w.toNat < 2 ^ 31) (under : Color) :
    samples raster mode dst.w.toNat dst.h.toNat cx cy under =
      samplesAt raster mode dst cx under
        fun j => (cy * mode.subpixels.2 + j) % 2 ^ 32 := by
  change (List.range mode.subpixels.2).flatMap (fun j => (List.range mode.subpixels.1).map fun i =>
    seen under (raster.pixel
      (sampleAxis (subpixel cx mode.subpixels.1 i) raster.width dst.w.toNat mode.subpixels.1)
      (sampleAxis (subpixel cy mode.subpixels.2 j) raster.height dst.h.toNat mode.subpixels.2))) = _
  apply List.flatMap_congr
  intro j hj
  apply List.map_congr_left
  intro i hi
  rw [List.mem_range] at hi hj
  have hcolumn := subpixel_lt hx hi
  have hrow := (Nat.mod_le _ (2 ^ 32)).trans_lt (subpixel_lt hy hj)
  have hexact : subpixel cx mode.subpixels.1 i = cx * mode.subpixels.1 + i :=
    Nat.mod_eq_of_lt (column_lt mode hx hw hi)
  have hwrapped : subpixel cy mode.subpixels.2 j = (cy * mode.subpixels.2 + j) % 2 ^ 32 := rfl
  rw [hexact, hwrapped, sampleAxis_eq hcolumn raster.width_pos,
    sampleAxis_eq hrow raster.height_pos]
  rfl

section Destination

variable {p : Painter} {f : Frame} {capacity : Nat} {rects : List WordRect} {dst : WordRect}
  {t : Pair}

theorem toNat_toUInt32 {a : Int32} (h : 0 ≤ a.toInt) : a.toUInt32.toNat = a.toInt.toNat := by
  rw [Int32.toNat_toUInt32_of_le (Int32.le_iff_toInt_le.mpr h)]
  rfl

theorem toInt_toInt32 {a : UInt32} (h : a.toNat < 2 ^ 31) : a.toInt32.toInt = a.toNat := by
  have h : 2 * a.toBitVec.toNat < 2 ^ 32 := by
    change 2 * a.toNat < _
    omega
  exact BitVec.toInt_eq_toNat_of_lt h

theorem toInt_cappedSum {a b : Int32} (hb : 0 ≤ b.toInt) :
    (cappedSum a b).toInt = min (a.toInt + b.toInt) 2147483647 := by
  have ha := a.le_toInt
  unfold cappedSum
  split_ifs with hle
  · rw [Int32.toInt_add, Int.bmod_eq_of_le (by omega) (by omega)]
    omega
  · change (2147483647 : Int) = _
    omega

theorem lt_of_contains (h : p.Nests f capacity rects) {x y : Int}
    (hin : p.clip.contains x y = true) : x < 65536 ∧ y < 65536 := by
  obtain ⟨-, -, hx, hy⟩ := h.inside hin
  have hwidth : f.width < 65536 := f.width_lt
  have hheight : f.height < 65536 := f.height_lt
  omega

/-- Positions that are cut off lie outside the clip, so they change nothing. -/
theorem admits?_eq (h : p.Nests f capacity rects) {clip : WordRect} (hclip : clip.exact = p.clip)
    (hx : (t.1.toNat : Int) < dst.w.toInt) (hy : (t.2.toNat : Int) < dst.h.toInt) :
    admits? clip dst t = some (decide (exact t ∈ order p dst.exact)) := by
  have hw := dst.w.toInt_lt
  have hh := dst.h.toInt_lt
  have hcolumn := toInt_toInt32 (a := t.1) (by omega)
  have hrow := toInt_toInt32 (a := t.2) (by omega)
  have hcapped := toInt_cappedSum (a := dst.x) (b := t.1.toInt32) (by omega)
  have hcapped' := toInt_cappedSum (a := dst.y) (b := t.2.toInt32) (by omega)
  have hdst :
      dst.exact.contains (dst.exact.x + (exact t).1) (dst.exact.y + (exact t).2) = true := by
    rw [Rect.contains_iff]
    simp only [WordRect.exact, exact]
    omega
  rw [admits?, clip.contains?_eq, hclip, hcapped, hcapped', hcolumn, hrow]
  refine congrArg some ?_
  rw [Bool.eq_iff_iff, decide_eq_true_iff, mem_order]
  simp only [hdst, true_and]
  change p.clip.contains _ _ = true ↔
    p.clip.contains (dst.x.toInt + t.1.toNat) (dst.y.toInt + t.2.toNat) = true
  constructor
  · intro hin
    obtain ⟨hlt, hlt'⟩ := lt_of_contains h hin
    rwa [min_eq_left (by omega), min_eq_left (by omega)] at hin
  · intro hin
    obtain ⟨hlt, hlt'⟩ := lt_of_contains h hin
    rwa [min_eq_left (by omega), min_eq_left (by omega)]

/-- The clip is near the origin, so a row coordinate is large only if the destination begins far
above it, and only with three or four rows of sub-pixels. -/
theorem of_row_ge (h : p.Nests f capacity rects) {mode : Mode} {u : Nat × Nat} {j : Nat}
    (hu : u ∈ order p dst.exact) (hj : j < mode.subpixels.2)
    (hlarge : 2 ^ 32 ≤ u.2 * mode.subpixels.2 + j) :
    (mode = .braille ∨ mode = .sextant) ∧ dst.y.toInt < 65536 - 2 ^ 30 := by
  have hh := dst.h.toInt_lt
  obtain ⟨hin, hclip⟩ := mem_order.mp hu
  have hy := (lt_of_contains h hclip).2
  rw [Rect.contains_iff] at hin
  simp only [WordRect.exact] at hin hy
  have hsub := subpixels_le mode
  constructor
  · apply of_subpixels
    by_contra hfew
    have hle : u.2 * mode.subpixels.2 ≤ u.2 * 2 := Nat.mul_le_mul_left u.2 (by omega)
    omega
  · have hle : u.2 * mode.subpixels.2 ≤ u.2 * 4 := Nat.mul_le_mul_left u.2 (by omega)
    omega

theorem toNat_ofNat {per : Nat} (h : per ≤ 4) : (UInt32.ofNat per).toNat = per :=
  UInt32.toNat_ofNat_of_lt' (by rw [UInt32.size]; omega)

/-- The source index of a sub-pixel that lies in the destination, from its wrapped coordinate. -/
theorem axis?_eq {cell i source : UInt32} {side : Int32} {per : Nat} (hper : per ≤ 4)
    (hcell : (cell.toNat : Int) < side.toInt) (hi : i.toNat < per) (hs : 0 < source.toNat) :
    ∃ v, sampleAxis? (coordinate cell (.ofNat per) i) source side.toUInt32 (.ofNat per) = some v ∧
      v.toNat = exactIndex ((cell.toNat * per + i.toNat) % 2 ^ 32) source.toNat side.toInt.toNat
        per ∧ v.toNat < source.toNat := by
  have hper' := toNat_ofNat hper
  have hside : side.toUInt32.toNat = side.toInt.toNat := toNat_toUInt32 (by omega)
  have hsub : (cell.toNat * per + i.toNat) % 2 ^ 32 < side.toInt.toNat * per :=
    (Nat.mod_le _ _).trans_lt (subpixel_lt (by omega) hi)
  obtain ⟨v, hv, hv'⟩ : ∃ v,
      sampleAxis? (coordinate cell (.ofNat per) i) source side.toUInt32 (.ofNat per) = some v ∧
        v.toNat = exactIndex (coordinate cell (.ofNat per) i).toNat source.toNat
          side.toUInt32.toNat (UInt32.ofNat per).toNat :=
    sampleAxis?_eq (by rwa [toNat_coordinate, hper', hside]) hs
  rw [toNat_coordinate, hper', hside] at hv'
  exact ⟨v, hv, hv', hv' ▸ exactIndex_lt hsub hs⟩

/-- The source pixel of a sub-pixel is read without a failed check. -/
theorem read?_eq {w : WordRaster} {raster : Raster} (hraster : w.exact = .ok raster) (mode : Mode)
    (hx : (t.1.toNat : Int) < dst.w.toInt) (hy : (t.2.toNat : Int) < dst.h.toInt) {i j : UInt32}
    (hi : i.toNat < mode.subpixels.1) (hj : j.toNat < mode.subpixels.2) :
    w.read? mode dst t i j = some (sourcePixel raster mode dst.exact t.1.toNat i.toNat
      ((t.2.toNat * mode.subpixels.2 + j.toNat) % 2 ^ 32)) := by
  obtain ⟨-, hwidth, hheight, -⟩ := of_ofBytes hraster
  have hw := dst.w.toInt_lt
  have hper := subpixels_le mode
  have hpos : 0 < w.width.toNat := hwidth ▸ raster.width_pos
  have hpos' : 0 < w.height.toNat := hheight ▸ raster.height_pos
  obtain ⟨x, hcolumn, hcolumn', hin⟩ := axis?_eq (by omega) hx hi hpos
  obtain ⟨y, hrow, hrow', hin'⟩ := axis?_eq hper.2 hy hj hpos'
  have hfits : t.1.toNat * mode.subpixels.1 + i.toNat < 2 ^ 32 :=
    column_lt mode (show t.1.toNat < dst.w.toInt.toNat by omega) (by omega) hi
  rw [Nat.mod_eq_of_lt hfits] at hcolumn'
  simp only [WordRaster.read?, Option.bind_eq_bind, hcolumn, hrow, Option.bind_some,
    pixel?_eq hraster (hwidth ▸ hin) (hheight ▸ hin'), hcolumn', hrow', ← hwidth, ← hheight]
  rfl

/-- Every cell of a destination that the clip admits is sampled exactly, for any destination, clip,
raster and family of glyphs, as long as the coordinates of its rows are below `2 ^ 32`. They are,
unless the destination begins far above the screen and is drawn with three or four rows of
sub-pixels. Then the source row is that of the wrapped coordinate. No other computation overflows,
and the pixel lies in the buffer. -/
theorem samples_of_words (h : p.Nests f capacity rects) {clip : WordRect}
    (hclip : clip.exact = p.clip) {w : WordRaster} {raster : Raster}
    (hraster : w.exact = .ok raster) (dst : WordRect) (mode : Mode) (t : Pair)
    (hx : (t.1.toNat : Int) < dst.w.toInt) (hy : (t.2.toNat : Int) < dst.h.toInt) :
    admits? clip dst t = some (decide (exact t ∈ order p dst.exact)) ∧
    (exact t ∈ order p dst.exact →
      (∀ under, samples raster mode dst.exact.w.toNat dst.exact.h.toNat t.1.toNat t.2.toNat under =
        samplesAt raster mode dst.exact t.1.toNat under
          fun j => (t.2.toNat * mode.subpixels.2 + j) % 2 ^ 32) ∧
      ∀ i j : UInt32, i.toNat < mode.subpixels.1 → j.toNat < mode.subpixels.2 →
        coordinate? t.1 (.ofNat mode.subpixels.1) i =
          some (coordinate t.1 (.ofNat mode.subpixels.1) i) ∧
        (coordinate? t.2 (.ofNat mode.subpixels.2) j = none ↔
          2 ^ 32 ≤ t.2.toNat * mode.subpixels.2 + j.toNat) ∧
        (2 ^ 32 ≤ t.2.toNat * mode.subpixels.2 + j.toNat →
          (mode = .braille ∨ mode = .sextant) ∧ dst.y.toInt < 65536 - 2 ^ 30) ∧
        w.read? mode dst t i j = some (sourcePixel raster mode dst.exact t.1.toNat i.toNat
          ((t.2.toNat * mode.subpixels.2 + j.toNat) % 2 ^ 32))) := by
  have hw := dst.w.toInt_lt
  have hper := subpixels_le mode
  have hcolumns : (UInt32.ofNat mode.subpixels.1).toNat = mode.subpixels.1 :=
    toNat_ofNat (by omega)
  have hrows : (UInt32.ofNat mode.subpixels.2).toNat = mode.subpixels.2 := toNat_ofNat hper.2
  have hx' : t.1.toNat < dst.exact.w.toNat := by
    change t.1.toNat < dst.w.toInt.toNat
    omega
  have hy' : t.2.toNat < dst.exact.h.toNat := by
    change t.2.toNat < dst.h.toInt.toNat
    omega
  have hw' : dst.exact.w.toNat < 2 ^ 31 := by
    change dst.w.toInt.toNat < _
    omega
  refine ⟨admits?_eq h hclip hx hy, ?_⟩
  intro ht
  refine ⟨samples_eq raster mode hx' hy' hw', ?_⟩
  intro i j hi hj
  refine ⟨?_, ?_, of_row_ge h ht hj, read?_eq hraster mode hx hy hi hj⟩
  · rw [coordinate?_eq, hcolumns, if_pos (column_lt mode hx' hw' hi)]
  · rw [coordinate?_eq, hrows, ite_eq_right_iff]
    simp only [reduceCtorEq, imp_false, not_lt]

end Destination

/-- A blue pixel above a red one. -/
def blueOverRed : WordRaster := ⟨⟨#[0, 0, 255, 255, 255, 0, 0, 255]⟩, 1, 2, 4⟩

theorem blueOverRed_row_le : 1 * 4 ≤ 4 := by decide

theorem blueOverRed_fits : 4 * (2 - 1) + 1 * 4 ≤ blueOverRed.bytes.size := by decide

/-- The same pixels as a raster. -/
def blueOverRedRaster : Raster :=
  ⟨blueOverRed.bytes, 1, 2, 4, Nat.one_pos, Nat.two_pos, blueOverRed_row_le, blueOverRed_fits⟩

/-- A single cell. -/
def oneCell : Painter := ⟨.blank 1 1, ⟨⟨0, 0, 1, 1⟩, [], 1, Nat.zero_lt_one⟩⟩

/-- A destination of one column that begins `2 ^ 30` rows above the screen and ends with the first
row of it. -/
def farAbove : WordRect := ⟨0, -1073741824, 1, 1073741825⟩

theorem oneCell_nests : oneCell.Nests (.blank 1 1) 1 [] := ⟨rfl, rfl, rfl, rfl⟩

/-- In the cell on the screen the row coordinate has wrapped around, and blue is read. -/
theorem samples_of_words_far :
    blueOverRed.exact = .ok blueOverRedRaster ∧
      admits? ⟨0, 0, 1, 1⟩ farAbove (0, 1073741824) = some true ∧
      coordinate? 1073741824 4 0 = none ∧
      blueOverRed.read? .braille farAbove (0, 1073741824) 0 0 = some ⟨0, 0, 255, 255⟩ := by
  have hraster : blueOverRed.exact = .ok blueOverRedRaster := by rfl
  have hin : exact (0, 1073741824) ∈ order oneCell farAbove.exact :=
    mem_order.mpr ⟨by decide, by decide⟩
  have hclip : (⟨0, 0, 1, 1⟩ : WordRect).exact = oneCell.clip := by rfl
  obtain ⟨hadmits, hsamples⟩ := samples_of_words oneCell_nests hclip hraster farAbove .braille
    (0, 1073741824) (by decide) (by decide)
  obtain ⟨-, hread⟩ := hsamples hin
  obtain ⟨-, hnone, -, hread⟩ := hread 0 0 (by decide) (by decide)
  rw [decide_eq_true hin] at hadmits
  exact ⟨hraster, hadmits, hnone.mpr (by decide), hread.trans (by decide)⟩

/-- The samples of a cell on the screen are not always those of its exact coordinates. -/
theorem samples_wrap :
    ¬ ∀ (p : Painter) (f : Frame) (capacity : Nat) (rects : List WordRect) (w : WordRaster)
      (raster : Raster) (dst : WordRect) (mode : Mode) (t : Nat × Nat) (under : Color),
      p.Nests f capacity rects → w.exact = .ok raster → t ∈ order p dst.exact →
      samples raster mode dst.exact.w.toNat dst.exact.h.toNat t.1 t.2 under =
        samplesAt raster mode dst.exact t.1 under fun j => t.2 * mode.subpixels.2 + j := by
  intro hclaim
  have heq := hclaim oneCell (.blank 1 1) 1 [] blueOverRed blueOverRedRaster farAbove .braille
    (0, 1073741824) .black oneCell_nests rfl (mem_order.mpr ⟨by decide, by decide⟩)
  exact absurd heq (by decide)

end Blit

end CellCanvas
