import CellCanvas.Proofs.Image.Scaling

/-!
# Scaling in machine words

The same scaling with sides of 32 bits, and products and byte indices of 64 bits, pixel by pixel
into a buffer. Every step is checked here and has no result when a word cannot hold its number, a
divisor is zero or a byte lies outside its buffer. This never happens, and the buffer is the one
that `Scale.into` gives.
-/

namespace CellCanvas.WordScale

open Fit Scale Raster

/-- A product of 64 bits, unless it overflows. -/
def product? (a b : UInt64) : Option UInt64 :=
  if (a * b).toNat = a.toNat * b.toNat then some (a * b) else none

/-- A sum of 64 bits, unless it overflows. -/
def sum? (a b : UInt64) : Option UInt64 :=
  if (a + b).toNat = a.toNat + b.toNat then some (a + b) else none

/-- A quotient, unless the divisor is zero. -/
def quotient? (a b : UInt64) : Option UInt64 := if b = 0 then none else some (a / b)

/-- A quotient rounded up. -/
def ceiling? (a b : UInt64) : Option UInt64 := do
  let floor ← quotient? a b
  if 0 < a % b then sum? floor 1 else return floor

/-- The same number in 32 bits, unless they are too few. -/
def narrow? (a : UInt64) : Option UInt32 :=
  if a.toUInt32.toNat = a.toNat then some a.toUInt32 else none

/-- A sum of 32 bits, unless it overflows. -/
def shortSum? (a b : UInt32) : Option UInt32 :=
  if (a + b).toNat = a.toNat + b.toNat then some (a + b) else none

/-- A difference of 32 bits, unless it is negative. -/
def difference? (a b : UInt32) : Option UInt32 := if b ≤ a then some (a - b) else none

/-- Width and height, or a position. -/
abbrev Pair := UInt32 × UInt32

/-- The two numbers. -/
def exact (p : Pair) : Extent := (p.1.toNat, p.2.toNat)

/-- The position in `source` pixels that corresponds to a position in `scaled` pixels. -/
def mapAxis? (position source scaled : UInt32) : Option UInt32 := do
  let product ← product? position.toUInt64 source.toUInt64
  let v ← narrow? (← quotient? product scaled.toUInt64)
  if source ≤ v then difference? source 1 else return v

/-- A quotient in 32 bits. -/
def floored? (a : UInt64) (b : UInt32) : Option UInt32 := do narrow? (← quotient? a b.toUInt64)

/-- A quotient rounded up, in 32 bits. -/
def raised? (a : UInt64) (b : UInt32) : Option UInt32 := do narrow? (← ceiling? a b.toUInt64)

/-- The largest size of the source's shape that lies inside the destination. -/
def containSize? (source target : Pair) : Option Pair := do
  let wide ← product? source.1.toUInt64 target.2.toUInt64
  let tall ← product? source.2.toUInt64 target.1.toUInt64
  if tall ≤ wide then return (max target.1 1, max (← floored? tall source.1) 1)
  else return (max (← floored? wide source.2) 1, max target.2 1)

/-- The smallest size of the source's shape that covers the destination. -/
def coverSize? (source target : Pair) : Option Pair := do
  let wide ← product? source.1.toUInt64 target.2.toUInt64
  let tall ← product? source.2.toUInt64 target.1.toUInt64
  if tall ≤ wide then return (max (← raised? wide source.2) 1, max target.2 1)
  else return (max target.1 1, max (← raised? tall source.1) 1)

/-- The index of the first byte of a pixel. -/
def offset? (width : UInt32) (t : Pair) : Option UInt64 := do
  let row ← product? t.2.toUInt64 width.toUInt64
  product? (← sum? row t.1.toUInt64) 4

/-- What a scaling works on. -/
structure Task where
  bytes : ByteArray
  source : Pair
  target : Pair

/-- How many bytes of the buffer may be written. -/
def Task.room (k : Task) : Nat := k.target.1.toNat * k.target.2.toNat * 4

/-- Copy to a destination position what the source has for a position in a scaled image. -/
def Task.copy? (k : Task) (scaled : Pair) (out : ByteArray) (place seen : Pair) :
    Option ByteArray := do
  let column ← mapAxis? seen.1 k.source.1 scaled.1
  let row ← mapAxis? seen.2 k.source.2 scaled.2
  let start ← offset? k.source.1 (column, row)
  let stop ← offset? k.target.1 place
  if (← sum? start 4).toNat ≤ k.bytes.size ∧ (← sum? stop 4).toNat ≤ k.room then
    some (k.bytes.copySlice start.toNat out stop.toNat 4)
  else none

/-- The positions of an image, row by row. -/
def positions (e : Pair) : List Pair :=
  (List.range e.2.toNat).flatMap fun y => (List.range e.1.toNat).map fun x => (.ofNat x, .ofNat y)

/-- The two sums. -/
def shift? (t offset : Pair) : Option Pair := do
  return (← shortSum? t.1 offset.1, ← shortSum? t.2 offset.2)

/-- The two sums, when words can hold them. -/
def shifted (t offset : Pair) : Pair := (t.1 + offset.1, t.2 + offset.2)

/-- Zeros in place of the bytes that may be written. -/
def Task.clear (k : Task) (out : ByteArray) : ByteArray :=
  ⟨Array.replicate k.room 0⟩ ++ out.extract k.room out.size

/-- A difference, or zero where it is negative. -/
def excess (a b : UInt32) : UInt32 := if b ≤ a then a - b else 0

/-- Half of what a scaled image has in excess of the destination, on either axis. -/
def crop (scaled target : Pair) : Pair :=
  (excess scaled.1 target.1 / 2, excess scaled.2 target.2 / 2)

/-- Half of what a scaled image leaves free of the destination, on either axis. -/
def bars? (scaled target : Pair) : Option Pair := do
  return ((← difference? target.1 scaled.1) / 2, (← difference? target.2 scaled.2) / 2)

/-- Scale into the front of a buffer. -/
def Task.draw? (k : Task) (out : ByteArray) : Fit → Option ByteArray
  | .fill => (positions k.target).foldlM (fun out t => k.copy? k.target out t t) out
  | .contain => do
    let scaled ← containSize? k.source k.target
    let offset ← bars? scaled k.target
    (positions scaled).foldlM (fun out t => do k.copy? scaled out (← shift? t offset) t)
      (k.clear out)
  | .cover => do
    let scaled ← coverSize? k.source k.target
    let offset := crop scaled k.target
    (positions k.target).foldlM (fun out t => do k.copy? scaled out t (← shift? t offset)) out

/-- Width and height of 16 bits. -/
def sides (w h : UInt16) : Extent := (w.toNat, h.toNat)

/-- Scale with sides of 16 bits: the answer, and the buffer after it. -/
def scale? (bytes : ByteArray) (sw sh : UInt16) (fit : Fit) (dw dh : UInt16) (out : ByteArray) :
    Option (Except Failure Unit × ByteArray) :=
  match check bytes (sides sw sh) (sides dw dh) out.size with
  | .error e => some (.error e, out)
  | .ok () => do
    let task : Task := ⟨bytes, (sw.toUInt32, sh.toUInt32), (dw.toUInt32, dh.toUInt32)⟩
    return (.ok (), ← task.draw? out fit)

section Words

variable {a b : UInt64}

theorem product?_eq (h : a.toNat * b.toNat < 2 ^ 64) :
    ∃ c, product? a b = some c ∧ c.toNat = a.toNat * b.toNat := by
  have hexact : (a * b).toNat = a.toNat * b.toNat := by
    rw [UInt64.toNat_mul]
    exact Nat.mod_eq_of_lt h
  exact ⟨a * b, if_pos hexact, hexact⟩

theorem sum?_eq (h : a.toNat + b.toNat < 2 ^ 64) :
    ∃ c, sum? a b = some c ∧ c.toNat = a.toNat + b.toNat := by
  have hexact : (a + b).toNat = a.toNat + b.toNat := by
    rw [UInt64.toNat_add]
    exact Nat.mod_eq_of_lt h
  exact ⟨a + b, if_pos hexact, hexact⟩

theorem quotient?_eq (a : UInt64) (h : 0 < b.toNat) :
    ∃ c, quotient? a b = some c ∧ c.toNat = a.toNat / b.toNat := by
  have hb : b ≠ 0 := by
    rintro rfl
    exact absurd h (by decide)
  exact ⟨a / b, if_neg hb, UInt64.toNat_div a b⟩

theorem narrow?_eq (h : a.toNat < 2 ^ 32) : ∃ c, narrow? a = some c ∧ c.toNat = a.toNat := by
  have hexact : a.toUInt32.toNat = a.toNat := by
    rw [UInt64.toNat_toUInt32]
    exact Nat.mod_eq_of_lt h
  exact ⟨a.toUInt32, if_pos hexact, hexact⟩

theorem ceilDiv_eq (a : Nat) {b : Nat} (hb : 0 < b) :
    a ⌈/⌉ b = a / b + if 0 < a % b then 1 else 0 := by
  have hsplit : a + b - 1 = b * (a / b) + (a % b + b - 1) := by
    have := Nat.div_add_mod a b
    omega
  rw [Nat.ceilDiv_eq_add_pred_div, hsplit, Nat.mul_add_div hb]
  congr 1
  split_ifs with hrest
  · have hlt := Nat.mod_lt a hb
    exact Nat.div_eq_of_lt_le (by omega) (by omega)
  · exact Nat.div_eq_of_lt (by omega)

theorem ceiling?_eq (h : 0 < b.toNat) (ha : a.toNat < 2 ^ 63) :
    ∃ c, ceiling? a b = some c ∧ c.toNat = a.toNat ⌈/⌉ b.toNat := by
  obtain ⟨floor, hfloor, hfloor'⟩ := quotient?_eq a h
  have hle : a.toNat / b.toNat ≤ a.toNat := Nat.div_le_self _ _
  have hrest : 0 < a % b ↔ 0 < a.toNat % b.toNat := by
    rw [UInt64.lt_iff_toNat_lt, UInt64.toNat_mod]
    rfl
  rw [ceilDiv_eq a.toNat h, ceiling?, hfloor]
  simp only [Option.bind_eq_bind, Option.bind_some, hrest]
  split_ifs
  · obtain ⟨c, hc, hc'⟩ := sum?_eq (show floor.toNat + (1 : UInt64).toNat < 2 ^ 64 by
      rw [hfloor', UInt64.toNat_one]; omega)
    exact ⟨c, hc, by rw [hc', hfloor', UInt64.toNat_one]⟩
  · exact ⟨floor, rfl, hfloor'⟩

end Words

section Short

variable {a b : UInt32}

theorem shortSum?_eq (h : a.toNat + b.toNat < 2 ^ 32) :
    shortSum? a b = some (a + b) ∧ (a + b).toNat = a.toNat + b.toNat := by
  have hexact : (a + b).toNat = a.toNat + b.toNat := by
    rw [UInt32.toNat_add]
    exact Nat.mod_eq_of_lt h
  exact ⟨if_pos hexact, hexact⟩

theorem difference?_eq (h : b.toNat ≤ a.toNat) :
    ∃ c, difference? a b = some c ∧ c.toNat = a.toNat - b.toNat :=
  ⟨a - b, if_pos (UInt32.le_iff_toNat_le.mpr h),
    UInt32.toNat_sub_of_le a b (UInt32.le_iff_toNat_le.mpr h)⟩

theorem toNat_excess (a b : UInt32) : (excess a b).toNat = a.toNat - b.toNat := by
  unfold excess
  split_ifs with h
  · exact UInt32.toNat_sub_of_le a b h
  · rw [UInt32.le_iff_toNat_le] at h
    rw [UInt32.toNat_zero]
    omega

theorem toNat_max_one (a : UInt32) : (max a 1).toNat = max a.toNat 1 := by
  change (if a ≤ 1 then 1 else a).toNat = _
  simp only [UInt32.le_iff_toNat_le, UInt32.toNat_one]
  split_ifs with h
  · exact (max_eq_right h).symm
  · exact (max_eq_left (Nat.le_of_not_le h)).symm

theorem toNat_half (a : UInt32) : (a / 2).toNat = a.toNat / 2 := UInt32.toNat_div a 2

/-- The product of two sides, in 64 bits. -/
theorem product?_sides (a b : UInt32) :
    ∃ c, product? a.toUInt64 b.toUInt64 = some c ∧ c.toNat = a.toNat * b.toNat := by
  have hlt : a.toNat * b.toNat < 2 ^ 32 * 2 ^ 32 := Nat.mul_lt_mul'' a.toNat_lt b.toNat_lt
  have hproduct := product?_eq (a := a.toUInt64) (b := b.toUInt64)
  rw [UInt32.toNat_toUInt64, UInt32.toNat_toUInt64] at hproduct
  exact hproduct hlt

end Short

/-- Positions of a scaled image correspond exactly to positions of the source. -/
theorem mapAxis?_eq {position source scaled : UInt32} (h : position.toNat < scaled.toNat)
    (hs : 0 < source.toNat) :
    ∃ v, mapAxis? position source scaled = some v ∧
      v.toNat = position.toNat * source.toNat / scaled.toNat := by
  obtain ⟨-, hlt⟩ := Fit.mapAxis_eq h hs
  obtain ⟨p, hp, hp'⟩ := product?_sides position source
  obtain ⟨q, hq, hq'⟩ := quotient?_eq p (b := scaled.toUInt64)
    (by rw [UInt32.toNat_toUInt64]; exact Nat.zero_lt_of_lt h)
  rw [UInt32.toNat_toUInt64, hp'] at hq'
  obtain ⟨v, hv, hv'⟩ := narrow?_eq (a := q) (by
    rw [hq']; exact hlt.trans source.toNat_lt)
  have hin : ¬source ≤ v := by
    rw [UInt32.le_iff_toNat_le, hv', hq']
    exact Nat.not_le_of_lt hlt
  refine ⟨v, ?_, hv'.trans hq'⟩
  simp only [mapAxis?, Option.bind_eq_bind, hp, Option.bind_some, hq, hv, if_neg hin]
  rfl

theorem product_lt {a b : Nat} (ha : a < 65536) (hb : b < 65536) : a * b < 2 ^ 32 :=
  calc a * b < 65536 * 65536 := Nat.mul_lt_mul'' ha hb
    _ = 2 ^ 32 := by decide

theorem floored?_eq {a : UInt64} {b : UInt32} (hb : 0 < b.toNat)
    (hlt : a.toNat / b.toNat < 2 ^ 32) :
    ∃ c, floored? a b = some c ∧ c.toNat = a.toNat / b.toNat := by
  obtain ⟨q, hq, hq'⟩ := quotient?_eq a (b := b.toUInt64) (by rwa [UInt32.toNat_toUInt64])
  rw [UInt32.toNat_toUInt64] at hq'
  obtain ⟨c, hc, hc'⟩ := narrow?_eq (a := q) (by rwa [hq'])
  exact ⟨c, by simp [floored?, hq, hc], hc'.trans hq'⟩

theorem raised?_eq {a : UInt64} {b : UInt32} (hb : 0 < b.toNat) (ha : a.toNat < 2 ^ 32) :
    ∃ c, raised? a b = some c ∧ c.toNat = divUp a.toNat b.toNat := by
  obtain ⟨q, hq, hq'⟩ := ceiling?_eq (a := a) (b := b.toUInt64)
    (by rwa [UInt32.toNat_toUInt64]) (by omega)
  rw [UInt32.toNat_toUInt64] at hq'
  have hle := ceilDiv_le_self a.toNat hb
  obtain ⟨c, hc, hc'⟩ := narrow?_eq (a := q) (by omega)
  exact ⟨c, by simp [raised?, hq, hc], (hc'.trans hq').trans (Nat.ceilDiv_eq_add_pred_div _ _)⟩

section Sizes

variable {source target : Pair} (hs : IsPositive (exact source))

include hs

theorem containSize?_eq (target : Pair) :
    ∃ s, containSize? source target = some s ∧
      exact s = containSize (exact source) (exact target) := by
  obtain ⟨wide, hwide, hwide'⟩ := product?_sides source.1 target.2
  obtain ⟨tall, htall, htall'⟩ := product?_sides source.2 target.1
  simp only [containSize?, Option.bind_eq_bind, hwide, htall, Option.bind_some,
    UInt64.le_iff_toNat_le, hwide', htall', containSize, exact]
  split_ifs with hle
  · obtain ⟨h, hh, hh'⟩ := floored?_eq (a := tall) hs.width (by
      rw [htall']
      exact (Nat.div_le_of_le_mul hle).trans_lt target.2.toNat_lt)
    rw [htall'] at hh'
    refine ⟨(max target.1 1, max h 1), by simp [hh], ?_⟩
    simp only [toNat_max_one, hh', hle, if_true]
  · obtain ⟨w, hw, hw'⟩ := floored?_eq (a := wide) hs.height (by
      rw [hwide']
      exact (Nat.div_le_of_le_mul (Nat.le_of_not_le hle)).trans_lt target.1.toNat_lt)
    rw [hwide'] at hw'
    refine ⟨(max w 1, max target.2 1), by simp [hw], ?_⟩
    simp only [toNat_max_one, hw', hle, if_false]

theorem coverSize?_eq (hs' : IsShort (exact source)) (ht' : IsShort (exact target)) :
    ∃ s, coverSize? source target = some s ∧
      exact s = coverSize (exact source) (exact target) := by
  obtain ⟨wide, hwide, hwide'⟩ := product?_sides source.1 target.2
  obtain ⟨tall, htall, htall'⟩ := product?_sides source.2 target.1
  simp only [coverSize?, Option.bind_eq_bind, hwide, htall, Option.bind_some,
    UInt64.le_iff_toNat_le, hwide', htall', coverSize, exact]
  split_ifs with hle
  · obtain ⟨w, hw, hw'⟩ := raised?_eq (a := wide) hs.height
      (hwide' ▸ product_lt hs'.1 ht'.2)
    rw [hwide'] at hw'
    refine ⟨(max w 1, max target.2 1), by simp [hw], ?_⟩
    simp only [toNat_max_one, hw', hle, if_true]
  · obtain ⟨h, hh, hh'⟩ := raised?_eq (a := tall) hs.width
      (htall' ▸ product_lt hs'.2 ht'.1)
    rw [htall'] at hh'
    refine ⟨(max target.1 1, max h 1), by simp [hh], ?_⟩
    simp only [toNat_max_one, hh', hle, if_false]

end Sizes

/-- A pixel of a raster with short sides has its bytes at a 64-bit index. -/
theorem offset?_eq {width : UInt32} {t : Pair} {height : Nat} (hw : width.toNat < 65536)
    (hh : height < 65536) (hx : t.1.toNat < width.toNat) (hy : t.2.toNat < height) :
    ∃ o, offset? width t = some o ∧ o.toNat = (t.2.toNat * width.toNat + t.1.toNat) * 4 ∧
      ∃ o', sum? o 4 = some o' ∧ o'.toNat = (t.2.toNat * width.toNat + t.1.toNat + 1) * 4 := by
  have hnumber := (number_lt hx hy).trans (product_lt hw hh)
  obtain ⟨row, hrow, hrow'⟩ := product?_sides t.2 width
  obtain ⟨n, hn, hn'⟩ := sum?_eq (a := row) (b := t.1.toUInt64)
    (by rw [hrow', UInt32.toNat_toUInt64]; omega)
  rw [hrow', UInt32.toNat_toUInt64] at hn'
  obtain ⟨o, ho, ho'⟩ := product?_eq (a := n) (b := 4) (by
    change n.toNat * 4 < _
    omega)
  replace ho' : o.toNat = n.toNat * 4 := ho'
  obtain ⟨o', hstop, hstop'⟩ := sum?_eq (a := o) (b := 4) (by
    change o.toNat + 4 < _
    omega)
  replace hstop' : o'.toNat = o.toNat + 4 := hstop'
  refine ⟨o, by simp [offset?, hrow, hn, ho], by rw [ho', hn'], o', hstop, by omega⟩

theorem copySlice_eq (bytes out : ByteArray) (i j n : Nat) :
    bytes.copySlice i out j n =
      out.extract 0 j ++ bytes.extract i (i + n) ++
        out.extract (j + min n (bytes.size - i)) out.size := by
  apply ByteArray.ext
  simp only [ByteArray.copySlice, ByteArray.data_append, ByteArray.data_extract]
  rfl

section Copy

variable {bytes out : ByteArray} {m n : Nat} (hm : (m + 1) * 4 ≤ bytes.size)
  (hn : (n + 1) * 4 ≤ out.size)

include hm hn

theorem size_copySlice : (bytes.copySlice (m * 4) out (n * 4) 4).size = out.size := by
  simp only [copySlice_eq, ByteArray.size_append, ByteArray.size_extract]
  omega

/-- A pixel that is copied changes the four bytes of its destination. -/
theorem byteAt_copySlice (i : Nat) :
    byteAt (bytes.copySlice (m * 4) out (n * 4) 4) i =
      if i / 4 = n then byteAt bytes (m * 4 + i % 4) else byteAt out i := by
  simp only [copySlice_eq, byteAt_append, byteAt_extract, ByteArray.size_append,
    ByteArray.size_extract]
  have hfront : min (n * 4) out.size - 0 = n * 4 := by omega
  have hmiddle : min (m * 4 + 4) bytes.size - m * 4 = 4 := by omega
  have hlength : min 4 (bytes.size - m * 4) = 4 := by omega
  rw [hfront, hmiddle, hlength]
  by_cases hbefore : i < n * 4
  · rw [if_pos (by omega), if_pos hbefore, if_pos (by omega), if_neg (by omega), Nat.zero_add]
  by_cases hwithin : i < n * 4 + 4
  · rw [if_pos hwithin, if_neg hbefore, if_pos (by omega), if_pos (by omega)]
    congr 1
    omega
  · have hlater : i / 4 ≠ n := by omega
    rw [if_neg hwithin, if_neg hlater, Nat.add_sub_of_le (Nat.le_of_not_lt hwithin)]
    split_ifs with hin
    · rfl
    · exact (byteAt_of_size_le (Nat.le_of_not_lt hin)).symm

end Copy

/-- A position as a number of a pixel. -/
def number (width : Nat) (t : Nat × Nat) : Nat := t.2 * width + t.1

/-- Copying pixels one after the other fills in their bytes, whatever the order is. -/
theorem foldlM_copySlice (bytes : ByteArray) (sw w : Nat) (pick : Nat → Option (Nat × Nat))
    (dest seen : Pair → Nat × Nat) {step : ByteArray → Pair → Option ByteArray}
    {points : List Pair} {out : ByteArray}
    (hstep : ∀ t ∈ points, ∀ b, step b t =
      some (bytes.copySlice (number sw (seen t) * 4) b (number w (dest t) * 4) 4))
    (hseen : ∀ t ∈ points, (number sw (seen t) + 1) * 4 ≤ bytes.size)
    (hdest : ∀ t ∈ points, (number w (dest t) + 1) * 4 ≤ out.size)
    (hpick : ∀ t ∈ points, pick (number w (dest t)) = some (seen t)) :
    ∃ buffer, points.foldlM step out = some buffer ∧ buffer.size = out.size ∧
      ∀ i, byteAt buffer i =
        if ∃ t ∈ points, i / 4 = number w (dest t) then shownByte bytes sw pick i
        else byteAt out i := by
  induction points generalizing out with
  | nil => exact ⟨out, rfl, rfl, fun i => by simp⟩
  | cons t points ih =>
    obtain ⟨hstepped, hstep⟩ := List.forall_mem_cons.mp hstep
    obtain ⟨hm, hseen⟩ := List.forall_mem_cons.mp hseen
    obtain ⟨hn, hdest⟩ := List.forall_mem_cons.mp hdest
    obtain ⟨hpicked, hpick⟩ := List.forall_mem_cons.mp hpick
    have hsize := size_copySlice hm hn
    obtain ⟨buffer, hrun, hlength, hbyte⟩ := ih hstep hseen (hsize ▸ hdest) hpick
    refine ⟨buffer, ?_, hlength.trans hsize, ?_⟩
    · rw [List.foldlM_cons, hstepped]
      exact hrun
    · intro i
      rw [hbyte, byteAt_copySlice hm hn]
      by_cases hlater : ∃ t ∈ points, i / 4 = number w (dest t)
      · rw [if_pos hlater, if_pos (List.exists_mem_cons_of_exists hlater)]
      · rw [if_neg hlater]
        simp only [List.mem_cons, exists_eq_or_imp, hlater, or_false]
        split_ifs with hhere
        · rw [shownByte, hhere, hpicked]
          rfl
        · rfl

/-- A position lies in an image. -/
def Within (t e : Pair) : Prop := t.1.toNat < e.1.toNat ∧ t.2.toNat < e.2.toNat

theorem mem_positions {t e : Pair} : t ∈ positions e ↔ Within t e := by
  simp only [positions, List.mem_flatMap, List.mem_map, List.mem_range, Within]
  constructor
  · rintro ⟨y, hy, x, hx, rfl⟩
    rw [UInt32.toNat_ofNat_of_lt' (hx.trans e.1.toNat_lt),
      UInt32.toNat_ofNat_of_lt' (hy.trans e.2.toNat_lt)]
    exact ⟨hx, hy⟩
  · rintro ⟨hx, hy⟩
    exact ⟨t.2.toNat, hy, t.1.toNat, hx, Prod.ext UInt32.ofNat_toNat UInt32.ofNat_toNat⟩

theorem exists_position {e : Pair} {x y : Nat} (hx : x < e.1.toNat) (hy : y < e.2.toNat) :
    ∃ t ∈ positions e, exact t = (x, y) := by
  have hx' := UInt32.toNat_ofNat_of_lt' (hx.trans e.1.toNat_lt)
  have hy' := UInt32.toNat_ofNat_of_lt' (hy.trans e.2.toNat_lt)
  refine ⟨(.ofNat x, .ofNat y), mem_positions.mpr ⟨?_, ?_⟩, Prod.ext hx' hy'⟩
  · rwa [hx']
  · rwa [hy']

/-- The positions of an image have all its numbers. -/
theorem exists_number_iff (e : Pair) (n : Nat) :
    (∃ t ∈ positions e, n = number e.1.toNat (exact t)) ↔ n < e.1.toNat * e.2.toNat := by
  constructor
  · rintro ⟨t, ht, rfl⟩
    have hin := mem_positions.mp ht
    exact number_lt hin.1 hin.2
  · intro hn
    have hw : 0 < e.1.toNat := Nat.pos_of_mul_pos_right (Nat.zero_lt_of_lt hn)
    obtain ⟨t, ht, hexact⟩ := exists_position (Nat.mod_lt n hw) (Nat.div_lt_of_lt_mul hn)
    exact ⟨t, ht, by rw [hexact, number, Nat.div_add_mod']⟩

namespace Task

variable {k : Task} {out start : ByteArray}

/-- The sizes are those of images, and the buffers hold these. -/
structure IsReady (k : Task) (out : ByteArray) : Prop where
  source_pos : IsPositive (exact k.source)
  source_short : IsShort (exact k.source)
  target_pos : IsPositive (exact k.target)
  target_short : IsShort (exact k.target)
  enough : k.source.1.toNat * k.source.2.toNat * 4 ≤ k.bytes.size
  room_le : k.room ≤ out.size

/-- A pixel is copied without any overflow, and within the buffers. -/
theorem copy?_eq (h : k.IsReady out) {scaled place seen : Pair} (hplace : Within place k.target)
    (hseen : Within seen scaled) (b : ByteArray) :
    k.copy? scaled b place seen = some (k.bytes.copySlice
      (number k.source.1.toNat (proportional (exact k.source) (exact scaled) seen.1.toNat
        seen.2.toNat) * 4) b
      (number k.target.1.toNat (exact place) * 4) 4) := by
  obtain ⟨column, hcolumn, hcolumn'⟩ := mapAxis?_eq hseen.1 h.source_pos.width
  obtain ⟨row, hrow, hrow'⟩ := mapAxis?_eq hseen.2 h.source_pos.height
  have hx : column.toNat < k.source.1.toNat :=
    hcolumn' ▸ (mapAxis_eq hseen.1 h.source_pos.width).2
  have hy : row.toNat < k.source.2.toNat := hrow' ▸ (mapAxis_eq hseen.2 h.source_pos.height).2
  obtain ⟨start, hstart, hstart', stop, hstop, hstop'⟩ := offset?_eq (t := (column, row))
    h.source_short.1 h.source_short.2 hx hy
  obtain ⟨first, hfirst, hfirst', last, hlast, hlast'⟩ := offset?_eq h.target_short.1
    h.target_short.2 hplace.1 hplace.2
  have hroom : stop.toNat ≤ k.bytes.size ∧ last.toNat ≤ k.room := by
    have hnumber := number_lt hx hy
    have hnumber' := number_lt hplace.1 hplace.2
    have henough := h.enough
    dsimp only at hstop'
    unfold Task.room
    omega
  simp only [copy?, Option.bind_eq_bind, Option.bind_some, hcolumn, hrow, hstart, hfirst, hstop,
    hlast, hroom, and_self, if_true, hstart', hfirst', hcolumn', hrow', number, exact, proportional]

/-- Copies for a list of positions, none of them outside. -/
theorem foldlM_copy (h : k.IsReady out) (fit : Fit) {points : List Pair} {scaled : Pair}
    {step : ByteArray → Pair → Option ByteArray} (place seen : Pair → Pair)
    (hstep : ∀ t ∈ points, ∀ b, step b t = k.copy? scaled b (place t) (seen t))
    (hplace : ∀ t ∈ points, Within (place t) k.target)
    (hseen : ∀ t ∈ points, Within (seen t) scaled)
    (hpick : ∀ t ∈ points, fit.exactPixel? (exact k.source) (exact k.target)
      (place t).1.toNat (place t).2.toNat = some (proportional (exact k.source) (exact scaled)
        (seen t).1.toNat (seen t).2.toNat))
    (hstart : start.size = out.size) :
    ∃ buffer, points.foldlM step start = some buffer ∧ buffer.size = out.size ∧
      ∀ i, byteAt buffer i =
        if ∃ t ∈ points, i / 4 = number k.target.1.toNat (exact (place t)) then
          shownByte k.bytes k.source.1.toNat (picked fit (exact k.source) (exact k.target)) i
        else byteAt start i := by
  rw [← hstart]
  refine foldlM_copySlice k.bytes k.source.1.toNat k.target.1.toNat
    (picked fit (exact k.source) (exact k.target)) (fun t => exact (place t))
    (fun t => proportional (exact k.source) (exact scaled) (seen t).1.toNat (seen t).2.toNat)
    (fun t ht b => (hstep t ht b).trans (copy?_eq h (hplace t ht) (hseen t ht) b)) ?_ ?_ ?_
  · intro t ht
    have hlt : (proportional (exact k.source) (exact scaled) (seen t).1.toNat
        (seen t).2.toNat).1 < (exact k.source).1 ∧ _ :=
      (fromScaled_eq h.source_pos (hseen t ht).1 (hseen t ht).2).2
    have hnumber := number_lt hlt.1 hlt.2
    have henough := h.enough
    dsimp only [number, exact] at hnumber ⊢
    omega
  · intro t ht
    have hnumber := number_lt (hplace t ht).1 (hplace t ht).2
    have hroom := h.room_le
    dsimp only [number, exact, Task.room] at hroom ⊢
    rw [hstart]
    omega
  · intro t ht
    rw [← hpick t ht, picked, number]
    dsimp only [exact]
    rw [Nat.mul_add_mod_of_lt (hplace t ht).1, number_div _ (hplace t ht).1]

/-- Copies for all positions of the destination. -/
theorem renders_of_foldlM (h : k.IsReady out) (fit : Fit) {scaled : Pair}
    {step : ByteArray → Pair → Option ByteArray} (seen : Pair → Pair)
    (hstep : ∀ t, Within t k.target → ∀ b, step b t = k.copy? scaled b t (seen t))
    (hseen : ∀ t, Within t k.target → Within (seen t) scaled)
    (hpick : ∀ t, Within t k.target → fit.exactPixel? (exact k.source) (exact k.target)
      t.1.toNat t.2.toNat = some (proportional (exact k.source) (exact scaled)
        (seen t).1.toNat (seen t).2.toNat)) :
    ∃ buffer, (positions k.target).foldlM step out = some buffer ∧
      Renders k.bytes out (exact k.source) fit (exact k.target) buffer := by
  obtain ⟨buffer, hrun, hsize, hbyte⟩ := foldlM_copy h fit id seen
    (fun t ht => hstep t (mem_positions.mp ht)) (fun t ht => mem_positions.mp ht)
    (fun t ht => hseen t (mem_positions.mp ht)) (fun t ht => hpick t (mem_positions.mp ht)) rfl
  refine ⟨buffer, hrun, hsize, ?_⟩
  intro i
  have hin : (∃ t ∈ positions k.target, i / 4 = number k.target.1.toNat (exact t)) ↔
      i < k.target.1.toNat * k.target.2.toNat * 4 :=
    (exists_number_iff _ _).trans (by omega)
  rw [hbyte]
  exact if_congr hin rfl rfl

theorem draw?_fill (h : k.IsReady out) : ∃ buffer, k.draw? out .fill = some buffer ∧
    Renders k.bytes out (exact k.source) .fill (exact k.target) buffer :=
  renders_of_foldlM h .fill id (fun _ _ _ => rfl) (fun _ ht => ht) fun _ _ => rfl

theorem shift?_eq {t offset : Pair} {a b : Nat} (hoffset : exact offset = (a, b))
    (hx : t.1.toNat + a < 2 ^ 32) (hy : t.2.toNat + b < 2 ^ 32) :
    shift? t offset = some (shifted t offset) ∧
      (shifted t offset).1.toNat = t.1.toNat + a ∧ (shifted t offset).2.toNat = t.2.toNat + b := by
  obtain ⟨rfl, rfl⟩ := Prod.mk.inj hoffset
  obtain ⟨hcolumn, hcolumn'⟩ := shortSum?_eq hx
  obtain ⟨hrow, hrow'⟩ := shortSum?_eq hy
  exact ⟨by simp [shift?, shifted, hcolumn, hrow], hcolumn', hrow'⟩

theorem draw?_cover (h : k.IsReady out) : ∃ buffer, k.draw? out .cover = some buffer ∧
    Renders k.bytes out (exact k.source) .cover (exact k.target) buffer := by
  obtain ⟨scaled, hscaled, hscaled'⟩ :=
    coverSize?_eq h.source_pos h.source_short h.target_short
  rw [coverSize_eq h.source_pos h.target_pos] at hscaled'
  have hcrop : exact (crop scaled k.target) =
      ((scaled.1.toNat - k.target.1.toNat) / 2, (scaled.2.toNat - k.target.2.toNat) / 2) := by
    simp only [exact, crop, toNat_half, toNat_excess]
  have hlt (t : Pair) (ht : Within t k.target) :
      t.1.toNat + (scaled.1.toNat - k.target.1.toNat) / 2 < scaled.1.toNat ∧
        t.2.toNat + (scaled.2.toNat - k.target.2.toNat) / 2 < scaled.2.toNat := by
    obtain ⟨hw, hh⟩ := le_circumscribed h.source_pos (exact k.target)
    rw [← hscaled'] at hw hh
    exact ⟨cropped_lt ht.1 hw, cropped_lt ht.2 hh⟩
  have hshift (t : Pair) (ht : Within t k.target) :=
    shift?_eq hcrop ((hlt t ht).1.trans scaled.1.toNat_lt) ((hlt t ht).2.trans scaled.2.toNat_lt)
  have hstep (t : Pair) (ht : Within t k.target) (b : ByteArray) :
      (do k.copy? scaled b t (← shift? t (crop scaled k.target))) =
        k.copy? scaled b t (shifted t (crop scaled k.target)) := by
    rw [(hshift t ht).1]
    rfl
  have hseen (t : Pair) (ht : Within t k.target) :
      Within (shifted t (crop scaled k.target)) scaled := by
    obtain ⟨-, hx, hy⟩ := hshift t ht
    exact ⟨hx ▸ (hlt t ht).1, hy ▸ (hlt t ht).2⟩
  obtain ⟨buffer, hrun, hrenders⟩ := renders_of_foldlM h .cover _ hstep hseen fun t ht => by
    obtain ⟨-, hx, hy⟩ := hshift t ht
    rw [hx, hy, exactPixel?, ← hscaled']
    rfl
  refine ⟨buffer, ?_, hrenders⟩
  rw [draw?, hscaled]
  exact hrun

/-- Zeros are where an image goes, and the rest is as before. -/
theorem byteAt_clear (k : Task) (out : ByteArray) (i : Nat) :
    byteAt (k.clear out) i = if i < k.room then 0 else byteAt out i := by
  have hsize : (⟨Array.replicate k.room 0⟩ : ByteArray).size = k.room := Array.size_replicate
  rw [clear, byteAt_append, hsize]
  split_ifs with hi
  · rw [byteAt_eq, Array.getElem?_replicate, if_pos hi, Option.getD_some]
  · rw [byteAt_extract, Nat.add_sub_of_le (Nat.le_of_not_lt hi)]
    split_ifs with hin
    · rfl
    · exact (byteAt_of_size_le (Nat.le_of_not_lt hin)).symm

theorem size_clear (h : k.room ≤ out.size) : (k.clear out).size = out.size := by
  have hsize : (⟨Array.replicate k.room 0⟩ : ByteArray).size = k.room := Array.size_replicate
  rw [clear, ByteArray.size_append, ByteArray.size_extract, hsize]
  omega

theorem bars?_eq {scaled target : Pair} (hw : scaled.1.toNat ≤ target.1.toNat)
    (hh : scaled.2.toNat ≤ target.2.toNat) :
    ∃ offset, bars? scaled target = some offset ∧ exact offset =
      ((target.1.toNat - scaled.1.toNat) / 2, (target.2.toNat - scaled.2.toNat) / 2) := by
  obtain ⟨left, hleft, hleft'⟩ := difference?_eq hw
  obtain ⟨top, htop, htop'⟩ := difference?_eq hh
  refine ⟨(left / 2, top / 2), by simp [bars?, hleft, htop], ?_⟩
  simp only [exact, toNat_half, hleft', htop']

theorem draw?_contain (h : k.IsReady out) : ∃ buffer, k.draw? out .contain = some buffer ∧
    Renders k.bytes out (exact k.source) .contain (exact k.target) buffer := by
  obtain ⟨scaled, hscaled, hscaled'⟩ := containSize?_eq h.source_pos k.target
  rw [containSize_eq _ h.target_pos] at hscaled'
  obtain ⟨-, hw, hh⟩ := inscribed_le (exact k.source) h.target_pos
  rw [← hscaled'] at hw hh
  dsimp only [exact] at hw hh
  obtain ⟨offset, hbars, hoffset⟩ := bars?_eq hw hh
  have hwidth := k.target.1.toNat_lt
  have hheight := k.target.2.toNat_lt
  have hshift (t : Pair) (ht : Within t scaled) :=
    have hx := ht.1
    have hy := ht.2
    shift?_eq (t := t) hoffset (by omega) (by omega)
  have hstep (t : Pair) (ht : t ∈ positions scaled) (b : ByteArray) :
      (do k.copy? scaled b (← shift? t offset) t) = k.copy? scaled b (shifted t offset) t := by
    rw [(hshift t (mem_positions.mp ht)).1]
    rfl
  have hplace (t : Pair) (ht : t ∈ positions scaled) : Within (shifted t offset) k.target := by
    have hin := mem_positions.mp ht
    obtain ⟨-, hx, hy⟩ := hshift t hin
    unfold Within at hin ⊢
    omega
  have hpick (t : Pair) (ht : t ∈ positions scaled) :
      exactPixel? .contain (exact k.source) (exact k.target) (shifted t offset).1.toNat
        (shifted t offset).2.toNat =
      some (proportional (exact k.source) (exact scaled) t.1.toNat t.2.toNat) := by
    have hin := mem_positions.mp ht
    obtain ⟨-, hx, hy⟩ := hshift t hin
    rw [hx, hy]
    exact exactPixel?_inside hscaled'.symm hin.1 hin.2
  obtain ⟨buffer, hrun, hsize, hbyte⟩ := foldlM_copy h .contain (fun t => shifted t offset) id
    hstep hplace (fun t ht => mem_positions.mp ht) hpick (size_clear h.room_le)
  refine ⟨buffer, ?_, hsize, ?_⟩
  · rw [draw?, hscaled]
    simp only [Option.bind_eq_bind, Option.bind_some, hbars]
    exact hrun
  · intro i
    rw [hbyte, byteAt_clear]
    by_cases hdrawn : ∃ t ∈ positions scaled,
        i / 4 = number k.target.1.toNat (exact (shifted t offset))
    · have hin : i < k.target.1.toNat * k.target.2.toNat * 4 := by
        obtain ⟨t, ht, hnumber⟩ := hdrawn
        have hlt := number_lt (hplace t ht).1 (hplace t ht).2
        dsimp only [number, exact] at hnumber
        omega
      rw [if_pos hdrawn]
      exact (if_pos hin).symm
    · rw [if_neg hdrawn]
      refine if_congr Iff.rfl ?_ rfl
      -- What is not drawn lies on the bars.
      suffices hbar : picked .contain (exact k.source) (exact k.target) (i / 4) = none by
        rw [shownByte, hbar]
      apply exactPixel?_outside hscaled'.symm
      rintro x hx y hy ⟨hcolumn, hrow⟩
      obtain ⟨t, ht, hexact⟩ := exists_position hx hy
      obtain ⟨-, hx', hy'⟩ := hshift t (mem_positions.mp ht)
      obtain ⟨rfl, rfl⟩ := Prod.mk.inj hexact
      refine hdrawn ⟨t, ht, ?_⟩
      rw [number]
      dsimp only [exact] at hcolumn hrow ⊢
      rw [hx', hy', ← hcolumn, ← hrow, Nat.div_add_mod']

/-- Every fit is drawn without any fault. -/
theorem draw?_eq (h : k.IsReady out) (fit : Fit) : ∃ buffer, k.draw? out fit = some buffer ∧
    Renders k.bytes out (exact k.source) fit (exact k.target) buffer := by
  cases fit with
  | fill => exact draw?_fill h
  | contain => exact draw?_contain h
  | cover => exact draw?_cover h

end Task

theorem isShort_sides (w h : UInt16) : IsShort (sides w h) := ⟨w.toNat_lt, h.toNat_lt⟩

theorem exact_sides (w h : UInt16) : exact (w.toUInt32, h.toUInt32) = sides w h :=
  Prod.ext (UInt16.toNat_toUInt32 w) (UInt16.toNat_toUInt32 h)

/-- What is not refused can be scaled. -/
theorem isReady_of_accepted {bytes out : ByteArray} {sw sh dw dh : UInt16}
    (h : refusal? bytes (sides sw sh) (sides dw dh) out.size = none) :
    Task.IsReady ⟨bytes, (sw.toUInt32, sh.toUInt32), (dw.toUInt32, dh.toUInt32)⟩ out := by
  obtain ⟨hvalid, hroom⟩ := refusal?_none_iff.mp h
  simp only [IsInvalid, not_or, Nat.not_lt] at hvalid
  obtain ⟨⟨hsw, hsh, hdw, hdh⟩, hsource⟩ := hvalid
  refine ⟨?_, ?_, ?_, ?_, ?_, ?_⟩
  · exact exact_sides sw sh ▸ ⟨Nat.pos_of_ne_zero hsw, Nat.pos_of_ne_zero hsh⟩
  · exact exact_sides sw sh ▸ isShort_sides sw sh
  · exact exact_sides dw dh ▸ ⟨Nat.pos_of_ne_zero hdw, Nat.pos_of_ne_zero hdh⟩
  · exact exact_sides dw dh ▸ isShort_sides dw dh
  · rwa [UInt16.toNat_toUInt32, UInt16.toNat_toUInt32]
  · rwa [Task.room, UInt16.toNat_toUInt32, UInt16.toNat_toUInt32]

/-- Scaling comes to its answer without any fault, and leaves the buffer that `Scale.into` gives. -/
theorem scale?_eq (bytes out : ByteArray) (sw sh dw dh : UInt16) (fit : Fit) :
    (∃ e, refusal? bytes (sides sw sh) (sides dw dh) out.size = some e ∧
      scale? bytes sw sh fit dw dh out = some (.error e, out) ∧
      into out bytes (sides sw sh) fit (sides dw dh) = .error e) ∨
    ∃ buffer, refusal? bytes (sides sw sh) (sides dw dh) out.size = none ∧
      scale? bytes sw sh fit dw dh out = some (.ok (), buffer) ∧
      into out bytes (sides sw sh) fit (sides dw dh) = .ok buffer ∧
      Renders bytes out (sides sw sh) fit (sides dw dh) buffer := by
  have hs := isShort_sides sw sh
  have ht := isShort_sides dw dh
  have hcheck := check_eq hs ht bytes out.size
  cases hrefusal : refusal? bytes (sides sw sh) (sides dw dh) out.size with
  | some e =>
    rw [hrefusal] at hcheck
    exact .inl ⟨e, rfl, by rw [scale?, hcheck], into_of_refusal hs ht fit hrefusal⟩
  | none =>
    rw [hrefusal] at hcheck
    obtain ⟨hinto, hrenders⟩ := into_of_accepted hs ht fit hrefusal
    obtain ⟨buffer, hdraw, hdrawn⟩ := Task.draw?_eq (isReady_of_accepted hrefusal) fit
    rw [exact_sides, exact_sides] at hdrawn
    refine .inr ⟨buffer, rfl, ?_, ?_, hdrawn⟩
    · rw [scale?, hcheck]
      simp only [hdraw, Option.bind_eq_bind, Option.bind_some]
      rfl
    · rw [hinto, hrenders.unique hdrawn]

/-- Scaling never faults. It is refused for a side of zero or a short source, or else for a short
buffer, and leaves the buffer as it is then. Otherwise every pixel in front of the buffer is the one
that exact arithmetic picks, and the rest of the buffer stays. -/
theorem scale_exact (bytes out : ByteArray) (sw sh dw dh : UInt16) (fit : Fit) :
    ∃ answer buffer, scale? bytes sw sh fit dw dh out = some (answer, buffer) ∧
      into out bytes (sides sw sh) fit (sides dw dh) = answer.map (fun _ => buffer) ∧
      ((∃ what, answer = .error (.invalid what)) ↔ IsInvalid bytes (sides sw sh) (sides dw dh)) ∧
      ((∃ what, answer = .error (.limit what)) ↔ ¬IsInvalid bytes (sides sw sh) (sides dw dh) ∧
        out.size < dw.toNat * dh.toNat * 4) ∧
      (answer = .ok () ↔ ¬IsInvalid bytes (sides sw sh) (sides dw dh) ∧
        dw.toNat * dh.toNat * 4 ≤ out.size) ∧
      (∀ e, answer = .error e → buffer = out) ∧
      (answer = .ok () → buffer.size = out.size ∧
        (∀ i, dw.toNat * dh.toNat * 4 ≤ i → byteAt buffer i = byteAt out i) ∧
        ((inscribed (sides sw sh) (sides dw dh)).1 ≤ dw.toNat ∧
          (inscribed (sides sw sh) (sides dw dh)).2 ≤ dh.toNat) ∧
        (dw.toNat ≤ (circumscribed (sides sw sh) (sides dw dh)).1 ∧
          dh.toNat ≤ (circumscribed (sides sw sh) (sides dw dh)).2) ∧
        ∀ x < dw.toNat, ∀ y < dh.toNat,
          pixelAt buffer (y * dw.toNat + x) =
            shown bytes sw.toNat (fit.exactPixel? (sides sw sh) (sides dw dh) x y) ∧
          ∀ i j, fit.exactPixel? (sides sw sh) (sides dw dh) x y = some (i, j) →
            i < sw.toNat ∧ j < sh.toNat) := by
  have hinvalid : (∃ what, refusal? bytes (sides sw sh) (sides dw dh) out.size =
      some (.invalid what)) ↔ IsInvalid bytes (sides sw sh) (sides dw dh) := refusal?_invalid_iff
  have hlimit : _ ↔ ¬IsInvalid bytes (sides sw sh) (sides dw dh) ∧
      out.size < dw.toNat * dh.toNat * 4 := refusal?_limit_iff
  have hnone : _ ↔ ¬IsInvalid bytes (sides sw sh) (sides dw dh) ∧
      dw.toNat * dh.toNat * 4 ≤ out.size := refusal?_none_iff
  rcases scale?_eq bytes out sw sh dw dh fit with
    ⟨e, hrefusal, hscale, hinto⟩ | ⟨buffer, hrefusal, hscale, hinto, hrenders⟩
  · refine ⟨.error e, out, hscale, hinto, ?_, ?_, ?_, fun _ _ => rfl, nofun⟩
    · simpa [hrefusal] using hinvalid
    · simpa [hrefusal] using hlimit
    · simpa [hrefusal] using hnone
  · have hs := (isReady_of_accepted hrefusal).source_pos
    have ht := (isReady_of_accepted hrefusal).target_pos
    rw [exact_sides] at hs ht
    refine ⟨.ok (), buffer, hscale, hinto, ?_, ?_, ?_, nofun, fun _ => ⟨hrenders.size_eq,
      fun i hi => hrenders.rest hi, (inscribed_le _ ht).2, le_circumscribed hs (sides dw dh), ?_⟩⟩
    · simpa [hrefusal] using hinvalid
    · simpa [hrefusal] using hlimit
    · simpa [hrefusal] using hnone
    · intro x hx y hy
      exact ⟨hrenders.pixel hx hy, (sourcePixel?_eq fit hs ht hx hy).2⟩

end CellCanvas.WordScale
