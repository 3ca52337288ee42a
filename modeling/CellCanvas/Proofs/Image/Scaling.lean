import CellCanvas.Image.Scale
import CellCanvas.Proofs.Image.Fitting

/-!
# The bytes of a scaled image

A scaled image has four bytes for every destination pixel, row by row: those of the source pixel
that the fit gives it in exact arithmetic, or zeros. What is refused is told by the sides and the
lengths alone.
-/

namespace CellCanvas.Scale

open Raster Fit

/-- The pixel with a number in a block of pixels. -/
def pixelAt (bytes : ByteArray) (n : Nat) : Pixel :=
  ⟨byteAt bytes (n * 4), byteAt bytes (n * 4 + 1), byteAt bytes (n * 4 + 2),
    byteAt bytes (n * 4 + 3)⟩

/-- The pixel that a source position stands for; transparent black where there is none. -/
def shown (bytes : ByteArray) (width : Nat) : Option (Nat × Nat) → Pixel
  | some (x, y) => pixelAt bytes (y * width + x)
  | none => ⟨0, 0, 0, 0⟩

/-- Byte `i` of an image whose pixels come from the source positions that are given. -/
def shownByte (bytes : ByteArray) (width : Nat) (pick : Nat → Option (Nat × Nat)) (i : Nat) :
    UInt8 :=
  match pick (i / 4) with
  | some (x, y) => byteAt bytes ((y * width + x) * 4 + i % 4)
  | none => 0

/-- The source position of the destination pixel with a number. -/
def picked (fit : Fit) (source target : Extent) (n : Nat) : Option (Nat × Nat) :=
  fit.exactPixel? source target (n % target.1) (n / target.1)

/-- Why a scaling is refused. -/
def refusal? (bytes : ByteArray) (source target : Extent) (room : Nat) : Option Failure :=
  if source.1 = 0 ∨ source.2 = 0 ∨ target.1 = 0 ∨ target.2 = 0 then some (.invalid .imageSide)
  else if bytes.size < source.1 * source.2 * 4 then some (.invalid .sourceLength)
  else if room < target.1 * target.2 * 4 then some (.limit .destination)
  else none

theorem number_div {w x : Nat} (y : Nat) (hx : x < w) : (y * w + x) / w = y := by
  rw [Nat.mul_comm, Nat.mul_add_div (Nat.zero_lt_of_lt hx), Nat.div_eq_of_lt hx, Nat.add_zero]

theorem picked_number (fit : Fit) (source : Extent) {target : Extent} {x : Nat} (y : Nat)
    (hx : x < target.1) :
    picked fit source target (y * target.1 + x) = fit.exactPixel? source target x y := by
  rw [picked, Nat.mul_add_mod_of_lt hx, number_div y hx]

theorem number_lt {w h x y : Nat} (hx : x < w) (hy : y < h) : y * w + x < w * h := by
  calc y * w + x < y * w + w := Nat.add_lt_add_left hx _
    _ = (y + 1) * w := (Nat.succ_mul y w).symm
    _ ≤ h * w := Nat.mul_le_mul_right w hy
    _ = w * h := Nat.mul_comm h w

theorem byteAt_eq (bytes : ByteArray) (i : Nat) : byteAt bytes i = bytes.data[i]?.getD 0 := by
  unfold byteAt
  split_ifs with hi
  · rw [Array.getElem?_eq_getElem hi, Option.getD_some, ByteArray.getElem_eq_getElem_data]
  · rw [Array.getElem?_eq_none (Nat.le_of_not_lt hi), Option.getD_none]

theorem ext_byteAt {a b : ByteArray} (hsize : a.size = b.size)
    (h : ∀ i, byteAt a i = byteAt b i) : a = b := by
  apply ByteArray.ext
  apply Array.ext hsize
  intro i ha hb
  have hi := h i
  rwa [byteAt_eq, byteAt_eq, Array.getElem?_eq_getElem ha, Array.getElem?_eq_getElem hb] at hi

theorem byteAt_push (bytes : ByteArray) (b : UInt8) (i : Nat) :
    byteAt (bytes.push b) i = if i = bytes.size then b else byteAt bytes i := by
  rw [byteAt_eq, byteAt_eq, ByteArray.data_push, Array.getElem?_push]
  split_ifs with h h' h'
  · rfl
  · exact absurd h h'
  · exact absurd h' h
  · rfl

theorem byteAt_append (a b : ByteArray) (i : Nat) :
    byteAt (a ++ b) i = if i < a.size then byteAt a i else byteAt b (i - a.size) := by
  rw [byteAt_eq, byteAt_eq, byteAt_eq, ByteArray.data_append, Array.getElem?_append]
  exact apply_ite (Option.getD · 0) _ _ _

theorem byteAt_extract (bytes : ByteArray) (start stop i : Nat) :
    byteAt (bytes.extract start stop) i =
      if start + i < stop then byteAt bytes (start + i) else 0 := by
  rw [byteAt_eq, byteAt_eq, ByteArray.data_extract, Array.getElem?_extract]
  split_ifs with hin hstop hstop
  · rfl
  · omega
  · rw [Array.getElem?_eq_none (by omega)]
  · rfl

theorem byteAt_of_size_le {bytes : ByteArray} {i : Nat} (h : bytes.size ≤ i) :
    byteAt bytes i = 0 := dif_neg (Nat.not_lt_of_le h)

/-- The pixel with a number has the four bytes of that number. -/
theorem pixelAt_eq_shown {out bytes : ByteArray} {width n : Nat}
    {pick : Nat → Option (Nat × Nat)}
    (h : ∀ k < 4, byteAt out (n * 4 + k) = shownByte bytes width pick (n * 4 + k)) :
    pixelAt out n = shown bytes width (pick n) := by
  have hbyte (k : Nat) (hk : k < 4) :
      byteAt out (n * 4 + k) = match pick n with
        | some (x, y) => byteAt bytes ((y * width + x) * 4 + k)
        | none => 0 := by
    rw [h k hk, shownByte, show (n * 4 + k) / 4 = n by omega, show (n * 4 + k) % 4 = k by omega]
  have hfirst := hbyte 0 (by decide)
  rw [pixelAt, hbyte 1 (by decide), hbyte 2 (by decide), hbyte 3 (by decide),
    ← Nat.add_zero (n * 4), hfirst]
  cases pick n with
  | none => rfl
  | some source => rfl

/-- The bytes of a block of the first pixels. -/
structure Filled (bytes : ByteArray) (width : Nat) (pick : Nat → Option (Nat × Nat)) (n : Nat)
    (out : ByteArray) : Prop where
  size_eq : out.size = n * 4
  byte : ∀ i < n * 4, byteAt out i = shownByte bytes width pick i

theorem size_addPixel (bytes : ByteArray) (width : Nat) (source? : Option (Nat × Nat))
    (out : ByteArray) : (addPixel bytes width source? out).size = out.size + 4 := by
  unfold addPixel
  cases source? with
  | none => simp only [ByteArray.size_push]
  | some position => simp only [ByteArray.size_push]

/-- Adding a pixel keeps what is there and adds its four bytes. -/
theorem byteAt_addPixel {out : ByteArray} {n i : Nat} (bytes : ByteArray) (width : Nat)
    (source? : Option (Nat × Nat)) (hsize : out.size = n * 4) (hi : i < (n + 1) * 4) :
    byteAt (addPixel bytes width source? out) i =
      if i < n * 4 then byteAt out i else shownByte bytes width (fun _ => source?) i := by
  split_ifs with hold
  · have hne (k : Nat) : i ≠ n * 4 + k := by omega
    have hne' : i ≠ n * 4 := by omega
    cases source? with
    | none =>
      simp only [addPixel, byteAt_push, ByteArray.size_push, hsize, Nat.add_assoc, hne, hne',
        if_false]
    | some position =>
      simp only [addPixel, byteAt_push, ByteArray.size_push, hsize, Nat.add_assoc, hne, hne',
        if_false]
  · obtain ⟨k, rfl⟩ := Nat.exists_eq_add_of_le (Nat.le_of_not_lt hold)
    have hk : k < 4 := by omega
    have hmod : (n * 4 + k) % 4 = k := by omega
    cases source? with
    | none =>
      simp only [addPixel, byteAt_push, ByteArray.size_push, hsize, shownByte]
      interval_cases k <;> simp [Nat.add_assoc]
    | some position =>
      simp only [addPixel, byteAt_push, ByteArray.size_push, hsize, shownByte, hmod]
      interval_cases k <;> simp [Nat.add_assoc]

namespace Filled

variable {bytes out : ByteArray} {width n : Nat} {pick : Nat → Option (Nat × Nat)}

theorem addPixel (h : Filled bytes width pick n out) :
    Filled bytes width pick (n + 1) (addPixel bytes width (pick n) out) := by
  constructor
  · rw [size_addPixel, h.size_eq]
    omega
  · intro i hi
    rw [byteAt_addPixel bytes width (pick n) h.size_eq hi]
    split_ifs with hold
    · exact h.byte i hold
    · have hdiv : i / 4 = n := by omega
      rw [shownByte, shownByte, hdiv]

/-- A row of pixels. -/
theorem row (h : Filled bytes width pick n out) {count : Nat} {next : Nat → Option (Nat × Nat)}
    (hnext : ∀ x < count, next x = pick (n + x)) :
    Filled bytes width pick (n + count)
      (Nat.fold count (fun x _ out => Scale.addPixel bytes width (next x) out) out) := by
  induction count with
  | zero => exact h
  | succ count ih =>
    have hrow := (ih fun x hx => hnext x (by omega)).addPixel
    rw [← hnext count (by omega)] at hrow
    rw [Nat.fold_succ]
    exact hrow

theorem pixel (h : Filled bytes width pick n out) {m : Nat} (hm : m < n) :
    pixelAt out m = shown bytes width (pick m) :=
  pixelAt_eq_shown fun k hk => h.byte (m * 4 + k) (by omega)

/-- The bytes are settled by what is picked. -/
theorem unique {out' : ByteArray} {pick' : Nat → Option (Nat × Nat)}
    (h : Filled bytes width pick n out) (h' : Filled bytes width pick' n out')
    (hpick : ∀ m < n, pick m = pick' m) : out = out' := by
  apply ext_byteAt (h.size_eq.trans h'.size_eq.symm)
  intro i
  by_cases hi : i < n * 4
  · rw [h.byte i hi, h'.byte i hi, shownByte, shownByte, hpick (i / 4) (by omega)]
  · rw [byteAt_of_size_le (by rw [h.size_eq]; omega), byteAt_of_size_le (by rw [h'.size_eq]; omega)]

end Filled

section Scaled

variable {source target : Extent} (hs : IsPositive source) (ht : IsPositive target)

include hs ht

/-- The scaled image shows what the fit picks. -/
theorem filled_scaled (bytes : ByteArray) (fit : Fit) :
    Filled bytes source.1 (picked fit source target) (target.1 * target.2)
      (scaled bytes source fit target) := by
  suffices h : ∀ rows ≤ target.2, Filled bytes source.1 (picked fit source target)
      (rows * target.1) (Nat.fold rows (fun y _ out => Nat.fold target.1 (fun x _ out =>
        addPixel bytes source.1 (fit.sourcePixel? source target x y) out) out) .empty) by
    rw [Nat.mul_comm]
    exact h target.2 le_rfl
  intro rows hrows
  induction rows with
  | zero =>
    rw [Nat.zero_mul]
    exact ⟨rfl, fun i hi => absurd hi (Nat.not_lt_zero i)⟩
  | succ rows ih =>
    rw [Nat.fold_succ, Nat.succ_mul]
    apply (ih (by omega)).row
    intro x hx
    rw [picked_number fit source rows hx, (sourcePixel?_eq fit hs ht hx hrows).1]

end Scaled

/-- A buffer after an image is scaled into it: the scaled image in front, then what was there. -/
structure Renders (bytes out : ByteArray) (source : Extent) (fit : Fit) (target : Extent)
    (buffer : ByteArray) : Prop where
  size_eq : buffer.size = out.size
  byte : ∀ i, byteAt buffer i =
    if i < target.1 * target.2 * 4 then shownByte bytes source.1 (picked fit source target) i
    else byteAt out i

namespace Renders

variable {bytes out buffer buffer' : ByteArray} {source target : Extent} {fit : Fit}

theorem unique (h : Renders bytes out source fit target buffer)
    (h' : Renders bytes out source fit target buffer') : buffer = buffer' :=
  ext_byteAt (h.size_eq.trans h'.size_eq.symm) fun i => (h.byte i).trans (h'.byte i).symm

/-- What is behind the scaled image stays. -/
theorem rest (h : Renders bytes out source fit target buffer) {i : Nat}
    (hi : target.1 * target.2 * 4 ≤ i) : byteAt buffer i = byteAt out i := by
  rw [h.byte, if_neg (Nat.not_lt_of_le hi)]

/-- Every pixel of the scaled image is the one that exact arithmetic picks. -/
theorem pixel (h : Renders bytes out source fit target buffer) {x y : Nat} (hx : x < target.1)
    (hy : y < target.2) :
    pixelAt buffer (y * target.1 + x) =
      shown bytes source.1 (fit.exactPixel? source target x y) := by
  have hlt := number_lt hx hy
  rw [← picked_number fit source y hx]
  apply pixelAt_eq_shown
  intro k hk
  rw [h.byte, if_pos (by omega)]

end Renders

/-- The sides fit 16 bits. -/
def IsShort (e : Extent) : Prop := e.1 < 65536 ∧ e.2 < 65536

theorem rgba_eq {e : Extent} (he : IsShort e) : Size.rgba e.1 e.2 = .ok (e.1 * e.2 * 4) := by
  have hle : e.1 * e.2 ≤ 65535 * 65535 :=
    Nat.mul_le_mul (Nat.le_of_lt_succ he.1) (Nat.le_of_lt_succ he.2)
  have hpixels : Size.mul e.1 e.2 = .ok (e.1 * e.2) :=
    Size.checked_eq_ok_iff.mpr ⟨by unfold Size.bound; omega, rfl⟩
  have hbytes : Size.mul (e.1 * e.2) 4 = .ok (e.1 * e.2 * 4) :=
    Size.checked_eq_ok_iff.mpr ⟨by unfold Size.bound; omega, rfl⟩
  rw [Size.rgba, hpixels]
  exact hbytes

section Into

variable {bytes out : ByteArray} {source target : Extent} (hs : IsShort source)
  (ht : IsShort target)

include hs ht

theorem check_eq (bytes : ByteArray) (room : Nat) :
    check bytes source target room = match refusal? bytes source target room with
      | some e => .error e
      | none => .ok () := by
  simp only [check, refusal?, rgba_eq hs, rgba_eq ht, bind, Except.bind]
  split_ifs <;> rfl

theorem into_of_refusal (fit : Fit) {e : Failure}
    (h : refusal? bytes source target out.size = some e) :
    into out bytes source fit target = .error e := by
  rw [into, check_eq hs ht, h]
  rfl

theorem into_of_accepted (fit : Fit) (h : refusal? bytes source target out.size = none) :
    into out bytes source fit target = .ok (scaled bytes source fit target ++
        out.extract (target.1 * target.2 * 4) out.size) ∧
      Renders bytes out source fit target (scaled bytes source fit target ++
        out.extract (target.1 * target.2 * 4) out.size) := by
  have hcheck := check_eq hs ht bytes out.size
  rw [h] at hcheck
  unfold refusal? at h
  split_ifs at h with hside hsource hroom
  have hsource' : IsPositive source := ⟨by omega, by omega⟩
  have htarget : IsPositive target := ⟨by omega, by omega⟩
  have hfilled := filled_scaled hsource' htarget bytes fit
  refine ⟨?_, ?_, ?_⟩
  · rw [into, hcheck, ← hfilled.size_eq]
    rfl
  · rw [ByteArray.size_append, ByteArray.size_extract, hfilled.size_eq]
    omega
  · intro i
    rw [byteAt_append, hfilled.size_eq]
    split_ifs with hi
    · exact hfilled.byte i hi
    · rw [byteAt_extract, Nat.add_sub_of_le (Nat.le_of_not_lt hi)]
      split_ifs with hin
      · rfl
      · exact (byteAt_of_size_le (Nat.le_of_not_lt hin)).symm

end Into

theorem toNat_pos {n : UInt16} (h : n ≠ 0) : 0 < n.toNat :=
  Nat.pos_of_ne_zero fun hzero => h (UInt16.toNat_inj.mp hzero)

/-- A side is zero, or the source is too short for its sides. -/
def IsInvalid (bytes : ByteArray) (source target : Extent) : Prop :=
  (source.1 = 0 ∨ source.2 = 0 ∨ target.1 = 0 ∨ target.2 = 0) ∨
    bytes.size < source.1 * source.2 * 4

section Refusal

variable {bytes : ByteArray} {source target : Extent} {room : Nat}

theorem refusal?_invalid_iff :
    (∃ what, refusal? bytes source target room = some (.invalid what)) ↔
      IsInvalid bytes source target := by
  unfold refusal? IsInvalid
  split_ifs <;> simp [*]

theorem refusal?_limit_iff :
    (∃ what, refusal? bytes source target room = some (.limit what)) ↔
      ¬IsInvalid bytes source target ∧ room < target.1 * target.2 * 4 := by
  unfold refusal? IsInvalid
  split_ifs <;> simp [*]

theorem refusal?_none_iff :
    refusal? bytes source target room = none ↔
      ¬IsInvalid bytes source target ∧ target.1 * target.2 * 4 ≤ room := by
  unfold refusal? IsInvalid
  split_ifs <;> simp [*]
  all_goals omega

theorem not_isInvalid (hs : IsPositive source) (ht : IsPositive target)
    (hsource : source.1 * source.2 * 4 ≤ bytes.size) : ¬IsInvalid bytes source target := by
  have hw := hs.width
  have hh := hs.height
  have hw' := ht.width
  have hh' := ht.height
  unfold IsInvalid
  omega

end Refusal

/-- Between sizes of one shape every fit picks the same pixels. -/
theorem picked_of_shape {source target : Extent} (hs : IsPositive source) (ht : IsPositive target)
    (hshape : source.1 * target.2 = source.2 * target.1) (fit : Fit) :
    ∀ n < target.1 * target.2, picked fit source target n = picked .fill source target n := by
  intro n hn
  exact exactPixel?_of_shape hs ht hshape fit (Nat.mod_lt n ht.width) (Nat.div_lt_of_lt_mul hn)

/-- A source is its own image. -/
theorem filled_self {bytes : ByteArray} {source : Extent} (hs : IsPositive source)
    (hsource : source.1 * source.2 * 4 ≤ bytes.size) :
    Filled bytes source.1 (picked .fill source source) (source.1 * source.2)
      (bytes.extract 0 (source.1 * source.2 * 4)) := by
  constructor
  · rw [ByteArray.size_extract]
    omega
  · intro i hi
    have hpick : picked .fill source source (i / 4) =
        some (i / 4 % source.1, i / 4 / source.1) :=
      congrArg some (proportional_self hs _ _)
    rw [byteAt_extract, Nat.zero_add, if_pos hi, shownByte, hpick]
    dsimp only
    rw [Nat.div_add_mod', Nat.div_add_mod']

/-- Between sizes of one shape every fit gives the same image. Each of its pixels is the source
pixel at the proportional position, and it is the source if the sizes are equal. -/
theorem into_of_shape (bytes out : ByteArray) (sw sh dw dh : UInt16) (hsw : sw ≠ 0) (hsh : sh ≠ 0)
    (hdw : dw ≠ 0) (hdh : dh ≠ 0) (hshape : sw.toNat * dh.toNat = sh.toNat * dw.toNat)
    (hsource : sw.toNat * sh.toNat * 4 ≤ bytes.size)
    (hroom : dw.toNat * dh.toNat * 4 ≤ out.size) :
    ∃ image : ByteArray, image.size = dw.toNat * dh.toNat * 4 ∧
      (∀ fit, into out bytes (sw.toNat, sh.toNat) fit (dw.toNat, dh.toNat) =
        .ok (image ++ out.extract (dw.toNat * dh.toNat * 4) out.size)) ∧
      (dw = sw → dh = sh → image = bytes.extract 0 (sw.toNat * sh.toNat * 4)) ∧
      ∀ x < dw.toNat, ∀ y < dh.toNat, pixelAt image (y * dw.toNat + x) =
        pixelAt bytes (y * sh.toNat / dh.toNat * sw.toNat + x * sw.toNat / dw.toNat) := by
  have hs : IsPositive (sw.toNat, sh.toNat) := ⟨toNat_pos hsw, toNat_pos hsh⟩
  have ht : IsPositive (dw.toNat, dh.toNat) := ⟨toNat_pos hdw, toNat_pos hdh⟩
  have hfill := filled_scaled hs ht bytes .fill
  refine ⟨scaled bytes (sw.toNat, sh.toNat) .fill (dw.toNat, dh.toNat), hfill.size_eq, ?_, ?_, ?_⟩
  · intro fit
    have hsame : scaled bytes (sw.toNat, sh.toNat) fit (dw.toNat, dh.toNat) =
        scaled bytes (sw.toNat, sh.toNat) .fill (dw.toNat, dh.toNat) :=
      (filled_scaled hs ht bytes fit).unique hfill (picked_of_shape hs ht hshape fit)
    have haccepted := into_of_accepted ⟨sw.toNat_lt, sh.toNat_lt⟩ ⟨dw.toNat_lt, dh.toNat_lt⟩ fit
      (refusal?_none_iff.mpr ⟨not_isInvalid hs ht hsource, hroom⟩)
    rw [haccepted.1, hsame]
  · rintro rfl rfl
    exact hfill.unique (filled_self hs hsource) fun _ _ => rfl
  · intro x hx y hy
    have hpick : picked .fill (sw.toNat, sh.toNat) (dw.toNat, dh.toNat) (y * dw.toNat + x) =
        Fit.fill.exactPixel? (sw.toNat, sh.toNat) (dw.toNat, dh.toNat) x y :=
      picked_number .fill _ y hx
    rw [hfill.pixel (number_lt hx hy), hpick]
    rfl

/-- Two pixels side by side. -/
def twoPixels : ByteArray := ⟨#[1, 2, 3, 255, 4, 5, 6, 255]⟩

/-- A buffer with one byte more than eight pixels. -/
def ninths : ByteArray := ⟨Array.replicate 33 9⟩

/-- Enlarged to twice their size, and as they are. -/
theorem into_of_shape_two :
    (∃ image : ByteArray, image.size = 32 ∧ pixelAt image 3 = pixelAt twoPixels 1 ∧
      ∀ fit, into ninths twoPixels (2, 1) fit (4, 2) = .ok (image ++ ninths.extract 32 33)) ∧
    ∀ fit, into ninths twoPixels (2, 1) fit (2, 1) = .ok (twoPixels ++ ninths.extract 8 33) := by
  obtain ⟨image, hsize, hinto, -, hpixel⟩ := into_of_shape twoPixels ninths 2 1 4 2 (by decide)
    (by decide) (by decide) (by decide) (by decide) (by decide) (by decide)
  obtain ⟨copy, -, hself, hcopy, -⟩ := into_of_shape twoPixels ninths 2 1 2 1 (by decide)
    (by decide) (by decide) (by decide) (by decide) (by decide) (by decide)
  refine ⟨⟨image, hsize, hpixel 3 (by decide) 0 (by decide), hinto⟩, ?_⟩
  rw [hcopy rfl rfl] at hself
  exact hself

end CellCanvas.Scale
