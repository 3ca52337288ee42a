import CellCanvas.Proofs.Image.Limits
import Mathlib.Algebra.Order.Floor.Div

/-!
# The sequences of a picture

A picture that is transmitted in chunks can be put together again, whatever the length of the
chunks: the first sequence names it, every one but the last says that more follow, and the payloads,
each read on its own, are its bytes in order. Chunks of whole groups even join to the base64 form of
the picture.
-/

namespace CellCanvas

open Wire Text

namespace Kitty

/-- A graphics sequence with a payload. -/
structure Parcel where
  control : List Char
  payload : List Char

/-- The parcel that a token is. -/
def parcel? : Token → Option Parcel
  | .string '_' ('G' :: body) => match pieces ';' body with
    | [control, payload] => some ⟨control, payload⟩
    | _ => none
  | _ => none

/-- The parcels of a text that consists of parcels only. -/
def parcels? (text : String) : Option (List Parcel) :=
  match scan .ground text.toList with
  | (.ground, tokens) => tokens.mapM parcel?
  | _ => none

/-- The payloads of parcels, read one by one and joined. -/
def contents? (parcels : List Parcel) : Option ByteArray :=
  (parcels.mapM fun p => Base64.decodeFrom? .empty p.payload).map fun parts =>
    parts.foldl (· ++ ·) .empty

/-- The parcels of a picture with these bytes, in chunks of `length` bytes. -/
structure Transmits (id w h length : Nat) (bytes : ByteArray) (parcels : List Parcel) : Prop where
  /-- There are as many parcels as are needed. -/
  count : parcels.length = bytes.size ⌈/⌉ length
  /-- The first parcel, and no other, has the number of the picture. -/
  number : ∀ i (hi : i < parcels.length),
    number? parcels[i].control 'i' = if i = 0 then some id else none
  width : ∀ i (hi : i < parcels.length),
    number? parcels[i].control 's' = if i = 0 then some w else none
  height : ∀ i (hi : i < parcels.length),
    number? parcels[i].control 'v' = if i = 0 then some h else none
  /-- Every parcel but the last says that more follow. -/
  more : ∀ i (hi : i < parcels.length),
    field? parcels[i].control 'm' = some (if i + 1 < parcels.length then ['1'] else ['0'])
  contents : contents? parcels = some bytes
  /-- Chunks of whole groups join to the written form of all bytes. -/
  joined : 3 ∣ length → parcels.flatMap Parcel.payload = (Base64.encode bytes).toList
  /-- The usual chunks have the greatest length that a sequence may carry. -/
  short : length = defaultChunk → ∀ p ∈ parcels, p.payload.length ≤ 4096

section Chunks

variable {id w h count length : Nat} {bytes : ByteArray}

/-- Sequence `i` of a picture. -/
def chunkParcel (id w h count length : Nat) (bytes : ByteArray) (i : Nat) : Parcel :=
  ⟨control (chunkFields id w h count i), (Base64.encode (chunk bytes length i)).toList⟩

theorem parcel?_chunkToken (i : Nat) :
    parcel? (chunkToken id w h count length bytes i) =
      some (chunkParcel id w h count length bytes i) := by
  simp only [chunkToken, parcel?, pieces_payload (areFields_chunkFields i), chunkParcel]

theorem mapM_eq_some {α β : Type} {f : α → Option β} {g : α → β} (h : ∀ a, f a = some (g a))
    (as : List α) : as.mapM f = some (as.map g) := by
  induction as with
  | nil => rfl
  | cons a as ih => simp [List.mapM_cons, h, ih]

/-- The texts of sequences are read as their parcels. -/
theorem parcels?_join (is : List Nat) :
    parcels? (String.join (is.map (chunkText id w h count length bytes))) =
      some (is.map (chunkParcel id w h count length bytes)) := by
  have hspells : Spells (String.join (is.map (chunkText id w h count length bytes))).toList
      (is.map (chunkToken id w h count length bytes)) := by
    rw [String.toList_join, List.flatMap_map, List.map_eq_flatMap]
    exact Spells.flatMap fun i _ => spells_chunkText i
  unfold Spells at hspells
  rw [parcels?, hspells]
  dsimp only
  rw [List.mapM_map]
  exact mapM_eq_some parcel?_chunkToken is

/-- Chunks in order make up the bytes. -/
theorem foldl_chunk (n : Nat) :
    ((List.range n).map (chunk bytes length)).foldl (· ++ ·) .empty =
      bytes.extract 0 (n * length) := by
  induction n with
  | zero => simp
  | succ n ih =>
    rw [List.range_succ, List.map_append, List.foldl_append, ih]
    exact (ByteArray.extract_eq_extract_append_extract _ (Nat.zero_le _)
      (Nat.mul_le_mul_right _ (Nat.le_succ n))).symm

theorem contents?_chunkParcel (is : List Nat) :
    contents? (is.map (chunkParcel id w h count length bytes)) =
      some ((is.map (chunk bytes length)).foldl (· ++ ·) .empty) := by
  have hread (i : Nat) : Base64.decodeFrom? .empty
      (chunkParcel id w h count length bytes i).payload = some (chunk bytes length i) := by
    rw [chunkParcel, Base64.decodeFrom?_encode, ByteArray.empty_append]
  rw [contents?, List.mapM_map]
  exact congrArg _ (mapM_eq_some hread is)

/-- The first sequence has the number and the size of the picture, the others do not. -/
theorem number?_chunkParcel (i : Nat) (key : Char) (n : Nat)
    (hkey : (key, n) ∈ [('i', id), ('s', w), ('v', h)]) :
    number? (chunkParcel id w h count length bytes i).control key =
      if i = 0 then some n else none := by
  rw [number?, chunkParcel, field?_control (areFields_chunkFields i), chunkFields]
  simp only [List.mem_cons, Prod.mk.injEq, List.not_mem_nil, or_false] at hkey
  split_ifs
  · rcases hkey with ⟨rfl, rfl⟩ | ⟨rfl, rfl⟩ | ⟨rfl, rfl⟩ <;> simp [List.lookup]
  · rcases hkey with ⟨rfl, rfl⟩ | ⟨rfl, rfl⟩ | ⟨rfl, rfl⟩ <;> rfl

theorem field?_more (i : Nat) :
    field? (chunkParcel id w h count length bytes i).control 'm' = some (moreMark count i) := by
  rw [chunkParcel, field?_control (areFields_chunkFields i), chunkFields]
  split_ifs <;> rfl

theorem length_payload_le (i : Nat) :
    (chunkParcel id w h count length bytes i).payload.length ≤ (length + 2) / 3 * 4 := by
  have hsize : (chunk bytes length i).data.toList.length ≤ length := by
    have hbounds : (i + 1) * length = i * length + length := Nat.succ_mul i length
    simp only [chunk, Array.length_toList, ByteArray.size_data, ByteArray.size_extract]
    omega
  rw [chunkParcel, Base64.toList_encode, Base64.length_encodeList]
  omega

theorem transmits_chunkParcel (hlength : 0 < length) (hcount : count = bytes.size ⌈/⌉ length) :
    Transmits id w h length bytes
      ((List.range count).map (chunkParcel id w h count length bytes)) := by
  have hcover : bytes.size ≤ count * length := by
    rw [hcount, Nat.mul_comm]
    exact le_smul_ceilDiv hlength
  have hget (i : Nat) (hi : i < ((List.range count).map
      (chunkParcel id w h count length bytes)).length) :
      ((List.range count).map (chunkParcel id w h count length bytes))[i] =
        chunkParcel id w h count length bytes i := by
    simp
  constructor
  case count => simpa using hcount
  case number =>
    intro i hi
    rw [hget, number?_chunkParcel i 'i' id (by simp)]
  case width =>
    intro i hi
    rw [hget, number?_chunkParcel i 's' w (by simp)]
  case height =>
    intro i hi
    rw [hget, number?_chunkParcel i 'v' h (by simp)]
  case more =>
    intro i hi
    rw [hget, field?_more, List.length_map, List.length_range]
    rfl
  case contents => rw [contents?_chunkParcel, foldl_chunk, extract_of_size_le hcover]
  case joined =>
    intro hdvd
    simp only [List.flatMap_map, chunkParcel, chunk, Base64.toList_encode]
    rw [Base64.flatMap_encodeList_blocks hdvd, extract_of_size_le hcover]
  case short =>
    rintro rfl p hp
    obtain ⟨i, -, rfl⟩ := List.mem_map.mp hp
    exact length_payload_le i

/-- A picture with a number, sides and bytes enough can be transmitted. -/
theorem payload_eq_ok {pixels : ByteArray} {columns rows : Nat} (hid : id ≠ 0) (hw : 0 < w)
    (hh : 0 < h) (hcolumns : 0 < columns) (hrows : 0 < rows) (hlength : 0 < length)
    (hw' : w < 65536) (hh' : h < 65536) (hsize : w * h * 4 ≤ pixels.size) :
    payload id pixels w h columns rows length = .ok (pixels.extract 0 (w * h * 4)) := by
  have hsides : ¬(w = 0 ∨ h = 0 ∨ columns = 0 ∨ rows = 0 ∨ length = 0) := by omega
  rw [payload, if_neg hid, if_neg hsides, Size.rgba_eq hw' hh']
  exact if_neg (Nat.not_lt.mpr hsize)

theorem chunkCount_le (size : Nat) (hlength : 0 < length) : chunkCount size length ≤ size := by
  have hle := Nat.le_mul_of_pos_left size hlength
  apply Nat.le_of_lt_succ
  apply Nat.div_lt_of_lt_mul
  rw [Nat.mul_succ]
  omega

/-- The buffer for the written form of a chunk can be reserved: it is small enough, or its size
wraps, since it leaves its word and sums are not checked. -/
def IsReservable (checked : Bool) (length : UInt64) : Prop :=
  length.toNat / 3 * 4 + 4 ≤ Size.largestBuffer ∨
    checked = false ∧ Size.bound ≤ length.toNat / 3 * 4 + 4

/-- A size that wraps is that of a small buffer. -/
theorem written_le_iff (checked : Bool) (length : UInt64) :
    (if checked then length.toNat / 3 * 4 + 4 else (length.toNat / 3 * 4 + 4) % Size.bound) ≤
      Size.largestBuffer ↔ IsReservable checked length := by
  have hword := length.toNat_lt
  unfold IsReservable Size.largestBuffer Size.bound
  cases checked with
  | false =>
    simp only [Bool.false_eq_true, if_false, true_and]
    omega
  | true => simp

/-- The buffer for all sequences is small enough for every picture with 16-bit sides, so that only
the one for the written form of a chunk matters. -/
theorem reservations_le_iff {length : UInt64} (checked : Bool) (hw : w < 65536) (hh : h < 65536)
    (hlength : 0 < length.toNat) :
    (∀ n ∈ reservations checked (w * h * 4) length.toNat, n ≤ Size.largestBuffer) ↔
      IsReservable checked length := by
  have harea : w * h < 65536 * 65536 := Nat.mul_lt_mul_of_lt_of_lt hw hh
  have hcount := chunkCount_le (w * h * 4) hlength
  have hsequences :
      w * h * 4 / 3 * 4 + chunkCount (w * h * 4) length.toNat * 48 ≤ Size.largestBuffer := by
    unfold Size.largestBuffer
    omega
  rw [reservations, List.forall_mem_cons, List.forall_mem_singleton, written_le_iff]
  exact and_iff_right hsequences

end Chunks

/-- Chunks of the usual length are always transmitted. -/
theorem transmitChunked?_defaultChunk {w h : Nat} (hw : w < 65536) (hh : h < 65536)
    (checked : Bool) (id : Nat) (pixels : ByteArray) (columns rows : Nat) :
    transmitChunked? checked id pixels w h columns rows 3072 =
      some (transmit id pixels w h columns rows) := by
  have hchunk : UInt64.toNat 3072 = defaultChunk := rfl
  rw [transmitChunked?, transmit, hchunk]
  cases hbytes : payload id pixels w h columns rows defaultChunk with
  | error e => rfl
  | ok bytes =>
    obtain ⟨-, hlength, hsize, -⟩ := payload_ok hbytes
    have hfits := (@reservations_le_iff w h 3072 checked hw hh hlength).mpr (.inl (by decide))
    rw [← hsize] at hfits
    exact if_pos hfits

/-- A picture with a number that is not zero, with sides and an area of cells that are not empty and
with bytes enough is transmitted in chunks of any length for whose written form a buffer can be
reserved: as parcels from which it can be put together again, in a text that an output takes whole
if there is room, and else not at all. In other chunks it is not transmitted, however small it
is. -/
theorem transmit_recovers {id w h columns rows : Nat} {length : UInt64} {pixels : ByteArray}
    (checked : Bool) (number : id ≠ 0) (width : 0 < w ∧ w < 65536) (height : 0 < h ∧ h < 65536)
    (area : 0 < columns ∧ 0 < rows) (chunks : 0 < length.toNat)
    (enough : w * h * 4 ≤ pixels.size) :
    (IsReservable checked length →
      ∃ text parcels, transmitChunked? checked id pixels w h columns rows length =
          some (.ok text) ∧
        parcels? text = some parcels ∧
          Transmits id w h length.toNat (pixels.extract 0 (w * h * 4)) parcels ∧
            ∀ output : Output, output.offer (.ok text) =
              if text.toUTF8.size ≤ output.remaining then (output.push text.toUTF8, none)
              else (output, some (.limit .output))) ∧
      (¬ IsReservable checked length →
        transmitChunked? checked id pixels w h columns rows length = none) := by
  have hbytes := payload_eq_ok number width.1 height.1 area.1 area.2 chunks width.2 height.2 enough
  have hsize : (pixels.extract 0 (w * h * 4)).size = w * h * 4 := by simp [enough]
  have hfits := reservations_le_iff checked width.2 height.2 chunks
  rw [← hsize] at hfits
  unfold transmitChunked?
  rw [hbytes]
  dsimp only
  refine ⟨fun hroom => ?_, fun hroom => if_neg (hfits.not.mpr hroom)⟩
  exact ⟨_, _, if_pos (hfits.mpr hroom), parcels?_join _, transmits_chunkParcel chunks rfl,
    fun output => output.offer_ok _⟩

/-- A pixel and a byte too many. -/
def pixelAndMore : ByteArray := ⟨#[1, 2, 3, 4, 5]⟩

/-- One pixel in two chunks, of which the second has a single byte. -/
theorem transmit_recovers_one_pixel :
    ∃ text parcels, transmitChunked? true 7 pixelAndMore 1 1 2 1 3 = some (.ok text) ∧
      parcels? text = some parcels ∧
        Transmits 7 1 1 3 (pixelAndMore.extract 0 (1 * 1 * 4)) parcels ∧
          ∀ output : Output, output.offer (.ok text) =
            if text.toUTF8.size ≤ output.remaining then (output.push text.toUTF8, none)
            else (output, some (.limit .output)) :=
  (@transmit_recovers 7 1 1 2 1 3 pixelAndMore true (by decide) (by decide) (by decide) (by decide)
    (by decide) (by decide)).1 (.inl (by decide))

/-- Whether sums are checked or not, not even one pixel is transmitted in chunks of `2 ^ 63`
bytes. -/
theorem longest_chunks_not_transmitted :
    ¬ ∃ checked, ∀ length : UInt64, 0 < length.toNat →
      (transmitChunked? checked 7 pixelAndMore 1 1 2 1 length).isSome = true := by
  rintro ⟨checked, hclaim⟩
  have hsome := hclaim 9223372036854775808 (by decide)
  have hnone : transmitChunked? checked 7 pixelAndMore 1 1 2 1 9223372036854775808 = none := by
    cases checked <;> decide +kernel
  rw [hnone] at hsome
  cases hsome

end Kitty

end CellCanvas
