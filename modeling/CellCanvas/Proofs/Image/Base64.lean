import CellCanvas.Image.Base64
import Mathlib.Tactic

/-!
# Reading base64

Reading the written form of bytes gives the bytes back. The block-wise writer writes what the plain
one does, because a block is a whole number of groups.
-/

namespace CellCanvas

theorem extract_of_size_le {bytes : ByteArray} {n : Nat} (h : bytes.size ≤ n) :
    bytes.extract 0 n = bytes := by
  ext1
  simp [Array.extract_eq_self_of_le, h]

namespace Base64

/-- Whether a character may stand in a written form. -/
def isSymbol (c : Char) : Bool := (value? c).isSome || c == '='

theorem value?_symbol {n : Nat} (h : n < 64) : value? (symbol n) = some n := by
  have hall : ∀ n < 64, value? (symbol n) = some n := by decide
  exact hall n h

theorem symbol_ne {n : Nat} (h : n < 64) : symbol n ≠ '=' := by
  intro heq
  have hv := value?_symbol h
  rw [heq] at hv
  cases hv

theorem isSymbol_symbol {n : Nat} (h : n < 64) : isSymbol (symbol n) = true := by
  simp [isSymbol, value?_symbol h]

/-- Three bytes are a number below `2 ^ 24`. -/
theorem lt_group (a b c : UInt8) : a.toNat * 65536 + b.toNat * 256 + c.toNat < 16777216 := by
  have ha := a.toNat_lt
  have hb := b.toNat_lt
  have hc := c.toNat_lt
  omega

theorem isSymbol_of_mem_encodeList {bs : List UInt8} {c : Char} (h : c ∈ encodeList bs) :
    isSymbol c = true := by
  have hmod (n : Nat) : isSymbol (symbol (n % 64)) = true :=
    isSymbol_symbol (Nat.mod_lt n (by decide))
  have hfirst {n : Nat} (hn : n < 16777216) : isSymbol (symbol (n / 262144)) = true :=
    isSymbol_symbol (by omega)
  have hpad : isSymbol '=' = true := by decide
  induction bs using encodeList.induct with
  | case1 => cases h
  | case2 a =>
    have ha := a.toNat_lt
    simp only [encodeList, List.mem_cons, List.not_mem_nil, or_false] at h
    rcases h with rfl | rfl | rfl | rfl
    · exact hfirst (by omega)
    · exact hmod _
    · exact hpad
    · exact hpad
  | case3 a b =>
    have ha := a.toNat_lt
    have hb := b.toNat_lt
    simp only [encodeList, List.mem_cons, List.not_mem_nil, or_false] at h
    rcases h with rfl | rfl | rfl | rfl
    · exact hfirst (by omega)
    · exact hmod _
    · exact hmod _
    · exact hpad
  | case4 a b d rest ih =>
    simp only [encodeList, List.mem_cons] at h
    rcases h with rfl | rfl | rfl | rfl | h
    · exact hfirst (lt_group a b d)
    · exact hmod _
    · exact hmod _
    · exact hmod _
    · exact ih h

/-- A whole number of groups is written independently of what follows. -/
theorem encodeList_append {as bs : List UInt8} (h : as.length % 3 = 0) :
    encodeList (as ++ bs) = encodeList as ++ encodeList bs := by
  induction as using encodeList.induct with
  | case1 => rfl
  | case2 a => simp at h
  | case3 a b => simp at h
  | case4 a b c rest ih =>
    simp only [List.length_cons] at h
    simp only [List.cons_append, encodeList, ih (by omega)]

theorem toList_eq (bytes : ByteArray) : bytes.toList = bytes.data.toList := by
  have hloop (i : Nat) (before : List UInt8) :
      ByteArray.toList.loop bytes i before = before.reverse ++ bytes.data.toList.drop i := by
    induction i, before using ByteArray.toList.loop.induct bytes with
    | case1 i before hi ih =>
      have hi' : i < bytes.data.toList.length := by simpa using hi
      have hget : bytes.get! i = bytes.data.toList[i] := by
        simp [ByteArray.get!, getElem!_pos bytes.data i (by simpa using hi)]
      rw [ByteArray.toList.loop, if_pos hi, ih, List.drop_eq_getElem_cons hi', hget]
      simp
    | case2 i before hi =>
      rw [ByteArray.toList.loop, if_neg hi, List.drop_eq_nil_of_le (by simpa using hi)]
      simp
  rw [ByteArray.toList, hloop]
  simp

/-- Blocks of whole groups can be written one by one. -/
theorem flatMap_encodeList_blocks {block : Nat} (h : 3 ∣ block) (bytes : ByteArray) (count : Nat) :
    (List.range count).flatMap (fun i =>
        encodeList (bytes.extract (i * block) ((i + 1) * block)).data.toList) =
      encodeList (bytes.extract 0 (count * block)).data.toList := by
  induction count with
  | zero => simp [encodeList]
  | succ n ih =>
    have hsplit : bytes.extract 0 ((n + 1) * block) = bytes.extract 0 (n * block) ++
        bytes.extract (n * block) ((n + 1) * block) :=
      ByteArray.extract_eq_extract_append_extract _ (Nat.zero_le _)
        (Nat.mul_le_mul_right _ (Nat.le_succ n))
    rw [List.range_succ, List.flatMap_append, ih, List.flatMap_singleton, hsplit,
      ByteArray.toList_data_append]
    by_cases hn : n * block ≤ bytes.size
    · rw [encodeList_append]
      have hlen : (bytes.extract 0 (n * block)).data.toList.length = n * block := by simp [hn]
      rw [hlen]
      exact Nat.mod_eq_zero_of_dvd (h.mul_left n)
    · -- Behind the end there is nothing to write.
      have hempty : bytes.extract (n * block) ((n + 1) * block) = .empty := by
        simp only [ByteArray.extract_eq_empty_iff]
        omega
      simp [hempty, encodeList]

theorem toList_encode (bytes : ByteArray) :
    (encode bytes).toList = encodeList bytes.data.toList := by
  have hcover : bytes.size ≤ (bytes.size + blockBytes - 1) / blockBytes * blockBytes := by
    unfold blockBytes
    omega
  rw [encode, String.toList_join, List.flatMap_map]
  simp only [String.toList_ofList, toList_eq]
  rw [flatMap_encodeList_blocks (by decide), extract_of_size_le hcover]

/-- Every group of three bytes, also a last one that is not full, has four characters. -/
theorem length_encodeList (bs : List UInt8) :
    (encodeList bs).length = (bs.length + 2) / 3 * 4 := by
  induction bs using encodeList.induct with
  | case1 => rfl
  | case2 a => simp [encodeList]
  | case3 a b => simp [encodeList]
  | case4 a b c rest ih =>
    simp only [encodeList, List.length_cons, ih]
    omega

theorem isSymbol_of_mem_encode {bytes : ByteArray} {c : Char} (h : c ∈ (encode bytes).toList) :
    isSymbol c = true := by
  rw [toList_encode] at h
  exact isSymbol_of_mem_encodeList h

/-- The four parts of a number below `2 ^ 24` make it up again. -/
theorem group_eq {n : Nat} (h : n < 16777216) :
    ((n / 262144 * 64 + n / 4096 % 64) * 64 + n / 64 % 64) * 64 + n % 64 = n := by
  omega

theorem ofNat_of_mod {n : Nat} {a : UInt8} (h : n % 256 = a.toNat) : UInt8.ofNat n = a := by
  apply UInt8.toNat_inj.mp
  rw [UInt8.toNat_ofNat', ← h]

theorem push_append (out : ByteArray) (a : UInt8) (bs : List UInt8) :
    out.push a ++ bs.toByteArray = out ++ (a :: bs).toByteArray := by
  ext1
  simp [List.data_toByteArray]

theorem value?_symbol_mod (n : Nat) : value? (symbol (n % 64)) = some (n % 64) :=
  value?_symbol (Nat.mod_lt n (by decide))

theorem symbol_mod_ne (n : Nat) : symbol (n % 64) ≠ '=' :=
  symbol_ne (Nat.mod_lt n (by decide))

theorem value?_symbol_div {n : Nat} (h : n < 16777216) :
    value? (symbol (n / 262144)) = some (n / 262144) :=
  value?_symbol (by omega)

section Symbols

variable {x y z t : Char} {i j k l : Nat} (out : ByteArray)

theorem decodeFrom?_two_symbols (hx : value? x = some i) (hy : value? y = some j)
    (h : (i * 64 + j) % 16 = 0) :
    decodeFrom? out [x, y, '=', '='] = some (out.push (.ofNat ((i * 64 + j) / 16))) := by
  rw [decodeFrom?, hx, hy]
  exact if_pos h

theorem decodeFrom?_three_symbols (hx : value? x = some i) (hy : value? y = some j)
    (hz : value? z = some k) (hpad : z ≠ '=') (h : ((i * 64 + j) * 64 + k) % 4 = 0) :
    decodeFrom? out [x, y, z, '='] =
      some ((out.push (.ofNat (((i * 64 + j) * 64 + k) / 1024))).push
        (.ofNat (((i * 64 + j) * 64 + k) / 4))) := by
  rw [decodeFrom?, hx, hy, hz]
  · exact if_pos h
  · exact fun heq => absurd heq hpad

theorem decodeFrom?_four_symbols (hx : value? x = some i) (hy : value? y = some j)
    (hz : value? z = some k) (ht : value? t = some l) (hpad : t ≠ '=') (rest : List Char) :
    decodeFrom? out (x :: y :: z :: t :: rest) =
      decodeFrom? (((out.push (.ofNat ((((i * 64 + j) * 64 + k) * 64 + l) / 65536))).push
        (.ofNat ((((i * 64 + j) * 64 + k) * 64 + l) / 256))).push
          (.ofNat (((i * 64 + j) * 64 + k) * 64 + l))) rest := by
  rw [decodeFrom?, hx, hy, hz, ht]
  · rfl
  · exact fun _ heq => absurd heq hpad
  · exact fun heq => absurd heq hpad

end Symbols

/-- The last group has one byte. -/
theorem decodeFrom?_one (out : ByteArray) (a : UInt8) :
    decodeFrom? out (encodeList [a]) = some (out.push a) := by
  have ha := a.toNat_lt
  rw [encodeList, decodeFrom?_two_symbols out (value?_symbol_div (by omega))
    (value?_symbol_mod _) (by omega), ofNat_of_mod (a := a) (by omega)]

/-- The last group has two bytes. -/
theorem decodeFrom?_two (out : ByteArray) (a b : UInt8) :
    decodeFrom? out (encodeList [a, b]) = some ((out.push a).push b) := by
  have ha := a.toNat_lt
  have hb := b.toNat_lt
  rw [encodeList, decodeFrom?_three_symbols out (value?_symbol_div (by omega))
    (value?_symbol_mod _) (value?_symbol_mod _) (symbol_mod_ne _) (by omega),
    ofNat_of_mod (a := a) (by omega), ofNat_of_mod (a := b) (by omega)]

/-- A whole group, whatever follows. -/
theorem decodeFrom?_group (out : ByteArray) (a b c : UInt8) (rest : List UInt8) :
    decodeFrom? out (encodeList (a :: b :: c :: rest)) =
      decodeFrom? (((out.push a).push b).push c) (encodeList rest) := by
  have hn := lt_group a b c
  have ha := a.toNat_lt
  have hb := b.toNat_lt
  have hc := c.toNat_lt
  rw [encodeList, decodeFrom?_four_symbols out (value?_symbol_div hn) (value?_symbol_mod _)
    (value?_symbol_mod _) (value?_symbol_mod _) (symbol_mod_ne _), group_eq hn,
    ofNat_of_mod (a := a) (by omega), ofNat_of_mod (a := b) (by omega),
    ofNat_of_mod (a := c) (by omega)]

theorem decodeFrom?_encodeList (out : ByteArray) (bs : List UInt8) :
    decodeFrom? out (encodeList bs) = some (out ++ bs.toByteArray) := by
  induction bs using encodeList.induct generalizing out with
  | case1 => simp [encodeList, decodeFrom?]
  | case2 a =>
    rw [decodeFrom?_one, ← push_append]
    simp
  | case3 a b =>
    rw [decodeFrom?_two, ← push_append, ← push_append]
    simp
  | case4 a b c rest ih =>
    rw [decodeFrom?_group, ih, push_append, push_append, push_append]

/-- Reading the written form of bytes adds the bytes. -/
theorem decodeFrom?_encode (out bytes : ByteArray) :
    decodeFrom? out (encode bytes).toList = some (out ++ bytes) := by
  have hbytes : bytes.data.toList.toByteArray = bytes := by
    ext1
    simp
  rw [toList_encode, decodeFrom?_encodeList, hbytes]

theorem decode?_encode (bytes : ByteArray) : decode? (encode bytes) = some bytes := by
  rw [decode?, decodeFrom?_encode, ByteArray.empty_append]

end Base64

end CellCanvas
