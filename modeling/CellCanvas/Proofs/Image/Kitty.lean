import CellCanvas.Proofs.Except
import CellCanvas.Proofs.Image.Graphics

/-!
# The requests of graphics sequences

What is written to transmit, place or delete an image is read as that request. A picture that takes
several sequences is read back whole, whatever the length of its parts.
-/

namespace CellCanvas

open Wire Text

theorem Size.eq_of_rgba {w h size : Nat} (hsize : rgba w h = .ok size) : size = w * h * 4 := by
  obtain ⟨area, harea, hsize⟩ := exists_of_bind_eq_ok hsize
  obtain ⟨-, rfl⟩ := checked_eq_ok_iff.mp harea
  exact (checked_eq_ok_iff.mp hsize).2

/-- The bytes of a raster with 16-bit sides can be counted. -/
theorem Size.rgba_eq {w h : Nat} (hw : w < 65536) (hh : h < 65536) :
    rgba w h = .ok (w * h * 4) := by
  have harea : w * h < 65536 * 65536 := Nat.mul_lt_mul_of_lt_of_lt hw hh
  rw [rgba, mul, checked_eq_ok_iff.mpr ⟨harea.trans (by decide), rfl⟩]
  exact checked_eq_ok_iff.mpr ⟨by unfold bound; omega, rfl⟩

namespace Kitty

/-- The fields of a request to place an image. -/
def placeFields (id columns rows : Nat) (z : Int) : List (Char × List Char) :=
  [('a', ['p']), ('i', numeral id), ('c', numeral columns), ('r', numeral rows),
    ('z', (toString z).toList)]

theorem areFields_placeFields (id columns rows : Nat) (z : Int) :
    AreFields (placeFields id columns rows z) := by
  intro f hf
  simp only [placeFields, List.mem_cons, List.not_mem_nil, or_false] at hf
  rcases hf with rfl | rfl | rfl | rfl | rfl
  · exact ⟨by decide, by decide⟩
  · exact ⟨rfl, all_numeral _⟩
  · exact ⟨rfl, all_numeral _⟩
  · exact ⟨rfl, all_numeral _⟩
  · exact ⟨rfl, all_toString z⟩

theorem carries_place {id column row columns rows : Nat} {z : Int} {text : String}
    (h : place id column row columns rows z = .ok text) :
    Carries text [.place id ⟨column, row, columns, rows, z⟩] := by
  have hfields := areFields_placeFields id columns rows z
  obtain ⟨body, hbody, htext⟩ : ∃ body : String,
      body.toList = control (placeFields id columns rows z) ∧
        text = (Command.cursorTo column row).encode ++ sequence body := by
    unfold place at h
    by_cases hid : id = 0
    · rw [if_pos hid] at h
      cases h
    · by_cases harea : columns = 0 ∨ rows = 0
      · rw [if_neg hid, if_pos harea] at h
        cases h
      · rw [if_neg hid, if_neg harea] at h
        injection h with h
        refine ⟨_, ?_, h.symm⟩
        simp only [String.toList_append, toList_toString, control, placeFields]
        simp
  refine ⟨(Command.cursorTo column row).tokens ++ [.string '_' ('G' :: body.toList)], ?_, ?_⟩
  · rw [htext, String.toList_append]
    apply (Command.spells_encode (.cursorTo column row) trivial).append
    exact spells_sequence (isSafeText_of_control hfields hbody)
  · intro cursor
    refine ⟨(column, row), ?_⟩
    have hget := field?_control hfields
    have haction : field? (control (placeFields id columns rows z)) 'a' = some ['p'] := hget 'a'
    have hid : field? (control (placeFields id columns rows z)) 'i' = some (numeral id) := hget 'i'
    have hcolumns : field? (control (placeFields id columns rows z)) 'c' = some (numeral columns) :=
      hget 'c'
    have hrows : field? (control (placeFields id columns rows z)) 'r' = some (numeral rows) :=
      hget 'r'
    have hz : field? (control (placeFields id columns rows z)) 'z' = some (toString z).toList :=
      hget 'z'
    rw [Reader.readAll_append, read_cursorTo, Option.bind_some, hbody, Reader.readAll,
      read_control hfields, Reader.obey, haction]
    simp [Reader.readAll, placed?, number?, hid, hcolumns, hrows, hz]
    exact integer_toString z

/-- The fields of a request to delete an image. -/
def deleteFields (id : Nat) : List (Char × List Char) :=
  [('a', ['d']), ('d', ['i']), ('i', numeral id)]

theorem areFields_deleteFields (id : Nat) : AreFields (deleteFields id) := by
  intro f hf
  simp only [deleteFields, List.mem_cons, List.not_mem_nil, or_false] at hf
  rcases hf with rfl | rfl | rfl
  · exact ⟨by decide, by decide⟩
  · exact ⟨by decide, by decide⟩
  · exact ⟨rfl, all_numeral _⟩

theorem carries_delete {id : Nat} {text : String} (h : delete id = .ok text) :
    Carries text [.delete id] := by
  have hfields := areFields_deleteFields id
  obtain ⟨body, hbody, htext⟩ : ∃ body : String,
      body.toList = control (deleteFields id) ∧ text = sequence body := by
    unfold delete at h
    by_cases hid : id = 0
    · rw [if_pos hid] at h
      cases h
    · rw [if_neg hid] at h
      injection h with h
      refine ⟨_, ?_, h.symm⟩
      simp only [String.toList_append, toList_toString, control, deleteFields]
      simp
  refine ⟨[.string '_' ('G' :: body.toList)], ?_, ?_⟩
  · rw [htext]
    exact spells_sequence (isSafeText_of_control hfields hbody)
  · intro cursor
    refine ⟨cursor, ?_⟩
    have hget := field?_control hfields
    have haction : field? (control (deleteFields id)) 'a' = some ['d'] := hget 'a'
    have hwhat : field? (control (deleteFields id)) 'd' = some ['i'] := hget 'd'
    have hid : field? (control (deleteFields id)) 'i' = some (numeral id) := hget 'i'
    rw [hbody, Reader.readAll, read_control hfields, Reader.obey, haction]
    simp [Reader.readAll, deleted?, number?, hwhat, hid]

section Transmit

variable {id w h length count : Nat} {pixels : ByteArray}

/-- Whether more sequences follow the one with number `i`. -/
def moreMark (count i : Nat) : List Char := if i + 1 < count then ['1'] else ['0']

/-- The fields of sequence `i` of a picture. -/
def chunkFields (id w h count i : Nat) : List (Char × List Char) :=
  if i = 0 then
    [('a', ['t']), ('f', ['3', '2']), ('s', numeral w), ('v', numeral h), ('i', numeral id),
      ('m', moreMark count i)]
  else [('m', moreMark count i)]

theorem all_moreMark (i : Nat) : (moreMark count i).all isValueChar = true := by
  unfold moreMark
  split_ifs
  · decide
  · decide

theorem areFields_chunkFields (i : Nat) : AreFields (chunkFields id w h count i) := by
  intro f hf
  unfold chunkFields at hf
  split_ifs at hf
  · simp only [List.mem_cons, List.not_mem_nil, or_false] at hf
    rcases hf with rfl | rfl | rfl | rfl | rfl | rfl
    · exact ⟨by decide, by decide⟩
    · exact ⟨by decide, by decide⟩
    · exact ⟨rfl, all_numeral _⟩
    · exact ⟨rfl, all_numeral _⟩
    · exact ⟨rfl, all_numeral _⟩
    · exact ⟨rfl, all_moreMark i⟩
  · rw [List.mem_singleton.mp hf]
    exact ⟨rfl, all_moreMark i⟩

theorem toList_chunkControl (i : Nat) :
    (chunkControl id w h count i).toList = control (chunkFields id w h count i) := by
  have hmore : (if i + 1 < count then "1" else "0").toList = moreMark count i := by
    unfold moreMark
    split_ifs <;> rfl
  unfold chunkControl chunkFields
  by_cases hfirst : i = 0
  · rw [if_pos hfirst, if_pos hfirst]
    simp only [String.toList_append, toList_toString, hmore, control]
    simp
  · rw [if_neg hfirst, if_neg hfirst, String.toList_append, hmore]
    rfl

/-- Sequence `i` of a picture as a token. -/
def chunkToken (id w h count length : Nat) (pixels : ByteArray) (i : Nat) : Token :=
  .string '_' ('G' :: (control (chunkFields id w h count i)
    ++ ';' :: (Base64.encode (chunk pixels length i)).toList))

/-- What has been read before sequence `i` of a picture. -/
def readBefore (cursor : Nat × Nat) (id w h length : Nat) (pixels : ByteArray) (i : Nat) : Reader :=
  ⟨cursor, if i = 0 then none else some ⟨id, w, h, pixels.extract 0 (i * length)⟩⟩

theorem take_chunk (id : Nat) {i : Nat} (hsize : pixels.size = w * h * 4) (hi : i < count)
    (hcover : pixels.size ≤ count * length) (control : List Char)
    (hmore : field? control 'm' = some (moreMark count i)) :
    Upload.take ⟨id, w, h, pixels.extract 0 (i * length)⟩ control
        (Base64.encode (chunk pixels length i)).toList =
      if i + 1 < count then
        some (some ⟨id, w, h, pixels.extract 0 ((i + 1) * length)⟩, [])
      else some (none, [.transmit id ⟨pixels, w, h⟩]) := by
  have hjoin : pixels.extract 0 (i * length) ++ chunk pixels length i =
      pixels.extract 0 ((i + 1) * length) :=
    (ByteArray.extract_eq_extract_append_extract _ (Nat.zero_le _)
      (Nat.mul_le_mul_right _ (Nat.le_succ i))).symm
  rw [Upload.take, Base64.decodeFrom?_encode, hjoin, Option.bind_some, hmore]
  unfold moreMark
  by_cases hlast : i + 1 < count
  · rw [if_pos hlast, if_pos hlast]
    rfl
  · have hcount : count = i + 1 := by omega
    rw [hcount] at hcover
    rw [if_neg hlast, if_neg hlast, extract_of_size_le hcover]
    simp [hsize]

/-- One sequence of a picture. -/
theorem read_chunk (id : Nat) {i : Nat} (hsize : pixels.size = w * h * 4) (hi : i < count)
    (hcover : pixels.size ≤ count * length) (cursor : Nat × Nat) :
    (readBefore cursor id w h length pixels i).read (chunkToken id w h count length pixels i) =
      if i + 1 < count then some (readBefore cursor id w h length pixels (i + 1), [])
      else some (⟨cursor, none⟩, [.transmit id ⟨pixels, w, h⟩]) := by
  have hfields : AreFields (chunkFields id w h count i) := areFields_chunkFields i
  have hget := field?_control hfields
  have hmore : field? (control (chunkFields id w h count i)) 'm' = some (moreMark count i) := by
    rw [hget, chunkFields]
    split_ifs <;> rfl
  have htake := take_chunk id hsize hi hcover _ hmore
  rw [chunkToken, read_payload hfields, Reader.obey, readBefore]
  by_cases hfirst : i = 0
  · subst hfirst
    have haction : field? (control (chunkFields id w h count 0)) 'a' = some ['t'] := hget 'a'
    have hformat : field? (control (chunkFields id w h count 0)) 'f' = some ['3', '2'] := hget 'f'
    have hid : field? (control (chunkFields id w h count 0)) 'i' = some (numeral id) := hget 'i'
    have hwidth : field? (control (chunkFields id w h count 0)) 's' = some (numeral w) := hget 's'
    have hheight : field? (control (chunkFields id w h count 0)) 'v' = some (numeral h) := hget 'v'
    have hempty : pixels.extract 0 (0 * length) = .empty := by simp
    have hannounced : announced? (control (chunkFields id w h count 0)) =
        some ⟨id, w, h, .empty⟩ := by
      simp [announced?, number?, hformat, hid, hwidth, hheight]
    rw [hempty] at htake
    rw [if_pos rfl, haction]
    dsimp only
    rw [hannounced, Option.bind_some, htake]
    split_ifs <;> simp [readBefore]
  · have hnone : field? (control (chunkFields id w h count i)) 'a' = none := by
      rw [hget, chunkFields, if_neg hfirst]
      rfl
    rw [if_neg hfirst, hnone]
    dsimp only
    rw [htake]
    split_ifs <;> simp [readBefore]

/-- From sequence `i` on, the sequences of a picture make one request. -/
theorem readAll_chunks (id : Nat) {i k : Nat} (hsize : pixels.size = w * h * 4)
    (hi : i + k + 1 = count) (hcover : pixels.size ≤ count * length) (cursor : Nat × Nat) :
    (readBefore cursor id w h length pixels i).readAll
        ((List.range' i (k + 1)).map (chunkToken id w h count length pixels)) =
      some (⟨cursor, none⟩, [.transmit id ⟨pixels, w, h⟩]) := by
  induction k generalizing i with
  | zero =>
    have hread := read_chunk id hsize (show i < count by omega) hcover cursor
    rw [if_neg (by omega)] at hread
    simp [Reader.readAll, hread]
  | succ k ih =>
    have hread := read_chunk id hsize (show i < count by omega) hcover cursor
    rw [if_pos (by omega)] at hread
    rw [List.range'_succ, List.map_cons, Reader.readAll, hread, Option.bind_some, ih (by omega)]
    rfl

theorem spells_chunkText (i : Nat) :
    Spells (chunkText id w h count length pixels i).toList
      [chunkToken id w h count length pixels i] := by
  have hfields : AreFields (chunkFields id w h count i) := areFields_chunkFields i
  have hcontrol := isSafeText_of_control hfields (toList_chunkControl i)
  have hsemicolon : isSafeText ";" = true := by decide
  have hbody :
      (chunkControl id w h count i ++ ";" ++ Base64.encode (chunk pixels length i)).toList =
        control (chunkFields id w h count i) ++
          ';' :: (Base64.encode (chunk pixels length i)).toList := by
    simp only [String.toList_append, toList_chunkControl, List.append_assoc]
    rfl
  rw [chunkText, chunkToken, ← hbody]
  apply spells_sequence
  simp only [isSafeText_append, hcontrol, hsemicolon, Base64.isSafeText_encode, Bool.and_self]

theorem payload_ok {columns rows : Nat} {bytes : ByteArray}
    (hok : payload id pixels w h columns rows length = .ok bytes) :
    0 < w * h * 4 ∧ 0 < length ∧ bytes.size = w * h * 4 ∧
      bytes = pixels.extract 0 (w * h * 4) := by
  unfold payload at hok
  by_cases hid : id = 0
  · rw [if_pos hid] at hok
    cases hok
  by_cases hside : w = 0 ∨ h = 0 ∨ columns = 0 ∨ rows = 0 ∨ length = 0
  · rw [if_neg hid, if_pos hside] at hok
    cases hok
  rw [if_neg hid, if_neg hside] at hok
  obtain ⟨size, hsize, hok⟩ := exists_of_bind_eq_ok hok
  obtain rfl := Size.eq_of_rgba hsize
  by_cases hshort : pixels.size < w * h * 4
  · rw [if_pos hshort] at hok
    cases hok
  rw [if_neg hshort] at hok
  injection hok with hok
  simp only [not_or] at hside
  have hw := Nat.pos_of_ne_zero hside.1
  have hh := Nat.pos_of_ne_zero hside.2.1
  refine ⟨by positivity, Nat.pos_of_ne_zero hside.2.2.2.2, ?_, hok.symm⟩
  rw [← hok]
  simp [Nat.le_of_not_lt hshort]

/-- The sequences of a picture are a request to transmit it. -/
theorem carries_sequences (id : Nat) (hlength : 0 < length) (hpos : 0 < pixels.size)
    (hsize : pixels.size = w * h * 4) :
    Carries (sequences id w h length pixels) [.transmit id ⟨pixels, w, h⟩] := by
  obtain ⟨k, hk⟩ : ∃ k, chunkCount pixels.size length = k + 1 := by
    have : 0 < (pixels.size + length - 1) / length := Nat.div_pos (by omega) hlength
    exact ⟨_, (Nat.succ_pred_eq_of_pos this).symm⟩
  have hcover : pixels.size ≤ (k + 1) * length := by
    have hdiv := Nat.div_add_mod (pixels.size + length - 1) length
    have hmod := Nat.mod_lt (pixels.size + length - 1) hlength
    rw [← chunkCount, hk, Nat.mul_comm length] at hdiv
    omega
  rw [sequences, hk]
  refine ⟨(List.range (k + 1)).map (chunkToken id w h (k + 1) length pixels), ?_, ?_⟩
  · rw [String.toList_join, List.flatMap_map, List.map_eq_flatMap]
    exact Spells.flatMap fun i _ => spells_chunkText i
  · intro cursor
    refine ⟨cursor, ?_⟩
    have hread := readAll_chunks id hsize (show 0 + k + 1 = k + 1 by omega) hcover cursor
    rw [← List.range_eq_range'] at hread
    exact hread

theorem carries_transmit {columns rows : Nat} {text : String}
    (hok : transmit id pixels w h columns rows = .ok text) :
    Carries text [.transmit id ⟨pixels.extract 0 (w * h * 4), w, h⟩] := by
  obtain ⟨bytes, hbytes, htext⟩ := exists_of_bind_eq_ok hok
  obtain ⟨hpos, hlength, hsize, hextract⟩ := payload_ok hbytes
  injection htext with htext
  rw [← htext, ← hextract]
  exact carries_sequences id hlength (hsize ▸ hpos) hsize

end Transmit

/-- A text of other sequences that starts with a cursor position makes no request. -/
theorem carries_other {text : String} {column row : Nat} {opener : Char} {body : List Char}
    (h : Spells text.toList ((Command.cursorTo column row).tokens ++ [.string opener body]))
    (ho : opener ≠ '_') : Carries text [] := by
  refine ⟨_, h, ?_⟩
  intro cursor
  refine ⟨(column, row), ?_⟩
  have hskip (r : Reader) : r.read (.string opener body) = some (r, []) := by
    unfold Reader.read
    split <;> simp_all
  rw [Reader.readAll_append, read_cursorTo, Option.bind_some, Reader.readAll, hskip]
  rfl

end Kitty

end CellCanvas
