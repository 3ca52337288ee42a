import CellCanvas.Image.InlineFile
import CellCanvas.Image.Kitty
import CellCanvas.Image.Sixel
import CellCanvas.Proofs.Except
import CellCanvas.Proofs.Image.Base64
import CellCanvas.Proofs.Wire.Command

/-!
# The tokens of image texts

Every image is written as complete strings, each behind a cursor position where it needs one. What
stands between the opener and the terminator of a string holds no control, so nothing in it can end
the string early.
-/

namespace CellCanvas

open Wire Text

@[simp] theorem isSafeText_append (s t : String) :
    isSafeText (s ++ t) = (isSafeText s && isSafeText t) := by
  simp [isSafeText, List.all_append]

@[simp] theorem isSafeText_join (ss : List String) :
    isSafeText (String.join ss) = ss.all isSafeText := by
  rw [isSafeText, String.toList_join, List.all_flatMap]
  rfl

theorem not_isControl_of_isDigit {c : Char} (h : c.isDigit = true) : isControl c = false := by
  have hn := toNat_of_isDigit h
  simp only [isControl, Bool.or_eq_false_iff, Bool.and_eq_false_iff, decide_eq_false_iff_not]
  omega

theorem isSafeText_toString (n : Nat) : isSafeText (toString n) = true := by
  rw [isSafeText, List.all_eq_true, toList_toString]
  intro c hc
  rw [not_isControl_of_isDigit (isDigit_of_mem_numeral hc)]
  rfl

/-- Text without controls may stand in a string. -/
theorem ne_of_isSafeText {text : String} (h : isSafeText text = true) :
    ∀ c ∈ text.toList, c ≠ escapeChar ∧ c ≠ bell := by
  intro c hc
  have hn := Command.not_isControl_of_isSafeText h c hc
  exact ⟨Command.ne_of_not_isControl hn (by decide), Command.ne_of_not_isControl hn (by decide)⟩

namespace Base64

theorem not_isControl_of_isSymbol {c : Char} (h : isSymbol c = true) : isControl c = false := by
  simp only [isSymbol, value?, Bool.or_eq_true, beq_iff_eq] at h
  simp only [isControl, Bool.or_eq_false_iff, Bool.and_eq_false_iff, decide_eq_false_iff_not]
  split_ifs at h with hupper hlower hdigit hplus hslash
  · omega
  · omega
  · omega
  · subst hplus
    decide
  · subst hslash
    decide
  · rcases h with h | rfl
    · cases h
    · decide

@[simp] theorem isSafeText_encode (bytes : ByteArray) : isSafeText (encode bytes) = true := by
  rw [isSafeText, List.all_eq_true]
  intro c hc
  rw [not_isControl_of_isSymbol (isSymbol_of_mem_encode hc)]
  rfl

end Base64

namespace Kitty

/-- A graphics sequence is one application program command. -/
theorem spells_sequence {body : String} (h : isSafeText body = true) :
    Spells (sequence body).toList [.string '_' ('G' :: body.toList)] := by
  have htext : (sequence body).toList =
      escapeChar :: '_' :: ('G' :: body.toList) ++ [escapeChar, '\\'] := by
    simp [sequence, escapeChar]
  rw [htext]
  apply Spells.string (by decide)
  intro c hc
  rcases List.mem_cons.mp hc with rfl | hc
  · decide
  · exact ne_of_isSafeText h c hc

end Kitty

namespace InlineFile

/-- What stands in the string of an inline file. -/
def body (file : ByteArray) (columns rows : Nat) : String :=
  "1337;File=inline=1;width=" ++ toString columns ++ ";height=" ++ toString rows
    ++ ";preserveAspectRatio=1;size=" ++ toString file.size ++ ":" ++ Base64.encode file

theorem isSafeText_body (file : ByteArray) (columns rows : Nat) :
    isSafeText (body file columns rows) = true := by
  have hopen : isSafeText "1337;File=inline=1;width=" = true := by decide
  have hheight : isSafeText ";height=" = true := by decide
  have hsize : isSafeText ";preserveAspectRatio=1;size=" = true := by decide
  have hcolon : isSafeText ":" = true := by decide
  unfold body
  simp only [isSafeText_append, isSafeText_toString, Base64.isSafeText_encode, hopen, hheight,
    hsize, hcolon, Bool.and_self]

/-- An inline file is a cursor position and one operating system command. -/
theorem spells_encode {file : ByteArray} {column row columns rows : Nat} {text : String}
    (h : encode file column row columns rows = .ok text) :
    Spells text.toList ((Command.cursorTo column row).tokens ++
      [.string ']' (body file columns rows).toList]) := by
  have hok : text = (Command.cursorTo column row).encode ++ "\x1b]1337;File=inline=1;width="
      ++ toString columns ++ ";height=" ++ toString rows ++ ";preserveAspectRatio=1;size="
      ++ toString file.size ++ ":" ++ Base64.encode file ++ "\x07" := by
    unfold encode at h
    by_cases hfile : file.isEmpty
    · rw [if_pos hfile] at h
      cases h
    · by_cases harea : columns = 0 ∨ rows = 0
      · rw [if_neg hfile, if_pos harea] at h
        cases h
      · rw [if_neg hfile, if_neg harea] at h
        cases h
        rfl
  have htext : text.toList = (Command.cursorTo column row).encode.toList ++
      (escapeChar :: ']' :: (body file columns rows).toList ++ [bell]) := by
    have hopen : "\x1b]1337;File=inline=1;width=".toList =
        escapeChar :: ']' :: "1337;File=inline=1;width=".toList := rfl
    have hclose : "\x07".toList = [bell] := rfl
    unfold body
    rw [hok]
    simp only [String.toList_append, hopen, hclose, List.append_assoc, List.cons_append]
  rw [htext]
  apply (Command.spells_encode (.cursorTo column row) trivial).append
  exact Spells.string_bell (ne_of_isSafeText (isSafeText_body file columns rows))

end InlineFile

namespace Sixel

theorem mem_of_mem_runs {cs : List Char} {run : Char × Nat} (h : run ∈ runs cs) : run.1 ∈ cs := by
  induction cs with
  | nil => cases h
  | cons c rest ih =>
    have hrest (hmem : run ∈ runs rest) : run.1 ∈ c :: rest := List.mem_cons_of_mem c (ih hmem)
    unfold runs at h
    cases hruns : runs rest with
    | nil =>
      rw [hruns, List.mem_singleton] at h
      simp [h]
    | cons first others =>
      rw [hruns] at h hrest
      dsimp only at h
      by_cases hc : c = first.1
      · rw [if_pos hc] at h
        rcases List.mem_cons.mp h with rfl | h
        · simp [hc]
        · exact hrest (List.mem_cons_of_mem first h)
      · rw [if_neg hc] at h
        rcases List.mem_cons.mp h with rfl | h
        · simp
        · exact hrest h

theorem isSafeText_encodeRun {run : Char × Nat} (h : isControl run.1 = false) :
    isSafeText (encodeRun run) = true := by
  have hmark : isSafeText "!" = true := by decide
  have hchar : isSafeText run.1.toString = true := by simp [isSafeText, h]
  unfold encodeRun
  split_ifs
  · simp only [isSafeText_append, isSafeText_toString, hmark, hchar, Bool.and_self]
  · simp [isSafeText, h]

/-- The pixels of a column that a register paints, as bits. -/
def columnBits (image : Indexed) (w register x : Nat) (rows : List Nat) : Nat :=
  rows.foldr (fun y bits =>
    bits * 2 + if image.register? w x y = some register then 1 else 0) 0

theorem columnBits_cons (image : Indexed) (w register x y : Nat) (rows : List Nat) :
    columnBits image w register x (y :: rows) = columnBits image w register x rows * 2 +
      if image.register? w x y = some register then 1 else 0 := rfl

theorem columnBits_lt (image : Indexed) (w register x : Nat) (rows : List Nat) :
    columnBits image w register x rows < 2 ^ rows.length := by
  induction rows with
  | nil => exact Nat.one_pos
  | cons y rows ih =>
    rw [columnBits_cons, List.length_cons, Nat.pow_succ]
    split_ifs <;> omega

/-- A column of at most six pixels is a character between the question mark and the tilde. -/
theorem toNat_columnChar (image : Indexed) (w register x : Nat) {rows : List Nat}
    (h : rows.length ≤ 6) :
    (columnChar image w register x rows).toNat = 0x3F + columnBits image w register x rows ∧
      (columnChar image w register x rows).toNat ≤ 0x7E := by
  have hsmall := (columnBits_lt image w register x rows).trans_le
    (Nat.pow_le_pow_right (by decide : 0 < 2) h)
  have hall : ∀ bits < 2 ^ 6, (Char.ofNat (0x3F + bits)).toNat = 0x3F + bits := by decide
  have htoNat : (columnChar image w register x rows).toNat =
      0x3F + columnBits image w register x rows := hall _ hsmall
  exact ⟨htoNat, by omega⟩

theorem not_isControl_columnChar (image : Indexed) (w register x : Nat) {rows : List Nat}
    (h : rows.length ≤ 6) : isControl (columnChar image w register x rows) = false := by
  obtain ⟨htoNat, hle⟩ := toNat_columnChar image w register x h
  simp only [isControl, Bool.or_eq_false_iff, Bool.and_eq_false_iff, decide_eq_false_iff_not]
  omega

theorem length_bandRows_le (h top : Nat) : (bandRows h top).length ≤ 6 := by
  simp [bandRows]

theorem isSafeText_encodeBand (image : Indexed) (w h top : Nat) :
    isSafeText (encodeBand image w h top) = true := by
  have hregister : isSafeText "#" = true := by decide
  have hreturn : isSafeText "$" = true := by decide
  have hnext : isSafeText "-" = true := by decide
  unfold encodeBand
  simp only [isSafeText_append, isSafeText_join, List.all_map, hnext, Bool.and_true,
    List.all_eq_true]
  intro r _
  simp only [Function.comp_apply, isSafeText_append, isSafeText_toString, isSafeText_join,
    hregister, hreturn, Bool.and_true, Bool.true_and, List.all_map, List.all_eq_true]
  intro run hrun
  apply isSafeText_encodeRun
  obtain ⟨x, -, hx⟩ := List.mem_map.mp (mem_of_mem_runs hrun)
  rw [← hx]
  exact not_isControl_columnChar image w r x (length_bandRows_le h top)

theorem isSafeText_encodeColor (register key : Nat) :
    isSafeText (encodeColor register key) = true := by
  have hregister : isSafeText "#" = true := by decide
  have hspace : isSafeText ";2;" = true := by decide
  have hnext : isSafeText ";" = true := by decide
  unfold encodeColor
  simp only [isSafeText_append, isSafeText_toString, hregister, hspace, hnext, Bool.and_self]

/-- What stands in the string of a Sixel image. -/
def body (image : Indexed) (w h : Nat) : String :=
  "0;1;0q\"1;1;" ++ toString w ++ ";" ++ toString h
    ++ String.join (image.palette.toList.zipIdx.map fun (key, r) => encodeColor r key)
    ++ String.join ((List.range ((h + 5) / 6)).map fun i => encodeBand image w h (i * 6))

theorem isSafeText_body (image : Indexed) (w h : Nat) : isSafeText (body image w h) = true := by
  have hopen : isSafeText "0;1;0q\"1;1;" = true := by decide
  have hnext : isSafeText ";" = true := by decide
  unfold body
  simp only [isSafeText_append, isSafeText_toString, isSafeText_join, hopen, hnext, Bool.true_and,
    Bool.and_eq_true, List.all_map, List.all_eq_true]
  constructor
  · intro entry _
    rw [Function.comp_apply]
    exact isSafeText_encodeColor entry.2 entry.1
  · intro i _
    rw [Function.comp_apply]
    exact isSafeText_encodeBand image w h (i * 6)

/-- A Sixel image is a cursor position and one device control string. -/
theorem spells_encodeIndexed (image : Indexed) (w h column row : Nat) :
    Spells (encodeIndexed image w h column row).toList ((Command.cursorTo column row).tokens ++
      [.string 'P' (body image w h).toList]) := by
  have htext : (encodeIndexed image w h column row).toList =
      (Command.cursorTo column row).encode.toList ++
        (escapeChar :: 'P' :: (body image w h).toList ++ [escapeChar, '\\']) := by
    have hopen : "\x1bP0;1;0q\"1;1;".toList = escapeChar :: 'P' :: "0;1;0q\"1;1;".toList := rfl
    have hclose : "\x1b\\".toList = [escapeChar, '\\'] := rfl
    unfold body encodeIndexed
    simp only [String.toList_append, hopen, hclose, List.append_assoc, List.cons_append]
  rw [htext]
  apply (Command.spells_encode (.cursorTo column row) trivial).append
  exact Spells.string (by decide) (ne_of_isSafeText (isSafeText_body image w h))

theorem exists_of_encode_eq_ok {pixels : ByteArray} {w h column row : Nat} {scratch : Scratch}
    {text : String} (hok : (encode pixels w h column row scratch).1 = .ok text) :
    ∃ image, text = encodeIndexed image w h column row := by
  unfold encode at hok
  by_cases hside : w = 0 ∨ h = 0
  · rw [if_pos hside] at hok
    cases hok
  rw [if_neg hside] at hok
  obtain ⟨size, after, -, hok⟩ := Scratch.exists_of_bind_eq_ok hok
  by_cases hshort : pixels.size < size
  · rw [if_pos hshort] at hok
    cases hok
  rw [if_neg hshort] at hok
  obtain ⟨-, after, -, hok⟩ := Scratch.exists_of_bind_eq_ok (s := after) hok
  cases hok
  exact ⟨_, rfl⟩

end Sixel

end CellCanvas
