import CellCanvas.Proofs.Emulator.Rendition

/-!
# The tokens of commands

Every command is written as complete sequences. `spells_encode` names them; commands with text need
it to be free of controls, or the text could end one sequence and start another.
-/

namespace CellCanvas

open Wire

namespace SgrParameter

theorem isParameter_of_mem_literal {c : Char} (s : String) (hs : s.toList.all isParameter = true)
    (h : c ∈ s.toList) : isParameter c = true :=
  List.all_eq_true.mp hs c h

theorem isParameter_of_mem_colorPieces {base : Nat} {color : ShownColor} {c : Char}
    (h : c ∈ (colorPieces base color).flatMap String.toList) : isParameter c = true := by
  cases color with
  | indexed i =>
    simp only [colorPieces] at h
    split_ifs at h
    all_goals
      simp only [List.flatMap_cons, List.flatMap_nil, List.append_nil, List.mem_append,
        toList_toString] at h
    · exact isParameter_of_mem_numeral h
    · exact isParameter_of_mem_numeral h
    · rcases h with h | h | h
      · exact isParameter_of_mem_numeral h
      · exact isParameter_of_mem_literal ";5;" (by decide) h
      · exact isParameter_of_mem_numeral h
  | direct red green blue =>
    simp only [colorPieces, List.flatMap_cons, List.flatMap_nil, List.append_nil,
      List.mem_append, toList_toString] at h
    rcases h with h | h | h | h | h | h | h
    · exact isParameter_of_mem_numeral h
    · exact isParameter_of_mem_literal ";2;" (by decide) h
    · exact isParameter_of_mem_numeral h
    · exact isParameter_of_mem_literal ";" (by decide) h
    · exact isParameter_of_mem_numeral h
    · exact isParameter_of_mem_literal ";" (by decide) h
    · exact isParameter_of_mem_numeral h

theorem isParameter_of_mem_text {p : SgrParameter} {c : Char} (h : c ∈ p.text) :
    isParameter c = true := by
  cases p with
  | turnOn x =>
    simp only [text, pieces, List.flatMap_cons, List.flatMap_nil, List.append_nil,
      toList_toString] at h
    exact isParameter_of_mem_numeral h
  | foreground color => exact isParameter_of_mem_colorPieces h
  | background color => exact isParameter_of_mem_colorPieces h
  | underline color =>
    simp only [text, pieces, List.flatMap_cons, List.flatMap_nil, List.append_nil,
      List.mem_append, toList_toString] at h
    rcases h with h | h | h | h | h | h
    · exact isParameter_of_mem_literal "58:2::" (by decide) h
    · exact isParameter_of_mem_numeral h
    · exact isParameter_of_mem_literal ":" (by decide) h
    · exact isParameter_of_mem_numeral h
    · exact isParameter_of_mem_literal ":" (by decide) h
    · exact isParameter_of_mem_numeral h
  | defaultUnderline =>
    have hall : (text .defaultUnderline).all isParameter = true := by decide
    exact List.all_eq_true.mp hall c h

/-- Parameters as written behind others. -/
def textAfter (ps : List SgrParameter) : List Char := ps.flatMap fun p => ';' :: p.text

/-- Parameters as written with semicolons between them. -/
def textBetween : List SgrParameter → List Char
  | [] => []
  | p :: ps => p.text ++ textAfter ps

theorem isParameter_of_mem_textAfter {ps : List SgrParameter} {c : Char} (h : c ∈ textAfter ps) :
    isParameter c = true := by
  obtain ⟨p, -, hc⟩ := List.mem_flatMap.mp h
  rcases List.mem_cons.mp hc with rfl | hc
  · decide
  · exact isParameter_of_mem_text hc

end SgrParameter

namespace Command

open SgrParameter

/-- What a terminal acts on when it reads a command. -/
def tokens : Command → List Token
  | cursorTo x y => [.control (numeral (y + 1) ++ ';' :: numeral (x + 1)) 'H']
  | hideCursor => [.control ['?', '2', '5'] 'l']
  | showCursor => [.control ['?', '2', '5'] 'h']
  | shapeCursor shape => [.control (numeral shape.number ++ [' ']) 'q']
  | clearScreen => [.control ['2'] 'J']
  | resetStyle => [.control ['0'] 'm']
  | scrollRegion top bottom =>
    [.control (numeral (top + 1) ++ ';' :: numeral (bottom + 1)) 'r']
  | resetScrollRegion => [.control [] 'r']
  | scrollUp lines => [.control (numeral lines) 'S']
  | scrollDown lines => [.control (numeral lines) 'T']
  | restyle ps => [.control ('0' :: textAfter ps) 'm']
  | adjustStyle ps => [.control (textBetween ps) 'm']
  | openLink uri => [.string ']' (['8', ';', ';'] ++ uri.toList)]
  | closeLink => [.string ']' ['8', ';', ';']]
  | beginUpdate => [.control ['?', '2', '0', '2', '6'] 'h']
  | endUpdate => [.control ['?', '2', '0', '2', '6'] 'l']
  | enterAlternateScreen => [.control ['?', '1', '0', '4', '9'] 'h']
  | leaveAlternateScreen => [.control ['?', '1', '0', '4', '9'] 'l']
  | text glyph => glyph.toList.map .shown

/-- Whether the text that a command carries is free of controls. -/
def IsSafe : Command → Prop
  | openLink uri => isSafeText uri = true
  | text glyph => isSafeText glyph = true
  | _ => True

theorem toList_encode (c : Command) : c.encode.toList = c.pieces.flatMap String.toList := by
  rw [encode, String.toList_join]

theorem toList_opening : "\x1b[".toList = [escapeChar, '['] := rfl

theorem flatMap_separated (ps : List SgrParameter) :
    (separated ps).flatMap String.toList = textBetween ps := by
  have hsep : ";".toList = [';'] := rfl
  induction ps with
  | nil => rfl
  | cons p ps ih =>
    cases ps with
    | nil => simp [separated, textBetween, textAfter, SgrParameter.text]
    | cons q qs =>
      rw [separated, List.flatMap_append, List.flatMap_cons, ih, hsep]
      · simp [textBetween, textAfter, SgrParameter.text]
      · simp

theorem not_isControl_of_isSafeText {text : String} (h : isSafeText text = true) :
    ∀ c ∈ text.toList, isControl c = false := by
  intro c hc
  have := List.all_eq_true.mp h c hc
  simpa using this

theorem ne_of_not_isControl {c d : Char} (hc : isControl c = false) (hd : isControl d = true) :
    c ≠ d := by
  rintro rfl
  rw [hc] at hd
  cases hd

theorem spells_control {c : Command} {ps : List Char} {final : Char}
    (hps : ∀ d ∈ ps, isParameter d = true) (hf : isFinal final = true)
    (he : c.encode.toList = escapeChar :: '[' :: ps ++ [final]) :
    Spells c.encode.toList [.control ps final] := by
  rw [he]
  exact Spells.control hps hf

theorem isParameter_of_mem_pair {m n : Nat} {c : Char}
    (h : c ∈ numeral m ++ ';' :: numeral n) : isParameter c = true := by
  rcases List.mem_append.mp h with h | h
  · exact isParameter_of_mem_numeral h
  · rcases List.mem_cons.mp h with rfl | h
    · decide
    · exact isParameter_of_mem_numeral h

/-- A command with one number. -/
theorem spells_number {c : Command} {n : Nat} {final : Char} (hf : isFinal final = true)
    (h : c.pieces = ["\x1b[", toString n, String.singleton final]) :
    Spells c.encode.toList [.control (numeral n) final] := by
  apply spells_control (fun _ => isParameter_of_mem_numeral) hf
  simp only [toList_encode, h, List.flatMap_cons, List.flatMap_nil, toList_toString, toList_opening]
  simp

/-- A command with two numbers. -/
theorem spells_pair {c : Command} {m n : Nat} {final : Char} (hf : isFinal final = true)
    (h : c.pieces = ["\x1b[", toString m, ";", toString n, String.singleton final]) :
    Spells c.encode.toList [.control (numeral m ++ ';' :: numeral n) final] := by
  have hsep : ";".toList = [';'] := rfl
  apply spells_control (fun _ => isParameter_of_mem_pair) hf
  simp only [toList_encode, h, List.flatMap_cons, List.flatMap_nil, toList_toString,
    toList_opening, hsep]
  simp

theorem spells_restyle (ps : List SgrParameter) :
    Spells (restyle ps).encode.toList [.control ('0' :: textAfter ps) 'm'] := by
  apply spells_control _ (by decide)
  · simp only [toList_encode, pieces, List.flatMap_cons, List.flatMap_append, List.flatMap_nil]
    simp [textAfter, SgrParameter.text, List.flatMap_assoc, escapeChar]
  · intro c hc
    rcases List.mem_cons.mp hc with rfl | hc
    · decide
    · exact isParameter_of_mem_textAfter hc

theorem spells_adjustStyle (ps : List SgrParameter) :
    Spells (adjustStyle ps).encode.toList [.control (textBetween ps) 'm'] := by
  apply spells_control _ (by decide)
  · simp only [toList_encode, pieces, List.flatMap_cons, List.flatMap_append, List.flatMap_nil,
      flatMap_separated, toList_opening]
    simp
  · intro c hc
    cases ps with
    | nil => simp [textBetween] at hc
    | cons p ps =>
      rcases List.mem_append.mp hc with hc | hc
      · exact isParameter_of_mem_text hc
      · exact isParameter_of_mem_textAfter hc

/-- An address cannot end the string that carries it. -/
theorem ne_of_mem_linkBody {uri : String} (h : isSafeText uri = true) :
    ∀ c ∈ ['8', ';', ';'] ++ uri.toList, c ≠ escapeChar ∧ c ≠ bell := by
  have hstart (c : Char) (hc : c ∈ ['8', ';', ';']) : c ≠ escapeChar ∧ c ≠ bell := by
    simp only [List.mem_cons, List.not_mem_nil, or_false] at hc
    rcases hc with rfl | rfl | rfl <;> decide
  intro c hc
  rcases List.mem_append.mp hc with hc | hc
  · exact hstart c hc
  · have hn := not_isControl_of_isSafeText h c hc
    exact ⟨ne_of_not_isControl hn (by decide), ne_of_not_isControl hn (by decide)⟩

theorem spells_openLink {uri : String} (h : isSafeText uri = true) :
    Spells (openLink uri).encode.toList [.string ']' (['8', ';', ';'] ++ uri.toList)] := by
  have hlink : "\x1b]8;;".toList = [escapeChar, ']', '8', ';', ';'] := rfl
  have hclose : "\x1b\\".toList = [escapeChar, '\\'] := rfl
  have htext : (openLink uri).encode.toList =
      escapeChar :: ']' :: (['8', ';', ';'] ++ uri.toList) ++ [escapeChar, '\\'] := by
    simp only [toList_encode, pieces, List.flatMap_cons, List.flatMap_nil, hlink, hclose]
    simp
  rw [htext]
  exact Spells.string (by decide) (ne_of_mem_linkBody h)

/-- A command is written as its tokens and leaves nothing unfinished. -/
theorem spells_encode (c : Command) (h : c.IsSafe) : Spells c.encode.toList c.tokens := by
  cases c with
  | cursorTo x y => exact spells_pair (by decide) rfl
  | shapeCursor shape => cases shape <;> decide
  | scrollRegion top bottom => exact spells_pair (by decide) rfl
  | scrollUp lines => exact spells_number (by decide) rfl
  | scrollDown lines => exact spells_number (by decide) rfl
  | restyle ps => exact spells_restyle ps
  | adjustStyle ps => exact spells_adjustStyle ps
  | openLink uri => exact spells_openLink h
  | text glyph =>
    rw [toList_encode, pieces, List.flatMap_singleton]
    exact Spells.shown (not_isControl_of_isSafeText h)
  | _ => decide

theorem spells_encodeAll {cs : List Command} (h : ∀ c ∈ cs, c.IsSafe) :
    Spells (encodeAll cs).toList (cs.flatMap tokens) := by
  rw [encodeAll, String.toList_join, List.flatMap_map]
  exact Spells.flatMap fun c hc => spells_encode c (h c hc)

end Command

end CellCanvas
