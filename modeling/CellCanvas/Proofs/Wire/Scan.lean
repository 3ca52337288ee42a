import CellCanvas.Cell
import Mathlib.Tactic

/-!
# Scanning a stream of characters

A terminal reads one character at a time and acts on a token when it is complete: a character to
show, a control sequence, or a string between an opener and a terminator. `Spells cs ts` says that
the characters `cs`, read between two sequences, are exactly the tokens `ts` and leave nothing
unfinished. Texts that spell can be read one after the other.
-/

namespace CellCanvas.Wire

/-- Something a terminal acts on. -/
inductive Token where
  | shown (c : Char)
  | control (parameters : List Char) (final : Char)
  | string (opener : Char) (body : List Char)
deriving DecidableEq, Repr

/-- How far the current sequence has been read. -/
inductive Mode where
  | ground
  | escape
  | control (parameters : List Char)
  | string (opener : Char) (body : List Char)
  | ending (opener : Char) (body : List Char)
deriving DecidableEq, Repr

/-- The character that starts every sequence. -/
def escapeChar : Char := '\x1b'

/-- The character that ends an operating system command without an escape. -/
def bell : Char := '\x07'

/-- Whether a character ends a control sequence. -/
def isFinal (c : Char) : Bool := 0x40 ≤ c.toNat && c.toNat ≤ 0x7E

/-- Whether a character after an escape opens a string: a device control string, an operating
system command, or an application program command. -/
def opensString (c : Char) : Bool := c == 'P' || c == ']' || c == '_'

/-- Read the character after an escape. -/
def afterEscape (c : Char) : Mode :=
  if c = '[' then .control [] else if opensString c then .string c [] else .ground

/-- Read one character. -/
def Mode.next (m : Mode) (c : Char) : Mode × Option Token :=
  if c = escapeChar then
    match m with
    | .string opener body => (.ending opener body, none)
    | _ => (.escape, none)
  else match m with
    | .ground => (.ground, if isControl c then none else some (.shown c))
    | .escape => (afterEscape c, none)
    | .control ps =>
      if isFinal c then (.ground, some (.control ps c)) else (.control (ps ++ [c]), none)
    | .string opener body =>
      if c = bell ∧ opener = ']' then (.ground, some (.string opener body))
      else (.string opener (body ++ [c]), none)
    | .ending opener body =>
      if c = '\\' then (.ground, some (.string opener body)) else (afterEscape c, none)

/-- Read characters: how far the last sequence has been read, and the tokens that were completed. -/
def scan (m : Mode) : List Char → Mode × List Token
  | [] => (m, [])
  | c :: rest =>
    let step := m.next c
    let after := scan step.1 rest
    (after.1, step.2.toList ++ after.2)

theorem scan_append (m : Mode) (as bs : List Char) :
    scan m (as ++ bs) =
      ((scan (scan m as).1 bs).1, (scan m as).2 ++ (scan (scan m as).1 bs).2) := by
  induction as generalizing m with
  | nil => rfl
  | cons c as ih => simp [scan, ih]

/-- The characters are exactly these tokens when they are read between two sequences. -/
def Spells (cs : List Char) (ts : List Token) : Prop := scan .ground cs = (.ground, ts)

instance (cs : List Char) (ts : List Token) : Decidable (Spells cs ts) :=
  inferInstanceAs (Decidable (_ = _))

namespace Spells

theorem nil : Spells [] [] := rfl

theorem append {as bs : List Char} {ts us : List Token} (ha : Spells as ts) (hb : Spells bs us) :
    Spells (as ++ bs) (ts ++ us) := by
  unfold Spells at *
  rw [scan_append, ha]
  simp [hb]

theorem flatMap {α : Type*} {xs : List α} {text : α → List Char} {tokens : α → List Token}
    (h : ∀ x ∈ xs, Spells (text x) (tokens x)) : Spells (xs.flatMap text) (xs.flatMap tokens) := by
  induction xs with
  | nil => exact nil
  | cons x xs ih =>
    simp only [List.flatMap_cons]
    exact (h x (by simp)).append (ih fun y hy => h y (by simp [hy]))

/-- Text without controls is shown character by character. -/
theorem shown {cs : List Char} (h : ∀ c ∈ cs, isControl c = false) :
    Spells cs (cs.map .shown) := by
  induction cs with
  | nil => exact nil
  | cons c cs ih =>
    have hc := h c (by simp)
    have hne : c ≠ escapeChar := by
      rintro rfl
      exact absurd hc (by decide)
    have := ih fun d hd => h d (by simp [hd])
    unfold Spells at *
    simp [scan, Mode.next, hne, hc, this]

end Spells

theorem fromUTF8?_toUTF8 (text : String) : String.fromUTF8? text.toUTF8 = some text :=
  dif_pos text.isValidUTF8

/-- Whether a character may stand in the parameters of a control sequence. -/
def isParameter (c : Char) : Bool := c != escapeChar && !isFinal c

theorem scan_control {ps : List Char} (h : ∀ c ∈ ps, isParameter c = true) (before : List Char) :
    scan (.control before) ps = (.control (before ++ ps), []) := by
  induction ps generalizing before with
  | nil => simp [scan]
  | cons c ps ih =>
    have hc := h c (by simp)
    simp only [isParameter, Bool.and_eq_true, bne_iff_ne, ne_eq, Bool.not_eq_true'] at hc
    have := ih (fun d hd => h d (by simp [hd])) (before ++ [c])
    simp [scan, Mode.next, hc.1, hc.2, this]

/-- A control sequence is one token. -/
theorem Spells.control {ps : List Char} {final : Char} (h : ∀ c ∈ ps, isParameter c = true)
    (hf : isFinal final = true) :
    Spells (escapeChar :: '[' :: ps ++ [final]) [.control ps final] := by
  have hne : final ≠ escapeChar := by
    rintro rfl
    exact absurd hf (by decide)
  have hopen : scan .ground [escapeChar, '['] = (.control [], []) := by decide
  have hlast : scan (.control ps) [final] = (.ground, [.control ps final]) := by
    simp [scan, Mode.next, hne, hf]
  unfold Spells
  rw [show escapeChar :: '[' :: ps ++ [final] = [escapeChar, '['] ++ (ps ++ [final]) by rfl,
    scan_append, hopen, scan_append, scan_control h, List.nil_append, hlast]
  rfl

theorem scan_string {opener : Char} {body : List Char}
    (h : ∀ c ∈ body, c ≠ escapeChar ∧ c ≠ bell) (before : List Char) :
    scan (.string opener before) body = (.string opener (before ++ body), []) := by
  induction body generalizing before with
  | nil => simp [scan]
  | cons c body ih =>
    have hc := h c (by simp)
    have := ih (fun d hd => h d (by simp [hd])) (before ++ [c])
    simp [scan, Mode.next, hc.1, hc.2, this]

theorem scan_opener {opener : Char} (h : opensString opener = true) :
    scan .ground [escapeChar, opener] = (.string opener [], []) := by
  simp only [opensString, Bool.or_eq_true, beq_iff_eq] at h
  rcases h with (rfl | rfl) | rfl <;> decide

/-- A string is one token. -/
theorem Spells.string {opener : Char} {body : List Char} (ho : opensString opener = true)
    (h : ∀ c ∈ body, c ≠ escapeChar ∧ c ≠ bell) :
    Spells (escapeChar :: opener :: body ++ [escapeChar, '\\']) [.string opener body] := by
  have hlast :
      scan (.string opener body) [escapeChar, '\\'] = (.ground, [.string opener body]) := by
    simp [scan, Mode.next, escapeChar]
  unfold Spells
  rw [show escapeChar :: opener :: body ++ [escapeChar, '\\'] =
      [escapeChar, opener] ++ (body ++ [escapeChar, '\\']) by rfl,
    scan_append, scan_opener ho, scan_append, scan_string h, List.nil_append, hlast]
  rfl

/-- An operating system command may also end with a bell. -/
theorem Spells.string_bell {body : List Char} (h : ∀ c ∈ body, c ≠ escapeChar ∧ c ≠ bell) :
    Spells (escapeChar :: ']' :: body ++ [bell]) [.string ']' body] := by
  have hlast : scan (.string ']' body) [bell] = (.ground, [.string ']' body]) := by
    simp [scan, Mode.next, escapeChar, bell]
  unfold Spells
  rw [show escapeChar :: ']' :: body ++ [bell] = [escapeChar, ']'] ++ (body ++ [bell]) by rfl,
    scan_append, scan_opener (by decide), scan_append, scan_string h, List.nil_append, hlast]
  rfl

end CellCanvas.Wire
