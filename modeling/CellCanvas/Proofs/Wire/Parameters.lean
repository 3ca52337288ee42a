import CellCanvas.Proofs.Wire.Scan
import CellCanvas.Text.Blank
import CellCanvas.Text.Numeral

/-!
# Parameters of control sequences

Parameters are decimal numerals between semicolons, and a parameter may have parts between colons.
A missing numeral counts as zero. Reading the written form of numbers gives the numbers back.
-/

namespace CellCanvas.Wire

open Text

/-- The decimal digits of a number. -/
def numeral (n : Nat) : List Char := Nat.toDigits 10 n

/-- The number that a parameter stands for. -/
def number (digits : List Char) : Nat := (digitsValue? 10 0 digits).getD 0

/-- The parameters, each as its parts. -/
def parameters (ps : List Char) : List (List Nat) :=
  (pieces ';' ps).map fun p => (pieces ':' p).map number

/-- The parameters of a sequence whose parameters have no parts. -/
def numbers (ps : List Char) : List Nat := (pieces ';' ps).map number

theorem toList_toString (n : Nat) : (toString n).toList = numeral n := by
  rw [Nat.toString_eq_repr, Nat.toList_repr, numeral]

theorem isDigit_of_mem_numeral {n : Nat} {c : Char} (h : c ∈ numeral n) : c.isDigit = true :=
  Nat.isDigit_of_mem_toDigits (by decide) (by decide) h

theorem toNat_of_isDigit {c : Char} (h : c.isDigit = true) : 48 ≤ c.toNat ∧ c.toNat ≤ 57 := by
  simp only [Char.isDigit, Bool.and_eq_true, decide_eq_true_eq, UInt32.le_iff_toNat_le] at h
  exact h

/-- Digits are no separators, no controls, and end no sequence. -/
theorem ne_of_isDigit {c d : Char} (h : c.isDigit = true) (hd : d.isDigit = false) : c ≠ d := by
  rintro rfl
  rw [h] at hd
  cases hd

theorem isParameter_of_isDigit {c : Char} (h : c.isDigit = true) : isParameter c = true := by
  have hn := toNat_of_isDigit h
  have he : c ≠ escapeChar := ne_of_isDigit h (by decide)
  simp only [isParameter, isFinal, Bool.and_eq_true, bne_iff_ne, ne_eq, he, not_false_eq_true,
    Bool.not_eq_true', Bool.and_eq_false_iff, decide_eq_false_iff_not, true_and]
  omega

theorem isParameter_of_mem_numeral {n : Nat} {c : Char} (h : c ∈ numeral n) :
    isParameter c = true :=
  isParameter_of_isDigit (isDigit_of_mem_numeral h)

theorem digitsValue?_of_isDigit {cs : List Char} (h : ∀ c ∈ cs, c.isDigit = true) (start : Nat) :
    digitsValue? 10 start cs = some (Nat.ofDigitChars 10 cs start) := by
  induction cs generalizing start with
  | nil => rfl
  | cons c cs ih =>
    have hn := toNat_of_isDigit (h c (by simp))
    have hv : digitValue? 10 c = some (c.toNat - 48) := by
      simp only [digitValue?, if_pos (show 0x30 ≤ c.toNat ∧ c.toNat ≤ 0x39 from hn)]
      rw [if_pos (by omega)]
    rw [digitsValue?, hv, Nat.ofDigitChars_cons]
    simp only [Option.bind_eq_bind, Option.bind_some]
    rw [ih fun d hd => h d (by simp [hd])]
    congr 1
    rw [Nat.mul_comm]
    rfl

@[simp] theorem number_numeral (n : Nat) : number (numeral n) = n := by
  rw [number, digitsValue?_of_isDigit fun c => isDigit_of_mem_numeral, numeral,
    Nat.ofDigitChars_ten_toDigits]
  rfl

theorem pieces_of_forall_ne {separator : Char} {cs : List Char} (h : ∀ c ∈ cs, c ≠ separator) :
    pieces separator cs = [cs] := by
  induction cs with
  | nil => rfl
  | cons c cs ih =>
    rw [pieces, if_neg (h c (by simp)), ih fun d hd => h d (by simp [hd])]

theorem pieces_ne_nil (separator : Char) (cs : List Char) : pieces separator cs ≠ [] := by
  cases cs with
  | nil => simp [pieces]
  | cons c cs =>
    rw [pieces]
    split_ifs
    · simp
    · cases pieces separator cs <;> simp

/-- A separator stands between two groups of pieces. -/
theorem pieces_append (separator : Char) (as bs : List Char) :
    pieces separator (as ++ separator :: bs) = pieces separator as ++ pieces separator bs := by
  induction as with
  | nil => simp [pieces]
  | cons c as ih =>
    rw [List.cons_append, pieces, pieces, ih]
    split_ifs
    · rfl
    · cases h : pieces separator as with
      | nil => exact absurd h (pieces_ne_nil _ _)
      | cons first others => rfl

theorem ne_of_mem_numeral {n : Nat} {c d : Char} (h : c ∈ numeral n) (hd : d.isDigit = false) :
    c ≠ d :=
  ne_of_isDigit (isDigit_of_mem_numeral h) hd

theorem pieces_numeral {separator : Char} (n : Nat) (h : separator.isDigit = false) :
    pieces separator (numeral n) = [numeral n] :=
  pieces_of_forall_ne fun _ hc => ne_of_mem_numeral hc h

@[simp] theorem numbers_nil : numbers [] = [0] := rfl

@[simp] theorem numbers_numeral (n : Nat) : numbers (numeral n) = [n] := by
  rw [numbers, pieces_numeral n (by decide)]
  simp

@[simp] theorem numbers_append (as bs : List Char) :
    numbers (as ++ ';' :: bs) = numbers as ++ numbers bs := by
  simp [numbers, pieces_append]

@[simp] theorem parameters_nil : parameters [] = [[0]] := rfl

@[simp] theorem parameters_numeral (n : Nat) : parameters (numeral n) = [[n]] := by
  rw [parameters, pieces_numeral n (by decide), List.map_singleton,
    pieces_numeral n (by decide), List.map_singleton, number_numeral]

@[simp] theorem parameters_append (as bs : List Char) :
    parameters (as ++ ';' :: bs) = parameters as ++ parameters bs := by
  simp [parameters, pieces_append]

end CellCanvas.Wire
