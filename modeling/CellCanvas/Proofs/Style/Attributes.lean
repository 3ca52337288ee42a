import CellCanvas.Style.FlagText
import Mathlib.Tactic

/-!
# Sets of attributes bit by bit

The set operations act on each of the seven attributes on its own. A set without unnamed bits is
determined by the attributes that it has.
-/

namespace CellCanvas.Attributes

/-- The place of an attribute's bit in the byte. -/
def position : Attribute → Nat
  | .bold => 0
  | .italic => 1
  | .underline => 2
  | .reverse => 3
  | .strikethrough => 4
  | .dim => 5
  | .blink => 6

/-- Whether only bits of attributes are set. -/
def IsNamed (a : Attributes) : Prop := a.unnamed.isEmpty = true

instance (a : Attributes) : Decidable a.IsNamed := inferInstanceAs (Decidable (_ = _))

theorem has_eq_getLsbD (a : Attributes) (x : Attribute) :
    a.has x = a.bits.toBitVec.getLsbD (position x) := by
  obtain ⟨⟨b⟩⟩ := a
  cases x <;> revert b <;> decide +kernel

theorem isNamed_iff (a : Attributes) : a.IsNamed ↔ a.bits.toBitVec.getLsbD 7 = false := by
  obtain ⟨⟨b⟩⟩ := a
  revert b
  decide +kernel

theorem has_without (a b : Attributes) (x : Attribute) :
    (a.without b).has x = (a.has x && !b.has x) := by
  simp only [has_eq_getLsbD, without, UInt8.toBitVec_and, UInt8.toBitVec_not,
    BitVec.getLsbD_and, BitVec.getLsbD_not]
  cases x <;> simp [position]

theorem has_inter (a b : Attributes) (x : Attribute) :
    (a.inter b).has x = (a.has x && b.has x) := by
  simp only [has_eq_getLsbD, inter, UInt8.toBitVec_and, BitVec.getLsbD_and]

theorem has_of_isEmpty {a : Attributes} (h : a.isEmpty = true) (x : Attribute) :
    a.has x = false := by
  simp only [isEmpty, beq_iff_eq] at h
  rw [has_eq_getLsbD, h]
  simp

theorem isNamed_inter {a b : Attributes} (h : b.IsNamed) : (a.inter b).IsNamed := by
  rw [isNamed_iff] at *
  rw [inter, UInt8.toBitVec_and, BitVec.getLsbD_and, h, Bool.and_false]

theorem isNamed_of_isEmpty_without {a b : Attributes} (h : (a.without b).isEmpty = true)
    (hb : b.IsNamed) : a.IsNamed := by
  have hbits : (a.without b).bits.toBitVec.getLsbD 7 = false := by
    rw [show (a.without b).bits = 0 by simpa [isEmpty] using h]
    rfl
  rw [isNamed_iff] at *
  rw [without, UInt8.toBitVec_and, UInt8.toBitVec_not, BitVec.getLsbD_and, BitVec.getLsbD_not,
    hb] at hbits
  simpa using hbits

/-- Two sets with the same members that agree about the bit without a name are equal. -/
theorem ext_members {a b : Attributes} (h : ∀ x, a.has x = b.has x) (h' : a.IsNamed ↔ b.IsNamed) :
    a = b := by
  simp only [isNamed_iff, Bool.eq_false_iff, not_iff_not, ← Bool.eq_iff_iff] at h'
  simp only [has_eq_getLsbD] at h
  obtain ⟨⟨u⟩⟩ := a
  obtain ⟨⟨v⟩⟩ := b
  congr 2
  apply BitVec.eq_of_getLsbD_eq
  intro i hi
  interval_cases i
  · exact h .bold
  · exact h .italic
  · exact h .underline
  · exact h .reverse
  · exact h .strikethrough
  · exact h .dim
  · exact h .blink
  · exact h'

/-- Two sets of attributes with the same members are equal. -/
theorem ext_has {a b : Attributes} (ha : a.IsNamed) (hb : b.IsNamed)
    (h : ∀ x, a.has x = b.has x) : a = b :=
  ext_members h (iff_of_true ha hb)

/-- The set with the bit that stands for no attribute. -/
def withUnnamed (a : Attributes) : Attributes := ⟨a.bits ||| 0x80⟩

theorem has_withUnnamed (a : Attributes) (x : Attribute) : a.withUnnamed.has x = a.has x := by
  simp only [has_eq_getLsbD, withUnnamed, UInt8.toBitVec_or, BitVec.getLsbD_or]
  cases x <;> simp [position]

theorem not_isNamed_withUnnamed (a : Attributes) : ¬a.withUnnamed.IsNamed := by
  simp [isNamed_iff, withUnnamed]

theorem isEmpty_without_withUnnamed (a : Attributes) :
    (a.without a.withUnnamed).isEmpty = true := by
  obtain ⟨⟨b⟩⟩ := a
  revert b
  decide +kernel

theorem mem_byCode (x : Attribute) : x ∈ Attribute.byCode := by cases x <;> decide

end CellCanvas.Attributes
