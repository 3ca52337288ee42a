import CellCanvas.Proofs.Emulator.Commands

/-!
# Changing from one style to another

A terminal that shows one style and reads the change to another shows the other one, with a single
exception. When all that is added is the bit that stands for no attribute, the change has no
parameter, and a terminal takes a sequence without parameters for a reset.
-/

namespace CellCanvas

namespace SgrStyle

variable {a b : SgrStyle}

theorem AddsUnnamed.ne (h : a.AddsUnnamed b) : a ≠ b := by
  obtain ⟨hnamed, rfl⟩ := h
  intro heq
  have hsame : a.attributes = a.attributes.withUnnamed := congrArg attributes heq
  rw [hsame] at hnamed
  exact a.attributes.not_isNamed_withUnnamed hnamed

theorem AddsUnnamed.onlyAdds (h : a.AddsUnnamed b) : a.onlyAdds b = true := by
  obtain ⟨-, rfl⟩ := h
  exact a.attributes.isEmpty_without_withUnnamed

end SgrStyle

theorem Command.isSafe_of_mem_restyling {a b : SgrStyle} {c : Command} (h : c ∈ restyling a b) :
    c.IsSafe := by
  unfold restyling at h
  split_ifs at h
  · cases h
  · obtain rfl := List.mem_singleton.mp h
    trivial
  · obtain rfl := List.mem_singleton.mp h
    trivial

namespace Emulator

variable {layout : Layout} {t : Emulator} {a b : SgrStyle}

/-- A change leads to the style that is asked for, or to none at all. -/
theorem rendition_restyling (hshown : t.rendition = .ofStyle a) :
    (t.executeAll layout (Command.restyling a b)).rendition =
      if a.AddsUnnamed b then {} else .ofStyle b := by
  unfold Command.restyling
  by_cases heq : a = b
  · subst heq
    rw [if_pos rfl, if_neg fun h => h.ne rfl]
    exact hshown
  rw [if_neg heq]
  by_cases hadds : a.onlyAdds b = true
  · have hnil := Rendition.changes_eq_nil_iff hadds
    rw [if_pos hadds]
    change (t.execute layout (.adjustStyle (a.changes b))).rendition = _
    split_ifs with hunnamed
    · rw [hnil.mpr (Or.inr hunnamed), execute_adjustStyle_nil]
    · have hchanges : a.changes b ≠ [] := fun h => (hnil.mp h).elim (fun h => heq h.symm) hunnamed
      rw [execute_adjustStyle _ _ hchanges, hshown]
      exact Rendition.applyAll_changes hadds
  · rw [if_neg hadds, if_neg fun h => hadds h.onlyAdds]
    exact rendition_establish layout t b

/-- A terminal between two sequences that shows style `a` shows style `b` after the change from `a`
to `b`, unless `b` is `a` with the bit that stands for no attribute: then it shows no style at all.
Establishing `b` leads to `b` from everywhere. -/
theorem restyling_shows (between : t.mode = .ground) (shown : t.rendition = .ofStyle a) :
    ((t.readBytes layout (Command.encodeAll (Command.restyling a b)).toUTF8).rendition =
        .ofStyle b ↔ ¬a.AddsUnnamed b) ∧
      (a.AddsUnnamed b →
        (t.readBytes layout (Command.encodeAll (Command.restyling a b)).toUTF8).rendition = {}) ∧
      ∀ u : Emulator, u.mode = .ground →
        (u.readBytes layout (Command.encodeAll [.establish b]).toUTF8).rendition = .ofStyle b := by
  have hreset : ({} : Rendition) ≠ .ofStyle b := fun h => by cases congrArg Rendition.foreground h
  have hread : (t.executeAll layout (Command.restyling a b)).rendition =
      if a.AddsUnnamed b then {} else .ofStyle b := rendition_restyling shown
  rw [← readBytes_encodeAll between fun _ => Command.isSafe_of_mem_restyling] at hread
  refine ⟨?_, ?_, ?_⟩
  · rw [hread]
    split_ifs with hunnamed <;> simp [hunnamed, hreset]
  · intro hunnamed
    rw [hread, if_pos hunnamed]
  · intro u hu
    rw [readBytes_encodeAll hu (by simp [Command.establish, Command.IsSafe])]
    exact rendition_establish layout u b

/-- A terminal that shows a style. -/
def showing (s : SgrStyle) : Emulator := { fresh 80 24 with rendition := .ofStyle s }

/-- Bold, in a bright palette colour on a direct colour, with a colour for the underline. -/
def alarm : SgrStyle := ⟨.indexed 9, .direct 10 20 30, ⟨1⟩, .ofChannels 255 0 0⟩

/-- One attribute more, another palette colour, and the terminal's own colour for the underline. -/
def blinkingAlarm : SgrStyle := ⟨.indexed 200, .direct 10 20 30, ⟨65⟩, .black⟩

theorem restyling_shows_blinking :
    Command.encodeAll (Command.restyling alarm blinkingAlarm) = "\x1b[5;38;5;200;59m" ∧
      (showing alarm).mode = .ground ∧ ¬alarm.AddsUnnamed blinkingAlarm ∧
      ((showing alarm).readBytes (fun _ _ => none)
        (Command.encodeAll (Command.restyling alarm blinkingAlarm)).toUTF8).rendition =
          .ofStyle blinkingAlarm := by
  have hplain : ¬alarm.AddsUnnamed blinkingAlarm := by decide
  exact ⟨by decide +kernel, rfl, hplain, (restyling_shows rfl rfl).1.mpr hplain⟩

/-- Added to a style, the bit that stands for no attribute takes away all colours. -/
theorem restyling_resets :
    ¬ ∀ (layout : Layout) (t : Emulator) (a b : SgrStyle), t.mode = .ground →
      t.rendition = .ofStyle a →
      (t.readBytes layout (Command.encodeAll (Command.restyling a b)).toUTF8).rendition =
        .ofStyle b := by
  intro hclaim
  have hshown := hclaim (fun _ _ => none) (showing alarm) alarm { alarm with attributes := ⟨129⟩ }
    rfl rfl
  rw [readBytes_encodeAll rfl fun _ => Command.isSafe_of_mem_restyling, rendition_restyling rfl,
    if_pos (by decide)] at hshown
  cases congrArg Rendition.foreground hshown

end Emulator

end CellCanvas
