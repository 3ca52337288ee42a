import CellCanvas.Image.Scratch
import Mathlib.Tactic

/-!
# Computations that may fail

What a successful chain of steps says about each of its steps, also when the steps charge a budget
or reserve buffers.
-/

namespace CellCanvas

variable {α β : Type}

theorem exists_of_bind_eq_ok {x : Except Failure α} {g : α → Except Failure β} {b : β}
    (h : x >>= g = .ok b) : ∃ a, x = .ok a ∧ g a = .ok b := by
  cases x with
  | error e => cases h
  | ok a => exact ⟨a, rfl, h⟩

theorem bind_of_eq_ok {x : Except Failure α} {a : α} (h : x = .ok a)
    (g : α → Except Failure β) : x >>= g = g a := by
  rw [h]
  rfl

namespace Scratch

variable {α β : Type} {s : Scratch}

theorem run_bind (x : Scratching α) (g : α → Scratching β) :
    (x >>= g) s = match x s with
      | (.ok a, after) => g a after
      | (.error e, after) => (.error e, after) := by
  cases hx : x s with
  | mk result after =>
    have hunfold : (x >>= g) s = ExceptT.bindCont g result after := by
      change (let (r, s') := x s; ExceptT.bindCont g r s') = _
      rw [hx]
    rw [hunfold]
    cases result with
    | ok a => rfl
    | error e => rfl

theorem run_reserving_bind (x : Reserving α) (g : α → Reserving β) :
    (x >>= g) s = match x s with
      | (some (.ok a), after) => g a after
      | (some (.error e), after) => (some (.error e), after)
      | (none, after) => (none, after) := by
  simp only [bind, ExceptT.bind, ExceptT.mk, OptionT.bind, OptionT.mk, StateT.bind]
  rcases x s with ⟨_ | _ | _, after⟩ <;> rfl

theorem exists_of_bind_eq_ok {x : Scratching α} {g : α → Scratching β} {b : β}
    (h : ((x >>= g) s).1 = .ok b) :
    ∃ a after, (x s).1 = .ok a ∧ (g a after).1 = .ok b := by
  rw [run_bind] at h
  cases hx : x s with
  | mk result after =>
    rw [hx] at h
    cases result with
    | ok a => exact ⟨a, after, rfl, h⟩
    | error e => cases h

end Scratch

end CellCanvas
