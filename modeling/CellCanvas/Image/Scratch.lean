import CellCanvas.Failure
import CellCanvas.Size

/-!
# Scratch budgets

Temporary buffers of the image encoders are charged against a budget. A charge that does not fit is
refused and changes nothing; a scope gives back everything that was charged inside it, also when
the work inside fails. The type holds the invariant that the budget is never exceeded. A buffer that
fits the budget may still be larger than any buffer can be, which stops the program.
-/

namespace CellCanvas

/-- A budget in bytes and what is charged to it. -/
structure Scratch where
  budget : Nat
  used : Nat
  used_le : used ≤ budget

/-- Work that charges a scratch budget. What was charged before a failure stays charged. -/
abbrev Scratching := ExceptT Failure (StateM Scratch)

/-- Work that reserves buffers. It has no answer when it stops the program, and what was charged
before stays charged. -/
abbrev Reserving := ExceptT Failure (OptionT (StateM Scratch))

namespace Scratch

/-- The budget of a full-screen image on a large display. -/
def defaultBudget : Nat := 67108864

/-- A budget without charges. -/
def withBudget (budget : Nat) : Scratch := ⟨budget, 0, Nat.zero_le _⟩

/-- How much can still be charged. -/
def remaining (s : Scratch) : Nat := s.budget - s.used

/-- Charge some bytes, or refuse. -/
def charge (bytes : Nat) : Scratching Unit := fun s =>
  if h : bytes ≤ s.remaining then
    (.ok (), ⟨s.budget, s.used + bytes, by
      have := s.used_le; simp only [remaining] at h; omega⟩)
  else (.error (.limit .scratch), s)

/-- Charge for a buffer, then make it. The program stops when no buffer can be that large. -/
def reserve {α : Type} (n : Nat) (make : Unit → α) : Reserving α := fun s =>
  match charge n s with
  | (.error e, s) => (some (.error e), s)
  | (.ok (), s) => (if n ≤ Size.largestBuffer then some (.ok (make ())) else none, s)

/-- Zero bytes, charged. -/
def bytes (n : Nat) : Reserving ByteArray :=
  reserve n fun _ => Nat.fold n (fun _ _ b => b.push 0) .empty

/-- Zero numbers, each charged with a number of bytes. -/
def numbers (count bytesEach : Nat) : Reserving (Array Nat) := do
  reserve (← Size.mul count bytesEach) fun _ => Array.replicate count 0

/-- An empty buffer whose room is charged up front. -/
def room (n : Nat) : Reserving ByteArray := reserve n fun _ => .empty

/-- Do some work, then give back everything it charged. -/
def scope {α : Type} (work : Scratching α) : Scratching α := fun s => ((work s).1, s)

/-- Give back everything. -/
def reset : Scratching Unit := fun s => (.ok (), withBudget s.budget)

end Scratch

end CellCanvas
