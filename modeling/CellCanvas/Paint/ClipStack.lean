import CellCanvas.Failure
import CellCanvas.Rect

/-!
# Clip stacks

A clip stack holds the bounds of the grid and the clips pushed on top of them, up to a capacity
that counts the bounds. Every entry is the part common to the rectangle that was pushed, the bounds
and the entry below, so the top is always the effective clip.
-/

namespace CellCanvas

/-- Nested clips over the bounds of a grid. -/
structure ClipStack where
  bounds : Rect
  /-- The pushed clips, innermost first. -/
  pushed : List Rect
  capacity : Nat
  fits : pushed.length < capacity

namespace ClipStack

/-- A stack that holds only the bounds. -/
def start (bounds : Rect) (capacity : Nat) : Except Failure ClipStack :=
  if h : 0 < capacity then .ok ⟨bounds, [], capacity, h⟩ else .error (.invalid .noClipCapacity)

/-- The effective clip. -/
def top (s : ClipStack) : Rect := s.pushed.headD s.bounds

/-- How many entries the stack holds; the bounds count as one. -/
def depth (s : ClipStack) : Nat := s.pushed.length + 1

/-- Narrow the clip. -/
def push (s : ClipStack) (r : Rect) : Except Failure ClipStack :=
  if h : s.pushed.length + 1 < s.capacity then
    .ok { s with
      pushed := (s.bounds.inter r).inter s.top :: s.pushed
      fits := h }
  else .error (.limit .clipStackFull)

/-- Return to the clip before the last push. -/
def pop (s : ClipStack) : Except Failure ClipStack :=
  match h : s.pushed with
  | [] => .error (.limit .clipStackBase)
  | _ :: rest =>
    .ok { s with
      pushed := rest
      fits := by have := s.fits; rw [h, List.length_cons] at this; omega }

end ClipStack

end CellCanvas
