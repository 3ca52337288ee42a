import CellCanvas.Failure
import CellCanvas.Frame

/-!
# The link table

Cells carry the number of a link, and the frame's table holds its address. Equal addresses share a
number, numbers stay the same until the table is emptied, and an address never contains a control
character.
-/

namespace CellCanvas.Frame

/-- The most links that a frame has. -/
def maxLinks : Nat := 4096

/-- The most bytes of an address. -/
def maxLinkBytes : Nat := 2083

/-- Why an address cannot be a link, apart from the room in the table. -/
def linkFault? (uri : String) : Option Failure :=
  if uri.isEmpty then some (.invalid .emptyLink)
  else if maxLinkBytes < uri.utf8ByteSize then some (.limit .linkLength)
  else if !isSafeText uri then some (.invalid .controlInLink)
  else none

theorem safe_of_linkFault?_eq_none {uri : String} (h : linkFault? uri = none) :
    uri ≠ "" ∧ isSafeText uri = true := by
  unfold linkFault? at h
  by_cases hempty : uri = ""
  · simp [hempty] at h
  · cases hsafe : isSafeText uri
    · simp [hempty, hsafe] at h
      split at h <;> cases h
    · exact ⟨hempty, rfl⟩

/-- The frame that knows an address, with the number of the link. -/
def internLink (f : Frame) (uri : String) : Except Failure (Frame × Nat) :=
  match h : linkFault? uri with
  | some fault => .error fault
  | none =>
    match f.links.findIdx? (· = uri) with
    | some i => .ok (f, i + 1)
    | none =>
      if f.links.size < maxLinks then
        .ok ({ f with
          links := f.links.push uri
          safe_links := by
            intro u hu
            rcases Array.mem_push.mp hu with hu | rfl
            · exact f.safe_links u hu
            · exact safe_of_linkFault?_eq_none h }, f.links.size + 1)
      else .error (.limit .linkTable)

/-- The address of a link number; none for zero and for numbers that were never given out. -/
def linkUri? (f : Frame) (id : Nat) : Option String :=
  match id with
  | 0 => none
  | n + 1 => f.links[n]?

theorem safe_of_mem_empty : ∀ uri ∈ (#[] : Array String), uri ≠ "" ∧ isSafeText uri = true := by
  simp

/-- Forget all links. The cells keep their numbers, which now mean nothing. -/
def resetLinks (f : Frame) : Frame := { f with links := #[], safe_links := safe_of_mem_empty }

end CellCanvas.Frame
