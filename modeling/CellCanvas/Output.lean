import CellCanvas.Failure
import CellCanvas.Size
import CellCanvas.Terminal.Command

/-!
# Output buffers

A buffer collects bytes until they are taken or delivered. It may have a limit, and then it takes
each piece of output whole or not at all. A delivery that fails leaves every byte in place.
-/

namespace CellCanvas

/-- Bytes that wait to be delivered. -/
structure Output where
  pending : ByteArray
  limit : Option Nat

namespace Output

/-- A buffer that takes any number of bytes. -/
def unbounded : Output := ⟨.empty, none⟩

/-- A buffer that never holds more than `n` bytes. -/
def withLimit (n : Nat) : Output := ⟨.empty, some n⟩

/-- How many more bytes fit; the largest byte count when there is no limit. -/
def remaining (o : Output) : Nat :=
  match o.limit with
  | none => Size.largest
  | some n => n - o.pending.size

/-- Whether a number of bytes fits. -/
def admits (o : Output) (n : Nat) : Bool := n ≤ o.remaining

/-- Add all of the bytes; meant for bytes that fit. -/
def push (o : Output) (bytes : ByteArray) : Output := { o with pending := o.pending ++ bytes }

/-- Add all of the bytes, or refuse them. -/
def append (o : Output) (bytes : ByteArray) : Except Failure Output :=
  if o.admits bytes.size then .ok (o.push bytes) else .error (.limit .output)

/-- Take all of the bytes, as a writer that tells how many it took, or none. -/
def accept (o : Output) (bytes : ByteArray) : Output × Except IoFailure Nat :=
  match o.append bytes with
  | .ok after => (after, .ok bytes.size)
  | .error _ => (o, .error .writeZero)

/-- Add pieces in order up to the first that does not fit, and tell whether all did. -/
def write (o : Output) : List String → Output × Option IoFailure
  | [] => (o, none)
  | piece :: rest =>
    if o.admits piece.utf8ByteSize then (o.push piece.toUTF8).write rest
    else (o, some .writeZero)

/-- Write the pieces of a list of commands. -/
def send (o : Output) (commands : List Command) : Output × Option IoFailure :=
  o.write (commands.flatMap Command.pieces)

/-- Drop the bytes. -/
def clear (o : Output) : Output := { o with pending := .empty }

/-- Hand the bytes out. -/
def take (o : Output) : Output × ByteArray := (o.clear, o.pending)

/-- Deliver the bytes to a receiver, which accepts all of them or fails. Nothing is sent when
nothing is pending. -/
def flush (o : Output) (receiver : ByteArray → Option IoFailure) : Output × Option IoFailure :=
  if o.pending.isEmpty then (o, none)
  else match receiver o.pending with
    | none => (o.clear, none)
    | some failure => (o, some failure)

/-- A short description for logs. -/
def describe (o : Output) : String :=
  let limit := match o.limit with
    | none => "None"
    | some n => "Some(" ++ toString n ++ ")"
  "OutputBuffer \x7b len: " ++ toString o.pending.size ++ ", limit: " ++ limit ++ " \x7d"

end Output

end CellCanvas
