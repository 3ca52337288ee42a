import CellCanvas.Capabilities
import CellCanvas.Failure

/-!
# Image protocols

A request names a protocol or asks for the best one that the terminal speaks. Without any, the
image is skipped.
-/

namespace CellCanvas

/-- How an image reaches the terminal. -/
inductive ImageProtocol where
  | kitty
  | sixel
  | iterm2
  | none
deriving DecidableEq, Inhabited, Repr

/-- What a caller asks for. -/
inductive ProtocolRequest where
  | auto
  | named (protocol : ImageProtocol)
deriving DecidableEq, Repr

/-- The name of a protocol. -/
def ImageProtocol.name : ImageProtocol → String
  | kitty => "kitty"
  | sixel => "sixel"
  | iterm2 => "iterm2"
  | none => "none"

namespace ProtocolRequest

/-- The name of a request. -/
def name : ProtocolRequest → String
  | auto => "auto"
  | named p => p.name

/-- The request with a number; a number without a meaning asks for no protocol. -/
def ofNumber : Nat → ProtocolRequest
  | 0 => auto
  | 1 => named .kitty
  | 2 => named .sixel
  | 3 => named .iterm2
  | _ => named .none

/-- The request with a name. -/
def ofName (name : String) : Except Failure ProtocolRequest :=
  match name with
  | "auto" => .ok auto
  | "kitty" => .ok (named .kitty)
  | "sixel" => .ok (named .sixel)
  | "iterm2" => .ok (named .iterm2)
  | "none" => .ok (named .none)
  | _ => .error (.invalid .protocolName)

/-- The protocol that serves a request. A named protocol is used as it is. -/
def resolve (support : ImageSupport) : ProtocolRequest → ImageProtocol
  | named p => p
  | auto =>
    if support.kitty then .kitty
    else if support.sixel then .sixel
    else if support.iterm2 then .iterm2
    else .none

end ProtocolRequest

end CellCanvas
