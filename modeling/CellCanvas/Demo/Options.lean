import CellCanvas.Blit.Mode
import CellCanvas.Image.Fit
import CellCanvas.Image.Protocol
import CellCanvas.Text.Numeral

/-!
# Command line options

What the demonstration program can be asked to do. Later options override earlier ones.
-/

namespace CellCanvas.Demo

/-- The options of a run. -/
structure Options where
  columns : UInt16 := 80
  rows : UInt16 := 24
  /-- The file that describes the terminal. -/
  capabilities : Option String := none
  /-- The picture that is shown in place of the test card. -/
  picture : Option String := none
  blitter : Blit.Request := .auto
  protocol : ProtocolRequest := .named .none
  fit : Fit := .contain
  scroll : Bool := true
  /-- Whether to draw on the alternate screen and wait before leaving it. -/
  alternateScreen : Bool := false

/-- The text that explains the options. -/
def usage : String := "usage: n-render [options]
  --cols N          grid width (default 80)
  --rows N          grid height (default 24)
  --caps FILE       terminal capabilities (TOML)
  --image FILE      PNG to show instead of the test card
  --blitter NAME    auto|braille|sextant|quadrant|halfblock|ascii
  --protocol NAME   none|auto|kitty|sixel|iterm2 (default none)
  --fit NAME        fill|contain|cover (default contain)
  --no-scroll       disable the scroll-region optimization
  --alt             draw on the alternate screen, leave on Enter
"

namespace Options

/-- A number of columns or rows. -/
def gridSide (flag value : String) : Except Failure UInt16 :=
  match Text.readNumeral? 10 65536 value.toList with
  | some n => .ok (.ofNat n)
  | none => .error (.invalid (.flagValue flag))

/-- The flags that are followed by a value. -/
def valueFlags : List String :=
  ["--cols", "--rows", "--caps", "--image", "--blitter", "--protocol", "--fit"]

/-- The options after a flag with its value. -/
def withValue (o : Options) (flag value : String) : Except Failure Options :=
  match flag with
  | "--cols" => return { o with columns := ← gridSide flag value }
  | "--rows" => return { o with rows := ← gridSide flag value }
  | "--caps" => return { o with capabilities := some value }
  | "--image" => return { o with picture := some value }
  | "--blitter" => return { o with blitter := ← Blit.Request.ofName value }
  | "--protocol" => return { o with protocol := ← ProtocolRequest.ofName value }
  | "--fit" => return { o with fit := ← Fit.ofName value }
  | _ => throw (.invalid .unknownFlag)

/-- The options after a flag that stands alone. -/
def withSwitch (o : Options) (flag : String) : Except Failure Options :=
  match flag with
  | "--no-scroll" => return { o with scroll := false }
  | "--alt" => return { o with alternateScreen := true }
  | _ => throw (.invalid .unknownFlag)

/-- Read arguments from left to right up to a request for help, which gives no options. -/
def ofArguments (o : Options) : List String → Except Failure (Option Options)
  | [] => .ok (some o)
  | flag :: rest =>
    if flag = "-h" ∨ flag = "--help" then .ok none
    else if flag ∈ valueFlags then
      match rest with
      | [] => .error (.invalid .missingFlagValue)
      | value :: rest => do ofArguments (← o.withValue flag value) rest
    else do ofArguments (← o.withSwitch flag) rest

end Options

end CellCanvas.Demo
