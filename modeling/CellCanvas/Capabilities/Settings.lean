import CellCanvas.Capabilities
import CellCanvas.Failure
import CellCanvas.Style.FlagText
import CellCanvas.Toml

/-!
# Capabilities as settings

Terminals and rendering options are described by TOML documents. A document names what differs
from the defaults; keys without a meaning are skipped.
-/

namespace CellCanvas

/-- A setting: its key, and how its value changes what is set. -/
structure Setting (α : Type) where
  key : String
  set : α → Toml.Value → Option α

namespace Setting

variable {α : Type}

/-- Change a value by the entries of a table. -/
def applyEntries (settings : List (Setting α)) (a : α) (es : Toml.Entries) : Option α :=
  es.foldlM (fun a (key, v) =>
    match settings.find? fun s => s.key = key with
    | some s => s.set a v
    | none => some a) a

/-- Change a value by a list that gives the settings in their order. What follows the last setting
is skipped. -/
def applyList (settings : List (Setting α)) (a : α) (vs : List Toml.Value) : Option α :=
  (settings.zip vs).foldlM (fun a (s, v) => s.set a v) a

/-- Change a value by a table or a list. A date has no settings. -/
def apply (settings : List (Setting α)) (a : α) : Toml.Value → Option α
  | .table _ es => applyEntries settings a es
  | .list vs => applyList settings a vs
  | .tables earlier last =>
    applyList settings a ((earlier ++ [last]).map (Toml.Value.table .header))
  | .moment => some a
  | _ => none

/-- A setting that is on or off. -/
def switch (key : String) (put : α → Bool → α) : Setting α where
  key := key
  set a
    | .boolean b => some (put a b)
    | _ => none

/-- A setting that is a natural number below a bound. -/
def natural (key : String) (bound : Nat) (put : α → Nat → α) : Setting α where
  key := key
  set a
    | .integer n => if 0 ≤ n ∧ n < bound then some (put a n.toNat) else none
    | _ => none

end Setting

/-- The settings of the blitters. -/
def Blit.Support.settings : List (Setting Blit.Support) := [
  .switch "is_dumb" fun s b => { s with isDumb := b },
  .switch "is_pipe" fun s b => { s with isPipe := b },
  .switch "supports_unicode" fun s b => { s with unicode := b },
  .switch "supports_halfblock" fun s b => { s with halfblock := b },
  .switch "supports_quadrant" fun s b => { s with quadrant := b },
  .switch "supports_sextant" fun s b => { s with sextant := b },
  .switch "supports_braille" fun s b => { s with braille := b },
  .switch "include_braille_in_auto" fun s b => { s with brailleInAuto := b }]

/-- The settings of the image protocols. -/
def ImageSupport.settings : List (Setting ImageSupport) := [
  .switch "supports_kitty" fun s b => { s with kitty := b },
  .switch "supports_sixel" fun s b => { s with sixel := b },
  .switch "supports_iterm2" fun s b => { s with iterm2 := b },
  .natural "cell_width_px" 4294967296 fun s n => { s with cellWidth := n },
  .natural "cell_height_px" 4294967296 fun s n => { s with cellHeight := n }]

/-- The colour mode that a name stands for. -/
def ColorMode.ofName? (name : String) : Option ColorMode :=
  if name = "rgb" ∨ name = "truecolor" then some .rgb
  else if name = "xterm256" ∨ name = "256" then some .palette256
  else if name = "ansi16" ∨ name = "16" then some .classic16
  else none

/-- The colour mode of a setting: a name, alone or as the only key of a table, where an empty list
or table is its value. -/
def ColorMode.ofValue? : Toml.Value → Option ColorMode
  | .text name | .table _ [(name, .list [])] | .table _ [(name, .table _ [])] => ofName? name
  | _ => none

/-- The settings of a terminal. -/
def Capabilities.settings : List (Setting Capabilities) := [
  ⟨"color_mode", fun c v => (ColorMode.ofValue? v).map fun m => { c with colorMode := m }⟩,
  ⟨"sgr_attrs", fun c v =>
    match v with
    | .text t => (Attributes.read? t).map fun a => { c with attributes := a }
    | _ => none⟩,
  .switch "supports_sync_update" fun c b => { c with synchronizedUpdate := b },
  .switch "supports_scroll_region" fun c b => { c with scrollRegion := b },
  .switch "supports_cursor_shape" fun c b => { c with cursorShape := b },
  .switch "supports_hyperlinks" fun c b => { c with hyperlinks := b },
  .switch "supports_underline_color" fun c b => { c with underlineColor := b },
  ⟨"blit", fun c v =>
    (Setting.apply Blit.Support.settings {} v).map fun s => { c with blit := s }⟩,
  ⟨"images", fun c v =>
    (Setting.apply ImageSupport.settings {} v).map fun s => { c with images := s }⟩]

/-- The settings of rendering. Numbers of a document have at most 63 bits. -/
def RenderOptions.settings : List (Setting RenderOptions) := [
  .switch "scroll_optimization" fun o b => { o with scrollOptimization := b },
  .natural "max_frame_bytes" 9223372036854775808 fun o n => { o with maxFrameBytes := n }]

/-- Change the default of a description by the settings of a document. -/
def Setting.readDocument {α : Type} (settings : List (Setting α)) (default : α) (text : String) :
    Except Failure α :=
  match Toml.read? text with
  | none => .error (.config .malformed)
  | some es =>
    match applyEntries settings default es with
    | none => .error (.config .wrongType)
    | some a => .ok a

/-- The terminal that a document describes. -/
def Capabilities.ofToml (text : String) : Except Failure Capabilities :=
  Setting.readDocument settings {} text

/-- The rendering options that a document describes. -/
def RenderOptions.ofToml (text : String) : Except Failure RenderOptions :=
  Setting.readDocument settings {} text

end CellCanvas
