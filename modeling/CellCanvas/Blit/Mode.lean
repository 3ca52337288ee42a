import CellCanvas.Failure

/-!
# Glyph modes

A raster can be drawn with five families of glyphs, from one sample a cell to eight. A request
names a family, asks for the best one, or asks for real pixels, which glyphs cannot give.
-/

namespace CellCanvas.Blit

/-- A family of glyphs. -/
inductive Mode where
  | braille
  | sextant
  | quadrant
  | halfblock
  | ascii
deriving DecidableEq, Inhabited, Repr

/-- What a caller asks for. -/
inductive Request where
  | auto
  | pixel
  | glyphs (mode : Mode)
deriving DecidableEq, Repr

/-- What the terminal can draw with glyphs. -/
structure Support where
  isDumb : Bool := false
  isPipe : Bool := false
  unicode : Bool := true
  halfblock : Bool := true
  quadrant : Bool := true
  sextant : Bool := false
  braille : Bool := true
  /-- Whether an automatic choice may be braille. -/
  brailleInAuto : Bool := false
deriving DecidableEq, Inhabited, Repr

/-- Columns and rows of samples in a cell. -/
def Mode.subpixels : Mode → Nat × Nat
  | braille => (2, 4)
  | sextant => (2, 3)
  | quadrant => (2, 2)
  | halfblock => (1, 2)
  | ascii => (1, 1)

/-- The display name of a family. -/
def Mode.name : Mode → String
  | braille => "Braille"
  | sextant => "Sextant"
  | quadrant => "Quadrant"
  | halfblock => "Halfblock"
  | ascii => "Ascii"

namespace Request

/-- The display name of a request. -/
def name : Request → String
  | auto => "Auto"
  | pixel => "Pixel"
  | glyphs mode => mode.name

/-- Columns and rows of samples in a cell; one sample where no family is named. -/
def subpixels : Request → Nat × Nat
  | auto | pixel => (1, 1)
  | glyphs mode => mode.subpixels

/-- The request with a number. -/
def ofNumber (n : Nat) : Except Failure Request :=
  match n with
  | 0 => .ok .auto
  | 1 => .ok .pixel
  | 2 => .ok (.glyphs .braille)
  | 3 => .ok (.glyphs .sextant)
  | 4 => .ok (.glyphs .quadrant)
  | 5 => .ok (.glyphs .halfblock)
  | 6 => .ok (.glyphs .ascii)
  | _ => .error (.invalid .blitterName)

/-- The request with a name on the command line, where pixels cannot be asked for. -/
def ofName (name : String) : Except Failure Request :=
  match name with
  | "auto" => .ok .auto
  | "braille" => .ok (.glyphs .braille)
  | "sextant" => .ok (.glyphs .sextant)
  | "quadrant" => .ok (.glyphs .quadrant)
  | "halfblock" => .ok (.glyphs .halfblock)
  | "ascii" => .ok (.glyphs .ascii)
  | _ => .error (.invalid .blitterName)

/-- The family that serves a request. A named family is used as it is; the automatic choice is the
finest one that the terminal supports. -/
def resolve (support : Support) : Request → Except Failure Mode
  | pixel => .error (.unsupported .pixelBlitter)
  | glyphs mode => .ok mode
  | auto => .ok <|
    if support.isDumb || support.isPipe || !support.unicode then .ascii
    else if support.brailleInAuto && support.braille then .braille
    else if support.sextant then .sextant
    else if support.quadrant then .quadrant
    else if support.halfblock then .halfblock
    else .ascii

end Request

end CellCanvas.Blit
