import CellCanvas.Blit.Raster
import CellCanvas.Image.Scratch
import CellCanvas.Terminal.Command

/-!
# Sixel graphics

Sixel paints bands of six pixel rows. Each band is written once for every colour register that
occurs in it: the register is selected, then one character a column tells which of the six pixels
take its colour. Colours are rounded to a cube with six levels a channel; registers are numbered in
the order in which their colours first appear. Transparent pixels are never painted.
-/

namespace CellCanvas.Sixel

/-- The level of a channel value, `0` to `5`, rounded to the nearest. -/
def level (v : Nat) : Nat := (v * 5 + 127) / 255

/-- The percentage of a level. -/
def percent (level : Nat) : Nat := (level * 51 * 100 + 127) / 255

/-- The number of colours in the cube. -/
def cubeSize : Nat := 216

/-- The number of a colour in the cube. -/
def key (p : Pixel) : Nat :=
  level p.red.toNat * 36 + level p.green.toNat * 6 + level p.blue.toNat

/-- An image by register numbers; transparent pixels have none. -/
structure Indexed where
  pixels : Array (Option Nat)
  /-- The cube colour of each register. -/
  palette : Array Nat

/-- The state while pixels are assigned to registers. -/
structure Assignment where
  image : Indexed
  /-- The register of each cube colour that has appeared. -/
  registers : Array (Option Nat)

namespace Assignment

/-- No pixel, no register. -/
def start : Assignment := ⟨⟨#[], #[]⟩, Array.replicate cubeSize none⟩

/-- Assign a register to the next pixel. -/
def add (a : Assignment) (p : Pixel) : Assignment :=
  if !Color.isOpaque p.alpha then { a with image.pixels := a.image.pixels.push none }
  else
    let k := key p
    match a.registers.getD k none with
    | some r => { a with image.pixels := a.image.pixels.push (some r) }
    | none =>
      let r := a.image.palette.size
      { image := ⟨a.image.pixels.push (some r), a.image.palette.push k⟩
        registers := a.registers.setIfInBounds k (some r) }

end Assignment

/-- The pixel with a number. -/
def pixelAt (bytes : ByteArray) (i : Nat) : Pixel :=
  let o := i * 4
  ⟨Raster.byteAt bytes o, Raster.byteAt bytes (o + 1), Raster.byteAt bytes (o + 2),
    Raster.byteAt bytes (o + 3)⟩

/-- The first `count` pixels by registers. -/
def index (bytes : ByteArray) (count : Nat) : Indexed :=
  (Nat.fold count (fun i _ a => a.add (pixelAt bytes i)) Assignment.start).image

/-- The runs of equal characters with their lengths. -/
def runs : List Char → List (Char × Nat)
  | [] => []
  | c :: rest =>
    match runs rest with
    | (d, n) :: others => if c = d then (d, n + 1) :: others else (c, 1) :: (d, n) :: others
    | [] => [(c, 1)]

/-- The shortest run that is written with a count. -/
def minCountedRun : Nat := 4

/-- A run as written. -/
def encodeRun (run : Char × Nat) : String :=
  if minCountedRun ≤ run.2 then "!" ++ toString run.2 ++ run.1.toString
  else String.ofList (List.replicate run.2 run.1)

/-- The register of the pixel in a column and a row. -/
def Indexed.register? (image : Indexed) (w x y : Nat) : Option Nat :=
  image.pixels.getD (y * w + x) none

/-- The rows of the band that starts at a row. -/
def bandRows (h top : Nat) : List Nat := List.range' top (min 6 (h - top))

/-- The character for the pixels of a column that a register paints: bit `i` is row `i`. -/
def columnChar (image : Indexed) (w register x : Nat) (rows : List Nat) : Char :=
  .ofNat (0x3F + rows.foldr (fun y bits =>
    bits * 2 + if image.register? w x y = some register then 1 else 0) 0)

/-- The registers that occur in some rows, ascending. -/
def registersIn (image : Indexed) (w : Nat) (rows : List Nat) : List Nat :=
  let seen := rows.foldl (fun seen y =>
    Nat.fold w (fun x _ seen =>
      match image.register? w x y with
      | some r => seen.setIfInBounds r true
      | none => seen) seen) (Array.replicate image.palette.size false)
  (List.range image.palette.size).filter fun r => seen.getD r false

/-- A band as written. -/
def encodeBand (image : Indexed) (w h top : Nat) : String :=
  let rows := bandRows h top
  String.join ((registersIn image w rows).map fun r =>
    "#" ++ toString r
      ++ String.join ((runs ((List.range w).map fun x => columnChar image w r x rows)).map
        encodeRun)
      ++ "$") ++ "-"

/-- The definition of a register. -/
def encodeColor (register key : Nat) : String :=
  "#" ++ toString register ++ ";2;" ++ toString (percent (key / 36)) ++ ";"
    ++ toString (percent (key / 6 % 6)) ++ ";" ++ toString (percent (key % 6))

/-- An indexed image as written at a cell. -/
def encodeIndexed (image : Indexed) (w h column row : Nat) : String :=
  let bands := (h + 5) / 6
  (Command.cursorTo column row).encode
    ++ "\x1bP0;1;0q\"1;1;" ++ toString w ++ ";" ++ toString h
    ++ String.join (image.palette.toList.zipIdx.map fun (key, r) => encodeColor r key)
    ++ String.join ((List.range bands).map fun i => encodeBand image w h (i * 6))
    ++ "\x1b\\"

/-- Encode pixels with their top left corner at a cell. The indexed copy is charged while it is
needed. -/
def encode (pixels : ByteArray) (w h column row : Nat) : Scratching String := do
  if w = 0 ∨ h = 0 then throw (.invalid .imageSide)
  let size ← Size.rgba w h
  if pixels.size < size then throw (.invalid .pixelLength)
  Scratch.scope do
    Scratch.charge (size / 4)
    return encodeIndexed (index pixels (size / 4)) w h column row

end CellCanvas.Sixel
