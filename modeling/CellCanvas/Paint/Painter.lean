import CellCanvas.Frame.Write
import CellCanvas.Paint.ClipStack
import CellCanvas.Text.Cluster
import CellCanvas.Text.Columns

/-!
# Painting under a clip

A painter is a frame with a clip stack. Every drawing operation comes down to `place`, which writes
one cell if the clip admits all of its columns. Long lines and large areas are cut to the clip
before they are walked.
-/

namespace CellCanvas

/-- A frame that is being painted. -/
structure Painter where
  frame : Frame
  clips : ClipStack

/-- A grapheme cluster with the columns it takes. -/
structure Cluster where
  text : String
  columns : Nat
deriving DecidableEq, Repr

/-- A way to split a text into clusters and to measure them. -/
abbrev Segmentation := String → List Cluster

/-- The clusters of a text with their columns, by the tables of Unicode. -/
def Cluster.ofText : Segmentation := fun text =>
  (Text.Cluster.clusters text.toList).map fun cs => ⟨String.ofList cs, Text.Columns.columns cs⟩

namespace Painter

/-- Start painting a frame. -/
def start (f : Frame) (capacity : Nat) : Except Failure Painter := do
  return ⟨f, ← ClipStack.start f.bounds capacity⟩

/-- The effective clip. -/
def clip (p : Painter) : Rect := p.clips.top

/-- Narrow the clip. -/
def pushClip (p : Painter) (r : Rect) : Except Failure Painter := do
  return { p with clips := ← p.clips.push r }

/-- Return to the clip before the last push. -/
def popClip (p : Painter) : Except Failure Painter := do
  return { p with clips := ← p.clips.pop }

/-- The grid position of a point that the clip admits. -/
def touch? (p : Painter) (x y : Int) : Option (Nat × Nat) :=
  if p.clip.contains x y && p.frame.bounds.contains x y then some (x.toNat, y.toNat) else none

/-- Write one cell under the clip. A wide glyph needs both of its columns inside the clip. -/
def place (p : Painter) (x y : Int) (c : Cell) : Painter :=
  match p.touch? x y with
  | none => p
  | some (column, row) =>
    if c.isWide then
      if (p.touch? (x + 1) y).isSome then { p with frame := p.frame.writeWide column row c } else p
    else { p with frame := p.frame.writeNarrow column row c }

/-- The part of `start, start + 1, …` with `length` members that lies in `lo, …, hi - 1`, as its
first member and its length. -/
def overlap (start length lo hi : Int) : Int × Nat :=
  let first := max start lo
  (first, (min (start + length) hi - first).toNat)

/-- Place cells in a row, those at columns the clip cannot admit left out. -/
def alongRow (p : Painter) (x y length : Int) (c : Cell) : Painter :=
  let (first, count) := overlap x length p.clip.x p.clip.right
  Nat.fold count (fun i _ p => p.place (first + i) y c) p

/-- Place cells in a column, those at rows the clip cannot admit left out. -/
def alongColumn (p : Painter) (x y length : Int) (c : Cell) : Painter :=
  let (first, count) := overlap y length p.clip.y p.clip.bottom
  Nat.fold count (fun i _ p => p.place x (first + i) c) p

/-- Make every cell of an area a space. -/
def fill (p : Painter) (r : Rect) (style : Style) : Painter :=
  let area := (r.inter p.frame.bounds).inter p.clip
  Nat.fold area.h.toNat (fun i _ p =>
    Nat.fold area.w.toNat (fun j _ p => p.place (area.x + j) (area.y + i) (.blank style)) p) p

/-- Place one glyph of one or two columns. -/
def put (p : Painter) (x y : Int) (bytes : ByteArray) (width : Nat) (style : Style) :
    Except Failure Painter :=
  if width = 1 ∨ width = 2 then .ok (p.place x y (.ofBytes bytes width style))
  else .error (.invalid .glyphWidth)

/-- The last column that a text position can have. -/
def lastColumn : Int := 2147483647

/-- Place clusters from left to right and return the column after the last. Clusters without
columns are skipped; the column moves on also where the clip drops the glyph. -/
def clusters (p : Painter) (x y : Int) (style : Style) : List Cluster → Painter × Int
  | [] => (p, x)
  | c :: rest =>
    let columns := min c.columns 2
    if columns = 0 then p.clusters x y style rest
    else (p.place x y (.ofCluster c.text columns style)).clusters
      (min (x + columns) lastColumn) y style rest

/-- Draw a text from left to right and return the column after it. -/
def text (p : Painter) (split : Segmentation) (x y : Int) (text : String) (style : Style) :
    Painter × Int :=
  p.clusters x y style (split text)

/-- A line of hyphens. -/
def horizontalLine (p : Painter) (x y length : Int) (style : Style) : Painter :=
  p.alongRow x y length (.ofCluster "-" 1 style)

/-- A line of bars. -/
def verticalLine (p : Painter) (x y length : Int) (style : Style) : Painter :=
  p.alongColumn x y length (.ofCluster "|" 1 style)

/-- The outline of a rectangle: plus signs at the corners, hyphens and bars between. -/
def box (p : Painter) (r : Rect) (style : Style) : Painter :=
  if r.isEmpty then p
  else
    let corner : Cell := .ofCluster "+" 1 style
    let right := r.right - 1
    let bottom := r.bottom - 1
    let p := (((p.place r.x r.y corner).place right r.y corner).place r.x bottom corner).place
      right bottom corner
    let p := (p.horizontalLine (r.x + 1) r.y (r.w - 2) style).horizontalLine
      (r.x + 1) bottom (r.w - 2) style
    (p.verticalLine r.x (r.y + 1) (r.h - 2) style).verticalLine right (r.y + 1) (r.h - 2) style

end Painter

end CellCanvas
