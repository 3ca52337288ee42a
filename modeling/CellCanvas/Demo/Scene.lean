import CellCanvas.Blit
import CellCanvas.Demo.Options
import CellCanvas.Frame.Links
import CellCanvas.Image.Png

/-!
# The scene

A title bar above two halves: on the left a picture in a box, on the right a log with the newest
line at the bottom.
-/

namespace CellCanvas.Demo

/-- The style of the title bar. -/
def titleStyle : Style :=
  { Style.colors ⟨0x101018⟩ ⟨0x7AA2F7⟩ with attributes := ⟨Attribute.bold.mask⟩ }

/-- The style of text and background below the title. -/
def paneStyle : Style := .colors ⟨0xC0CAF5⟩ ⟨0x1A1B26⟩

/-- The style of the box around the picture. -/
def borderStyle : Style := .colors ⟨0x565F89⟩ ⟨0x1A1B26⟩

/-- The address that the title links to. -/
def titleLink : String := "https://github.com/RLabs-Inc/n-nvim"

/-- The number of a log line in at least four digits. -/
def lineNumber (i : Nat) : String :=
  let digits := toString i
  String.ofList (List.replicate (4 - digits.length) '0') ++ digits

/-- A line of the log as it is at the start. -/
def firstLogLine (i : Nat) : String := lineNumber i ++ " frame event • 中文 ok"

/-- A line that is added to the log later. -/
def laterLogLine (i : Nat) : String := lineNumber i ++ " frame event • appended"

namespace Options

/-- The cells of the picture: the left half under the title bar, inside a box. -/
def pictureArea (o : Options) : Rect :=
  ⟨1, 2, (o.columns.toNat / 2 : Nat) - 2, (o.rows.toNat : Int) - 3⟩

end Options

/-- The rectangle with one more cell on every side. -/
def around (r : Rect) : Rect := ⟨r.x - 1, r.y - 1, r.w + 2, r.h + 2⟩

/-- Draw lines of text below each other. -/
def paintLines (p : Painter) (x y : Int) (style : Style) (lines : List String) : Painter :=
  (lines.zipIdx).foldl (fun p (line, i) => (p.text Cluster.ofText x (y + i) line style).1) p

/-- Paint the scene with the newest log lines that fit, and name the family of glyphs that the
picture is drawn with on the box. -/
def paint (f : Frame) (o : Options) (caps : Capabilities) (picture : Png.Image)
    (log : List String) : Except Failure Frame := do
  let (f, link) ← f.internLink titleLink
  let w : Int := f.width
  let h : Int := f.height
  let p ← Painter.start f 8
  let p := (p.fill ⟨0, 0, w, h⟩ paneStyle).fill ⟨0, 0, w, 1⟩ titleStyle
  let p := (p.text Cluster.ofText 1 0 "n-render" { titleStyle with link }).1
  let area := o.pictureArea
  let p := p.box (around area) borderStyle
  let raster ← Raster.ofBytes picture.pixels picture.width picture.height (picture.width * 4)
  let (p, mode) ← p.blit area raster o.blitter caps.blit
  let p := (p.text Cluster.ofText 2 1 (" " ++ mode.name ++ " ") borderStyle).1
  let pane : Rect := ⟨w / 2, 1, w - w / 2, h - 1⟩
  let p ← p.pushClip pane
  let newest := log.drop (log.length - pane.h.toNat)
  let p ← (paintLines p (pane.x + 1) pane.y paneStyle newest).popClip
  return p.frame

end CellCanvas.Demo
