import CellCanvas.Capabilities.Settings
import CellCanvas.Demo.Scene
import CellCanvas.Demo.TestCard
import CellCanvas.Image.Png.Reader
import CellCanvas.Image.Presenter
import CellCanvas.Session

/-!
# The demonstration program

The scene is rendered, three lines are added to its log, and it is rendered again, so that the
second render only sends what changed. The picture may also be sent through an image protocol. All
of this is a function from the arguments and the files that they name to an `Outcome`.
-/

namespace CellCanvas.Demo

/-- The contents of the files that the options name. -/
structure Files where
  capabilities : Except IoFailure ByteArray := .error .fileNotFound
  /-- The picture, if its file can be read. -/
  picture : Option ByteArray := none

/-- What a run writes and how it ends. -/
structure Outcome where
  output : ByteArray := .empty
  /-- Whether the program waits for a line of input before it goes on. -/
  waits : Bool := false
  /-- What is written at the end. -/
  farewell : ByteArray := .empty
  errors : String := ""
  failed : Bool := false

/-- The terminal that the options ask for. -/
def Options.readCapabilities (o : Options) (files : Files) : Except Failure Capabilities :=
  match o.capabilities with
  | none => .ok {}
  | some _ =>
    match files.capabilities with
    | .error cause => .error (.inputOutput cause)
    | .ok bytes =>
      match String.fromUTF8? bytes with
      | none => .error (.inputOutput .notUtf8)
      | some text => Capabilities.ofToml text

/-- Whether a file is taken for a PNG file by the end of its name. -/
def isPngName (path : String) : Bool :=
  let reversed := path.toList.reverse.takeWhile (· ≠ '/')
  let ending := (reversed.takeWhile (· ≠ '.')).reverse.map Char.toLower
  let stem := (reversed.dropWhile (· ≠ '.')).drop 1
  !stem.isEmpty && (ending = "png".toList || ending = "apng".toList)

/-- The picture that the options ask for. -/
def Options.readPicture (o : Options) (files : Files) : Except Failure Png.Image :=
  match o.picture with
  | none => .ok TestCard.picture
  | some path =>
    match if isPngName path then files.picture.bind Png.read? else none with
    | some picture => .ok picture
    | none => .error .undecodableImage

/-- The bytes that show the picture through an image protocol. -/
def presentPicture (o : Options) (caps : Capabilities) (picture : Png.Image) :
    Except Failure ByteArray := do
  let area := o.pictureArea
  if area.w < 0 ∨ area.h < 0 then throw (.invalid .gridForImage)
  if 65535 < picture.width ∨ 65535 < picture.height then throw (.limit .imageSide)
  let command : ImageCommand :=
    { column := area.x.toNat, row := area.y.toNat, columns := area.w.toNat, rows := area.h.toNat
      callerId := 1, width := picture.width, height := picture.height
      protocol := o.protocol, fit := o.fit }
  let frame ← ImageFrame.empty.push command picture.pixels
  let presenter := Presenter.withBudget Scratch.defaultBudget
  let (_, out, _) ← presenter.present Png.encoder frame caps.images .unbounded
  return out.pending

/-- The cursor while the scene is shown. -/
def sceneCursor : CursorRequest := { CursorRequest.hidden with shape := .steadyBar }

/-- The bytes of all renders, and of the picture after them. The last render leaves the cursor in
the last row. -/
def play (o : Options) (caps : Capabilities) (picture : Png.Image) : Except Failure ByteArray := do
  let session := Session.start { scrollOptimization := o.scroll } .unbounded
  let log := (List.range o.rows.toNat).map firstLogLine
  let first ← paint (.blank o.columns o.rows) o caps picture log
  let (session, _) ← session.render first caps sceneCursor
  let more := log ++ (List.range' o.rows.toNat 3).map laterLogLine
  let second ← paint first.resetLinks o caps picture more
  let (session, _) ← session.render second caps sceneCursor
  let image ← if o.protocol = .named .none then pure .empty else presentPicture o caps picture
  let last : Int := o.rows.toNat
  let (session, _) ← session.render second caps (CursorRequest.shownAt 0 (last - 1))
  return session.output.pending ++ image

/-- What is known before anything is written: the terminal and the picture. -/
def prepare (o : Options) (files : Files) : Except Failure (Capabilities × Png.Image) := do
  let caps ← o.readCapabilities files
  if o.columns < 8 ∨ o.rows < 6 then throw (.invalid .gridSize)
  return (caps, ← o.readPicture files)

/-- The bytes of some commands. -/
def bytesOf (commands : List Command) : ByteArray := (Command.encodeAll commands).toUTF8

/-- The outcome of a failure after some output. -/
def failure (output : ByteArray) (cause : Failure) : Outcome :=
  { output, errors := "n-render: " ++ cause.message ++ "\n", failed := true }

/-- Run the program with given options. -/
def runWith (o : Options) (files : Files) : Outcome :=
  match prepare o files with
  | .error cause => failure .empty cause
  | .ok (caps, picture) =>
    let opening := if o.alternateScreen then bytesOf [.enterAlternateScreen] else .empty
    match play o caps picture with
    | .error cause => failure opening cause
    | .ok bytes =>
      let reset := bytesOf [.resetStyle, .showCursor]
      { output := opening ++ bytes
        waits := o.alternateScreen
        farewell :=
          if o.alternateScreen then reset ++ bytesOf [.leaveAlternateScreen] else reset.push 10 }

/-- Run the program with given arguments. The files are those that the options name. -/
def run (arguments : List String) (files : Options → Files) : Outcome :=
  match Options.ofArguments {} arguments with
  | .error cause =>
    { errors := "n-render: " ++ cause.message ++ "\n" ++ usage, failed := true }
  | .ok none => { output := usage.toUTF8 }
  | .ok (some o) => runWith o (files o)

end CellCanvas.Demo
