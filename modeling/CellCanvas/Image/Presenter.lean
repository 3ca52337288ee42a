import CellCanvas.Image.Cache
import CellCanvas.Image.Fingerprint
import CellCanvas.Image.InlineFile
import CellCanvas.Image.Kitty
import CellCanvas.Image.Scale
import CellCanvas.Image.Sixel
import CellCanvas.Output

/-!
# Presenting images

A presenter sends frames of images. Kitty images are sent once and placed again as long as they
stay the same; those that a frame does not place are deleted at its end. Sixel and iTerm2 images
are scaled to their cell area and sent every time. A frame is presented completely or not at all.
-/

namespace CellCanvas

/-- What presenting a frame did. -/
structure PresentStats where
  transmitted : Nat := 0
  reused : Nat := 0
  deleted : Nat := 0
  encoded : Nat := 0
  skipped : Nat := 0
deriving DecidableEq, Repr

/-- The images on the terminal and the budget for scaling and encoding. -/
structure Presenter where
  cache : ImageCache
  scratch : Scratch

/-- A frame that is being presented. -/
structure Presentation where
  cache : ImageCache
  output : Output
  stats : PresentStats

namespace Presentation

/-- Add the text of a sequence. -/
def send (p : Presentation) (text : String) : Except Failure Presentation := do
  return { p with output := ← p.output.append text.toUTF8 }

/-- Place the image of a slot. -/
def place (p : Presentation) (i : Nat) (c : ImageCommand) : Except Failure Presentation := do
  let p ← p.send (← Kitty.place (p.cache.slot i).number c.column c.row c.columns c.rows c.z)
  return { p with cache := p.cache.markPlaced i }

/-- Delete the image that a slot holds. -/
def evict (p : Presentation) (i : Nat) : Except Failure Presentation := do
  if (p.cache.slot i).transmitted then
    let p ← p.send (← Kitty.delete (p.cache.slot i).number)
    return { p with stats := { p.stats with deleted := p.stats.deleted + 1 } }
  else return p

/-- Transmit an image under a new number into a slot that is freed for it, and place it. -/
def transmit (p : Presentation) (c : ImageCommand) (bytes : ByteArray) (hash : UInt64) :
    Except Failure Presentation := do
  let (cache, i) := p.cache.chooseSlot
  let p ← evict { p with cache } i
  let (cache, number) := p.cache.takeNumber
  let slot : ImageSlot :=
    { number, callerId := c.callerId, hash, width := c.width, height := c.height,
      transmitted := true }
  let p := { p with cache := cache.setSlot i slot }
  let p ← p.send (← Kitty.transmit number bytes c.width c.height c.columns c.rows)
  let p ← p.place i c
  return { p with stats := { p.stats with transmitted := p.stats.transmitted + 1 } }

/-- Show an image through the Kitty protocol. -/
def kitty (p : Presentation) (c : ImageCommand) (bytes : ByteArray) :
    Except Failure Presentation := do
  if c.format ≠ .rgba then throw (.unsupported .kittyPng)
  let hash := fingerprint bytes
  match p.cache.find? c.callerId hash c.width c.height with
  | some i =>
    let p ← p.place i c
    return { p with stats := { p.stats with reused := p.stats.reused + 1 } }
  | none => p.transmit c bytes hash

/-- The size in pixels of a command's cell area. Sides of cells that are zero have their usual
values. -/
def targetSize (c : ImageCommand) (support : ImageSupport) : Except Failure Fit.Extent :=
  let cellWidth := if support.cellWidth = 0 then 8 else support.cellWidth
  let cellHeight := if support.cellHeight = 0 then 16 else support.cellHeight
  let w := c.columns * cellWidth
  let h := c.rows * cellHeight
  if 0 < w ∧ w < 65536 ∧ 0 < h ∧ h < 65536 then .ok (w, h) else .error (.limit .targetSide)

/-- The text of an image for the Sixel protocol. -/
def sixelText (c : ImageCommand) (bytes : ByteArray) (support : ImageSupport) :
    Scratching String := do
  if c.format ≠ .rgba then throw (.unsupported .sixelPng)
  let target ← targetSize c support
  Scratch.scope do
    let pixels ← Scale.charged bytes (c.width, c.height) c.fit target
    Sixel.encode pixels target.1 target.2 c.column c.row

/-- The text of an image for the iTerm2 protocol. A PNG file is sent as it is. -/
def inlineText (png : PngEncoder) (c : ImageCommand) (bytes : ByteArray) (support : ImageSupport) :
    Scratching String := do
  if c.format = .png then InlineFile.encode bytes c.column c.row c.columns c.rows
  else
    let target ← targetSize c support
    Scratch.scope do
      let pixels ← Scale.charged bytes (c.width, c.height) c.fit target
      InlineFile.encodePixels png pixels target.1 target.2 c.column c.row c.columns c.rows

/-- Send an image that is encoded with the help of a scratch budget. -/
def encoded (p : Presentation) (text : Scratching String) (scratch : Scratch) :
    Except Failure Presentation := do
  let p ← p.send (← (text scratch).1)
  return { p with stats := { p.stats with encoded := p.stats.encoded + 1 } }

/-- Show one image through the protocol that its command asks for. -/
def display (png : PngEncoder) (p : Presentation) (support : ImageSupport) (scratch : Scratch)
    (command : ImageCommand × ByteArray) : Except Failure Presentation :=
  let (c, bytes) := command
  match c.protocol.resolve support with
  | .kitty => p.kitty c bytes
  | .sixel => p.encoded (sixelText c bytes support) scratch
  | .iterm2 => p.encoded (inlineText png c bytes support) scratch
  | .none => .ok { p with stats := { p.stats with skipped := p.stats.skipped + 1 } }

/-- Delete the image of a slot that the frame did not place. -/
def dropUnplaced (p : Presentation) (i : Nat) : Except Failure Presentation := do
  let s := p.cache.slot i
  if s.transmitted && !s.placed then
    let p ← p.evict i
    return { p with cache := p.cache.setSlot i {} }
  else return p

end Presentation

namespace Presenter

/-- A presenter for a terminal without images. -/
def withBudget (budget : Nat) : Presenter := ⟨{}, .withBudget budget⟩

/-- Forget all images without deleting them, for when the terminal was reset. -/
def forget (p : Presenter) : Presenter := { p with cache := {} }

/-- Present a frame into a buffer of its own, as large as the room that is left. -/
def compose (png : PngEncoder) (p : Presenter) (f : ImageFrame) (support : ImageSupport)
    (room : Nat) : Except Failure Presentation := do
  let start : Presentation := ⟨p.cache.beginFrame, .withLimit room, {}⟩
  let shown ← f.commands.toList.foldlM (fun s c => s.display png support p.scratch c) start
  (List.range shown.cache.slots.size).foldlM Presentation.dropUnplaced shown

/-- Present a frame. Nothing changes when it fails. -/
def present (png : PngEncoder) (p : Presenter) (f : ImageFrame) (support : ImageSupport)
    (out : Output) : Except Failure (Presenter × Output × PresentStats) := do
  let done ← p.compose png f support out.remaining
  let out ← out.append done.output.pending
  return ({ p with cache := done.cache }, out, done.stats)

end Presenter

end CellCanvas
