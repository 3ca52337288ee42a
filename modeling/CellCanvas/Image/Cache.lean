import CellCanvas.Image.Frame

/-!
# The image cache

Kitty images stay on the terminal until they are deleted. The cache records which ones are there,
in at most 64 slots. An image is known by its fingerprint and its size in pixels. When all slots
are taken, the image that was placed least recently gives way.
-/

namespace CellCanvas

/-- What is known about one image on the terminal. -/
structure ImageSlot where
  /-- The number of the image on the terminal. -/
  number : Nat := 0
  callerId : Nat := 0
  hash : UInt64 := 0
  width : Nat := 0
  height : Nat := 0
  transmitted : Bool := false
  /-- Whether the current frame has placed the image. -/
  placed : Bool := false
  /-- When the image was last placed. -/
  tick : Nat := 0
deriving DecidableEq, Inhabited, Repr

/-- The images on the terminal, with the next free number and the number of placements so far. -/
structure ImageCache where
  slots : Array ImageSlot := #[]
  nextNumber : Nat := 1
  tick : Nat := 0
deriving DecidableEq, Repr

namespace ImageCache

/-- The most images that are kept on the terminal. -/
def maxSlots : Nat := 64

/-- The last number an image can have; the next one is 1 again. -/
def lastNumber : Nat := 4294967295

/-- How many images are on the terminal. -/
def resident (c : ImageCache) : Nat := c.slots.countP ImageSlot.transmitted

/-- Start a frame: nothing is placed yet. -/
def beginFrame (c : ImageCache) : ImageCache :=
  { c with slots := c.slots.map fun s => { s with placed := false } }

/-- Whether a slot holds an image with these pixels. -/
def holds (hash : UInt64) (width height : Nat) (s : ImageSlot) : Bool :=
  s.transmitted && s.hash == hash && s.width == width && s.height == height

/-- The slot of an image that is on the terminal, of those with the same pixels preferably the one
with the caller's number. -/
def find? (c : ImageCache) (callerId : Nat) (hash : UInt64) (width height : Nat) : Option Nat :=
  let byId :=
    if callerId = 0 then none
    else c.slots.findIdx? fun s => holds hash width height s && s.callerId == callerId
  byId <|> c.slots.findIdx? (holds hash width height)

/-- The index of the first slot with the least tick. -/
def leastRecent (c : ImageCache) : Nat :=
  let oldest := (c.slots.map ImageSlot.tick).toList.min?.getD 0
  (c.slots.findIdx? fun s => s.tick == oldest).getD 0

/-- The cache with room for one more image, and the slot to use: a new one, the first unused one,
or the one that was placed least recently. -/
def chooseSlot (c : ImageCache) : ImageCache × Nat :=
  if c.slots.size < maxSlots then ({ c with slots := c.slots.push {} }, c.slots.size)
  else match c.slots.findIdx? fun s => !s.transmitted with
    | some i => (c, i)
    | none => (c, c.leastRecent)

/-- Take the next number. -/
def takeNumber (c : ImageCache) : ImageCache × Nat :=
  ({ c with nextNumber := if c.nextNumber = lastNumber then 1 else c.nextNumber + 1 },
    c.nextNumber)

/-- The slot with an index. -/
def slot (c : ImageCache) (i : Nat) : ImageSlot := c.slots.getD i {}

/-- Replace a slot. -/
def setSlot (c : ImageCache) (i : Nat) (s : ImageSlot) : ImageCache :=
  { c with slots := c.slots.setIfInBounds i s }

/-- Record that the image of a slot was placed. -/
def markPlaced (c : ImageCache) (i : Nat) : ImageCache :=
  let tick := c.tick + 1
  { c.setSlot i { c.slot i with placed := true, tick } with tick }

end ImageCache

end CellCanvas
