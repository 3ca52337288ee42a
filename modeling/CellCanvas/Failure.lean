/-!
# Failures

Every refusal of the library is a `Failure`: a cause, not a text. The wording that users read is
in one place, `Failure.message`.
-/

namespace CellCanvas

/-- A request that is malformed; it is refused before any work starts. -/
inductive Invalid where
  | emptyLink
  | controlInLink
  | noClipCapacity
  | glyphWidth
  | rasterSide
  | rasterStride
  | rasterLength
  | negativeTarget
  | blitterName
  | fitName
  | protocolName
  | imageSide
  | cellArea
  | zeroImageId
  | pixelLength
  | sourceLength
  | emptyPng
  | emptyImage
  | gridSize
  | gridForImage
  | missingFlagValue
  | flagValue (flag : String)
  | unknownFlag
deriving DecidableEq, Repr

/-- A bounded resource that cannot hold the complete result. -/
inductive Resource where
  | linkLength
  | linkTable
  | clipStackFull
  | clipStackBase
  | frameBytes
  | output
  | scratch
  | destination
  | targetSide
  | imageSide
deriving DecidableEq, Repr

/-- A well-formed request that cannot be served. -/
inductive Unserved where
  | pixelBlitter
  | kittyPng
  | sixelPng
deriving DecidableEq, Repr

/-- A failure of reading or writing bytes. -/
inductive IoFailure where
  /-- A bounded output took none of the bytes. -/
  | writeZero
  /-- The receiving end refuses every byte. -/
  | brokenPipe (text : String)
  | fileNotFound
  | notUtf8
  | other (text : String)
deriving DecidableEq, Repr

/-- Why a configuration text was refused. -/
inductive ConfigFault where
  | malformed
  | wrongType
deriving DecidableEq, Repr

/-- Everything that can go wrong while painting, rendering or encoding. -/
inductive Failure where
  | invalid (what : Invalid)
  | limit (what : Resource)
  | unsupported (what : Unserved)
  | overflow
  | inputOutput (cause : IoFailure)
  | config (fault : ConfigFault)
  | undecodableImage
deriving DecidableEq, Repr

/-- The words that name a malformed request. -/
def Invalid.text : Invalid → String
  | emptyLink => "empty hyperlink uri"
  | controlInLink => "hyperlink uri contains control bytes"
  | noClipCapacity => "clip stack capacity is zero"
  | glyphWidth => "grapheme width must be 1 or 2"
  | rasterSide => "raster dimension is zero"
  | rasterStride => "raster stride shorter than a row"
  | rasterLength => "raster buffer too short"
  | negativeTarget => "negative blit destination"
  | blitterName => "unknown blitter"
  | fitName => "unknown fit mode"
  | protocolName => "unknown image protocol"
  | imageSide => "zero image dimension"
  | cellArea => "zero cell area"
  | zeroImageId => "kitty image id must be non-zero"
  | pixelLength => "pixel buffer shorter than width * height * 4"
  | sourceLength => "source shorter than width * height * 4"
  | emptyPng => "empty PNG payload"
  | emptyImage => "empty image payload"
  | gridSize => "grid must be at least 8x6"
  | gridForImage => "grid too small for an image"
  | missingFlagValue => "flag needs a value"
  | flagValue flag => flag
  | unknownFlag => "unknown flag"

/-- The words that name an exhausted resource. -/
def Resource.text : Resource → String
  | linkLength => "hyperlink uri too long"
  | linkTable => "hyperlink table full"
  | clipStackFull => "clip stack full"
  | clipStackBase => "clip stack at base"
  | frameBytes => "frame exceeds max_frame_bytes"
  | output => "output buffer full"
  | scratch => "scratch arena exhausted"
  | destination => "destination shorter than width * height * 4"
  | targetSide => "image target size exceeds 65535 pixels"
  | imageSide => "image larger than 65535 pixels"

/-- The words that name an unserved request. -/
def Unserved.text : Unserved → String
  | pixelBlitter => "pixel blitter"
  | kittyPng => "kitty transmit needs RGBA pixels"
  | sixelPng => "sixel needs RGBA pixels"

/-- The words of a read or write failure. -/
def IoFailure.text : IoFailure → String
  | writeZero => "output buffer full"
  | brokenPipe text => text
  | fileNotFound => "No such file or directory (os error 2)"
  | notUtf8 => "stream did not contain valid UTF-8"
  | other text => text

/-- The words of a configuration fault. -/
def ConfigFault.text : ConfigFault → String
  | malformed => "the text is not valid TOML"
  | wrongType => "a value has the wrong type"

/-- The line a user reads. -/
def Failure.message : Failure → String
  | invalid what => "invalid argument: " ++ what.text
  | limit what => "limit reached: " ++ what.text
  | unsupported what => "unsupported: " ++ what.text
  | overflow => "arithmetic overflow in size computation"
  | inputOutput cause => "I/O error: " ++ cause.text
  | config fault => "config error: " ++ fault.text
  | undecodableImage => "encode error: the file is not a readable PNG"

end CellCanvas
