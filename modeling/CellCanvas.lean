import CellCanvas.Main
import CellCanvas.Frame.Pairing
import CellCanvas.Frame.Resize
import CellCanvas.Paint.Copy
import CellCanvas.Proofs.Wire.Parameters
import CellCanvas.Proofs.Emulator.Rendition
import CellCanvas.Proofs.Emulator.Screen
import CellCanvas.Proofs.Emulator
import CellCanvas.Proofs.Wire.Command
import CellCanvas.Proofs.Emulator.Commands
import CellCanvas.Proofs.Frame.Pairing
import CellCanvas.Proofs.Session.Tracking
import CellCanvas.Proofs.Session.Drafts
import CellCanvas.Proofs.Session.Renders
import CellCanvas.Proofs.Session.Agreement
import CellCanvas.Proofs.Emulator.Display
import CellCanvas.Proofs.Session.Painting
import CellCanvas.Proofs.Session.Comparison
import CellCanvas.Proofs.Scroll
import CellCanvas.Proofs.Session.Scrolling
import CellCanvas.Proofs.Session.Replay
import CellCanvas.Proofs.Frame.Resizing
import CellCanvas.Proofs.Frame.Writing
import CellCanvas.Proofs.Paint.Places
import CellCanvas.Proofs.Paint.Validity
import CellCanvas.Proofs.Image.Base64
import CellCanvas.Proofs.Image.Cache
import CellCanvas.Proofs.Image.Graphics
import CellCanvas.Proofs.Image.Kitty
import CellCanvas.Proofs.Image.Mirror
import CellCanvas.Proofs.Image.Presentation
import CellCanvas.Proofs.Image.Presenter
import CellCanvas.Proofs.Image.Recency
import CellCanvas.Proofs.Image.Gallery
import CellCanvas.Proofs.Image.Exhibit
import CellCanvas.Proofs.Wire.Token
import CellCanvas.Proofs.Session.Growth
import CellCanvas.Proofs.Session.Unbounded
import CellCanvas.Proofs.Session.Sizes
import CellCanvas.Proofs.Paint.Addresses
import CellCanvas.Proofs.Session.Budget
import CellCanvas.Proofs.Session.ScrollCost
import CellCanvas.Proofs.Session.Grammar
import CellCanvas.Proofs.Session.FrameText
import CellCanvas.Proofs.Session.Unchanged
import CellCanvas.Proofs.Paint.WordRect
import CellCanvas.Proofs.Paint.Clips
import CellCanvas.Proofs.Paint.Confinement
import CellCanvas.Proofs.Image.Charges
import CellCanvas.Proofs.Image.Limits
import CellCanvas.Proofs.Image.Atomicity
import CellCanvas.Proofs.Emulator.Restyling
import CellCanvas.Proofs.Session.Spans
import CellCanvas.Proofs.Session.Tally
import CellCanvas.Proofs.Scroll.Preference
import CellCanvas.Proofs.Scroll.Words
import CellCanvas.Proofs.Paint.Copying
import CellCanvas.Proofs.Paint.Snapshots
import CellCanvas.Proofs.Session.Positions
import CellCanvas.Proofs.Image.Transmission
import CellCanvas.Proofs.Image.Residence
import CellCanvas.Proofs.Image.Handling
import CellCanvas.Proofs.Image.Eviction
import CellCanvas.Proofs.Image.Turnover
import CellCanvas.Proofs.Image.Sixel.Reader
import CellCanvas.Proofs.Image.Sixel.Passes
import CellCanvas.Proofs.Image.Sixel.Registers
import CellCanvas.Proofs.Image.Sixel.Bands
import CellCanvas.Proofs.Image.Sixel.RoundTrip
import CellCanvas.Proofs.Blit.Underlay
import CellCanvas.Proofs.Image.Fitting
import CellCanvas.Proofs.Image.Scaling
import CellCanvas.Proofs.Image.WordScale
import CellCanvas.Proofs.Image.Numbering
import CellCanvas.Proofs.Image.Settlement
import CellCanvas.Proofs.Frame.InPlace
import CellCanvas.Proofs.Frame.Overlap
import CellCanvas.Proofs.Text.Controls
import CellCanvas.Proofs.Paint.Typesetting
import CellCanvas.Proofs.Blit.WordSampling
import CellCanvas.Proofs.Image.Refunds
import CellCanvas.Proofs.Argmin
import CellCanvas.Proofs.Color.Distance
import CellCanvas.Proofs.Color.Nearest
import CellCanvas.Proofs.Blit.Splits
import CellCanvas.Proofs.Frame.LinkTable
import CellCanvas.Proofs.Output
import CellCanvas.Proofs.Output.Pieces
import CellCanvas.Proofs.Wire.Writing
import CellCanvas.Proofs.Wire.Emitters
import CellCanvas.Proofs.Image.Scopes
