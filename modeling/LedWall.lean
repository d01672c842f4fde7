import LedWall.Command.Rehearsal
import LedWall.Frame.Reader
import LedWall.Main
import LedWall.Proofs.Frame.Header
import LedWall.Proofs.Frame.RoundTrip
import LedWall.Proofs.Frame.Tiles
import LedWall.Proofs.Grid
import LedWall.Proofs.Canvas.Ownership
import LedWall.Proofs.Canvas.Extent
import LedWall.Proofs.Surface.Reach
import LedWall.Proofs.Surface.Way
import LedWall.Proofs.Surface.Independence
import LedWall.Proofs.Frame.Grammar
import LedWall.Proofs.Frame.Budget
import LedWall.Proofs.Link.Limit
import LedWall.Proofs.Recorded
import LedWall.Proofs.Surface.Sending
import LedWall.Proofs.Stream.Custody
import LedWall.Proofs.Chain.OnChain
import LedWall.Proofs.Chain.Covered
import LedWall.Proofs.Chain.Refusal
import LedWall.Proofs.Stream.Course
import LedWall.Proofs.Stream.Passes
import LedWall.Proofs.Stream.Account
import LedWall.Proofs.Frame.Picture
import LedWall.Proofs.Surface.Delivery
import LedWall.Proofs.Canvas.Served
import LedWall.Proofs.Canvas.Slices
import LedWall.Proofs.Surface.Resend
import LedWall.Proofs.Stream.Apart
import LedWall.Proofs.Settings.Precedence
import LedWall.Proofs.Frame.Compressed
import LedWall.Proofs.Stream.Results
import LedWall.Proofs.Sweep.Streamed
import LedWall.Proofs.Toml.Strings
import LedWall.Proofs.Toml.Scalars
import LedWall.Proofs.Toml.Statements
import LedWall.Proofs.Toml.Trees
import LedWall.Proofs.Toml.Lawful
import LedWall.Proofs.Files.Memory
import LedWall.Proofs.Settings.Written
import LedWall.Proofs.Settings.Saved
import LedWall.Proofs.FrameBuffer
import LedWall.Proofs.Frame.Truncation
import LedWall.Proofs.Frame.Placement
import LedWall.Proofs.Surface.Painting
import LedWall.Proofs.Canvas.Filled
import LedWall.Proofs.Chain.Filled
import LedWall.Proofs.Frame.Normal
import LedWall.Proofs.Command.Cleared
import LedWall.Proofs.Gradient.Painted
import LedWall.Proofs.Link.Writes
import LedWall.Proofs.Surface.Shown
import LedWall.Proofs.Gradient.Sent
import LedWall.Proofs.Chain.Opened
import LedWall.Proofs.Endpoint
import LedWall.Proofs.Frame.InPlace
