import HingedPanels.Animation
import HingedPanels.Animation.Frame
import HingedPanels.Binary
import HingedPanels.Decimal
import HingedPanels.Decimal.Places
import HingedPanels.Decimal.Shortest
import HingedPanels.Fault.Message
import HingedPanels.Hinge
import HingedPanels.Notice
import HingedPanels.Panel
import HingedPanels.Placement
import HingedPanels.Plan
import HingedPanels.Plan.Chain
import HingedPanels.Plan.Machine
import HingedPanels.Proofs.Animation.Batch
import HingedPanels.Proofs.Animation.Drawn
import HingedPanels.Proofs.Animation.Frames
import HingedPanels.Proofs.Animation.Reached
import HingedPanels.Proofs.Animation.Settled
import HingedPanels.Proofs.Animation.Store
import HingedPanels.Proofs.Chain.Follows
import HingedPanels.Proofs.Chain.Matched
import HingedPanels.Proofs.Chain.Nesting
import HingedPanels.Proofs.Exact.Action
import HingedPanels.Proofs.Exact.Framed
import HingedPanels.Proofs.Exact.Moved
import HingedPanels.Proofs.Exact.Oriented
import HingedPanels.Proofs.Exact.Space
import HingedPanels.Proofs.Exact.Spread
import HingedPanels.Proofs.Exact.Turning
import HingedPanels.Proofs.Hinge.Frames
import HingedPanels.Proofs.Hinge.Sizes
import HingedPanels.Proofs.Machine.Around
import HingedPanels.Proofs.Machine.Coupled
import HingedPanels.Proofs.Machine.Enclosed
import HingedPanels.Proofs.Machine.Reads
import HingedPanels.Proofs.Machine.Simulation
import HingedPanels.Proofs.Plan.Appended
import HingedPanels.Proofs.Plan.CutOut
import HingedPanels.Proofs.Plan.Noticed
import HingedPanels.Proofs.Plan.Order
import HingedPanels.Proofs.Plan.Paced
import HingedPanels.Proofs.Plan.Refused
import HingedPanels.Proofs.Plan.Reversed
import HingedPanels.Proofs.Plan.Schedule
import HingedPanels.Proofs.Plan.Tree
import HingedPanels.Proofs.Quad.Nearness
import HingedPanels.Proofs.Single.Arithmetic
import HingedPanels.Proofs.Single.Canonical
import HingedPanels.Proofs.Single.Latest
import HingedPanels.Proofs.Single.Missing
import HingedPanels.Proofs.Single.Number
import HingedPanels.Proofs.Single.Packing
import HingedPanels.Proofs.Single.Products
import HingedPanels.Proofs.Single.Range
import HingedPanels.Proofs.Single.Residue
import HingedPanels.Proofs.Single.Rounding
import HingedPanels.Proofs.Single.Rounds
import HingedPanels.Proofs.Single.Share
import HingedPanels.Proofs.Strip.Appended
import HingedPanels.Proofs.Strip.Assembled
import HingedPanels.Proofs.Strip.Bias
import HingedPanels.Proofs.Strip.Cascade
import HingedPanels.Proofs.Strip.Finite
import HingedPanels.Proofs.Strip.Framed
import HingedPanels.Proofs.Strip.Hinged
import HingedPanels.Proofs.Strip.Moved
import HingedPanels.Proofs.Strip.Outcome
import HingedPanels.Proofs.Strip.Rigid
import HingedPanels.Proofs.Strip.Separate
import HingedPanels.Proofs.Strip.Unfolding
import HingedPanels.Proofs.Token.Balance
import HingedPanels.Proofs.Token.Language
import HingedPanels.Proofs.Token.Reversed
import HingedPanels.Proofs.Token.Scans
import HingedPanels.Proofs.Token.Stuck
import HingedPanels.Quad
import HingedPanels.Scalar
import HingedPanels.Settings
import HingedPanels.Settings.File
import HingedPanels.Strip
import HingedPanels.Strip.Build
import HingedPanels.Text.CharSet
import HingedPanels.Text.Extending
import HingedPanels.Text.Quoted
import HingedPanels.Text.Unprintable
import HingedPanels.Token
import HingedPanels.Toml.Document
import HingedPanels.Toml.Item
import HingedPanels.Toml.Number
import HingedPanels.Toml.Reader
import HingedPanels.Toml.Text
import HingedPanels.Vec3
import HingedPanels.Vertex
import HingedPanels.Window
