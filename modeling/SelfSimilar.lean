import SelfSimilar.Scalar.Double
import SelfSimilar.Drawing.Expansion
import SelfSimilar.Session
import SelfSimilar.Proofs.Path.Extension
import SelfSimilar.Proofs.Path.Replay
import SelfSimilar.Proofs.Path.Lingering
import SelfSimilar.Proofs.Program.Occurrence
import SelfSimilar.Proofs.Program.Pen
import SelfSimilar.Proofs.Execution.Work
import SelfSimilar.Proofs.Execution.Rules
import SelfSimilar.Proofs.Execution.Kinds
import SelfSimilar.Proofs.Execution.Globals
import SelfSimilar.Proofs.Execution.Invariants
import SelfSimilar.Proofs.Execution.Visits
import SelfSimilar.Proofs.Execution.Levels
import SelfSimilar.Proofs.Execution.Bodies
import SelfSimilar.Proofs.Execution.Sequencing
import SelfSimilar.Proofs.Execution.Correspondence
import SelfSimilar.Proofs.Execution.Parallel
import SelfSimilar.Proofs.Execution.Past
import SelfSimilar.Proofs.Session.History
import SelfSimilar.Proofs.Session.Balance
import SelfSimilar.Proofs.Session.Replay
import SelfSimilar.Proofs.Session.Sequencing
import SelfSimilar.Proofs.Session.Globals
import SelfSimilar.Proofs.Session.Restart
import SelfSimilar.Proofs.Scalar.Exact
import SelfSimilar.Proofs.Geometry.Matrix
import SelfSimilar.Proofs.Geometry.Frame
import SelfSimilar.Proofs.Geometry.Collapse
import SelfSimilar.Proofs.Path.Motion
import SelfSimilar.Proofs.Execution.Motion
import SelfSimilar.Proofs.Session.Equivariance
import SelfSimilar.Proofs.Execution.Descent
import SelfSimilar.Proofs.Execution.Origin
import SelfSimilar.Proofs.Execution.Reading
import SelfSimilar.Proofs.Execution.Progress
import SelfSimilar.Proofs.Session.Origin
import SelfSimilar.Proofs.Session.Penless
import SelfSimilar.Proofs.Session.Collapse
import SelfSimilar.Proofs.Execution.Rewriting
import SelfSimilar.Proofs.Session.Rewriting
import SelfSimilar.Proofs.Execution.Reentry
import SelfSimilar.Proofs.Session.Straight
import SelfSimilar.Proofs.Session.Source
import SelfSimilar.Proofs.Execution.Chain
import SelfSimilar.Proofs.Execution.Expansion
import SelfSimilar.Proofs.Session.Chain
import SelfSimilar.Proofs.Session.Expansion
import SelfSimilar.Proofs.Execution.Nesting
import SelfSimilar.Proofs.Session.Nesting
import SelfSimilar.Proofs.Execution.Recursion
import SelfSimilar.Proofs.Session.Recursion
import SelfSimilar.Proofs.Execution.Settings
import SelfSimilar.Proofs.Session.Settings
import SelfSimilar.Proofs.Execution.Scopes
import SelfSimilar.Proofs.Program.Bare
import SelfSimilar.Proofs.Execution.Bare
import SelfSimilar.Proofs.Session.Bare
import SelfSimilar.Proofs.Execution.Events
import SelfSimilar.Proofs.Session.Journal
import SelfSimilar.Proofs.Execution.Obstacles
import SelfSimilar.Proofs.Session.Obstacles
import SelfSimilar.Proofs.Execution.Tally
import SelfSimilar.Proofs.Session.Tally
import SelfSimilar.Proofs.Scalar.Order
import SelfSimilar.Proofs.Path.Growth
import SelfSimilar.Proofs.Execution.Growth
import SelfSimilar.Proofs.Session.Growth
import SelfSimilar.Proofs.Geometry.Inversion
import SelfSimilar.Proofs.Scalar.Packing
import SelfSimilar.Proofs.Scalar.Rounding
import SelfSimilar.Proofs.Scalar.Operations
import SelfSimilar.Proofs.Path.Accumulator
import SelfSimilar.Proofs.Path.Numeral
import SelfSimilar.Proofs.Geometry.Similarity
import SelfSimilar.Proofs.Execution.Integers
import SelfSimilar.Proofs.Scope.Chain
import SelfSimilar.Proofs.Scope.History
import SelfSimilar.Proofs.Scalar.Magnitude
import SelfSimilar.Proofs.Scalar.Bounds
import SelfSimilar.Proofs.Geometry.Overflow
import SelfSimilar.Proofs.Value.Division
import SelfSimilar.Proofs.Value.Dispatch
import SelfSimilar.Proofs.Execution.Soundness
import SelfSimilar.Proofs.Geometry.ComplexPoint
import SelfSimilar.Proofs.Program.Text
import SelfSimilar.Proofs.Session.Naming
