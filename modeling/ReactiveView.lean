import ReactiveView.Component.Basic
import ReactiveView.Component.Passes
import ReactiveView.Component.Sizing
import ReactiveView.Component.Tasks
import ReactiveView.Decimal.Binary
import ReactiveView.Decimal.Fixed
import ReactiveView.Decimal.Reading
import ReactiveView.Decimal.Shortest
import ReactiveView.Document.Basic
import ReactiveView.Document.Blueprint
import ReactiveView.Document.Compile
import ReactiveView.Document.Format
import ReactiveView.Expr.Basic
import ReactiveView.Expr.Builtins
import ReactiveView.Expr.Eval
import ReactiveView.Expr.Operators
import ReactiveView.Expr.Parser
import ReactiveView.Expr.Template
import ReactiveView.Expr.Token
import ReactiveView.Json.Basic
import ReactiveView.Json.Fields
import ReactiveView.Json.Reader
import ReactiveView.Json.Writer
import ReactiveView.Layout.Box
import ReactiveView.Layout.Config
import ReactiveView.Layout.Container
import ReactiveView.Layout.Guard
import ReactiveView.Layout.SizeHint
import ReactiveView.Linear.Constraint
import ReactiveView.Linear.Exact
import ReactiveView.Linear.Expression
import ReactiveView.Linear.Formula
import ReactiveView.Linear.Scalar
import ReactiveView.Linear.Strength
import ReactiveView.Log
import ReactiveView.Network.Binding
import ReactiveView.Network.Cascade
import ReactiveView.Network.Command
import ReactiveView.Network.Format
import ReactiveView.Network.State
import ReactiveView.Proofs.Layout.Calls
import ReactiveView.Proofs.Layout.Probes
import ReactiveView.Proofs.Layout.SetUp
import ReactiveView.Proofs.Linear.Meaning
import ReactiveView.Proofs.Simplex.Adding
import ReactiveView.Proofs.Simplex.Artificial
import ReactiveView.Proofs.Simplex.Basis
import ReactiveView.Proofs.Simplex.Consistent
import ReactiveView.Proofs.Simplex.Construct
import ReactiveView.Proofs.Simplex.Equations
import ReactiveView.Proofs.Simplex.Extension
import ReactiveView.Proofs.Simplex.Feasible
import ReactiveView.Proofs.Simplex.Loops
import ReactiveView.Proofs.Simplex.Operations
import ReactiveView.Proofs.Simplex.Optimum
import ReactiveView.Proofs.Simplex.Ratio
import ReactiveView.Proofs.Simplex.Removing
import ReactiveView.Proofs.Simplex.Requirements
import ReactiveView.Proofs.Simplex.Row
import ReactiveView.Proofs.Simplex.Runs
import ReactiveView.Proofs.Simplex.Sound
import ReactiveView.Proofs.Simplex.Suggesting
import ReactiveView.Proofs.Table.Ascending
import ReactiveView.Schedule.Job
import ReactiveView.Schedule.Queue
import ReactiveView.Scope
import ReactiveView.Simplex.Pivot
import ReactiveView.Simplex.Row
import ReactiveView.Simplex.Solver
import ReactiveView.Simplex.Tableau
import ReactiveView.Store
import ReactiveView.Table
import ReactiveView.Text.CaseTable
import ReactiveView.Text.GraphicTable
import ReactiveView.Text.Letters
import ReactiveView.Text.Quoted
import ReactiveView.Text.Search
import ReactiveView.Value.Basic
import ReactiveView.Value.Error
import ReactiveView.View.Build
import ReactiveView.View.Command
import ReactiveView.View.Format
import ReactiveView.View.Session
import ReactiveView.Widget.Class
import ReactiveView.Widget.Format
import ReactiveView.Proofs.Expr.Tracking
import ReactiveView.Proofs.Network.Bindings
import ReactiveView.Proofs.Network.Commands
import ReactiveView.Proofs.Network.Frame
import ReactiveView.Proofs.Value.Equal
import ReactiveView.Proofs.Network.Induction
import ReactiveView.Proofs.Network.Delegate
import ReactiveView.Proofs.Expr.Plain
import ReactiveView.Proofs.Expr.Numbering
import ReactiveView.Proofs.Network.Links
import ReactiveView.Proofs.Network.Derived
import ReactiveView.Proofs.Network.Settled
import ReactiveView.Proofs.Network.Pending
import ReactiveView.Proofs.Network.Consistency
import ReactiveView.Proofs.Simplex.Editing
import ReactiveView.Proofs.Layout.Batches
import ReactiveView.Proofs.Component.Frame
import ReactiveView.Proofs.Component.Listing
import ReactiveView.Proofs.Component.Passes
import ReactiveView.Proofs.Component.Adoption
import ReactiveView.Proofs.Component.Handing
import ReactiveView.Proofs.Component.Placing
import ReactiveView.Proofs.Document.Acceptance
import ReactiveView.Proofs.Document.Compiled
import ReactiveView.Proofs.Expr.Printing
import ReactiveView.Proofs.Expr.Reading
import ReactiveView.Proofs.Expr.RoundTrip
import ReactiveView.Proofs.Component.Faces
import ReactiveView.Proofs.Component.Invalidation
import ReactiveView.Proofs.Component.Acts
import ReactiveView.Proofs.Component.Coalescing
import ReactiveView.Proofs.Component.Resizing
import ReactiveView.Proofs.Document.Nodes
import ReactiveView.Proofs.View.Building
import ReactiveView.Proofs.View.Tying
import ReactiveView.Proofs.Network.Owning
import ReactiveView.Proofs.Network.Keeping
import ReactiveView.Proofs.Network.Keepers
import ReactiveView.Proofs.Component.Keeping
import ReactiveView.Proofs.Component.Hosting
import ReactiveView.Proofs.View.Keeping
import ReactiveView.Proofs.View.Leaving
import ReactiveView.Proofs.Layout.Swapping
import ReactiveView.Proofs.Document.RoundTrip
import ReactiveView.Proofs.Expr.Literals
import ReactiveView.Proofs.Expr.Tiling
import ReactiveView.Proofs.Expr.Joining
import ReactiveView.Proofs.Expr.Positions
import ReactiveView.Proofs.Expr.Walking
import ReactiveView.Proofs.Expr.Progress
import ReactiveView.Proofs.Json.RoundTrip
import ReactiveView.Proofs.Network.Signals
import ReactiveView.Proofs.Layout.Contents
import ReactiveView.Proofs.Component.Naming
import ReactiveView.Proofs.Component.Reflecting
import ReactiveView.Proofs.Component.Renewing
import ReactiveView.Proofs.Component.Attending
import ReactiveView.Proofs.Component.Freshness
import ReactiveView.Proofs.Component.Cleaning
import ReactiveView.Proofs.Schedule.Order
import ReactiveView.Proofs.Component.Draining
import ReactiveView.Proofs.Value.Pairing
import ReactiveView.Proofs.Expr.Pairing
import ReactiveView.Proofs.Network.Coupling
import ReactiveView.Proofs.Network.Recoding
import ReactiveView.Proofs.Network.Fencing
import ReactiveView.Proofs.Network.Silence
import ReactiveView.Proofs.Document.Recoding
import ReactiveView.Proofs.Effect.Twins
import ReactiveView.Proofs.View.Entries
import ReactiveView.Proofs.View.Quiet
import ReactiveView.Proofs.Component.Locality
import ReactiveView.Proofs.Simplex.Reoptimising
import ReactiveView.Proofs.Simplex.Symbols
import ReactiveView.Proofs.Simplex.Rejecting
import ReactiveView.Proofs.Simplex.Cycling
import ReactiveView.Proofs.Simplex.Ending
import ReactiveView.Proofs.Simplex.Separation
import ReactiveView.Proofs.Value.FloatFree
import ReactiveView.Proofs.Network.Flooding
import ReactiveView.Proofs.Network.Settling
import ReactiveView.Proofs.Network.Tuning
import ReactiveView.Proofs.View.Locality
import ReactiveView.Proofs.View.Parting
import ReactiveView.Proofs.Expr.Arithmetic
import ReactiveView.Proofs.Expr.Comparing
import ReactiveView.Proofs.Template.Filling
