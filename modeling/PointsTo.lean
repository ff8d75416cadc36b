import PointsTo.Main
import PointsTo.Proofs.Program.WellFormed
import PointsTo.Proofs.Program.Construction
import PointsTo.Proofs.Program.Loading
import PointsTo.Proofs.Solver.Rules
import PointsTo.Proofs.Solver.Tables
import PointsTo.Proofs.Solver.View
import PointsTo.Proofs.Solver.Moves
import PointsTo.Proofs.Solver.Sound
import PointsTo.Proofs.Solver.Operations
import PointsTo.Proofs.Solver.Processing
import PointsTo.Proofs.Solver.Steps
import PointsTo.Proofs.Solver.Saturation
import PointsTo.Proofs.Solver.Fixpoint
import PointsTo.Proofs.Solver.Start
import PointsTo.Proofs.Solver.Runs
import PointsTo.Proofs.Solver.Exactness
import PointsTo.Proofs.Solver.Universe
import PointsTo.Proofs.Solver.Measure
import PointsTo.Proofs.Solver.Termination
import PointsTo.Proofs.Execution.Coverage
import PointsTo.Proofs.Result.Queries
import PointsTo.Proofs.Execution.Soundness
import PointsTo.Proofs.Solver.Translation
import PointsTo.Proofs.Solver.Truncation
import PointsTo.Proofs.Solver.Schedules
import PointsTo.Proofs.Solver.Recording
import PointsTo.Proofs.Solver.Injection
import PointsTo.Proofs.Program.Simulation
import PointsTo.Proofs.Program.Alike
import PointsTo.Proofs.Program.Linking
import PointsTo.Proofs.Program.Resolution
import PointsTo.Proofs.Program.Rearrangement
import PointsTo.Proofs.Solver.FlowInsensitivity
import PointsTo.Proofs.Solver.Growth
import PointsTo.Proofs.Solver.Grounding
import PointsTo.Proofs.Program.Ancestry
import PointsTo.Proofs.Program.Deciding
import PointsTo.Proofs.Program.Validity
import PointsTo.Proofs.Program.Inheritance
import PointsTo.Proofs.Program.Members
import PointsTo.Proofs.Program.FieldLookup
import PointsTo.Proofs.Program.Statements
import PointsTo.Proofs.Program.Bodies
import PointsTo.Proofs.Program.Acceptance
import PointsTo.Proofs.Program.Consistency
import PointsTo.Proofs.Solver.CallEdges
import PointsTo.Proofs.Solver.Containers
import PointsTo.Proofs.Solver.NoContext
import PointsTo.Proofs.Solver.CallStrings
import PointsTo.Proofs.Solver.Receivers
import PointsTo.Proofs.Solver.Contexts
import PointsTo.Proofs.Program.Remembering
import PointsTo.Proofs.Solver.Failures
import PointsTo.Proofs.Program.Dispatch
import PointsTo.Proofs.Solver.Session
import PointsTo.Proofs.Solver.Erasure
import PointsTo.Proofs.Solver.Listeners
import PointsTo.Proofs.Solver.Steady
import PointsTo.Proofs.Solver.Notices
import PointsTo.Proofs.Program.Subtyping
import PointsTo.Proofs.Program.Superclasses
import PointsTo.Proofs.Program.Superinterfaces
import PointsTo.Proofs.Program.Defaults
import PointsTo.Proofs.Descriptor.RoundTrip
import PointsTo.Proofs.Descriptor.References
import PointsTo.Proofs.Descriptor.Rows
import PointsTo.Proofs.Descriptor.Dimensions
import PointsTo.Proofs.Program.Types
import PointsTo.Proofs.Json.RoundTrip
import PointsTo.Proofs.Solver.Options
import PointsTo.Proofs.Context.Canonical
import PointsTo.Proofs.Collection.StoredSet
import PointsTo.Proofs.Solver.CallSites
import PointsTo.Proofs.Result.CallGraph
import PointsTo.Proofs.Result.Restriction
import PointsTo.Proofs.Result.ClassHierarchy
import PointsTo.Proofs.Result.Merging
import PointsTo.Proofs.Result.Agreement
import PointsTo.Proofs.Result.Unresolved
