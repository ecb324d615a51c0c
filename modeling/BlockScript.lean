import BlockScript.Main
import BlockScript.Text.Blank
import BlockScript.Proofs.Script.Variables
import BlockScript.Proofs.Run.Agreement
import BlockScript.Proofs.Run.Budget
import BlockScript.Proofs.Run.Lockstep
import BlockScript.Proofs.Run.Commands
import BlockScript.Proofs.Report.Journal
import BlockScript.Proofs.Run.Truncation
import BlockScript.Proofs.Run.Observation
import BlockScript.Proofs.Run.Bookkeeping
import BlockScript.Proofs.Run.Stepwise
import BlockScript.Proofs.Run.Halting
import BlockScript.Proofs.Script.Grammar
import BlockScript.Proofs.Script.Reading
import BlockScript.Proofs.Script.ExprSoundness
import BlockScript.Proofs.Script.StatementSoundness
import BlockScript.Proofs.Script.ExprCompleteness
import BlockScript.Proofs.Script.StatementCompleteness
import BlockScript.Proofs.Command.Names
import BlockScript.Proofs.Scope.Frames
import BlockScript.Proofs.Scope.Macros
import BlockScript.Proofs.Run.Effects
import BlockScript.Proofs.Run.Isolation
import BlockScript.Proofs.Run.Causes
import BlockScript.Proofs.Run.Coverage
import BlockScript.Proofs.Run.CoveredSteps
import BlockScript.Proofs.Run.UnknownNames
import BlockScript.Proofs.Run.Steps
import BlockScript.Proofs.Run.LastCommand
import BlockScript.Proofs.Scope.Names
import BlockScript.Proofs.Run.ScopeBalance
import BlockScript.Proofs.Token.Lossless
import BlockScript.Proofs.Script.Printer
import BlockScript.Proofs.Script.Reprinting
import BlockScript.Proofs.Script.RoundTrip
import BlockScript.Proofs.Run.Tracing
import BlockScript.Proofs.Run.Invariants
import BlockScript.Proofs.Run.Brackets
import BlockScript.Proofs.Run.Terminations
import BlockScript.Proofs.Run.FirstFailure
import BlockScript.Proofs.Run.Cancellation
import BlockScript.Proofs.Simulation.Conservation
import BlockScript.Proofs.Run.Parameters
import BlockScript.Proofs.Run.StoredMacros
import BlockScript.Proofs.Run.StoredFunctions
import BlockScript.Proofs.Json.RoundTrip
import BlockScript.Proofs.Json.Members
import BlockScript.Proofs.Wire.Events
import BlockScript.Proofs.Space.Distance
import BlockScript.Proofs.Simulation.Reach
import BlockScript.Proofs.Simulation.Checks
import BlockScript.Proofs.Simulation.Hand
import BlockScript.Proofs.World.Attempt
import BlockScript.Proofs.World.Cube
import BlockScript.Proofs.World.Search
import BlockScript.Proofs.Space.Resolution
import BlockScript.Proofs.Script.SelectorKeys
import BlockScript.Proofs.Space.Turning
import BlockScript.Proofs.Run.Arguments
import BlockScript.Proofs.Run.Preparation
import BlockScript.Proofs.Scope.Insertion
import BlockScript.Proofs.Run.Rounds
import BlockScript.Proofs.Run.Repeats
import BlockScript.Proofs.Run.Arithmetic
import BlockScript.Proofs.Token.Prefixes
import BlockScript.Proofs.Token.Relocation
import BlockScript.Proofs.Script.Relocation
import BlockScript.Proofs.Script.Comments
import BlockScript.Proofs.Script.Concatenation
import BlockScript.Proofs.Scope.Matching
import BlockScript.Proofs.Script.Moving
import BlockScript.Proofs.Run.CheckOrder
import BlockScript.Proofs.Run.Hoisting
import BlockScript.Proofs.Script.CallOrder
import BlockScript.Proofs.Script.Braces
import BlockScript.Proofs.Script.Unclosed
import BlockScript.Proofs.Script.CutOff
import BlockScript.Proofs.Run.Machinery
import BlockScript.Proofs.Run.FunctionMemory
import BlockScript.Proofs.Simulation.AutoScan
import BlockScript.Proofs.Scope.Stack
import BlockScript.Proofs.Report.Deliveries
import BlockScript.Proofs.Script.Turns
import BlockScript.Proofs.Script.Progress
import BlockScript.Proofs.Script.Positions
