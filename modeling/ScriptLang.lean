import ScriptLang.Token.Scan
import ScriptLang.Decimal.Quotient
import ScriptLang.Decimal.Text
import ScriptLang.Decimal.DoubleRange
import ScriptLang.Numeral
import ScriptLang.Operator
import ScriptLang.Scope.Tree
import ScriptLang.Program
import ScriptLang.Program.OfTokens
import ScriptLang.Typing.Annotate
import ScriptLang.Value.Operation
import ScriptLang.Execution.Run
import ScriptLang.Execution.Description
import ScriptLang.Main
import ScriptLang.Typing.InPlace
import ScriptLang.Interpreter
import ScriptLang.Execution.Memory
import ScriptLang.Execution.OnCells
import ScriptLang.Session.OnCells
import ScriptLang.Program.Erasure
import ScriptLang.Program.Rendering
import ScriptLang.Proofs.Stateful
import ScriptLang.Proofs.Execution.Outcome
import ScriptLang.Proofs.Execution.Worlds
import ScriptLang.Proofs.Execution.Returning
import ScriptLang.Proofs.Execution.Frames
import ScriptLang.Proofs.Execution.Moment
import ScriptLang.Proofs.Correspondence
import ScriptLang.Proofs.Typing.Inversion
import ScriptLang.Proofs.Typing.InPlace
import ScriptLang.Proofs.Typing.Discipline
import ScriptLang.Proofs.Typing.Preservation
import ScriptLang.Proofs.Typing.Module
import ScriptLang.Proofs.Typing.Site
import ScriptLang.Proofs.Typing.Annotation
import ScriptLang.Proofs.Typing.Built
import ScriptLang.Proofs.Typing.Judgment
import ScriptLang.Proofs.Typing.Decision
import ScriptLang.Proofs.Typing.Lockstep
import ScriptLang.Proofs.Execution.Failure
import ScriptLang.Proofs.Session.History
import ScriptLang.Proofs.Typing.Mishap
import ScriptLang.Proofs.Session.Scoping
import ScriptLang.Proofs.Session.Acceptance
import ScriptLang.Proofs.Typing.Typable
import ScriptLang.Proofs.Typing.Erased
import ScriptLang.Proofs.Typing.Reannotation
import ScriptLang.Proofs.Typing.Reanalysis
import ScriptLang.Proofs.Typing.Kinds
import ScriptLang.Proofs.Typing.Records
import ScriptLang.Proofs.Typing.Exact
import ScriptLang.Proofs.Session.Soundness
import ScriptLang.Proofs.Session.NilFree
import ScriptLang.Proofs.Session.Contract
import ScriptLang.Proofs.Session.Members
import ScriptLang.Proofs.Token.Scanned
import ScriptLang.Proofs.Token.Spaced
import ScriptLang.Proofs.Token.Cut
import ScriptLang.Proofs.Program.Grammar
import ScriptLang.Proofs.Program.Bounds
import ScriptLang.Proofs.Program.Reads
import ScriptLang.Proofs.Program.Chains
import ScriptLang.Proofs.Program.Operands
import ScriptLang.Proofs.Program.Phrases
import ScriptLang.Proofs.Program.Accepts
import ScriptLang.Proofs.Program.Parsing
import ScriptLang.Proofs.Program.Writable
import ScriptLang.Proofs.Program.RoundTrip
import ScriptLang.Proofs.Program.Alike
import ScriptLang.Proofs.Execution.Likeness
import ScriptLang.Proofs.Session.Independence
import ScriptLang.Proofs.Program.Relocation
import ScriptLang.Proofs.Session.Layout
import ScriptLang.Proofs.Session.Rejection
import ScriptLang.Program.Requests
import ScriptLang.Proofs.Program.Literals
import ScriptLang.Proofs.Typing.Annotated
import ScriptLang.Proofs.Typing.Reordering
import ScriptLang.Proofs.Session.Reordering
import ScriptLang.Proofs.Decimal.Value
import ScriptLang.Proofs.Decimal.Division
import ScriptLang.Proofs.Execution.Fuel
import ScriptLang.Proofs.Program.CallGraph
import ScriptLang.Proofs.Execution.Termination
import ScriptLang.Proofs.Session.Termination
import ScriptLang.Proofs.Execution.Beside
import ScriptLang.Proofs.Execution.Iteration
import ScriptLang.Proofs.Execution.Memory
import ScriptLang.Proofs.Execution.Shown
import ScriptLang.Proofs.Execution.Changes
import ScriptLang.Proofs.Execution.CellSteps
import ScriptLang.Proofs.Execution.OnCells
import ScriptLang.Proofs.Session.Isolation
import ScriptLang.Proofs.Token.Composed
import ScriptLang.Proofs.Execution.DeadCode
import ScriptLang.Proofs.Session.DeadCode
import ScriptLang.Proofs.Execution.Growth
import ScriptLang.Proofs.Session.BlockScopes
import ScriptLang.Program.Cursor
import ScriptLang.Proofs.Program.Cursor
import ScriptLang.Proofs.Program.Following
import ScriptLang.Proofs.Program.Calls
import ScriptLang.Token.Cursor
import ScriptLang.Proofs.Token.Cursor
import ScriptLang.Proofs.Token.Fault
import ScriptLang.Proofs.Value.Order
import ScriptLang.Proofs.Execution.Printing
import ScriptLang.Proofs.Session.BrokenSink
import ScriptLang.Proofs.Program.Mentions
import ScriptLang.Proofs.Typing.Mentioned
import ScriptLang.Proofs.Execution.Mentioned
import ScriptLang.Proofs.Session.Unmentioned
import ScriptLang.Scope.Linked
import ScriptLang.Proofs.Scope.Declarations
import ScriptLang.Proofs.CommandLine.ExitCode
import ScriptLang.Proofs.Invariant
import ScriptLang.Proofs.Typing.Arities
import ScriptLang.Proofs.Execution.Arities
import ScriptLang.Proofs.Session.Arities
