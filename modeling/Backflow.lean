import Backflow.Command.Disk
import Backflow.Command.Failure
import Backflow.Command.Journal
import Backflow.Command.Options
import Backflow.Command.Plan
import Backflow.Command.Progress
import Backflow.Command.Run
import Backflow.Command.Tools
import Backflow.Command.Usage
import Backflow.Dataflow.Order
import Backflow.Dataflow.Problem
import Backflow.Dataflow.Solver
import Backflow.Graph.Basic
import Backflow.Graph.Builder
import Backflow.Graph.Check
import Backflow.Graph.Dot
import Backflow.Graph.Error
import Backflow.Graph.Search
import Backflow.Json
import Backflow.Liveness.Basic
import Backflow.Liveness.LiveMap
import Backflow.Liveness.Numbering
import Backflow.Location
import Backflow.Main
import Backflow.NameSet
import Backflow.Pattern.Basic
import Backflow.Pattern.Brackets
import Backflow.Pattern.Parser
import Backflow.Pattern.Reader
import Backflow.Pattern.Room
import Backflow.Pattern.Search
import Backflow.Proofs.Agreement
import Backflow.Proofs.BuiltGraph
import Backflow.Proofs.Connections
import Backflow.Proofs.Construction
import Backflow.Proofs.ControlFlow
import Backflow.Proofs.Equations
import Backflow.Proofs.ExactLiveness
import Backflow.Proofs.GraphFlow
import Backflow.Proofs.Growth
import Backflow.Proofs.LivePaths
import Backflow.Proofs.LiveSets
import Backflow.Proofs.LiveTables
import Backflow.Proofs.OpenJumps
import Backflow.Proofs.ParserCounts
import Backflow.Proofs.Paths
import Backflow.Proofs.Settling
import Backflow.Proofs.Shape
import Backflow.Proofs.Solved
import Backflow.Proofs.Solving
import Backflow.Proofs.StatementNumbers
import Backflow.Proofs.Statements
import Backflow.Proofs.StrayJumps
import Backflow.Proofs.StructuredFlow
import Backflow.Proofs.StructuredLiveness
import Backflow.Proofs.StructuredPaths
import Backflow.Proofs.VariableSets
import Backflow.Proofs.Worklist
import Backflow.Registers.Assignment
import Backflow.Registers.Interference
import Backflow.Report.Analyzed
import Backflow.Report.DeadStores
import Backflow.Report.Live
import Backflow.Report.Selection
import Backflow.Stats
import Backflow.Syntax.Basic
import Backflow.Syntax.Error
import Backflow.Syntax.Names
import Backflow.Syntax.Parser.Basic
import Backflow.Syntax.Parser.Expr
import Backflow.Syntax.Parser.Program
import Backflow.Syntax.Parser.Stmt
import Backflow.Syntax.Printer
import Backflow.Text.Color
import Backflow.Text.Printable
import Backflow.Text.Quoted
import Backflow.Text.Split
import Backflow.Token.Basic
import Backflow.Token.Lexer
import Backflow.Unicode.Age
import Backflow.Unicode.Break
import Backflow.Unicode.Category
import Backflow.Unicode.CharSet
import Backflow.Unicode.Folding
import Backflow.Unicode.Property
import Backflow.Unicode.Query
import Backflow.Unicode.Script
import Backflow.Unicode.Table
import Backflow.Unicode.Utf8
import Backflow.Proofs.LeastSolution
import Backflow.Proofs.Consistency
import Backflow.Proofs.Allocation
import Backflow.Proofs.DeadStores
import Backflow.Proofs.ProgramMap
import Backflow.Proofs.ExprGrammar
import Backflow.Proofs.Reading
import Backflow.Proofs.ExprSound
import Backflow.Proofs.StatementSound
import Backflow.Proofs.ParserSound
import Backflow.Proofs.ExprComplete
import Backflow.Proofs.ElseBinding
import Backflow.Proofs.Placement
import Backflow.Proofs.StatementComplete
import Backflow.Proofs.ParserComplete
import Backflow.Proofs.WrittenText
import Backflow.Proofs.PrintedExpr
import Backflow.Proofs.PrintedProgram
import Backflow.Proofs.PrintedGrammar
import Backflow.Proofs.Alignment
import Backflow.Proofs.RoundTrip
import Backflow.Proofs.Departures
import Backflow.Proofs.Directions
import Backflow.Proofs.Wiring
import Backflow.Proofs.Escape
import Backflow.Proofs.Segments
import Backflow.Proofs.Latches
import Backflow.Proofs.Partition
import Backflow.Proofs.Repetition
import Backflow.Proofs.VisitBounds
import Backflow.Proofs.SinglePass
import Backflow.Proofs.Truncation
import Backflow.Proofs.Conflicts
import Backflow.Proofs.ExprReading
import Backflow.Proofs.NestingBounds
import Backflow.Proofs.Regions
import Backflow.Proofs.Iteration
import Backflow.Proofs.BackEdges
import Backflow.Proofs.Positions
import Backflow.Proofs.Trivia
import Backflow.Proofs.Comments
import Backflow.Proofs.StatementOrder
import Backflow.Proofs.Annotations
import Backflow.Proofs.WrittenFiles
import Backflow.Proofs.Drawings
import Backflow.Proofs.Prediction
import Backflow.Proofs.ExprPrediction
import Backflow.Proofs.StatementPrediction
import Backflow.Proofs.FirstOffence
import Backflow.Proofs.CursorParser
import Backflow.Proofs.CursorRuns
import Backflow.Proofs.CursorSafety
