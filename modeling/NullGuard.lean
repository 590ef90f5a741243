import NullGuard.Analysis
import NullGuard.CallSite
import NullGuard.CommandLine.Options
import NullGuard.CommandLine.Run
import NullGuard.CommandLine.Switch
import NullGuard.CommandLine.Usage
import NullGuard.CompilationUnit
import NullGuard.Condition
import NullGuard.Env
import NullGuard.Evidence
import NullGuard.Expr
import NullGuard.Files.FileTree
import NullGuard.Files.Path
import NullGuard.Files.Sources
import NullGuard.Finding
import NullGuard.Helper
import NullGuard.Log
import NullGuard.Main
import NullGuard.Method
import NullGuard.Proofs.Blanks
import NullGuard.Proofs.ClosedHelpers
import NullGuard.Proofs.Conservation
import NullGuard.Proofs.Convergence
import NullGuard.Proofs.Declarations
import NullGuard.Proofs.Inlining
import NullGuard.Proofs.Levels
import NullGuard.Proofs.Provenance
import NullGuard.Proofs.Recursion
import NullGuard.Proofs.References
import NullGuard.Proofs.Refinement
import NullGuard.Proofs.Scoping
import NullGuard.Proofs.Shrinking
import NullGuard.Proofs.Soundness
import NullGuard.Proofs.Splice
import NullGuard.Proofs.Substitution
import NullGuard.Proofs.Walk
import NullGuard.Proofs.WellNested
import NullGuard.Repair.Fix
import NullGuard.Repair.Plan
import NullGuard.Resolution
import NullGuard.Source.Bytes
import NullGuard.Source.Edit
import NullGuard.Source.Indentation
import NullGuard.Source.Removal
import NullGuard.Source.Span
import NullGuard.Source.Text
import NullGuard.Strategy
import NullGuard.Text.Json
import NullGuard.Text.Numeral
import NullGuard.Text.Printable
import NullGuard.Text.Quoted
import NullGuard.Tree.Kind
import NullGuard.Tree.Label
import NullGuard.Tree.Node
import NullGuard.Tree.Outline
import NullGuard.Valuation
import NullGuard.Proofs.Contract
import NullGuard.Proofs.Preorder
import NullGuard.Proofs.Spacing
import NullGuard.Proofs.Capture
import NullGuard.Proofs.Comments
import NullGuard.Proofs.Outermost
import NullGuard.Proofs.Depth
import NullGuard.Proofs.Exactness
import NullGuard.Proofs.FileContents
import NullGuard.Proofs.CommandRun
import NullGuard.Proofs.Operands
import NullGuard.Proofs.Duality
import NullGuard.Proofs.OperandOrder
import NullGuard.Proofs.Parentheses
import NullGuard.Proofs.Callees
import NullGuard.Proofs.Selection
import NullGuard.Proofs.Reindentation
import NullGuard.Proofs.Literals
import NullGuard.Proofs.TrailingComments
import NullGuard.Proofs.Deletion
import NullGuard.Proofs.PassLimit
import NullGuard.Proofs.Termination
import NullGuard.Proofs.Traversal
