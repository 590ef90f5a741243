import NullGuard.CompilationUnit
import NullGuard.Source.Indentation
import NullGuard.Source.Removal

/-!
How a statement whose condition has a known value is repaired. The branch that runs is kept. A block
in a sequence of statements gives up its braces, any other branch stands in for the whole statement.
Where nothing is kept the statement is deleted, or becomes an empty block if a statement is needed.
-/
namespace NullGuard

/-- A statement to repair, by its span, and the value of its condition. -/
structure Target where
  span : Span
  value : Option Bool
deriving DecidableEq, Repr

/-- The literals at and below a node that run over several lines. -/
def Node.literals (n : Node) (source : Bytes) : List Span :=
  (n.places.filter fun p =>
    p.node.kind.isText && source.row p.node.span.start != source.row p.node.span.stop).map
      (·.node.span)

namespace Place

/-- The statement is one in a sequence. -/
def inSequence (p : Place) : Bool := p.above.head?.any (·.kind.isStatementList)

/-- The branch that runs and the span of it that is kept, if there is code to keep. -/
def kept? (p : Place) (value : Bool) : Option (Node × Span) := do
  let branch ← p.node.child? (if value then .consequence else .alternative)
  if branch.kind = .block && p.inSequence then
    let first ← branch.namedChildren.head?
    let last ← branch.namedChildren.getLast?
    return (branch, ⟨first.span.start, last.span.stop⟩)
  else return (branch, branch.span)

/-- An empty block. -/
def emptyBlock : Bytes := [0x7b, 0x7d]

/-- The repair of the `if` statement at a place. -/
def repair (p : Place) (source : Bytes) (value : Bool) : Edit :=
  let span := p.node.span
  match p.kept? value with
  | some (branch, code) =>
    ⟨span, source.reindent code (source.indentAt code.start) (source.indentAt span.start)
      (branch.literals source)⟩
  | none => if p.inSequence then .removal source span else ⟨span, emptyBlock⟩

end Place

namespace CompilationUnit

/-- The first `if` statement with exactly the given span. -/
def ifAt? (u : CompilationUnit) (span : Span) : Option Place :=
  u.places.find? fun p => p.node.kind = .ifStatement && p.node.span = span

/-- The edit that repairs a target, unless there is no such statement or no value. -/
def plan? (u : CompilationUnit) (target : Target) : Option Edit := do
  let p ← u.ifAt? target.span
  let value ← target.value
  return p.repair u.source value

end CompilationUnit

end NullGuard
