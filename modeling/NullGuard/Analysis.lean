import NullGuard.Valuation
import NullGuard.Resolution
import NullGuard.Log

/-!
The analysis of a compilation unit: every `if` whose condition has a known value is reported, in the
order of the tree.
-/
namespace NullGuard

namespace CompilationUnit

/-- The unit of a source, as a parser sees it. -/
def read (parse : Parser) (source : Bytes) (name : Option String) : CompilationUnit :=
  { source, tree := parse source, name }

/-- What is logged when a unit is read. -/
def readLog (u : CompilationUnit) : Log :=
  (if u.tree.hasErrors then [.parseErrors u.title] else []) ++
    [.parsed u.title u.distinctMethods.length]

/-- The valuation of the expression at a place. -/
def valuation (u : CompilationUnit) (limit : Int) (p : Place) : Outcome Param :=
  (u.conditionAt p).valuation u.resolver u.name limit

/-- The `if` statements that have a condition, with its valuation. -/
def checks (u : CompilationUnit) (limit : Int) : List (Node × Outcome Param) :=
  u.places.filterMap fun p =>
    if p.node.kind = .ifStatement then
      (p.child? .condition).map fun condition => (p.node, u.valuation limit condition)
    else none

/-- What is reported on a statement whose condition is a null check. -/
def finding (u : CompilationUnit) (n : Node) (check : NullCheck Param) : Finding :=
  { line := u.source.row n.span.start + 1
    column := u.source.column n.span.start + 1
    span := n.span
    value := check.value
    params := (check.params.map (·.name)).eraseDups }

/-- The findings among the statements checked. -/
def findingsOf (u : CompilationUnit) (checks : List (Node × Outcome Param)) : List Finding :=
  checks.filterMap fun (n, outcome) => outcome.nullCheck?.map (u.finding n)

def findings (u : CompilationUnit) (limit : Int) : List Finding := u.findingsOf (u.checks limit)

/-- The finding on the statement at a place. -/
def findingAt? (u : CompilationUnit) (limit : Int) (p : Place) : Option Finding :=
  if p.node.kind = .ifStatement then
    (p.child? .condition).bind fun condition =>
      (u.valuation limit condition).nullCheck?.map (u.finding p.node)
  else none

/-- The findings are those at the places of the tree, in its order. -/
theorem findings_eq_filterMap (u : CompilationUnit) (limit : Int) :
    u.findings limit = u.places.filterMap (u.findingAt? limit) := by
  rw [findings, findingsOf, checks, List.filterMap_filterMap]
  congr 1
  funext p
  unfold findingAt?
  split
  · cases p.child? .condition with
    | none => rfl
    | some condition => rfl
  · rfl

theorem findingAt?_eq_some {u : CompilationUnit} {limit : Int} {p : Place} {f : Finding}
    (found : u.findingAt? limit p = some f) : p.node.kind = .ifStatement ∧ f.span = p.node.span := by
  unfold findingAt? at found
  split at found
  next isIf =>
    obtain ⟨condition, -, found⟩ := Option.bind_eq_some_iff.1 found
    obtain ⟨check, -, rfl⟩ := Option.map_eq_some_iff.1 found
    exact ⟨isIf, rfl⟩
  · cases found

end CompilationUnit

/-- The findings in a unit, and what is logged on the way to them. -/
structure Analysis where
  findings : List Finding
  log : Log

def CompilationUnit.analysis (u : CompilationUnit) (limit : Int) : Analysis :=
  let checks := u.checks limit
  let findings := u.findingsOf checks
  { findings
    log := (checks.flatMap (·.2.trace)).map .note ++ findings.map .found }

end NullGuard
