import NullGuard.Analysis
import NullGuard.Repair.Plan

/-!
Repairing a whole source. Statements inside repaired statements are left to the next pass, which reads
the source again, and passes are made until nothing is left to repair or their number is used up.
-/
namespace NullGuard

def Finding.target (f : Finding) : Target := ⟨f.span, some f.value⟩

/-- The edits that one pass makes for some findings. -/
def CompilationUnit.repairs (u : CompilationUnit) (findings : List Finding) : List Edit :=
  Edit.select (findings.filterMap fun f => u.plan? f.target)

/-- The source after one pass. -/
def CompilationUnit.repaired (u : CompilationUnit) (limit : Int) : Bytes :=
  Edit.applyAll (u.repairs (u.findings limit)) u.source

/-- A repaired source. -/
structure Fixed where
  source : Bytes
  /-- The number of statements repaired. -/
  count : Nat := 0
  /-- Nothing was left to repair. -/
  finished : Bool
  log : Log := []

namespace Fixed

/-- At most so many passes over a source. -/
def passes (parse : Parser) (name : Option String) (limit : Int) : Nat → Bytes → Fixed
  | 0, source => { source, finished := false }
  | n + 1, source =>
    let u := CompilationUnit.read parse source name
    let analysis := u.analysis limit
    let log := u.readLog ++ analysis.log
    let edits := u.repairs analysis.findings
    let next := Edit.applyAll edits source
    if edits.isEmpty ∨ next = source then { source, finished := true, log }
    else
      let rest := passes parse name limit n next
      { rest with count := edits.length + rest.count, log := log ++ rest.log }

def defaultPasses : Int := 16

/-- Repairs a source; what the passes leave undone is logged. -/
def run (parse : Parser) (name : Option String) (limit maxPasses : Int) (source : Bytes) : Fixed :=
  let result := passes parse name limit maxPasses.toNat source
  if result.finished then result
  else { result with log := result.log ++ [.passLimit (CompilationUnit.titleOf name) maxPasses] }

end Fixed

/-- A source and what each pass makes of it, with the trees that a parser gave for them. -/
def Parser.versions (limit : Int) : Bytes → List SyntaxTree → List (Bytes × SyntaxTree)
  | _, [] => []
  | source, tree :: rest =>
    (source, tree) :: versions limit (CompilationUnit.repaired { source, tree } limit) rest

/-- A parser that knows only some sources; to any other it gives an empty tree. -/
def Parser.ofVersions (known : List (Bytes × SyntaxTree)) : Parser := fun source =>
  (known.lookup source).getD { root := .mk { kind := .other "program" } ⟨0, source.length⟩ [] }

end NullGuard
