import NullGuard.Source.Span
import NullGuard.Text.Json

/-!
A condition that always has the same value because parameters are not null, and how it is reported.
-/
namespace NullGuard

structure Finding where
  /-- Where the statement starts, line and column counted from one. -/
  line : Nat
  column : Nat
  /-- The span of the statement. -/
  span : Span
  /-- What the condition always evaluates to. -/
  value : Bool
  /-- The names of the parameters that this rests on, each once. -/
  params : List String
deriving DecidableEq, Repr

namespace Finding

def kind : String := "redundant_null_check"

def message (f : Finding) : String :=
  let shown := String.intercalate ", " (f.params.map fun name => s!"'{name}'")
  let outcome := if f.value then "always" else "never"
  s!"Null-check of parameter {shown} is redundant; the branch {outcome} runs."

/-- The finding in full, for the debugging log. -/
def record (f : Finding) : String :=
  let value := if f.value then "True" else "False"
  let names := String.intercalate ", " (f.params.map Text.quoted)
  let names := if f.params.length = 1 then names ++ "," else names
  s!"Issue(kind={Text.quoted kind}, line={f.line}, col={f.column}, " ++
    s!"message={Text.quoted f.message}, start_byte={f.span.start}, end_byte={f.span.stop}, " ++
    s!"is_inverted={value}, parameters=({names}))"

/-- The finding as a line of a report on a file. -/
def reportLine (path : String) (f : Finding) : String :=
  s!"{path}:{f.line}:{f.column}: {kind}: {f.message}"

/-- The finding as an entry of a JSON report on a file. -/
def toJson (path : String) (f : Finding) : JsonValue :=
  .object
    [("kind", .text kind), ("line", .nat f.line), ("col", .nat f.column),
     ("message", .text f.message), ("is_inverted", .bool f.value),
     ("parameters", .list (f.params.map .text)), ("path", .text path)]

end Finding

end NullGuard
