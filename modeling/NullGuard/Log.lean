import NullGuard.Strategy
import NullGuard.Finding

/-!
What is logged, how severe it is and how it reads.
-/
namespace NullGuard

inductive Level where
  | debug
  | info
  | warning
  | error
deriving DecidableEq, Repr

namespace Level

def rank : Level → Nat
  | debug => 0
  | info => 1
  | warning => 2
  | error => 3

/-- Whether entries of a level are shown from a threshold on. -/
def shownFrom (threshold level : Level) : Bool := threshold.rank ≤ level.rank

end Level

inductive LogEntry where
  | note (note : Note)
  | parseErrors (title : String)
  | parsed (title : String) (methods : Nat)
  | analyzing (path : String)
  | found (finding : Finding)
  | passLimit (title : String) (passes : Int)
  | fixed (path : String) (statements : Nat)
  | notRewritten (path reason : String)
  | notRead (path reason : String)
  | missingFile (path : String)
  | notASource (path : String)
  | nothingToDo
  | summary (files findings : Nat)
deriving DecidableEq, Repr

namespace LogEntry

def level : LogEntry → Level
  | note _ | parseErrors _ | parsed .. | analyzing _ | found _ => .debug
  | fixed .. | summary .. => .info
  | passLimit .. => .warning
  | notRewritten .. | notRead .. | missingFile _ | notASource _ | nothingToDo => .error

def message : LogEntry → String
  | note n => n.message
  | parseErrors title => s!"syntax errors in {title}"
  | parsed title methods => s!"parsed {title}: {methods} method(s)"
  | analyzing path => s!"analyze {path}"
  | found finding => s!"null-check: {finding.record}"
  | passLimit title passes => s!"{title}: stopped fixing after {passes} passes"
  | fixed path statements => s!"{path}: removed {statements} null-check(s)"
  | notRewritten path reason => s!"Cannot rewrite {path}: {reason}"
  | notRead path reason => s!"Cannot read {path}: {reason}"
  | missingFile path => s!"Source file not found: {path}"
  | notASource path => s!"Not a Java file or directory: {path}"
  | nothingToDo => "No Java files found"
  | summary files findings => s!"{files} file(s) analysed, {findings} finding(s)"

end LogEntry

abbrev Log := List LogEntry

/-- The messages of the entries that are shown from a level on. -/
def Log.messages (log : Log) (threshold : Level := .debug) : List String :=
  (log.filter fun entry => threshold.shownFrom entry.level).map (·.message)

end NullGuard
