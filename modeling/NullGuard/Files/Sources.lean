import NullGuard.Files.FileTree
import NullGuard.Analysis

/-!
The sources that some paths stand for. A directory stands for the Java files below it, in the order of
their paths; anything else must be named like a Java source or be a file.
-/
namespace NullGuard.FileTree

def sourcesOf (t : FileTree) (p : Path) : List Path :=
  match t.directory? p with
  | some l => ((t.javaBelow l).map p.append).mergeSort Path.le
  | none => if p.isJava || (t.file? p).isSome then [p] else []

/-- The path stands for nothing. -/
def isRefused (t : FileTree) (p : Path) : Bool :=
  (t.directory? p).isNone && !p.isJava && (t.file? p).isNone

/-- The sources of some paths, each path once. -/
def sources (t : FileTree) (paths : List Path) : List Path :=
  (paths.flatMap t.sourcesOf).eraseDups

def sourcesLog (t : FileTree) (paths : List Path) : Log :=
  (paths.filter t.isRefused).map fun p => .notASource p.text

/-- The compilation unit in a file, or what is logged if there is none. -/
def unitAt (t : FileTree) (parse : Parser) (p : Path) : Except LogEntry CompilationUnit :=
  match t.file? p, t.readAt p with
  | none, _ => .error (.missingFile p.text)
  | some _, .error fault => .error (.notRead p.text (fault.message p))
  | some _, .ok source => .ok (.read parse source (some p.text))

def unit? (t : FileTree) (parse : Parser) (p : Path) : Option CompilationUnit :=
  (t.unitAt parse p).toOption

/-- What is logged when the unit in a file is read. -/
def unitLog (t : FileTree) (parse : Parser) (p : Path) : Log :=
  match t.unitAt parse p with
  | .ok u => u.readLog
  | .error entry => [entry]

/-- The analysis of the unit in a file, with all that is logged for it. -/
def analyze (t : FileTree) (parse : Parser) (limit : Int) (p : Path) : Option (List Finding) × Log :=
  match t.unitAt parse p with
  | .ok u =>
    let analysis := u.analysis limit
    (some analysis.findings, u.readLog ++ .analyzing p.text :: analysis.log)
  | .error entry => (none, [entry])

end NullGuard.FileTree
