import NullGuard.CommandLine.Usage
import NullGuard.Files.Sources
import NullGuard.Repair.Fix

/-!
A run of the command over some files. Every source is repaired first, if that is asked for, and then
analysed; a file that cannot be read, or whose repair cannot be written, is passed over. The exit status
is 2 if nothing could be analysed, else 1 if there are findings, else 0.
-/
namespace NullGuard.CommandLine

/-- Where a run stands after some of the sources. -/
structure Tally where
  files : FileTree
  findings : List (Path × Finding) := []
  /-- The number of sources analysed. -/
  analysed : Nat := 0
  log : Log := []

namespace Tally

def logged (t : Tally) (log : Log) : Tally := { t with log := t.log ++ log }

/-- Repairs a source in place, and says whether that could be done. -/
def repair (parse : Parser) (limit : Int) (p : Path) (t : Tally) : Tally × Bool :=
  match t.files.readAt p with
  | .error fault => (t.logged [.notRewritten p.text (fault.message p)], false)
  | .ok source =>
    let fixed := Fixed.run parse (some p.text) limit Fixed.defaultPasses source
    if fixed.source = source then (t.logged fixed.log, true)
    else
      let (files, fault?) := t.files.write p fixed.source
      let t := { t with files }.logged fixed.log
      match fault? with
      | some fault => (t.logged [.notRewritten p.text (fault.message p)], false)
      | none => (t.logged [.fixed p.text fixed.count], true)

/-- Analyses a source. -/
def analyze (parse : Parser) (limit : Int) (p : Path) (t : Tally) : Tally :=
  match t.files.analyze parse limit p with
  | (none, log) => t.logged log
  | (some findings, log) =>
    { t with findings := t.findings ++ findings.map (p, ·), analysed := t.analysed + 1 }.logged log

/-- Deals with one source. One that cannot be repaired is not analysed either. -/
def step (parse : Parser) (options : Options) (t : Tally) (p : Path) : Tally :=
  if options.fix then
    let (t, repaired) := t.repair parse options.maxDepth p
    if repaired then t.analyze parse options.maxDepth p else t
  else t.analyze parse options.maxDepth p

/-- What is printed about the findings. -/
def report (t : Tally) (json : Bool) : String :=
  if json then
    (JsonValue.list (t.findings.map fun (p, f) => f.toJson p.text)).render 0 ++ "\n"
  else lines (t.findings.map fun (p, f) => f.reportLine p.text)

end Tally

/-- The outcome of a run. -/
structure Result where
  status : Nat
  output : String := ""
  messages : String := ""
  files : FileTree

/-- The least level of the entries that are shown. -/
def Options.level (options : Options) : Level :=
  if options.verbose then .debug else if options.quiet then .warning else .info

/-- The outcome that shows a log. -/
def Result.ofLog (status : Nat) (output : String) (options : Options) (log : Log)
    (files : FileTree) : Result :=
  { status, output, messages := lines (log.messages options.level), files }

/-- Checks the sources that the options name. -/
def check (parse : Parser) (options : Options) (files : FileTree) : Result :=
  let paths := options.paths.map Path.ofText
  let sources := files.sources paths
  let start : Tally := { files, log := files.sourcesLog paths }
  if sources.isEmpty then .ofLog 2 "" options (start.log ++ [.nothingToDo]) files
  else
    let t := sources.foldl (Tally.step parse options) start
    if t.analysed = 0 then .ofLog 2 "" options t.log t.files
    else
      .ofLog (if t.findings.isEmpty then 0 else 1) (t.report options.json) options
        (t.log ++ [.summary t.analysed t.findings.length]) t.files

/-- Runs a command line. -/
def run (parse : Parser) (args : List String) (files : FileTree) : Result :=
  match CommandLine.parse args with
  | .error e => { status := 2, messages := e.report, files }
  | .ok .help => { status := 0, output := helpText, files }
  | .ok .version => { status := 0, output := versionText, files }
  | .ok (.check options) => check parse options files

/-- The bound on the depth that a command line sets, if it asks for a check. -/
def depthOf (args : List String) : Int :=
  match CommandLine.parse args with
  | .ok (.check options) => options.maxDepth
  | _ => 30

end NullGuard.CommandLine
