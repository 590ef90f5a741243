import NullGuard.CommandLine.Run
import NullGuard.Tree.Outline

/-!
The command. It looks at the files that the paths lead to, runs on what it has seen, prints what there
is to say and writes the files that have changed. The syntax trees of a source are taken from the file
beside it whose name ends in `.trees`: first that of the source, then those of what each pass makes of it.
-/
namespace NullGuard.Main

def textOf (l : Location) : String := "/" ++ String.intercalate "/" l

def isDirectory (l : Location) : IO Bool := do ((← IO.currentDir) / textOf l).isDir

/-- The two trees as one. -/
def join (t t' : FileTree) : FileTree :=
  { t with
    files := t.files ++ t'.files.filter fun f => (t.read? f.1).isNone
    directories := t.directories ++ t'.directories }

/-- The files and directories at and below a location, the contents left out. -/
partial def survey (l : Location) : IO FileTree := do
  if ← isDirectory l then
    let mut seen : FileTree := { directories := [l] }
    for entry in ← ((← IO.currentDir) / textOf l).readDir do
      seen := join seen (← survey (l ++ [entry.fileName]))
    return seen
  else if ← ((← IO.currentDir) / textOf l).pathExists then return { files := [(l, [])] }
  else return {}

/-- What is met on the way along the parts of a path, and all that is below its end. -/
def follow (l : Location) : List String → IO FileTree
  | [] => survey l
  | part :: rest => do
    if ← isDirectory l then
      let further ← follow (if part = ".." then l.dropLast else l ++ [part]) rest
      return join { directories := [l] } further
    else survey l

/-- The fault that an error of the system amounts to. -/
def faultOf : IO.Error → Fault
  | .noFileOrDirectory .. => { error := .missing }
  | .permissionDenied .. => { error := .denied }
  | .hardwareFault code details => { error := .other code.toNat details, reached := some 0 }
  | .resourceExhausted _ code details | .inappropriateType _ code details
  | .invalidArgument _ code details => { error := .other code.toNat details }
  | .otherError code details | .resourceBusy code details | .unsupportedOperation code details
  | .illegalOperation code details => { error := .other code.toNat details }
  | e => { error := .other 5 (toString e) }

/-- The fault with which an action ends, if it does. -/
def faultIn (action : IO Unit) : IO (Option Fault) := do
  try
    action
    return none
  catch e => return some (faultOf e)

/-- The recorded trees of a source; none if there is no such file or it cannot be read. -/
def treesOf (l : Location) : IO (List SyntaxTree) := do
  try
    let text ← IO.FS.readFile (textOf l ++ ".trees")
    return (Outline.read? text).getD []
  catch _ => return []

/-- Fills in the contents of the sources and what cannot be read or written, and gives the parser that
their trees make. -/
def load (limit : Int) (sources : List Location) (t : FileTree) : IO (FileTree × Parser) := do
  let mut known := []
  let mut loaded : FileTree := { t with files := [] }
  for (l, _) in t.files do
    let mut source := []
    if sources.contains l then
      if let some fault ← faultIn (discard (IO.FS.readBinFile (textOf l))) then
        loaded := { loaded with readFaults := loaded.readFaults ++ [(l, fault)] }
      else
        source := (← IO.FS.readBinFile (textOf l)).toList
        known := known ++ Parser.versions limit source (← treesOf l)
      if let some fault ← faultIn (IO.FS.withFile (textOf l) .append fun _ => return) then
        loaded := { loaded with writeFaults := loaded.writeFaults ++ [(l, fault)] }
    loaded := { loaded with files := loaded.files ++ [(l, source)] }
  return (loaded, .ofVersions known)

/-- Writes the files whose contents differ from what they were. -/
def store (before after : FileTree) : IO Unit := do
  for (l, bytes) in after.files do
    if before.read? l ≠ some bytes then IO.FS.writeBinFile (textOf l) ⟨bytes.toArray⟩

/-- The paths that a command line names. -/
def pathsOf (args : List String) : List Path :=
  match CommandLine.parse args with
  | .ok (.check options) => options.paths.map Path.ofText
  | _ => []

def run (args : List String) : IO UInt32 := do
  let here := (← IO.currentDir).components.filter (· ≠ "")
  let mut seen : FileTree := { here }
  for p in pathsOf args do
    seen := join seen (← follow (seen.base p.start) p.parts)
  let sources := (seen.sources (pathsOf args)).filterMap fun p => (seen.locate p).toOption
  let (files, parse) ← load (CommandLine.depthOf args) sources seen
  let result := CommandLine.run parse args files
  store files result.files
  IO.print result.output
  IO.eprint result.messages
  return result.status.toUInt32

end NullGuard.Main

def main (args : List String) : IO UInt32 := NullGuard.Main.run args
