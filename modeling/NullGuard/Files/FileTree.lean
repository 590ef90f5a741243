import NullGuard.Source.Bytes
import NullGuard.Text.Quoted
import NullGuard.Files.Path

/-!
Files and directories. A location is the list of plain names that lead from the root to a file or
directory. Following a path looks at every directory on the way, so a path through a missing directory
leads nowhere even if it turns back; above the root there is the root again. Directories can always be
looked into and there are no links, but a file may refuse to be read or written.
-/
namespace NullGuard

abbrev Location := List String

inductive FileError where
  | missing
  | denied
  | notADirectory
  | isADirectory
  | other (number : Nat) (reason : String)
deriving DecidableEq, Repr

def FileError.reason : FileError → String
  | missing => "[Errno 2] No such file or directory"
  | denied => "[Errno 13] Permission denied"
  | notADirectory => "[Errno 20] Not a directory"
  | isADirectory => "[Errno 21] Is a directory"
  | other number reason => s!"[Errno {number}] {reason}"

/-- How reading or writing a file fails. -/
structure Fault where
  error : FileError
  /-- The number of bytes read or written before, if the file could be opened. -/
  reached : Option Nat := none
deriving DecidableEq, Repr

namespace Fault

/-- A file that cannot be opened is named. -/
def message (f : Fault) (p : Path) : String :=
  match f.reached with
  | none => s!"{f.error.reason}: {Text.quoted p.text}"
  | some _ => f.error.reason

/-- What a failed write leaves of a file. Opening the file empties it. -/
def leaves (f : Fault) (old new : Bytes) : Bytes :=
  match f.reached with
  | none => old
  | some n => new.take n

end Fault

structure FileTree where
  files : List (Location × Bytes) := []
  /-- Directories besides the working directory and those that hold files. -/
  directories : List Location := []
  /-- The working directory. -/
  here : Location := []
  /-- The files that cannot be read. -/
  readFaults : List (Location × Fault) := []
  /-- The files that cannot be written. -/
  writeFaults : List (Location × Fault) := []

namespace FileTree

def read? (t : FileTree) (l : Location) : Option Bytes := t.files.lookup l

/-- Every directory on the way to a location, the location left out. -/
def above : Location → List Location
  | [] => []
  | name :: rest => [] :: (above rest).map (name :: ·)

/-- Every directory. -/
def allDirectories (t : FileTree) : List Location :=
  ([] :: (t.here :: t.directories).flatMap (fun l => above l ++ [l]) ++
    t.files.flatMap (above ·.1)).eraseDups

def isDirectory (t : FileTree) (l : Location) : Bool := l ∈ t.allDirectories

/-- There is a file or a directory at the location. -/
def has (t : FileTree) (l : Location) : Bool := (t.read? l).isSome || t.isDirectory l

/-- Follows the parts of a path from a location. -/
def follow (t : FileTree) (l : Location) : List String → Except FileError Location
  | [] => .ok l
  | part :: rest =>
    if !t.isDirectory l then .error .notADirectory
    else if part = ".." then t.follow l.dropLast rest
    else if t.has (l ++ [part]) then t.follow (l ++ [part]) rest
    else .error .missing

/-- The directory that a path starts from. -/
def base (t : FileTree) : Start → Location
  | .here => t.here
  | .root | .doubleRoot => []

def locate (t : FileTree) (p : Path) : Except FileError Location := t.follow (t.base p.start) p.parts

/-- The contents of the file that a path leads to, if it leads to a file. -/
def file? (t : FileTree) (p : Path) : Option Bytes := (t.locate p).toOption.bind t.read?

def readAt (t : FileTree) (p : Path) : Except Fault Bytes :=
  match t.locate p with
  | .error error => .error { error }
  | .ok l =>
    match t.read? l with
    | none => .error { error := .isADirectory }
    | some bytes =>
      match t.readFaults.lookup l with
      | some fault => .error fault
      | none => .ok bytes

def directory? (t : FileTree) (p : Path) : Option Location :=
  (t.locate p).toOption.filter t.isDirectory

/-- The tree with other contents of a file. -/
def put (t : FileTree) (l : Location) (bytes : Bytes) : FileTree :=
  { t with files := t.files.map fun f => if f.1 = l then (l, bytes) else f }

/-- Writes the file that a path leads to. A write that fails may change the file as well. -/
def write (t : FileTree) (p : Path) (bytes : Bytes) : FileTree × Option Fault :=
  match t.locate p with
  | .error error => (t, some { error })
  | .ok l =>
    match t.read? l with
    | none => (t, some { error := .isADirectory })
    | some old =>
      match t.writeFaults.lookup l with
      | some fault => (t.put l (fault.leaves old bytes), some fault)
      | none => (t.put l bytes, none)

/-- The files and directories below a directory whose names end like those of Java sources. -/
def javaBelow (t : FileTree) (l : Location) : List Location :=
  (t.files.map (·.1) ++ t.allDirectories).filterMap fun m =>
    if l.isPrefixOf m && m.length > l.length && endsInJava (m.getLastD "") then
      some (m.drop l.length)
    else none

end FileTree

end NullGuard
