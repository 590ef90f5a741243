/-!
Paths. Empty parts and single dots say nothing and are dropped; double dots stay, since where they lead
depends on the files. A path that begins with a slash starts at the root, any other one at the working
directory.
-/
namespace NullGuard

/-- Where a path starts. Two slashes at the beginning, but not more, are told from one. -/
inductive Start where
  | here
  | root
  | doubleRoot
deriving DecidableEq, Repr

namespace Start

def ofSlashes : Nat → Start
  | 0 => here
  | 2 => doubleRoot
  | _ => root

/-- How a path begins. -/
def text : Start → String
  | here => ""
  | root => "/"
  | doubleRoot => "//"

end Start

structure Path where
  start : Start := .here
  parts : List String
deriving DecidableEq, Repr

namespace Path

/-- The pieces between slashes. -/
def pieces : List Char → List (List Char)
  | [] => [[]]
  | c :: rest =>
    match pieces rest with
    | [] => [[c]]
    | piece :: more => if c = '/' then [] :: piece :: more else (c :: piece) :: more

def ofText (text : String) : Path where
  start := .ofSlashes (text.toList.takeWhile (· = '/')).length
  parts := ((pieces text.toList).map String.ofList).filter fun part => part ≠ "" ∧ part ≠ "."

def text (p : Path) : String :=
  if p.start = .here ∧ p.parts.isEmpty then "."
  else p.start.text ++ String.intercalate "/" p.parts

/-- The last part. -/
def name (p : Path) : String := p.parts.getLastD ""

/-- The path below this one. -/
def append (p : Path) (below : List String) : Path := { p with parts := p.parts ++ below }

/-- The parts by which paths are ordered; the beginning of a path from the root counts as one. -/
def steps (p : Path) : List String :=
  if p.start = .here then p.parts else p.start.text :: p.parts

/-- By the first part that differs, by code points. -/
def le (p q : Path) : Bool := !decide (q.steps < p.steps)

end Path

/-- The ending of the names of Java sources. -/
def javaEnding : List Char := ['.', 'j', 'a', 'v', 'a']

/-- The name ends like that of a Java source, whatever is before the ending. -/
def endsInJava (name : String) : Bool := javaEnding.isSuffixOf name.toList

/-- The path has a name that is more than the ending of a Java source. -/
def Path.isJava (p : Path) : Bool := endsInJava p.name && p.name.length > javaEnding.length

end NullGuard
