import NullGuard.Tree.Label

/-!
Trees as text, for handing them from a parser to the command. A node is written in parentheses: its
label, the start and the end of its span, and its children. A tree of a source with syntax errors has an
exclamation mark in front. All words stand apart by blanks.
-/
namespace NullGuard.Outline

/-- A node of which some children are read, the last one first. -/
structure Opened where
  label : Label
  span : Span
  children : List Node := []

namespace Opened

def close (o : Opened) : Node := .mk o.label o.span o.children.reverse

def add (o : Opened) (child : Node) : Opened := { o with children := child :: o.children }

end Opened

/-- Reads the words after some nodes have been opened, the innermost first, and some trees read, the
last one first. -/
def readWords (hasErrors : Bool) : List Opened → List SyntaxTree → List String →
    Option (List SyntaxTree)
  | [], trees, [] => some trees.reverse
  | [], trees, "!" :: rest => readWords true [] trees rest
  | opened, trees, "(" :: label :: start :: stop :: rest => do
    let span : Span := ⟨← start.toNat?, ← stop.toNat?⟩
    readWords hasErrors ({ label := .ofText label, span } :: opened) trees rest
  | [last], trees, ")" :: rest =>
    readWords false [] ({ root := last.close, hasErrors } :: trees) rest
  | inner :: outer :: opened, trees, ")" :: rest =>
    readWords hasErrors (outer.add inner.close :: opened) trees rest
  | _, _, _ => none

/-- The words between blanks. -/
def words (text : String) : List String :=
  ((text.splitToList Char.isWhitespace).filter (· ≠ ""))

/-- The trees written in a text. -/
def read? (text : String) : Option (List SyntaxTree) := readWords false [] [] (words text)

end NullGuard.Outline
