/-!
Source text as bytes. Positions are byte offsets; a position past the end acts as the end. Lines are
separated by line feeds, and exactly six bytes count as blank.
-/
namespace NullGuard

abbrev Bytes := List UInt8

namespace Bytes

def newline : UInt8 := 0x0a

/-- Space, tab, line feed, carriage return, vertical tab and form feed. -/
def isBlank (b : UInt8) : Bool :=
  b == 0x20 || b == 0x09 || b == 0x0a || b == 0x0d || b == 0x0b || b == 0x0c

/-- The bytes from `start` up to `stop`; none when `stop` is not after `start`. -/
def slice (source : Bytes) (start stop : Nat) : Bytes := (source.take stop).drop start

/-- What stands before a position on its line. -/
def lineBefore (source : Bytes) (pos : Nat) : Bytes :=
  ((source.take pos).reverse.takeWhile (· != newline)).reverse

/-- What stands after a position on its line. -/
def lineAfter (source : Bytes) (pos : Nat) : Bytes :=
  (source.drop pos).takeWhile (· != newline)

/-- Where the line of a position starts. -/
def lineStart (source : Bytes) (pos : Nat) : Nat :=
  (source.take pos).length - (source.lineBefore pos).length

/-- Where the line of a position ends: at its line feed, or at the end of the source. -/
def lineEnd (source : Bytes) (pos : Nat) : Nat :=
  min (pos + (source.lineAfter pos).length) source.length

/-- The number of line feeds before a position. -/
def row (source : Bytes) (pos : Nat) : Nat := (source.take pos).count newline

/-- The number of bytes before a position on its line. -/
def column (source : Bytes) (pos : Nat) : Nat := (source.lineBefore pos).length

/-- The first line and the lines after it. -/
def splitLines : Bytes → Bytes × List Bytes
  | [] => ([], [])
  | b :: rest =>
    let (line, lines) := splitLines rest
    if b == newline then ([], line :: lines) else (b :: line, lines)

/-- Lines joined by line feeds. -/
def joinLines (first : Bytes) (rest : List Bytes) : Bytes :=
  first ++ rest.flatMap (newline :: ·)

/-- What is left of a text without its blanks. -/
def solid (source : Bytes) : Bytes := source.filter (!isBlank ·)

theorem joinLines_splitLines (source : Bytes) :
    joinLines source.splitLines.1 source.splitLines.2 = source := by
  induction source with
  | nil => rfl
  | cons b rest ih =>
    by_cases h : b = newline
    · subst h
      simpa [splitLines, joinLines] using ih
    · simpa [splitLines, joinLines, h] using ih

end Bytes

end NullGuard
