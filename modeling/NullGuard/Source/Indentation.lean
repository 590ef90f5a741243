import NullGuard.Source.Span

/-!
Indentation of a statement and of the lines that continue it. When a statement moves to another
depth, its continuation lines move with it, except lines that begin inside a literal.
-/
namespace NullGuard.Bytes

/-- The blanks at the start of a line. -/
def leading (line : Bytes) : Bytes := line.takeWhile isBlank

/-- The indentation of the line that a position is on, up to the position. -/
def indentAt (source : Bytes) (pos : Nat) : Bytes := (source.lineBefore pos).leading

/-- A continuation line moved from `base` to `indent`. A blank line becomes empty. A line that does
not begin with `base` keeps its distance to it, as far as there is room. -/
def shiftLine (base indent line : Bytes) : Bytes :=
  if line.all isBlank then []
  else if base.isPrefixOf line then indent ++ line.drop base.length
  else
    List.replicate (line.leading.length + indent.length - base.length) 0x20 ++
      line.drop line.leading.length

/-- Continuation lines, the first of which starts at `pos`. Lines that start inside a literal stay. -/
def shiftLines (base indent : Bytes) (literals : List Span) (pos : Nat) : List Bytes → List Bytes
  | [] => []
  | line :: rest =>
    (if literals.any (·.holdsInside pos) then line else shiftLine base indent line) ::
      shiftLines base indent literals (pos + line.length + 1) rest

/-- The text of a span with its continuation lines moved from `base` to `indent`. -/
def reindent (source : Bytes) (span : Span) (base indent : Bytes) (literals : List Span) : Bytes :=
  let (first, rest) := (source.at span).splitLines
  joinLines first (shiftLines base indent literals (span.start + first.length + 1) rest)

theorem length_shiftLines (base indent : Bytes) (literals : List Span) (pos : Nat)
    (lines : List Bytes) : (shiftLines base indent literals pos lines).length = lines.length := by
  induction lines generalizing pos with
  | nil => rfl
  | cons line rest ih => simp [shiftLines, ih]

end NullGuard.Bytes
