import NullGuard.Source.Edit

namespace NullGuard

/-- Deletes a statement. When nothing else is on its lines, the whole lines go with it. -/
def Edit.removal (source : Bytes) (span : Span) : Edit :=
  if (source.lineBefore span.start).all Bytes.isBlank &&
      (source.lineAfter span.stop).all Bytes.isBlank then
    ⟨⟨source.lineStart span.start, min (source.lineEnd span.stop + 1) source.length⟩, []⟩
  else ⟨span, []⟩

end NullGuard
