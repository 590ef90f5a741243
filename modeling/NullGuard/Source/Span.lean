import NullGuard.Source.Bytes

namespace NullGuard

/-- A range of the source, from the byte at `start` up to the byte before `stop`. -/
structure Span where
  start : Nat
  stop : Nat
deriving DecidableEq, Repr

/-- The position lies in the span and is not its first. -/
def Span.holdsInside (s : Span) (pos : Nat) : Bool := s.start < pos && pos < s.stop

def Bytes.at (source : Bytes) (s : Span) : Bytes := source.slice s.start s.stop

end NullGuard
