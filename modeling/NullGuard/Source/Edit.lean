import NullGuard.Source.Span

/-!
Edits of a source. Of edits that overlap only one is made: the one that starts first, and of those
that start together the one that reaches furthest.
-/
namespace NullGuard

/-- Puts `replacement` in place of a span. -/
structure Edit where
  span : Span
  replacement : Bytes
deriving DecidableEq, Repr

namespace Edit

/-- Earlier start first, then the longer edit. -/
def precedes (a b : Edit) : Bool :=
  a.span.start < b.span.start || (a.span.start == b.span.start && b.span.stop ≤ a.span.stop)

/-- Leaves out each edit that starts before the last one kept has ended. -/
def keepFrom (last : Option Edit) : List Edit → List Edit
  | [] => []
  | edit :: rest =>
    if last.any (edit.span.start < ·.span.stop) then keepFrom last rest
    else edit :: keepFrom (some edit) rest

/-- The edits that are made, in source order. -/
def select (edits : List Edit) : List Edit := keepFrom none (edits.mergeSort precedes)

theorem select_of_pairwise {edits : List Edit} (sorted : edits.Pairwise fun a b => precedes a b) :
    select edits = keepFrom none edits := by
  rw [select, List.mergeSort_of_pairwise sorted]

def apply (edit : Edit) (source : Bytes) : Bytes :=
  source.take edit.span.start ++ edit.replacement ++ source.drop edit.span.stop

/-- The source with the selected edits made, the last one first so that positions stay valid. -/
def applyAll (edits : List Edit) (source : Bytes) : Bytes := (select edits).foldr apply source

end Edit

end NullGuard
