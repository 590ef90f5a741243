import Mathlib.Tactic.ByContra
import NullGuard.Proofs.Blanks

/-!
Edits that stay clear of one another. The deletion of a statement reaches back to the start of its first
line and on past the end of its last one, but only over blanks. Where statements begin and end with
bytes that are no blanks, the edits of statements that follow one another do not overlap, not even by
the line feed between them; and the edit of a statement inside another one starts within the edit of
that one, after its start.
-/
namespace NullGuard

namespace Bytes

/-- There is a byte at the position, and it is no blank. -/
def solidAt (source : Bytes) (pos : Nat) : Bool := source[pos]?.any (!isBlank ·)

/-- The span is not empty, and its first and its last byte are no blanks. -/
def Tight (source : Bytes) (span : Span) : Prop :=
  span.start < span.stop ∧ source.solidAt span.start = true ∧ source.solidAt (span.stop - 1) = true

instance (source : Bytes) (span : Span) : Decidable (source.Tight span) :=
  inferInstanceAs (Decidable (_ ∧ _ ∧ _))

variable {source : Bytes} {start stop pos : Nat}

theorem lt_length_of_solidAt (solid : source.solidAt pos = true) : pos < source.length := by
  obtain ⟨b, found, -⟩ := (Option.any_eq_true _ _).1 solid
  exact (List.getElem?_eq_some_iff.1 found).1

theorem mem_slice_of_getElem? {b : UInt8} (found : source[pos]? = some b) (lower : start ≤ pos)
    (upper : pos < stop) : b ∈ source.slice start stop := by
  have index : (source.slice start stop)[pos - start]? = some b := by
    have shifted : start + (pos - start) = pos := by omega
    rw [slice, List.getElem?_drop, shifted, List.getElem?_take, if_pos upper, found]
  exact List.mem_of_getElem? index

/-- A byte that is no blank does not lie in a blank stretch. -/
theorem outside_of_solidAt (solid : source.solidAt pos = true)
    (blank : (source.slice start stop).all isBlank = true) : pos < start ∨ stop ≤ pos := by
  obtain ⟨b, found, solid⟩ := (Option.any_eq_true _ _).1 solid
  by_contra inside
  have member : b ∈ source.slice start stop :=
    mem_slice_of_getElem? found (by omega) (by omega)
  simp [List.all_eq_true.1 blank b member] at solid

theorem newline_not_mem_lineBefore (source : Bytes) (pos : Nat) :
    newline ∉ source.lineBefore pos := by
  intro member
  rw [lineBefore, List.mem_reverse] at member
  simpa using List.all_eq_true.1 List.all_takeWhile newline member

/-- A line that does not end with the source ends with a line feed. -/
theorem getElem?_lineEnd (inside : source.lineEnd pos < source.length) :
    source[source.lineEnd pos]? = some newline := by
  have split : source.drop pos =
      source.lineAfter pos ++ (source.drop pos).dropWhile (· != newline) :=
    List.takeWhile_append_dropWhile.symm
  have lengths := congrArg List.length split
  rw [List.length_append, List.length_drop] at lengths
  have width : source.lineEnd pos = pos + (source.lineAfter pos).length := by
    rw [lineEnd] at inside ⊢
    omega
  cases later : (source.drop pos).dropWhile (· != newline) with
  | nil =>
    rw [later, List.length_nil] at lengths
    omega
  | cons b rest =>
    have feed : b = newline := by
      have stopped := List.head?_dropWhile_not (· != newline) (source.drop pos)
      rw [later] at stopped
      simpa using stopped
    rw [width, ← List.getElem?_drop, split, later, feed, List.getElem?_append_right (Nat.le_refl _)]
    simp

end Bytes

/-- Within a source, how far an edit goes beyond a span: over blanks only, not back to an earlier line,
and if it goes on, then up to a line feed or the end of the source. -/
structure Edit.Widens (edit : Edit) (source : Bytes) (span : Span) : Prop where
  covers : edit.Covers source span
  front : Bytes.newline ∉ source.slice edit.span.start span.start
  back : edit.span.stop = span.stop ∨ edit.span.stop = source.length ∨
    source[edit.span.stop - 1]? = some Bytes.newline

namespace Edit

variable {source : Bytes} {span : Span}

theorem widens_self (proper : span.start ≤ span.stop) (inside : span.stop ≤ source.length)
    (replacement : Bytes) : (Edit.mk span replacement).Widens source span where
  covers := covers_self proper inside replacement
  front := by simp [Bytes.slice_eq_take_drop]
  back := .inl rfl

theorem removal_widens (proper : span.start ≤ span.stop) (inside : span.stop ≤ source.length) :
    (removal source span).Widens source span := by
  refine ⟨removal_covers proper inside, ?_, ?_⟩
  · unfold removal
    split
    · rw [Bytes.slice_lineStart]
      exact source.newline_not_mem_lineBefore span.start
    · simp [Bytes.slice_eq_take_drop]
  · unfold removal
    split
    · simp only
      by_cases last : source.lineEnd span.stop < source.length
      · have stop : min (source.lineEnd span.stop + 1) source.length - 1 = source.lineEnd span.stop := by
          omega
        rw [stop]
        exact .inr (.inr (Bytes.getElem?_lineEnd last))
      · exact .inr (.inl (by omega))
    · exact .inl rfl

variable {edit other : Edit} {before after inner outer : Span}

/-- The edits of two statements that follow one another do not overlap. -/
theorem Widens.disjoint (first : edit.Widens source before) (second : other.Widens source after)
    (tight : source.Tight before) (tight' : source.Tight after) (apart : before.stop ≤ after.start) :
    edit.span.stop ≤ other.span.start := by
  obtain ⟨nonempty, -, last⟩ := tight
  obtain ⟨-, start, -⟩ := tight'
  have reach := Bytes.outside_of_solidAt start first.covers.after
  have reach' := Bytes.outside_of_solidAt last second.covers.before
  rcases first.back with same | whole | feed
  · omega
  · have := Bytes.lt_length_of_solidAt start
    omega
  · -- The line feed that the first edit ends with is not one that the second edit goes back over.
    by_contra overlap
    have member : Bytes.newline ∈ source.slice other.span.start after.start :=
      Bytes.mem_slice_of_getElem? feed (by omega) (by omega)
    exact second.front member

/-- The edit of a statement inside another one starts within the edit of that one. -/
theorem Widens.nested (whole : edit.Widens source outer) (part : other.Widens source inner)
    (tight : source.Tight outer) (later : outer.start < inner.start)
    (inside : inner.start < outer.stop) :
    edit.span.start < other.span.start ∧ other.span.start < edit.span.stop := by
  obtain ⟨-, start, -⟩ := tight
  have reach := Bytes.outside_of_solidAt start part.covers.before
  have lower := whole.covers.start_le
  have lower' := part.covers.start_le
  have upper := whole.covers.le_stop
  omega

end Edit

end NullGuard
