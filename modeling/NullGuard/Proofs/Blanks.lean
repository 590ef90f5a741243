import NullGuard.Source.Indentation
import NullGuard.Source.Removal

/-!
Blanks come and go, code stays. Moving lines to another indentation changes nothing but blanks, and
the deletion of a statement reaches beyond it only over blanks.
-/
namespace NullGuard

namespace Bytes

theorem slice_eq_take_drop (source : Bytes) (start stop : Nat) :
    source.slice start stop = (source.drop start).take (stop - start) :=
  List.drop_take

theorem slice_append (source : Bytes) {start middle stop : Nat} (lo : start ≤ middle)
    (hi : middle ≤ stop) :
    source.slice start middle ++ source.slice middle stop = source.slice start stop := by
  have rest : source.drop middle = (source.drop start).drop (middle - start) := by
    rw [List.drop_drop]
    congr 1
    omega
  have lengths : stop - start = (middle - start) + (stop - middle) := by omega
  rw [slice_eq_take_drop, slice_eq_take_drop, slice_eq_take_drop, rest, lengths, List.take_add]

/-! Text without its blanks. -/

@[simp] theorem solid_append (a b : Bytes) : solid (a ++ b) = a.solid ++ b.solid :=
  List.filter_append a b

theorem solid_eq_nil {text : Bytes} (blank : text.all isBlank = true) : text.solid = [] := by
  refine List.filter_eq_nil_iff.2 fun b member => ?_
  simp [List.all_eq_true.1 blank b member]

theorem solid_joinLines (first : Bytes) (rest : List Bytes) :
    solid (joinLines first rest) = first.solid ++ rest.flatMap solid := by
  rw [joinLines, solid_append]
  congr 1
  induction rest with
  | nil => rfl
  | cons line rest ih =>
    rw [List.flatMap_cons, solid_append, ih, List.flatMap_cons]
    rfl

theorem solid_drop {text : Bytes} {n : Nat} (blank : (text.take n).all isBlank = true) :
    solid (text.drop n) = text.solid := by
  have whole : text.solid = solid (text.take n) ++ solid (text.drop n) := by
    rw [← solid_append, List.take_append_drop]
  rw [whole, solid_eq_nil blank, List.nil_append]

theorem solid_drop_of_slice {source : Bytes} {start pos : Nat} (le : start ≤ pos)
    (blank : (source.slice start pos).all isBlank = true) :
    solid (source.drop pos) = solid (source.drop start) := by
  have rest : source.drop pos = (source.drop start).drop (pos - start) := by
    rw [List.drop_drop]
    congr 1
    omega
  rw [rest]
  exact solid_drop (by rw [← slice_eq_take_drop]; exact blank)

theorem all_isBlank_leading (line : Bytes) : line.leading.all isBlank = true :=
  List.all_takeWhile

theorem take_length_leading (line : Bytes) : line.take line.leading.length = line.leading :=
  (List.prefix_iff_eq_take.1 ( List.takeWhile_prefix isBlank)).symm

theorem solid_shiftLine {base indent : Bytes} (blankBase : base.all isBlank = true)
    (blankIndent : indent.all isBlank = true) (line : Bytes) :
    solid (shiftLine base indent line) = line.solid := by
  unfold shiftLine
  split
  next blank => rw [solid_eq_nil blank]; rfl
  split
  next starts =>
    obtain ⟨rest, rfl⟩ := List.isPrefixOf_iff_prefix.1 starts
    rw [List.drop_left, solid_append, solid_append, solid_eq_nil blankBase,
      solid_eq_nil blankIndent]
  next =>
    have spaces : ∀ n, solid (List.replicate n 0x20) = [] := fun n =>
      solid_eq_nil (List.all_eq_true.2 fun b member => by rw [(List.mem_replicate.1 member).2]; rfl)
    rw [solid_append, spaces, List.nil_append]
    exact solid_drop (by rw [take_length_leading]; exact all_isBlank_leading line)

theorem solid_shiftLines {base indent : Bytes} (blankBase : base.all isBlank = true)
    (blankIndent : indent.all isBlank = true) (literals : List Span) (pos : Nat)
    (lines : List Bytes) :
    (shiftLines base indent literals pos lines).flatMap solid = lines.flatMap solid := by
  induction lines generalizing pos with
  | nil => rfl
  | cons line rest ih =>
    rw [shiftLines, List.flatMap_cons, List.flatMap_cons, ih]
    congr 1
    split
    · rfl
    · exact solid_shiftLine blankBase blankIndent line

theorem solid_joinLines_shiftLines {base indent : Bytes} (blankBase : base.all isBlank = true)
    (blankIndent : indent.all isBlank = true) (literals : List Span) (pos : Nat) (first : Bytes)
    (lines : List Bytes) :
    solid (joinLines first (shiftLines base indent literals pos lines)) =
      solid (joinLines first lines) := by
  rw [solid_joinLines, solid_shiftLines blankBase blankIndent, ← solid_joinLines]

theorem reindent_eq (source : Bytes) (span : Span) (base indent : Bytes) (literals : List Span) :
    source.reindent span base indent literals =
      joinLines (source.at span).splitLines.1 (shiftLines base indent literals
        (span.start + (source.at span).splitLines.1.length + 1) (source.at span).splitLines.2) :=
  rfl

/-- Moving the lines of a span to another indentation keeps its code. -/
theorem solid_reindent (source : Bytes) (span : Span) {base indent : Bytes}
    (blankBase : base.all isBlank = true) (blankIndent : indent.all isBlank = true)
    (literals : List Span) :
    solid (source.reindent span base indent literals) = solid (source.at span) := by
  rw [reindent_eq, solid_joinLines_shiftLines blankBase blankIndent, joinLines_splitLines]

theorem all_isBlank_indentAt (source : Bytes) (pos : Nat) :
    (source.indentAt pos).all isBlank = true :=
  all_isBlank_leading _

/-! Lines around a position. -/

theorem exists_take_eq_append_lineBefore (source : Bytes) (pos : Nat) :
    ∃ earlier, source.take pos = earlier ++ source.lineBefore pos ∧
      source.lineStart pos = earlier.length := by
  have split : source.take pos =
      ((source.take pos).reverse.dropWhile (· != newline)).reverse ++ source.lineBefore pos := by
    rw [lineBefore, ← List.reverse_append, List.takeWhile_append_dropWhile, List.reverse_reverse]
  refine ⟨_, split, ?_⟩
  have lengths := congrArg List.length split
  rw [List.length_append] at lengths
  rw [lineStart]
  omega

theorem lineStart_le (source : Bytes) (pos : Nat) : source.lineStart pos ≤ pos := by
  rw [lineStart, List.length_take]
  omega

theorem slice_lineStart (source : Bytes) (pos : Nat) :
    source.slice (source.lineStart pos) pos = source.lineBefore pos := by
  obtain ⟨earlier, split, start⟩ := source.exists_take_eq_append_lineBefore pos
  rw [slice, start, split, List.drop_left]

/-- Up to and including the line feed at its end, the rest of a blank line is blank. -/
theorem all_isBlank_slice_lineEnd (source : Bytes) {pos : Nat} (inside : pos ≤ source.length)
    (blank : (source.lineAfter pos).all isBlank = true) :
    pos ≤ min (source.lineEnd pos + 1) source.length ∧
      (source.slice pos (min (source.lineEnd pos + 1) source.length)).all isBlank = true := by
  have split : source.drop pos =
      source.lineAfter pos ++ (source.drop pos).dropWhile (· != newline) :=
    List.takeWhile_append_dropWhile.symm
  have lengths := congrArg List.length split
  rw [List.length_append, List.length_drop] at lengths
  refine ⟨by rw [lineEnd]; omega, ?_⟩
  rw [slice_eq_take_drop, split]
  -- The line ends with the source or with a line feed, which is a blank too.
  cases later : (source.drop pos).dropWhile (· != newline) with
  | nil =>
    rw [List.append_nil]
    exact List.all_eq_true.2 fun b member =>
      List.all_eq_true.1 blank b (List.mem_of_mem_take member)
  | cons b rest =>
    have feed : b = newline := by
      have stopped := List.head?_dropWhile_not (· != newline) (source.drop pos)
      rw [later] at stopped
      simpa using stopped
    rw [later, List.length_cons] at lengths
    have width : min (source.lineEnd pos + 1) source.length - pos =
        (source.lineAfter pos).length + 1 := by
      rw [lineEnd]
      omega
    rw [width, List.take_length_add_append, feed, List.all_append, blank]
    rfl

end Bytes

/-- Within a source, an edit covers a span and otherwise only blanks. -/
structure Edit.Covers (edit : Edit) (source : Bytes) (span : Span) : Prop where
  start_le : edit.span.start ≤ span.start
  proper : span.start ≤ span.stop
  le_stop : span.stop ≤ edit.span.stop
  inside : edit.span.stop ≤ source.length
  before : (source.slice edit.span.start span.start).all Bytes.isBlank = true
  after : (source.slice span.stop edit.span.stop).all Bytes.isBlank = true

theorem Edit.covers_self {source : Bytes} {span : Span} (proper : span.start ≤ span.stop)
    (inside : span.stop ≤ source.length) (replacement : Bytes) :
    (Edit.mk span replacement).Covers source span where
  start_le := Nat.le_refl _
  proper := proper
  le_stop := Nat.le_refl _
  inside := inside
  before := by simp [Bytes.slice_eq_take_drop]
  after := by simp [Bytes.slice_eq_take_drop]

/-- The deletion of a statement reaches beyond it only over blanks. -/
theorem Edit.removal_covers {source : Bytes} {span : Span} (proper : span.start ≤ span.stop)
    (inside : span.stop ≤ source.length) : (Edit.removal source span).Covers source span := by
  unfold Edit.removal
  split
  next alone =>
    obtain ⟨before, after⟩ := Bool.and_eq_true_iff.1 alone
    obtain ⟨reach, blank⟩ := source.all_isBlank_slice_lineEnd inside after
    exact {
      start_le := source.lineStart_le span.start
      proper := proper
      le_stop := reach
      inside := Nat.min_le_right _ _
      before := by rw [Bytes.slice_lineStart]; exact before
      after := blank }
  next => exact Edit.covers_self proper inside []

theorem Edit.replacement_removal (source : Bytes) (span : Span) :
    (Edit.removal source span).replacement = [] := by
  unfold Edit.removal
  split <;> rfl

end NullGuard
