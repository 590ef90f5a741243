import NullGuard.Proofs.Reindentation

/-!
Deleting a statement, line by line. The lines that a statement is on reach from the start of the line
that it starts on up to and including the line feed of the line that it stops on. If nothing else stands
on them the deletion takes exactly these lines and leaves every other line as it was; if anything does,
it takes the statement and nothing more. A source that ends with the lines taken keeps the line feed
before them, and so ends with an empty line.
-/
namespace NullGuard

namespace Bytes

/-- The lines of a text, without their line feeds. -/
def lines (text : Bytes) : List Bytes := text.splitLines.1 :: text.splitLines.2

theorem lines_append_newline (text rest : Bytes) :
    lines (text ++ newline :: rest) = text.lines ++ rest.lines := by
  simp only [lines, splitLines_append_newline, List.cons_append]

/-- There is one line more than there are line feeds. -/
theorem length_lines (text : Bytes) : text.lines.length = text.count newline + 1 := by
  obtain ⟨first, others⟩ := newline_not_mem_splitLines text
  have feeds := count_newline_joinLines first others
  rw [joinLines_splitLines] at feeds
  rw [lines, List.length_cons, feeds]

variable {source : Bytes} {span range : Span} {start stop pos : Nat}

/-- The position is the first one of a line. -/
def StartsLine (source : Bytes) (pos : Nat) : Prop := pos = 0 ∨ source[pos - 1]? = some newline

instance (source : Bytes) (pos : Nat) : Decidable (source.StartsLine pos) :=
  inferInstanceAs (Decidable (_ ∨ _))

/-- Whatever comes after whole lines, these stay as they are. -/
theorem StartsLine.lines_take_append (starts : source.StartsLine pos) (text : Bytes) :
    lines (source.take pos ++ text) = source.lines.take (source.row pos) ++ text.lines := by
  rcases starts with rfl | feed
  · rfl
  · cases pos with
    | zero => rfl
    | succ before =>
      have split : source.take (before + 1) = source.take before ++ [newline] := by
        rw [List.take_add_one, show source[before]? = some newline from feed]
        rfl
      have cut : ∀ rest, lines (source.take (before + 1) ++ rest) =
          lines (source.take before) ++ rest.lines := by
        intro rest
        rw [split, List.append_assoc]
        exact lines_append_newline _ rest
      have whole := cut (source.drop (before + 1))
      rw [List.take_append_drop] at whole
      have count : (lines (source.take before)).length = source.row (before + 1) := by
        rw [length_lines, row, split, List.count_append]
        rfl
      rw [cut text, whole, List.take_left' count]

/-- The lines from the start of a line on. -/
theorem StartsLine.lines_drop (starts : source.StartsLine pos) :
    lines (source.drop pos) = source.lines.drop (source.row pos) := by
  have whole := starts.lines_take_append (source.drop pos)
  rw [List.take_append_drop] at whole
  have fewer : source.row pos ≤ source.lines.length := by
    have := (List.take_sublist pos source).count_le newline
    rw [length_lines, row]
    omega
  have dropped := congrArg (List.drop (source.row pos)) whole
  rw [List.drop_left' (List.length_take_of_le fewer)] at dropped
  exact dropped.symm

theorem row_eq_of_not_mem (le : start ≤ stop) (plain : newline ∉ source.slice start stop) :
    source.row stop = source.row start := by
  have split : source.take stop = source.take start ++ source.slice start stop :=
    (source.slice_append (Nat.zero_le start) le).symm
  rw [row, split, List.count_append, List.count_eq_zero.2 plain, Nat.add_zero, row]

theorem row_succ_of_newline (feed : source[pos]? = some newline) :
    source.row (pos + 1) = source.row pos + 1 := by
  rw [row, List.take_add_one, feed, List.count_append]
  rfl

theorem startsLine_lineStart (source : Bytes) (pos : Nat) :
    source.StartsLine (source.lineStart pos) := by
  have split : source.take pos =
      ((source.take pos).reverse.dropWhile (· != newline)).reverse ++ source.lineBefore pos := by
    rw [lineBefore, ← List.reverse_append, List.takeWhile_append_dropWhile, List.reverse_reverse]
  have lengths := congrArg List.length split
  rw [List.length_append, List.length_reverse] at lengths
  cases earlier : (source.take pos).reverse.dropWhile (· != newline) with
  | nil =>
    rw [earlier, List.length_nil] at lengths
    refine .inl ?_
    rw [lineStart]
    omega
  | cons b rest =>
    have feed : b = newline := by
      have stopped := List.head?_dropWhile_not (· != newline) (source.take pos).reverse
      rw [earlier] at stopped
      simpa using stopped
    rw [earlier, List.length_cons] at lengths
    have last : source.lineStart pos - 1 = rest.length := by
      rw [lineStart]
      omega
    have found : (source.take pos)[rest.length]? = some newline := by
      rw [split, earlier, feed, List.reverse_cons, List.append_assoc,
        List.getElem?_append_right (by rw [List.length_reverse])]
      simp
    rw [List.getElem?_take] at found
    split at found
    · exact .inr (by rw [last, found])
    · cases found

theorem slice_lineEnd (source : Bytes) (pos : Nat) :
    source.slice pos (source.lineEnd pos) = source.lineAfter pos := by
  have front : source.lineAfter pos <+: source.drop pos := List.takeWhile_prefix (· != newline)
  have short := front.length_le
  rw [List.length_drop] at short
  have width : source.lineEnd pos - pos = (source.lineAfter pos).length := by
    rw [lineEnd]
    omega
  rw [slice_eq_take_drop, width]
  exact (List.prefix_iff_eq_take.1 front).symm

theorem newline_not_mem_lineAfter (source : Bytes) (pos : Nat) : newline ∉ source.lineAfter pos := by
  intro member
  simpa using List.all_eq_true.1 List.all_takeWhile newline member

/-- The range takes the lines from the one that a span starts on to the one that it stops on, the last of
them with its line feed unless it ends with the source. -/
structure WholeLines (source : Bytes) (span range : Span) : Prop where
  start_le : range.start ≤ span.start
  le_stop : span.stop ≤ range.stop
  starts : source.StartsLine range.start
  front : newline ∉ source.slice range.start span.start
  ends : range.stop = source.length ∧ newline ∉ source.slice span.stop range.stop ∨
    span.stop < range.stop ∧ source[range.stop - 1]? = some newline ∧
      newline ∉ source.slice span.stop (range.stop - 1)

theorem wholeLines_around (inside : span.stop ≤ source.length) :
    source.WholeLines span
      ⟨source.lineStart span.start, min (source.lineEnd span.stop + 1) source.length⟩ where
  start_le := source.lineStart_le span.start
  le_stop := by simp only [lineEnd]; omega
  starts := source.startsLine_lineStart span.start
  front := by
    rw [slice_lineStart]
    exact source.newline_not_mem_lineBefore span.start
  ends := by
    have reach : span.stop ≤ source.lineEnd span.stop := by
      rw [lineEnd]
      omega
    have within : source.lineEnd span.stop ≤ source.length := Nat.min_le_right _ _
    have plain := source.newline_not_mem_lineAfter span.stop
    rw [← slice_lineEnd] at plain
    by_cases last : source.lineEnd span.stop < source.length
    · rw [Nat.min_eq_left last]
      exact .inr ⟨Nat.lt_succ_of_le reach, getElem?_lineEnd last, plain⟩
    · have whole : source.lineEnd span.stop = source.length := by omega
      rw [whole] at plain ⊢
      rw [Nat.min_eq_right (Nat.le_succ _)]
      exact .inl ⟨rfl, plain⟩

/-- A span that takes the lines it is on has nothing before or after it on these. -/
theorem WholeLines.alone (whole : source.WholeLines span span) :
    source.lineBefore span.start = [] ∧ source.lineAfter span.stop = [] := by
  constructor
  · have reach := source.lineStart_le span.start
    have empty : source.lineStart span.start = span.start := by
      by_contra differ
      rcases whole.starts with zero | feed
      · omega
      · have member : newline ∈ source.slice (source.lineStart span.start) span.start :=
          mem_slice_of_getElem? feed (by omega) (by omega)
        rw [slice_lineStart] at member
        exact source.newline_not_mem_lineBefore span.start member
    rw [← slice_lineStart, empty, slice_eq_take_drop, Nat.sub_self, List.take_zero]
  · rcases whole.ends with ⟨last, -⟩ | ⟨beyond, -⟩
    · rw [lineAfter, last, List.drop_length, List.takeWhile_nil]
    · exact absurd beyond (Nat.lt_irrefl _)

/-- Without whole lines, the lines before and after them are left. -/
theorem WholeLines.lines_cut (whole : source.WholeLines span range) :
    lines (source.take range.start ++ source.drop range.stop) =
      source.lines.take (source.row span.start) ++
        if source.lines.drop (source.row span.stop + 1) = [] then [[]]
        else source.lines.drop (source.row span.stop + 1) := by
  rw [whole.starts.lines_take_append, row_eq_of_not_mem whole.start_le whole.front]
  congr 1
  rcases whole.ends with ⟨last, plain⟩ | ⟨beyond, feed, plain⟩
  · have rows : source.lines.length = source.row span.stop + 1 := by
      rw [length_lines, ← row_eq_of_not_mem whole.le_stop plain, last, row, List.take_length]
    rw [if_pos (List.drop_of_length_le (by omega)), last, List.drop_length]
    rfl
  · have rows : source.row range.stop = source.row span.stop + 1 := by
      have next := row_succ_of_newline feed
      rw [row_eq_of_not_mem (by omega) plain, Nat.sub_add_cancel (by omega)] at next
      exact next
    have later : StartsLine source range.stop := .inr feed
    have left := later.lines_drop
    rw [rows] at left
    rw [← left, if_neg]
    exact List.cons_ne_nil _ _

end Bytes

/-- Nothing but blanks stands before the span on its first line and after it on its last line. -/
def Bytes.Alone (source : Bytes) (span : Span) : Prop :=
  (source.lineBefore span.start).all isBlank = true ∧ (source.lineAfter span.stop).all isBlank = true

instance (source : Bytes) (span : Span) : Decidable (source.Alone span) :=
  inferInstanceAs (Decidable (_ ∧ _))

namespace Edit

variable {source : Bytes} {span : Span}

theorem span_removal_of_alone (alone : source.Alone span) :
    (removal source span).span =
      ⟨source.lineStart span.start, min (source.lineEnd span.stop + 1) source.length⟩ := by
  rw [removal, if_pos (Bool.and_eq_true_iff.2 alone)]

theorem span_removal_of_not_alone (other : ¬ source.Alone span) :
    (removal source span).span = span := by
  rw [removal, if_neg (mt Bool.and_eq_true_iff.1 other)]

theorem applyAll_singleton (edit : Edit) (source : Bytes) :
    applyAll [edit] source = edit.apply source := by
  simp [applyAll, select, keepFrom]

/-- The deletion of a statement puts nothing in its place and reaches beyond it only over blanks. It takes
the lines that the statement is on exactly if nothing else stands on them, and otherwise the statement
alone. In the first case all other lines are left as they were and in the same order; if there are none
after those taken, an empty one stands in for them. -/
theorem lines_removal (source : Bytes) (span : Span) (proper : span.start ≤ span.stop)
    (inside : span.stop ≤ source.length) :
    let edit := removal source span
    let later := source.lines.drop (source.row span.stop + 1)
    edit.replacement = [] ∧ edit.Covers source span ∧
      (source.WholeLines span edit.span ↔ source.Alone span) ∧
      (¬ source.Alone span → edit.span = span) ∧
      (source.Alone span → (applyAll [edit] source).lines =
        source.lines.take (source.row span.start) ++ if later = [] then [[]] else later) := by
  intro edit later
  have whole := Bytes.wholeLines_around inside
  refine ⟨replacement_removal source span, removal_covers proper inside, ⟨?_, ?_⟩,
    span_removal_of_not_alone, ?_⟩
  · intro lines
    by_contra other
    rw [span_removal_of_not_alone other] at lines
    obtain ⟨before, after⟩ := lines.alone
    exact other ⟨by rw [before]; rfl, by rw [after]; rfl⟩
  · intro alone
    rw [span_removal_of_alone alone]
    exact whole
  · intro alone
    rw [← span_removal_of_alone alone] at whole
    rw [applyAll_singleton, apply, replacement_removal, List.append_nil]
    exact whole.lines_cut

/-- A statement over two lines, indented by tabs and followed by a blank and a carriage return. -/
def indentedStatement : Bytes := "a;\n\tif (b)\n\t\tc; \r\nd;".toList.map Char.toUInt8

/-- The two lines of the statement go with their line feeds, and the other two lines stay. The call in the
last line leaves an empty line behind, and the condition alone would go without its line. -/
theorem lines_removal_indentedStatement :
    indentedStatement.Alone ⟨4, 15⟩ ∧ indentedStatement.WholeLines ⟨4, 15⟩ ⟨3, 18⟩ ∧
      removal indentedStatement ⟨4, 15⟩ = ⟨⟨3, 18⟩, []⟩ ∧
      (applyAll [removal indentedStatement ⟨4, 15⟩] indentedStatement).lines =
        ["a;".toList.map Char.toUInt8, "d;".toList.map Char.toUInt8] ∧
      (applyAll [removal indentedStatement ⟨18, 20⟩] indentedStatement).lines.getLast? = some [] ∧
      ¬ indentedStatement.Alone ⟨7, 10⟩ ∧ (removal indentedStatement ⟨7, 10⟩).span = ⟨7, 10⟩ := by
  have edit : removal indentedStatement ⟨4, 15⟩ = ⟨⟨3, 18⟩, []⟩ := by decide
  have alone : indentedStatement.Alone ⟨4, 15⟩ := by decide
  have last : indentedStatement.Alone ⟨18, 20⟩ := by decide
  have other : ¬ indentedStatement.Alone ⟨7, 10⟩ := by decide
  obtain ⟨-, -, whole, -, kept⟩ := lines_removal indentedStatement ⟨4, 15⟩ (by decide) (by decide)
  obtain ⟨-, -, -, -, emptied⟩ := lines_removal indentedStatement ⟨18, 20⟩ (by decide) (by decide)
  obtain ⟨-, -, -, unchanged, -⟩ := lines_removal indentedStatement ⟨7, 10⟩ (by decide) (by decide)
  refine ⟨alone, ?_, edit, (kept alone).trans (by decide), ?_, other, unchanged other⟩
  · rw [edit] at whole
    exact whole.2 alone
  · rw [emptied last]
    decide

end Edit

end NullGuard
