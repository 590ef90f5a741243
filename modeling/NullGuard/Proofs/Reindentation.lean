import Mathlib.Data.List.DropRight
import NullGuard.Proofs.Spacing

/-!
Moving lines to another indentation, line by line. A line that moves keeps its text, and its margin
grows or shrinks by the difference of the two indentations, whether or not it begins with the old one.
So lines that did begin with it can be moved back.

Moving goes through a text from left to right, so it can be cut in front of any byte that is no blank: what
comes before the cut keeps its code on as many lines, and what comes after is moved from there on. A literal
lies between two such cuts, and comes out as it went in.
-/
namespace NullGuard.Bytes

/-! Parts of a text. -/

theorem length_slice_le (source : Bytes) (start stop : Nat) :
    (source.slice start stop).length ≤ stop - start := by
  rw [slice, List.length_drop, List.length_take]
  omega

theorem slice_eq_cons {source : Bytes} {start stop : Nat} {b : UInt8} (found : source[start]? = some b)
    (nonempty : start < stop) : source.slice start stop = b :: source.slice (start + 1) stop := by
  have first : source.slice start (start + 1) = [b] := by
    rw [slice, List.take_add_one, found]
    have inside := (List.getElem?_eq_some_iff.1 found).1
    exact List.drop_left' (List.length_take_of_le (Nat.le_of_lt inside))
  rw [← source.slice_append (Nat.le_succ start) nonempty, first]
  rfl

/-! Lines of a text. -/

theorem splitLines_append_of_not_mem {line : Bytes} (plain : newline ∉ line) (text : Bytes) :
    splitLines (line ++ text) = (line ++ text.splitLines.1, text.splitLines.2) := by
  induction line with
  | nil => rfl
  | cons b line ih =>
    obtain ⟨head, plain⟩ := not_or.1 (fun h => plain (List.mem_cons.2 h))
    have differ : b ≠ newline := fun same => head same.symm
    simp [splitLines, ih plain, differ]

theorem splitLines_of_not_mem {line : Bytes} (plain : newline ∉ line) :
    splitLines line = (line, []) := by
  simpa [splitLines] using splitLines_append_of_not_mem plain []

theorem splitLines_append_newline (text rest : Bytes) :
    splitLines (text ++ newline :: rest) =
      (text.splitLines.1, text.splitLines.2 ++ rest.splitLines.1 :: rest.splitLines.2) := by
  induction text with
  | nil => simp [splitLines]
  | cons b text ih => by_cases feed : b = newline <;> simp [splitLines, ih, feed]

theorem newline_not_mem_splitLines (text : Bytes) :
    newline ∉ text.splitLines.1 ∧ ∀ line ∈ text.splitLines.2, newline ∉ line := by
  induction text with
  | nil => simp [splitLines]
  | cons b text ih =>
    obtain ⟨first, others⟩ := ih
    by_cases feed : b = newline
    · simpa [splitLines, feed] using ⟨first, others⟩
    · have differ : newline ≠ b := fun same => feed same.symm
      simpa [splitLines, feed, differ] using ⟨first, others⟩

theorem joinLines_append (first : Bytes) (lines others : List Bytes) :
    joinLines first (lines ++ others) = joinLines first lines ++ others.flatMap (newline :: ·) := by
  simp [joinLines]

/-- Lines without a line feed are the lines of what they are joined to. -/
theorem splitLines_joinLines {first : Bytes} {lines : List Bytes} (plain : newline ∉ first)
    (others : ∀ line ∈ lines, newline ∉ line) : splitLines (joinLines first lines) = (first, lines) := by
  induction lines generalizing first with
  | nil => simpa [joinLines] using splitLines_of_not_mem plain
  | cons line lines ih =>
    obtain ⟨next, others⟩ := List.forall_mem_cons.1 others
    have below := ih next others
    have split : joinLines first (line :: lines) = first ++ newline :: joinLines line lines := by
      simp [joinLines]
    rw [split, splitLines_append_newline, splitLines_of_not_mem plain, below]
    rfl

theorem count_newline_joinLines {first : Bytes} {lines : List Bytes} (plain : newline ∉ first)
    (others : ∀ line ∈ lines, newline ∉ line) :
    (joinLines first lines).count newline = lines.length := by
  rw [joinLines, List.count_append, List.count_eq_zero.2 plain, Nat.zero_add]
  induction lines with
  | nil => rfl
  | cons line lines ih =>
    obtain ⟨next, others⟩ := List.forall_mem_cons.1 others
    rw [List.flatMap_cons, List.count_append, ih others, List.count_cons_self,
      List.count_eq_zero.2 next, List.length_cons]
    omega

/-! One line. -/

theorem drop_length_leading (line : Bytes) : line.drop line.leading.length = line.dropWhile isBlank := by
  have split : line.leading ++ line.dropWhile isBlank = line := List.takeWhile_append_dropWhile
  have dropped := congrArg (List.drop line.leading.length) split
  rw [List.drop_left] at dropped
  exact dropped.symm

/-- Blanks in front of a line are part of its margin. -/
theorem leading_append {margin : Bytes} (blank : margin.all isBlank = true) (line : Bytes) :
    leading (margin ++ line) = margin ++ line.leading :=
  List.takeWhile_append_of_pos (List.all_eq_true.1 blank)

/-- A line that holds more than blanks keeps its text after the margin when it moves, and the margin
changes by the difference of the indentations. -/
theorem shiftLine_eq_append {base indent line : Bytes} (blankBase : base.all isBlank = true)
    (blankIndent : indent.all isBlank = true) (solid : line.all isBlank = false) :
    ∃ margin, margin.all isBlank = true ∧
      margin.length = line.leading.length + indent.length - base.length ∧
      shiftLine base indent line = margin ++ line.dropWhile isBlank := by
  unfold shiftLine
  rw [if_neg (by simp [solid])]
  split
  next starts =>
    obtain ⟨rest, rfl⟩ := List.isPrefixOf_iff_prefix.1 starts
    refine ⟨indent ++ leading rest, ?_, ?_, ?_⟩
    · rw [List.all_append, blankIndent, all_isBlank_leading]
      rfl
    · rw [leading_append blankBase, List.length_append, List.length_append]
      omega
    · rw [List.drop_left, List.dropWhile_append_of_pos (List.all_eq_true.1 blankBase),
        List.append_assoc]
      exact congrArg (indent ++ ·) List.takeWhile_append_dropWhile.symm
  next =>
    refine ⟨_, ?_, List.length_replicate, by rw [drop_length_leading]⟩
    exact List.all_eq_true.2 fun b member => by rw [(List.mem_replicate.1 member).2]; rfl

theorem newline_not_mem_shiftLine {base indent line : Bytes} (plain : newline ∉ indent)
    (within : newline ∉ line) : newline ∉ shiftLine base indent line := by
  unfold shiftLine
  split
  · exact List.not_mem_nil
  split
  · exact fun member => (List.mem_append.1 member).elim plain (within ∘ List.mem_of_mem_drop)
  · intro member
    rcases List.mem_append.1 member with space | rest
    · exact absurd (List.mem_replicate.1 space).2 (by decide)
    · exact within (List.mem_of_mem_drop rest)

/-! The lines after the first. -/

section

variable (base indent : Bytes) (literals : List Span)

theorem shiftLines_append (pos : Nat) (lines others : List Bytes) :
    shiftLines base indent literals pos (lines ++ others) =
      shiftLines base indent literals pos lines ++
        shiftLines base indent literals (pos + (lines.flatMap (newline :: ·)).length) others := by
  induction lines generalizing pos with
  | nil => rfl
  | cons line lines ih =>
    have next : pos + line.length + 1 + (lines.flatMap (newline :: ·)).length =
        pos + ((line :: lines).flatMap (newline :: ·)).length := by
      rw [List.flatMap_cons, List.length_append, List.length_cons]
      omega
    rw [List.cons_append, shiftLines, shiftLines, ih, next, List.cons_append]

/-- The line at an index moves unless its start, which the lines before it tell, is inside a literal. -/
theorem getElem?_shiftLines (pos : Nat) (lines : List Bytes) (i : Nat) :
    (shiftLines base indent literals pos lines)[i]? = lines[i]?.map fun line =>
      if literals.any (·.holdsInside (pos + ((lines.take i).flatMap (newline :: ·)).length)) then line
      else shiftLine base indent line := by
  induction lines generalizing pos i with
  | nil => rfl
  | cons line lines ih =>
    cases i with
    | zero => simp [shiftLines]
    | succ i =>
      rw [shiftLines, List.getElem?_cons_succ, ih, List.getElem?_cons_succ, List.take_succ_cons,
        List.flatMap_cons, List.length_append, List.length_cons]
      have next : pos + line.length + 1 + ((lines.take i).flatMap (newline :: ·)).length =
          pos + (line.length + 1 + ((lines.take i).flatMap (newline :: ·)).length) := by
        omega
      rw [next]

theorem shiftLines_nil_literals (pos : Nat) (lines : List Bytes) :
    shiftLines base indent [] pos lines = lines.map (shiftLine base indent) := by
  induction lines generalizing pos with
  | nil => rfl
  | cons line lines ih => simp [shiftLines, ih]

variable {base indent literals}

theorem newline_not_mem_shiftLines (plain : newline ∉ indent) {lines : List Bytes}
    (within : ∀ line ∈ lines, newline ∉ line) (pos : Nat) :
    ∀ line ∈ shiftLines base indent literals pos lines, newline ∉ line := by
  induction lines generalizing pos with
  | nil => exact within
  | cons line lines ih =>
    obtain ⟨first, others⟩ := List.forall_mem_cons.1 within
    refine List.forall_mem_cons.2 ⟨?_, ih others _⟩
    split
    · exact first
    · exact newline_not_mem_shiftLine plain first

end

/-- The first line stays, and each other line is one of the result. -/
theorem splitLines_reindent (source : Bytes) (span : Span) (base : Bytes) {indent : Bytes}
    (plain : newline ∉ indent) (literals : List Span) :
    (source.reindent span base indent literals).splitLines =
      ((source.at span).splitLines.1, shiftLines base indent literals
        (span.start + (source.at span).splitLines.1.length + 1) (source.at span).splitLines.2) := by
  obtain ⟨first, others⟩ := newline_not_mem_splitLines (source.at span)
  exact splitLines_joinLines first (newline_not_mem_shiftLines plain others _)

/-- How a continuation line moves that starts in no literal: a blank one becomes empty, and any other
keeps its text and has a margin that differs by as much as the indentations do, down to none. -/
structure Moves (base indent line moved : Bytes) : Prop where
  blank : line.all isBlank = true → moved = []
  text : line.all isBlank = false → moved.dropWhile isBlank = line.dropWhile isBlank
  margin : line.all isBlank = false →
    (moved.leading.length : Int) = max (line.leading.length + indent.length - base.length : Int) 0

theorem moves_shiftLine {base indent : Bytes} (blankBase : base.all isBlank = true)
    (blankIndent : indent.all isBlank = true) (line : Bytes) :
    Moves base indent line (shiftLine base indent line) := by
  refine ⟨fun blank => by simp [shiftLine, blank], fun solid => ?_, fun solid => ?_⟩
  · obtain ⟨margin, blank, -, moved⟩ := shiftLine_eq_append blankBase blankIndent solid
    rw [moved, List.dropWhile_append_of_pos (List.all_eq_true.1 blank)]
    exact List.dropWhile_idempotent isBlank line
  · obtain ⟨margin, blank, width, moved⟩ := shiftLine_eq_append blankBase blankIndent solid
    have stop : leading (line.dropWhile isBlank) = [] :=
      List.takeWhile_eq_nil_iff.2 (List.dropWhile_get_zero_not isBlank line)
    rw [moved, leading_append blank, stop, List.append_nil, width]
    omega

/-- The line moves back to where it was, if it was empty or began with the old indentation. -/
theorem shiftLine_shiftLine {base indent line : Bytes} (blankBase : base.all isBlank = true)
    (regular : line = [] ∨ line.all isBlank = false ∧ base.isPrefixOf line = true) :
    shiftLine indent base (shiftLine base indent line) = line := by
  rcases regular with rfl | ⟨solid, starts⟩
  · rfl
  · obtain ⟨rest, rfl⟩ := List.isPrefixOf_iff_prefix.1 starts
    have within : List.all rest isBlank = false := by
      rw [List.all_append, blankBase, Bool.true_and] at solid
      exact solid
    have there : shiftLine base indent (base ++ rest) = indent ++ rest := by
      simp [shiftLine, within]
    rw [there]
    simp [shiftLine, within]

/-- Where the blank lines are empty and the others begin with the old indentation, moving the lines back
restores the text. -/
theorem reindent_reindent (source : Bytes) (span : Span) {base indent : Bytes}
    (blankBase : base.all isBlank = true) (plain : newline ∉ indent)
    (regular : ∀ line ∈ (source.at span).splitLines.2,
      line = [] ∨ line.all isBlank = false ∧ base.isPrefixOf line = true) :
    let result := source.reindent span base indent []
    result.reindent ⟨0, result.length⟩ indent base [] = source.at span := by
  intro result
  have whole : Bytes.at result ⟨0, result.length⟩ = result := by simp [Bytes.at, slice]
  have lines := splitLines_reindent source span base plain []
  have back : ((source.at span).splitLines.2.map (shiftLine base indent)).map (shiftLine indent base) =
      (source.at span).splitLines.2 := by
    rw [List.map_map]
    refine (List.map_congr_left fun line member => ?_).trans (List.map_id _)
    exact shiftLine_shiftLine blankBase (regular line member)
  calc result.reindent ⟨0, result.length⟩ indent base []
    _ = joinLines result.splitLines.1 (result.splitLines.2.map (shiftLine indent base)) := by
      rw [reindent_eq, whole, shiftLines_nil_literals]
    _ = joinLines (source.at span).splitLines.1 (source.at span).splitLines.2 := by
      rw [lines, shiftLines_nil_literals, back]
    _ = source.at span := joinLines_splitLines (source.at span)

/-- Moving the lines of a span keeps their number. The first line and the lines that start inside a
literal stay, and every other line moves by the difference of the indentations. Without literals, and
where the blank lines are empty and the others begin with the old indentation, moving the result back
restores the text. -/
theorem lines_reindent (source : Bytes) (span : Span) {base indent : Bytes} (literals : List Span)
    (blankBase : base.all isBlank = true) (blankIndent : indent.all isBlank = true)
    (plain : newline ∉ indent) :
    let before := (source.at span).splitLines
    let result := source.reindent span base indent literals
    let after := result.splitLines
    (after.1 = before.1 ∧ after.2.length = before.2.length ∧
      ∀ i line, before.2[i]? = some line → ∃ moved, after.2[i]? = some moved ∧
        if literals.any (·.holdsInside
          (span.start + (joinLines before.1 (before.2.take i)).length + 1)) then moved = line
        else Moves base indent line moved) ∧
      (literals = [] →
        (∀ line ∈ before.2, line = [] ∨ line.all isBlank = false ∧ base.isPrefixOf line = true) →
        result.reindent ⟨0, result.length⟩ indent base [] = source.at span) := by
  intro before result after
  have lines : after = (before.1, shiftLines base indent literals
      (span.start + before.1.length + 1) before.2) :=
    splitLines_reindent source span base plain literals
  refine ⟨⟨by rw [lines], by rw [lines, length_shiftLines], fun i line found => ?_⟩, ?_⟩
  · have start : span.start + (joinLines before.1 (before.2.take i)).length + 1 =
        span.start + before.1.length + 1 + ((before.2.take i).flatMap (newline :: ·)).length := by
      rw [joinLines, List.length_append]
      omega
    rw [lines, start]
    refine ⟨_, by rw [getElem?_shiftLines, found, Option.map_some], ?_⟩
    split
    · rfl
    · exact moves_shiftLine blankBase blankIndent line
  · rintro rfl regular
    exact reindent_reindent source span blankBase plain regular

/-- A call over seven lines: with a margin as deep as the old one or deeper, with a tab for a margin,
blank, with a literal that goes on to the next line, and with a shallow margin. -/
def raggedCall : Bytes :=
  "a(\n      b,\n\tc,\n  \n    \"y\n x\",\n d);".toList.map Char.toUInt8

/-- The same call with even margins. -/
def evenCall : Bytes := "a(\n    b,\n\n      c);".toList.map Char.toUInt8

/-- From four blanks to two, a line with a tab loses its margin, and the line that starts in the literal
stays. Even lines can go to a tab and back. -/
theorem lines_reindent_raggedCall :
    let four : Bytes := List.replicate 4 0x20
    let two : Bytes := List.replicate 2 0x20
    let lines := (raggedCall.reindent ⟨0, 35⟩ four two [⟨23, 29⟩]).splitLines.2
    lines.length = 6 ∧
      (∃ moved, lines[1]? = some moved ∧ moved.leading.length = 0 ∧
        moved.dropWhile isBlank = "c,".toList.map Char.toUInt8) ∧
      lines[4]? = some (" x\",".toList.map Char.toUInt8) ∧
      let tabbed := evenCall.reindent ⟨0, 20⟩ four [0x09] []
      tabbed.reindent ⟨0, tabbed.length⟩ [0x09] four [] = evenCall := by
  intro four two lines
  obtain ⟨⟨-, count, each⟩, -⟩ := lines_reindent raggedCall ⟨0, 35⟩ [⟨23, 29⟩]
    (by decide : four.all isBlank = true) (by decide : two.all isBlank = true) (by decide)
  obtain ⟨-, back⟩ := lines_reindent evenCall ⟨0, 20⟩ [] (by decide : four.all isBlank = true)
    (by decide : List.all [0x09] isBlank = true) (by decide)
  refine ⟨count.trans (by decide), ?_, ?_, (back rfl (by decide)).trans (by decide)⟩
  · obtain ⟨moved, found, law⟩ := each 1 ("\tc,".toList.map Char.toUInt8) (by decide)
    rw [if_neg (by decide)] at law
    refine ⟨moved, found, ?_, (law.text (by decide)).trans (by decide)⟩
    have margin := law.margin (by decide)
    exact Int.ofNat.inj (margin.trans (by decide))
  · obtain ⟨moved, found, stays⟩ := each 4 (" x\",".toList.map Char.toUInt8) (by decide)
    rw [if_pos (by decide)] at stays
    rw [found, stays]

/-! Text with the same code on as many lines. -/

/-- Two texts differ at most in blanks, and have the same number of line feeds. -/
def SameCode (a b : Bytes) : Prop := a.solid = b.solid ∧ a.count newline = b.count newline

theorem SameCode.append_cancel_left {a b c : Bytes} (same : SameCode (a ++ b) (a ++ c)) :
    SameCode b c := by
  obtain ⟨code, lines⟩ := same
  rw [solid_append, solid_append] at code
  rw [List.count_append, List.count_append] at lines
  exact ⟨List.append_cancel_left code, Nat.add_left_cancel lines⟩

theorem SameCode.append_cancel_right {a b c d : Bytes} (same : SameCode (a ++ c) (b ++ d))
    (tail : SameCode c d) : SameCode a b := by
  obtain ⟨code, lines⟩ := same
  rw [solid_append, solid_append, tail.1] at code
  rw [List.count_append, List.count_append, tail.2] at lines
  exact ⟨List.append_cancel_right code, Nat.add_right_cancel lines⟩

/-! Text from a position on. -/

section

variable (base indent : Bytes) (literals : List Span)

/-- Text that begins inside a line, at a position: what is left of the line stays, and the lines after it
move. -/
def moveAfter (pos : Nat) (text : Bytes) : Bytes :=
  joinLines text.splitLines.1 (shiftLines base indent literals (pos + text.splitLines.1.length + 1)
    text.splitLines.2)

/-- Text that begins with a line, which moves too unless it starts inside a literal. -/
def moveFrom (pos : Nat) (text : Bytes) : Bytes :=
  joinLines (if literals.any (·.holdsInside pos) then text.splitLines.1
    else shiftLine base indent text.splitLines.1) (shiftLines base indent literals
      (pos + text.splitLines.1.length + 1) text.splitLines.2)

theorem moveAfter_append_newline (pos : Nat) (text rest : Bytes) :
    moveAfter base indent literals pos (text ++ newline :: rest) =
      moveAfter base indent literals pos text ++
        newline :: moveFrom base indent literals (pos + text.length + 1) rest := by
  have width : text.length = text.splitLines.1.length +
      (text.splitLines.2.flatMap (newline :: ·)).length := by
    conv_lhs => rw [← joinLines_splitLines text, joinLines, List.length_append]
  have next : pos + text.splitLines.1.length + 1 +
      (text.splitLines.2.flatMap (newline :: ·)).length = pos + text.length + 1 := by
    omega
  rw [moveAfter, splitLines_append_newline, shiftLines_append, next, joinLines_append, shiftLines,
    List.flatMap_cons]
  rfl

theorem moveAfter_append_of_not_mem {line : Bytes} (plain : newline ∉ line) (pos : Nat) (text : Bytes) :
    moveAfter base indent literals pos (line ++ text) =
      line ++ moveAfter base indent literals (pos + line.length) text := by
  rw [moveAfter, splitLines_append_of_not_mem plain, moveAfter, joinLines, joinLines,
    List.append_assoc, List.length_append, ← Nat.add_assoc pos]

theorem moveAfter_cons (pos : Nat) (b : UInt8) (text : Bytes) :
    moveAfter base indent literals pos (b :: text) =
      b :: if b = newline then moveFrom base indent literals (pos + 1) text
        else moveAfter base indent literals (pos + 1) text := by
  split
  next feed =>
    rw [feed]
    exact moveAfter_append_newline base indent literals pos [] text
  next other =>
    have plain : newline ∉ [b] := fun member => other (List.mem_singleton.1 member).symm
    exact moveAfter_append_of_not_mem base indent literals plain pos text

variable {base indent}

theorem moveFrom_of_held {literals : List Span} {pos : Nat}
    (held : literals.any (·.holdsInside pos) = true) (text : Bytes) :
    moveFrom base indent literals pos text = moveAfter base indent literals pos text := by
  rw [moveFrom, if_pos held, moveAfter]

/-- Moving lines changes nothing but blanks within lines. -/
theorem sameCode_moveAfter (blankBase : base.all isBlank = true) (blankIndent : indent.all isBlank = true)
    (plain : newline ∉ indent) (pos : Nat) (text : Bytes) :
    SameCode (moveAfter base indent literals pos text) text := by
  obtain ⟨first, others⟩ := newline_not_mem_splitLines text
  have whole := joinLines_splitLines text
  constructor
  · rw [moveAfter, solid_joinLines_shiftLines blankBase blankIndent, whole]
  · conv_rhs => rw [← whole]
    rw [moveAfter, count_newline_joinLines first (newline_not_mem_shiftLines plain others _),
      count_newline_joinLines first others, length_shiftLines]

/-- A line that moves keeps what stands on it from a byte on that is no blank. -/
theorem suffix_shiftLine (blankBase : base.all isBlank = true) (blankIndent : indent.all isBlank = true)
    {b : UInt8} (solid : isBlank b = false) (front rest : Bytes) :
    (b :: rest) <:+ shiftLine base indent (front ++ b :: rest) := by
  have more : List.all (front ++ b :: rest) isBlank = false := by simp [solid]
  obtain ⟨margin, -, -, moved⟩ := shiftLine_eq_append blankBase blankIndent more
  rw [moved]
  refine List.IsSuffix.trans ?_ (List.suffix_append _ _)
  rw [List.dropWhile_append]
  split
  · have stop : (b :: rest).dropWhile isBlank = b :: rest :=
      List.dropWhile_cons_of_neg (by simp [solid])
    exact ⟨[], stop.symm⟩
  · exact List.suffix_append _ _

/-- Text that begins with a line can be cut on that line, before a byte that is no blank. -/
theorem suffix_moveFrom (blankBase : base.all isBlank = true) (blankIndent : indent.all isBlank = true)
    {b : UInt8} (solid : isBlank b = false) {front : Bytes} (plain : newline ∉ front) (pos : Nat)
    (rest : Bytes) :
    moveAfter base indent literals (pos + front.length) (b :: rest) <:+
      moveFrom base indent literals pos (front ++ b :: rest) := by
  cases held : literals.any (·.holdsInside pos) with
  | true =>
    rw [moveFrom_of_held held, moveAfter_append_of_not_mem base indent literals plain]
    exact List.suffix_append _ _
  | false =>
    have differ : b ≠ newline := by
      rintro rfl
      cases solid
    have lines : splitLines (b :: rest) = (b :: rest.splitLines.1, rest.splitLines.2) := by
      simp [splitLines, differ]
    obtain ⟨margin, moved⟩ := suffix_shiftLine blankBase blankIndent solid front rest.splitLines.1
    refine ⟨margin, ?_⟩
    rw [moveFrom, held, splitLines_append_of_not_mem plain, lines, moveAfter, lines]
    simp only [Bool.false_eq_true, if_false]
    rw [← moved, joinLines, joinLines, List.append_assoc, List.length_append, ← Nat.add_assoc pos]

/-- Text can be cut before a byte that is no blank: what becomes of the rest does not depend on what
stands before. -/
theorem suffix_moveAfter (blankBase : base.all isBlank = true) (blankIndent : indent.all isBlank = true)
    {b : UInt8} (solid : isBlank b = false) (pos : Nat) (front rest : Bytes) :
    moveAfter base indent literals (pos + front.length) (b :: rest) <:+
      moveAfter base indent literals pos (front ++ b :: rest) := by
  by_cases first : newline ∈ front
  · -- The last line feed before the cut begins the line that the cut is on.
    obtain ⟨front', earlier, split, plain⟩ := List.eq_append_cons_of_mem (List.mem_reverse.2 first)
    have split : front = earlier.reverse ++ newline :: front'.reverse := by
      rw [← List.reverse_reverse front, split]
      simp
    have plain : newline ∉ front'.reverse := fun member => plain (List.mem_reverse.1 member)
    have next := suffix_moveFrom literals blankBase blankIndent solid plain
      (pos + earlier.reverse.length + 1) rest
    have start : pos + earlier.reverse.length + 1 + front'.reverse.length = pos + front.length := by
      rw [split, List.length_append, List.length_cons]
      omega
    rw [start] at next
    rw [split, List.append_assoc, List.cons_append, moveAfter_append_newline, ← split]
    exact next.trans ((List.suffix_cons _ _).trans (List.suffix_append _ _))
  · rw [moveAfter_append_of_not_mem base indent literals first]
    exact List.suffix_append _ _

/-- A stretch of text in which every line would start inside a literal stays as it is. -/
theorem prefix_moveAfter {literals : List Span} {pos : Nat} {part : Bytes}
    (held : ∀ i, i + 1 < part.length → literals.any (·.holdsInside (pos + i + 1)) = true)
    (text : Bytes) :
    part <+: moveAfter base indent literals pos (part ++ text) := by
  induction part generalizing pos with
  | nil => exact List.nil_prefix
  | cons b part ih =>
    have below : part <+: moveAfter base indent literals (pos + 1) (part ++ text) := by
      refine ih fun i inside => ?_
      have shifted := held (i + 1) (by rw [List.length_cons]; omega)
      rwa [← Nat.add_assoc, Nat.add_right_comm pos] at shifted
    rw [List.cons_append, moveAfter_cons]
    refine List.cons_prefix_cons.2 ⟨rfl, ?_⟩
    split
    · -- The next line starts in the stretch, unless the stretch ends with this line feed.
      cases part with
      | nil => exact List.nil_prefix
      | cons c part =>
        rw [moveFrom_of_held (held 0 (by simp))]
        exact below
    · exact below

/-- The text of a span can be cut before a byte that is no blank. -/
theorem exists_reindent_eq {source : Bytes} (span : Span) {pos : Nat}
    (blankBase : base.all isBlank = true) (blankIndent : indent.all isBlank = true)
    (plain : newline ∉ indent) (lower : span.start ≤ pos) (upper : pos < span.stop)
    (solid : source.solidAt pos = true) :
    ∃ before, SameCode before (source.slice span.start pos) ∧
      source.reindent span base indent literals =
        before ++ moveAfter base indent literals pos (source.slice pos span.stop) := by
  have split : source.at span = source.slice span.start pos ++ source.slice pos span.stop :=
    (source.slice_append lower (Nat.le_of_lt upper)).symm
  obtain ⟨b, found, solid⟩ := (Option.any_eq_true _ _).1 solid
  have begins := slice_eq_cons found upper
  have width : span.start + (source.slice span.start pos).length = pos := by
    have inside := (List.getElem?_eq_some_iff.1 found).1
    rw [slice, List.length_drop, List.length_take]
    omega
  have cut := suffix_moveAfter literals blankBase blankIndent (by simpa using solid) span.start
    (source.slice span.start pos) (source.slice (pos + 1) span.stop)
  rw [← begins, ← split, width] at cut
  obtain ⟨before, cut⟩ := cut
  have whole := sameCode_moveAfter literals blankBase blankIndent plain span.start (source.at span)
  rw [← cut, split] at whole
  exact ⟨before, whole.append_cancel_right (sameCode_moveAfter literals blankBase blankIndent plain _ _),
    cut.symm⟩

/-- A part of the text of a span stays as it is, with the same code before and after it as in the span,
on as many lines. -/
def Keeps (source : Bytes) (span part : Span) (text : Bytes) : Prop :=
  ∃ before after, text = before ++ source.at part ++ after ∧
    SameCode before (source.slice span.start part.start) ∧
    SameCode after (source.slice part.stop span.stop)

variable {literals} {source : Bytes} {span part : Span}

/-- A literal that begins with a byte that is no blank stays as it is when the lines move. -/
theorem reindent_keeps (blankBase : base.all isBlank = true) (blankIndent : indent.all isBlank = true)
    (plain : newline ∉ indent) (member : part ∈ literals) (lower : span.start ≤ part.start)
    (nonempty : part.start < part.stop) (upper : part.stop ≤ span.stop)
    (solid : source.solidAt part.start = true) :
    source.Keeps span part (source.reindent span base indent literals) := by
  have split : source.slice part.start span.stop =
      source.at part ++ source.slice part.stop span.stop :=
    (source.slice_append (Nat.le_of_lt nonempty) upper).symm
  obtain ⟨before, front, cut⟩ := exists_reindent_eq literals span blankBase blankIndent plain
    lower (Nat.lt_of_lt_of_le nonempty upper) solid
  have stays : source.at part <+: moveAfter base indent literals part.start
      (source.at part ++ source.slice part.stop span.stop) := by
    refine prefix_moveAfter (fun i inside => List.any_eq_true.2 ⟨part, member, ?_⟩) _
    have reach : (source.at part).length ≤ part.stop - part.start := source.length_slice_le _ _
    simp only [Span.holdsInside, Bool.and_eq_true, decide_eq_true_eq]
    omega
  obtain ⟨after, kept⟩ := stays
  have tail := sameCode_moveAfter literals blankBase blankIndent plain part.start
    (source.slice part.start span.stop)
  rw [split, ← kept] at tail
  refine ⟨before, after, ?_, front, tail.append_cancel_left⟩
  rw [cut, split, ← kept, List.append_assoc]

/-- A part on one line with which the span ends stays as it is. -/
theorem reindent_keeps_end {start : Nat} (blankBase : base.all isBlank = true)
    (blankIndent : indent.all isBlank = true) (plain : newline ∉ indent) (lower : start ≤ part.start)
    (nonempty : part.start < part.stop) (solid : source.solidAt part.start = true)
    (line : newline ∉ source.at part) :
    ∃ before, SameCode before (source.slice start part.start) ∧
      source.reindent ⟨start, part.stop⟩ base indent literals = before ++ source.at part := by
  obtain ⟨before, front, cut⟩ := exists_reindent_eq literals ⟨start, part.stop⟩ blankBase blankIndent
    plain lower nonempty solid
  have stays : moveAfter base indent literals part.start (source.at part) = source.at part := by
    rw [moveAfter, splitLines_of_not_mem line]
    exact List.append_nil _
  exact ⟨before, front, cut.trans (congrArg (before ++ ·) stays)⟩

end

end NullGuard.Bytes
