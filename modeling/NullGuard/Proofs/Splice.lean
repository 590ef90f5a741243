import NullGuard.Proofs.Blanks
import NullGuard.Source.Edit

/-!
Edits as one splice. The selected edits of a source are made the last one first. As each one starts
where the one before it has ended or later, that is the same as copying the source from left to right
with the replacements put between the gaps. Edits that cover others up to blanks, and put in the same
code, leave the same code.
-/
namespace NullGuard.Edit

/-- The source from a position on, with the spans of the edits replaced. -/
def splice (source : Bytes) : Nat → List Edit → Bytes
  | pos, [] => source.drop pos
  | pos, edit :: rest =>
    source.slice pos edit.span.start ++ edit.replacement ++ splice source edit.span.stop rest

/-- Edits of a source, one after the other from a position on. -/
def Chained (source : Bytes) : Nat → List Edit → Prop
  | _, [] => True
  | pos, edit :: rest =>
    pos ≤ edit.span.start ∧ edit.span.start ≤ edit.span.stop ∧ edit.span.stop ≤ source.length ∧
      Chained source edit.span.stop rest

theorem apply_take_append {source rest : Bytes} {edit : Edit}
    (proper : edit.span.start ≤ edit.span.stop) (inside : edit.span.stop ≤ source.length) :
    edit.apply (source.take edit.span.stop ++ rest) =
      source.take edit.span.start ++ edit.replacement ++ rest := by
  have length : (source.take edit.span.stop).length = edit.span.stop :=
    List.length_take_of_le inside
  have head : (source.take edit.span.stop ++ rest).take edit.span.start =
      source.take edit.span.start := by
    rw [List.take_append_of_le_length (by omega), List.take_take, Nat.min_eq_left proper]
  have tail : (source.take edit.span.stop ++ rest).drop edit.span.stop = rest :=
    List.drop_left' length
  rw [apply, head, tail]

/-- Making chained edits the last one first is splicing them in from left to right. -/
theorem foldr_apply_eq_splice {source : Bytes} {pos : Nat} {edits : List Edit}
    (chained : Chained source pos edits) :
    edits.foldr apply source = source.take pos ++ splice source pos edits := by
  induction edits generalizing pos with
  | nil => exact (List.take_append_drop pos source).symm
  | cons edit rest ih =>
    obtain ⟨reached, proper, inside, chained⟩ := chained
    have gap : source.take edit.span.start =
        source.take pos ++ source.slice pos edit.span.start :=
      (source.slice_append (Nat.zero_le pos) reached).symm
    rw [List.foldr_cons, ih chained, apply_take_append proper inside, gap, splice]
    simp only [List.append_assoc]

theorem keepFrom_sublist (last : Option Edit) (edits : List Edit) :
    (keepFrom last edits).Sublist edits := by
  induction edits generalizing last with
  | nil => exact .slnil
  | cons edit rest ih =>
    rw [keepFrom]
    split
    · exact (ih last).cons edit
    · exact (ih (some edit)).cons_cons edit

theorem mem_select {edits : List Edit} {edit : Edit} (member : edit ∈ select edits) :
    edit ∈ edits :=
  List.mem_mergeSort.1 ((keepFrom_sublist none _).mem member)

/-- What is kept starts at the end of the last edit or later. -/
theorem chained_keepFrom {source : Bytes} {edits : List Edit}
    (proper : ∀ edit ∈ edits, edit.span.start ≤ edit.span.stop ∧ edit.span.stop ≤ source.length)
    (last : Option Edit) :
    Chained source ((last.map (·.span.stop)).getD 0) (keepFrom last edits) := by
  induction edits generalizing last with
  | nil => trivial
  | cons edit rest ih =>
    have below := ih fun other member => proper other (List.mem_cons_of_mem edit member)
    obtain ⟨le, inside⟩ := proper edit List.mem_cons_self
    rw [keepFrom]
    split
    · exact below last
    next free =>
      refine ⟨?_, le, inside, below (some edit)⟩
      cases last with
      | none => exact Nat.zero_le _
      | some before => simpa using free

theorem chained_select {source : Bytes} {edits : List Edit}
    (proper : ∀ edit ∈ edits, edit.span.start ≤ edit.span.stop ∧ edit.span.stop ≤ source.length) :
    Chained source 0 (select edits) :=
  chained_keepFrom (fun edit member => proper edit (List.mem_mergeSort.1 member)) none

theorem applyAll_eq_splice {source : Bytes} {edits : List Edit}
    (proper : ∀ edit ∈ edits, edit.span.start ≤ edit.span.stop ∧ edit.span.stop ≤ source.length) :
    applyAll edits source = splice source 0 (select edits) :=
  foldr_apply_eq_splice (chained_select proper)

/-- The first edit covers the second one up to blanks and puts in the same code. -/
def Absorbs (source : Bytes) (edit plain : Edit) : Prop :=
  edit.Covers source plain.span ∧ edit.replacement.solid = plain.replacement.solid

/-- The edits that chained edits absorb are chained too. -/
theorem chained_of_absorbs {α : Type} {source : Bytes} (wide plain : α → Edit) {kept : List α}
    (absorbs : ∀ r ∈ kept, Absorbs source (wide r) (plain r)) {start pos : Nat} (le : start ≤ pos)
    (chained : Chained source pos (kept.map wide)) : Chained source start (kept.map plain) := by
  induction kept generalizing start pos with
  | nil => trivial
  | cons r rest ih =>
    obtain ⟨covers, -⟩ := absorbs r List.mem_cons_self
    obtain ⟨reached, -, -, chained⟩ := chained
    refine ⟨Nat.le_trans le (Nat.le_trans reached covers.start_le), covers.proper,
      Nat.le_trans covers.le_stop covers.inside, ?_⟩
    exact ih (fun other member => absorbs other (List.mem_cons_of_mem r member)) covers.le_stop
      chained

/-- Chained edits leave the same code as the edits that they absorb, wherever between the ends of two
of them the copying starts. -/
theorem solid_splice {α : Type} {source : Bytes} (wide plain : α → Edit) {kept : List α}
    (absorbs : ∀ r ∈ kept, Absorbs source (wide r) (plain r)) {start pos : Nat} (le : start ≤ pos)
    (blank : (source.slice start pos).all Bytes.isBlank = true)
    (chained : Chained source pos (kept.map wide)) :
    (splice source pos (kept.map wide)).solid = (splice source start (kept.map plain)).solid := by
  induction kept generalizing start pos with
  | nil => exact Bytes.solid_drop_of_slice le blank
  | cons r rest ih =>
    obtain ⟨covers, same⟩ := absorbs r List.mem_cons_self
    obtain ⟨reached, -, -, chained⟩ := chained
    have below := ih (fun other member => absorbs other (List.mem_cons_of_mem r member))
      covers.le_stop covers.after chained
    -- The gap before the plain edit: the gap before the wide one, between blanks on both sides.
    have gap : source.slice start (plain r).span.start = source.slice start pos ++
        (source.slice pos (wide r).span.start ++
          source.slice (wide r).span.start (plain r).span.start) := by
      rw [source.slice_append reached covers.start_le,
        source.slice_append le (Nat.le_trans reached covers.start_le)]
    simp only [List.map_cons, splice, Bytes.solid_append, below, same, gap,
      Bytes.solid_eq_nil blank, Bytes.solid_eq_nil covers.before, List.nil_append, List.append_nil]

end NullGuard.Edit
