import Mathlib.Data.List.Nodup
import NullGuard.Proofs.Splice

/-!
Which edits are made. The selection looks at the edits in the order in which they start, the longer of
two that start together first, and compares each one with the last one kept only. That is enough: the
edits kept follow one another, and one that is left out starts where a kept one is at work, so nothing is
left out without need. Where no two edits have the same span, the order in which they were planned plays
no part.
-/
namespace NullGuard.Edit

/-! The order of edits. -/

theorem precedes_iff {a b : Edit} :
    a.precedes b = true ↔ a.span.start < b.span.start ∨
      a.span.start = b.span.start ∧ b.span.stop ≤ a.span.stop := by
  simp [precedes]

theorem precedes_trans (a b c : Edit) (first : a.precedes b = true) (second : b.precedes c = true) :
    a.precedes c = true := by
  rw [precedes_iff] at *
  omega

theorem precedes_total (a b : Edit) : (a.precedes b || b.precedes a) = true := by
  rw [Bool.or_eq_true, precedes_iff, precedes_iff]
  omega

theorem start_le_of_precedes {a b : Edit} (first : a.precedes b = true) :
    a.span.start ≤ b.span.start := by
  rw [precedes_iff] at first
  omega

/-- Only edits of the same span precede one another. -/
theorem span_eq_of_precedes {a b : Edit} (first : a.precedes b = true) (second : b.precedes a = true) :
    a.span = b.span := by
  rw [precedes_iff] at first second
  have start : a.span.start = b.span.start := by omega
  have stop : a.span.stop = b.span.stop := by omega
  calc a.span = ⟨a.span.start, a.span.stop⟩ := rfl
    _ = ⟨b.span.start, b.span.stop⟩ := by rw [start, stop]

theorem pairwise_precedes_sorted (edits : List Edit) :
    (edits.mergeSort precedes).Pairwise fun a b => a.precedes b = true :=
  List.pairwise_mergeSort precedes_trans precedes_total edits

/-! One run of the selection over sorted edits. -/

/-- The first edit is at work where the second one starts. -/
def Blocks (edit other : Edit) : Prop :=
  edit.span.start ≤ other.span.start ∧ other.span.start < edit.span.stop

/-- The first edit has ended where the second one starts. -/
def Before (edit other : Edit) : Prop := edit.span.stop ≤ other.span.start

/-- The edits kept follow the last one and one another. -/
theorem pairwise_before_keepFrom {edits : List Edit}
    (proper : ∀ edit ∈ edits, edit.span.start ≤ edit.span.stop) (last : Option Edit) :
    (∀ before ∈ last, ∀ edit ∈ keepFrom last edits, before.Before edit) ∧
      (keepFrom last edits).Pairwise Before := by
  induction edits generalizing last with
  | nil => exact ⟨fun _ _ _ member => (List.not_mem_nil member).elim, .nil⟩
  | cons edit rest ih =>
    have below := ih fun other member => proper other (List.mem_cons_of_mem edit member)
    have le := proper edit List.mem_cons_self
    rw [keepFrom]
    split
    · exact below last
    next free =>
      obtain ⟨later, apart⟩ := below (some edit)
      refine ⟨fun before held other member => ?_, .cons (later edit rfl) apart⟩
      cases held
      have reached : before.span.stop ≤ edit.span.start := by simpa using free
      rcases List.mem_cons.1 member with rfl | member
      · exact reached
      · exact Nat.le_trans reached (Nat.le_trans le (later edit rfl other member))

/-- Each edit of a sorted list is kept, or the last one or one that is kept is at work where it starts. -/
theorem exists_dropped {edits : List Edit} (sorted : edits.Pairwise fun a b => a.precedes b = true)
    (last : Option Edit) (after : ∀ before ∈ last, ∀ edit ∈ edits, before.span.start ≤ edit.span.start) :
    ∃ dropped, edits.Perm (keepFrom last edits ++ dropped) ∧
      ∀ edit ∈ dropped, ∃ other, (other ∈ last ∨ other ∈ keepFrom last edits) ∧ other.Blocks edit := by
  induction edits generalizing last with
  | nil => exact ⟨[], .nil, fun _ member => (List.not_mem_nil member).elim⟩
  | cons edit rest ih =>
    obtain ⟨first, sorted⟩ := List.pairwise_cons.1 sorted
    rw [keepFrom]
    split
    next early =>
      obtain ⟨before, held, early⟩ := (Option.any_eq_true _ _).1 early
      obtain ⟨dropped, all, blocked⟩ := ih sorted last fun other held other' member =>
        after other held other' (List.mem_cons_of_mem edit member)
      refine ⟨edit :: dropped, (all.cons edit).trans List.perm_middle.symm, ?_⟩
      have start := after before held edit List.mem_cons_self
      exact List.forall_mem_cons.2 ⟨⟨before, .inl held, start, of_decide_eq_true early⟩, blocked⟩
    next free =>
      obtain ⟨dropped, all, blocked⟩ := ih sorted (some edit) fun before held other member => by
        cases held
        exact start_le_of_precedes (first other member)
      refine ⟨dropped, all.cons edit, fun other member => ?_⟩
      obtain ⟨kept, held | among, blocks⟩ := blocked other member
      · cases held
        exact ⟨edit, .inr List.mem_cons_self, blocks⟩
      · exact ⟨kept, .inr (List.mem_cons_of_mem edit among), blocks⟩

/-- Edits that follow one another are all kept. -/
theorem keepFrom_of_pairwise {edits : List Edit} (apart : edits.Pairwise Before) (last : Option Edit)
    (after : ∀ before ∈ last, ∀ edit ∈ edits, before.Before edit) : keepFrom last edits = edits := by
  induction edits generalizing last with
  | nil => rfl
  | cons edit rest ih =>
    obtain ⟨later, apart⟩ := List.pairwise_cons.1 apart
    have free : last.any (edit.span.start < ·.span.stop) = false := by
      rw [Option.any_eq_false]
      intro before held
      simpa [Before] using after before held edit List.mem_cons_self
    rw [keepFrom, free, ih apart (some edit) fun before held other member => by
      cases held
      exact later other member]
    rfl

/-! The selection as a whole. -/

theorem pairwise_before_select {edits : List Edit}
    (proper : ∀ edit ∈ edits, edit.span.start ≤ edit.span.stop) : (select edits).Pairwise Before :=
  (pairwise_before_keepFrom (fun edit member => proper edit (List.mem_mergeSort.1 member)) none).2

/-- What is selected is sorted and apart, so the selection has nothing to do on it. -/
theorem select_select {edits : List Edit}
    (proper : ∀ edit ∈ edits, edit.span.start ≤ edit.span.stop) :
    select (select edits) = select edits := by
  have sorted : (select edits).Pairwise fun a b => a.precedes b = true :=
    (pairwise_precedes_sorted edits).sublist (keepFrom_sublist none _)
  rw [select_of_pairwise sorted]
  exact keepFrom_of_pairwise (pairwise_before_select proper) none nofun

/-- Edits of different spans have one sorted order only. -/
theorem select_eq_of_perm {edits other : List Edit} (distinct : (edits.map (·.span)).Nodup)
    (same : other.Perm edits) : select other = select edits := by
  have sorted : other.mergeSort precedes = edits.mergeSort precedes := by
    refine List.Perm.eq_of_pairwise (fun a b first second le ge => ?_) (pairwise_precedes_sorted other)
      (pairwise_precedes_sorted edits) ?_
    · have member : a ∈ edits := same.mem_iff.1 (List.mem_mergeSort.1 first)
      have member' : b ∈ edits := List.mem_mergeSort.1 second
      exact List.inj_on_of_nodup_map distinct member member' (span_eq_of_precedes le ge)
    · exact (List.mergeSort_perm other precedes).trans
        (same.trans (List.mergeSort_perm edits precedes).symm)
  rw [select, sorted, select]

/-- Of edits that do not end before they start, the selection keeps some, in source order and each from
the end of the one before it on, and leaves out only edits that start where a kept one is at work. It
changes nothing when it is made again, and it does not depend on the order of the edits where their
spans differ. Within a source, making the edits is copying the source from left to right with the
replacements of the selected ones between the gaps. -/
theorem select_spliced (edits : List Edit)
    (proper : ∀ edit ∈ edits, edit.span.start ≤ edit.span.stop) :
    (∃ dropped, edits.Perm (select edits ++ dropped) ∧
        ∀ edit ∈ dropped, ∃ kept ∈ select edits, kept.Blocks edit) ∧
      ((select edits).Pairwise fun a b => a.span.start ≤ b.span.start ∧ a.Before b) ∧
      select (select edits) = select edits ∧
      ((edits.map (·.span)).Nodup → ∀ other, other.Perm edits → select other = select edits) ∧
      ∀ source : Bytes, (∀ edit ∈ edits, edit.span.stop ≤ source.length) →
        applyAll edits source = splice source 0 (select edits) := by
  refine ⟨?_, ?_, select_select proper, fun distinct other => select_eq_of_perm distinct, ?_⟩
  · obtain ⟨dropped, all, blocked⟩ := exists_dropped (pairwise_precedes_sorted edits) none nofun
    refine ⟨dropped, (List.mergeSort_perm edits precedes).symm.trans all, fun edit member => ?_⟩
    obtain ⟨kept, held | among, blocks⟩ := blocked edit member
    · cases held
    · exact ⟨kept, among, blocks⟩
  · refine (pairwise_before_select proper).imp_of_mem fun {a b} first _ before => ?_
    exact ⟨Nat.le_trans (proper a (mem_select first)) before, before⟩
  · intro source inside
    exact applyAll_eq_splice fun edit member => ⟨proper edit member, inside edit member⟩

/-- An edit with another one inside it, an edit and an insertion that both start at its end, and one that
starts where these two end. -/
def crowded : List Edit :=
  [⟨⟨6, 8⟩, [0x78]⟩, ⟨⟨5, 5⟩, [0x79]⟩, ⟨⟨2, 4⟩, []⟩, ⟨⟨1, 5⟩, [0x7a]⟩, ⟨⟨5, 6⟩, [0x77]⟩]

/-- Ten digits. -/
def digits : Bytes := "0123456789".toList.map Char.toUInt8

/-- Edits that touch are all made; the one inside goes, and so does the insertion, which starts where a
longer edit does. -/
theorem select_spliced_crowded :
    (∀ edit ∈ crowded, edit.span.start ≤ edit.span.stop) ∧ (crowded.map (·.span)).Nodup ∧
      (∀ edit ∈ crowded, edit.span.stop ≤ digits.length) ∧
      select crowded = [⟨⟨1, 5⟩, [0x7a]⟩, ⟨⟨5, 6⟩, [0x77]⟩, ⟨⟨6, 8⟩, [0x78]⟩] ∧
      applyAll crowded digits = "0zwx89".toList.map Char.toUInt8 := by
  have proper : ∀ edit ∈ crowded, edit.span.start ≤ edit.span.stop := by decide
  have distinct : (crowded.map (·.span)).Nodup := by decide
  have inside : ∀ edit ∈ crowded, edit.span.stop ≤ digits.length := by decide
  obtain ⟨-, -, -, unordered, spliced⟩ := select_spliced crowded proper
  have sorted : select [⟨⟨1, 5⟩, [0x7a]⟩, ⟨⟨2, 4⟩, []⟩, ⟨⟨5, 6⟩, [0x77]⟩, ⟨⟨5, 5⟩, [0x79]⟩,
      ⟨⟨6, 8⟩, [0x78]⟩] = [⟨⟨1, 5⟩, [0x7a]⟩, ⟨⟨5, 6⟩, [0x77]⟩, ⟨⟨6, 8⟩, [0x78]⟩] := by
    rw [select, List.mergeSort_of_pairwise (by decide)]
    decide
  have selected := (unordered distinct _ (by decide)).symm.trans sorted
  refine ⟨proper, distinct, inside, selected, ?_⟩
  rw [spliced digits inside, selected]
  decide

end NullGuard.Edit
