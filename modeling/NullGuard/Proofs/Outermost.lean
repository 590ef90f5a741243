import Mathlib.Algebra.Ring.Nat
import Mathlib.Data.List.Nodup
import NullGuard.Proofs.Convergence
import NullGuard.Proofs.Preorder
import NullGuard.Proofs.Spacing

/-!
A pass repairs the outermost statements. Of the statements that are reported, those inside another
reported one are left to a later pass; no other repair is lost, however the statements share their
lines. So the selection among the planned edits, which knows nothing of the tree, keeps the edits of
exactly the statements that are not inside another one, and the count of a run is the number of these,
added up over its passes.
-/
namespace NullGuard

namespace Edit

variable {α : Type} {edit : α → Edit} {inside : α → α → Prop}

/-- Of two things with an edit each, the second is inside the first, and its edit starts before the
other one ends, or it is outside, and its edit starts after; the first is never inside the second. -/
def Ordered (edit : α → Edit) (inside : α → α → Prop) (a b : α) : Prop :=
  ¬ inside a b ∧
    (inside b a ∧ (edit b).span.start < (edit a).span.stop ∨
      ¬ inside b a ∧ (edit a).span.stop ≤ (edit b).span.start)

/-- From the last edit kept on, what is not inside something is kept. -/
theorem keepFrom_eq_filter [∀ a b, Decidable (inside a b)]
    (trans : ∀ a b c, inside a b → inside b c → inside a c) {l : List α}
    (ordered : l.Pairwise (Ordered edit inside))
    (proper : ∀ a ∈ l, (edit a).span.start ≤ (edit a).span.stop) (irrefl : ∀ a ∈ l, ¬ inside a a)
    (last : Option α) (after : ∀ a ∈ last, ∀ b ∈ l, Ordered edit inside a b) :
    keepFrom (last.map edit) (l.map edit) =
      (l.filter fun b => (∀ a ∈ last, ¬ inside b a) ∧ ∀ a ∈ l, ¬ inside b a).map edit := by
  induction l generalizing last with
  | nil => rfl
  | cons r rest ih =>
    obtain ⟨first, ordered⟩ := List.pairwise_cons.1 ordered
    have below := ih ordered (fun a member => proper a (List.mem_cons_of_mem r member))
      (fun a member => irrefl a (List.mem_cons_of_mem r member))
    rw [List.map_cons, keepFrom]
    by_cases inner : ∃ a ∈ last, inside r a
    · obtain ⟨a, held, inner⟩ := inner
      cases held
      have early : (edit r).span.start < (edit a).span.stop := by
        rcases (after a rfl r List.mem_cons_self).2 with ⟨-, early⟩ | ⟨outer, -⟩
        · exact early
        · exact absurd inner outer
      rw [if_pos (by simpa using early), below (some a) fun b held c member =>
        after b held c (List.mem_cons_of_mem r member), List.filter_cons_of_neg (by simp [inner])]
      -- What is inside `r` is inside `a`, as `r` is, so the test against `r` changes nothing.
      refine congrArg (List.map edit) (List.filter_congr fun c member => ?_)
      refine decide_eq_decide.2 (and_congr_right fun outer => ?_)
      have outer' : ¬ inside c r := fun h => outer a rfl (trans c r a h inner)
      simp [outer']
    · have late : ∀ a ∈ last, (edit a).span.stop ≤ (edit r).span.start := by
        intro a held
        rcases (after a held r List.mem_cons_self).2 with ⟨inside, -⟩ | ⟨-, late⟩
        · exact absurd ⟨a, held, inside⟩ inner
        · exact late
      have kept : (last.map edit).any ((edit r).span.start < ·.span.stop) = false := by
        cases last with
        | none => rfl
        | some a => simpa using late a rfl
      have next := below (some r) fun a held c member => by
        cases held
        exact first c member
      have outermost : (∀ a ∈ last, ¬ inside r a) ∧ ∀ a ∈ r :: rest, ¬ inside r a := by
        refine ⟨fun a held h => inner ⟨a, held, h⟩, List.forall_mem_cons.2 ⟨?_, ?_⟩⟩
        · exact irrefl r List.mem_cons_self
        · exact fun c member => (first c member).1
      rw [kept, List.filter_cons_of_pos (by simpa using outermost)]
      refine congrArg (edit r :: ·) (next.trans ?_)
      refine congrArg (List.map edit) (List.filter_congr fun c member => decide_eq_decide.2 ?_)
      -- What is outside of `r` starts after it, and so after the last one kept.
      have outside : ¬ inside c r → ∀ a ∈ last, ¬ inside c a := by
        intro outer a held h
        rcases (after a held c (List.mem_cons_of_mem r member)).2 with ⟨-, early⟩ | ⟨outer', -⟩
        · rcases (first c member).2 with ⟨h', -⟩ | ⟨-, later⟩
          · exact outer h'
          · have := late a held
            have := proper r List.mem_cons_self
            omega
        · exact outer' h
      simp only [Option.mem_some_iff, forall_eq', List.forall_mem_cons]
      constructor
      · rintro ⟨outer, others⟩
        exact ⟨outside outer, outer, others⟩
      · rintro ⟨-, outer, others⟩
        exact ⟨outer, others⟩

/-- Where edits come in order, the selection keeps those of what is not inside something else. -/
theorem select_eq_filter [∀ a b, Decidable (inside a b)]
    (trans : ∀ a b c, inside a b → inside b c → inside a c) {l : List α}
    (ordered : l.Pairwise (Ordered edit inside))
    (sorted : l.Pairwise fun a b => (edit a).span.start < (edit b).span.start)
    (proper : ∀ a ∈ l, (edit a).span.start ≤ (edit a).span.stop)
    (irrefl : ∀ a ∈ l, ¬ inside a a) :
    select (l.map edit) = (l.filter fun b => ∀ a ∈ l, ¬ inside b a).map edit := by
  have presorted : (l.map edit).Pairwise fun a b => precedes a b :=
    List.pairwise_map.2 (sorted.imp fun lt => by simp [precedes, lt])
  rw [select_of_pairwise presorted]
  simpa using keepFrom_eq_filter trans ordered proper irrefl none

end Edit

/-- What a parser promises of the tree of a source: it is well nested, its `if` statements begin and end
with bytes that are no blanks, and one inside another starts after the first byte of that one. -/
structure SyntaxTree.Spaced (tree : SyntaxTree) (source : Bytes) : Prop where
  nested : tree.root.WellNested
  tight : ∀ p ∈ tree.root.places, p.node.kind = .ifStatement → source.Tight p.node.span
  later : ∀ p ∈ tree.root.places, p.node.kind = .ifStatement →
    ∀ q ∈ p.below, q.node.kind = .ifStatement → p.node.span.start < q.node.span.start

/-- The edit of a statement goes beyond it at most to whole lines. -/
theorem Place.repair_widens {p : Place} {source : Bytes} (tight : source.Tight p.node.span)
    (value : Bool) : (p.repair source value).Widens source p.node.span := by
  obtain ⟨nonempty, -, last⟩ := tight
  have inside := Bytes.lt_length_of_solidAt last
  have proper : p.node.span.start ≤ p.node.span.stop := by omega
  have within : p.node.span.stop ≤ source.length := by omega
  unfold repair
  cases p.kept? value with
  | some taken => exact Edit.widens_self proper within _
  | none =>
    cases p.inSequence with
    | true => exact Edit.removal_widens proper within
    | false => exact Edit.widens_self proper within _

def Repair.target (r : Repair) : Target := ⟨r.place.node.span, some r.value⟩

/-- The first statement is inside the second. -/
def Repair.Inside (r other : Repair) : Prop := r.place ∈ other.place.below

instance (r other : Repair) : Decidable (r.Inside other) :=
  inferInstanceAs (Decidable (_ ∈ _))

namespace CompilationUnit

/-- The statement at a place, if it is reported, with the value of its condition. -/
def flagAt? (u : CompilationUnit) (limit : Int) (p : Place) : Option Repair :=
  (u.findingAt? limit p).map fun f => ⟨p, f.value⟩

/-- The `if` statements that are reported. -/
def flagged (u : CompilationUnit) (limit : Int) : List Repair := u.places.filterMap (u.flagAt? limit)

/-- The reported statements that are not inside another reported one. -/
def outermost (u : CompilationUnit) (limit : Int) : List Repair :=
  (u.flagged limit).filter fun r => ∀ other ∈ u.flagged limit, ¬ r.Inside other

variable {u : CompilationUnit} {limit : Int}

/-- There is one finding for each flagged statement, in the same order. -/
theorem map_target_findings (u : CompilationUnit) (limit : Int) :
    (u.findings limit).map Finding.target = (u.flagged limit).map Repair.target := by
  rw [findings_eq_filterMap, flagged, List.map_filterMap, List.map_filterMap]
  refine List.filterMap_congr fun p _ => ?_
  unfold flagAt?
  cases found : u.findingAt? limit p with
  | none => rfl
  | some f => simp [Finding.target, Repair.target, (findingAt?_eq_some found).2]

theorem flagAt?_eq_some {p : Place} {r : Repair} (flagged : u.flagAt? limit p = some r) :
    r.place = p ∧ p.node.kind = .ifStatement := by
  obtain ⟨f, found, rfl⟩ := Option.map_eq_some_iff.1 flagged
  exact ⟨rfl, (findingAt?_eq_some found).1⟩

theorem place_of_mem_flagged {r : Repair} (member : r ∈ u.flagged limit) :
    r.place ∈ u.places ∧ r.place.node.kind = .ifStatement := by
  obtain ⟨p, met, found⟩ := List.mem_filterMap.1 member
  obtain ⟨rfl, isIf⟩ := flagAt?_eq_some found
  exact ⟨met, isIf⟩

theorem pairwise_places (nested : u.tree.root.WellNested) :
    u.places.Pairwise fun p q => q ∈ p.below ∨ p.node.span.stop ≤ q.node.span.start := by
  have whole : Node.InOrder u.tree.root.span.start u.tree.root.span.stop
      (([⟨u.tree.root, []⟩] : List Place).map (·.node)) :=
    ⟨Nat.le_refl _, Nat.le_refl _, nested, trivial⟩
  exact Place.pairwise_walk whole

/-- A place that is inside another one does not go beyond it. -/
theorem within_of_mem_below (nested : u.tree.root.WellNested) {p q : Place} (met : p ∈ u.places)
    (inner : q ∈ p.below) :
    p.node.span.start ≤ q.node.span.start ∧ q.node.span.stop ≤ p.node.span.stop := by
  obtain ⟨-, -, nested⟩ := (mem_places_iff.1 met).within nested
  obtain ⟨lower, upper, -⟩ := (Place.reaches_of_mem_below inner).within nested
  exact ⟨lower, upper⟩

end CompilationUnit

namespace SyntaxTree.Spaced

variable {u : CompilationUnit} {limit : Int} {r s : Repair}

/-- Of two statements, the one that is met later is inside the other one or starts after it, and the
edits are ordered as the statements are. -/
theorem ordered (spaced : u.tree.Spaced u.source)
    (first : r.place ∈ u.places) (second : s.place ∈ u.places)
    (isIf : r.place.node.kind = .ifStatement) (isIf' : s.place.node.kind = .ifStatement)
    (order : s.place ∈ r.place.below ∨ r.place.node.span.stop ≤ s.place.node.span.start) :
    Edit.Ordered (·.edit u.source) Repair.Inside r s ∧
      (r.edit u.source).span.start < (s.edit u.source).span.start := by
  have tight := spaced.tight r.place first isIf
  have tight' := spaced.tight s.place second isIf'
  have wide : (r.edit u.source).Widens u.source r.place.node.span := Place.repair_widens tight _
  have wide' : (s.edit u.source).Widens u.source s.place.node.span := Place.repair_widens tight' _
  have nonempty := tight.1
  have nonempty' := tight'.1
  have backward : r.Inside s → s.place.node.span.start < r.place.node.span.start := fun inner =>
    spaced.later s.place second isIf' r.place inner isIf
  rcases order with inner | apart
  · have later := spaced.later r.place first isIf s.place inner isIf'
    obtain ⟨-, upper⟩ := CompilationUnit.within_of_mem_below spaced.nested first inner
    obtain ⟨start, stop⟩ := wide.nested wide' tight later (by omega)
    exact ⟨⟨fun outer => by have := backward outer; omega, .inl ⟨inner, stop⟩⟩, start⟩
  · have disjoint := wide.disjoint wide' tight tight' apart
    have outside : ¬ s.Inside r := by
      intro inner
      obtain ⟨-, upper⟩ := CompilationUnit.within_of_mem_below spaced.nested first inner
      omega
    have lower := wide.covers.start_le
    have upper := wide.covers.le_stop
    exact ⟨⟨fun outer => by have := backward outer; omega, .inr ⟨outside, disjoint⟩⟩, by omega⟩

/-- The reported statements come in the order of their edits. -/
theorem pairwise_flagged (spaced : u.tree.Spaced u.source) (limit : Int) :
    (u.flagged limit).Pairwise fun r s =>
      Edit.Ordered (·.edit u.source) Repair.Inside r s ∧
        (r.edit u.source).span.start < (s.edit u.source).span.start := by
  have order := CompilationUnit.pairwise_places spaced.nested
  have flagged : (u.flagged limit).Pairwise fun r s =>
      s.place ∈ r.place.below ∨ r.place.node.span.stop ≤ s.place.node.span.start := by
    refine List.pairwise_filterMap.2 (order.imp fun order r found s found' => ?_)
    rw [(CompilationUnit.flagAt?_eq_some found).1, (CompilationUnit.flagAt?_eq_some found').1]
    exact order
  refine flagged.imp_of_mem fun {r s} first second order => ?_
  obtain ⟨met, isIf⟩ := CompilationUnit.place_of_mem_flagged first
  obtain ⟨met', isIf'⟩ := CompilationUnit.place_of_mem_flagged second
  exact spaced.ordered met met' isIf isIf' order

/-- No two statements have the same span. -/
theorem nodup_spans (spaced : u.tree.Spaced u.source) :
    ((u.places.filter (·.node.kind = .ifStatement)).map (·.node.span)).Nodup := by
  have order := (CompilationUnit.pairwise_places spaced.nested).filter (·.node.kind = .ifStatement)
  refine List.pairwise_map.2 (order.imp_of_mem fun {p q} first second order same => ?_)
  obtain ⟨met, isIf⟩ := List.mem_filter.1 first
  obtain ⟨-, isIf'⟩ := List.mem_filter.1 second
  have isIf := of_decide_eq_true isIf
  have isIf' := of_decide_eq_true isIf'
  rcases order with inner | apart
  · have later := spaced.later p met isIf q inner isIf'
    rw [same] at later
    exact Nat.lt_irrefl _ later
  · have nonempty := (spaced.tight p met isIf).1
    rw [same] at nonempty apart
    omega

/-- What is planned for a reported statement is the edit of that statement. -/
theorem plan?_target (spaced : u.tree.Spaced u.source) (member : r ∈ u.flagged limit) :
    u.plan? r.target = some (r.edit u.source) := by
  obtain ⟨met, isIf⟩ := CompilationUnit.place_of_mem_flagged member
  have somewhere : (u.ifAt? r.place.node.span).isSome = true :=
    List.find?_isSome.2 ⟨r.place, met, by simp [isIf]⟩
  obtain ⟨p, found⟩ := Option.isSome_iff_exists.1 somewhere
  have shape := List.find?_some found
  simp only [Bool.and_eq_true, decide_eq_true_eq] at shape
  have same : p = r.place :=
    List.inj_on_of_nodup_map spaced.nodup_spans
      (List.mem_filter.2 ⟨List.mem_of_find?_eq_some found, by simp [shape.1]⟩)
      (List.mem_filter.2 ⟨met, by simp [isIf]⟩) shape.2
  rw [same] at found
  simp only [CompilationUnit.plan?, Repair.target, found]
  rfl

/-- The edits that a pass makes are those of the outermost statements. -/
theorem repairs_eq (spaced : u.tree.Spaced u.source) (limit : Int) :
    u.repairs (u.findings limit) = (u.outermost limit).map (·.edit u.source) := by
  have planned : (u.findings limit).filterMap (fun f => u.plan? f.target) =
      (u.flagged limit).map (·.edit u.source) := by
    have targets := congrArg (List.filterMap u.plan?) (u.map_target_findings limit)
    rw [List.filterMap_map, List.filterMap_map] at targets
    refine targets.trans ?_
    rw [← List.filterMap_eq_map]
    exact List.filterMap_congr fun r member => spaced.plan?_target member
  have ordered := spaced.pairwise_flagged limit
  rw [CompilationUnit.repairs, planned]
  refine Edit.select_eq_filter (fun a b c => ?_) (ordered.imp And.left) (ordered.imp And.right) ?_ ?_
  · intro inner outer
    exact Place.mem_below_trans outer inner
  · intro r member
    obtain ⟨met, isIf⟩ := CompilationUnit.place_of_mem_flagged member
    have tight := spaced.tight r.place met isIf
    have covers := (Place.repair_widens tight r.value).covers
    exact Nat.le_trans covers.start_le (Nat.le_trans covers.proper covers.le_stop)
  · intro r member inner
    obtain ⟨met, isIf⟩ := CompilationUnit.place_of_mem_flagged member
    exact Nat.lt_irrefl _ (spaced.later r.place met isIf r.place inner isIf)

end SyntaxTree.Spaced

namespace Fixed

variable {parse : Parser} {name : Option String} {limit : Int}

/-- The sources that the passes change, each as it was before. -/
def changed (parse : Parser) (name : Option String) (limit : Int) : Nat → Bytes → List Bytes
  | 0, _ => []
  | n + 1, source =>
    let next := (CompilationUnit.read parse source name).repaired limit
    if next = source then [] else source :: changed parse name limit n next

/-- A pass that changes the source adds the number of its edits to the count, any other ends the run. -/
theorem count_passes_succ (n : Nat) (source : Bytes) :
    let u := CompilationUnit.read parse source name
    (passes parse name limit (n + 1) source).count =
      if u.repaired limit = source then 0
      else (u.repairs (u.findings limit)).length +
        (passes parse name limit n (u.repaired limit)).count := by
  intro u
  by_cases same : u.repaired limit = source
  · rw [if_pos same, passes_of_unchanged same]
  · rw [if_neg same, passes_of_changed same]

/-- The count of the passes is the number of outermost statements, added up over the sources that the
passes change. -/
theorem count_passes_eq_sum {n : Nat} {source : Bytes}
    (spaced : ∀ s ∈ changed parse name limit n source, (parse s).Spaced s) :
    (passes parse name limit n source).count =
      ((changed parse name limit n source).map fun s =>
        ((CompilationUnit.read parse s name).outermost limit).length).sum := by
  induction n generalizing source with
  | zero => rfl
  | succ n ih =>
    rw [count_passes_succ]
    unfold changed at spaced ⊢
    by_cases same : (CompilationUnit.read parse source name).repaired limit = source
    · simp [same]
    · simp only [same, if_false, List.forall_mem_cons] at spaced ⊢
      obtain ⟨first, others⟩ := spaced
      have edits := SyntaxTree.Spaced.repairs_eq
        (u := CompilationUnit.read parse source name) first limit
      rw [edits, List.length_map, List.map_cons, List.sum_cons, ih others]

end Fixed

/-- In a spaced tree there is a plan for every finding, the edit of its statement; the pass makes the
edits of exactly the outermost reported statements, in source order; edits of statements that follow one
another never overlap, whichever branch is kept; and a run counts the outermost statements of each source
that one of its passes changes. -/
theorem repairs_eq_outermost (parse : Parser) (name : Option String) (limit : Int) (source : Bytes)
    (spaced : (parse source).Spaced source) :
    let u := CompilationUnit.read parse source name
    (u.findings limit).map Finding.target = (u.flagged limit).map Repair.target ∧
      (u.findings limit).map (fun f => u.plan? f.target) =
        (u.flagged limit).map (fun r => some (r.edit source)) ∧
      u.repairs (u.findings limit) = (u.outermost limit).map (·.edit source) ∧
      (∀ p ∈ u.places, ∀ q ∈ u.places, p.node.kind = .ifStatement → q.node.kind = .ifStatement →
        p.node.span.stop ≤ q.node.span.start →
          ∀ v w, (p.repair source v).span.stop ≤ (q.repair source w).span.start) ∧
      ∀ maxPasses : Int,
        (∀ s ∈ Fixed.changed parse name limit maxPasses.toNat source, (parse s).Spaced s) →
          (Fixed.run parse name limit maxPasses source).count =
            ((Fixed.changed parse name limit maxPasses.toNat source).map fun s =>
              ((CompilationUnit.read parse s name).outermost limit).length).sum := by
  intro u
  have here : u.tree.Spaced u.source := spaced
  refine ⟨u.map_target_findings limit, ?_, here.repairs_eq limit, ?_, ?_⟩
  · have targets := congrArg (List.map u.plan?) (u.map_target_findings limit)
    rw [List.map_map, List.map_map] at targets
    exact targets.trans (List.map_congr_left fun r member => here.plan?_target member)
  · intro p met q met' isIf isIf' apart v w
    have tight := spaced.tight p met isIf
    have tight' := spaced.tight q met' isIf'
    exact (Place.repair_widens tight v).disjoint (Place.repair_widens tight' w) tight tight' apart
  · intro maxPasses all
    rw [Fixed.count_run]
    exact Fixed.count_passes_eq_sum all

/-- The bytes around the statements of a tree can be looked at. -/
theorem SyntaxTree.Spaced.of_all {tree : SyntaxTree} {source : Bytes}
    (nested : tree.root.WellNested)
    (tight : (tree.root.places.all fun p =>
      p.node.kind ≠ .ifStatement || decide (source.Tight p.node.span)) = true)
    (later : (tree.root.places.all fun p => p.node.kind ≠ .ifStatement ||
      p.below.all fun q => q.node.kind ≠ .ifStatement ||
        decide (p.node.span.start < q.node.span.start)) = true) :
    tree.Spaced source := by
  refine ⟨nested, fun p met isIf => ?_, fun p met isIf q inner isIf' => ?_⟩
  · simpa [isIf] using List.all_eq_true.1 tight p met
  · have below := List.all_eq_true.1 later p met
    simp only [isIf, ne_eq, not_true_eq_false, decide_false, Bool.false_or] at below
    simpa [isIf'] using List.all_eq_true.1 below q inner

/-- A method with two checks on lines of their own, the second one with a check inside. -/
def linedUp : Bytes :=
  ("void m(Object o)\x7b\n  if(o==null)f();\n" ++
    "  if(o==null)\x7b\n    if(o==null)f();\n  \x7d\n\x7d").toList.map Char.toUInt8

def linedUpTree : SyntaxTree where
  root := .mk { kind := .method } ⟨0, 76⟩ [
    .mk { kind := .other "void_type", field := some .type } ⟨0, 4⟩ [],
    .mk { kind := .identifier, field := some .name } ⟨5, 6⟩ [],
    .mk { kind := .other "formal_parameters", field := some .parameters } ⟨6, 16⟩ [
      .mk { kind := .formalParameter } ⟨7, 15⟩ [
        .mk { kind := .other "type_identifier", field := some .type } ⟨7, 13⟩ [],
        .mk { kind := .identifier, field := some .name } ⟨14, 15⟩ []]],
    .mk { kind := .block, field := some .body } ⟨16, 76⟩ [
      guardedCallAt 20,
      .mk { kind := .ifStatement } ⟨38, 74⟩ [
        comparisonAt 40 .equalEqual,
        .mk { kind := .block, field := some .consequence } ⟨49, 74⟩ [guardedCallAt 55]]]]

def linedUpParser : Parser := .ofVersions [(linedUp, linedUpTree)]

def linedUpUnit : CompilationUnit := .read linedUpParser linedUp none

theorem linedUp_spaced : (linedUpParser linedUp).Spaced linedUp := by
  have tree : linedUpParser linedUp = linedUpTree := rfl
  rw [tree]
  refine .of_all ?_ (by decide +kernel) (by decide +kernel)
  simp [linedUpTree, comparisonAt, guardedCallAt, Node.WellNested, Node.InOrder, Node.span]

theorem findings_linedUp :
    linedUpUnit.findings 30 =
      [⟨2, 3, ⟨20, 35⟩, false, ["o"]⟩, ⟨3, 3, ⟨38, 74⟩, false, ["o"]⟩,
        ⟨4, 5, ⟨55, 70⟩, false, ["o"]⟩] := by
  rw [CompilationUnit.findings_eq_checkAt?]
  decide +kernel

theorem repairs_linedUp :
    linedUpUnit.repairs (linedUpUnit.findings 30) = [⟨⟨18, 36⟩, []⟩, ⟨⟨36, 75⟩, []⟩] := by
  rw [findings_linedUp, CompilationUnit.repairs, Edit.select_of_pairwise (by decide +kernel)]
  decide +kernel

/-- The method with nothing left in it. -/
def emptied : Bytes := "void m(Object o)\x7b\n\x7d".toList.map Char.toUInt8

/-- The first pass empties the method, and the second finds nothing to do. -/
theorem changed_linedUp (n : Nat) : Fixed.changed linedUpParser none 30 (n + 2) linedUp = [linedUp] := by
  have first : linedUpUnit.repaired 30 = emptied := by
    have edits : Edit.applyAll [⟨⟨18, 36⟩, []⟩, ⟨⟨36, 75⟩, []⟩] linedUp = emptied := by
      rw [Edit.applyAll, Edit.select_of_pairwise (by decide +kernel)]
      decide +kernel
    rw [CompilationUnit.repaired, repairs_linedUp]
    exact edits
  have second : (CompilationUnit.read linedUpParser emptied none).repaired 30 = emptied := by
    rw [CompilationUnit.repaired, CompilationUnit.findings_eq_checkAt?]
    decide +kernel
  have differ : emptied ≠ linedUp := by decide
  rw [linedUpUnit] at first
  simp only [Fixed.changed, first, second, differ, if_false, if_true]

/-- Of three checks the one inside another goes with it. The deletions of the other two meet at the line
feed between them, and both are made. -/
theorem repairs_eq_outermost_linedUp :
    (linedUpParser linedUp).Spaced linedUp ∧
      (linedUpUnit.findings 30).length = 3 ∧
      (linedUpUnit.outermost 30).map (fun r => (r.edit linedUp).span) = [⟨18, 36⟩, ⟨36, 75⟩] ∧
      Fixed.changed linedUpParser none 30 16 linedUp = [linedUp] ∧
      (Fixed.run linedUpParser none 30 16 linedUp).count = 2 := by
  obtain ⟨-, -, edits, -, counts⟩ := repairs_eq_outermost linedUpParser none 30 linedUp linedUp_spaced
  have outermost := edits.symm.trans repairs_linedUp
  have spans := congrArg (List.map (·.span)) outermost
  have number := congrArg List.length outermost
  rw [List.map_map] at spans
  rw [List.length_map] at number
  have changed : Fixed.changed linedUpParser none 30 (16 : Int).toNat linedUp = [linedUp] :=
    changed_linedUp 14
  have total := counts 16
  rw [changed] at total
  refine ⟨linedUp_spaced, by rw [findings_linedUp]; rfl, spans, changed, ?_⟩
  rw [total (List.forall_mem_singleton.2 linedUp_spaced), List.map_singleton, List.sum_singleton]
  exact number

end NullGuard
