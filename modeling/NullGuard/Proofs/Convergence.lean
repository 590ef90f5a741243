import NullGuard.Proofs.Levels
import NullGuard.Proofs.Shrinking
import NullGuard.Repair.Fix

/-!
Repairing comes to an end. Whatever a pass repairs leaves less code, so there are no more passes than
the source has bytes besides blanks; a pass that finds something to repair never gives its own source
back. The last pass has found nothing, and neither does any pass over its source again.
-/
namespace NullGuard

/-- The trees that the parser gives are regular, whatever the source. -/
def Parser.Regular (parse : Parser) : Prop := ∀ source, (parse source).Regular source

/-- The bytes of the statements in a tree can be counted. -/
theorem SyntaxTree.Regular.of_all {tree : SyntaxTree} {source : Bytes}
    (nested : tree.root.WellNested) (inside : tree.root.span.stop ≤ source.length)
    (counted : (tree.root.places.all fun p =>
      p.node.kind ≠ .ifStatement || decide (p.node.Substantial source)) = true) :
    tree.Regular source := by
  refine ⟨nested, inside, fun p met isIf => ?_⟩
  have checked := List.all_eq_true.1 counted p met
  simpa [isIf] using checked

/-- A parser that knows only some sources is regular if the trees of these are. -/
theorem Parser.Regular.ofVersions {known : List (Bytes × SyntaxTree)}
    (regular : ∀ version ∈ known, version.2.Regular version.1) :
    (Parser.ofVersions known).Regular := by
  intro source
  unfold Parser.ofVersions
  cases found : known.lookup source with
  | some tree =>
    obtain ⟨before, after, rfl, -⟩ := List.lookup_eq_some_iff.1 found
    exact regular (source, tree) (List.mem_append_right before List.mem_cons_self)
  | none =>
    refine ⟨?_, Nat.le_refl _, ?_⟩
    · simp [Node.WellNested, Node.InOrder]
    · intro p met isIf
      have root : p = ⟨.mk { kind := .other "program" } ⟨0, source.length⟩ [], []⟩ := by
        simpa [Node.places, Place.walk, Place.children, Node.children] using met
      rw [root] at isIf
      cases isIf

theorem Log.messages_warning_eq_nil {log : Log} (debug : ∀ entry ∈ log, entry.level = .debug) :
    log.messages .warning = [] := by
  unfold messages
  rw [List.map_eq_nil_iff, List.filter_eq_nil_iff]
  intro entry member
  rw [debug entry member]
  decide

namespace CompilationUnit

/-- What reading a unit and analysing it log is for debugging. -/
theorem level_of_mem_log {u : CompilationUnit} {limit : Int} {entry : LogEntry}
    (member : entry ∈ u.readLog ++ (u.analysis limit).log) : entry.level = .debug := by
  simp only [readLog, analysis, List.mem_append, List.mem_map, List.mem_singleton] at member
  rcases member with (errors | rfl) | ⟨_, -, rfl⟩ | ⟨_, -, rfl⟩
  · split at errors
    · rw [List.mem_singleton.1 errors]
      rfl
    · cases errors
  all_goals rfl

/-- A pass with something to repair leaves less code than it found. -/
theorem solid_repaired_lt {u : CompilationUnit} (regular : u.tree.Regular u.source) {limit : Int}
    (some : u.repairs (u.findings limit) ≠ []) :
    (u.repaired limit).solid.length < u.source.solid.length := by
  have planned : ∀ edit ∈ u.repairs (u.findings limit),
      edit ∈ ((u.findings limit).map Finding.target).filterMap u.plan? := by
    intro edit member
    rw [List.filterMap_map]
    exact Edit.mem_select member
  exact solid_applyAll_lt regular planned some

theorem repaired_of_repairs_eq_nil {u : CompilationUnit} {limit : Int}
    (none : u.repairs (u.findings limit) = []) : u.repaired limit = u.source := by
  rw [repaired, none]
  simp [Edit.applyAll, Edit.select, Edit.keepFrom]

theorem repaired_ne_source {u : CompilationUnit} (regular : u.tree.Regular u.source) {limit : Int}
    (some : u.repairs (u.findings limit) ≠ []) : u.repaired limit ≠ u.source := by
  intro same
  have less := solid_repaired_lt regular some
  rw [same] at less
  exact Nat.lt_irrefl _ less

end CompilationUnit

namespace Fixed

/-- No warning was logged. -/
def Quiet (result : Fixed) : Prop := result.log.messages .warning = []

/-- A pass over the source finds nothing to repair. -/
def Settled (parse : Parser) (name : Option String) (limit : Int) (source : Bytes) : Prop :=
  let u := CompilationUnit.read parse source name
  u.repairs (u.findings limit) = []

variable {parse : Parser} {name : Option String} {limit : Int}

/-- A pass that leaves the source as it is ends the passes. -/
theorem passes_of_unchanged {source : Bytes}
    (same : (CompilationUnit.read parse source name).repaired limit = source) (n : Nat) :
    let u := CompilationUnit.read parse source name
    passes parse name limit (n + 1) source =
      { source, finished := true, log := u.readLog ++ (u.analysis limit).log } :=
  if_pos (.inr same)

/-- A pass that changes the source adds the number of its edits to what the passes after it count. -/
theorem passes_of_changed {source : Bytes}
    (differ : (CompilationUnit.read parse source name).repaired limit ≠ source) (n : Nat) :
    let u := CompilationUnit.read parse source name
    let rest := passes parse name limit n (u.repaired limit)
    passes parse name limit (n + 1) source =
      { rest with
        count := (u.repairs (u.findings limit)).length + rest.count
        log := u.readLog ++ (u.analysis limit).log ++ rest.log } := by
  refine if_neg ?_
  rintro (none | same)
  · exact differ (CompilationUnit.repaired_of_repairs_eq_nil (List.isEmpty_iff.1 none))
  · exact differ same

theorem passes_of_settled {source : Bytes} (settled : Settled parse name limit source) (n : Nat) :
    let u := CompilationUnit.read parse source name
    passes parse name limit (n + 1) source =
      { source, finished := true, log := u.readLog ++ (u.analysis limit).log } :=
  passes_of_unchanged (CompilationUnit.repaired_of_repairs_eq_nil settled) n

/-- As a pass that repairs something changes the source, only a settled source ends the passes. -/
theorem passes_of_not_settled (regular : parse.Regular) {source : Bytes}
    (unsettled : ¬ Settled parse name limit source) (n : Nat) :
    let u := CompilationUnit.read parse source name
    let rest := passes parse name limit n (u.repaired limit)
    passes parse name limit (n + 1) source =
      { rest with
        count := (u.repairs (u.findings limit)).length + rest.count
        log := u.readLog ++ (u.analysis limit).log ++ rest.log } :=
  passes_of_changed (CompilationUnit.repaired_ne_source (regular source) unsettled) n

theorem finished_passes (regular : parse.Regular) {n : Nat} {source : Bytes}
    (many : source.solid.length < n) : (passes parse name limit n source).finished = true := by
  -- A pass that is not the last one takes a byte of code away, so the passes left stay enough.
  induction n generalizing source with
  | zero => exact absurd many (Nat.not_lt_zero _)
  | succ n ih =>
    by_cases settled : Settled parse name limit source
    · rw [passes_of_settled settled]
    · rw [passes_of_not_settled regular settled]
      have less := CompilationUnit.solid_repaired_lt (regular source) settled
      exact ih (Nat.lt_of_lt_of_le less (Nat.le_of_lt_succ many))

/-- Passes that have finished leave nothing to repair. -/
theorem settled_passes (regular : parse.Regular) {n : Nat} {source : Bytes}
    (finished : (passes parse name limit n source).finished = true) :
    Settled parse name limit (passes parse name limit n source).source := by
  induction n generalizing source with
  | zero => cases finished
  | succ n ih =>
    by_cases settled : Settled parse name limit source
    · rw [passes_of_settled settled]
      exact settled
    · rw [passes_of_not_settled regular settled] at finished ⊢
      exact ih finished

theorem level_of_mem_log_passes {n : Nat} {source : Bytes} {entry : LogEntry}
    (member : entry ∈ (passes parse name limit n source).log) : entry.level = .debug := by
  induction n generalizing source with
  | zero => cases member
  | succ n ih =>
    rw [passes] at member
    split at member
    · exact CompilationUnit.level_of_mem_log member
    · rcases List.mem_append.1 member with first | rest
      · exact CompilationUnit.level_of_mem_log first
      · exact ih rest

/-- The run warns exactly if its passes have not finished. -/
theorem quiet_run_iff {maxPasses : Int} {source : Bytes} :
    (run parse name limit maxPasses source).Quiet ↔
      (passes parse name limit maxPasses.toNat source).finished = true := by
  unfold run
  cases finished : (passes parse name limit maxPasses.toNat source).finished with
  | true =>
    simp only [finished, if_true, iff_true]
    exact Log.messages_warning_eq_nil fun _ => level_of_mem_log_passes
  | false => simp [Quiet, Log.messages, LogEntry.level, Level.shownFrom, finished]

theorem source_run (maxPasses : Int) (source : Bytes) :
    (run parse name limit maxPasses source).source =
      (passes parse name limit maxPasses.toNat source).source := by
  simp only [run]
  split
  · rfl
  · rfl

theorem count_run (maxPasses : Int) (source : Bytes) :
    (run parse name limit maxPasses source).count =
      (passes parse name limit maxPasses.toNat source).count := by
  simp only [run]
  split
  · rfl
  · rfl

/-- A settled source is left as it is by any run that makes a pass. -/
theorem run_of_settled {source : Bytes} (settled : Settled parse name limit source)
    {maxPasses : Int} (some : 1 ≤ maxPasses) :
    (run parse name limit maxPasses source).source = source ∧
      (run parse name limit maxPasses source).count = 0 ∧
      (run parse name limit maxPasses source).Quiet := by
  obtain ⟨n, count⟩ : ∃ n, maxPasses.toNat = n + 1 := ⟨maxPasses.toNat - 1, by omega⟩
  refine ⟨?_, ?_, ?_⟩
  · rw [source_run, count, passes_of_settled settled]
  · rw [count_run, count, passes_of_settled settled]
  · rw [quiet_run_iff, count, passes_of_settled settled]

end Fixed

/-- With a regular parser a pass that repairs something leaves less code, and so another source; with
more passes than the source has bytes besides blanks there is no warning; and where there is none,
nothing is left to repair: a second run, of at least one pass, repairs no statement, leaves the result
as it is and does not warn. -/
theorem run_reaches_fixpoint (parse : Parser) (regular : parse.Regular) (name : Option String)
    (limit : Int) (source : Bytes) :
    (let u := CompilationUnit.read parse source name
     u.repairs (u.findings limit) ≠ [] →
        (u.repaired limit).solid.length < source.solid.length ∧ u.repaired limit ≠ source) ∧
      (∀ maxPasses : Int, (source.solid.length : Int) < maxPasses →
        (Fixed.run parse name limit maxPasses source).Quiet) ∧
      ∀ maxPasses : Int, (Fixed.run parse name limit maxPasses source).Quiet →
        let first := Fixed.run parse name limit maxPasses source
        Fixed.Settled parse name limit first.source ∧
          ∀ again : Int, 1 ≤ again →
            let second := Fixed.run parse name limit again first.source
            second.source = first.source ∧ second.count = 0 ∧ second.Quiet := by
  refine ⟨?_, ?_, ?_⟩
  · intro u some
    exact ⟨CompilationUnit.solid_repaired_lt (regular source) some,
      CompilationUnit.repaired_ne_source (regular source) some⟩
  · intro maxPasses many
    refine Fixed.quiet_run_iff.2 (Fixed.finished_passes regular ?_)
    omega
  · intro maxPasses quiet
    have settled := Fixed.settled_passes regular (Fixed.quiet_run_iff.1 quiet)
    rw [← Fixed.source_run] at settled
    exact ⟨settled, fun again some => Fixed.run_of_settled settled some⟩

/-- A comparison of the parameter with null. -/
def comparisonAt (pos : Nat) (op : Kind) : Node :=
  .mk { kind := .parenthesized, field := some .condition } ⟨pos, pos + 9⟩ [
    .mk { kind := .binary } ⟨pos + 1, pos + 8⟩ [
      .mk { kind := .identifier, field := some .left } ⟨pos + 1, pos + 2⟩ [],
      .mk { kind := op, named := false, field := some .operator } ⟨pos + 2, pos + 4⟩ [],
      .mk { kind := .nullLiteral, field := some .right } ⟨pos + 4, pos + 8⟩ []]]

/-- An `if` statement that calls something if the parameter is null. -/
def guardedCallAt (pos : Nat) : Node :=
  .mk { kind := .ifStatement } ⟨pos, pos + 15⟩ [
    comparisonAt (pos + 2) .equalEqual,
    .mk { kind := .other "expression_statement", field := some .consequence } ⟨pos + 11, pos + 15⟩ []]

/-- A method of one parameter whose body is one statement. -/
def methodOf (stop : Nat) (statement : Node) : SyntaxTree where
  root := .mk { kind := .other "program" } ⟨0, stop⟩ [
    .mk { kind := .method } ⟨0, stop⟩ [
      .mk { kind := .other "void_type", field := some .type } ⟨0, 4⟩ [],
      .mk { kind := .identifier, field := some .name } ⟨5, 6⟩ [],
      .mk { kind := .other "formal_parameters", field := some .parameters } ⟨6, 16⟩ [
        .mk { kind := .formalParameter } ⟨7, 15⟩ [
          .mk { kind := .other "type_identifier", field := some .type } ⟨7, 13⟩ [],
          .mk { kind := .identifier, field := some .name } ⟨14, 15⟩ []]],
      .mk { kind := .block, field := some .body } ⟨16, stop⟩ [statement]]]

/-- A method with a check inside another one. -/
def checkedTwice : Bytes :=
  "void m(Object o)\x7bif(o!=null)\x7bif(o==null)f();\x7d\x7d".toList.map Char.toUInt8

def checkedTwiceTree : SyntaxTree :=
  methodOf 46 (.mk { kind := .ifStatement } ⟨17, 45⟩ [
    comparisonAt 19 .bangEqual,
    .mk { kind := .block, field := some .consequence } ⟨28, 45⟩ [guardedCallAt 29]])

/-- The same method after one pass. -/
def checkedOnce : Bytes :=
  "void m(Object o)\x7bif(o==null)f();\x7d".toList.map Char.toUInt8

def unchecked : Bytes := "void m(Object o)\x7b\x7d".toList.map Char.toUInt8

def checkedParser : Parser :=
  .ofVersions [(checkedTwice, checkedTwiceTree), (checkedOnce, methodOf 33 (guardedCallAt 17))]

theorem checkedParser_regular : checkedParser.Regular := by
  refine Parser.Regular.ofVersions (List.forall_mem_cons.2 ⟨?_, List.forall_mem_singleton.2 ?_⟩)
  · refine .of_all ?_ (by decide +kernel) (by decide +kernel)
    simp [checkedTwiceTree, methodOf, comparisonAt, guardedCallAt, Node.WellNested, Node.InOrder,
      Node.span]
  · refine .of_all ?_ (by decide +kernel) (by decide +kernel)
    simp [methodOf, comparisonAt, guardedCallAt, Node.WellNested, Node.InOrder, Node.span]

def checkedUnit (source : Bytes) : CompilationUnit := .read checkedParser source none

theorem read_checkedParser (source : Bytes) :
    CompilationUnit.read checkedParser source none = checkedUnit source :=
  rfl

theorem repairs_checkedTwice :
    (checkedUnit checkedTwice).repairs ((checkedUnit checkedTwice).findings 30) =
      [⟨⟨17, 45⟩, checkedOnce.slice 17 32⟩] := by
  rw [CompilationUnit.findings_eq_checkAt?, CompilationUnit.repairs,
    Edit.select_of_pairwise (by decide +kernel)]
  decide +kernel

theorem repairs_checkedOnce :
    (checkedUnit checkedOnce).repairs ((checkedUnit checkedOnce).findings 30) =
      [⟨⟨17, 32⟩, []⟩] := by
  rw [CompilationUnit.findings_eq_checkAt?]
  decide +kernel

theorem settled_unchecked : Fixed.Settled checkedParser none 30 unchecked := by
  rw [Fixed.Settled, CompilationUnit.findings_eq_checkAt?]
  decide +kernel

theorem applyAll_checkedTwice :
    Edit.applyAll [⟨⟨17, 45⟩, checkedOnce.slice 17 32⟩] checkedTwice = checkedOnce := by
  decide +kernel

theorem applyAll_checkedOnce : Edit.applyAll [⟨⟨17, 32⟩, []⟩] checkedOnce = unchecked := by
  decide +kernel

/-- The first pass takes the outer check away and the second one the check inside it. -/
theorem passes_checkedTwice (n : Nat) :
    (Fixed.passes checkedParser none 30 (n + 3) checkedTwice).source = unchecked ∧
      (Fixed.passes checkedParser none 30 (n + 3) checkedTwice).count = 2 := by
  have once : (checkedUnit checkedTwice).repaired 30 = checkedOnce := by
    rw [CompilationUnit.repaired, repairs_checkedTwice]
    exact applyAll_checkedTwice
  have never : (checkedUnit checkedOnce).repaired 30 = unchecked := by
    rw [CompilationUnit.repaired, repairs_checkedOnce]
    exact applyAll_checkedOnce
  have first := Fixed.passes_of_not_settled checkedParser_regular
    (fun settled => List.cons_ne_nil _ _ (repairs_checkedTwice.symm.trans settled)) (n + 2)
  have second := Fixed.passes_of_not_settled checkedParser_regular
    (fun settled => List.cons_ne_nil _ _ (repairs_checkedOnce.symm.trans settled)) (n + 1)
  have third := Fixed.passes_of_settled settled_unchecked n
  simp only [read_checkedParser, once, never, repairs_checkedTwice, repairs_checkedOnce]
    at first second
  rw [first, second, third]
  exact ⟨rfl, rfl⟩

/-- Both checks go, the inner one in a second pass, and a run of one pass then has nothing to do. -/
theorem run_reaches_fixpoint_checkedTwice :
    let first := Fixed.run checkedParser none 30 100 checkedTwice
    let second := Fixed.run checkedParser none 30 1 first.source
    checkedParser.Regular ∧
      (checkedUnit checkedTwice).repairs ((checkedUnit checkedTwice).findings 30) ≠ [] ∧
      ((checkedUnit checkedTwice).repaired 30).solid.length < checkedTwice.solid.length ∧
      first.source = unchecked ∧ first.count = 2 ∧ first.Quiet ∧
      second.source = first.source ∧ second.count = 0 ∧ second.Quiet := by
  intro first second
  obtain ⟨shrinks, ends, again⟩ :=
    run_reaches_fixpoint checkedParser checkedParser_regular none 30 checkedTwice
  have some : (checkedUnit checkedTwice).repairs ((checkedUnit checkedTwice).findings 30) ≠ [] := by
    rw [repairs_checkedTwice]
    exact List.cons_ne_nil _ _
  have size : checkedTwice.solid.length = 44 := by decide +kernel
  have quiet : first.Quiet := ends 100 (by rw [size]; decide)
  obtain ⟨source, count⟩ := passes_checkedTwice 97
  refine ⟨checkedParser_regular, some, (shrinks some).1, ?_, ?_, quiet,
    (again 100 quiet).2 1 (Int.le_refl 1)⟩
  · exact (Fixed.source_run 100 checkedTwice).trans source
  · exact (Fixed.count_run 100 checkedTwice).trans count

end NullGuard
