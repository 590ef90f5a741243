import Mathlib.Logic.Function.Iterate
import NullGuard.Proofs.Convergence

/-!
What it means that a run stopped at its limit. The passes are counted, and the last one that is permitted
is not followed by another look at the source: the run says that it stopped exactly if each of its passes
changed the source. So there was something to repair before the last pass, and nothing is said of what is
left after it. A run that is done with its last pass says that it stopped as well; whether it is done shows
in a run of one more pass. A run that does not say so has left nothing that a pass would change.
-/
namespace NullGuard

/-- There is a finding in the unit that can be repaired. -/
def CompilationUnit.Repairable (u : CompilationUnit) (limit : Int) : Prop :=
  ∃ f ∈ u.findings limit, (u.plan? f.target).isSome = true

theorem CompilationUnit.repairs_ne_nil_iff {u : CompilationUnit} {limit : Int} :
    u.repairs (u.findings limit) ≠ [] ↔ u.Repairable limit := by
  constructor
  · intro some
    obtain ⟨edit, member⟩ := List.exists_mem_of_ne_nil _ some
    obtain ⟨f, among, planned⟩ := List.mem_filterMap.1 (Edit.mem_select member)
    exact ⟨f, among, Option.isSome_iff_exists.2 ⟨edit, planned⟩⟩
  · rintro ⟨f, among, planned⟩
    obtain ⟨edit, planned⟩ := Option.isSome_iff_exists.1 planned
    exact Edit.select_ne_nil (List.ne_nil_of_mem (List.mem_filterMap.2 ⟨f, among, planned⟩))

namespace Fixed

/-- What one pass makes of a source. -/
def pass (parse : Parser) (name : Option String) (limit : Int) (source : Bytes) : Bytes :=
  (CompilationUnit.read parse source name).repaired limit

/-- The run has logged that it stopped after so many passes. -/
def Stopped (parse : Parser) (name : Option String) (limit maxPasses : Int) (source : Bytes) : Prop :=
  LogEntry.passLimit (CompilationUnit.titleOf name) maxPasses ∈
    (run parse name limit maxPasses source).log

variable {parse : Parser} {name : Option String} {limit : Int} {source : Bytes}

/-- What a pass changes could be repaired. -/
theorem repairable_of_pass_ne (differ : pass parse name limit source ≠ source) :
    (CompilationUnit.read parse source name).Repairable limit :=
  CompilationUnit.repairs_ne_nil_iff.1 fun none =>
    differ (CompilationUnit.repaired_of_repairs_eq_nil none)

/-- The passes have not finished exactly if each of them changed the source. -/
theorem finished_passes_eq_false_iff (n : Nat) (source : Bytes) :
    (passes parse name limit n source).finished = false ↔
      ∀ k < n, pass parse name limit ((pass parse name limit)^[k] source) ≠
        (pass parse name limit)^[k] source := by
  induction n generalizing source with
  | zero => simp [passes]
  | succ n ih =>
    rw [Nat.forall_lt_succ_left]
    by_cases same : pass parse name limit source = source
    · rw [passes_of_unchanged same]
      simp [same]
    · rw [passes_of_changed same]
      simp only [Function.iterate_succ_apply]
      exact (ih _).trans (and_iff_right same).symm

/-- Passes that have not finished have all been made. -/
theorem source_passes_of_not_finished {n : Nat} {source : Bytes}
    (unfinished : (passes parse name limit n source).finished = false) :
    (passes parse name limit n source).source = (pass parse name limit)^[n] source := by
  induction n generalizing source with
  | zero => rfl
  | succ n ih =>
    by_cases same : pass parse name limit source = source
    · rw [passes_of_unchanged same] at unfinished
      cases unfinished
    · rw [passes_of_changed same] at unfinished ⊢
      exact ih unfinished

/-- Passes that have finished leave a source that one more would not change. -/
theorem pass_source_passes {n : Nat} {source : Bytes}
    (finished : (passes parse name limit n source).finished = true) :
    pass parse name limit (passes parse name limit n source).source =
      (passes parse name limit n source).source := by
  induction n generalizing source with
  | zero => cases finished
  | succ n ih =>
    by_cases same : pass parse name limit source = source
    · rw [passes_of_unchanged same]
      exact same
    · rw [passes_of_changed same] at finished ⊢
      exact ih finished

theorem stopped_iff {maxPasses : Int} :
    Stopped parse name limit maxPasses source ↔
      (passes parse name limit maxPasses.toNat source).finished = false := by
  unfold Stopped run
  cases finished : (passes parse name limit maxPasses.toNat source).finished with
  | true =>
    simp only [finished, if_true, Bool.true_eq_false, iff_false]
    intro member
    have debug := level_of_mem_log_passes member
    cases debug
  | false => simp [finished]

end Fixed

/-- A run says that it stopped at its limit exactly if each of its passes changed the source. Then it has
made them all, each on a source with something to repair. Something that a pass would change is left
exactly if a run of one more pass says so too, and with a regular parser that is the same as something
left to repair. A run that says nothing leaves a source that a pass would not change. -/
theorem stopped_iff_changed (parse : Parser) (name : Option String) (limit maxPasses : Int)
    (source : Bytes) (some : 1 ≤ maxPasses) :
    let pass := Fixed.pass parse name limit
    let left := (Fixed.run parse name limit maxPasses source).source
    let repairable (s : Bytes) := (CompilationUnit.read parse s name).Repairable limit
    (Fixed.Stopped parse name limit maxPasses source ↔
        ∀ k < maxPasses.toNat, pass (pass^[k] source) ≠ pass^[k] source) ∧
      (Fixed.Stopped parse name limit maxPasses source →
        left = pass^[maxPasses.toNat] source ∧ (∀ k < maxPasses.toNat, repairable (pass^[k] source)) ∧
          (Fixed.Stopped parse name limit (maxPasses + 1) source ↔ pass left ≠ left)) ∧
      (pass left ≠ left → repairable left) ∧ (parse.Regular → repairable left → pass left ≠ left) ∧
      (¬ Fixed.Stopped parse name limit maxPasses source → pass left = left) := by
  intro pass left repairable
  have changed : ∀ n : Int, Fixed.Stopped parse name limit n source ↔
      ∀ k < n.toNat, pass (pass^[k] source) ≠ pass^[k] source := fun n =>
    Fixed.stopped_iff.trans (Fixed.finished_passes_eq_false_iff n.toNat source)
  refine ⟨changed maxPasses, ?_, Fixed.repairable_of_pass_ne, ?_, ?_⟩
  · intro stopped
    have all : left = pass^[maxPasses.toNat] source :=
      (Fixed.source_run maxPasses source).trans
        (Fixed.source_passes_of_not_finished (Fixed.stopped_iff.1 stopped))
    have passesMade := (changed maxPasses).1 stopped
    refine ⟨all, fun k before => Fixed.repairable_of_pass_ne (passesMade k before), ?_⟩
    have more : (maxPasses + 1).toNat = maxPasses.toNat + 1 := by omega
    rw [changed, more, Nat.forall_lt_succ_right, ← all]
    exact and_iff_right passesMade
  · intro regular repairable
    exact CompilationUnit.repaired_ne_source (regular left)
      (CompilationUnit.repairs_ne_nil_iff.2 repairable)
  · intro quiet
    have finished := eq_true_of_ne_false (mt Fixed.stopped_iff.2 quiet)
    have settled := Fixed.pass_source_passes finished
    rw [← Fixed.source_run] at settled
    exact settled

/-- A class with one method, in which there is one check. -/
def soleCheck : Bytes :=
  ["class A\x7bvoid m(Object o)", "\x7bif(o==null)f();\x7d\x7d"].flatMap (·.toList.map Char.toUInt8)

def soleCheckTree : Node :=
  .mk { kind := .other "program" } ⟨0, 42⟩ [
    .mk { kind := .other "class_declaration" } ⟨0, 42⟩ [
      .mk { kind := .identifier, field := some .name } ⟨6, 7⟩ [],
      .mk { kind := .classBody, field := some .body } ⟨7, 42⟩ [
        .mk { kind := .method } ⟨8, 41⟩ [
          .mk { kind := .other "void_type", field := some .type } ⟨8, 12⟩ [],
          .mk { kind := .identifier, field := some .name } ⟨13, 14⟩ [],
          .mk { kind := .other "formal_parameters", field := some .parameters } ⟨14, 24⟩ [
            .mk { kind := .formalParameter } ⟨15, 23⟩ [
              .mk { kind := .other "type_identifier", field := some .type } ⟨15, 21⟩ [],
              .mk { kind := .identifier, field := some .name } ⟨22, 23⟩ []]],
          .mk { kind := .block, field := some .body } ⟨24, 41⟩ [
            .mk { kind := .ifStatement } ⟨25, 40⟩ [
              comparisonAt 27 .equalEqual,
              .mk { kind := .other "expression_statement", field := some .consequence } ⟨36, 40⟩ [
                .mk { kind := .invocation } ⟨36, 39⟩ [
                  .mk { kind := .identifier, field := some .name } ⟨36, 37⟩ [],
                  .mk { kind := .other "argument_list", field := some .arguments } ⟨37, 39⟩ []]]]]]]]]

/-- The class without the check. -/
def noCheck : Bytes := "class A\x7bvoid m(Object o)\x7b\x7d\x7d".toList.map Char.toUInt8

def noCheckTree : Node :=
  .mk { kind := .other "program" } ⟨0, 27⟩ [
    .mk { kind := .other "class_declaration" } ⟨0, 27⟩ [
      .mk { kind := .identifier, field := some .name } ⟨6, 7⟩ [],
      .mk { kind := .classBody, field := some .body } ⟨7, 27⟩ [
        .mk { kind := .method } ⟨8, 26⟩ [
          .mk { kind := .other "void_type", field := some .type } ⟨8, 12⟩ [],
          .mk { kind := .identifier, field := some .name } ⟨13, 14⟩ [],
          .mk { kind := .other "formal_parameters", field := some .parameters } ⟨14, 24⟩ [
            .mk { kind := .formalParameter } ⟨15, 23⟩ [
              .mk { kind := .other "type_identifier", field := some .type } ⟨15, 21⟩ [],
              .mk { kind := .identifier, field := some .name } ⟨22, 23⟩ []]],
          .mk { kind := .block, field := some .body } ⟨24, 26⟩ []]]]]

def soleCheckParser : Parser :=
  .ofVersions [(soleCheck, { root := soleCheckTree }), (noCheck, { root := noCheckTree })]

def soleCheckUnit : CompilationUnit := .read soleCheckParser soleCheck none

theorem repairs_soleCheck : soleCheckUnit.repairs (soleCheckUnit.findings 30) = [⟨⟨25, 40⟩, []⟩] := by
  rw [CompilationUnit.findings_eq_checkAt?]
  decide +kernel

/-- The first pass takes the check away. -/
theorem pass_soleCheck : Fixed.pass soleCheckParser none 30 soleCheck = noCheck := by
  have edit : Edit.applyAll [⟨⟨25, 40⟩, []⟩] soleCheck = noCheck := by decide +kernel
  change Edit.applyAll (soleCheckUnit.repairs (soleCheckUnit.findings 30)) soleCheck = noCheck
  rw [repairs_soleCheck, edit]

/-- There is nothing left to report. -/
theorem findings_noCheck : (CompilationUnit.read soleCheckParser noCheck none).findings 30 = [] := by
  rw [CompilationUnit.findings_eq_checkAt?]
  decide +kernel

theorem settled_noCheck : Fixed.Settled soleCheckParser none 30 noCheck := by
  simp [Fixed.Settled, findings_noCheck, CompilationUnit.repairs, Edit.select, Edit.keepFrom]

theorem stopped_soleCheck : Fixed.Stopped soleCheckParser none 30 1 soleCheck := by
  refine Fixed.stopped_iff.2 ((Fixed.finished_passes_eq_false_iff 1 soleCheck).2 fun k first => ?_)
  rw [Nat.lt_one_iff.1 first, Function.iterate_zero_apply, pass_soleCheck]
  decide

theorem source_run_soleCheck : (Fixed.run soleCheckParser none 30 1 soleCheck).source = noCheck := by
  rw [Fixed.source_run, Fixed.source_passes_of_not_finished (Fixed.stopped_iff.1 stopped_soleCheck)]
  exact pass_soleCheck

/-- The run of one pass takes the only check away and says that it stopped after one pass. In what it
leaves there is nothing to report, and so nothing to repair. -/
theorem stopped_with_nothing_left :
    Fixed.Stopped soleCheckParser none 30 1 soleCheck ∧
      (Fixed.run soleCheckParser none 30 1 soleCheck).source = noCheck ∧
      (CompilationUnit.read soleCheckParser noCheck none).findings 30 = [] ∧
      ¬ (CompilationUnit.read soleCheckParser noCheck none).Repairable 30 := by
  refine ⟨stopped_soleCheck, source_run_soleCheck, findings_noCheck, ?_⟩
  rintro ⟨f, member, -⟩
  rw [findings_noCheck] at member
  cases member

/-- With one pass the run says that it stopped, and with two it does not, as the second pass has nothing
to change; there was something to repair before the first one. -/
theorem stopped_iff_changed_soleCheck :
    Fixed.Stopped soleCheckParser none 30 1 soleCheck ∧ soleCheckUnit.Repairable 30 ∧
      (Fixed.run soleCheckParser none 30 1 soleCheck).source = noCheck ∧
      ¬ Fixed.Stopped soleCheckParser none 30 2 soleCheck := by
  have unchanged : Fixed.pass soleCheckParser none 30 noCheck = noCheck :=
    CompilationUnit.repaired_of_repairs_eq_nil settled_noCheck
  obtain ⟨-, made, -⟩ := stopped_iff_changed soleCheckParser none 30 1 soleCheck (by decide)
  obtain ⟨left, repairable, more⟩ := made stopped_soleCheck
  have left : (Fixed.run soleCheckParser none 30 1 soleCheck).source = noCheck :=
    left.trans pass_soleCheck
  refine ⟨stopped_soleCheck, repairable 0 (by decide), left, fun again => ?_⟩
  rw [left] at more
  exact more.1 again unchanged

end NullGuard
