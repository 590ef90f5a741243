import NullGuard.Proofs.Splice
import NullGuard.Proofs.WellNested
import NullGuard.Repair.Plan

/-!
A repair keeps the code. Of each repaired statement a part of its text is left, which its tree says.
The edits that are planned also move lines and delete blank ones; but for blanks, the source after
them is the source in which that part takes the place of each statement.
-/
namespace NullGuard

/-- An `if` statement with the value that its condition has. -/
structure Repair where
  place : Place
  value : Bool

namespace Repair

/-- The edit that is planned. -/
def edit (r : Repair) (source : Bytes) : Edit := r.place.repair source r.value

/-- What is left of the statement, as it stands in the source. -/
def remainder (r : Repair) (source : Bytes) : Bytes :=
  match r.place.node.child? (if r.value then .consequence else .alternative) with
  | none => if r.place.inSequence then [] else Place.emptyBlock
  | some branch =>
    if branch.kind = .block ∧ r.place.inSequence then
      match branch.namedChildren with
      | [] => []
      | first :: rest => source.slice first.span.start (rest.getLastD first).span.stop
    else source.at branch.span

/-- The statement replaced by what is left of it, and nothing else touched. -/
def plain (r : Repair) (source : Bytes) : Edit := ⟨r.place.node.span, r.remainder source⟩

/-- The branch that the repair keeps is what is left. -/
theorem remainder_eq (r : Repair) (source : Bytes) :
    r.remainder source =
      match r.place.kept? r.value with
      | some (_, code) => source.at code
      | none => if r.place.inSequence then [] else Place.emptyBlock := by
  unfold remainder Place.kept?
  cases r.place.node.child? (if r.value then .consequence else .alternative) with
  | none => rfl
  | some branch =>
    by_cases opened : branch.kind = .block ∧ r.place.inSequence
    · cases named : branch.namedChildren with
      | nil => simp [opened, named]
      | cons first rest => simp [opened, named, List.getLast?_cons, Bytes.at]
    · simp [opened]

/-- Of a statement within the source, the planned edit covers nothing more but blanks, and it puts in
the code that is left of it. -/
theorem absorbs_plain {r : Repair} {source : Bytes}
    (proper : r.place.node.span.start ≤ r.place.node.span.stop)
    (inside : r.place.node.span.stop ≤ source.length) :
    Edit.Absorbs source (r.edit source) (r.plain source) := by
  have left := r.remainder_eq source
  unfold Edit.Absorbs edit plain Place.repair
  cases kept : r.place.kept? r.value with
  | some taken =>
    obtain ⟨branch, code⟩ := taken
    rw [kept] at left
    refine ⟨Edit.covers_self proper inside _, ?_⟩
    rw [left]
    exact Bytes.solid_reindent source code (source.all_isBlank_indentAt _)
      (source.all_isBlank_indentAt _) _
  | none =>
    rw [kept] at left
    -- Nothing is kept: the statement goes with its lines, or an empty block stands in for it.
    cases sequence : r.place.inSequence with
    | true =>
      rw [sequence] at left
      refine ⟨Edit.removal_covers proper inside, ?_⟩
      rw [left]
      exact congrArg Bytes.solid (Edit.replacement_removal source _)
    | false =>
      rw [sequence] at left
      refine ⟨Edit.covers_self proper inside _, ?_⟩
      rw [left]
      rfl

end Repair

namespace CompilationUnit

/-- The repair that a target asks for. -/
def Asks (u : CompilationUnit) (target : Target) (r : Repair) : Prop :=
  u.ifAt? target.span = some r.place ∧ target.value = some r.value

/-- The repairs, each asked for by a target, whose edits are the selected ones of all that are
planned. -/
def Keeps (u : CompilationUnit) (targets : List Target) (kept : List Repair) : Prop :=
  kept.map (·.edit u.source) = Edit.select (targets.filterMap u.plan?) ∧
    ∀ r ∈ kept, ∃ target ∈ targets, u.Asks target r

theorem plan?_eq_some {u : CompilationUnit} {target : Target} {edit : Edit}
    (planned : u.plan? target = some edit) : ∃ r, u.Asks target r ∧ r.edit u.source = edit := by
  obtain ⟨place, found, planned⟩ := Option.bind_eq_some_iff.1 planned
  obtain ⟨value, known, planned⟩ := Option.bind_eq_some_iff.1 planned
  exact ⟨⟨place, value⟩, ⟨found, known⟩, Option.some.inj planned⟩

theorem exists_repairs {u : CompilationUnit} {targets : List Target} {edits : List Edit}
    (planned : ∀ edit ∈ edits, edit ∈ targets.filterMap u.plan?) :
    ∃ kept : List Repair, kept.map (·.edit u.source) = edits ∧
      ∀ r ∈ kept, ∃ target ∈ targets, u.Asks target r := by
  induction edits with
  | nil => exact ⟨[], rfl, nofun⟩
  | cons edit rest ih =>
    obtain ⟨kept, same, asked⟩ :=
      ih fun other member => planned other (List.mem_cons_of_mem edit member)
    obtain ⟨target, member, plan⟩ := List.mem_filterMap.1 (planned edit List.mem_cons_self)
    obtain ⟨r, asks, rfl⟩ := plan?_eq_some plan
    refine ⟨r :: kept, by rw [List.map_cons, same], ?_⟩
    exact List.forall_mem_cons.2 ⟨⟨target, member, asks⟩, asked⟩

theorem WellNested.of_asks {u : CompilationUnit} (nested : u.WellNested) {target : Target}
    {r : Repair} (asks : u.Asks target r) :
    Edit.Absorbs u.source (r.edit u.source) (r.plain u.source) := by
  obtain ⟨nested, inside⟩ := nested.of_mem_places (List.mem_of_find?_eq_some asks.1)
  exact Repair.absorbs_plain nested.proper inside

theorem WellNested.proper_of_plan? {u : CompilationUnit} (nested : u.WellNested)
    {targets : List Target} {edit : Edit} (planned : edit ∈ targets.filterMap u.plan?) :
    edit.span.start ≤ edit.span.stop ∧ edit.span.stop ≤ u.source.length := by
  obtain ⟨target, -, plan⟩ := List.mem_filterMap.1 planned
  obtain ⟨r, asks, rfl⟩ := plan?_eq_some plan
  obtain ⟨covers, -⟩ := nested.of_asks asks
  exact ⟨Nat.le_trans covers.start_le (Nat.le_trans covers.proper covers.le_stop), covers.inside⟩

end CompilationUnit

/-- The repairs of the selected edits are of statements that follow one another, and but for blanks the
source after the edits is the source with what is left of each statement in its place. -/
theorem solid_applyAll_plan (u : CompilationUnit) (nested : u.WellNested) (targets : List Target) :
    (∃ kept, u.Keeps targets kept) ∧
      ∀ kept, u.Keeps targets kept →
        Edit.Chained u.source 0 (kept.map (·.plain u.source)) ∧
          (Edit.applyAll (targets.filterMap u.plan?) u.source).solid =
            (Edit.splice u.source 0 (kept.map (·.plain u.source))).solid := by
  refine ⟨CompilationUnit.exists_repairs fun edit => Edit.mem_select, ?_⟩
  intro kept ⟨same, asked⟩
  have proper : ∀ edit ∈ targets.filterMap u.plan?,
      edit.span.start ≤ edit.span.stop ∧ edit.span.stop ≤ u.source.length :=
    fun edit planned => nested.proper_of_plan? planned
  have chained := Edit.chained_select proper
  rw [← same] at chained
  have absorbs : ∀ r ∈ kept, Edit.Absorbs u.source (r.edit u.source) (r.plain u.source) := by
    intro r member
    obtain ⟨target, -, asks⟩ := asked r member
    exact nested.of_asks asks
  refine ⟨Edit.chained_of_absorbs _ _ absorbs (Nat.le_refl 0) chained, ?_⟩
  rw [Edit.applyAll_eq_splice proper, ← same]
  exact Edit.solid_splice _ _ absorbs (Nat.le_refl 0) rfl chained

/-- A sequence of two `if` statements, the first with a block of two statements. -/
def guardedTree : Node :=
  .mk { kind := .block } ⟨0, 44⟩ [
    .mk { kind := .ifStatement } ⟨4, 30⟩ [
      .mk { kind := .block, field := some .consequence } ⟨11, 30⟩ [
        .mk { kind := .other "expression_statement" } ⟨17, 19⟩ [],
        .mk { kind := .other "expression_statement" } ⟨24, 26⟩ []]],
    .mk { kind := .ifStatement } ⟨33, 42⟩ [
      .mk { kind := .other "expression_statement", field := some .consequence } ⟨40, 42⟩ []]]

def guardedUnit : CompilationUnit where
  source := "\x7b\n  if (a) \x7b\n    b;\n    c;\n  \x7d\n  if (d) e;\n\x7d".toList.map Char.toUInt8
  tree.root := guardedTree

theorem guardedUnit_wellNested : guardedUnit.WellNested := by
  have root : guardedTree.WellNested := by
    simp [guardedTree, Node.WellNested, Node.InOrder, Node.span]
  exact ⟨root, by decide +kernel⟩

/-- The first block loses its braces and the second statement goes. -/
theorem solid_applyAll_plan_guardedUnit :
    guardedUnit.WellNested ∧
      ∃ kept, guardedUnit.Keeps [⟨⟨4, 30⟩, some true⟩, ⟨⟨33, 42⟩, some false⟩] kept ∧
        kept.length = 2 ∧
        (Edit.splice guardedUnit.source 0 (kept.map (·.plain guardedUnit.source))).solid =
          "\x7bb;c;\x7d".toList.map Char.toUInt8 := by
  obtain ⟨⟨kept, keeps⟩, conserved⟩ := solid_applyAll_plan guardedUnit guardedUnit_wellNested
    [⟨⟨4, 30⟩, some true⟩, ⟨⟨33, 42⟩, some false⟩]
  have count : kept.length = 2 := by
    have same := congrArg List.length keeps.1
    rw [List.length_map] at same
    rw [same, Edit.select_of_pairwise (by decide +kernel)]
    decide +kernel
  refine ⟨guardedUnit_wellNested, kept, keeps, count, ?_⟩
  rw [← (conserved kept keeps).2, Edit.applyAll, Edit.select_of_pairwise (by decide +kernel)]
  decide +kernel

end NullGuard
