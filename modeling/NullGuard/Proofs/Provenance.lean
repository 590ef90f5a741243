import NullGuard.Analysis
import NullGuard.Proofs.ClosedHelpers

/-!
Where findings come from. A finding belongs to an `if` statement inside a method, and what it lists are
parameters of that method which the condition names. Helpers that the valuation looks into, in whatever
method they are nested, leave no parameter of theirs behind.
-/
namespace NullGuard

theorem nodup_eraseDups {α : Type} [DecidableEq α] (l : List α) : l.eraseDups.Nodup := by
  induction size : l.length using Nat.strongRecOn generalizing l with
  | ind size ih =>
  cases l with
  | nil => exact List.nodup_nil
  | cons a l =>
    rw [List.eraseDups_cons, List.nodup_cons]
    refine ⟨by simp [List.mem_eraseDups], ih _ ?_ _ rfl⟩
    have shorter := List.length_filter_le (fun b => !b == a) l
    rw [List.length_cons] at size
    omega

namespace CompilationUnit

/-- What a finding was reported on: a statement, its condition, and the check that the condition is. -/
structure Origin (u : CompilationUnit) (limit : Int) (f : Finding) (statement condition : Place)
    (check : NullCheck Param) : Prop where
  met : statement ∈ u.places
  isIf : statement.node.kind = .ifStatement
  hasCondition : statement.child? .condition = some condition
  checked : (u.valuation limit condition).nullCheck? = some check
  reported : f = u.finding statement.node check

variable {u : CompilationUnit} {limit : Int} {f : Finding} {statement condition : Place}
  {check : NullCheck Param}

theorem exists_origin (member : f ∈ u.findings limit) :
    ∃ statement condition check, u.Origin limit f statement condition check := by
  obtain ⟨⟨n, outcome⟩, checked, found⟩ := List.mem_filterMap.1 member
  obtain ⟨check, known, rfl⟩ := Option.map_eq_some_iff.1 found
  obtain ⟨statement, met, checked⟩ := List.mem_filterMap.1 checked
  split at checked
  next isIf =>
    obtain ⟨condition, hasCondition, same⟩ := Option.map_eq_some_iff.1 checked
    cases same
    exact ⟨statement, condition, check, met, isIf, hasCondition, known, rfl⟩
  · cases checked

namespace Origin

theorem check_eq (origin : u.Origin limit f statement condition check) :
    u.resolver.check u.name limit.toNat (some []) .all (u.conditionAt condition) = some check := by
  rw [← Expr.nullCheck?_eq_check]
  exact origin.checked

/-- What the check lists are reference-typed parameters of the method around the statement, which
identifiers in the condition name. -/
theorem of_mem_params (origin : u.Origin limit f statement condition check)
    (lists : u.ArgumentLists) {x : Param} (listed : x ∈ check.params) :
    ∃ m, u.enclosingMethod? statement.above = some m ∧ x ∈ m.params ∧ x.isReference = true ∧
      ∃ q ∈ Place.walk [condition], q.node.kind = .identifier ∧ u.text q.node = x.name := by
  have below := Place.mem_children_of_child? origin.hasCondition
  have met := mem_places_of_children origin.met below
  have mentioned := Resolver.mem_references_of_check origin.check_eq listed
  obtain ⟨m, enclosing, formal, isReference, q, reaches, named⟩ :=
    lists.of_mem_references met mentioned
  have outside : statement.node.kind.isMethod = false := by rw [origin.isIf]; rfl
  rw [Place.above_of_mem_children below, enclosingMethod?_cons outside] at enclosing
  have inside : q ∈ Place.walk [condition] :=
    Place.mem_walk_iff.2 ⟨condition, List.mem_singleton_self _, reaches⟩
  exact ⟨m, enclosing, formal, isReference, q, inside, named⟩

end Origin

end CompilationUnit

/-- A finding lists, each once, parameters of the method around its statement that the condition
names, and at least one; the check behind it rests on nothing that belongs to another method. -/
theorem params_of_mem_findings (u : CompilationUnit) (lists : u.ArgumentLists) (limit : Int)
    (f : Finding) (member : f ∈ u.findings limit) :
    ∃ statement condition check m, u.Origin limit f statement condition check ∧
      m ∈ u.methods ∧ u.enclosingMethod? statement.above = some m ∧
      (∃ declaration, statement.above.find? (·.kind.isMethod) = some declaration ∧
        m.span = declaration.span) ∧
      f.params ≠ [] ∧ f.params.Nodup ∧
      (∀ name ∈ f.params,
        (∃ formal ∈ m.params, formal.name = name ∧ formal.isReference = true) ∧
          ∃ q ∈ Place.walk [condition], q.node.kind = .identifier ∧ u.text q.node = name) ∧
      ∀ x ∈ check.params, x ∈ m.params ∧
        ∀ other ∈ u.methods, other.span ≠ m.span → x ∉ other.params := by
  obtain ⟨statement, condition, check, origin⟩ := CompilationUnit.exists_origin member
  -- The check lists something, and what it lists leads to the method around the statement.
  obtain ⟨first, listed⟩ :=
    List.exists_mem_of_ne_nil _ (Resolver.params_ne_nil_of_check origin.check_eq)
  obtain ⟨m, enclosing, -⟩ := origin.of_mem_params lists listed
  obtain ⟨indexed, nearest⟩ := CompilationUnit.enclosingMethod?_eq_some enclosing
  have belongs : ∀ x ∈ check.params, x ∈ m.params ∧ x.isReference = true ∧
      ∃ q ∈ Place.walk [condition], q.node.kind = .identifier ∧ u.text q.node = x.name := by
    intro x listed
    obtain ⟨m', enclosing', rest⟩ := origin.of_mem_params lists listed
    cases enclosing.symm.trans enclosing'
    exact rest
  have params : f.params = (check.params.map (·.name)).eraseDups := by rw [origin.reported]; rfl
  refine ⟨statement, condition, check, m, origin, indexed, enclosing, nearest, ?_, ?_, ?_, ?_⟩
  · rw [params]
    exact List.ne_nil_of_mem (List.mem_eraseDups.2 (List.mem_map_of_mem listed))
  · rw [params]
    exact nodup_eraseDups _
  · intro name shown
    rw [params] at shown
    obtain ⟨x, listed, rfl⟩ := List.mem_map.1 (List.mem_eraseDups.1 shown)
    obtain ⟨formal, isReference, named⟩ := belongs x listed
    exact ⟨⟨x, formal, rfl, isReference⟩, named⟩
  · intro x listed
    obtain ⟨formal, -⟩ := belongs x listed
    refine ⟨formal, fun other among differ foreign => differ ?_⟩
    rw [← CompilationUnit.method_of_mem_params among foreign,
      ← CompilationUnit.method_of_mem_params indexed formal]

/-- The condition calls a helper that compares its own parameter; the finding is about the parameter
of the caller. -/
theorem params_of_mem_findings_nestedUnit :
    let f : Finding := ⟨1, 101, ⟨100, 114⟩, false, ["p"]⟩
    nestedUnit.ArgumentLists ∧ f ∈ nestedUnit.findings 30 ∧
      ∃ statement condition check m, nestedUnit.Origin 30 f statement condition check ∧
        m ∈ nestedUnit.methods ∧ nestedUnit.enclosingMethod? statement.above = some m ∧
        (∃ formal ∈ m.params, formal.name = "p" ∧ formal.isReference = true) ∧
        ∀ x ∈ check.params, x ∈ m.params := by
  intro f
  have found : nestedUnit.findings 30 = [f] := by
    rw [CompilationUnit.findings_eq_checkAt?, nestedUnit.eq_inOrder (by decide +kernel)]
    decide +kernel
  have member : f ∈ nestedUnit.findings 30 := by rw [found]; exact List.mem_singleton_self f
  obtain ⟨statement, condition, check, m, origin, indexed, enclosing, -, -, -, names, belongs⟩ :=
    params_of_mem_findings nestedUnit nestedUnit_argumentLists 30 f member
  exact ⟨nestedUnit_argumentLists, member, statement, condition, check, m, origin, indexed, enclosing,
    (names "p" (List.mem_singleton_self "p")).1, fun x listed => (belongs x listed).1⟩

end NullGuard
