import Mathlib.Data.Option.Basic
import NullGuard.Resolution
import NullGuard.Proofs.Declarations
import NullGuard.Proofs.Scoping

/-!
The helpers of a unit are closed. A call resolves to a method whose body is one returned expression,
and the nearest method above that expression is the method itself, even if it is nested in another one
whose parameters have the same names. So the body refers to formals of the helper only, and those are
distinct, as they are numbered.
-/
namespace NullGuard

namespace Method

/-- The returned expression stands in a `return` statement in the block of the method. -/
theorem above_of_returned? {m : Method} {returned : Place} (found : m.returned? = some returned) :
    ∃ statement body : Place, body ∈ m.place.children ∧ body.node.kind = .block ∧
      statement ∈ body.children ∧ statement.node.kind = .returnStatement ∧
      returned ∈ statement.children := by
  obtain ⟨body, hasBody, found⟩ := Option.bind_eq_some_iff.1 found
  obtain ⟨_, isBlock, found⟩ := Option.bind_eq_some_iff.1 found
  split at found
  next statement only =>
    obtain ⟨_, isReturn, found⟩ := Option.bind_eq_some_iff.1 found
    have statementBelow : statement ∈ body.codeChildren := only ▸ List.mem_singleton_self statement
    have below : returned ∈ statement.codeChildren := List.mem_of_head? found
    refine ⟨statement, body, Place.mem_children_of_child? hasBody, ?_,
      Place.mem_children_of_codeChildren statementBelow, ?_,
      Place.mem_children_of_codeChildren below⟩
    · exact (Option.guard_eq_some' _).1 isBlock
    · exact (Option.guard_eq_some' _).1 isReturn
  · cases found

end Method

namespace CompilationUnit

variable {u : CompilationUnit} {m : Method} {helper : Helper Param CallSite}

theorem helperOf?_eq_some (built : u.helperOf? m = some helper) :
    ∃ returned, m.returned? = some returned ∧
      helper = { name := m.name, formals := m.params, body := some (u.conditionAt returned)
                 unit := u.name } := by
  unfold helperOf? at built
  split at built
  · obtain ⟨returned, found, rfl⟩ := Option.map_eq_some_iff.1 built
    exact ⟨returned, found, rfl⟩
  · cases built

/-- The returned expression of a method is met in the tree, and the method is the one around it. -/
theorem DistinctSpans.enclosingMethod?_returned (distinct : u.DistinctSpans) (member : m ∈ u.methods)
    {returned : Place} (found : m.returned? = some returned) :
    returned ∈ u.places ∧ u.enclosingMethod? returned.above = some m := by
  obtain ⟨met, declares⟩ := place_of_mem_methods member
  obtain ⟨statement, body, hasBody, isBlock, hasStatement, isReturn, below⟩ :=
    Method.above_of_returned? found
  refine ⟨mem_places_of_children
    (mem_places_of_children (mem_places_of_children met hasBody) hasStatement) below, ?_⟩
  have outsideStatement : statement.node.kind.isMethod = false := by rw [isReturn]; rfl
  have outsideBody : body.node.kind.isMethod = false := by rw [isBlock]; rfl
  rw [Place.above_of_mem_children below, enclosingMethod?_cons outsideStatement,
    Place.above_of_mem_children hasStatement, enclosingMethod?_cons outsideBody,
    Place.above_of_mem_children hasBody]
  have nearest : (m.place.node :: m.place.above).find? (·.kind.isMethod) = some m.node :=
    List.find?_cons_of_pos declares
  rw [enclosingMethod?, nearest]
  exact distinct.methodAt?_span member

end CompilationUnit

/-- A call is resolved to a helper of the unit with distinct, numbered formals and a body that refers
to nothing but reference-typed formals of the helper. -/
theorem closed_of_lookup (u : CompilationUnit) (distinct : u.DistinctSpans) (lists : u.ArgumentLists)
    (site : CallSite) (arity : Nat) (helper : Helper Param CallSite)
    (found : u.resolver.lookup site arity = .found helper) :
    helper.formals.Nodup ∧
      (∀ i (inside : i < helper.formals.length), helper.formals[i].position = i) ∧
      helper.unit = u.name ∧
      ∃ body, helper.body = some body ∧
        ∀ x ∈ body.references, x ∈ helper.formals ∧ x.isReference = true := by
  obtain ⟨m, member, built⟩ := List.mem_filterMap.1 (CompilationUnit.mem_of_lookup found)
  obtain ⟨returned, returns, rfl⟩ := CompilationUnit.helperOf?_eq_some built
  refine ⟨CompilationUnit.nodup_params member, CompilationUnit.position_params member, rfl,
    u.conditionAt returned, rfl, ?_⟩
  intro x mentioned
  obtain ⟨met, around⟩ := distinct.enclosingMethod?_returned member returns
  obtain ⟨m', enclosing, formal, isReference, -⟩ := lists.of_mem_references met mentioned
  cases around.symm.trans enclosing
  exact ⟨formal, isReference⟩

/-- A helper `n` with the parameter `o`. -/
def nestedHelper : Node :=
  .mk { kind := .method } ⟨39, 80⟩ [
    .mk { kind := .booleanType, field := some .type } ⟨39, 46⟩ [],
    .mk { kind := .identifier, field := some .name } ⟨47, 48⟩ [],
    .mk { kind := .other "formal_parameters", field := some .parameters } ⟨48, 58⟩ [
      .mk { kind := .formalParameter } ⟨49, 57⟩ [
        .mk { kind := .other "type_identifier", field := some .type } ⟨49, 55⟩ [],
        .mk { kind := .identifier, field := some .name } ⟨56, 57⟩ []]],
    .mk { kind := .block, field := some .body } ⟨59, 80⟩ [
      .mk { kind := .returnStatement } ⟨61, 78⟩ [
        .mk { kind := .binary } ⟨68, 77⟩ [
          .mk { kind := .identifier, field := some .left } ⟨68, 69⟩ [],
          .mk { kind := .equalEqual, named := false, field := some .operator } ⟨70, 72⟩ [],
          .mk { kind := .nullLiteral, field := some .right } ⟨73, 77⟩ []]]]]

/-- A method `z` that calls `n` in a condition. -/
def nestedCaller : Node :=
  .mk { kind := .method } ⟨81, 116⟩ [
    .mk { kind := .other "void_type", field := some .type } ⟨81, 85⟩ [],
    .mk { kind := .identifier, field := some .name } ⟨86, 87⟩ [],
    .mk { kind := .other "formal_parameters", field := some .parameters } ⟨87, 97⟩ [
      .mk { kind := .formalParameter } ⟨88, 96⟩ [
        .mk { kind := .other "type_identifier", field := some .type } ⟨88, 94⟩ [],
        .mk { kind := .identifier, field := some .name } ⟨95, 96⟩ []]],
    .mk { kind := .block, field := some .body } ⟨98, 116⟩ [
      .mk { kind := .ifStatement } ⟨100, 114⟩ [
        .mk { kind := .parenthesized, field := some .condition } ⟨103, 109⟩ [
          .mk { kind := .invocation } ⟨104, 108⟩ [
            .mk { kind := .identifier, field := some .name } ⟨104, 105⟩ [],
            .mk { kind := .other "argument_list", field := some .arguments } ⟨105, 108⟩ [
              .mk { kind := .identifier } ⟨106, 107⟩ []]]],
        .mk { kind := .other "expression_statement", field := some .consequence } ⟨110, 114⟩ [
          .mk { kind := .invocation } ⟨110, 113⟩ [
            .mk { kind := .identifier, field := some .name } ⟨110, 111⟩ [],
            .mk { kind := .other "argument_list", field := some .arguments } ⟨111, 113⟩ []]]]]]

/-- Both in an anonymous class, which is in a method with a parameter `o` too. -/
def nestedTree : Node :=
  .mk { kind := .other "program" } ⟨0, 123⟩ [
    .mk { kind := .other "class_declaration" } ⟨0, 123⟩ [
      .mk { kind := .identifier, field := some .name } ⟨6, 7⟩ [],
      .mk { kind := .classBody, field := some .body } ⟨8, 123⟩ [
        .mk { kind := .method } ⟨10, 121⟩ [
          .mk { kind := .other "void_type", field := some .type } ⟨10, 14⟩ [],
          .mk { kind := .identifier, field := some .name } ⟨15, 16⟩ [],
          .mk { kind := .other "formal_parameters", field := some .parameters } ⟨16, 26⟩ [
            .mk { kind := .formalParameter } ⟨17, 25⟩ [
              .mk { kind := .other "type_identifier", field := some .type } ⟨17, 23⟩ [],
              .mk { kind := .identifier, field := some .name } ⟨24, 25⟩ []]],
          .mk { kind := .block, field := some .body } ⟨27, 121⟩ [
            .mk { kind := .other "expression_statement" } ⟨29, 119⟩ [
              .mk { kind := .creation } ⟨29, 118⟩ [
                .mk { kind := .other "type_identifier", field := some .type } ⟨33, 34⟩ [],
                .mk { kind := .other "argument_list", field := some .arguments } ⟨34, 36⟩ [],
                .mk { kind := .classBody } ⟨37, 118⟩ [
                  nestedHelper,
                  nestedCaller]]]]]]]]

def nestedUnit : CompilationUnit where
  source := ("class A \x7b void m(Object o) \x7b new B() \x7b " ++
    "boolean n(Object o) \x7b return o == null; \x7d " ++
    "void z(Object p) \x7b if (n(p)) b(); \x7d \x7d; \x7d \x7d").toList.map Char.toUInt8
  tree.root := nestedTree

/-- The call of `n` in `z`. -/
def nestedCall : CallSite where
  span := ⟨104, 108⟩
  name := some "n"
  receiver := .implicit
  scopes := [⟨⟨37, 118⟩, none⟩, ⟨⟨8, 123⟩, some "A"⟩]

theorem nestedUnit_distinctSpans : nestedUnit.DistinctSpans := by
  have spans : (nestedTree.places.filter (·.node.kind.isMethod)).map (·.node.span) =
      [⟨10, 121⟩, ⟨39, 80⟩, ⟨81, 116⟩] := by decide +kernel
  have distinct : [Span.mk 10 121, ⟨39, 80⟩, ⟨81, 116⟩].Nodup := by decide
  rw [← spans] at distinct
  exact distinct

theorem nestedUnit_argumentLists : nestedUnit.ArgumentLists := by
  have lists : (nestedTree.places.all fun p =>
      p.node.field ≠ some .arguments || p.node.kind.name = "argument_list") = true := by decide +kernel
  intro p met field
  simpa [field] using List.all_eq_true.1 lists p met

/-- The body of the helper means its own parameter, not that of the method around it. -/
theorem closed_of_lookup_nestedUnit :
    let own : Param := ⟨⟨39, 80⟩, "n", "o", 0, "Object", true⟩
    let outer : Param := ⟨⟨10, 121⟩, "m", "o", 0, "Object", true⟩
    let helper : Helper Param CallSite :=
      { name := "n", formals := [own], body := some (.compare (.param own) .null false) }
    nestedUnit.DistinctSpans ∧ nestedUnit.ArgumentLists ∧
      nestedUnit.resolver.lookup nestedCall 1 = .found helper ∧
      helper.formals.Nodup ∧ own.position = 0 ∧ helper.unit = nestedUnit.name ∧
      ∃ body, helper.body = some body ∧ own ∈ body.references ∧ outer ∉ body.references := by
  intro own outer helper
  have found : nestedUnit.resolver.lookup nestedCall 1 = .found helper := by
    rw [nestedUnit.eq_inOrder (by decide +kernel)]
    decide +kernel
  obtain ⟨distinct, positions, unit, body, has, closed⟩ := closed_of_lookup nestedUnit
    nestedUnit_distinctSpans nestedUnit_argumentLists nestedCall 1 helper found
  refine ⟨nestedUnit_distinctSpans, nestedUnit_argumentLists, found, distinct,
    positions 0 (by decide), unit, body, has, ?_, ?_⟩
  · cases has
    decide
  · intro mentioned
    exact absurd (closed outer mentioned).1 (by decide)

end NullGuard
