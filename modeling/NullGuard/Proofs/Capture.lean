import NullGuard.Analysis
import NullGuard.Proofs.Declarations
import NullGuard.Proofs.Scoping

/-!
What lies between an identifier and the method whose parameter it is taken for. Of the nodes above the
identifier only the nearest declaration of a method counts. A type body in between is passed by,
whatever fields it declares: from an initializer of a class in a method the parameters of the method
are seen, also those that a field of the class hides. Only inside a method of the class they are not.
-/
namespace NullGuard

theorem Kind.isMethod_of_isTypeBody {kind : Kind} (body : kind.isTypeBody = true) :
    kind.isMethod = false := by
  cases kind with
  | classBody | interfaceBody | enumBody | annotationBody => rfl
  | _ => cases body

/-- The type bodies above a place, up to the nearest method declared at the span. -/
def Node.bodiesWithin (declaration : Span) (above : List Node) : List Node :=
  (above.takeWhile fun n => !(n.kind.isMethod && n.span = declaration)).filter (·.kind.isTypeBody)

/-- Where the nearest method is declared at the span, these are the type bodies up to any method. -/
theorem Node.bodiesWithin_eq {above : List Node} {declaration : Node}
    (nearest : above.find? (·.kind.isMethod) = some declaration) :
    bodiesWithin declaration.span above =
      (above.takeWhile fun n => !n.kind.isMethod).filter (·.kind.isTypeBody) := by
  suffices same : (above.takeWhile fun n => !(n.kind.isMethod && n.span = declaration.span)) =
      above.takeWhile fun n => !n.kind.isMethod by
    rw [bodiesWithin, same]
  induction above with
  | nil => rfl
  | cons n above ih =>
    rw [List.takeWhile_cons, List.takeWhile_cons]
    rw [List.find?_cons] at nearest
    cases isMethod : n.kind.isMethod with
    | true =>
      rw [isMethod] at nearest
      cases nearest
      simp
    | false =>
      rw [isMethod] at nearest
      rw [Bool.false_and, Bool.not_false, if_pos rfl, ih nearest, if_pos rfl]

/-- The nodes in front of the first method are those with no method in front of them. -/
theorem Node.mem_takeWhile_iff {above : List Node} {body : Node} (isNone : body.kind.isMethod = false) :
    (body ∈ above.takeWhile fun n => !n.kind.isMethod) ↔
      ∃ inner outer, above = inner ++ body :: outer ∧ inner.any (·.kind.isMethod) = false := by
  constructor
  · intro member
    obtain ⟨inner, rest, split⟩ := List.append_of_mem member
    have whole := List.takeWhile_append_dropWhile (p := fun n : Node => !n.kind.isMethod) (l := above)
    have free := List.all_takeWhile (p := fun n : Node => !n.kind.isMethod) (l := above)
    rw [split] at whole free
    refine ⟨inner, rest ++ above.dropWhile fun n => !n.kind.isMethod, by simpa using whole.symm, ?_⟩
    rw [List.all_append, Bool.and_eq_true] at free
    simpa using free.1
  · rintro ⟨inner, outer, rfl, free⟩
    have passed : ∀ n ∈ inner, (!n.kind.isMethod) = true := by simpa using free
    rw [List.takeWhile_append_of_pos passed, List.takeWhile_cons, isNone]
    exact List.mem_append_right inner List.mem_cons_self

/-- A test fails on the type bodies up to the nearest method exactly if each type body that passes it
has a method in front of it. -/
theorem Node.forall_bodiesWithin_iff {above : List Node} {declaration : Node}
    (nearest : above.find? (·.kind.isMethod) = some declaration) (test : Node → Bool) :
    (∀ body ∈ bodiesWithin declaration.span above, test body = false) ↔
      ∀ inner body outer, above = inner ++ body :: outer → body.kind.isTypeBody = true →
        test body = true → inner.any (·.kind.isMethod) = true := by
  rw [bodiesWithin_eq nearest]
  constructor
  · intro fails inner body outer split isBody passes
    by_contra free
    have between := (mem_takeWhile_iff (Kind.isMethod_of_isTypeBody isBody)).2
      ⟨inner, outer, split, by simpa using free⟩
    rw [fails body (List.mem_filter.2 ⟨between, isBody⟩)] at passes
    cases passes
  · intro shielded body within
    obtain ⟨between, isBody⟩ := List.mem_filter.1 within
    obtain ⟨inner, outer, split, free⟩ :=
      (mem_takeWhile_iff (Kind.isMethod_of_isTypeBody isBody)).1 between
    by_contra passes
    have inside := shielded inner body outer split isBody (by simpa using passes)
    rw [free] at inside
    cases inside

namespace CompilationUnit

variable {u : CompilationUnit}

/-- A type body declares a field of the name. -/
def declaresField (u : CompilationUnit) (body : Node) (name : String) : Bool :=
  body.children.any fun member => member.kind = .other "field_declaration" &&
    member.children.any fun n => n.kind = .declarator && n.declaredName?.any (u.text · = name)

/-- What lies below the nearest method plays no part. -/
theorem paramNamed?_append_right {inner : List Node} (outside : inner.any (·.kind.isMethod) = false)
    (outer : List Node) (identifier : Node) :
    u.paramNamed? (inner ++ outer) identifier = u.paramNamed? outer identifier := by
  have free : inner.find? (·.kind.isMethod) = none := by
    simpa using outside
  rw [paramNamed?, paramNamed?, enclosingMethod?, enclosingMethod?, List.find?_append, free,
    Option.none_or]

/-- What lies above the nearest method plays no part. -/
theorem paramNamed?_append_left {inner : List Node} (inside : inner.any (·.kind.isMethod) = true)
    (outer : List Node) (identifier : Node) :
    u.paramNamed? (inner ++ outer) identifier = u.paramNamed? inner identifier := by
  have found : (inner.find? (·.kind.isMethod)).isSome = true := by
    simpa using inside
  rw [paramNamed?, paramNamed?, enclosingMethod?, enclosingMethod?, List.find?_append,
    Option.or_of_isSome found]

end CompilationUnit

/-- An identifier that is taken for a parameter is taken for the one of its name in the nearest method.
A type body around it counts only through its methods: with one of them around the identifier what is
outside of the body plays no part, and without one the same parameter is meant outside of the body,
whatever fields the body declares. So the type bodies up to the method are free of fields of the name
exactly if each type body that declares one has a method of its own around the identifier. -/
theorem paramNamed?_bodies (u : CompilationUnit) (above : List Node) (identifier : Node) (x : Param)
    (named : u.paramNamed? above identifier = some x) :
    (∃ m ∈ u.methods, x ∈ m.params ∧ x.name = u.text identifier ∧ x.method = m.span ∧
      (above.find? (·.kind.isMethod)).map (·.span) = some m.span) ∧
    (∀ inner body outer, above = inner ++ body :: outer → body.kind.isTypeBody = true →
      (inner.any (·.kind.isMethod) = true → u.paramNamed? inner identifier = some x) ∧
        (inner.any (·.kind.isMethod) = false → u.paramNamed? outer identifier = some x)) ∧
    ((∀ body ∈ Node.bodiesWithin x.method above, u.declaresField body (u.text identifier) = false) ↔
      ∀ inner body outer, above = inner ++ body :: outer → body.kind.isTypeBody = true →
        u.declaresField body (u.text identifier) = true → inner.any (·.kind.isMethod) = true) := by
  obtain ⟨m, enclosing, formal, sameName⟩ := CompilationUnit.mem_params_of_paramNamed? named
  obtain ⟨member, declaration, nearest, span⟩ := CompilationUnit.enclosingMethod?_eq_some enclosing
  have method := CompilationUnit.method_of_mem_params member formal
  refine ⟨⟨m, member, formal, sameName, method, by rw [nearest, span, Option.map_some]⟩, ?_, ?_⟩
  · rintro inner body outer rfl isBody
    constructor
    · intro inside
      rw [← named]
      exact (CompilationUnit.paramNamed?_append_left inside _ _).symm
    · intro free
      have outside : (inner ++ [body]).any (·.kind.isMethod) = false := by
        simp [free, Kind.isMethod_of_isTypeBody isBody]
      rw [← named, List.append_cons]
      exact (CompilationUnit.paramNamed?_append_right outside _ _).symm
  · rw [method, span]
    exact Node.forall_bodiesWithin_iff nearest _

/-- A method with a parameter `o` and in it a class with a field `o`, whose initializer compares the
field to null. The members given are the last ones of the inner class. -/
def hidingUnit (text : String) (members : List Node) : CompilationUnit where
  source :=
    ("class A \x7b void m(Object o) \x7b new B() \x7b Object o = f(); \x7b if (o == null) g(); \x7d " ++
      text ++ "\x7d; \x7d \x7d").toList.map Char.toUInt8
  tree.root :=
    .mk { kind := .other "program" } ⟨0, text.length + 85⟩ [
      .mk { kind := .other "class_declaration" } ⟨0, text.length + 85⟩ [
        .mk { kind := .identifier, field := some .name } ⟨6, 7⟩ [],
        .mk { kind := .classBody, field := some .body } ⟨8, text.length + 85⟩ [
          .mk { kind := .method } ⟨10, text.length + 83⟩ [
            .mk { kind := .other "void_type", field := some .type } ⟨10, 14⟩ [],
            .mk { kind := .identifier, field := some .name } ⟨15, 16⟩ [],
            .mk { kind := .other "formal_parameters", field := some .parameters } ⟨16, 26⟩ [
              .mk { kind := .formalParameter } ⟨17, 25⟩ [
                .mk { kind := .other "type_identifier", field := some .type } ⟨17, 23⟩ [],
                .mk { kind := .identifier, field := some .name } ⟨24, 25⟩ []]],
            .mk { kind := .block, field := some .body } ⟨27, text.length + 83⟩ [
              .mk { kind := .other "expression_statement" } ⟨29, text.length + 81⟩ [
                .mk { kind := .creation } ⟨29, text.length + 80⟩ [
                  .mk { kind := .other "type_identifier", field := some .type } ⟨33, 34⟩ [],
                  .mk { kind := .other "argument_list", field := some .arguments } ⟨34, 36⟩ [],
                  .mk { kind := .classBody } ⟨37, text.length + 80⟩ ([
                    .mk { kind := .other "field_declaration" } ⟨39, 54⟩ [
                      .mk { kind := .other "type_identifier", field := some .type } ⟨39, 45⟩ [],
                      .mk { kind := .declarator, field := some (.other "declarator") } ⟨46, 53⟩ [
                        .mk { kind := .identifier, field := some .name } ⟨46, 47⟩ [],
                        .mk { kind := .invocation, field := some (.other "value") } ⟨50, 53⟩ [
                          .mk { kind := .identifier, field := some .name } ⟨50, 51⟩ [],
                          .mk { kind := .other "argument_list", field := some .arguments } ⟨51, 53⟩ []]]],
                    .mk { kind := .block } ⟨55, 78⟩ [
                      .mk { kind := .ifStatement } ⟨57, 76⟩ [
                        .mk { kind := .parenthesized, field := some .condition } ⟨60, 71⟩ [
                          .mk { kind := .binary } ⟨61, 70⟩ [
                            .mk { kind := .identifier, field := some .left } ⟨61, 62⟩ [],
                            .mk { kind := .equalEqual, named := false, field := some .operator }
                              ⟨63, 65⟩ [],
                            .mk { kind := .nullLiteral, field := some .right } ⟨66, 70⟩ []]],
                        .mk { kind := .other "expression_statement", field := some .consequence }
                            ⟨72, 76⟩ [
                          .mk { kind := .invocation } ⟨72, 75⟩ [
                            .mk { kind := .identifier, field := some .name } ⟨72, 73⟩ [],
                            .mk { kind := .other "argument_list", field := some .arguments }
                              ⟨73, 75⟩ []]]]]] ++ members)]]]]]]]

/-- The comparison with the field is taken for one with the parameter that the field hides, and
reported. -/
theorem captured_hidingUnit :
    let u := hidingUnit "" []
    (∃ p ∈ u.places, p.node.kind = .identifier ∧ ∃ x, u.paramNamed? p.above p.node = some x ∧
      ∃ body ∈ Node.bodiesWithin x.method p.above, body.kind = .classBody ∧
        u.declaresField body (u.text p.node) = true) ∧
    u.findings 30 = [⟨1, 58, ⟨57, 76⟩, false, ["o"]⟩] := by
  intro u
  have found : ((u.places.filter (·.node.span = ⟨61, 62⟩)).any fun p =>
      p.node.kind = .identifier && (u.paramNamed? p.above p.node).any fun x =>
        (Node.bodiesWithin x.method p.above).any fun body =>
          body.kind = .classBody && u.declaresField body (u.text p.node)) = true := by decide +kernel
  refine ⟨?_, by rw [CompilationUnit.findings_eq_checkAt?]; decide +kernel⟩
  obtain ⟨p, among, found⟩ := List.any_eq_true.1 found
  have met := (List.mem_filter.1 among).1
  simp only [Bool.and_eq_true, decide_eq_true_eq, Option.any_eq_true, List.any_eq_true] at found
  obtain ⟨isIdentifier, x, named, body, within, isClass, declares⟩ := found
  exact ⟨p, met, isIdentifier, x, named, body, within, isClass, declares⟩

/-- The inner class with a method that has a parameter `o` too and compares it to null. -/
def shieldedUnit : CompilationUnit :=
  hidingUnit "void n(Object o) \x7b if (o == null) h(); \x7d " [
    .mk { kind := .method } ⟨79, 119⟩ [
      .mk { kind := .other "void_type", field := some .type } ⟨79, 83⟩ [],
      .mk { kind := .identifier, field := some .name } ⟨84, 85⟩ [],
      .mk { kind := .other "formal_parameters", field := some .parameters } ⟨85, 95⟩ [
        .mk { kind := .formalParameter } ⟨86, 94⟩ [
          .mk { kind := .other "type_identifier", field := some .type } ⟨86, 92⟩ [],
          .mk { kind := .identifier, field := some .name } ⟨93, 94⟩ []]],
      .mk { kind := .block, field := some .body } ⟨96, 119⟩ [
        .mk { kind := .ifStatement } ⟨98, 117⟩ [
          .mk { kind := .parenthesized, field := some .condition } ⟨101, 112⟩ [
            .mk { kind := .binary } ⟨102, 111⟩ [
              .mk { kind := .identifier, field := some .left } ⟨102, 103⟩ [],
              .mk { kind := .equalEqual, named := false, field := some .operator } ⟨104, 106⟩ [],
              .mk { kind := .nullLiteral, field := some .right } ⟨107, 111⟩ []]],
          .mk { kind := .other "expression_statement", field := some .consequence } ⟨113, 117⟩ []]]]]

/-- In the method the identifier is taken for the parameter of that method, and the field that the class
declares is hidden in turn. -/
theorem paramNamed?_bodies_shieldedUnit :
    let u := shieldedUnit
    let own : Param := ⟨⟨79, 119⟩, "n", "o", 0, "Object", true⟩
    ∃ p ∈ u.places, p.node.span = ⟨102, 103⟩ ∧ u.paramNamed? p.above p.node = some own ∧
      (∃ body ∈ p.above, u.declaresField body (u.text p.node) = true) ∧
      ∀ inner body outer, p.above = inner ++ body :: outer → body.kind.isTypeBody = true →
        u.declaresField body (u.text p.node) = true → inner.any (·.kind.isMethod) = true := by
  intro u own
  have found : ((u.places.filter (·.node.span = ⟨102, 103⟩)).any fun p =>
      u.paramNamed? p.above p.node = some own &&
        (p.above.any (fun body => u.declaresField body (u.text p.node)) &&
          (Node.bodiesWithin own.method p.above).all fun body =>
            !u.declaresField body (u.text p.node))) = true := by
    rw [u.eq_inOrder (by decide +kernel)]
    decide +kernel
  obtain ⟨p, among, found⟩ := List.any_eq_true.1 found
  obtain ⟨met, span⟩ := List.mem_filter.1 among
  simp only [Bool.and_eq_true, decide_eq_true_eq, List.any_eq_true, List.all_eq_true,
    Bool.not_eq_true'] at found
  obtain ⟨named, around, fieldless⟩ := found
  obtain ⟨-, -, shielded⟩ := paramNamed?_bodies u p.above p.node own named
  exact ⟨p, met, of_decide_eq_true span, named, around, shielded.1 fieldless⟩

end NullGuard
