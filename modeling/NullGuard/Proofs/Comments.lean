import NullGuard.Analysis
import NullGuard.Proofs.Declarations
import NullGuard.Proofs.Renaming
import NullGuard.Proofs.Thinning

/-!
Comments do not count. A unit and the same unit with comments left out of its tree have methods,
conditions and helpers that correspond, with parameters paired by their declaration, so every check
comes out the same.
-/
namespace NullGuard

namespace CompilationUnit

/-- The second unit is the first one with some bare comments left out of its tree. -/
structure Thins (u u' : CompilationUnit) : Prop where
  source : u.source = u'.source
  name : u.name = u'.name
  tree : u.tree.root.Thins u'.tree.root

/-- Two parameters of the units that differ at most in their types. -/
structure Pairs (u u' : CompilationUnit) (x x' : Param) : Prop where
  left : ∃ m ∈ u.methods, x ∈ m.params
  right : ∃ m' ∈ u'.methods, x' ∈ m'.params
  untyped : x.untyped = x'.untyped

/-- A method of the first unit and the same method of the second. -/
structure Matches (u u' : CompilationUnit) (m m' : Method) : Prop where
  left : m ∈ u.methods
  right : m' ∈ u'.methods
  thins : m.Thins m'

/-- Where declarations have distinct spans, the span of its method and its position tell a parameter
from all others. -/
theorem DistinctSpans.eq_of_untyped {u : CompilationUnit} (distinct : u.DistinctSpans) {x y : Param}
    (first : ∃ m ∈ u.methods, x ∈ m.params) (second : ∃ m ∈ u.methods, y ∈ m.params)
    (same : x.untyped = y.untyped) : x = y := by
  obtain ⟨m, member, formal⟩ := first
  obtain ⟨m', member', formal'⟩ := second
  obtain ⟨method, -, -, position, -⟩ := Param.untyped_eq_iff.1 same
  have span : m.span = m'.span := by
    rw [← method_of_mem_params member formal, ← method_of_mem_params member' formal', method]
  have sameMethod : m = m' := by
    have found := distinct.methodAt?_span member
    rw [span, distinct.methodAt?_span member'] at found
    exact (Option.some.inj found).symm
  subst sameMethod
  have positions : (m.params.map (·.position)).Nodup := by
    rw [map_position_params member]
    exact List.nodup_range
  exact List.inj_on_of_nodup_map positions formal formal' position

namespace Thins

variable {u u' : CompilationUnit}

theorem text_eq (thins : u.Thins u') {n n' : Node} (same : n.Thins n') : u.text n = u'.text n' := by
  rw [text, text, thins.source, same.text_eq]

theorem distinctSpans (thins : u.Thins u') (distinct : u.DistinctSpans) : u'.DistinctSpans := by
  have spans := thins.tree.methodPlaces.map_eq fun p p' same => same.node.span_eq
  unfold DistinctSpans places at distinct ⊢
  rw [← spans]
  exact distinct

/-- The pairing of parameters is one to one. -/
theorem biUnique (thins : u.Thins u') (distinct : u.DistinctSpans) :
    Relator.BiUnique (Pairs u u') := by
  constructor
  · intro x y x' first second
    exact distinct.eq_of_untyped first.left second.left (first.untyped.trans second.untyped.symm)
  · intro x x' y' first second
    have distinct' := thins.distinctSpans distinct
    exact distinct'.eq_of_untyped first.right second.right (first.untyped.symm.trans second.untyped)

theorem methods (thins : u.Thins u') : List.Forall₂ (Matches u u') u.methods u'.methods := by
  have each : List.Forall₂ Method.Thins u.methods u'.methods := by
    rw [u.methods_eq, u'.methods_eq, thins.source]
    exact Method.readAll_thins thins.tree u'.source
  exact each.with_mem.imp fun m m' both => ⟨both.1, both.2.1, both.2.2⟩

end Thins

/-- The parameters of matching methods are paired in order. -/
theorem Matches.params {u u' : CompilationUnit} {m m' : Method} (same : Matches u u' m m') :
    List.Forall₂ (Pairs u u') m.params m'.params := by
  have untyped : List.Forall₂ (fun x x' => x.untyped = x'.untyped) m.params m'.params := by
    rw [← List.forall₂_map_right_iff, ← List.forall₂_map_left_iff, List.forall₂_eq_eq_eq]
    exact same.thins.params
  refine untyped.with_mem.imp fun x x' both => ?_
  obtain ⟨formal, formal', untyped⟩ := both
  exact ⟨⟨m, same.left, formal⟩, ⟨m', same.right, formal'⟩, untyped⟩

namespace Thins

variable {u u' : CompilationUnit} {above above' : List Node}

theorem enclosingMethod? (thins : u.Thins u') (around : List.Forall₂ Node.Thins above above') :
    Option.Rel (Matches u u') (u.enclosingMethod? above) (u'.enclosingMethod? above') := by
  have nearest := around.find? (p := (·.kind.isMethod)) (q := (·.kind.isMethod))
    fun a b same => by rw [same.kind_eq]
  refine nearest.bind fun n n' same => ?_
  refine (List.rel_reverse thins.methods).find? fun m m' both => ?_
  rw [both.thins.span_eq, same.span_eq]

/-- An identifier names the same parameter. -/
theorem paramNamed? (thins : u.Thins u') (around : List.Forall₂ Node.Thins above above')
    {n n' : Node} (same : n.Thins n') :
    Option.Rel (Pairs u u') (u.paramNamed? above n) (u'.paramNamed? above' n') := by
  refine (thins.enclosingMethod? around).bind fun m m' both => ?_
  refine both.params.find? fun x x' pair => ?_
  obtain ⟨-, -, name, -, -⟩ := Param.untyped_eq_iff.1 pair.untyped
  rw [name, thins.text_eq same]

theorem receiver_eq (thins : u.Thins u') {n n' : Node} (same : n.Thins n') :
    u.receiver n = u'.receiver n' := by
  have object := same.child? .object
  unfold receiver
  generalize n.child? .object = x, n'.child? .object = x' at object
  cases object with
  | none => rfl
  | some object =>
    dsimp only
    rw [object.kind_eq, thins.text_eq object]

theorem callSite_eq (thins : u.Thins u') (around : List.Forall₂ Node.Thins above above')
    {n n' : Node} (same : n.Thins n') : u.callSite above n = u'.callSite above' n' := by
  have name : (n.child? .name).map u.text = (n'.child? .name).map u'.text :=
    (same.child? .name).map_eq fun _ _ => thins.text_eq
  have scopes : u.scopes above = u'.scopes above' := by
    rw [CompilationUnit.scopes, CompilationUnit.scopes, thins.source, Scope.among_eq around]
  rw [callSite, callSite, same.span_eq, name, thins.receiver_eq same, scopes]

/-- What is kept of a node as text only is the same. -/
theorem other (thins : u.Thins u') {n n' : Node} (same : n.Thins n') :
    Expr.Renames (κ := CallSite) (Pairs u u') (.other (u.text n)) (.other (u'.text n')) := by
  rw [thins.text_eq same]
  exact .other _

section OneNode

variable {label : Label} {span : Span} {children kept : List Node}

theorem parenthesized (thins : u.Thins u')
    (each : Thinned Node.Thins Node.isBareComment children kept) (kind : label.kind = .parenthesized)
    (inner : List.Forall₂ (Expr.Renames (Pairs u u'))
      (u.conditions (.mk label span children :: above) children)
      (u'.conditions (.mk label span kept :: above') kept)) :
    (u.condition above (.mk label span children)).Renames (Pairs u u')
      (u'.condition above' (.mk label span kept)) := by
  have text := thins.other (.mk label span each)
  rw [CompilationUnit.condition, CompilationUnit.condition, kind]
  dsimp only
  generalize u.conditions _ children = list, u'.conditions _ kept = list' at inner
  cases inner with
  | nil => exact text
  | cons only rest =>
    cases rest with
    | nil => exact .paren only
    | cons second others => exact text

theorem unary (thins : u.Thins u') (each : Thinned Node.Thins Node.isBareComment children kept)
    (kind : label.kind = .unary)
    (operand : Option.Rel (Expr.Renames (Pairs u u'))
      (u.conditionIn (.mk label span children :: above) .operand children)
      (u'.conditionIn (.mk label span kept :: above') .operand kept)) :
    (u.condition above (.mk label span children)).Renames (Pairs u u')
      (u'.condition above' (.mk label span kept)) := by
  have text := thins.other (.mk label span each)
  have operator := (Node.Thins.mk label span each).operator?_eq
  rw [CompilationUnit.condition, CompilationUnit.condition, kind]
  dsimp only
  rw [operator]
  generalize u.conditionIn _ .operand children = e, u'.conditionIn _ .operand kept = e' at operand
  rcases Node.operator? _ with _ | op
  · exact text
  · cases operand with
    | none => cases op <;> exact text
    | some operand =>
      cases op with
      | bang => exact .not operand
      | _ => exact text

theorem binary (thins : u.Thins u') (each : Thinned Node.Thins Node.isBareComment children kept)
    (kind : label.kind = .binary)
    (operands : ∀ f, Option.Rel (Expr.Renames (Pairs u u'))
      (u.conditionIn (.mk label span children :: above) f children)
      (u'.conditionIn (.mk label span kept :: above') f kept)) :
    (u.condition above (.mk label span children)).Renames (Pairs u u')
      (u'.condition above' (.mk label span kept)) := by
  have text := thins.other (.mk label span each)
  have operator := (Node.Thins.mk label span each).operator?_eq
  have left := operands .left
  have right := operands .right
  rw [CompilationUnit.condition, CompilationUnit.condition, kind]
  dsimp only
  rw [operator]
  generalize u.conditionIn _ .left children = l, u'.conditionIn _ .left kept = l' at left
  generalize u.conditionIn _ .right children = r, u'.conditionIn _ .right kept = r' at right
  rcases Node.operator? _ with _ | op
  · exact text
  · cases left with
    | none => exact text
    | some left =>
      cases right with
      | none => exact text
      | some right =>
        cases op with
        | andAnd => exact .connect .and left right
        | orOr => exact .connect .or left right
        | equalEqual => exact .compare left right false
        | bangEqual => exact .compare left right true
        | _ => exact text

theorem identifier (thins : u.Thins u') (around : List.Forall₂ Node.Thins above above')
    (each : Thinned Node.Thins Node.isBareComment children kept) (kind : label.kind = .identifier) :
    (u.condition above (.mk label span children)).Renames (Pairs u u')
      (u'.condition above' (.mk label span kept)) := by
  have text := thins.other (.mk label span each)
  have named := thins.paramNamed? around (.mk label span each)
  rw [CompilationUnit.condition, CompilationUnit.condition, kind]
  dsimp only
  generalize u.paramNamed? _ _ = x, u'.paramNamed? _ _ = x' at named
  cases named with
  | none => exact text
  | some pair =>
    obtain ⟨-, -, -, -, isReference⟩ := Param.untyped_eq_iff.1 pair.untyped
    dsimp only
    rw [isReference]
    split
    · exact .param pair
    · exact text

end OneNode

mutual

/-- The expression at a node is the same one, with the parameters paired. -/
theorem condition (thins : u.Thins u') {above above' : List Node}
    (around : List.Forall₂ Node.Thins above above') {n n' : Node} (same : n.Thins n') :
    (u.condition above n).Renames (Pairs u u') (u'.condition above' n') := by
  cases same with
  | @mk label span children kept each =>
    have same := Node.Thins.mk label span each
    have inside := List.Forall₂.cons same around
    have inner := conditions thins inside each
    have entries := arguments thins inside each
    have operands := fun f => conditionIn thins inside f each
    cases kind : label.kind with
    | parenthesized => exact thins.parenthesized each kind inner
    | unary => exact thins.unary each kind (operands .operand)
    | binary => exact thins.binary each kind operands
    | identifier => exact thins.identifier around each kind
    | nullLiteral =>
      rw [CompilationUnit.condition, CompilationUnit.condition, kind]
      exact .null
    | invocation =>
      rw [CompilationUnit.condition, CompilationUnit.condition, kind, thins.callSite_eq around same]
      exact .call _ entries
    | _ =>
      rw [CompilationUnit.condition, CompilationUnit.condition, kind]
      exact thins.other same
termination_by sizeOf n

theorem conditions (thins : u.Thins u') {above above' : List Node}
    (around : List.Forall₂ Node.Thins above above') {ns ms : List Node}
    (each : Thinned Node.Thins Node.isBareComment ns ms) :
    List.Forall₂ (Expr.Renames (Pairs u u')) (u.conditions above ns) (u'.conditions above' ms) := by
  cases each with
  | nil => exact .nil
  | keep same rest =>
    have first := condition thins around same
    have others := conditions thins around rest
    rw [CompilationUnit.conditions, CompilationUnit.conditions, Node.isCode, Node.isCode,
      Node.named, Node.named, same.label_eq, same.kind_eq]
    split
    · exact .cons first others
    · exact others
  | drop comment rest =>
    have others := conditions thins around rest
    rw [CompilationUnit.conditions, Node.isCode, Node.isComment_of_isBareComment comment,
      Bool.not_true, Bool.and_false, if_neg Bool.false_ne_true]
    exact others
termination_by sizeOf ns

theorem conditionIn (thins : u.Thins u') {above above' : List Node}
    (around : List.Forall₂ Node.Thins above above') (f : Field) {ns ms : List Node}
    (each : Thinned Node.Thins Node.isBareComment ns ms) :
    Option.Rel (Expr.Renames (Pairs u u')) (u.conditionIn above f ns)
      (u'.conditionIn above' f ms) := by
  cases each with
  | nil => exact .none
  | keep same rest =>
    have first := condition thins around same
    have others := conditionIn thins around f rest
    rw [CompilationUnit.conditionIn, CompilationUnit.conditionIn, Node.field, Node.field,
      same.label_eq]
    split
    · exact .some first
    · exact others
  | drop comment rest =>
    have others := conditionIn thins around f rest
    rw [CompilationUnit.conditionIn, Node.field_of_isBareComment comment, if_neg (by simp)]
    exact others
termination_by sizeOf ns

theorem arguments (thins : u.Thins u') {above above' : List Node}
    (around : List.Forall₂ Node.Thins above above') {ns ms : List Node}
    (each : Thinned Node.Thins Node.isBareComment ns ms) :
    List.Forall₂ (Expr.Renames (Pairs u u')) (u.arguments above ns) (u'.arguments above' ms) := by
  cases each with
  | nil => exact .nil
  | keep same rest =>
    have others := arguments thins around rest
    cases same with
    | mk label span below =>
      have entries := conditions thins (.cons (.mk label span below) around) below
      rw [CompilationUnit.arguments, CompilationUnit.arguments]
      split
      · exact entries
      · exact others
  | @drop n _ _ comment rest =>
    have others := arguments thins around rest
    obtain ⟨label, span, children⟩ := n
    have unfilled : label.field = none := Node.field_of_isBareComment comment
    rw [CompilationUnit.arguments, unfilled, if_neg (by simp)]
    exact others
termination_by sizeOf ns

end

theorem conditionAt (thins : u.Thins u') {p p' : Place} (same : p.Thins p') :
    (u.conditionAt p).Renames (Pairs u u') (u'.conditionAt p') :=
  thins.condition same.above same.node

/-- Matching methods are matching helpers. -/
theorem helperOf? (thins : u.Thins u') {m m' : Method} (same : Matches u u' m m') :
    Option.Rel (Helper.Renames (Pairs u u')) (u.helperOf? m) (u'.helperOf? m') := by
  have returned := same.thins.returned?
  rw [CompilationUnit.helperOf?, CompilationUnit.helperOf?, same.thins.returnsBoolean_eq]
  refine .ite rfl (returned.map fun p p' place => ?_)
  exact ⟨same.thins.name, same.params, .some (thins.conditionAt place), thins.name⟩

/-- A call finds matching methods in the same type body. -/
theorem declared? (thins : u.Thins u') (site : CallSite) (name : String) :
    Option.Rel (List.Forall₂ (Matches u u')) (u.declared? site name) (u'.declared? site name) := by
  unfold CompilationUnit.declared?
  induction site.candidates with
  | nil => exact .none
  | cons scope scopes ih =>
    have methods : List.Forall₂ (Matches u u') (u.methodsNamed scope.span name)
        (u'.methodsNamed scope.span name) :=
      thins.methods.filter fun m m' same => by rw [same.thins.scope?_eq, same.thins.name]
    rw [List.findSome?_cons, List.findSome?_cons]
    generalize u.methodsNamed scope.span name = list, u'.methodsNamed scope.span name = list'
      at methods
    cases methods with
    | nil => exact ih
    | cons first rest => exact .some (.cons first rest)

/-- A call means the same helper. -/
theorem resolver (thins : u.Thins u') : u.resolver.Renames (Pairs u u') u'.resolver := by
  intro site arity
  change Option.Rel _ (u.lookup site arity).helper? (u'.lookup site arity).helper?
  unfold lookup
  cases site.name with
  | none => exact .none
  | some name =>
    have declared := thins.declared? site name
    dsimp only
    generalize u.declared? site name = found, u'.declared? site name = found' at declared
    cases declared with
    | none => exact .none
    | @some methods methods' each =>
      dsimp only
      have fitting := each.filter (p := fun m => !m.isConstructor && m.params.length = arity)
        (q := fun m => !m.isConstructor && m.params.length = arity) fun m m' same => by
          rw [same.thins.isConstructor_eq, same.thins.length_params]
      generalize methods.filter _ = list, methods'.filter _ = list' at fitting
      cases fitting with
      | nil => exact .none
      | cons only rest =>
        cases rest with
        | cons second others => exact .none
        | nil =>
          have helper := thins.helperOf? only
          dsimp only
          generalize u.helperOf? _ = h, u'.helperOf? _ = h' at helper
          cases helper with
          | none => exact .none
          | some helper => exact .some helper

/-- The expression at a place is a check of the same value that rests on the paired parameters. -/
theorem nullCheck? (thins : u.Thins u') (distinct : u.DistinctSpans) (limit : Int) {p p' : Place}
    (same : p.Thins p') :
    Option.Rel (NullCheck.Renames (Pairs u u')) (u.valuation limit p).nullCheck?
      (u'.valuation limit p').nullCheck? := by
  have pairing := thins.biUnique distinct
  have checks := (thins.conditionAt same).nullCheck? thins.resolver pairing u.name limit
  rw [valuation, valuation, ← thins.name]
  exact checks

theorem findingAt? (thins : u.Thins u') (distinct : u.DistinctSpans) (limit : Int) {p p' : Place}
    (same : p.Thins p') : Option.Rel Eq (u.findingAt? limit p) (u'.findingAt? limit p') := by
  unfold CompilationUnit.findingAt?
  rw [same.node.kind_eq]
  split
  · refine (same.child? .condition).bind fun condition condition' place => ?_
    refine (thins.nullCheck? distinct limit place).map fun check check' renamed => ?_
    have names : check.params.map (·.name) = check'.params.map (·.name) :=
      renamed.params.map_eq fun x x' pair => (Param.untyped_eq_iff.1 pair.untyped).2.2.1
    rw [finding, finding, thins.source, same.node.span_eq, renamed.value, names]
  · exact .none

theorem findings_eq (thins : u.Thins u') (distinct : u.DistinctSpans) (limit : Int) :
    u.findings limit = u'.findings limit := by
  rw [findings_eq_filterMap, findings_eq_filterMap, ← List.forall₂_eq_eq_eq]
  refine thins.tree.places.filterMap (fun p p' same => thins.findingAt? distinct limit same) ?_
  intro p comment
  rw [CompilationUnit.findingAt?, if_neg (Node.kind_ne_of_isBareComment comment _ rfl)]

end Thins

end CompilationUnit

/-- Where declarations of methods have distinct spans, leaving bare comments out of the tree changes no
finding. The methods keep their names and their parameters, up to the text of a type, and every call
means the helper that it meant. -/
theorem findings_of_thins (u u' : CompilationUnit) (thins : u.Thins u') (distinct : u.DistinctSpans) :
    (∀ limit, u'.findings limit = u.findings limit) ∧
      (u'.methods.map fun m => (m.span, m.name, m.params.map Param.untyped)) =
        (u.methods.map fun m => (m.span, m.name, m.params.map Param.untyped)) ∧
      ∀ site arity,
        (u'.lookup site arity).helper?.map (fun h => (h.name, h.formals.map Param.untyped)) =
          (u.lookup site arity).helper?.map fun h => (h.name, h.formals.map Param.untyped) := by
  refine ⟨fun limit => (thins.findings_eq distinct limit).symm, ?_, fun site arity => ?_⟩
  · refine (thins.methods.map_eq fun m m' same => ?_).symm
    rw [same.thins.span_eq, same.thins.name, same.thins.params]
  · have means := thins.resolver site arity
    refine (means.map_eq fun h h' same => ?_).symm
    have formals : h.formals.map Param.untyped = h'.formals.map Param.untyped :=
      same.formals.map_eq fun x x' pair => pair.untyped
    rw [same.name, formals]

/-- A helper and a call of it with comments all over. -/
def commented : Bytes :=
  ("class A\x7bboolean n(final/*a*/Object... x/*b*/)\x7breturn/*c*/x==null;/*d*/\x7d" ++
    "void m(Object o)\x7bif(/*e*/n(/*f*/o)/*g*/)b();\x7d\x7d").toList.map Char.toUInt8

def commentAt (pos : Nat) : Node := .mk { kind := .blockComment } ⟨pos, pos + 5⟩ []

def commentedTree : Node :=
  .mk { kind := .other "class_declaration" } ⟨0, 117⟩ [
    .mk { kind := .identifier, field := some .name } ⟨6, 7⟩ [],
    .mk { kind := .classBody, field := some .body } ⟨7, 117⟩ [
      .mk { kind := .method } ⟨8, 71⟩ [
        .mk { kind := .booleanType, field := some .type } ⟨8, 15⟩ [],
        .mk { kind := .identifier, field := some .name } ⟨16, 17⟩ [],
        .mk { kind := .other "formal_parameters", field := some .parameters } ⟨17, 45⟩ [
          .mk { kind := .spreadParameter } ⟨18, 39⟩ [
            .mk { kind := .modifiers } ⟨18, 23⟩ [],
            commentAt 23,
            .mk { kind := .other "type_identifier" } ⟨28, 34⟩ [],
            .mk { kind := .declarator } ⟨38, 39⟩ [
              .mk { kind := .identifier, field := some .name } ⟨38, 39⟩ []]],
          commentAt 39],
        .mk { kind := .block, field := some .body } ⟨45, 71⟩ [
          .mk { kind := .returnStatement } ⟨46, 65⟩ [
            commentAt 52,
            .mk { kind := .binary } ⟨57, 64⟩ [
              .mk { kind := .identifier, field := some .left } ⟨57, 58⟩ [],
              .mk { kind := .equalEqual, named := false, field := some .operator } ⟨58, 60⟩ [],
              .mk { kind := .nullLiteral, field := some .right } ⟨60, 64⟩ []]],
          commentAt 65]],
      .mk { kind := .method } ⟨71, 116⟩ [
        .mk { kind := .other "void_type", field := some .type } ⟨71, 75⟩ [],
        .mk { kind := .identifier, field := some .name } ⟨76, 77⟩ [],
        .mk { kind := .other "formal_parameters", field := some .parameters } ⟨77, 87⟩ [
          .mk { kind := .formalParameter } ⟨78, 86⟩ [
            .mk { kind := .other "type_identifier", field := some .type } ⟨78, 84⟩ [],
            .mk { kind := .identifier, field := some .name } ⟨85, 86⟩ []]],
        .mk { kind := .block, field := some .body } ⟨87, 116⟩ [
          .mk { kind := .ifStatement } ⟨88, 115⟩ [
            .mk { kind := .parenthesized, field := some .condition } ⟨90, 111⟩ [
              commentAt 91,
              .mk { kind := .invocation } ⟨96, 105⟩ [
                .mk { kind := .identifier, field := some .name } ⟨96, 97⟩ [],
                .mk { kind := .other "argument_list", field := some .arguments } ⟨97, 105⟩ [
                  commentAt 98,
                  .mk { kind := .identifier } ⟨103, 104⟩ []]],
              commentAt 105],
            .mk { kind := .other "expression_statement", field := some .consequence } ⟨111, 115⟩ []]]]]]

def commentedUnit : CompilationUnit where
  source := commented
  tree.root := commentedTree

/-- The unit with all comments left out of the tree. -/
def strippedUnit : CompilationUnit where
  source := commented
  tree.root := commentedTree.strip fun _ => true

theorem commentedUnit_thins : commentedUnit.Thins strippedUnit :=
  ⟨rfl, rfl, Node.thins_strip _ commentedTree⟩

theorem commentedUnit_distinctSpans : commentedUnit.DistinctSpans := by
  have spans : (commentedTree.places.filter (·.node.kind.isMethod)).map (·.node.span) =
      [⟨8, 71⟩, ⟨71, 116⟩] := by decide +kernel
  have distinct : [Span.mk 8 71, ⟨71, 116⟩].Nodup := by decide
  rw [← spans] at distinct
  exact distinct

/-- The comment in front of the type of `x` is taken for the type, and still nothing is found that is
not found without it. -/
theorem findings_of_thins_commentedUnit :
    commentedUnit.Thins strippedUnit ∧ commentedUnit.DistinctSpans ∧
      commentedUnit.methods.map (fun m => m.params.map (·.typeName)) = [["/*a*/"], ["Object"]] ∧
      strippedUnit.methods.map (fun m => m.params.map (·.typeName)) = [["Object"], ["Object"]] ∧
      strippedUnit.findings 30 = [⟨1, 89, ⟨88, 115⟩, false, ["o"]⟩] := by
  have found : commentedUnit.findings 30 = [⟨1, 89, ⟨88, 115⟩, false, ["o"]⟩] := by
    rw [CompilationUnit.findings_eq_checkAt?, commentedUnit.eq_inOrder (by decide +kernel)]
    decide +kernel
  obtain ⟨same, -, -⟩ := findings_of_thins commentedUnit strippedUnit commentedUnit_thins
    commentedUnit_distinctSpans
  refine ⟨commentedUnit_thins, commentedUnit_distinctSpans, ?_, ?_, ?_⟩
  · rw [commentedUnit.eq_inOrder (by decide +kernel)]
    decide +kernel
  · rw [strippedUnit.eq_inOrder (by decide +kernel)]
    decide +kernel
  · rw [same, found]

end NullGuard
