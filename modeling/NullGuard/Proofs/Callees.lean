import Mathlib.Data.Option.Basic
import NullGuard.Resolution
import NullGuard.Proofs.Declarations

/-!
Which method a call means, said of the tree alone. A call looks at type bodies around it; the first of
them in which a method or constructor of its name is declared decides, and there exactly one method must
take as many parameters as the call has arguments. The lookup works on a sorted list of methods, which
it tells apart by the spans of type bodies; where no two type bodies and no two declarations share a
span, it finds just what the tree says.
-/
namespace NullGuard

namespace Place

/-- The places of nodes that are each below the next one. -/
def chain : List Node → List Place
  | [] => []
  | n :: above => ⟨n, above⟩ :: chain above

/-- The places around a place, the nearest first. -/
def around (p : Place) : List Place := chain p.above

/-- The type bodies around a place, the innermost first. -/
def typeBodies (p : Place) : List Place := p.around.filter (·.node.kind.isTypeBody)

/-- The nearest type body around a place. -/
def typeBody? (p : Place) : Option Place := p.around.find? (·.node.kind.isTypeBody)

theorem map_node_chain (above : List Node) : (chain above).map (·.node) = above := by
  induction above with
  | nil => rfl
  | cons n above ih => rw [chain, List.map_cons, ih]

theorem around_of_mem_children {p child : Place} (below : child ∈ p.children) :
    child.around = p :: p.around := by
  rw [around, above_of_mem_children below]
  rfl

theorem mem_around_of_typeBody? {p body : Place} (nearest : p.typeBody? = some body) :
    body ∈ p.around ∧ body.node.kind.isTypeBody = true := by
  unfold typeBody? at nearest
  have isBody := List.find?_some nearest
  exact ⟨List.mem_of_find?_eq_some nearest, isBody⟩

end Place

/-- A method, and no constructor, that takes so many arguments. -/
def Method.takes (m : Method) (arity : Nat) : Bool := !m.isConstructor && m.params.length = arity

theorem Method.takes_iff {m : Method} {arity : Nat} :
    m.takes arity = true ↔ m.node.kind ≠ .constructor ∧ m.params.length = arity := by
  simp [Method.takes, Method.isConstructor]

theorem Kind.eq_method_or_constructor {kind : Kind} (isMethod : kind.isMethod = true) :
    kind = .method ∨ kind = .constructor := by
  cases kind with
  | method => exact .inl rfl
  | constructor => exact .inr rfl
  | _ => cases isMethod

/-- Declarations of named types. -/
def Kind.declaresType (kind : Kind) : Bool :=
  ["class_declaration", "interface_declaration", "enum_declaration", "record_declaration",
    "annotation_type_declaration"].contains kind.name

/-- The number of arguments of a call, comments aside. -/
def Node.argumentCount (call : Node) : Nat :=
  ((call.child? .arguments).map (·.codeChildren.length)).getD 0

namespace CompilationUnit

/-- No two type bodies have the same span. -/
def DistinctBodies (u : CompilationUnit) : Prop :=
  ((u.places.filter (·.node.kind.isTypeBody)).map (·.node.span)).Nodup

/-- What the name of a node says. -/
def nameOf? (u : CompilationUnit) (n : Node) : Option String := (n.child? .name).map u.text

/-- The name of the type that a type body belongs to. Classes in the creation of an instance and in a
constant of an enum are anonymous. -/
def typeName? (u : CompilationUnit) (body : Place) : Option String :=
  body.above.head?.bind fun owner => bif owner.kind.declaresType then u.nameOf? owner else none

/-- The name that a type body is found by: that of whatever it belongs to, be it a type or a constant of
an enum, but for the creation of an instance. -/
def ownerName? (u : CompilationUnit) (body : Place) : Option String :=
  body.above.head?.bind fun owner => if owner.kind = .creation then none else u.nameOf? owner

/-- The type bodies that a call looks at, in order of preference, if type bodies are called by the names
given: without a receiver all those around it, on the instance the innermost, on a name the innermost
one of that name, on anything else none. -/
def calledBodies (u : CompilationUnit) (nameOf : Place → Option String) (call : Place) : List Place :=
  match call.node.child? .object with
  | none => call.typeBodies
  | some object =>
    match object.kind with
    | .self => call.typeBodies.take 1
    | .identifier => (call.typeBodies.find? (nameOf · = some (u.text object))).toList
    | _ => []

/-- A declaration of a method or constructor of the name whose nearest type body is the one given. -/
structure Declares (u : CompilationUnit) (body : Place) (name : String) (declaration : Place) :
    Prop where
  met : declaration ∈ u.places
  isMethod : declaration.node.kind.isMethod = true
  inside : declaration.typeBody? = some body
  named : u.nameOf? declaration.node = some name

/-- The parameters that a declaration declares. -/
def formals (u : CompilationUnit) (declaration : Place) : List Param :=
  ((Method.read? u.source declaration).map (·.params)).getD []

/-- A declaration of a method, and no constructor, that takes so many arguments. -/
structure Fits (u : CompilationUnit) (body : Place) (name : String) (arity : Nat)
    (declaration : Place) : Prop extends u.Declares body name declaration where
  isPlain : declaration.node.kind = .method
  arity : (u.formals declaration).length = arity

/-- The first of some type bodies in which a name is declared. -/
structure Decides (u : CompilationUnit) (looked : List Place) (name : String) (body : Place) :
    Prop where
  declares : ∃ declaration, u.Declares body name declaration
  first : ∃ before after, looked = before ++ body :: after ∧
    ∀ other ∈ before, ∀ declaration, ¬ u.Declares other name declaration

end CompilationUnit

/-- The declaration returns a Boolean and no array of them, and its body is a block with nothing in it,
comments aside, but a `return` statement whose expression is at `value`. -/
structure Place.Returns (declaration value : Place) : Prop where
  isBoolean : ∃ type, declaration.node.child? .type = some type ∧ type.kind = .booleanType
  noArray : declaration.node.child? .dimensions = none
  block : ∃ body statement, declaration.child? .body = some body ∧ body.node.kind = .block ∧
    body.codeChildren = [statement] ∧ statement.node.kind = .returnStatement ∧
    statement.codeChildren.head? = some value

namespace CompilationUnit

/-- A call that looks at the type bodies given means the one method of its name and number of arguments
in the body that decides, and that method returns the expression at `value`. -/
structure Means (u : CompilationUnit) (looked : List Place) (call : Node) (name : String)
    (body declaration value : Place) : Prop where
  named : u.nameOf? call = some name
  decides : u.Decides looked name body
  only : ∀ other, u.Fits body name call.argumentCount other ↔ other = declaration
  returns : declaration.Returns value

/-- The helper that a declaration and the expression that it returns make. -/
def helperAt (u : CompilationUnit) (name : String) (declaration value : Place) :
    Helper Param CallSite where
  name := name
  formals := u.formals declaration
  body := some (u.conditionAt value)
  unit := u.name

/-- What the call at a place is resolved to. -/
def callee? (u : CompilationUnit) (call : Place) : Option (Helper Param CallSite) :=
  match u.conditionAt call with
  | .call site args => (u.resolver.lookup site args.length).helper?
  | _ => none

variable {u : CompilationUnit}

theorem length_conditions (above ns : List Node) :
    (u.conditions above ns).length = (ns.filter (·.isCode)).length := by
  induction ns with
  | nil => rfl
  | cons n rest ih =>
    rw [conditions, List.filter_cons]
    split
    · rw [List.length_cons, List.length_cons, ih]
    · exact ih

theorem length_arguments (above ns : List Node) :
    (u.arguments above ns).length =
      ((ns.find? (·.field = some .arguments)).map (·.codeChildren.length)).getD 0 := by
  induction ns with
  | nil => rfl
  | cons n rest ih =>
    obtain ⟨label, span, children⟩ := n
    rw [arguments, List.find?_cons]
    by_cases filled : label.field = some .arguments
    · have first : (Node.mk label span children).field = some .arguments := filled
      rw [if_pos filled, length_conditions]
      simp only [first, decide_true]
      rfl
    · have other : ¬ (Node.mk label span children).field = some .arguments := filled
      rw [if_neg filled]
      simp only [other, decide_false]
      exact ih

/-- A call is resolved by where it stands and by the number of its arguments. -/
theorem callee?_eq {call : Place} (isCall : call.node.kind = .invocation) :
    u.callee? call =
      (u.lookup (u.callSite call.above call.node) call.node.argumentCount).helper? := by
  obtain ⟨⟨label, span, children⟩, above⟩ := call
  have kind : label.kind = .invocation := isCall
  have count : (u.arguments (.mk label span children :: above) children).length =
      (Node.mk label span children).argumentCount := length_arguments _ _
  rw [callee?, conditionAt, condition]
  simp only [kind]
  rw [count]
  rfl

theorem ownerOf_eq (body : Place) : Scope.ownerOf u.source body.above.head? = u.ownerName? body := by
  unfold Scope.ownerOf ownerName? nameOf?
  cases body.above.head? with
  | none => rfl
  | some owner =>
    simp only [Option.bind_eq_bind, Option.bind_some]
    cases owner.child? .name with
    | none => simp
    | some name => rfl

/-- A type body as the lookup sees it. -/
def scopeAt (u : CompilationUnit) (body : Place) : Scope := ⟨body.node.span, u.ownerName? body⟩

theorem among_eq (above : List Node) :
    Scope.among u.source above =
      ((Place.chain above).filter (·.node.kind.isTypeBody)).map u.scopeAt := by
  induction above with
  | nil => rfl
  | cons n above ih =>
    have owner : Scope.ownerOf u.source above.head? = u.ownerName? ⟨n, above⟩ := ownerOf_eq ⟨n, above⟩
    rw [Scope.among, Place.chain, List.filter_cons, owner, ih]
    split <;> rfl

/-- The candidates of a call are the type bodies that it looks at. -/
theorem candidates_eq (call : Place) :
    (u.callSite call.above call.node).candidates =
      (u.calledBodies u.ownerName? call).map u.scopeAt := by
  have scopes : (u.callSite call.above call.node).scopes = call.typeBodies.map u.scopeAt :=
    among_eq call.above
  have receiver : (u.callSite call.above call.node).receiver = u.receiver call.node := rfl
  unfold CallSite.candidates calledBodies
  rw [scopes, receiver, CompilationUnit.receiver]
  cases call.node.child? .object with
  | none => rfl
  | some object =>
    cases kind : object.kind with
    | self => simp only [kind, List.map_take]
    | identifier =>
      simp only [kind, List.take_one, List.head?_filter, List.find?_map]
      exact Option.toList_map
    | _ => simp only [kind, List.map_nil]

theorem mem_places_of_around {p q : Place} (met : p ∈ u.places) (outer : q ∈ p.around) :
    q ∈ u.places := by
  have reaches := mem_places_iff.1 met
  induction reaches with
  | refl => cases outer
  | @tail r child reached below ih =>
    have metParent : r ∈ u.places := mem_places_iff.2 reached
    rw [Place.around_of_mem_children below] at outer
    rcases List.mem_cons.1 outer with rfl | outer
    · exact metParent
    · exact ih metParent outer

/-- A call looks at type bodies of the unit only. -/
theorem of_mem_calledBodies {nameOf : Place → Option String} {call body : Place}
    (met : call ∈ u.places) (looked : body ∈ u.calledBodies nameOf call) :
    body ∈ u.places ∧ body.node.kind.isTypeBody = true := by
  have around : body ∈ call.typeBodies := by
    unfold calledBodies at looked
    split at looked
    · exact looked
    · split at looked
      · exact List.mem_of_mem_take looked
      · exact List.mem_of_find?_eq_some (Option.mem_toList.1 looked)
      · cases looked
  obtain ⟨outer, isBody⟩ := List.mem_filter.1 around
  exact ⟨mem_places_of_around met outer, isBody⟩

/-- Where type bodies have distinct spans, the span of the type body around a method tells which one
that is. -/
theorem DistinctBodies.scope?_eq_some_iff (distinct : u.DistinctBodies) {m : Method} {body : Place}
    (met : m.place ∈ u.places) (among : body ∈ u.places)
    (isBody : body.node.kind.isTypeBody = true) :
    m.scope? = some body.node.span ↔ m.place.typeBody? = some body := by
  have nearest : m.scope? = m.place.typeBody?.map (·.node.span) := by
    have above := Place.map_node_chain m.place.above
    rw [Method.scope?, ← above, List.find?_map, Option.map_map]
    rfl
  rw [nearest, Option.map_eq_some_iff]
  constructor
  · rintro ⟨other, found, same⟩
    obtain ⟨outer, isOther⟩ := Place.mem_around_of_typeBody? found
    have metOther := mem_places_of_around met outer
    have unique := List.inj_on_of_nodup_map distinct (List.mem_filter.2 ⟨metOther, isOther⟩)
      (List.mem_filter.2 ⟨among, isBody⟩) same
    rw [found, unique]
  · intro found
    exact ⟨body, found, rfl⟩

/-- A declaration is read as a method if it has a name. -/
theorem read?_eq (declaration : Place) :
    Method.read? u.source declaration =
      (u.nameOf? declaration.node).map fun name => ⟨declaration, name, u.formals declaration⟩ := by
  unfold formals nameOf? Method.read?
  cases declaration.node.child? .name <;> rfl

/-- The methods of a name in a type body are those declared there. -/
theorem DistinctBodies.mem_methodsNamed_iff (distinct : u.DistinctBodies) {body : Place}
    (among : body ∈ u.places) (isBody : body.node.kind.isTypeBody = true) {name : String}
    {m : Method} :
    m ∈ u.methodsNamed body.node.span name ↔
      ∃ declaration, u.Declares body name declaration ∧
        m = ⟨declaration, name, u.formals declaration⟩ := by
  unfold methodsNamed
  rw [List.mem_filter, Bool.and_eq_true, decide_eq_true_iff, decide_eq_true_iff]
  constructor
  · rintro ⟨member, inside, rfl⟩
    obtain ⟨declaration, declares, read⟩ := exists_of_mem_methods member
    obtain ⟨met, isMethod⟩ := List.mem_filter.1 declares
    rw [read?_eq] at read
    obtain ⟨name, named, rfl⟩ := Option.map_eq_some_iff.1 read
    exact ⟨declaration, ⟨met, isMethod, (distinct.scope?_eq_some_iff met among isBody).1 inside, named⟩,
      rfl⟩
  · rintro ⟨declaration, declares, rfl⟩
    have read : Method.read? u.source declaration =
        some ⟨declaration, name, u.formals declaration⟩ := by
      rw [read?_eq, declares.named, Option.map_some]
    have listed : declaration ∈ u.places.filter (·.node.kind.isMethod) :=
      List.mem_filter.2 ⟨declares.met, declares.isMethod⟩
    refine ⟨?_, (distinct.scope?_eq_some_iff declares.met among isBody).2 declares.inside, rfl⟩
    rw [u.methods_eq]
    exact List.mem_filterMap.2 ⟨declaration, List.mem_mergeSort.2 listed, read⟩

/-- Where declarations have distinct spans, no method is listed twice. -/
theorem DistinctSpans.nodup_methods (distinct : u.DistinctSpans) : u.methods.Nodup := by
  have places : (u.places.filter (·.node.kind.isMethod)).Nodup := .of_map _ distinct
  rw [u.methods_eq]
  refine .filterMap ?_ ((List.mergeSort_perm _ _).nodup_iff.2 places)
  intro p q m first second
  rw [← (Method.read?_eq_some first).1, (Method.read?_eq_some second).1]

/-- The methods of a type body that take so many arguments are those that a fitting declaration there
declares. -/
theorem DistinctBodies.mem_filter_methodsNamed_iff (distinct : u.DistinctBodies) {body : Place}
    (among : body ∈ u.places) (isBody : body.node.kind.isTypeBody = true) {name : String}
    {arity : Nat} {m : Method} :
    m ∈ (u.methodsNamed body.node.span name).filter (·.takes arity) ↔
      ∃ declaration, u.Fits body name arity declaration ∧
        m = ⟨declaration, name, u.formals declaration⟩ := by
  rw [List.mem_filter, distinct.mem_methodsNamed_iff among isBody, Method.takes_iff]
  constructor
  · rintro ⟨⟨declaration, declares, rfl⟩, isPlain, count⟩
    have kind : declaration.node.kind = .method :=
      (Kind.eq_method_or_constructor declares.isMethod).resolve_right isPlain
    exact ⟨declaration, ⟨declares, kind, count⟩, rfl⟩
  · rintro ⟨declaration, fits, rfl⟩
    have isPlain : declaration.node.kind ≠ .constructor := by simp [fits.isPlain]
    exact ⟨⟨declaration, fits.toDeclares, rfl⟩, isPlain, fits.arity⟩

/-- Exactly one method of a type body takes so many arguments if exactly one declaration there fits. -/
theorem filter_methodsNamed_eq_singleton_iff (bodies : u.DistinctBodies) (methods : u.DistinctSpans)
    {body : Place} (among : body ∈ u.places) (isBody : body.node.kind.isTypeBody = true)
    {name : String} {arity : Nat} {m : Method} :
    (u.methodsNamed body.node.span name).filter (·.takes arity) = [m] ↔
      ∃ declaration, m = ⟨declaration, name, u.formals declaration⟩ ∧
        ∀ other, u.Fits body name arity other ↔ other = declaration := by
  have fitting : ∀ m, m ∈ (u.methodsNamed body.node.span name).filter (·.takes arity) ↔
      ∃ declaration, u.Fits body name arity declaration ∧
        m = ⟨declaration, name, u.formals declaration⟩ :=
    fun _ => bodies.mem_filter_methodsNamed_iff among isBody
  constructor
  · intro only
    simp only [only, List.mem_singleton] at fitting
    obtain ⟨declaration, fits, rfl⟩ := (fitting m).1 rfl
    refine ⟨declaration, rfl, fun other => ⟨fun fits' => ?_, fun same => same ▸ fits⟩⟩
    exact congrArg Method.place ((fitting _).2 ⟨other, fits', rfl⟩)
  · rintro ⟨declaration, rfl, only⟩
    -- One member is not yet one entry: that needs the distinct spans of declarations.
    have nodup : ((u.methodsNamed body.node.span name).filter (·.takes arity)).Nodup :=
      (methods.nodup_methods.filter _).filter _
    rw [← List.perm_singleton, List.perm_ext_iff_of_nodup nodup (List.nodup_singleton _)]
    intro m
    simp only [fitting, only, List.mem_singleton, exists_eq_left]

end CompilationUnit

namespace Method

theorem returnsBoolean_iff {m : Method} :
    m.returnsBoolean = true ↔
      (∃ type, m.node.child? .type = some type ∧ type.kind = .booleanType) ∧
        m.node.child? .dimensions = none := by
  unfold returnsBoolean
  rw [Bool.and_eq_true, Option.isNone_iff_eq_none, Option.any_eq_true]
  simp only [decide_eq_true_iff]

theorem returned?_eq_some_iff {m : Method} {value : Place} :
    m.returned? = some value ↔
      ∃ body statement, m.place.child? .body = some body ∧ body.node.kind = .block ∧
        body.codeChildren = [statement] ∧ statement.node.kind = .returnStatement ∧
        statement.codeChildren.head? = some value := by
  unfold returned?
  simp only [Option.bind_eq_bind, Option.bind_eq_some_iff, Option.guard_eq_some']
  constructor
  · rintro ⟨body, hasBody, _, isBlock, found⟩
    split at found
    next statement only =>
      obtain ⟨_, isReturn, found⟩ := Option.bind_eq_some_iff.1 found
      exact ⟨body, statement, hasBody, isBlock, only, (Option.guard_eq_some' _).1 isReturn, found⟩
    · cases found
  · rintro ⟨body, statement, hasBody, isBlock, only, isReturn, found⟩
    refine ⟨body, hasBody, (), isBlock, ?_⟩
    simp only [only]
    exact Option.bind_eq_some_iff.2 ⟨(), (Option.guard_eq_some' _).2 isReturn, found⟩

end Method

theorem Lookup.helper?_eq_some_iff {ι κ : Type} {lookup : Lookup ι κ} {helper : Helper ι κ} :
    lookup.helper? = some helper ↔ lookup = .found helper := by
  cases lookup <;> simp [Lookup.helper?]

namespace CompilationUnit

variable {u : CompilationUnit}

theorem helperOf?_eq_some_iff {declaration : Place} {name : String}
    {helper : Helper Param CallSite} :
    u.helperOf? ⟨declaration, name, u.formals declaration⟩ = some helper ↔
      ∃ value, declaration.Returns value ∧ helper = u.helperAt name declaration value := by
  unfold helperOf?
  constructor
  · intro built
    split at built
    next returnsBoolean =>
      obtain ⟨isBoolean, noArray⟩ := Method.returnsBoolean_iff.1 returnsBoolean
      obtain ⟨value, returned, rfl⟩ := Option.map_eq_some_iff.1 built
      exact ⟨value, ⟨isBoolean, noArray, Method.returned?_eq_some_iff.1 returned⟩, rfl⟩
    · cases built
  · rintro ⟨value, returns, rfl⟩
    let m : Method := ⟨declaration, name, u.formals declaration⟩
    have returnsBoolean : m.returnsBoolean = true :=
      Method.returnsBoolean_iff.2 ⟨returns.isBoolean, returns.noArray⟩
    have returned : m.returned? = some value := Method.returned?_eq_some_iff.2 returns.block
    rw [if_pos returnsBoolean, returned]
    rfl

theorem lookup_eq_found_iff {site : CallSite} {arity : Nat} {helper : Helper Param CallSite} :
    u.lookup site arity = .found helper ↔
      ∃ name methods m, site.name = some name ∧ u.declared? site name = some methods ∧
        methods.filter (·.takes arity) = [m] ∧ u.helperOf? m = some helper := by
  unfold lookup Method.takes
  constructor
  · intro found
    split at found
    · cases found
    next name named =>
    split at found
    · cases found
    next methods declared =>
    split at found
    next m only =>
      split at found
      next helper built =>
        cases found
        exact ⟨name, methods, m, named, declared, only, built⟩
      · cases found
    · cases found
  · rintro ⟨name, methods, m, named, declared, only, built⟩
    simp only [named, declared, only, built]

/-- No method of a name is listed for a type body exactly if none is declared there. -/
theorem DistinctBodies.isEmpty_methodsNamed_iff (distinct : u.DistinctBodies) {body : Place}
    (among : body ∈ u.places) (isBody : body.node.kind.isTypeBody = true) {name : String} :
    (u.methodsNamed body.node.span name).isEmpty = true ↔
      ∀ declaration, ¬ u.Declares body name declaration := by
  rw [List.isEmpty_iff, List.eq_nil_iff_forall_not_mem]
  constructor
  · intro none declaration declares
    exact none _ ((distinct.mem_methodsNamed_iff among isBody).2 ⟨declaration, declares, rfl⟩)
  · intro none m member
    obtain ⟨declaration, declares, -⟩ := (distinct.mem_methodsNamed_iff among isBody).1 member
    exact none declaration declares

theorem declared?_eq (call : Place) (name : String) :
    u.declared? (u.callSite call.above call.node) name =
      (u.calledBodies u.ownerName? call).findSome? fun body =>
        if (u.methodsNamed body.node.span name).isEmpty then none
        else some (u.methodsNamed body.node.span name) := by
  unfold declared?
  rw [candidates_eq, List.findSome?_map]
  rfl

/-- The type body that decides is the one whose methods are considered. -/
theorem DistinctBodies.declared?_eq_some_iff (distinct : u.DistinctBodies) {call : Place}
    (met : call ∈ u.places) {name : String} {methods : List Method} :
    u.declared? (u.callSite call.above call.node) name = some methods ↔
      ∃ body, u.Decides (u.calledBodies u.ownerName? call) name body ∧
        methods = u.methodsNamed body.node.span name := by
  have empty : ∀ body ∈ u.calledBodies u.ownerName? call,
      (u.methodsNamed body.node.span name).isEmpty = true ↔
        ∀ declaration, ¬ u.Declares body name declaration := by
    intro body looked
    obtain ⟨among, isBody⟩ := of_mem_calledBodies met looked
    exact distinct.isEmpty_methodsNamed_iff among isBody
  rw [declared?_eq, List.findSome?_eq_some_iff]
  constructor
  · rintro ⟨before, body, after, whole, found, passed⟩
    rw [whole] at empty
    split at found
    · cases found
    next filled =>
      cases found
      refine ⟨body, ⟨?_, before, after, whole, ?_⟩, rfl⟩
      · by_contra none
        exact filled ((empty body (by simp)).2 (not_exists.1 none))
      · intro other member
        have skipped := passed other member
        split at skipped
        next vacant => exact (empty other (List.mem_append_left _ member)).1 vacant
        · cases skipped
  · rintro ⟨body, ⟨⟨declaration, declares⟩, before, after, whole, passed⟩, rfl⟩
    rw [whole] at empty
    refine ⟨before, body, after, whole, if_neg ?_, fun other member => if_pos ?_⟩
    · intro none
      exact (empty body (by simp)).1 none declaration declares
    · exact (empty other (List.mem_append_left _ member)).2 (passed other member)

theorem Decides.body_mem {nameOf : Place → Option String} {call body : Place} {name : String}
    (decides : u.Decides (u.calledBodies nameOf call) name body) (met : call ∈ u.places) :
    body ∈ u.places ∧ body.node.kind.isTypeBody = true := by
  obtain ⟨before, after, whole, -⟩ := decides.first
  have looked : body ∈ u.calledBodies nameOf call := by rw [whole]; simp
  exact of_mem_calledBodies met looked

/-- The receiver of a call, if it is a name, is not that of a constant of an enum in whose body the call
stands. -/
def TypeReceiver (u : CompilationUnit) (call : Place) : Prop :=
  ∀ object ∈ call.node.child? .object, ∀ body ∈ call.typeBodies,
    u.ownerName? body = some (u.text object) → u.typeName? body = some (u.text object)

instance (call : Place) : Decidable (u.TypeReceiver call) :=
  inferInstanceAs (Decidable (∀ object ∈ call.node.child? .object, ∀ body ∈ call.typeBodies,
    u.ownerName? body = some (u.text object) → u.typeName? body = some (u.text object)))

theorem ownerName?_of_typeName? {body : Place} {name : String}
    (named : u.typeName? body = some name) : u.ownerName? body = some name := by
  obtain ⟨owner, around, named⟩ := Option.bind_eq_some_iff.1 named
  cases declares : owner.kind.declaresType with
  | false =>
    rw [declares] at named
    cases named
  | true =>
    rw [declares, cond_true] at named
    have noCreation : ¬ owner.kind = .creation := by
      intro isCreation
      rw [isCreation] at declares
      exact absurd declares (by decide)
    rw [ownerName?, around, Option.bind_some, if_neg noCreation, named]

/-- On the name of a type, or without a name, a call looks at the same bodies by either kind of name. -/
theorem TypeReceiver.calledBodies_eq {call : Place} (receiver : u.TypeReceiver call) :
    u.calledBodies u.ownerName? call = u.calledBodies u.typeName? call := by
  unfold calledBodies
  cases on : call.node.child? .object with
  | none => rfl
  | some object =>
    have alike : ∀ body ∈ call.typeBodies, decide (u.ownerName? body = some (u.text object)) =
        decide (u.typeName? body = some (u.text object)) := fun body around =>
      decide_eq_decide.2 ⟨receiver object on body around, ownerName?_of_typeName?⟩
    have same : call.typeBodies.find? (u.ownerName? · = some (u.text object)) =
        call.typeBodies.find? (u.typeName? · = some (u.text object)) := by
      rw [← List.head?_filter, ← List.head?_filter, List.filter_congr alike]
    simp only [same]

/-! Helpers that are remembered. -/

/-- The helpers of methods by the spans of these, as far as they have been asked for. -/
abbrev HelperMemo := List (Span × Option (Helper Param CallSite))

/-- The helper of a method: the one remembered, else the one read off the method, which is remembered
from then on. -/
def consult (u : CompilationUnit) (memo : HelperMemo) (m : Method) :
    Option (Helper Param CallSite) × HelperMemo :=
  match memo.lookup m.span with
  | some helper => (helper, memo)
  | none => (u.helperOf? m, (m.span, u.helperOf? m) :: memo)

/-- The helpers of methods that are asked for one after another. -/
def consultAll (u : CompilationUnit) : HelperMemo → List Method → List (Option (Helper Param CallSite))
  | _, [] => []
  | memo, m :: rest => (u.consult memo m).1 :: u.consultAll (u.consult memo m).2 rest

/-- What is remembered for the span of a method is the helper of that method. -/
def Remembers (u : CompilationUnit) (memo : HelperMemo) : Prop :=
  ∀ m ∈ u.methods, ∀ helper, memo.lookup m.span = some helper → helper = u.helperOf? m

theorem DistinctSpans.remembers_consult (distinct : u.DistinctSpans) {memo : HelperMemo}
    (sound : u.Remembers memo) {m : Method} (member : m ∈ u.methods) :
    (u.consult memo m).1 = u.helperOf? m ∧ u.Remembers (u.consult memo m).2 := by
  unfold consult
  cases known : memo.lookup m.span with
  | some helper => exact ⟨sound m member helper known, sound⟩
  | none =>
    refine ⟨rfl, fun other member' helper found => ?_⟩
    rw [List.lookup_cons] at found
    by_cases same : other.span = m.span
    · -- Only the method itself has its span.
      have at_span := distinct.methodAt?_span member'
      rw [same, distinct.methodAt?_span member] at at_span
      cases at_span
      rw [beq_self_eq_true] at found
      exact (Option.some.inj found).symm
    · rw [beq_false_of_ne same] at found
      exact sound other member' helper found

/-- Where declarations have distinct spans, remembering helpers by spans changes no answer. -/
theorem DistinctSpans.consultAll_eq_map (distinct : u.DistinctSpans) {memo : HelperMemo}
    (sound : u.Remembers memo) {asked : List Method} (members : ∀ m ∈ asked, m ∈ u.methods) :
    u.consultAll memo asked = asked.map u.helperOf? := by
  induction asked generalizing memo with
  | nil => rfl
  | cons m rest ih =>
    obtain ⟨member, members⟩ := List.forall_mem_cons.1 members
    obtain ⟨answer, sound⟩ := distinct.remembers_consult sound member
    rw [consultAll, answer, ih sound members, List.map_cons]

end CompilationUnit

/-- A call is resolved to a helper exactly if the tree says so: the helper is made of the one method of
the name and number of arguments in the first type body that declares the name, among those that the
call looks at. A type body is found by the name of its type or of its constant of an enum; but for
constants named like the receiver, by the name of its type only. -/
theorem callee?_eq_some_iff (u : CompilationUnit) (bodies : u.DistinctBodies)
    (methods : u.DistinctSpans) (call : Place) (met : call ∈ u.places)
    (isCall : call.node.kind = .invocation) (helper : Helper Param CallSite) :
    (u.callee? call = some helper ↔
      ∃ name body declaration value,
          u.Means (u.calledBodies u.ownerName? call) call.node name body declaration value ∧
        helper = u.helperAt name declaration value) ∧
    (u.TypeReceiver call →
      (u.callee? call = some helper ↔
        ∃ name body declaration value,
          u.Means (u.calledBodies u.typeName? call) call.node name body declaration value ∧
          helper = u.helperAt name declaration value)) := by
  have found : u.callee? call = some helper ↔
      ∃ name body declaration value,
          u.Means (u.calledBodies u.ownerName? call) call.node name body declaration value ∧
        helper = u.helperAt name declaration value := by
    rw [CompilationUnit.callee?_eq isCall, Lookup.helper?_eq_some_iff,
      CompilationUnit.lookup_eq_found_iff]
    constructor
    · rintro ⟨name, _, m, named, declared, only, built⟩
      obtain ⟨body, decides, rfl⟩ := (bodies.declared?_eq_some_iff met).1 declared
      obtain ⟨among, isBody⟩ := decides.body_mem met
      obtain ⟨declaration, rfl, fits⟩ :=
        (CompilationUnit.filter_methodsNamed_eq_singleton_iff bodies methods among isBody).1 only
      obtain ⟨value, returns, rfl⟩ := CompilationUnit.helperOf?_eq_some_iff.1 built
      exact ⟨name, body, declaration, value, ⟨named, decides, fits, returns⟩, rfl⟩
    · rintro ⟨name, body, declaration, value, means, rfl⟩
      obtain ⟨among, isBody⟩ := means.decides.body_mem met
      exact ⟨name, _, _, means.named, (bodies.declared?_eq_some_iff met).2 ⟨body, means.decides, rfl⟩,
        (CompilationUnit.filter_methodsNamed_eq_singleton_iff bodies methods among isBody).2
          ⟨declaration, rfl, means.only⟩,
        CompilationUnit.helperOf?_eq_some_iff.2 ⟨value, means.returns, rfl⟩⟩
  refine ⟨found, fun receiver => ?_⟩
  rw [found, receiver.calledBodies_eq]

/-- A helper `n` in the body of a constant `A`. -/
def constantHelper : Node :=
  .mk { kind := .method } ⟨13, 54⟩ [
    .mk { kind := .booleanType, field := some .type } ⟨13, 20⟩ [],
    .mk { kind := .identifier, field := some .name } ⟨21, 22⟩ [],
    .mk { kind := .other "formal_parameters", field := some .parameters } ⟨22, 32⟩ [
      .mk { kind := .formalParameter } ⟨23, 31⟩ [
        .mk { kind := .other "type_identifier", field := some .type } ⟨23, 29⟩ [],
        .mk { kind := .identifier, field := some .name } ⟨30, 31⟩ []]],
    .mk { kind := .block, field := some .body } ⟨33, 54⟩ [
      .mk { kind := .returnStatement } ⟨35, 52⟩ [
        .mk { kind := .binary } ⟨42, 51⟩ [
          .mk { kind := .identifier, field := some .left } ⟨42, 43⟩ [],
          .mk { kind := .equalEqual, named := false, field := some .operator } ⟨44, 46⟩ [],
          .mk { kind := .nullLiteral, field := some .right } ⟨47, 51⟩ []]]]]

/-- A method next to it that calls `n` on the constant and on the enum. -/
def constantCaller : Node :=
  .mk { kind := .method } ⟨55, 109⟩ [
    .mk { kind := .other "void_type", field := some .type } ⟨55, 59⟩ [],
    .mk { kind := .identifier, field := some .name } ⟨60, 61⟩ [],
    .mk { kind := .other "formal_parameters", field := some .parameters } ⟨61, 71⟩ [
      .mk { kind := .formalParameter } ⟨62, 70⟩ [
        .mk { kind := .other "type_identifier", field := some .type } ⟨62, 68⟩ [],
        .mk { kind := .identifier, field := some .name } ⟨69, 70⟩ []]],
    .mk { kind := .block, field := some .body } ⟨72, 109⟩ [
      .mk { kind := .ifStatement } ⟨74, 90⟩ [
        .mk { kind := .parenthesized, field := some .condition } ⟨77, 85⟩ [
          .mk { kind := .invocation } ⟨78, 84⟩ [
            .mk { kind := .identifier, field := some .object } ⟨78, 79⟩ [],
            .mk { kind := .identifier, field := some .name } ⟨80, 81⟩ [],
            .mk { kind := .other "argument_list", field := some .arguments } ⟨81, 84⟩ [
              .mk { kind := .identifier } ⟨82, 83⟩ []]]],
        .mk { kind := .other "expression_statement", field := some .consequence } ⟨86, 90⟩ [
          .mk { kind := .invocation } ⟨86, 89⟩ [
            .mk { kind := .identifier, field := some .name } ⟨86, 87⟩ [],
            .mk { kind := .other "argument_list", field := some .arguments } ⟨87, 89⟩ []]]],
      .mk { kind := .ifStatement } ⟨91, 107⟩ [
        .mk { kind := .parenthesized, field := some .condition } ⟨94, 102⟩ [
          .mk { kind := .invocation } ⟨95, 101⟩ [
            .mk { kind := .identifier, field := some .object } ⟨95, 96⟩ [],
            .mk { kind := .identifier, field := some .name } ⟨97, 98⟩ [],
            .mk { kind := .other "argument_list", field := some .arguments } ⟨98, 101⟩ [
              .mk { kind := .identifier } ⟨99, 100⟩ []]]],
        .mk { kind := .other "expression_statement", field := some .consequence } ⟨103, 107⟩ [
          .mk { kind := .invocation } ⟨103, 106⟩ [
            .mk { kind := .identifier, field := some .name } ⟨103, 104⟩ [],
            .mk { kind := .other "argument_list", field := some .arguments } ⟨104, 106⟩ []]]]]]

/-- The helper `n` of the enum. -/
def enumHelper : Node :=
  .mk { kind := .method } ⟨113, 161⟩ [
    .mk { kind := .modifiers } ⟨113, 119⟩ [],
    .mk { kind := .booleanType, field := some .type } ⟨120, 127⟩ [],
    .mk { kind := .identifier, field := some .name } ⟨128, 129⟩ [],
    .mk { kind := .other "formal_parameters", field := some .parameters } ⟨129, 139⟩ [
      .mk { kind := .formalParameter } ⟨130, 138⟩ [
        .mk { kind := .other "type_identifier", field := some .type } ⟨130, 136⟩ [],
        .mk { kind := .identifier, field := some .name } ⟨137, 138⟩ []]],
    .mk { kind := .block, field := some .body } ⟨140, 161⟩ [
      .mk { kind := .returnStatement } ⟨142, 159⟩ [
        .mk { kind := .binary } ⟨149, 158⟩ [
          .mk { kind := .identifier, field := some .left } ⟨149, 150⟩ [],
          .mk { kind := .bangEqual, named := false, field := some .operator } ⟨151, 153⟩ [],
          .mk { kind := .nullLiteral, field := some .right } ⟨154, 158⟩ []]]]]

/-- An enum `E` with the constant, its own `n` and a method `a`. -/
def enumTree : Node :=
  .mk { kind := .other "program" } ⟨0, 183⟩ [
    .mk { kind := .other "enum_declaration" } ⟨0, 183⟩ [
      .mk { kind := .identifier, field := some .name } ⟨5, 6⟩ [],
      .mk { kind := .enumBody, field := some .body } ⟨7, 183⟩ [
        .mk { kind := .other "enum_constant" } ⟨9, 111⟩ [
          .mk { kind := .identifier, field := some .name } ⟨9, 10⟩ [],
          .mk { kind := .classBody, field := some .body } ⟨11, 111⟩ [
            constantHelper,
            constantCaller]],
        .mk { kind := .other "enum_body_declarations" } ⟨111, 181⟩ [
          enumHelper,
          .mk { kind := .method } ⟨162, 181⟩ [
            .mk { kind := .modifiers } ⟨162, 168⟩ [],
            .mk { kind := .other "void_type", field := some .type } ⟨169, 173⟩ [],
            .mk { kind := .identifier, field := some .name } ⟨174, 175⟩ [],
            .mk { kind := .other "formal_parameters", field := some .parameters } ⟨175, 177⟩ [],
            .mk { kind := .block, field := some .body } ⟨178, 181⟩ []]]]]]

def enumUnit : CompilationUnit where
  source := ["enum E \x7b A \x7b ",
    "boolean n(String s) \x7b return s == null; \x7d ",
    "void q(String z) \x7b if (A.n(z)) a(); if (E.n(z)) a(); \x7d \x7d; ",
    "static boolean n(Object o) \x7b return o != null; \x7d ",
    "static void a() \x7b \x7d \x7d"].flatMap (·.toList.map Char.toUInt8)
  tree.root := enumTree

theorem enumUnit_distinctBodies : enumUnit.DistinctBodies := by
  have spans : (enumTree.places.filter (·.node.kind.isTypeBody)).map (·.node.span) =
      [⟨7, 183⟩, ⟨11, 111⟩] := by decide +kernel
  have distinct : [Span.mk 7 183, ⟨11, 111⟩].Nodup := by decide
  rw [← spans] at distinct
  exact distinct

theorem enumUnit_distinctSpans : enumUnit.DistinctSpans := by
  have spans : (enumTree.places.filter (·.node.kind.isMethod)).map (·.node.span) =
      [⟨13, 54⟩, ⟨55, 109⟩, ⟨113, 161⟩, ⟨162, 181⟩] := by decide +kernel
  have distinct : [Span.mk 13 54, ⟨55, 109⟩, ⟨113, 161⟩, ⟨162, 181⟩].Nodup := by decide
  rw [← spans] at distinct
  exact distinct

/-- The call on the enum passes by the constant and means the helper of the enum. -/
theorem callee?_eq_some_iff_enumUnit :
    let own : Param := ⟨⟨113, 161⟩, "n", "o", 0, "Object", true⟩
    let helper : Helper Param CallSite :=
      { name := "n", formals := [own], body := some (.compare (.param own) .null true) }
    enumUnit.DistinctBodies ∧ enumUnit.DistinctSpans ∧
      ∃ call ∈ enumUnit.places, call.node.span = ⟨95, 101⟩ ∧ call.node.kind = .invocation ∧
        enumUnit.TypeReceiver call ∧ enumUnit.callee? call = some helper ∧
        ∃ name body declaration value,
          enumUnit.Means (enumUnit.calledBodies enumUnit.typeName? call) call.node name body
            declaration value ∧
          helper = enumUnit.helperAt name declaration value := by
  intro own helper
  have calls : ((enumUnit.places.filter (·.node.span = ⟨95, 101⟩)).any fun call =>
      call.node.kind = .invocation && enumUnit.TypeReceiver call &&
        enumUnit.callee? call = some helper) = true := by
    rw [enumUnit.eq_inOrder (by decide +kernel)]
    decide +kernel
  obtain ⟨call, listed, facts⟩ := List.any_eq_true.1 calls
  obtain ⟨met, span⟩ := List.mem_filter.1 listed
  simp only [Bool.and_eq_true, decide_eq_true_iff] at span facts
  obtain ⟨⟨isCall, receiver⟩, found⟩ := facts
  obtain ⟨-, byType⟩ := callee?_eq_some_iff enumUnit enumUnit_distinctBodies enumUnit_distinctSpans call
    met isCall helper
  exact ⟨enumUnit_distinctBodies, enumUnit_distinctSpans, call, met, span, isCall, receiver, found,
    (byType receiver).1 found⟩

/-- The call on the constant is resolved to the helper in the body of the constant, although no type
around the call has that name. -/
theorem callee?_of_constant_enumUnit :
    let own : Param := ⟨⟨13, 54⟩, "n", "s", 0, "String", true⟩
    let helper : Helper Param CallSite :=
      { name := "n", formals := [own], body := some (.compare (.param own) .null false) }
    enumUnit.DistinctBodies ∧ enumUnit.DistinctSpans ∧
      ∃ call ∈ enumUnit.places, call.node.span = ⟨78, 84⟩ ∧ call.node.kind = .invocation ∧
        enumUnit.nameOf? call.node = some "n" ∧ enumUnit.callee? call = some helper ∧
        ¬ ∃ name body declaration value,
          enumUnit.Means (enumUnit.calledBodies enumUnit.typeName? call) call.node name body
            declaration value := by
  intro own helper
  have calls : ((enumUnit.places.filter (·.node.span = ⟨78, 84⟩)).any fun call =>
      call.node.kind = .invocation && enumUnit.nameOf? call.node = some "n" &&
        enumUnit.callee? call = some helper &&
        (enumUnit.calledBodies enumUnit.typeName? call).isEmpty) = true := by
    rw [enumUnit.eq_inOrder (by decide +kernel)]
    decide +kernel
  obtain ⟨call, listed, facts⟩ := List.any_eq_true.1 calls
  obtain ⟨met, span⟩ := List.mem_filter.1 listed
  simp only [Bool.and_eq_true, decide_eq_true_iff, List.isEmpty_iff] at span facts
  obtain ⟨⟨⟨isCall, named⟩, found⟩, noBodies⟩ := facts
  refine ⟨enumUnit_distinctBodies, enumUnit_distinctSpans, call, met, span, isCall, named, found, ?_⟩
  rintro ⟨name, body, declaration, value, means⟩
  obtain ⟨before, after, whole, -⟩ := means.decides.first
  rw [noBodies] at whole
  exact absurd whole (by simp)

end NullGuard
