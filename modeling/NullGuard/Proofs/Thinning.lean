import NullGuard.Condition
import NullGuard.Proofs.Lockstep

/-!
Trees with comments left out. Comments that fill no field and have no children may be missing from a
tree here and there. Then what fills a field, the children that carry code, what a declaration
declares and the methods of the tree stay what they are, up to comments inside them. Only the type of
a parameter of variable arity may be read off a comment, and no analysis looks at it.
-/
namespace NullGuard

variable {α β γ δ : Type}

/-- What is left of the first list without some of its `loose` members is related in pairs to the
second list. -/
inductive Thinned (R : α → β → Prop) (loose : α → Bool) : List α → List β → Prop
  | nil : Thinned R loose [] []
  | keep {a : α} {b : β} {l : List α} {m : List β} (related : R a b) (rest : Thinned R loose l m) :
      Thinned R loose (a :: l) (b :: m)
  | drop {a : α} {l : List α} {m : List β} (gone : loose a = true) (rest : Thinned R loose l m) :
      Thinned R loose (a :: l) m

namespace Thinned

variable {R : α → β → Prop} {S : γ → δ → Prop} {loose : α → Bool} {l : List α} {m : List β}

theorem append {l' : List α} {m' : List β} (first : Thinned R loose l m)
    (second : Thinned R loose l' m') : Thinned R loose (l ++ l') (m ++ m') := by
  induction first with
  | nil => exact second
  | keep related _ ih => exact .keep related ih
  | drop gone _ ih => exact .drop gone ih

theorem map {loose' : γ → Bool} {f : α → γ} {g : β → δ} (thinned : Thinned R loose l m)
    (each : ∀ a b, R a b → S (f a) (g b)) (gone : ∀ a, loose a = true → loose' (f a) = true) :
    Thinned S loose' (l.map f) (m.map g) := by
  induction thinned with
  | nil => exact .nil
  | keep related _ ih => exact .keep (each _ _ related) ih
  | drop isGone _ ih => exact .drop (gone _ isGone) ih

/-- Where nothing comes of loose members, what comes of the others is related in pairs. -/
theorem filterMap {f : α → Option γ} {g : β → Option δ} (thinned : Thinned R loose l m)
    (each : ∀ a b, R a b → Option.Rel S (f a) (g b)) (gone : ∀ a, loose a = true → f a = none) :
    List.Forall₂ S (l.filterMap f) (m.filterMap g) := by
  induction thinned with
  | nil => exact .nil
  | @keep a b l m related rest ih =>
    have both := each a b related
    rw [List.filterMap_cons, List.filterMap_cons]
    generalize f a = x, g b = y at both
    cases both with
    | some both => exact .cons both ih
    | none => exact ih
  | @drop a l m isGone rest ih =>
    rw [List.filterMap_cons, gone a isGone]
    exact ih

theorem filter {p : α → Bool} {q : β → Bool} (thinned : Thinned R loose l m)
    (same : ∀ a b, R a b → p a = q b) (gone : ∀ a, loose a = true → p a = false) :
    List.Forall₂ R (l.filter p) (m.filter q) := by
  rw [← List.filterMap_eq_filter, ← List.filterMap_eq_filter]
  refine thinned.filterMap (fun a b related => ?_) fun a isGone => ?_
  · rw [Option.guard, Option.guard, same a b related]
    exact .ite rfl (.some related)
  · rw [Option.guard, gone a isGone]
    rfl

/-- A test that related members pass alike leaves the lists thinned. -/
theorem restrict {p : α → Bool} {q : β → Bool} (thinned : Thinned R loose l m)
    (same : ∀ a b, R a b → p a = q b) : Thinned R loose (l.filter p) (m.filter q) := by
  induction thinned with
  | nil => exact .nil
  | @keep a b l m related rest ih =>
    rw [List.filter_cons, List.filter_cons, same a b related]
    cases q b with
    | true => exact .keep related ih
    | false => exact ih
  | @drop a l m gone rest ih =>
    rw [List.filter_cons]
    cases p a with
    | true => exact .drop gone ih
    | false => exact ih

theorem find? {p : α → Bool} {q : β → Bool} (thinned : Thinned R loose l m)
    (same : ∀ a b, R a b → p a = q b) (gone : ∀ a, loose a = true → p a = false) :
    Option.Rel R (l.find? p) (m.find? q) := by
  rw [← List.head?_filter, ← List.head?_filter]
  exact (thinned.filter same gone).head?

end Thinned

namespace Node

/-- A comment that fills no field and has no children. -/
def isBareComment (n : Node) : Bool := n.kind.isComment && n.field.isNone && n.children.isEmpty

/-- The second tree is the first one without some of the bare comments below its root. -/
inductive Thins : Node → Node → Prop
  | mk (label : Label) (span : Span) {children kept : List Node}
      (each : Thinned Thins isBareComment children kept) :
      Thins (.mk label span children) (.mk label span kept)

theorem field_of_isBareComment {n : Node} (comment : n.isBareComment = true) : n.field = none := by
  simp only [isBareComment, Bool.and_eq_true, Option.isNone_iff_eq_none] at comment
  exact comment.1.2

theorem children_of_isBareComment {n : Node} (comment : n.isBareComment = true) :
    n.children = [] := by
  simp only [isBareComment, Bool.and_eq_true, List.isEmpty_iff] at comment
  exact comment.2

theorem isComment_of_isBareComment {n : Node} (comment : n.isBareComment = true) :
    n.kind.isComment = true := by
  simp only [isBareComment, Bool.and_eq_true] at comment
  exact comment.1.1

/-- What is no comment is no bare comment. -/
theorem kind_ne_of_isBareComment {n : Node} (comment : n.isBareComment = true) (kind : Kind)
    (code : kind.isComment = false) : n.kind ≠ kind := by
  intro same
  have isComment := isComment_of_isBareComment comment
  rw [same, code] at isComment
  cases isComment

namespace Thins

variable {n n' : Node}

theorem label_eq (thins : n.Thins n') : n.label = n'.label := by
  cases thins
  rfl

theorem span_eq (thins : n.Thins n') : n.span = n'.span := by
  cases thins
  rfl

theorem kind_eq (thins : n.Thins n') : n.kind = n'.kind := congrArg Label.kind thins.label_eq

theorem text_eq (thins : n.Thins n') (source : Bytes) : n.text source = n'.text source := by
  rw [Node.text, Node.text, thins.span_eq]

theorem children (thins : n.Thins n') : Thinned Thins isBareComment n.children n'.children := by
  cases thins with
  | mk label span each => exact each

theorem child? (thins : n.Thins n') (f : Field) : Option.Rel Thins (n.child? f) (n'.child? f) := by
  refine thins.children.find? (fun a b same => ?_) fun a comment => ?_
  · rw [field, field, same.label_eq]
  · rw [field_of_isBareComment comment]
    rfl

theorem codeChildren (thins : n.Thins n') : List.Forall₂ Thins n.codeChildren n'.codeChildren := by
  refine thins.children.filter (fun a b same => ?_) fun a comment => ?_
  · rw [isCode, isCode, named, named, same.label_eq, same.kind_eq]
  · rw [isCode, isComment_of_isBareComment comment, Bool.not_true, Bool.and_false]

theorem operator?_eq (thins : n.Thins n') : n.operator? = n'.operator? :=
  (thins.child? .operator).map_eq fun _ _ same => same.kind_eq

mutual

/-- A declaration declares the same name. -/
theorem declaredName? {n n' : Node} (thins : n.Thins n') :
    Option.Rel Thins n.declaredName? n'.declaredName? := by
  cases thins with
  | @mk label span children kept each =>
    have name : Option.Rel Thins
        ((children.find? (·.field = some .name)).filter (·.kind = .identifier))
        ((kept.find? (·.field = some .name)).filter (·.kind = .identifier)) :=
      ((Thins.mk label span each).child? .name).filter fun a b same => by rw [same.kind_eq]
    have first := declarator? each
    have identifiers : List.Forall₂ Thins
        (children.filter fun n => n.named && n.kind = .identifier)
        (kept.filter fun n => n.named && n.kind = .identifier) := by
      refine each.filter (fun a b same => ?_) fun a comment => ?_
      · rw [named, named, same.label_eq, same.kind_eq]
      · have other := kind_ne_of_isBareComment comment .identifier rfl
        simp [other]
    rw [Node.declaredName?, Node.declaredName?]
    generalize Option.filter _ (children.find? _) = x, Option.filter _ (kept.find? _) = x' at name ⊢
    generalize Node.declarator? children = y, Node.declarator? kept = y' at first ⊢
    cases name with
    | some name => exact .some name
    | none =>
      cases first with
      | some first => exact first
      | none => exact identifiers.getLast?

theorem declarator? {ns ms : List Node} (each : Thinned Thins isBareComment ns ms) :
    Option.Rel (Option.Rel Thins) (Node.declarator? ns) (Node.declarator? ms) := by
  cases each with
  | nil => exact .none
  | keep thins rest =>
    have first := declaredName? thins
    have others := declarator? rest
    rw [Node.declarator?, Node.declarator?, named, named, thins.label_eq, thins.kind_eq]
    split
    · exact .some first
    · exact others
  | @drop n _ _ comment rest =>
    have others := declarator? rest
    have other := kind_ne_of_isBareComment comment .declarator rfl
    rw [Node.declarator?, if_neg (by simp [other])]
    exact others

end

end Thins

mutual

/-- The tree without those of its bare comments that are `gone`. -/
def strip (gone : Node → Bool) : Node → Node
  | mk label span children => mk label span (stripAll gone children)

def stripAll (gone : Node → Bool) : List Node → List Node
  | [] => []
  | n :: rest =>
    if n.isBareComment && gone n then stripAll gone rest else n.strip gone :: stripAll gone rest

end

mutual

theorem thins_strip (gone : Node → Bool) : (n : Node) → n.Thins (n.strip gone)
  | mk label span children => .mk label span (thinned_stripAll gone children)

theorem thinned_stripAll (gone : Node → Bool) :
    (ns : List Node) → Thinned Thins isBareComment ns (stripAll gone ns)
  | [] => .nil
  | n :: rest => by
    have first := thins_strip gone n
    have others := thinned_stripAll gone rest
    rw [stripAll]
    split
    next left => exact .drop (Bool.and_eq_true_iff.1 left).1 others
    · exact .keep first others

end

/-- The values of a parameter are references as before. -/
theorem Thins.paramType? {n n' : Node} (thins : n.Thins n') :
    Option.Rel (fun declared declared' => declared.2 = declared'.2) n.paramType? n'.paramType? := by
  have primitive : (n.child? .type).any (·.kind.isPrimitive) =
      (n'.child? .type).any (·.kind.isPrimitive) :=
    (thins.child? .type).any_eq fun _ _ same => congrArg Kind.isPrimitive same.kind_eq
  have dimensions := (thins.child? .dimensions).isSome_eq
  unfold Node.paramType?
  rw [thins.kind_eq]
  split
  · exact .some (by rw [primitive, dimensions])
  · exact .some rfl
  · exact .none

theorem paramType?_of_isBareComment {n : Node} (comment : n.isBareComment = true) :
    n.paramType? = none := by
  have formal := kind_ne_of_isBareComment comment .formalParameter rfl
  have spread := kind_ne_of_isBareComment comment .spreadParameter rfl
  unfold paramType?
  split
  next kind => exact absurd kind formal
  next kind => exact absurd kind spread
  · rfl

end Node

/-- The parameter without its type. -/
def Param.untyped (x : Param) : Param := { x with typeName := "" }

theorem Param.untyped_eq_iff {x y : Param} :
    x.untyped = y.untyped ↔ x.method = y.method ∧ x.methodName = y.methodName ∧ x.name = y.name ∧
      x.position = y.position ∧ x.isReference = y.isReference := by
  simp [untyped]

/-- Comments between declarations of parameters or inside them change no parameter but for its
type. -/
theorem Param.map_untyped_readAll {source : Bytes} {declarations declarations' : List Node}
    (each : Thinned Node.Thins Node.isBareComment declarations declarations') (method : Span)
    (methodName : String) :
    (readAll source method methodName declarations).map untyped =
      (readAll source method methodName declarations').map untyped := by
  unfold readAll
  rw [List.map_map, List.map_map]
  refine ((each.filterMap (S := fun x y => x.1.Thins y.1 ∧ x.2.2 = y.2.2) ?_ ?_).zipIdx 0).map_eq ?_
  · intro n n' thins
    refine thins.paramType?.bind ?_
    rintro ⟨type, isReference⟩ ⟨type', isReference'⟩ same
    exact thins.declaredName?.bind fun _ _ name => .some ⟨name, same⟩
  · intro n comment
    rw [Node.paramType?_of_isBareComment comment]
    rfl
  · rintro ⟨⟨name, type, isReference⟩, position⟩ ⟨⟨name', type', isReference'⟩, position'⟩
      ⟨⟨same, rfl⟩, rfl⟩
    simp only [Function.comp_apply, untyped, same.text_eq]

theorem Scope.ownerOf_eq {parent parent' : Option Node}
    (related : Option.Rel Node.Thins parent parent') (source : Bytes) :
    ownerOf source parent = ownerOf source parent' := by
  refine related.bind_eq fun n n' thins => ?_
  refine (thins.child? .name).bind_eq fun name name' same => ?_
  rw [thins.kind_eq, same.text_eq]

theorem Scope.among_eq {above above' : List Node} (each : List.Forall₂ Node.Thins above above')
    (source : Bytes) : among source above = among source above' := by
  induction each with
  | nil => rfl
  | @cons n n' above above' thins rest ih =>
    have owner := ownerOf_eq rest.head? source
    rw [among, among, thins.kind_eq, thins.span_eq, owner, ih]

namespace Place

/-- The second place is the first one in a tree without some of the bare comments. -/
structure Thins (p p' : Place) : Prop where
  node : p.node.Thins p'.node
  above : List.Forall₂ Node.Thins p.above p'.above

namespace Thins

variable {p p' : Place}

theorem children (thins : p.Thins p') :
    Thinned Thins (·.node.isBareComment) p.children p'.children :=
  thins.node.children.map (fun _ _ below => ⟨below, .cons thins.node thins.above⟩) fun _ gone => gone

theorem child? (thins : p.Thins p') (f : Field) : Option.Rel Thins (p.child? f) (p'.child? f) :=
  (thins.node.child? f).map fun _ _ below => ⟨below, .cons thins.node thins.above⟩

theorem codeChildren (thins : p.Thins p') : List.Forall₂ Thins p.codeChildren p'.codeChildren :=
  List.rel_map (fun _ _ below => ⟨below, .cons thins.node thins.above⟩) thins.node.codeChildren

/-- The walk over a thinned tree meets the places of the tree, some of the bare comments left out. -/
theorem walk {stack stack' : List Place}
    (each : Thinned Thins (·.node.isBareComment) stack stack') :
    Thinned Thins (·.node.isBareComment) (walk stack) (walk stack') := by
  fun_induction Place.walk stack generalizing stack' with
  | case1 =>
    cases each
    rw [Place.walk]
    exact .nil
  | case2 p stack ih =>
    cases each with
    | keep thins rest =>
      rw [Place.walk]
      exact .keep thins (ih (thins.children.append rest))
    | drop comment rest =>
      have childless : p.children = [] := by
        rw [Place.children, Node.children_of_isBareComment comment, List.map_nil]
      rw [childless] at ih ⊢
      exact .drop comment (ih rest)

end Thins

end Place

/-- Trees of which one is thinned have places of which some are left out. -/
theorem Node.Thins.places {root root' : Node} (thins : root.Thins root') :
    Thinned Place.Thins (·.node.isBareComment) root.places root'.places :=
  Place.Thins.walk (.keep ⟨thins, .nil⟩ .nil)

/-- The declarations of methods stay. -/
theorem Node.Thins.methodPlaces {root root' : Node} (thins : root.Thins root') :
    List.Forall₂ Place.Thins (root.places.filter (·.node.kind.isMethod))
      (root'.places.filter (·.node.kind.isMethod)) := by
  refine thins.places.filter (fun p p' same => by rw [same.node.kind_eq]) fun p comment => ?_
  have isComment := isComment_of_isBareComment comment
  cases kind : p.node.kind with
  | lineComment | blockComment => rfl
  | _ =>
    rw [kind] at isComment
    cases isComment

namespace Method

/-- The second method is the first one in a tree without some of the bare comments. -/
structure Thins (m m' : Method) : Prop where
  place : m.place.Thins m'.place
  name : m.name = m'.name
  params : m.params.map Param.untyped = m'.params.map Param.untyped

theorem read?_thins {p p' : Place} (thins : p.Thins p') (source : Bytes) :
    Option.Rel Thins (read? source p) (read? source p') := by
  have declarations : Thinned Node.Thins Node.isBareComment
      (((p.node.child? .parameters).map Node.namedChildren).getD [])
      (((p'.node.child? .parameters).map Node.namedChildren).getD []) := by
    have parameters := thins.node.child? .parameters
    generalize p.node.child? .parameters = list, p'.node.child? .parameters = list' at parameters
    cases parameters with
    | some parameters =>
      exact parameters.children.restrict fun a b same => congrArg Label.named same.label_eq
    | none => exact .nil
  refine (thins.node.child? .name).bind fun name name' same => .some ⟨thins, same.text_eq source, ?_⟩
  rw [thins.node.span_eq, same.text_eq]
  exact Param.map_untyped_readAll declarations _ _

theorem readAll_thins {root root' : Node} (thins : root.Thins root') (source : Bytes) :
    List.Forall₂ Thins (readAll source root) (readAll source root') := by
  refine List.rel_filterMap (R := Place.Thins) (fun _ _ same => read?_thins same source)
    (thins.methodPlaces.mergeSort ?_)
  intro p p' q q' first second
  rw [first.node.span_eq, second.node.span_eq]

namespace Thins

variable {m m' : Method}

theorem span_eq (thins : m.Thins m') : m.span = m'.span := thins.place.node.span_eq

theorem isConstructor_eq (thins : m.Thins m') : m.isConstructor = m'.isConstructor := by
  rw [isConstructor, isConstructor, node, node, thins.place.node.kind_eq]

theorem length_params (thins : m.Thins m') : m.params.length = m'.params.length := by
  have same := congrArg List.length thins.params
  simpa using same

theorem scope?_eq (thins : m.Thins m') : m.scope? = m'.scope? := by
  have found := thins.place.above.find? (p := (·.kind.isTypeBody)) (q := (·.kind.isTypeBody))
    fun a b same => by rw [same.kind_eq]
  exact found.map_eq fun a b same => same.span_eq

theorem returnsBoolean_eq (thins : m.Thins m') : m.returnsBoolean = m'.returnsBoolean := by
  have type := (thins.place.node.child? .type).any_eq (p := (·.kind = .booleanType))
    (q := (·.kind = .booleanType)) fun a b same => by rw [same.kind_eq]
  have dimensions := (thins.place.node.child? .dimensions).isSome_eq
  rw [returnsBoolean, returnsBoolean, node, node, type, ← Option.not_isSome, ← Option.not_isSome,
    dimensions]

/-- A body that consists of returning an expression returns the same one. -/
theorem returned? (thins : m.Thins m') : Option.Rel Place.Thins m.returned? m'.returned? := by
  refine (thins.place.child? .body).bind fun body body' same => ?_
  have statements := same.codeChildren
  rw [same.node.kind_eq]
  refine (Option.Rel.of_eq rfl).bind fun _ _ _ => ?_
  generalize body.codeChildren = list, body'.codeChildren = list' at statements
  cases statements with
  | nil => exact .none
  | @cons statement statement' _ _ only rest =>
    cases rest with
    | cons second others => exact .none
    | nil =>
      dsimp only
      rw [only.node.kind_eq]
      exact (Option.Rel.of_eq rfl).bind fun _ _ _ => only.codeChildren.head?

end Thins

end Method

end NullGuard
