import NullGuard.Condition
import NullGuard.Proofs.References
import NullGuard.Proofs.Walk

/-!
Which parameters the expression at a place can refer to. Reading an expression goes from a place to its
operands: to its children, and past an argument list to the arguments. On that way no method is
entered, so every parameter that the expression refers to belongs to the method around the place, and
is named there by an identifier at or below it.
-/
namespace NullGuard

namespace Place

/-- The places from which the expression at a place may be put together. -/
inductive Operand (p : Place) : Place → Prop
  | child {c : Place} (below : c ∈ p.children) : Operand p c
  | argument {list c : Place} (below : list ∈ p.children)
      (field : list.node.field = some .arguments) (entry : c ∈ list.children) : Operand p c

theorem count_lt_of_mem_children {p c : Place} (below : c ∈ p.children) :
    c.node.count < p.node.count := by
  obtain ⟨n, member, rfl⟩ := List.mem_map.1 below
  obtain ⟨before, after, split⟩ := List.append_of_mem member
  have whole := p.node.countAll_children
  rw [split, Node.countAll_append, Node.countAll] at whole
  simp only
  omega

namespace Operand

variable {p c : Place}

theorem reaches (operand : p.Operand c) : p.Reaches c := by
  cases operand with
  | child below => exact .single below
  | argument below _ entry => exact .tail (.single below) entry

theorem count_lt (operand : p.Operand c) : c.node.count < p.node.count := by
  cases operand with
  | child below => exact count_lt_of_mem_children below
  | argument below _ entry =>
    exact Nat.lt_trans (count_lt_of_mem_children entry) (count_lt_of_mem_children below)

end Operand

end Place

namespace CompilationUnit

/-- What fills the field for arguments is an argument list. -/
def ArgumentLists (u : CompilationUnit) : Prop :=
  ∀ p ∈ u.places, p.node.field = some .arguments → p.node.kind.name = "argument_list"

variable {u : CompilationUnit}

theorem enclosingMethod?_cons {n : Node} (inside : n.kind.isMethod = false) (above : List Node) :
    u.enclosingMethod? (n :: above) = u.enclosingMethod? above := by
  simp [enclosingMethod?, inside]

/-- No method stands between a place and an operand of the expression there. -/
theorem ArgumentLists.enclosingMethod?_eq (lists : u.ArgumentLists) {p c : Place}
    (met : p ∈ u.places) (inside : p.node.kind.isMethod = false) (operand : p.Operand c) :
    u.enclosingMethod? c.above = u.enclosingMethod? p.above := by
  cases operand with
  | child below => rw [Place.above_of_mem_children below, enclosingMethod?_cons inside]
  | @argument list _ below field entry =>
    have kind := lists list (mem_places_of_children met below) field
    have outside : list.node.kind.isMethod = false := by
      cases shape : list.node.kind with
      | method | constructor => rw [shape] at kind; exact absurd kind (by decide)
      | _ => rfl
    rw [Place.above_of_mem_children entry, enclosingMethod?_cons outside,
      Place.above_of_mem_children below, enclosingMethod?_cons inside]

theorem exists_of_mem_conditions {above : List Node} {ns : List Node} {e : Condition}
    (member : e ∈ u.conditions above ns) : ∃ n ∈ ns, e = u.condition above n := by
  induction ns with
  | nil => cases member
  | cons n rest ih =>
    rw [conditions] at member
    split at member
    · rcases List.mem_cons.1 member with rfl | member
      · exact ⟨n, List.mem_cons_self, rfl⟩
      · obtain ⟨other, among, same⟩ := ih member
        exact ⟨other, List.mem_cons_of_mem n among, same⟩
    · obtain ⟨other, among, same⟩ := ih member
      exact ⟨other, List.mem_cons_of_mem n among, same⟩

theorem exists_of_conditionIn {above : List Node} {f : Field} {ns : List Node} {e : Condition}
    (found : u.conditionIn above f ns = some e) : ∃ n ∈ ns, e = u.condition above n := by
  induction ns with
  | nil => cases found
  | cons n rest ih =>
    rw [conditionIn] at found
    split at found
    · cases found
      exact ⟨n, List.mem_cons_self, rfl⟩
    · obtain ⟨other, among, same⟩ := ih found
      exact ⟨other, List.mem_cons_of_mem n among, same⟩

theorem exists_of_mem_arguments {above : List Node} {ns : List Node} {e : Condition}
    (member : e ∈ u.arguments above ns) :
    ∃ list ∈ ns, list.field = some .arguments ∧
      ∃ n ∈ list.children, e = u.condition (list :: above) n := by
  induction ns with
  | nil => cases member
  | cons first rest ih =>
    obtain ⟨label, span, children⟩ := first
    rw [arguments] at member
    split at member
    next field => exact ⟨_, List.mem_cons_self, field, exists_of_mem_conditions member⟩
    · obtain ⟨list, among, field, entry⟩ := ih member
      exact ⟨list, List.mem_cons_of_mem _ among, field, entry⟩

/-- A binary expression refers to what its operands refer to. -/
theorem mem_references_of_binary? {operator : Kind} {left right e : Condition} {x : Param}
    (built : Condition.binary? operator left right = some e) (member : x ∈ e.references) :
    x ∈ left.references ∨ x ∈ right.references := by
  unfold Condition.binary? at built
  split at built
  all_goals cases built
  all_goals exact List.mem_append.1 member

/-- A parameter that the expression at a place refers to is named by the place itself, or the
expression at an operand refers to it. -/
theorem mem_references_conditionAt {p : Place} {x : Param}
    (member : x ∈ (u.conditionAt p).references) :
    (p.node.kind = .identifier ∧ u.paramNamed? p.above p.node = some x ∧ x.isReference = true) ∨
      p.node.kind.isMethod = false ∧ ∃ c, p.Operand c ∧ x ∈ (u.conditionAt c).references := by
  obtain ⟨⟨label, span, children⟩, above⟩ := p
  have child : ∀ n ∈ children, x ∈ (u.condition (.mk label span children :: above) n).references →
      ∃ c, Place.Operand ⟨.mk label span children, above⟩ c ∧ x ∈ (u.conditionAt c).references :=
    fun n among member => ⟨⟨n, _⟩, .child (List.mem_map_of_mem among), member⟩
  rw [conditionAt, condition] at member
  split at member
  next kind =>
    refine .inr ⟨congrArg Kind.isMethod kind, ?_⟩
    split at member
    next inner only =>
      obtain ⟨n, among, rfl⟩ := exists_of_mem_conditions (only ▸ List.mem_singleton_self inner)
      exact child n among member
    · cases member
  next kind =>
    refine .inr ⟨congrArg Kind.isMethod kind, ?_⟩
    split at member
    next operand _ found =>
      obtain ⟨n, among, rfl⟩ := exists_of_conditionIn found
      exact child n among member
    · cases member
  next kind =>
    refine .inr ⟨congrArg Kind.isMethod kind, ?_⟩
    split at member
    next operator left right _ foundLeft foundRight =>
      obtain ⟨l, amongLeft, rfl⟩ := exists_of_conditionIn foundLeft
      obtain ⟨r, amongRight, rfl⟩ := exists_of_conditionIn foundRight
      cases built : Condition.binary? operator _ _ with
      | none =>
        rw [built] at member
        cases member
      | some e =>
        rw [built] at member
        rcases mem_references_of_binary? built member with member | member
        · exact child l amongLeft member
        · exact child r amongRight member
    · cases member
  · cases member
  next kind =>
    refine .inl ⟨kind, ?_⟩
    split at member
    next named =>
      split at member
      next isReference =>
        cases List.mem_singleton.1 member
        exact ⟨named, isReference⟩
      · cases member
    · cases member
  next kind =>
    refine .inr ⟨congrArg Kind.isMethod kind, ?_⟩
    obtain ⟨e, among, member⟩ := Expr.mem_referencesAll.1 member
    obtain ⟨list, below, field, n, entry, rfl⟩ := exists_of_mem_arguments among
    exact ⟨⟨n, _⟩, .argument (List.mem_map_of_mem below) field (List.mem_map_of_mem entry), member⟩
  · cases member

theorem mem_params_of_paramNamed? {above : List Node} {n : Node} {x : Param}
    (named : u.paramNamed? above n = some x) :
    ∃ m, u.enclosingMethod? above = some m ∧ x ∈ m.params ∧ x.name = u.text n := by
  obtain ⟨m, enclosing, found⟩ := Option.bind_eq_some_iff.1 named
  have same : x.name = u.text n := by simpa using List.find?_some found
  exact ⟨m, enclosing, List.mem_of_find?_eq_some found, same⟩

/-- The expression at a place refers only to reference-typed parameters of the method around the
place, each of which an identifier at or below the place names. -/
theorem ArgumentLists.of_mem_references (lists : u.ArgumentLists) {p : Place} (met : p ∈ u.places)
    {x : Param} (member : x ∈ (u.conditionAt p).references) :
    ∃ m, u.enclosingMethod? p.above = some m ∧ x ∈ m.params ∧ x.isReference = true ∧
      ∃ q, p.Reaches q ∧ q.node.kind = .identifier ∧ u.text q.node = x.name := by
  -- By induction on the size of the tree at the place, from operand to operand.
  induction size : p.node.count using Nat.strongRecOn generalizing p with
  | ind size ih =>
  rcases mem_references_conditionAt member with
    ⟨kind, named, isReference⟩ | ⟨inside, c, operand, deeper⟩
  · obtain ⟨m, enclosing, formal, same⟩ := mem_params_of_paramNamed? named
    exact ⟨m, enclosing, formal, isReference, p, .refl, kind, same.symm⟩
  · have met' : c ∈ u.places := mem_places_iff.2 ((mem_places_iff.1 met).trans operand.reaches)
    obtain ⟨m, enclosing, formal, isReference, q, reaches, named⟩ :=
      ih _ (size ▸ operand.count_lt) met' deeper rfl
    rw [lists.enclosingMethod?_eq met inside operand] at enclosing
    exact ⟨m, enclosing, formal, isReference, q, operand.reaches.trans reaches, named⟩

end CompilationUnit

end NullGuard
