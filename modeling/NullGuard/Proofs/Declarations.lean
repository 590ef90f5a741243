import Mathlib.Data.List.Nodup
import NullGuard.Proofs.Walk

/-!
What is known of the methods of a unit. Each one is read off a declaration in the tree, its parameters
carry the span of that declaration and are numbered in order. Where declarations have spans of their
own, the span of a declaration leads back to its method.
-/
namespace NullGuard

namespace Param

variable {source : Bytes} {method : Span} {methodName : String} {declarations : List Node}

theorem method_of_mem_readAll {x : Param}
    (member : x ∈ readAll source method methodName declarations) : x.method = method := by
  obtain ⟨numbered, -, rfl⟩ := List.mem_map.1 member
  rfl

/-- The parameter at an index has that position. -/
theorem map_position_readAll :
    (readAll source method methodName declarations).map (·.position) =
      List.range (readAll source method methodName declarations).length := by
  simp only [readAll, List.map_map, Function.comp_def, List.length_map, List.length_zipIdx,
    List.range_eq_range']
  exact List.zipIdx_map_snd 0 _

end Param

namespace Method

/-- A method is read off the declaration at its place. -/
theorem read?_eq_some {source : Bytes} {p : Place} {m : Method} (read : read? source p = some m) :
    m.place = p ∧ ∃ declarations, m.params = Param.readAll source m.span m.name declarations := by
  obtain ⟨name, -, read⟩ := Option.bind_eq_some_iff.1 read
  cases Option.some.inj read
  exact ⟨rfl, _, rfl⟩

end Method

namespace CompilationUnit

variable {u : CompilationUnit} {m : Method}

theorem exists_of_mem_methods (member : m ∈ u.methods) :
    ∃ p ∈ u.places.filter (·.node.kind.isMethod), Method.read? u.source p = some m := by
  rw [u.methods_eq] at member
  obtain ⟨p, among, read⟩ := List.mem_filterMap.1 member
  exact ⟨p, List.mem_mergeSort.1 among, read⟩

theorem place_of_mem_methods (member : m ∈ u.methods) :
    m.place ∈ u.places ∧ m.node.kind.isMethod = true := by
  obtain ⟨p, among, read⟩ := exists_of_mem_methods member
  obtain ⟨met, kind⟩ := List.mem_filter.1 among
  obtain ⟨rfl, -⟩ := Method.read?_eq_some read
  exact ⟨met, kind⟩

theorem params_of_mem_methods (member : m ∈ u.methods) :
    ∃ declarations, m.params = Param.readAll u.source m.span m.name declarations := by
  obtain ⟨p, -, read⟩ := exists_of_mem_methods member
  exact (Method.read?_eq_some read).2

/-- A parameter of a method carries the span of the method. -/
theorem method_of_mem_params (member : m ∈ u.methods) {x : Param} (formal : x ∈ m.params) :
    x.method = m.span := by
  obtain ⟨declarations, read⟩ := params_of_mem_methods member
  rw [read] at formal
  exact Param.method_of_mem_readAll formal

theorem map_position_params (member : m ∈ u.methods) :
    m.params.map (·.position) = List.range m.params.length := by
  obtain ⟨declarations, read⟩ := params_of_mem_methods member
  rw [read]
  exact Param.map_position_readAll

theorem nodup_params (member : m ∈ u.methods) : m.params.Nodup := by
  have distinct : (m.params.map (·.position)).Nodup := by
    rw [map_position_params member]
    exact List.nodup_range
  exact distinct.of_map

theorem position_params (member : m ∈ u.methods) (i : Nat) (inside : i < m.params.length) :
    m.params[i].position = i := by
  have same := congrArg (·[i]?) (map_position_params member)
  simpa [inside] using same

/-- The method around a place is in the unit, and the nearest declaration above the place has its
span. -/
theorem enclosingMethod?_eq_some {above : List Node} (enclosing : u.enclosingMethod? above = some m) :
    m ∈ u.methods ∧
      ∃ declaration, above.find? (·.kind.isMethod) = some declaration ∧ m.span = declaration.span := by
  obtain ⟨declaration, nearest, found⟩ := Option.bind_eq_some_iff.1 enclosing
  have member := List.mem_of_find?_eq_some found
  have same : m.span = declaration.span := by simpa using List.find?_some found
  exact ⟨List.mem_reverse.1 member, declaration, nearest, same⟩

/-- No two declarations of methods or constructors have the same span. -/
def DistinctSpans (u : CompilationUnit) : Prop :=
  ((u.places.filter (·.node.kind.isMethod)).map (·.node.span)).Nodup

/-- Where declarations have distinct spans, a method is the one at its span. -/
theorem DistinctSpans.methodAt?_span (distinct : u.DistinctSpans) (member : m ∈ u.methods) :
    u.methodAt? m.span = some m := by
  have somewhere : (u.methodAt? m.span).isSome = true :=
    List.find?_isSome.2 ⟨m, List.mem_reverse.2 member, by simp⟩
  obtain ⟨other, found⟩ := Option.isSome_iff_exists.1 somewhere
  have same : other.span = m.span := by simpa using List.find?_some found
  obtain ⟨p, among, read⟩ := exists_of_mem_methods member
  obtain ⟨q, among', read'⟩ :=
    exists_of_mem_methods (List.mem_reverse.1 (List.mem_of_find?_eq_some found))
  have spans : q.node.span = p.node.span := by
    rw [← (Method.read?_eq_some read).1, ← (Method.read?_eq_some read').1]
    exact same
  cases List.inj_on_of_nodup_map distinct among' among spans
  cases read.symm.trans read'
  exact found

/-- The declarations of methods start one after another in the order of the tree. -/
def MethodsInOrder (u : CompilationUnit) : Prop :=
  (u.places.filter (·.node.kind.isMethod)).Pairwise fun p q =>
    decide (p.node.span.start ≤ q.node.span.start) = true

instance (u : CompilationUnit) : Decidable u.MethodsInOrder :=
  inferInstanceAs (Decidable (List.Pairwise ..))

/-- The unit with its methods read off the tree without sorting them. -/
def inOrder (u : CompilationUnit) (ordered : u.MethodsInOrder) : CompilationUnit where
  source := u.source
  tree := u.tree
  name := u.name
  methods := (u.places.filter (·.node.kind.isMethod)).filterMap (Method.read? u.source)
  methods_eq := congrArg (·.filterMap (Method.read? u.source)) (List.mergeSort_of_pairwise ordered).symm

theorem eq_inOrder (u : CompilationUnit) (ordered : u.MethodsInOrder) : u = u.inOrder ordered := by
  have same := (u.inOrder ordered).methods_eq
  obtain ⟨source, tree, name, methods, rfl⟩ := u
  simp only [inOrder, mk.injEq, true_and]
  exact same.symm

end CompilationUnit

end NullGuard
