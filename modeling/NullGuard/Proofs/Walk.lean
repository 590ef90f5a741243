import Mathlib.Logic.Relation
import NullGuard.CompilationUnit

/-!
What the walk over a tree meets. A place reaches the places at and below it, step by step from a place
to its children. The walk meets exactly the places that those on its stack reach, so what passes from
a place to its children passes along the walk, and every child of a place that it meets is met too.
-/
namespace NullGuard

namespace Place

/-- The second place is at or below the first. -/
def Reaches : Place → Place → Prop := Relation.ReflTransGen fun p child => child ∈ p.children

theorem mem_walk_iff {stack : List Place} {q : Place} :
    q ∈ walk stack ↔ ∃ p ∈ stack, p.Reaches q := by
  fun_induction walk stack with
  | case1 => simp
  | case2 p stack ih =>
    have step : p.Reaches q ↔ p = q ∨ ∃ child ∈ p.children, child.Reaches q :=
      Relation.ReflTransGen.cases_head_iff
    simp only [List.mem_cons, ih, List.mem_append, exists_eq_or_imp, step]
    constructor
    · rintro (rfl | ⟨r, below | waiting, reaches⟩)
      · exact .inl (.inl rfl)
      · exact .inl (.inr ⟨r, below, reaches⟩)
      · exact .inr ⟨r, waiting, reaches⟩
    · rintro ((rfl | ⟨r, below, reaches⟩) | ⟨r, waiting, reaches⟩)
      · exact .inl rfl
      · exact .inr ⟨r, .inl below, reaches⟩
      · exact .inr ⟨r, .inr waiting, reaches⟩

theorem mem_children_of_child? {p child : Place} {f : Field} (found : p.child? f = some child) :
    child ∈ p.children := by
  obtain ⟨n, hit, rfl⟩ := Option.map_eq_some_iff.1 found
  exact List.mem_map_of_mem (List.mem_of_find?_eq_some hit)

theorem mem_children_of_codeChildren {p child : Place} (member : child ∈ p.codeChildren) :
    child ∈ p.children := by
  obtain ⟨n, among, rfl⟩ := List.mem_map.1 member
  exact List.mem_map_of_mem (List.mem_filter.1 among).1

theorem above_of_mem_children {p child : Place} (member : child ∈ p.children) :
    child.above = p.node :: p.above := by
  obtain ⟨n, -, rfl⟩ := List.mem_map.1 member
  rfl

end Place

theorem Node.mem_places_iff {n : Node} {q : Place} : q ∈ n.places ↔ Place.Reaches ⟨n, []⟩ q := by
  rw [places, Place.mem_walk_iff]
  simp

namespace CompilationUnit

variable {u : CompilationUnit} {p : Place}

theorem mem_places_iff : p ∈ u.places ↔ Place.Reaches ⟨u.tree.root, []⟩ p :=
  Node.mem_places_iff

theorem mem_places_of_children (met : p ∈ u.places) {child : Place} (below : child ∈ p.children) :
    child ∈ u.places :=
  mem_places_iff.2 ((mem_places_iff.1 met).tail below)

end CompilationUnit

end NullGuard
