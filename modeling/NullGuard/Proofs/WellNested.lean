import NullGuard.Proofs.Walk

/-!
Spans of a syntax tree. A parser promises that every node lies within its parent, that the children of
a node follow one another in source order, and that the whole tree lies within the source. The walk
over a tree meets only nodes with the same promise.
-/
namespace NullGuard

namespace Node

mutual

/-- The node does not end before it starts, and its children lie within it in source order, each of
them well nested. -/
def WellNested : Node → Prop
  | mk _ span children => span.start ≤ span.stop ∧ InOrder span.start span.stop children

/-- Well-nested nodes that follow one another between two positions. -/
def InOrder (start stop : Nat) : List Node → Prop
  | [] => True
  | n :: rest =>
    start ≤ n.span.start ∧ n.span.stop ≤ stop ∧ n.WellNested ∧ InOrder n.span.stop stop rest

end

theorem WellNested.proper {n : Node} (nested : n.WellNested) : n.span.start ≤ n.span.stop := by
  cases n
  exact nested.1

theorem WellNested.inOrder {n : Node} (nested : n.WellNested) :
    InOrder n.span.start n.span.stop n.children := by
  cases n
  exact nested.2

theorem InOrder.of_mem {start stop : Nat} {ns : List Node} (ordered : InOrder start stop ns)
    {n : Node} (member : n ∈ ns) :
    start ≤ n.span.start ∧ n.span.stop ≤ stop ∧ n.WellNested := by
  induction ns generalizing start with
  | nil => cases member
  | cons first rest ih =>
    obtain ⟨lower, upper, nested, ordered⟩ := ordered
    rcases List.mem_cons.1 member with rfl | member
    · exact ⟨lower, upper, nested⟩
    · obtain ⟨later, within, below⟩ := ih ordered member
      have := nested.proper
      exact ⟨by omega, within, below⟩

/-- A child of a well-nested node is well nested and lies within it. -/
theorem WellNested.child {n child : Node} (nested : n.WellNested) (member : child ∈ n.children) :
    n.span.start ≤ child.span.start ∧ child.span.stop ≤ n.span.stop ∧ child.WellNested :=
  nested.inOrder.of_mem member

end Node

/-- The tree is well nested and lies within the source. -/
def CompilationUnit.WellNested (u : CompilationUnit) : Prop :=
  u.tree.root.WellNested ∧ u.tree.root.span.stop ≤ u.source.length

theorem CompilationUnit.WellNested.of_mem_places {u : CompilationUnit} (nested : u.WellNested)
    {p : Place} (member : p ∈ u.places) :
    p.node.WellNested ∧ p.node.span.stop ≤ u.source.length := by
  induction mem_places_iff.1 member with
  | refl => exact nested
  | tail met below ih =>
    obtain ⟨child, among, rfl⟩ := List.mem_map.1 below
    obtain ⟨nested, inside⟩ := ih (mem_places_iff.2 met)
    obtain ⟨-, within, nested⟩ := nested.child among
    exact ⟨nested, Nat.le_trans within inside⟩

end NullGuard
