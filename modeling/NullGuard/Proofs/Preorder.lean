import NullGuard.Proofs.WellNested

/-!
The order of the walk. In a well-nested tree a place that the walk meets later is either below one that
it has met before or starts where that one has ended.
-/
namespace NullGuard

/-- Nodes in order up to a position and nodes in order from there on are in order together. -/
theorem Node.InOrder.append {start middle stop : Nat} {ns ms : List Node}
    (first : InOrder start middle ns) (second : InOrder middle stop ms) (lower : start ≤ middle)
    (upper : middle ≤ stop) : InOrder start stop (ns ++ ms) := by
  induction ns generalizing start with
  | nil =>
    cases ms with
    | nil => trivial
    | cons m ms =>
      obtain ⟨after, rest⟩ := second
      exact ⟨Nat.le_trans lower after, rest⟩
  | cons n ns ih =>
    obtain ⟨after, before, nested, rest⟩ := first
    exact ⟨after, Nat.le_trans before upper, nested, ih rest before⟩

namespace Place

/-- The places below a place, in the order of the walk. -/
def below (p : Place) : List Place := walk p.children

theorem mem_below_iff {p q : Place} : q ∈ p.below ↔ ∃ child ∈ p.children, child.Reaches q :=
  mem_walk_iff

theorem reaches_of_mem_below {p q : Place} (inside : q ∈ p.below) : p.Reaches q := by
  obtain ⟨child, among, reaches⟩ := mem_below_iff.1 inside
  exact .head among reaches

theorem mem_below_trans {p q r : Place} (outer : q ∈ p.below) (inner : r ∈ q.below) :
    r ∈ p.below := by
  obtain ⟨child, among, reaches⟩ := mem_below_iff.1 outer
  exact mem_below_iff.2 ⟨child, among, reaches.trans (reaches_of_mem_below inner)⟩

/-- What a well-nested place reaches is well nested and lies within it. -/
theorem Reaches.within {p q : Place} (reaches : p.Reaches q) (nested : p.node.WellNested) :
    p.node.span.start ≤ q.node.span.start ∧ q.node.span.stop ≤ p.node.span.stop ∧
      q.node.WellNested := by
  induction reaches with
  | refl => exact ⟨Nat.le_refl _, Nat.le_refl _, nested⟩
  | tail _ step ih =>
    obtain ⟨n, among, rfl⟩ := List.mem_map.1 step
    obtain ⟨lower, upper, nested⟩ := ih
    obtain ⟨lower', upper', nested'⟩ := nested.child among
    exact ⟨Nat.le_trans lower lower', Nat.le_trans upper' upper, nested'⟩

/-- Of two places that the walk meets, the later one is below the earlier one or starts after it. -/
theorem pairwise_walk {stack : List Place} {start stop : Nat}
    (ordered : Node.InOrder start stop (stack.map (·.node))) :
    (walk stack).Pairwise fun p q =>
      q ∈ p.below ∨ p.node.span.stop ≤ q.node.span.start := by
  fun_induction walk stack generalizing start with
  | case1 => exact .nil
  | case2 p stack ih =>
    obtain ⟨lower, upper, nested, ordered⟩ := ordered
    have within : Node.InOrder p.node.span.start p.node.span.stop (p.children.map (·.node)) := by
      rw [map_node_children]
      exact nested.inOrder
    have all : Node.InOrder p.node.span.start stop ((p.children ++ stack).map (·.node)) := by
      rw [List.map_append]
      exact within.append ordered nested.proper upper
    refine .cons ?_ (ih all)
    intro q met
    obtain ⟨r, waiting, reaches⟩ := mem_walk_iff.1 met
    rcases List.mem_append.1 waiting with child | later
    · exact .inl (mem_below_iff.2 ⟨r, child, reaches⟩)
    · obtain ⟨after, -, nested⟩ := ordered.of_mem (List.mem_map_of_mem later)
      exact .inr (Nat.le_trans after (reaches.within nested).1)

end Place

end NullGuard
