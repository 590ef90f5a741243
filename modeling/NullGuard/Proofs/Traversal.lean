import Mathlib.Data.List.Lex
import Mathlib.Data.List.Sort
import NullGuard.Proofs.Outermost

/-!
The walk is a preorder traversal. The loop over a stack meets the places that recursion over the tree
lists: a node, then what is below its first child, then what is below the next one. To say that each
node is met once, although two nodes may look the same, a node is named by its address, the numbers of
the children on the way to it. The addresses come in lexicographic order, an address before those it is
the beginning of.

The findings follow the walk. So in a well-nested tree they come in the order of their starts, a
statement comes before those inside it, and no statement is reported twice.
-/
namespace NullGuard

namespace Node

mutual

/-- The node and the places below it, child by child. -/
def preorder (above : List Node) : Node → List Place
  | mk label span children =>
    ⟨mk label span children, above⟩ :: preorderAll (mk label span children :: above) children

def preorderAll (above : List Node) : List Node → List Place
  | [] => []
  | n :: rest => n.preorder above ++ preorderAll above rest

end

theorem preorder_eq_cons (above : List Node) (n : Node) :
    n.preorder above = ⟨n, above⟩ :: preorderAll (n :: above) n.children := by
  cases n
  rfl

theorem preorderAll_eq_flatMap (above : List Node) (ns : List Node) :
    preorderAll above ns = ns.flatMap (·.preorder above) := by
  induction ns with
  | nil => rfl
  | cons n rest ih => rw [preorderAll, ih, List.flatMap_cons]

mutual

/-- The addresses of the nodes at and below a node, in the order of the recursion. -/
def addresses : Node → List (List Nat)
  | mk _ _ children => [] :: addressesFrom 0 children

/-- The addresses in siblings, the first of which has the given number. -/
def addressesFrom (index : Nat) : List Node → List (List Nat)
  | [] => []
  | n :: rest => n.addresses.map (index :: ·) ++ addressesFrom (index + 1) rest

end

theorem addresses_eq_cons (n : Node) : n.addresses = [] :: addressesFrom 0 n.children := by
  cases n
  rfl

theorem eq_cons_of_mem_addressesFrom {index : Nat} {ns : List Node} {a : List Nat}
    (member : a ∈ addressesFrom index ns) : ∃ i rest, index ≤ i ∧ a = i :: rest := by
  induction ns generalizing index with
  | nil => cases member
  | cons n ns ih =>
    rcases List.mem_append.1 member with first | later
    · obtain ⟨rest, -, rfl⟩ := List.mem_map.1 first
      exact ⟨index, rest, Nat.le_refl _, rfl⟩
    · obtain ⟨i, rest, after, rfl⟩ := ih later
      exact ⟨i, rest, Nat.le_of_succ_le after, rfl⟩

theorem cons_mem_addressesFrom {index i : Nat} {ns : List Node} {n : Node} {a : List Nat}
    (found : ns[i]? = some n) (member : a ∈ n.addresses) : (index + i) :: a ∈ addressesFrom index ns := by
  induction ns generalizing index i with
  | nil => simp at found
  | cons first rest ih =>
    rw [addressesFrom, List.mem_append]
    cases i with
    | zero =>
      obtain rfl : first = n := by simpa using found
      exact .inl (List.mem_map_of_mem member)
    | succ i =>
      have later : (index + 1 + i) :: a ∈ addressesFrom (index + 1) rest := ih (by simpa using found)
      exact .inr (by rwa [Nat.add_right_comm, Nat.add_assoc] at later)

mutual

/-- An address comes before the longer ones that begin with it, and then those below the next child
follow. -/
theorem pairwise_addresses : (n : Node) → n.addresses.Pairwise (· < ·)
  | mk _ _ children => by
    refine .cons (fun a member => ?_) (pairwise_addressesFrom 0 children)
    obtain ⟨i, rest, -, rfl⟩ := eq_cons_of_mem_addressesFrom member
    exact List.nil_lt_cons i rest

theorem pairwise_addressesFrom (index : Nat) :
    (ns : List Node) → (addressesFrom index ns).Pairwise (· < ·)
  | [] => .nil
  | n :: rest => by
    refine List.pairwise_append.2 ⟨?_, pairwise_addressesFrom (index + 1) rest, ?_⟩
    · exact (pairwise_addresses n).map _ fun a b less => List.cons_lt_cons_iff.2 (.inr ⟨rfl, less⟩)
    · intro a first b later
      obtain ⟨a, -, rfl⟩ := List.mem_map.1 first
      obtain ⟨i, b, after, rfl⟩ := eq_cons_of_mem_addressesFrom later
      exact List.cons_lt_cons_iff.2 (.inl after)

end

end Node

namespace Place

/-- The place at an address below a place. -/
def at? (p : Place) : List Nat → Option Place
  | [] => some p
  | index :: rest => p.children[index]?.bind (·.at? rest)

/-- The stack holds what is still to be listed, so the walk lists it entry by entry. -/
theorem walk_eq_flatMap (stack : List Place) :
    walk stack = stack.flatMap fun p => p.node.preorder p.above := by
  fun_induction walk stack with
  | case1 => rfl
  | case2 p stack ih =>
    have below : p.children.flatMap (fun c => c.node.preorder c.above) =
        Node.preorderAll (p.node :: p.above) p.node.children := by
      rw [children, List.flatMap_map, Node.preorderAll_eq_flatMap]
    rw [ih, List.flatMap_append, below, List.flatMap_cons, Node.preorder_eq_cons, List.cons_append]

end Place

namespace Node

theorem places_eq_preorder (root : Node) : root.places = root.preorder [] := by
  rw [places, Place.walk_eq_flatMap, List.flatMap_singleton]

mutual

/-- The preorder lists what is at the addresses. -/
theorem map_at?_addresses (above : List Node) :
    (n : Node) → n.addresses.map (Place.at? ⟨n, above⟩) = (n.preorder above).map some
  | mk label span children => by
    have below := map_at?_addressesFrom ⟨mk label span children, above⟩ [] children rfl
    exact congrArg (some _ :: ·) below

theorem map_at?_addressesFrom (p : Place) (before : List Node) :
    (ns : List Node) → p.node.children = before ++ ns →
      (addressesFrom before.length ns).map p.at? =
        (preorderAll (p.node :: p.above) ns).map some
  | [], _ => rfl
  | n :: rest, split => by
    have first := map_at?_addresses (p.node :: p.above) n
    have later := map_at?_addressesFrom p (before ++ [n]) rest (by simp [split])
    have here : p.children[before.length]? = some ⟨n, p.node :: p.above⟩ := by
      simp [Place.children, split]
    have enter : p.at? ∘ (before.length :: ·) = Place.at? ⟨n, p.node :: p.above⟩ := by
      funext a
      simp [Place.at?, here]
    rw [List.length_append, List.length_singleton] at later
    rw [addressesFrom, preorderAll, List.map_append, List.map_append, List.map_map, enter, first, later]

end

end Node

theorem Place.mem_addresses_iff {p : Place} {a : List Nat} :
    a ∈ p.node.addresses ↔ ∃ q, p.at? a = some q := by
  constructor
  · intro member
    have listed := List.mem_map_of_mem (f := p.at?) member
    rw [p.node.map_at?_addresses p.above] at listed
    obtain ⟨q, -, found⟩ := List.mem_map.1 listed
    exact ⟨q, found.symm⟩
  · rintro ⟨q, found⟩
    induction a generalizing p with
    | nil =>
      rw [Node.addresses_eq_cons]
      exact List.mem_cons_self
    | cons i a ih =>
      obtain ⟨child, taken, found⟩ := Option.bind_eq_some_iff.1 found
      rw [children, List.getElem?_map] at taken
      obtain ⟨n, numbered, rfl⟩ := Option.map_eq_some_iff.1 taken
      have below : (0 + i) :: a ∈ Node.addressesFrom 0 p.node.children :=
        Node.cons_mem_addressesFrom numbered (ih found)
      rw [Nat.zero_add] at below
      rw [Node.addresses_eq_cons]
      exact List.mem_cons_of_mem _ below

namespace CompilationUnit

/-- The place at an address of the tree. -/
def placeAt? (u : CompilationUnit) (a : List Nat) : Option Place := Place.at? ⟨u.tree.root, []⟩ a

/-- The addresses of the statements that are reported. -/
def reported (u : CompilationUnit) (limit : Int) : List (List Nat) :=
  u.tree.root.addresses.filter fun a => ((u.placeAt? a).bind (u.findingAt? limit)).isSome

variable (u : CompilationUnit) (limit : Int)

theorem map_placeAt?_addresses :
    u.tree.root.addresses.map u.placeAt? = u.places.map some := by
  rw [places, Node.places_eq_preorder]
  exact Node.map_at?_addresses [] u.tree.root

theorem map_some_findings :
    (u.findings limit).map some =
      (u.reported limit).map fun a => (u.placeAt? a).bind (u.findingAt? limit) := by
  have visited : u.places.filterMap (u.findingAt? limit) =
      u.tree.root.addresses.filterMap fun a => (u.placeAt? a).bind (u.findingAt? limit) := by
    have lists := congrArg (List.filterMap (·.bind (u.findingAt? limit))) (u.map_placeAt?_addresses)
    rw [List.filterMap_map, List.filterMap_map] at lists
    exact lists.symm
  rw [findings_eq_filterMap, visited, List.map_filterMap_some_eq_filter_map_isSome, List.filter_map]
  rfl

theorem pairwise_reported : (u.reported limit).Pairwise (· < ·) :=
  u.tree.root.pairwise_addresses.filter _

variable {u limit}

theorem mem_reported_iff {a : List Nat} :
    a ∈ u.reported limit ↔ ∃ p f, u.placeAt? a = some p ∧ u.findingAt? limit p = some f := by
  have known : a ∈ u.tree.root.addresses ↔ ∃ p, u.placeAt? a = some p :=
    Place.mem_addresses_iff (p := ⟨u.tree.root, []⟩)
  rw [reported, List.mem_filter, known, Option.isSome_iff_exists]
  simp only [Option.bind_eq_some_iff]
  constructor
  · rintro ⟨-, f, p, found, finding⟩
    exact ⟨p, f, found, finding⟩
  · rintro ⟨p, f, found, finding⟩
    exact ⟨⟨p, found⟩, f, p, found, finding⟩

/-- Of two reported statements the one that encloses the other is reported first. -/
theorem sublist_reported {a b : List Nat} (outer : a ∈ u.reported limit)
    (inner : a ++ b ∈ u.reported limit) (proper : b ≠ []) :
    [a, a ++ b].Sublist (u.reported limit) := by
  have less : a < a ++ b := by
    obtain ⟨i, b, rfl⟩ := List.exists_cons_of_ne_nil proper
    simpa using List.Lex.append_left (· < ·) (List.Lex.nil (a := i) (l := b)) a
  have ordered : [a, a ++ b].Pairwise (· < ·) := List.pairwise_pair.2 less
  have among : [a, a ++ b] ⊆ u.reported limit := by simp [outer, inner]
  exact List.sublist_of_subperm_of_pairwise (List.subperm_of_subset ordered.nodup among) ordered
    (u.pairwise_reported limit)

/-- A later finding lies within an earlier one or starts after it. -/
theorem pairwise_findings (nested : u.tree.root.WellNested) :
    (u.findings limit).Pairwise fun f g =>
      f.span.start ≤ g.span.start ∧
        (g.span.stop ≤ f.span.stop ∨ f.span.stop ≤ g.span.start) := by
  rw [findings_eq_filterMap]
  refine List.pairwise_filterMap.2 ((pairwise_places nested).imp_of_mem ?_)
  intro p q met met' order f found g found'
  rw [(findingAt?_eq_some found).2, (findingAt?_eq_some found').2]
  rcases order with inner | after
  · obtain ⟨lower, upper⟩ := within_of_mem_below nested met inner
    exact ⟨lower, .inl upper⟩
  · have proper := ((mem_places_iff.1 met).within nested).2.2.proper
    exact ⟨Nat.le_trans proper after, .inr after⟩

end CompilationUnit

/-- For every unit the walk is the recursive preorder, and it meets what is at each address of the tree
once, in the order of the addresses. The findings are those at the reported addresses, one for each:
these are the addresses of `if` statements, in order and without repetition, and one that encloses
another comes before it. If the tree is well nested, no finding starts before an earlier one, and it
lies within that one or starts after it. -/
theorem findings_in_preorder (u : CompilationUnit) (limit : Int) :
    u.places = u.tree.root.preorder [] ∧
      u.tree.root.addresses.map u.placeAt? = u.places.map some ∧
      u.tree.root.addresses.Pairwise (· < ·) ∧
      (∀ a, a ∈ u.tree.root.addresses ↔ ∃ p, u.placeAt? a = some p) ∧
      ((u.findings limit).map some =
        (u.reported limit).map fun a => (u.placeAt? a).bind (u.findingAt? limit)) ∧
      (u.reported limit).Sublist u.tree.root.addresses ∧ (u.reported limit).Nodup ∧
      (∀ a ∈ u.reported limit, ∃ p f, u.placeAt? a = some p ∧ u.findingAt? limit p = some f ∧
        p.node.kind = .ifStatement ∧ f.span = p.node.span) ∧
      (∀ a b, a ∈ u.reported limit → a ++ b ∈ u.reported limit → b ≠ [] →
        [a, a ++ b].Sublist (u.reported limit)) ∧
      (u.tree.root.WellNested →
        (u.findings limit).Pairwise fun f g =>
          f.span.start ≤ g.span.start ∧
            (g.span.stop ≤ f.span.stop ∨ f.span.stop ≤ g.span.start)) := by
  refine ⟨u.tree.root.places_eq_preorder, u.map_placeAt?_addresses, u.tree.root.pairwise_addresses,
    fun a => Place.mem_addresses_iff (p := ⟨u.tree.root, []⟩), u.map_some_findings limit,
    List.filter_sublist, (u.pairwise_reported limit).nodup, fun a member => ?_,
    fun a b => CompilationUnit.sublist_reported, CompilationUnit.pairwise_findings⟩
  obtain ⟨p, f, found, finding⟩ := CompilationUnit.mem_reported_iff.1 member
  obtain ⟨isIf, span⟩ := CompilationUnit.findingAt?_eq_some finding
  exact ⟨p, f, found, finding, isIf, span⟩

/-- The check inside another one is reported after it. -/
theorem findings_in_preorder_linedUp :
    linedUpUnit.tree.root.WellNested ∧
      linedUpUnit.reported 30 = [[3, 0], [3, 1], [3, 1, 1, 0]] ∧
      [[3, 1], [3, 1, 1, 0]].Sublist (linedUpUnit.reported 30) ∧
      (linedUpUnit.findings 30).map (·.span) = [⟨20, 35⟩, ⟨38, 74⟩, ⟨55, 70⟩] ∧
      (linedUpUnit.findings 30).Pairwise fun f g =>
        f.span.start ≤ g.span.start ∧
          (g.span.stop ≤ f.span.stop ∨ f.span.stop ≤ g.span.start) := by
  obtain ⟨-, -, -, -, -, -, -, -, first, order⟩ := findings_in_preorder linedUpUnit 30
  have nested : linedUpUnit.tree.root.WellNested := linedUp_spaced.nested
  have reported : linedUpUnit.reported 30 = [[3, 0], [3, 1], [3, 1, 1, 0]] := by
    rw [CompilationUnit.reported, CompilationUnit.findingAt?_eq_checkAt?]
    decide +kernel
  refine ⟨nested, reported, ?_, by rw [findings_linedUp]; rfl, order nested⟩
  exact first [3, 1] [1, 0] (by simp [reported]) (by simp [reported]) (List.cons_ne_nil 1 [0])

end NullGuard
