import NullGuard.Source.Text
import NullGuard.Tree.Kind

/-!
Syntax trees of Java sources, as a parser hands them over. A node knows its span and its children in
source order; a place is a node together with the nodes above it. Tokens that fill no field carry
nothing that is looked at, so a tree may leave them out.
-/
namespace NullGuard

structure Label where
  kind : Kind
  /-- False for tokens. -/
  named : Bool := true
  field : Option Field := none
deriving DecidableEq, Repr

inductive Node where
  | mk (label : Label) (span : Span) (children : List Node)

namespace Node

def label : Node → Label
  | mk label _ _ => label

def span : Node → Span
  | mk _ span _ => span

def children : Node → List Node
  | mk _ _ children => children

def kind (n : Node) : Kind := n.label.kind

def named (n : Node) : Bool := n.label.named

def field (n : Node) : Option Field := n.label.field

/-- The node carries code: it is named and no comment. -/
def isCode (n : Node) : Bool := n.named && !n.kind.isComment

/-- The first child that fills a field. -/
def child? (n : Node) (f : Field) : Option Node := n.children.find? (·.field = some f)

def namedChildren (n : Node) : List Node := n.children.filter (·.named)

def codeChildren (n : Node) : List Node := n.children.filter (·.isCode)

def text (n : Node) (source : Bytes) : String := (source.at n.span).text

mutual

/-- Equality of trees, decided together with `decEqAll` for their children. -/
def decEq : (a b : Node) → Decidable (a = b)
  | mk label span children, mk label' span' children' =>
    if same : label = label' ∧ span = span' then
      match decEqAll children children' with
      | .isTrue h => .isTrue (by rw [same.1, same.2, h])
      | .isFalse h => .isFalse (by simp [h])
    else .isFalse (by simp only [mk.injEq]; exact fun h => same ⟨h.1, h.2.1⟩)

def decEqAll : (ns ms : List Node) → Decidable (ns = ms)
  | [], [] => .isTrue rfl
  | [], _ :: _ => .isFalse (by simp)
  | _ :: _, [] => .isFalse (by simp)
  | n :: ns, m :: ms =>
    match decEq n m with
    | .isTrue h =>
      match decEqAll ns ms with
      | .isTrue hs => .isTrue (by rw [h, hs])
      | .isFalse hs => .isFalse (by simp [hs])
    | .isFalse h => .isFalse (by simp [h])

end

instance : DecidableEq Node := decEq

mutual

/-- The number of nodes of a tree. -/
def count : Node → Nat
  | mk _ _ children => countAll children + 1

def countAll : List Node → Nat
  | [] => 0
  | n :: rest => n.count + countAll rest

end

theorem countAll_append (ns ms : List Node) : countAll (ns ++ ms) = countAll ns + countAll ms := by
  induction ns with
  | nil => simp [countAll]
  | cons n ns ih => simp [countAll, ih, Nat.add_assoc]

theorem countAll_children (n : Node) : countAll n.children + 1 = n.count := by
  cases n
  rfl

end Node

/-- A node and the nodes above it, the nearest first. -/
structure Place where
  node : Node
  above : List Node := []
deriving DecidableEq

namespace Place

def children (p : Place) : List Place :=
  p.node.children.map fun child => ⟨child, p.node :: p.above⟩

def child? (p : Place) (f : Field) : Option Place :=
  (p.node.child? f).map fun child => ⟨child, p.node :: p.above⟩

def codeChildren (p : Place) : List Place :=
  p.node.codeChildren.map fun child => ⟨child, p.node :: p.above⟩

theorem map_node_children (p : Place) : p.children.map (·.node) = p.node.children := by
  simp [children, Function.comp_def]

/-- The places at and below those on a stack, taken off its top one by one. The children of a place
go back on top, the first one uppermost. -/
def walk : List Place → List Place
  | [] => []
  | p :: stack => p :: walk (p.children ++ stack)
termination_by stack => Node.countAll (stack.map (·.node))
decreasing_by
  rw [List.map_append, Node.countAll_append, map_node_children, List.map_cons, Node.countAll,
    ← Node.countAll_children]
  omega

end Place

/-- Every place of a tree. -/
def Node.places (root : Node) : List Place := Place.walk [⟨root, []⟩]

/-- What a parser makes of a source. -/
structure SyntaxTree where
  root : Node
  hasErrors : Bool := false

/-- A parser is any function from the bytes of a source. -/
abbrev Parser := Bytes → SyntaxTree

end NullGuard
