import NullGuard.Tree.Node

/-!
Methods and constructors with their parameters, read off their declarations. A parameter is told from
all others by the span of the declaration it belongs to, so reading a declaration twice gives equal
parameters.
-/
namespace NullGuard

structure Param where
  /-- The span of the declaring method. -/
  method : Span
  methodName : String
  name : String
  /-- The index among the parameters of the method. -/
  position : Nat
  /-- The declared type as written. -/
  typeName : String
  /-- False for a primitive type that is no array. -/
  isReference : Bool
deriving DecidableEq, Repr

namespace Node

mutual

/-- The node that names what a declaration declares: its name if that is an identifier, else what its
first declarator declares, else its last identifier. -/
def declaredName? : Node → Option Node
  | mk _ _ children =>
    match (children.find? (·.field = some .name)).filter (·.kind = .identifier) with
    | some name => some name
    | none =>
      match declarator? children with
      | some name? => name?
      | none => (children.filter fun n => n.named && n.kind = .identifier).getLast?

/-- What the first declarator among some nodes declares, if there is a declarator. -/
def declarator? : List Node → Option (Option Node)
  | [] => none
  | n :: rest =>
    if n.named && n.kind = .declarator then some n.declaredName? else declarator? rest

end

/-- The type of a parameter declaration and whether its values are references. Varargs are arrays.
Receiver parameters and comments declare none. -/
def paramType? (n : Node) : Option (Option Node × Bool) :=
  match n.kind with
  | .formalParameter =>
    let type := n.child? .type
    some (type, !type.any (·.kind.isPrimitive) || (n.child? .dimensions).isSome)
  | .spreadParameter =>
    some (n.namedChildren.find? fun c => c.kind ≠ .modifiers ∧ c.kind ≠ .declarator, true)
  | _ => none

end Node

/-- Parameters are numbered in the order of their declarations. -/
def Param.readAll (source : Bytes) (method : Span) (methodName : String) (declarations : List Node) :
    List Param :=
  let read := declarations.filterMap fun n => do
    let (type, isReference) ← n.paramType?
    let name ← n.declaredName?
    return (name, type, isReference)
  read.zipIdx.map fun ((name, type, isReference), position) =>
    { method, methodName, name := name.text source, position
      typeName := (type.map (·.text source)).getD ""
      isReference }

/-- An enclosing type body, with the name of the type if it has one. -/
structure Scope where
  span : Span
  owner : Option String
deriving DecidableEq, Repr

/-- The name of the type whose body has the given parent. A class body in an instance creation belongs
to no named type. -/
def Scope.ownerOf (source : Bytes) (parent : Option Node) : Option String := do
  let parent ← parent
  let name ← parent.child? .name
  if parent.kind = .creation then none else some (name.text source)

/-- The type bodies among some enclosing nodes, the innermost first. -/
def Scope.among (source : Bytes) : List Node → List Scope
  | [] => []
  | n :: above =>
    if n.kind.isTypeBody then ⟨n.span, ownerOf source above.head?⟩ :: among source above
    else among source above

/-- A method or constructor. -/
structure Method where
  place : Place
  name : String
  params : List Param

namespace Method

def node (m : Method) : Node := m.place.node

def span (m : Method) : Span := m.node.span

def isConstructor (m : Method) : Bool := m.node.kind = .constructor

/-- The span of the type body that declares the method. -/
def scope? (m : Method) : Option Span := (m.place.above.find? (·.kind.isTypeBody)).map (·.span)

/-- The return type as written; a constructor has none. -/
def returnType (m : Method) (source : Bytes) : String :=
  ((m.node.child? .type).map (·.text source)).getD ""

/-- The method returns a primitive Boolean, and no array of them. -/
def returnsBoolean (m : Method) : Bool :=
  (m.node.child? .type).any (·.kind = .booleanType) && (m.node.child? .dimensions).isNone

/-- The expression that the body consists of returning. -/
def returned? (m : Method) : Option Place := do
  let body ← m.place.child? .body
  guard (body.node.kind = .block)
  let [statement] := body.codeChildren | none
  guard (statement.node.kind = .returnStatement)
  statement.codeChildren.head?

def param? (m : Method) (name : String) : Option Param := m.params.find? (·.name = name)

/-- Reads a declaration; one without a name is passed over. -/
def read? (source : Bytes) (p : Place) : Option Method := do
  let name := (← p.node.child? .name).text source
  let declarations := ((p.node.child? .parameters).map Node.namedChildren).getD []
  return ⟨p, name, Param.readAll source p.node.span name declarations⟩

/-- The methods and constructors of a tree, by where they start. -/
def readAll (source : Bytes) (root : Node) : List Method :=
  let places := root.places.filter (·.node.kind.isMethod)
  let sorted := places.mergeSort fun p q => p.node.span.start ≤ q.node.span.start
  sorted.filterMap (read? source)

end Method

end NullGuard
