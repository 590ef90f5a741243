import NullGuard.CompilationUnit

namespace NullGuard

/-- What a call is made on. -/
inductive Receiver where
  | implicit
  | self
  /-- A plain name, which may be that of an enclosing type. -/
  | named (owner : String)
  | expression
deriving DecidableEq, Repr

/-- A call in a source, with what decides which method it means. -/
structure CallSite where
  span : Span
  name : Option String
  receiver : Receiver
  /-- The enclosing type bodies, the innermost first. -/
  scopes : List Scope
deriving DecidableEq, Repr

/-- The type bodies in which the called method may be declared, in order of preference. A call on the
instance looks at the innermost one, a call on a name at the innermost type of that name. -/
def CallSite.candidates (site : CallSite) : List Scope :=
  match site.receiver with
  | .implicit => site.scopes
  | .self => site.scopes.take 1
  | .named owner => (site.scopes.filter (·.owner = some owner)).take 1
  | .expression => []

namespace CompilationUnit

def receiver (u : CompilationUnit) (n : Node) : Receiver :=
  match n.child? .object with
  | none => .implicit
  | some object =>
    match object.kind with
    | .self => .self
    | .identifier => .named (u.text object)
    | _ => .expression

def callSite (u : CompilationUnit) (above : List Node) (n : Node) : CallSite :=
  { span := n.span
    name := (n.child? .name).map u.text
    receiver := u.receiver n
    scopes := u.scopes above }

end CompilationUnit

end NullGuard
