import NullGuard.Method

/-!
A source with its syntax tree and its methods: what names mean at a place of the tree.
-/
namespace NullGuard

structure CompilationUnit where
  source : Bytes
  tree : SyntaxTree
  /-- The path of the file, if the source is one. -/
  name : Option String := none
  methods : List Method := Method.readAll source tree.root
  methods_eq : methods = Method.readAll source tree.root := by rfl

namespace CompilationUnit

/-- How messages call the unit. -/
def titleOf (name : Option String) : String :=
  match name with
  | some title => if title.isEmpty then "<source>" else title
  | none => "<source>"

def title (u : CompilationUnit) : String := titleOf u.name

def places (u : CompilationUnit) : List Place := u.tree.root.places

def text (u : CompilationUnit) (n : Node) : String := n.text u.source

/-- The method declared at a span; of several the last one. -/
def methodAt? (u : CompilationUnit) (span : Span) : Option Method :=
  u.methods.reverse.find? (·.span = span)

/-- One method for each span, in the order of the first ones. -/
def distinctMethods (u : CompilationUnit) : List Method :=
  (u.methods.map (·.span)).eraseDups.filterMap u.methodAt?

/-- The methods of a name declared in a type body. -/
def methodsNamed (u : CompilationUnit) (scope : Span) (name : String) : List Method :=
  u.methods.filter fun m => m.scope? = some scope && m.name = name

/-- The type bodies that declare methods, each once. -/
def declaringScopes (u : CompilationUnit) : List Span := (u.methods.filterMap (·.scope?)).eraseDups

/-- The names of the methods declared in a type body, each once. -/
def namesIn (u : CompilationUnit) (scope : Span) : List String :=
  ((u.methods.filter (·.scope? = some scope)).map (·.name)).eraseDups

/-- The method that the nearest method declaration above declares. -/
def enclosingMethod? (u : CompilationUnit) (above : List Node) : Option Method :=
  (above.find? (·.kind.isMethod)).bind fun n => u.methodAt? n.span

/-- The parameter of the enclosing method that an identifier names. -/
def paramNamed? (u : CompilationUnit) (above : List Node) (identifier : Node) : Option Param :=
  (u.enclosingMethod? above).bind (·.param? (u.text identifier))

def scopes (u : CompilationUnit) (above : List Node) : List Scope := Scope.among u.source above

/-- The first and the last line of a method, counted from one. -/
def lines (u : CompilationUnit) (m : Method) : Nat × Nat :=
  (u.source.row m.span.start + 1, u.source.row m.span.stop + 1)

end CompilationUnit

end NullGuard
