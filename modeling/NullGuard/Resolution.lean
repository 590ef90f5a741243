import NullGuard.Helper
import NullGuard.Condition

/-!
Which method a call means. The first candidate type body with a method of the name decides, and of its
methods exactly one must take as many parameters as there are arguments. A method can be inlined if it
returns a Boolean and its body consists of returning an expression.
-/
namespace NullGuard.CompilationUnit

def helperOf? (u : CompilationUnit) (m : Method) : Option (Helper Param CallSite) :=
  if m.returnsBoolean then
    m.returned?.map fun returned =>
      { name := m.name, formals := m.params, body := some (u.conditionAt returned), unit := u.name }
  else none

/-- The methods of the name in the first candidate type body that has any. -/
def declared? (u : CompilationUnit) (site : CallSite) (name : String) : Option (List Method) :=
  site.candidates.findSome? fun scope =>
    let methods := u.methodsNamed scope.span name
    if methods.isEmpty then none else some methods

/-- The helper that a call means. It is read off its method at each call; `consultAll_eq_map` says that
remembering helpers by the spans of their methods would come to the same. -/
def lookup (u : CompilationUnit) (site : CallSite) (arity : Nat) : Lookup Param CallSite :=
  match site.name with
  | none => .absent
  | some name =>
    match u.declared? site name with
    | none => .absent
    | some methods =>
      match methods.filter fun m => !m.isConstructor && m.params.length = arity with
      | [m] =>
        match u.helperOf? m with
        | some helper => .found helper
        | none => .absent
      | fitting => .ambiguous name fitting.length arity

theorem mem_methods_of_declared? {u : CompilationUnit} {site : CallSite} {name : String}
    {methods : List Method} (h : u.declared? site name = some methods) :
    ∀ m ∈ methods, m ∈ u.methods := by
  intro m member
  obtain ⟨scope, -, found⟩ := List.exists_of_findSome?_eq_some h
  simp only at found
  split at found
  · cases found
  · cases found
    exact (List.mem_filter.1 member).1

theorem mem_of_lookup {u : CompilationUnit} {site : CallSite} {arity : Nat}
    {helper : Helper Param CallSite} (h : u.lookup site arity = .found helper) :
    helper ∈ u.methods.filterMap u.helperOf? := by
  unfold lookup at h
  split at h
  · cases h
  split at h
  · cases h
  next methods declared =>
  split at h
  next m only =>
    split at h
    next helper found =>
      cases h
      have member : m ∈ methods := (List.mem_filter.1 (only ▸ List.mem_singleton_self m)).1
      exact List.mem_filterMap.2 ⟨m, mem_methods_of_declared? declared m member, found⟩
    next => cases h
  · cases h

def resolver (u : CompilationUnit) : Resolver Param CallSite where
  lookup := u.lookup
  helpers := u.methods.filterMap u.helperOf?
  mem_helpers _ _ _ found := mem_of_lookup found

end NullGuard.CompilationUnit
