import NullGuard.Helper
import NullGuard.Evidence

/-!
How conditions are valued: a strategy says which shapes of expression are understood, and an outcome is
what it makes of one.
-/
namespace NullGuard

variable {ι κ : Type}

inductive Strategy where
  /-- A call of a helper has the value of the helper's body. -/
  | inline
  /-- A parameter compared to null is not null. -/
  | nonNull
  /-- Parentheses, negation and connectives, with `leaf` for everything else. -/
  | logic (leaf : Strategy)
  /-- The first of the alternatives that knows a value. -/
  | firstOf (alternatives : List Strategy)

/-- The strategy for whole conditions. -/
def Strategy.standard : Strategy := .logic (.firstOf [.inline, .nonNull])

/-- What happened during a valuation, for the debugging log. -/
inductive Note where
  | boundHit (limit : Int)
  | inlining (name : String) (passed : Nat)
  | recursion (name : String)
  | ambiguous (name : String) (candidates arity : Nat)
deriving DecidableEq, Repr

def Note.message : Note → String
  | boundHit limit => s!"recursion bound {limit} hit"
  | inlining name passed => s!"inlining {name} with {passed} pass-through argument(s)"
  | recursion name => s!"recursive call to {name}"
  | ambiguous name candidates arity =>
    s!"call to {name}: {candidates} candidate(s) of arity {arity}"

def Lookup.notes : Lookup ι κ → List Note
  | ambiguous name candidates arity => [.ambiguous name candidates arity]
  | _ => []

/-- A value, if one is known, with the evidence for it. -/
structure Outcome (ι : Type) where
  value : Option Bool
  evidence : Evidence ι
  trace : List Note := []

namespace Outcome

def unknown (evidence : Evidence ι) (trace : List Note := []) : Outcome ι :=
  ⟨none, evidence, trace⟩

/-- The outcome with notes taken before it. -/
def after (notes : List Note) (o : Outcome ι) : Outcome ι := { o with trace := notes ++ o.trace }

def negate (o : Outcome ι) : Outcome ι := { o with value := o.value.map (!·) }

/-- Evidence for no value is dropped. -/
def settle (o : Outcome ι) : Outcome ι :=
  if o.value.isNone then { o with evidence := o.evidence.clear } else o

/-- Both operands of a connective: a known value rests on the evidence of both. -/
def combine (op : Connective) (left right : Outcome ι) : Outcome ι :=
  let value := op.combine left.value right.value
  { value
    evidence := if value.isSome then left.evidence.merge right.evidence else left.evidence.clear
    trace := left.trace ++ right.trace }

end Outcome

end NullGuard
