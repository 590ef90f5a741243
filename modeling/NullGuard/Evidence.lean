import NullGuard.Expr

/-!
What a valuation collects: the parameters whose comparison to null it relied on, in order of discovery
and with repetitions, under a restriction to the parameters that may be relied on at all.
-/
namespace NullGuard

variable {ι κ : Type}

/-- The parameters that may be relied on. -/
inductive Eligibility (ι : Type) where
  | all
  | only (params : List ι)
deriving DecidableEq

namespace Eligibility

variable [DecidableEq ι]

def admits : Eligibility ι → ι → Bool
  | all, _ => true
  | only params, p => p ∈ params

/-- No parameter is eligible. -/
def isEmpty : Eligibility ι → Bool
  | all => false
  | only params => params.isEmpty

/-- The eligible parameter that an expression names, parentheses aside. -/
def param? (eligible : Eligibility ι) (e : Expr ι κ) : Option ι :=
  e.param?.filter eligible.admits

/-- The eligible parameter compared to null by the operands, the left operand tried first. -/
def compared? (eligible : Eligibility ι) (left right : Expr ι κ) : Option ι :=
  (if right.isNull then eligible.param? left else none).or
    (if left.isNull then eligible.param? right else none)

/-- Pairs of a caller's eligible parameter, handed over unchanged, with the formal that receives it. -/
def passThrough (eligible : Eligibility ι) (args : List (Expr ι κ)) (formals : List ι) :
    List (ι × ι) :=
  (args.zip formals).filterMap fun pair => (eligible.param? pair.1).map (·, pair.2)

/-- The distinct members of a list as a restriction. -/
def ofList (params : List ι) : Eligibility ι := only params.eraseDups

theorem admits_of_param? {eligible : Eligibility ι} {e : Expr ι κ} {p : ι}
    (h : eligible.param? e = some p) : eligible.admits p = true :=
  (Option.filter_eq_some_iff.1 h).2

theorem admits_of_compared? {eligible : Eligibility ι} {left right : Expr ι κ} {p : ι}
    (h : eligible.compared? left right = some p) : eligible.admits p = true := by
  rcases Option.or_eq_some_iff.1 h with h | ⟨-, h⟩ <;> split at h
  · exact admits_of_param? h
  · cases h
  · exact admits_of_param? h
  · cases h

end Eligibility

/-- The caller's parameter behind a helper's formal: that of the first pair that hands one over to
it. -/
def handedBy [DecidableEq ι] (pairs : List (ι × ι)) (formal : ι) : Option ι :=
  (pairs.find? (·.2 = formal)).map (·.1)

/-- The caller's parameters behind a helper's formals. -/
def renameBack [DecidableEq ι] (pairs : List (ι × ι)) (formals : List ι) : List ι :=
  formals.filterMap (handedBy pairs)

structure Evidence (ι : Type) where
  /-- The parameters relied on so far. -/
  affected : List ι := []
  eligible : Eligibility ι := .all
deriving DecidableEq

namespace Evidence

def clear (evidence : Evidence ι) : Evidence ι := { evidence with affected := [] }

def push (evidence : Evidence ι) (p : ι) : Evidence ι :=
  { evidence with affected := evidence.affected ++ [p] }

/-- Adds what the other evidence relied on; the restriction stays. -/
def merge (evidence other : Evidence ι) : Evidence ι :=
  { evidence with affected := evidence.affected ++ other.affected }

@[simp] theorem affected_clear (e : Evidence ι) : e.clear.affected = [] := rfl
@[simp] theorem eligible_clear (e : Evidence ι) : e.clear.eligible = e.eligible := rfl
@[simp] theorem affected_push (e : Evidence ι) (p : ι) : (e.push p).affected = e.affected ++ [p] := rfl
@[simp] theorem eligible_push (e : Evidence ι) (p : ι) : (e.push p).eligible = e.eligible := rfl
@[simp] theorem affected_merge (e f : Evidence ι) :
    (e.merge f).affected = e.affected ++ f.affected := rfl
@[simp] theorem eligible_merge (e f : Evidence ι) : (e.merge f).eligible = e.eligible := rfl

end Evidence

end NullGuard
