import Mathlib.Data.List.Forall2
import NullGuard.Proofs.Levels

/-!
What operands are looked at for. As an operand of a comparison or as an argument of a call, an
expression counts only for the parameter that it names and for being the null literal. Expressions
that agree in both can take each other's place there.
-/
namespace NullGuard

variable {ι κ : Type}

/-- The expressions name the same parameter, if any, and are the null literal alike. -/
structure Expr.SameOperand (e e' : Expr ι κ) : Prop where
  param? : e.param? = e'.param?
  isNull : e.isNull = e'.isNull

/-- No expression is the null literal and names a parameter as well. -/
theorem Expr.param?_of_isNull {e : Expr ι κ} (null : e.isNull = true) : e.param? = none := by
  unfold Expr.isNull at null
  unfold Expr.param?
  split at null
  next shape => rw [shape]
  · cases null

variable [DecidableEq ι]

namespace Eligibility

theorem compared?_congr (eligible : Eligibility ι) {left left' right right' : Expr ι κ}
    (l : left.SameOperand left') (r : right.SameOperand right') :
    eligible.compared? left right = eligible.compared? left' right' := by
  simp only [compared?, param?, l.param?, l.isNull, r.param?, r.isNull]

/-- It does not matter on which side the null literal stands. -/
theorem compared?_comm (eligible : Eligibility ι) (left right : Expr ι κ) :
    eligible.compared? left right = eligible.compared? right left := by
  unfold compared?
  cases nullLeft : left.isNull with
  | false => simp
  | true =>
    have unnamed : eligible.param? left = none := by
      rw [param?, Expr.param?_of_isNull nullLeft, Option.filter_none]
    simp [unnamed]

theorem passThrough_congr (eligible : Eligibility ι) {args args' : List (Expr ι κ)}
    (each : List.Forall₂ Expr.SameOperand args args') (formals : List ι) :
    eligible.passThrough args formals = eligible.passThrough args' formals := by
  induction each generalizing formals with
  | nil => rfl
  | @cons arg arg' args args' same rest ih =>
    cases formals with
    | nil => rfl
    | cons formal formals =>
      have first : eligible.param? arg = eligible.param? arg' := by
        rw [param?, param?, same.param?]
      have others := ih formals
      unfold passThrough at others ⊢
      rw [List.zip_cons_cons, List.zip_cons_cons, List.filterMap_cons, List.filterMap_cons, first,
        others]

end Eligibility

/-- A call asks for the same inlining with arguments that can take the place of its own. -/
theorem Resolver.frame?_congr (resolver : Resolver ι κ) (unit : Option String)
    (eligible : Eligibility ι) (callee : κ) {args args' : List (Expr ι κ)}
    (each : List.Forall₂ Expr.SameOperand args args') :
    resolver.frame? unit eligible callee args = resolver.frame? unit eligible callee args' := by
  have handed : eligible.passThrough args = eligible.passThrough args' :=
    funext (eligible.passThrough_congr each)
  unfold Resolver.frame? Env.frame?
  rw [each.length_eq, handed]

end NullGuard
