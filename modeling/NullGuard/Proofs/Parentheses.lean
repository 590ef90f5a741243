import NullGuard.Proofs.Operands

/-!
Parentheses. Around an operand of a comparison or an argument of a call they are looked through at no
cost; around a condition they take up a level. So a condition without its parentheses knows all that
the condition knows within the same levels, and the condition knows all that it does without them, with
as many more levels as parentheses stand on one way down.
-/
namespace NullGuard

variable {ι κ : Type}

namespace Expr

mutual

/-- The expression without any of its parentheses. -/
def withoutParens : Expr ι κ → Expr ι κ
  | paren inner => inner.withoutParens
  | not operand => not operand.withoutParens
  | connect op left right => connect op left.withoutParens right.withoutParens
  | compare left right negated => compare left.withoutParens right.withoutParens negated
  | null => null
  | param p => param p
  | call callee args => call callee (withoutParensAll args)
  | other text => other text

def withoutParensAll : List (Expr ι κ) → List (Expr ι κ)
  | [] => []
  | arg :: args => arg.withoutParens :: withoutParensAll args

end

mutual

/-- The largest number of parentheses on a way from the root to a leaf. -/
def parenDepth : Expr ι κ → Nat
  | paren inner => inner.parenDepth + 1
  | not operand => operand.parenDepth
  | connect _ left right => max left.parenDepth right.parenDepth
  | compare left right _ => max left.parenDepth right.parenDepth
  | null => 0
  | param _ => 0
  | call _ args => parenDepthAll args
  | other _ => 0

def parenDepthAll : List (Expr ι κ) → Nat
  | [] => 0
  | arg :: args => max arg.parenDepth (parenDepthAll args)

end

/-- Parentheses in and around an operand are looked through. -/
theorem sameOperand_withoutParens (e : Expr ι κ) : e.withoutParens.SameOperand e := by
  induction e using bare.induct with
  | case1 inner ih => exact ⟨ih.param?, ih.isNull⟩
  | case2 e isParen =>
    cases e with
    | paren inner => exact absurd rfl (isParen inner)
    | _ => exact ⟨rfl, rfl⟩

theorem forall₂_withoutParensAll (args : List (Expr ι κ)) :
    List.Forall₂ SameOperand (withoutParensAll args) args := by
  induction args with
  | nil => exact .nil
  | cons arg args ih => exact .cons arg.sameOperand_withoutParens ih

end Expr

namespace Resolver

variable [DecidableEq ι] [DecidableEq κ] (resolver : Resolver ι κ) (unit : Option String)

theorem check_withoutParens_compare (n : Nat) (watched : Option (List (Inlining ι κ)))
    (eligible : Eligibility ι) (left right : Expr ι κ) (negated : Bool) :
    resolver.check unit n watched eligible (Expr.compare left right negated).withoutParens =
      resolver.check unit n watched eligible (.compare left right negated) := by
  have compared := eligible.compared?_congr left.sameOperand_withoutParens
    right.sameOperand_withoutParens
  cases n with
  | zero => rfl
  | succ n => rw [Expr.withoutParens, check, check, compared]

theorem check_withoutParens_call (n : Nat) (watched : Option (List (Inlining ι κ)))
    (eligible : Eligibility ι) (callee : κ) (args : List (Expr ι κ)) :
    resolver.check unit n watched eligible (Expr.call callee args).withoutParens =
      resolver.check unit n watched eligible (.call callee args) := by
  have found := resolver.frame?_congr unit eligible callee (Expr.forall₂_withoutParensAll args)
  cases n with
  | zero => rfl
  | succ n => rw [Expr.withoutParens, check, check, found]

/-- Without its parentheses an expression knows what it knows with them, within no fewer levels. -/
theorem check_extends_withoutParens {n m : Nat} (le : n ≤ m)
    (watched : Option (List (Inlining ι κ))) (eligible : Eligibility ι) (e : Expr ι κ) :
    NullCheck.Extends (resolver.check unit n watched eligible e)
      (resolver.check unit m watched eligible e.withoutParens) := by
  induction n generalizing m e with
  | zero => exact .of_none _
  | succ n ih =>
    cases e with
    | paren inner => exact ih (Nat.le_of_succ_le le) inner
    | not operand =>
      obtain ⟨m, rfl⟩ : ∃ k, m = k + 1 := ⟨m - 1, by omega⟩
      exact (ih (by omega) operand).negate
    | connect op left right =>
      obtain ⟨m, rfl⟩ : ∃ k, m = k + 1 := ⟨m - 1, by omega⟩
      exact .connect op (ih (by omega) left) (ih (by omega) right)
    | compare left right negated =>
      rw [check_withoutParens_compare]
      exact resolver.check_mono unit le watched eligible _
    | call callee args =>
      rw [check_withoutParens_call]
      exact resolver.check_mono unit le watched eligible _
    | null | param p | other text => exact .of_none _

/-- With a level for each parenthesis on its longest way down an expression knows what it knows
without them. -/
theorem check_withoutParens_extends {n m : Nat} (e : Expr ι κ) (le : n + e.parenDepth ≤ m)
    (watched : Option (List (Inlining ι κ))) (eligible : Eligibility ι) :
    NullCheck.Extends (resolver.check unit n watched eligible e.withoutParens)
      (resolver.check unit m watched eligible e) := by
  -- On the levels of the expression with its parentheses: those of the other one stay at a
  -- parenthesis.
  induction m generalizing n e with
  | zero =>
    obtain rfl : n = 0 := by omega
    exact .of_none _
  | succ m ih =>
    cases e with
    | paren inner =>
      rw [Expr.parenDepth] at le
      exact ih inner (by omega)
    | not operand =>
      rw [Expr.parenDepth] at le
      cases n with
      | zero => exact .of_none _
      | succ n => exact (ih operand (by omega)).negate
    | connect op left right =>
      rw [Expr.parenDepth] at le
      cases n with
      | zero => exact .of_none _
      | succ n => exact .connect op (ih left (by omega)) (ih right (by omega))
    | compare left right negated =>
      rw [check_withoutParens_compare]
      exact resolver.check_mono unit (Nat.le_of_add_right_le le) watched eligible _
    | call callee args =>
      rw [check_withoutParens_call]
      exact resolver.check_mono unit (Nat.le_of_add_right_le le) watched eligible _
    | null | param p | other text =>
      cases n with
      | zero => exact .of_none _
      | succ n => exact .of_none _

-- No level fewer would do.
example :
    let e : Expr String String := .paren (.paren (.compare (.param "p") .null false))
    let check (levels : Nat) := HelperTable.resolver {} |>.check none levels (some []) .all
    e.parenDepth = 2 ∧ check 1 e.withoutParens = some ⟨false, ["p"]⟩ ∧ check 2 e = none ∧
      check 3 e = some ⟨false, ["p"]⟩ := by
  decide

end Resolver

/-- A condition without its parentheses keeps what is known and may rest on more; the condition itself
keeps what is known without them if it is given as many more levels as parentheses stand on one way
down. -/
theorem nullCheck?_withoutParens [DecidableEq ι] [DecidableEq κ] (e : Expr ι κ)
    (resolver : Resolver ι κ) (unit : Option String) (limit : Int) :
    NullCheck.Extends (e.nullCheck? resolver unit limit)
        (e.withoutParens.nullCheck? resolver unit limit) ∧
      NullCheck.Extends (e.withoutParens.nullCheck? resolver unit limit)
        (e.nullCheck? resolver unit (limit + e.parenDepth)) := by
  simp only [Expr.nullCheck?_eq_check]
  refine ⟨resolver.check_extends_withoutParens unit (Nat.le_refl _) (some []) .all e, ?_⟩
  by_cases positive : 0 < limit
  · have enough : limit.toNat + e.parenDepth ≤ (limit + e.parenDepth).toNat := by omega
    exact resolver.check_withoutParens_extends unit e enough (some []) .all
  · have none : limit.toNat = 0 := by omega
    rw [none]
    exact .of_none _

/-- A helper with parentheses around its comparison. -/
def parenthesizedTable : HelperTable String String where
  entries := [("isNull", {
    name := "isNull"
    formals := ["a"]
    body := some (.paren (.compare (.paren (.param "a")) .null false)) })]

/-- Within four levels the condition is known only without its parentheses, within two more also with
them. The parentheses in the helper stay and take a level both times. -/
theorem nullCheck?_withoutParens_parenthesizedTable :
    let e : Expr String String := .not (.paren (.call "isNull" [.paren (.param "p")]))
    let check (e : Expr String String) := e.nullCheck? parenthesizedTable.resolver none
    e.parenDepth = 2 ∧ check e 4 = none ∧ check e.withoutParens 4 = some ⟨true, ["p"]⟩ ∧
      (∃ wider, check e 6 = some wider ∧ wider.value = true ∧ ["p"].Sublist wider.params) ∧
      ∃ wider, check e.withoutParens 6 = some wider ∧ wider.value = true ∧
        ["p"].Sublist wider.params := by
  intro e check
  obtain ⟨-, fewer⟩ := nullCheck?_withoutParens e parenthesizedTable.resolver none 4
  obtain ⟨more, -⟩ := nullCheck?_withoutParens e parenthesizedTable.resolver none 6
  have levels (e : Expr String String) (limit : Int) : check e limit =
      parenthesizedTable.resolver.check none limit.toNat (some []) .all e :=
    e.nullCheck?_eq_check parenthesizedTable.resolver none limit
  have unknown : check e 4 = none := by
    rw [levels]
    decide
  have without : check e.withoutParens 4 = some ⟨true, ["p"]⟩ := by
    rw [levels]
    decide
  have known : check e 6 = some ⟨true, ["p"]⟩ := by
    rw [levels]
    decide
  exact ⟨rfl, unknown, without, fewer _ without, more _ known⟩

end NullGuard
