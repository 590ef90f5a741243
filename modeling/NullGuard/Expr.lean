/-!
Conditions as the analysis sees them. Parentheses, negation, the two connectives, comparison by `==`
or `!=`, the null literal, references to parameters and calls are told apart; everything else is
`other` and may have any value. A parameter is named by an identity of type `ι`, a called function by
a key of type `κ` that a resolver understands.
-/
namespace NullGuard

/-- The two short-circuit connectives. -/
inductive Connective where
  | and
  | or
deriving DecidableEq, Repr

namespace Connective

/-- The operand value that decides the connective alone: false for `and`, true for `or`. -/
def dominant : Connective → Bool
  | and => false
  | or => true

/-- Three-valued connective: a dominant operand decides, two known operands decide otherwise, and
anything else is unknown. -/
def combine (op : Connective) (left right : Option Bool) : Option Bool :=
  if left = some op.dominant ∨ right = some op.dominant then some op.dominant
  else if left.isSome ∧ right.isSome then some (!op.dominant)
  else none

end Connective

inductive Expr (ι κ : Type) where
  | paren (inner : Expr ι κ)
  | not (operand : Expr ι κ)
  | connect (op : Connective) (left right : Expr ι κ)
  /-- Equality, or inequality when `negated`. -/
  | compare (left right : Expr ι κ) (negated : Bool)
  | null
  | param (identity : ι)
  | call (callee : κ) (args : List (Expr ι κ))
  | other (text : String)

namespace Expr

variable {ι κ : Type}

mutual

/-- Structural equality, decided together with `decEqList` for argument lists. -/
def decEq [DecidableEq ι] [DecidableEq κ] : (a b : Expr ι κ) → Decidable (a = b)
  | paren a, paren b =>
    match decEq a b with
    | .isTrue h => .isTrue (by rw [h])
    | .isFalse h => .isFalse (by simp [h])
  | not a, not b =>
    match decEq a b with
    | .isTrue h => .isTrue (by rw [h])
    | .isFalse h => .isFalse (by simp [h])
  | connect p a b, connect q c d =>
    if hop : p = q then
      match decEq a c with
      | .isTrue hl =>
        match decEq b d with
        | .isTrue hr => .isTrue (by rw [hop, hl, hr])
        | .isFalse hr => .isFalse (by simp [hr])
      | .isFalse hl => .isFalse (by simp [hl])
    else .isFalse (by simp [hop])
  | compare a b m, compare c d n =>
    if hneg : m = n then
      match decEq a c with
      | .isTrue hl =>
        match decEq b d with
        | .isTrue hr => .isTrue (by rw [hneg, hl, hr])
        | .isFalse hr => .isFalse (by simp [hr])
      | .isFalse hl => .isFalse (by simp [hl])
    else .isFalse (by simp [hneg])
  | null, null => .isTrue rfl
  | param p, param q =>
    if h : p = q then .isTrue (by rw [h]) else .isFalse (by simp [h])
  | call f as, call g bs =>
    if hf : f = g then
      match decEqList as bs with
      | .isTrue h => .isTrue (by rw [hf, h])
      | .isFalse h => .isFalse (by simp [h])
    else .isFalse (by simp [hf])
  | other s, other t =>
    if h : s = t then .isTrue (by rw [h]) else .isFalse (by simp [h])
  | paren _, not _ | paren _, connect .. | paren _, compare .. | paren _, null
  | paren _, param _ | paren _, call .. | paren _, other _
  | not _, paren _ | not _, connect .. | not _, compare .. | not _, null
  | not _, param _ | not _, call .. | not _, other _
  | connect .., paren _ | connect .., not _ | connect .., compare .. | connect .., null
  | connect .., param _ | connect .., call .. | connect .., other _
  | compare .., paren _ | compare .., not _ | compare .., connect .. | compare .., null
  | compare .., param _ | compare .., call .. | compare .., other _
  | null, paren _ | null, not _ | null, connect .. | null, compare ..
  | null, param _ | null, call .. | null, other _
  | param _, paren _ | param _, not _ | param _, connect .. | param _, compare ..
  | param _, null | param _, call .. | param _, other _
  | call .., paren _ | call .., not _ | call .., connect .. | call .., compare ..
  | call .., null | call .., param _ | call .., other _
  | other _, paren _ | other _, not _ | other _, connect .. | other _, compare ..
  | other _, null | other _, param _ | other _, call .. => .isFalse (by simp)

def decEqList [DecidableEq ι] [DecidableEq κ] : (as bs : List (Expr ι κ)) → Decidable (as = bs)
  | [], [] => .isTrue rfl
  | [], _ :: _ => .isFalse (by simp)
  | _ :: _, [] => .isFalse (by simp)
  | a :: as, b :: bs =>
    match decEq a b with
    | .isTrue h =>
      match decEqList as bs with
      | .isTrue hs => .isTrue (by rw [h, hs])
      | .isFalse hs => .isFalse (by simp [hs])
    | .isFalse h => .isFalse (by simp [h])

end

instance [DecidableEq ι] [DecidableEq κ] : DecidableEq (Expr ι κ) := decEq

/-- The expression without the parentheses around it. -/
def bare : Expr ι κ → Expr ι κ
  | paren inner => inner.bare
  | e => e

/-- The parameter that an expression names, parentheses aside. -/
def param? (e : Expr ι κ) : Option ι :=
  match e.bare with
  | param p => some p
  | _ => none

/-- Whether an expression is the null literal, parentheses aside. -/
def isNull (e : Expr ι κ) : Bool :=
  match e.bare with
  | null => true
  | _ => false

@[simp] theorem bare_paren (e : Expr ι κ) : (paren e).bare = e.bare := rfl

@[simp] theorem param?_paren (e : Expr ι κ) : (paren e).param? = e.param? := rfl

@[simp] theorem isNull_paren (e : Expr ι κ) : (paren e).isNull = e.isNull := rfl

end Expr

end NullGuard
