import NullGuard.Proofs.Depth
import NullGuard.Proofs.Lockstep
import NullGuard.Proofs.Operands

/-!
The order of operands. The right operand of a connective starts from what was known before the left
one, and what both rest on is put together in the end; so operands may change places, anywhere outside
the arguments of calls, and a check keeps its value and what it rests on, in another order.
-/
namespace NullGuard

variable {ι κ : Type}

/-- The second expression is the first one with the operands of some connectives and comparisons
exchanged, at any depth outside the arguments of calls. -/
inductive Expr.Swaps : Expr ι κ → Expr ι κ → Prop
  | same (e : Expr ι κ) : Swaps e e
  | paren {e e' : Expr ι κ} (inner : Swaps e e') : Swaps (.paren e) (.paren e')
  | not {e e' : Expr ι κ} (operand : Swaps e e') : Swaps (.not e) (.not e')
  | connect (op : Connective) {l l' r r' : Expr ι κ} (left : Swaps l l') (right : Swaps r r') :
      Swaps (.connect op l r) (.connect op l' r')
  | connectExchanged (op : Connective) {l l' r r' : Expr ι κ} (left : Swaps l l')
      (right : Swaps r r') : Swaps (.connect op l r) (.connect op r' l')
  | compare {l l' r r' : Expr ι κ} (left : Swaps l l') (right : Swaps r r') (negated : Bool) :
      Swaps (.compare l r negated) (.compare l' r' negated)
  | compareExchanged {l l' r r' : Expr ι κ} (left : Swaps l l') (right : Swaps r r')
      (negated : Bool) : Swaps (.compare l r negated) (.compare r' l' negated)

/-- Exchanging operands inside an operand of a comparison makes no parameter or null literal of it. -/
theorem Expr.Swaps.sameOperand {e e' : Expr ι κ} (swapped : e.Swaps e') : e.SameOperand e' := by
  induction swapped with
  | paren _ ih => exact ⟨ih.param?, ih.isNull⟩
  | _ => exact ⟨rfl, rfl⟩

theorem Connective.combine_comm (op : Connective) (left right : Option Bool) :
    op.combine left right = op.combine right left := by
  simp only [combine, or_comm, and_comm]

/-- The checks have the same value and rest on the same parameters, each as often, in any order. -/
structure NullCheck.Reordered (check check' : NullCheck ι) : Prop where
  value : check.value = check'.value
  params : check.params.Perm check'.params

namespace NullCheck.Reordered

variable {check check' left left' right right' : Option (NullCheck ι)}

theorem refl (check : Option (NullCheck ι)) : Option.Rel Reordered check check := by
  cases check with
  | none => exact .none
  | some known => exact .some ⟨rfl, .refl _⟩

theorem trans {check'' : Option (NullCheck ι)} (first : Option.Rel Reordered check check')
    (second : Option.Rel Reordered check' check'') : Option.Rel Reordered check check'' := by
  cases first with
  | none => exact second
  | some each =>
    cases second with
    | some next => exact .some ⟨each.value.trans next.value, each.params.trans next.params⟩

theorem map_value (reordered : Option.Rel Reordered check check') :
    check.map (·.value) = check'.map (·.value) :=
  reordered.map_eq fun _ _ each => each.value

theorem support (reordered : Option.Rel Reordered check check') :
    (NullCheck.support check).Perm (NullCheck.support check') := by
  cases reordered with
  | some each => exact each.params
  | none => exact .nil

theorem negate (reordered : Option.Rel Reordered check check') :
    Option.Rel Reordered (check.map .negate) (check'.map .negate) :=
  reordered.map fun _ _ each => ⟨congrArg (!·) each.value, each.params⟩

theorem connect (op : Connective) (l : Option.Rel Reordered left left')
    (r : Option.Rel Reordered right right') :
    Option.Rel Reordered (op.check left right) (op.check left' right') := by
  unfold Connective.check
  rw [map_value l, map_value r]
  cases op.combine (left'.map (·.value)) (right'.map (·.value)) with
  | none => exact .none
  | some value => exact .some ⟨rfl, (support l).append (support r)⟩

/-- The operands of a connective may change places. -/
theorem exchange (op : Connective) (left right : Option (NullCheck ι)) :
    Option.Rel Reordered (op.check left right) (op.check right left) := by
  unfold Connective.check
  rw [op.combine_comm]
  cases op.combine (right.map (·.value)) (left.map (·.value)) with
  | none => exact .none
  | some value => exact .some ⟨rfl, List.perm_append_comm⟩

end NullCheck.Reordered

variable [DecidableEq ι] [DecidableEq κ]

/-- Within any number of levels, exchanging operands reorders what a check rests on. -/
theorem Resolver.check_of_swaps (resolver : Resolver ι κ) (unit : Option String) (n : Nat)
    (watched : Option (List (Inlining ι κ))) (eligible : Eligibility ι) {e e' : Expr ι κ}
    (swapped : e.Swaps e') :
    Option.Rel NullCheck.Reordered (resolver.check unit n watched eligible e)
      (resolver.check unit n watched eligible e') := by
  induction n generalizing e e' with
  | zero => exact .none
  | succ n ih =>
    cases swapped with
    | same => exact NullCheck.Reordered.refl _
    | paren inner => exact ih inner
    | not operand => exact NullCheck.Reordered.negate (ih operand)
    | connect op left right => exact NullCheck.Reordered.connect op (ih left) (ih right)
    | connectExchanged op left right =>
      exact NullCheck.Reordered.trans (NullCheck.Reordered.connect op (ih left) (ih right))
        (NullCheck.Reordered.exchange op _ _)
    | compare left right negated =>
      rw [check, check, eligible.compared?_congr left.sameOperand right.sameOperand]
      exact NullCheck.Reordered.refl _
    | compareExchanged left right negated =>
      rw [check, check, eligible.compared?_congr left.sameOperand right.sameOperand,
        eligible.compared?_comm]
      exact NullCheck.Reordered.refl _

/-- Exchanging the operands of connectives and comparisons leaves a condition unknown, or known with
the same value, resting on the same parameters in some order. -/
theorem nullCheck?_of_swaps (resolver : Resolver ι κ) (unit : Option String) (limit : Int)
    (e e' : Expr ι κ) (swapped : e.Swaps e') :
    Option.Rel NullCheck.Reordered (e.nullCheck? resolver unit limit)
      (e'.nullCheck? resolver unit limit) := by
  rw [Expr.nullCheck?_eq_check, Expr.nullCheck?_eq_check]
  exact resolver.check_of_swaps unit limit.toNat (some []) .all swapped

/-- All operands exchanged, at three depths, with a call among them: the three parameters are listed
the other way round. -/
theorem nullCheck?_of_swaps_nullTest :
    let isNull : Expr String String := .call "isNull" [.param "q"]
    let e : Expr String String := .connect .and
      (.connect .or (.compare (.param "p") .null false) isNull)
      (.not (.compare .null (.param "r") true))
    let e' : Expr String String := .connect .and
      (.not (.compare (.param "r") .null true))
      (.connect .or isNull (.compare .null (.param "p") false))
    e.Swaps e' ∧ e.nullCheck? nullTest.resolver none 30 = some ⟨false, ["p", "q", "r"]⟩ ∧
      e'.nullCheck? nullTest.resolver none 30 = some ⟨false, ["r", "q", "p"]⟩ ∧
      ∀ limit, Option.Rel NullCheck.Reordered (e.nullCheck? nullTest.resolver none limit)
        (e'.nullCheck? nullTest.resolver none limit) := by
  intro isNull e e'
  have swapped : e.Swaps e' :=
    .connectExchanged .and
      (.connectExchanged .or (.compareExchanged (.same _) (.same _) false) (.same isNull))
      (.not (.compareExchanged (.same _) (.same _) true))
  have found : e.nullCheck? nullTest.resolver none 30 = some ⟨false, ["p", "q", "r"]⟩ := by
    rw [Expr.nullCheck?_eq_check]
    decide +kernel
  have found' : e'.nullCheck? nullTest.resolver none 30 = some ⟨false, ["r", "q", "p"]⟩ := by
    rw [Expr.nullCheck?_eq_check]
    decide +kernel
  exact ⟨swapped, found, found', fun limit => nullCheck?_of_swaps _ none limit e e' swapped⟩

end NullGuard
