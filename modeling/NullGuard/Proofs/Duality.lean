import Mathlib.Logic.Function.Basic
import NullGuard.Proofs.Operands

/-!
Duality of the connectives. With `and` and `or` exchanged and every comparison turned round, in a
condition and in the bodies of all helpers, each value turns into its negation and rests on the same
parameters. Nothing favours one connective: the dominant operand of the one is the negation of the
other's, and a helper is told from another by its dual as well as by its body, so that the test against
inlining it inside itself cuts off at the same calls.
-/
namespace NullGuard

variable {ι κ : Type}

namespace Connective

def dual : Connective → Connective
  | and => or
  | or => and

theorem dual_dual (op : Connective) : op.dual.dual = op := by
  cases op <;> rfl

theorem dominant_dual (op : Connective) : op.dual.dominant = !op.dominant := by
  cases op <;> rfl

/-- De Morgan's law, with unknown operands. -/
theorem combine_dual (op : Connective) (left right : Option Bool) :
    op.dual.combine (left.map (!·)) (right.map (!·)) = (op.combine left right).map (!·) := by
  have turned : ∀ operand : Option Bool,
      operand.map (!·) = some (!op.dominant) ↔ operand = some op.dominant := by
    intro operand
    cases operand <;> simp
  simp only [combine, dominant_dual, turned, Option.isSome_map, Bool.not_not]
  split
  · rfl
  · split <;> simp

theorem check_dual (op : Connective) (left right : Option (NullCheck ι)) :
    op.dual.check (left.map .negate) (right.map .negate) = (op.check left right).map .negate := by
  have same : ∀ operand : Option (NullCheck ι),
      NullCheck.support (operand.map .negate) = NullCheck.support operand := by
    intro operand
    cases operand <;> rfl
  unfold check
  rw [NullCheck.value_negate, NullCheck.value_negate, combine_dual, same, same]
  cases op.combine (left.map (·.value)) (right.map (·.value)) <;> rfl

end Connective

namespace Expr

mutual

/-- The expression with `and` and `or`, and `==` and `!=`, exchanged throughout. -/
def dual : Expr ι κ → Expr ι κ
  | paren inner => paren inner.dual
  | not operand => not operand.dual
  | connect op left right => connect op.dual left.dual right.dual
  | compare left right negated => compare left.dual right.dual !negated
  | null => null
  | param p => param p
  | call callee args => call callee (dualAll args)
  | other text => other text

def dualAll : List (Expr ι κ) → List (Expr ι κ)
  | [] => []
  | arg :: args => arg.dual :: dualAll args

end

mutual

theorem dual_dual (e : Expr ι κ) : e.dual.dual = e := by
  cases e with
  | paren inner => rw [dual, dual, dual_dual inner]
  | not operand => rw [dual, dual, dual_dual operand]
  | connect op left right => rw [dual, dual, op.dual_dual, dual_dual left, dual_dual right]
  | compare left right negated =>
    rw [dual, dual, Bool.not_not, dual_dual left, dual_dual right]
  | call callee args => rw [dual, dual, dualAll_dualAll args]
  | null | param p | other text => rfl

theorem dualAll_dualAll (args : List (Expr ι κ)) : dualAll (dualAll args) = args := by
  cases args with
  | nil => rfl
  | cons arg args => rw [dualAll, dualAll, dual_dual arg, dualAll_dualAll args]

end

/-- The dual of an operand can take its place: a parameter and the null literal are their own duals. -/
theorem sameOperand_dual (e : Expr ι κ) : e.dual.SameOperand e := by
  induction e using bare.induct with
  | case1 inner ih => exact ⟨ih.param?, ih.isNull⟩
  | case2 e isParen =>
    cases e with
    | paren inner => exact absurd rfl (isParen inner)
    | _ => exact ⟨rfl, rfl⟩

theorem forall₂_dualAll (args : List (Expr ι κ)) :
    List.Forall₂ SameOperand (dualAll args) args := by
  induction args with
  | nil => exact .nil
  | cons arg args ih => exact .cons arg.sameOperand_dual ih

end Expr

/-- The helper with the dual of its body. -/
def Helper.dual (helper : Helper ι κ) : Helper ι κ := { helper with body := helper.body.map .dual }

theorem Helper.dual_dual (helper : Helper ι κ) : helper.dual.dual = helper := by
  have body : (helper.body.map .dual).map .dual = helper.body := by
    cases helper.body <;> simp [Expr.dual_dual]
  unfold Helper.dual
  rw [body]

/-- Helpers with the same dual are the same. -/
theorem Helper.dual_injective : Function.Injective (Helper.dual (ι := ι) (κ := κ)) :=
  Function.Involutive.injective Helper.dual_dual

def Inlining.dual (inlining : Inlining ι κ) : Inlining ι κ := (inlining.1.dual, inlining.2)

theorem Inlining.dual_injective : Function.Injective (Inlining.dual (ι := ι) (κ := κ)) := by
  rintro ⟨helper, formals⟩ ⟨helper', formals'⟩ same
  obtain ⟨sameHelper, sameFormals⟩ := Prod.mk.inj same
  exact Prod.ext (Helper.dual_injective sameHelper) sameFormals

/-- The inlining of the dual helper with the same arguments. -/
def Frame.dual (frame : Frame ι κ) : Frame ι κ :=
  { helper := frame.helper.dual, body := frame.body.dual, pairs := frame.pairs }

def Lookup.dual : Lookup ι κ → Lookup ι κ
  | found helper => found helper.dual
  | ambiguous name candidates arity => ambiguous name candidates arity
  | absent => absent

theorem Lookup.helper?_dual (lookup : Lookup ι κ) :
    lookup.dual.helper? = lookup.helper?.map Helper.dual := by
  cases lookup <;> rfl

/-- The resolver with the dual of every helper. -/
def Resolver.dual (resolver : Resolver ι κ) : Resolver ι κ where
  lookup callee arity := (resolver.lookup callee arity).dual
  helpers := resolver.helpers.map Helper.dual
  mem_helpers := by
    intro callee arity helper found
    cases resolved : resolver.lookup callee arity with
    | found original =>
      rw [resolved] at found
      cases found
      exact List.mem_map_of_mem (resolver.mem_helpers _ _ _ resolved)
    | ambiguous name candidates number =>
      rw [resolved] at found
      cases found
    | absent =>
      rw [resolved] at found
      cases found

/-- The table with the dual of every helper. -/
def HelperTable.dual (table : HelperTable ι κ) : HelperTable ι κ where
  entries := table.entries.map fun entry => (entry.1, entry.2.dual)

theorem HelperTable.find?_dual [DecidableEq κ] (table : HelperTable ι κ) (callee : κ) :
    table.dual.find? callee = (table.find? callee).map Helper.dual := by
  simp [HelperTable.find?, HelperTable.dual, List.find?_map, Function.comp_def]

theorem HelperTable.resolver_dual [DecidableEq κ] (table : HelperTable ι κ) :
    table.dual.resolver = table.resolver.dual := by
  have lookup : (fun callee (_ : Nat) => table.dual.lookup callee) =
      fun callee _ => (table.lookup callee).dual := by
    funext callee _
    unfold HelperTable.lookup
    rw [find?_dual]
    cases table.find? callee <;> rfl
  have helpers : table.dual.entries.map (·.2) = (table.entries.map (·.2)).map Helper.dual := by
    simp [HelperTable.dual, Function.comp_def]
  unfold HelperTable.resolver Resolver.dual
  simp only [Resolver.mk.injEq]
  exact ⟨lookup, helpers⟩

namespace Resolver

variable [DecidableEq ι]

/-- The dual of a call asks for the dual inlining. -/
theorem frame?_dual (resolver : Resolver ι κ) (unit : Option String) (eligible : Eligibility ι)
    (callee : κ) (args : List (Expr ι κ)) :
    resolver.dual.frame? unit eligible callee (Expr.dualAll args) =
      (resolver.frame? unit eligible callee args).map Frame.dual := by
  rw [resolver.dual.frame?_congr unit eligible callee (Expr.forall₂_dualAll args)]
  have looked : (resolver.dual.lookup callee args.length).helper? =
      (resolver.lookup callee args.length).helper?.map Helper.dual := Lookup.helper?_dual _
  have inlineable : Env.inlineable? { resolver := resolver.dual, unit } callee args.length =
      (Env.inlineable? { resolver, unit } callee args.length).map fun found =>
        (found.1.dual, found.2.dual) := by
    rw [Env.inlineable?_eq, Env.inlineable?_eq, looked]
    cases (resolver.lookup callee args.length).helper? with
    | none => rfl
    | some helper =>
      change (if helper.unit = unit then (helper.body.map Expr.dual).map (helper.dual, ·) else none) = _
      rw [Option.bind_some]
      split
      · rw [Option.map_map, Option.map_map]
        rfl
      · rfl
  unfold Resolver.frame? Env.frame?
  rw [inlineable, Option.map_map, Option.map_map]
  rfl

variable [DecidableEq κ]

/-- A dual inlining is under way where the inlining is. -/
theorem watches_dual (watched : Option (List (Inlining ι κ))) (inlining : Inlining ι κ) :
    (watched.map (·.map Inlining.dual)).any (·.contains inlining.dual) =
      watched.any (·.contains inlining) := by
  cases watched with
  | none => rfl
  | some active =>
    rw [Bool.eq_iff_iff]
    simp [List.mem_map_of_injective Inlining.dual_injective]

/-- The check of the dual expression is the negated check. -/
theorem check_dual (resolver : Resolver ι κ) (unit : Option String) (n : Nat)
    (watched : Option (List (Inlining ι κ))) (eligible : Eligibility ι) (e : Expr ι κ) :
    resolver.dual.check unit n (watched.map (·.map Inlining.dual)) eligible e.dual =
      (resolver.check unit n watched eligible e).map .negate := by
  induction n generalizing watched eligible e with
  | zero => rfl
  | succ n ih =>
    cases e with
    | paren inner => exact ih watched eligible inner
    | not operand =>
      rw [Expr.dual, check, check, ih]
    | connect op left right =>
      rw [Expr.dual, check, check, ih, ih, op.check_dual]
    | compare left right negated =>
      rw [Expr.dual, check, check,
        eligible.compared?_congr left.sameOperand_dual right.sameOperand_dual, Option.map_map]
      rfl
    | call callee args =>
      rw [Expr.dual, check, check, frame?_dual]
      cases eligible.isEmpty with
      | true => rfl
      | false =>
        cases resolver.frame? unit eligible callee args with
        | none => rfl
        | some frame =>
          -- Both recursions are cut off at the same calls, since no two inlinings have the same dual.
          have busy : (watched.map (·.map Inlining.dual)).any (·.contains frame.dual.inlining) =
              watched.any (·.contains frame.inlining) := watches_dual watched frame.inlining
          have inside : (watched.map (·.map Inlining.dual)).map (frame.dual.inlining :: ·) =
              (watched.map (frame.inlining :: ·)).map (·.map Inlining.dual) := by
            cases watched <;> rfl
          have body : resolver.dual.check unit n
              ((watched.map (frame.inlining :: ·)).map (·.map Inlining.dual))
              (.only frame.dual.passed) frame.dual.body = _ :=
            ih (watched.map (frame.inlining :: ·)) (.only frame.passed) frame.body
          simp only [Bool.false_eq_true, if_false, Option.map_some, Option.bind_some, busy]
          split
          · rfl
          · rw [inside, body, Option.map_map, Option.map_map]
            rfl
    | null | param p | other text => rfl

end Resolver

/-- Exchanging the connectives and turning the comparisons round, in the condition and in every
helper, negates a known value, keeps what it rests on and leaves the unknown unknown. -/
theorem nullCheck?_dual [DecidableEq ι] [DecidableEq κ] (e : Expr ι κ) (table : HelperTable ι κ)
    (unit : Option String) (limit : Int) :
    e.dual.nullCheck? table.dual.resolver unit limit =
      (e.nullCheck? table.resolver unit limit).map .negate := by
  rw [Expr.nullCheck?_eq_check, Expr.nullCheck?_eq_check, table.resolver_dual]
  exact table.resolver.check_dual unit limit.toNat (some []) .all e

/-- A helper of two comparisons, called by a condition that it decides. -/
def decidingTable : HelperTable String String where
  entries := [("lacks", {
    name := "lacks"
    formals := ["a", "b"]
    body := some (.connect .or (.compare (.param "a") .null false)
      (.not (.compare (.param "b") .null true))) })]

/-- Both values are known through the inlined helper and rest on both arguments. -/
theorem nullCheck?_dual_decidingTable :
    let e : Expr String String :=
      .connect .and (.call "lacks" [.param "p", .param "q"]) (.other "more")
    e.nullCheck? decidingTable.resolver none 30 = some ⟨false, ["p", "q"]⟩ ∧
      e.dual.nullCheck? decidingTable.dual.resolver none 30 = some ⟨true, ["p", "q"]⟩ := by
  intro e
  have known : e.nullCheck? decidingTable.resolver none 30 = some ⟨false, ["p", "q"]⟩ := by
    rw [Expr.nullCheck?_eq_check]
    decide
  refine ⟨known, ?_⟩
  rw [nullCheck?_dual, known]
  rfl

end NullGuard
