import NullGuard.Env

/-!
The valuation of a condition. It always ends, whatever the bound on the depth: within one body the
expression or the strategy gets smaller, and a helper is entered only with a set of formals for which
it is not being inlined already, of which there are finitely many.
-/
namespace NullGuard

variable {ι κ : Type} [DecidableEq ι] [DecidableEq κ]

mutual

/-- The value of an expression under a strategy, starting from evidence collected before. -/
def Strategy.run (env : Env ι κ) (strategy : Strategy) (e : Expr ι κ) (evidence : Evidence ι) :
    Outcome ι :=
  match strategy with
  | .inline =>
    if evidence.eligible.isEmpty then .unknown evidence.clear
    else
      match e with
      | .call callee args =>
        match found : env.frame? evidence.eligible callee args with
        | none => .unknown evidence (env.lookupNotes callee args)
        | some frame =>
          let notes := env.lookupNotes callee args ++ [frame.note]
          if busy : frame.inlining ∈ env.active then
            .unknown evidence.clear (notes ++ [.recursion frame.helper.name])
          else
            (frame.finish evidence
              (env.root.run (env.inside frame.inlining) frame.body frame.start)).after notes
      | _ => .unknown evidence
  | .nonNull =>
    match e with
    | .compare left right negated =>
      match evidence.eligible.compared? left right with
      | some p => { value := some negated, evidence := evidence.push p }
      | none => .unknown evidence
    | _ => .unknown evidence
  | .logic leaf =>
    if env.enter.exceeded then .unknown evidence.clear [.boundHit env.limit]
    else
      match e with
      | .paren inner => (Strategy.logic leaf).run env.enter inner evidence
      | .not operand => ((Strategy.logic leaf).run env.enter operand evidence).negate
      | .connect op left right =>
        .combine op ((Strategy.logic leaf).run env.enter left evidence)
          ((Strategy.logic leaf).run env.enter right evidence)
      | e => (leaf.run env.enter e evidence).settle
  | .firstOf alternatives => Strategy.runFirst env alternatives e evidence
termination_by (env.pending, sizeOf e, sizeOf strategy)
decreasing_by
  · exact .left _ _ (Env.pending_inside_lt (Env.inlining_mem found) busy)
  · exact .right _ (.left _ _ (by rw [Expr.paren.sizeOf_spec]; omega))
  · exact .right _ (.left _ _ (by rw [Expr.not.sizeOf_spec]; omega))
  · exact .right _ (.left _ _ (by rw [Expr.connect.sizeOf_spec]; omega))
  · exact .right _ (.left _ _ (by rw [Expr.connect.sizeOf_spec]; omega))
  · exact .right _ (.right _ (by rw [Strategy.logic.sizeOf_spec]; omega))
  · exact .right _ (.right _ (by rw [Strategy.firstOf.sizeOf_spec]; omega))

/-- The first known value among the alternatives, each starting where the one before it ended. -/
def Strategy.runFirst (env : Env ι κ) (alternatives : List Strategy) (e : Expr ι κ)
    (evidence : Evidence ι) : Outcome ι :=
  match alternatives with
  | [] => .unknown evidence
  | strategy :: rest =>
    let first := strategy.run env e evidence
    if first.value.isSome then first
    else (Strategy.runFirst env rest e first.evidence).after first.trace
termination_by (env.pending, sizeOf e, sizeOf alternatives)
decreasing_by
  · exact .right _ (.right _ (by rw [List.cons.sizeOf_spec]; omega))
  · exact .right _ (.right _ (by rw [List.cons.sizeOf_spec]; omega))

end

/-! The valuation, shape by shape. -/

namespace Strategy

variable {env : Env ι κ} {evidence : Evidence ι} {callee : κ} {args : List (Expr ι κ)}

theorem run_inline_of_isEmpty (e : Expr ι κ) (nothing : evidence.eligible.isEmpty = true) :
    inline.run env e evidence = .unknown evidence.clear := by
  rw [run.eq_def]
  simp only [nothing, if_true]

theorem run_inline_of_absent (possible : evidence.eligible.isEmpty = false)
    (absent : env.frame? evidence.eligible callee args = none) :
    inline.run env (.call callee args) evidence =
      .unknown evidence (env.lookupNotes callee args) := by
  rw [run.eq_def]
  simp only [possible, Bool.false_eq_true, if_false]
  split
  · rfl
  next found =>
    rw [absent] at found
    cases found

theorem run_inline_of_busy {frame : Frame ι κ} (possible : evidence.eligible.isEmpty = false)
    (found : env.frame? evidence.eligible callee args = some frame)
    (busy : frame.inlining ∈ env.active) :
    inline.run env (.call callee args) evidence =
      .unknown evidence.clear
        (env.lookupNotes callee args ++ [frame.note] ++ [.recursion frame.helper.name]) := by
  rw [run.eq_def]
  simp only [possible, Bool.false_eq_true, if_false]
  split
  next absent =>
    rw [found] at absent
    cases absent
  next other hit =>
    cases found.symm.trans hit
    rw [dif_pos busy]

theorem run_inline_of_fresh {frame : Frame ι κ} (possible : evidence.eligible.isEmpty = false)
    (found : env.frame? evidence.eligible callee args = some frame)
    (fresh : frame.inlining ∉ env.active) :
    inline.run env (.call callee args) evidence =
      (frame.finish evidence (env.root.run (env.inside frame.inlining) frame.body frame.start)).after
        (env.lookupNotes callee args ++ [frame.note]) := by
  rw [run.eq_def]
  simp only [possible, Bool.false_eq_true, if_false]
  split
  next absent =>
    rw [found] at absent
    cases absent
  next other hit =>
    cases found.symm.trans hit
    rw [dif_neg fresh]

theorem run_nonNull_compare (left right : Expr ι κ) (negated : Bool) :
    nonNull.run env (.compare left right negated) evidence =
      match evidence.eligible.compared? left right with
      | some p => { value := some negated, evidence := evidence.push p }
      | none => .unknown evidence := by
  rw [run.eq_def]

theorem run_logic_of_exceeded (leaf : Strategy) (e : Expr ι κ) (h : env.enter.exceeded = true) :
    (logic leaf).run env e evidence = .unknown evidence.clear [.boundHit env.limit] := by
  rw [run.eq_def]
  simp only [h, if_true]

theorem run_logic_paren (leaf : Strategy) (inner : Expr ι κ) (h : env.enter.exceeded = false) :
    (logic leaf).run env (.paren inner) evidence = (logic leaf).run env.enter inner evidence := by
  rw [run.eq_def]
  simp only [h, Bool.false_eq_true, if_false]

theorem run_logic_not (leaf : Strategy) (operand : Expr ι κ) (h : env.enter.exceeded = false) :
    (logic leaf).run env (.not operand) evidence =
      ((logic leaf).run env.enter operand evidence).negate := by
  rw [run.eq_def]
  simp only [h, Bool.false_eq_true, if_false]

theorem run_logic_connect (leaf : Strategy) (op : Connective) (left right : Expr ι κ)
    (h : env.enter.exceeded = false) :
    (logic leaf).run env (.connect op left right) evidence =
      .combine op ((logic leaf).run env.enter left evidence)
        ((logic leaf).run env.enter right evidence) := by
  rw [run.eq_def]
  simp only [h, Bool.false_eq_true, if_false]

theorem run_firstOf (alternatives : List Strategy) (e : Expr ι κ) :
    (firstOf alternatives).run env e evidence = runFirst env alternatives e evidence := by
  rw [run.eq_def]

theorem runFirst_nil (e : Expr ι κ) : runFirst env [] e evidence = .unknown evidence := by
  rw [runFirst.eq_def]

theorem runFirst_cons (strategy : Strategy) (rest : List Strategy) (e : Expr ι κ) :
    runFirst env (strategy :: rest) e evidence =
      if (strategy.run env e evidence).value.isSome then strategy.run env e evidence
      else (runFirst env rest e (strategy.run env e evidence).evidence).after
        (strategy.run env e evidence).trace := by
  rw [runFirst.eq_def]

end Strategy

/-- A condition with a known value: `value` is what it always evaluates to, `params` what that
rests on. -/
structure NullCheck (ι : Type) where
  value : Bool
  params : List ι
deriving DecidableEq

def Outcome.nullCheck? (o : Outcome ι) : Option (NullCheck ι) :=
  o.value.map fun value => ⟨value, o.evidence.affected⟩

/-- The valuation of a whole condition: no restriction, nothing relied on yet. -/
def Expr.valuation (e : Expr ι κ) (resolver : Resolver ι κ) (unit : Option String) (limit : Int) :
    Outcome ι :=
  Strategy.standard.run { resolver, unit, limit } e {}

/-- The value that a condition always has when the parameters it lists are not null. -/
def Expr.nullCheck? (e : Expr ι κ) (resolver : Resolver ι κ) (unit : Option String) (limit : Int) :
    Option (NullCheck ι) :=
  (e.valuation resolver unit limit).nullCheck?

end NullGuard
