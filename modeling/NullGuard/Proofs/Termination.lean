import Mathlib.Data.Set.Lattice
import Mathlib.Order.CompletePartialOrder
import NullGuard.Proofs.Depth

/-!
Why a valuation ends, whatever strategy it is made by and however large the bound on the depth is. A
valuation asks for others: within a body for those of subexpressions or by parts of the strategy, and at a
call for that of the body of a helper. The bound plays no part in the argument, and strategies that never
count a level are no exception: only helpers that are not being inlined for the same formals are entered,
so with each body there are fewer pairs of a helper and a set of its formals left, and between two bodies
the expression or the strategy gets smaller. So the equations of the valuation, which answer a question by
the answers to those it asks for, have one solution, and unrolling them often enough computes it.
-/
namespace NullGuard

variable {ι κ : Type}

namespace Strategy

mutual

/-- The number of strategies on the longest way down through a strategy. -/
def height : Strategy → Nat
  | inline => 1
  | nonNull => 1
  | logic leaf => leaf.height + 1
  | firstOf alternatives => heightAll alternatives + 1

def heightAll : List Strategy → Nat
  | [] => 0
  | strategy :: rest => max strategy.height (heightAll rest)

end

theorem height_le_heightAll {strategy : Strategy} {alternatives : List Strategy}
    (among : strategy ∈ alternatives) : strategy.height ≤ heightAll alternatives := by
  induction alternatives with
  | nil => cases among
  | cons first rest ih =>
    rw [heightAll]
    rcases List.mem_cons.1 among with rfl | among
    · exact Nat.le_max_left _ _
    · exact Nat.le_trans (ih among) (Nat.le_max_right _ _)

end Strategy

/-- The pairs of a helper and a set of its formals that are not being inlined. -/
def Env.startable (env : Env ι κ) : Set (Inlining ι κ) :=
  {inlining | inlining ∈ env.inlinings ∧ inlining ∉ env.active}

theorem Env.startable_inside_ssubset {env : Env ι κ} {inlining : Inlining ι κ}
    (member : inlining ∈ env.inlinings) (fresh : inlining ∉ env.active) :
    (env.inside inlining).startable ⊂ env.startable := by
  refine (Set.ssubset_iff_of_subset ?_).2 ⟨inlining, ⟨member, fresh⟩, ?_⟩
  · rintro other ⟨among, free⟩
    exact ⟨among, fun active => free (List.mem_cons_of_mem inlining active)⟩
  · rintro ⟨-, free⟩
    exact free List.mem_cons_self

/-- A valuation that can be asked for. -/
structure Query (ι κ : Type) where
  env : Env ι κ
  strategy : Strategy
  expr : Expr ι κ
  evidence : Evidence ι

variable [DecidableEq ι] [DecidableEq κ]

namespace Query

def answer (q : Query ι κ) : Outcome ι := q.strategy.run q.env q.expr q.evidence

/-- The first alternative that is answered with a value, each starting where the one before it ended. -/
def firstKnown (ask : Query ι κ → Outcome ι) (env : Env ι κ) (e : Expr ι κ) :
    List Strategy → Evidence ι → Outcome ι
  | [], evidence => .unknown evidence
  | strategy :: rest, evidence =>
    let first := ask ⟨env, strategy, e, evidence⟩
    if first.value.isSome then first
    else (firstKnown ask env e rest first.evidence).after first.trace

/-- One level of a valuation; `ask` answers for the valuations that it asks for. -/
def level (ask : Query ι κ → Outcome ι) (q : Query ι κ) : Outcome ι :=
  match q with
  | ⟨env, .inline, .call callee args, evidence⟩ =>
    if evidence.eligible.isEmpty then .unknown evidence.clear
    else
      match env.frame? evidence.eligible callee args with
      | none => .unknown evidence (env.lookupNotes callee args)
      | some frame =>
        let notes := env.lookupNotes callee args ++ [frame.note]
        if env.active.contains frame.inlining then
          .unknown evidence.clear (notes ++ [.recursion frame.helper.name])
        else
          (frame.finish evidence
            (ask ⟨env.inside frame.inlining, env.root, frame.body, frame.start⟩)).after notes
  | ⟨_, .inline, _, evidence⟩ =>
    .unknown (if evidence.eligible.isEmpty then evidence.clear else evidence)
  | ⟨_, .nonNull, .compare left right negated, evidence⟩ =>
    (evidence.eligible.compared? left right).elim (.unknown evidence) fun p =>
      { value := some negated, evidence := evidence.push p }
  | ⟨_, .nonNull, _, evidence⟩ => .unknown evidence
  | ⟨env, .logic leaf, e, evidence⟩ =>
    if env.enter.exceeded then .unknown evidence.clear [.boundHit env.limit]
    else
      match e with
      | .connect op left right =>
        .combine op (ask ⟨env.enter, .logic leaf, left, evidence⟩)
          (ask ⟨env.enter, .logic leaf, right, evidence⟩)
      | .not operand => (ask ⟨env.enter, .logic leaf, operand, evidence⟩).negate
      | .paren inner => ask ⟨env.enter, .logic leaf, inner, evidence⟩
      | e => (ask ⟨env.enter, leaf, e, evidence⟩).settle
  | ⟨env, .firstOf alternatives, e, evidence⟩ => firstKnown ask env e alternatives evidence

/-- The valuation asks for another one. The bound on the depth is left out of account, and an alternative
may start from any evidence. -/
inductive Asks : Query ι κ → Query ι κ → Prop
  | body {env : Env ι κ} {callee : κ} {args : List (Expr ι κ)} {evidence : Evidence ι}
      {frame : Frame ι κ} (found : env.frame? evidence.eligible callee args = some frame)
      (fresh : frame.inlining ∉ env.active) :
      Asks ⟨env, .inline, .call callee args, evidence⟩
        ⟨env.inside frame.inlining, env.root, frame.body, frame.start⟩
  | paren (env : Env ι κ) (leaf : Strategy) (inner : Expr ι κ) (evidence : Evidence ι) :
      Asks ⟨env, .logic leaf, .paren inner, evidence⟩ ⟨env.enter, .logic leaf, inner, evidence⟩
  | not (env : Env ι κ) (leaf : Strategy) (operand : Expr ι κ) (evidence : Evidence ι) :
      Asks ⟨env, .logic leaf, .not operand, evidence⟩ ⟨env.enter, .logic leaf, operand, evidence⟩
  | left (env : Env ι κ) (leaf : Strategy) (op : Connective) (l r : Expr ι κ) (evidence : Evidence ι) :
      Asks ⟨env, .logic leaf, .connect op l r, evidence⟩ ⟨env.enter, .logic leaf, l, evidence⟩
  | right (env : Env ι κ) (leaf : Strategy) (op : Connective) (l r : Expr ι κ) (evidence : Evidence ι) :
      Asks ⟨env, .logic leaf, .connect op l r, evidence⟩ ⟨env.enter, .logic leaf, r, evidence⟩
  | leaf (env : Env ι κ) (leaf : Strategy) {e : Expr ι κ} (shape : e.isLeaf = true)
      (evidence : Evidence ι) :
      Asks ⟨env, .logic leaf, e, evidence⟩ ⟨env.enter, leaf, e, evidence⟩
  | alternative (env : Env ι κ) {strategy : Strategy} {alternatives : List Strategy}
      (among : strategy ∈ alternatives) (e : Expr ι κ) (evidence evidence' : Evidence ι) :
      Asks ⟨env, .firstOf alternatives, e, evidence⟩ ⟨env, strategy, e, evidence'⟩

/-- There are fewer inlinings left to start, or as many and a lower expression, or the same expression and
a lower strategy. -/
def Below (q' q : Query ι κ) : Prop :=
  q'.env.startable ⊂ q.env.startable ∨
    q'.env.startable = q.env.startable ∧
      (q'.expr.height < q.expr.height ∨
        q'.expr = q.expr ∧ q'.strategy.height < q.strategy.height)

/-- How many levels a valuation may need: those of its expression and its strategy, and for each inlining
that can be started those of a body and of the strategy for bodies. -/
def rank (q : Query ι κ) : Nat :=
  q.expr.height + q.strategy.height +
    q.env.pending * (q.env.resolver.bodyHeight + q.env.root.height)

variable {q q' : Query ι κ} {ask ask' : Query ι κ → Outcome ι}

omit [DecidableEq ι] [DecidableEq κ] in
theorem firstKnown_congr {env : Env ι κ} {e : Expr ι κ} {alternatives : List Strategy}
    (same : ∀ strategy ∈ alternatives, ∀ evidence,
      ask ⟨env, strategy, e, evidence⟩ = ask' ⟨env, strategy, e, evidence⟩) (evidence : Evidence ι) :
    firstKnown ask env e alternatives evidence = firstKnown ask' env e alternatives evidence := by
  induction alternatives generalizing evidence with
  | nil => rfl
  | cons strategy rest ih =>
    obtain ⟨first, others⟩ := List.forall_mem_cons.1 same
    simp only [firstKnown, first, ih others]

/-- A level depends on no other answers than those to what the valuation asks for. -/
theorem level_congr (same : ∀ q', q.Asks q' → ask q' = ask' q') : level ask q = level ask' q := by
  obtain ⟨env, strategy, e, evidence⟩ := q
  cases strategy with
  | inline =>
    cases e with
    | call callee args =>
      simp only [level]
      cases found : env.frame? evidence.eligible callee args with
      | none => rfl
      | some frame =>
        by_cases busy : frame.inlining ∈ env.active
        · simp only [List.contains_iff_mem, busy, if_true]
        · simp only [same _ (.body found busy)]
    | _ => rfl
  | nonNull => cases e <;> rfl
  | logic leaf =>
    cases e with
    | paren inner => simp only [level, same _ (.paren env leaf inner evidence)]
    | not operand => simp only [level, same _ (.not env leaf operand evidence)]
    | connect op l r =>
      simp only [level, same _ (.left env leaf op l r evidence), same _ (.right env leaf op l r evidence)]
    | compare | null | param | call | other => simp only [level, same _ (.leaf env leaf rfl evidence)]
  | firstOf alternatives =>
    exact firstKnown_congr
      (fun strategy among evidence' => same _ (.alternative env among e evidence evidence')) evidence

theorem firstKnown_answer (env : Env ι κ) (e : Expr ι κ) (alternatives : List Strategy)
    (evidence : Evidence ι) :
    firstKnown answer env e alternatives evidence = Strategy.runFirst env alternatives e evidence := by
  induction alternatives generalizing evidence with
  | nil => rw [firstKnown, Strategy.runFirst_nil]
  | cons strategy rest ih => rw [firstKnown, Strategy.runFirst_cons, ih, answer]

theorem inline_answer_eq (env : Env ι κ) (e : Expr ι κ) (evidence : Evidence ι) :
    answer ⟨env, .inline, e, evidence⟩ = level answer ⟨env, .inline, e, evidence⟩ := by
  rw [answer]
  cases possible : evidence.eligible.isEmpty with
  | true =>
    rw [Strategy.run_inline_of_isEmpty e possible]
    cases e <;> simp only [level, possible, if_true]
  | false =>
    cases e with
    | call callee args =>
      simp only [level, possible, Bool.false_eq_true, if_false]
      cases found : env.frame? evidence.eligible callee args with
      | none => rw [Strategy.run_inline_of_absent possible found]
      | some frame =>
        by_cases busy : frame.inlining ∈ env.active
        · simp only [Strategy.run_inline_of_busy possible found busy, List.contains_iff_mem, busy, if_true]
        · simp only [Strategy.run_inline_of_fresh possible found busy, List.contains_iff_mem, busy,
            if_false, answer]
    | _ =>
      rw [Strategy.run_inline_of_not_call possible (by simp)]
      simp only [level, possible, Bool.false_eq_true, if_false]

theorem nonNull_answer_eq (env : Env ι κ) (e : Expr ι κ) (evidence : Evidence ι) :
    answer ⟨env, .nonNull, e, evidence⟩ = level answer ⟨env, .nonNull, e, evidence⟩ := by
  rw [answer]
  cases e with
  | compare left right negated =>
    simp only [Strategy.run_nonNull_compare, level]
    cases evidence.eligible.compared? left right with
    | none => rfl
    | some p => rfl
  | _ => exact Strategy.run_nonNull_of_not_compare _ (by simp)

theorem logic_answer_eq (env : Env ι κ) (leaf : Strategy) (e : Expr ι κ) (evidence : Evidence ι) :
    answer ⟨env, .logic leaf, e, evidence⟩ = level answer ⟨env, .logic leaf, e, evidence⟩ := by
  simp only [answer, level]
  cases within : env.enter.exceeded with
  | true =>
    simp only [Strategy.run_logic_of_exceeded leaf e within, if_true]
  | false =>
    simp only [Bool.false_eq_true, if_false]
    cases e with
    | paren inner => rw [Strategy.run_logic_paren leaf inner within]
    | not operand => rw [Strategy.run_logic_not leaf operand within]
    | connect op l r => rw [Strategy.run_logic_connect leaf op l r within]
    | _ => rw [Strategy.run_logic_of_isLeaf evidence rfl within]

/-- The valuation answers a question by its own answers to what that asks for. -/
theorem answer_eq_level (q : Query ι κ) : q.answer = level answer q := by
  obtain ⟨env, strategy, e, evidence⟩ := q
  cases strategy with
  | inline => exact inline_answer_eq env e evidence
  | nonNull => exact nonNull_answer_eq env e evidence
  | logic leaf => exact logic_answer_eq env leaf e evidence
  | firstOf alternatives => rw [answer, Strategy.run_firstOf, level, firstKnown_answer]

omit [DecidableEq κ] in
/-- What a valuation asks for is below it. -/
theorem Asks.below (asks : q.Asks q') : q'.Below q := by
  cases asks with
  | body found fresh => exact .inl (Env.startable_inside_ssubset (Env.inlining_mem found) fresh)
  | paren env leaf inner evidence => exact .inr ⟨rfl, .inl (Nat.lt_succ_self _)⟩
  | not env leaf operand evidence => exact .inr ⟨rfl, .inl (Nat.lt_succ_self _)⟩
  | left env leaf op l r evidence =>
    exact .inr ⟨rfl, .inl (Nat.lt_succ_of_le (Nat.le_max_left _ _))⟩
  | right env leaf op l r evidence =>
    exact .inr ⟨rfl, .inl (Nat.lt_succ_of_le (Nat.le_max_right _ _))⟩
  | leaf env leaf shape evidence => exact .inr ⟨rfl, .inr ⟨rfl, Nat.lt_succ_self _⟩⟩
  | alternative env among e evidence evidence' =>
    exact .inr ⟨rfl, .inr ⟨rfl, Nat.lt_succ_of_le (Strategy.height_le_heightAll among)⟩⟩

/-- Within a body, where the inlinings left stay the same, what is lower has a smaller rank. -/
theorem rank_lt_of_lower (pending : q'.env.pending = q.env.pending)
    (resolver : q'.env.resolver = q.env.resolver) (root : q'.env.root = q.env.root)
    (lower : q'.expr.height + q'.strategy.height < q.expr.height + q.strategy.height) :
    q'.rank < q.rank := by
  rw [rank, rank, pending, resolver, root]
  exact Nat.add_lt_add_right lower _

/-- The body of a helper is paid for by the inlining that it uses up. -/
theorem rank_body_lt {env : Env ι κ} {callee : κ} {args : List (Expr ι κ)} {evidence : Evidence ι}
    {frame : Frame ι κ} (found : env.frame? evidence.eligible callee args = some frame)
    (fresh : frame.inlining ∉ env.active) :
    rank ⟨env.inside frame.inlining, env.root, frame.body, frame.start⟩ <
      rank ⟨env, .inline, .call callee args, evidence⟩ := by
  obtain ⟨resolved, -, has⟩ := Resolver.lookup_of_frame? found
  have low : frame.body.height ≤ env.resolver.bodyHeight :=
    Resolver.height_le_bodyHeight (env.resolver.mem_helpers _ _ _ resolved) has
  have fewer : (env.inside frame.inlining).pending + 1 ≤ env.pending :=
    Env.pending_inside_lt (Env.inlining_mem found) fresh
  have paid := Nat.mul_le_mul_right (env.resolver.bodyHeight + env.root.height) fewer
  rw [Nat.add_mul, Nat.one_mul] at paid
  calc rank ⟨env.inside frame.inlining, env.root, frame.body, frame.start⟩
    _ ≤ env.resolver.bodyHeight + env.root.height + (env.inside frame.inlining).pending *
          (env.resolver.bodyHeight + env.root.height) :=
        Nat.add_le_add_right (Nat.add_le_add_right low _) _
    _ ≤ env.pending * (env.resolver.bodyHeight + env.root.height) := by omega
    _ < rank ⟨env, .inline, .call callee args, evidence⟩ :=
        Nat.lt_add_of_pos_left (Nat.add_pos_left (Expr.height_pos _) _)

theorem Asks.rank_lt (asks : q.Asks q') : q'.rank < q.rank := by
  cases asks with
  | body found fresh => exact rank_body_lt found fresh
  | paren env leaf inner evidence =>
    exact rank_lt_of_lower rfl rfl rfl (Nat.add_lt_add_right (Nat.lt_succ_self _) _)
  | not env leaf operand evidence =>
    exact rank_lt_of_lower rfl rfl rfl (Nat.add_lt_add_right (Nat.lt_succ_self _) _)
  | left env leaf op l r evidence =>
    exact rank_lt_of_lower rfl rfl rfl
      (Nat.add_lt_add_right (Nat.lt_succ_of_le (Nat.le_max_left _ _)) _)
  | right env leaf op l r evidence =>
    exact rank_lt_of_lower rfl rfl rfl
      (Nat.add_lt_add_right (Nat.lt_succ_of_le (Nat.le_max_right _ _)) _)
  | leaf env leaf shape evidence =>
    exact rank_lt_of_lower rfl rfl rfl (Nat.add_lt_add_left (Nat.lt_succ_self _) _)
  | alternative env among e evidence evidence' =>
    exact rank_lt_of_lower rfl rfl rfl
      (Nat.add_lt_add_left (Nat.lt_succ_of_le (Strategy.height_le_heightAll among)) _)

theorem wellFounded_asks : WellFounded fun q' q : Query ι κ => q.Asks q' :=
  Subrelation.wf Asks.rank_lt (measure rank).wf

/-- The equations of the valuation have no other solution. -/
theorem eq_answer_of_solves {solution : Query ι κ → Outcome ι}
    (solves : ∀ q, solution q = level solution q) (q : Query ι κ) : solution q = q.answer := by
  refine wellFounded_asks.induction (C := fun q => solution q = q.answer) q fun q below => ?_
  rw [solves, answer_eq_level, level_congr below]

/-- Unrolled as often as the rank says, the equations give the answer, whatever is answered below. -/
theorem iterate_level_eq_answer (ask : Query ι κ → Outcome ι) {n : Nat} (enough : q.rank ≤ n) :
    (level^[n] ask) q = q.answer := by
  induction n generalizing q with
  | zero =>
    have := q.expr.height_pos
    rw [rank] at enough
    omega
  | succ n ih =>
    rw [Function.iterate_succ_apply', answer_eq_level]
    exact level_congr fun q' asks => ih (Nat.le_of_lt_succ (Nat.lt_of_lt_of_le asks.rank_lt enough))

/-- Whatever the strategies, the helpers, the inlinings under way and the bound: what a valuation asks for
is below it, with fewer pairs of a helper and a set of its formals left to inline, or as many and a lower
expression or strategy. There is no endless chain of valuations that ask for one another. A level depends
only on the answers to what it asks for, and the valuation is the one function that satisfies the
equations. Unrolling them as often as the rank says computes it, and that number does not grow with the
bound. -/
theorem answer_by_descent :
    (∀ q q' : Query ι κ, q.Asks q' → q'.Below q ∧ q'.rank < q.rank) ∧
      (WellFounded fun q' q : Query ι κ => q.Asks q') ∧
      (∀ (ask ask' : Query ι κ → Outcome ι) (q : Query ι κ),
        (∀ q', q.Asks q' → ask q' = ask' q') → level ask q = level ask' q) ∧
      (∀ solution : Query ι κ → Outcome ι,
        (∀ q, solution q = level solution q) ↔
          solution = fun q => q.strategy.run q.env q.expr q.evidence) ∧
      ∀ (ask : Query ι κ → Outcome ι) (q : Query ι κ) (limit : Int) (depth n : Nat), q.rank ≤ n →
        (level^[n] ask) { q with env := q.env.atDepth limit depth } =
          q.strategy.run (q.env.atDepth limit depth) q.expr q.evidence := by
  refine ⟨fun q q' asks => ⟨asks.below, asks.rank_lt⟩, wellFounded_asks, fun _ _ _ => level_congr, ?_, ?_⟩
  · intro solution
    constructor
    · exact fun solves => funext (eq_answer_of_solves solves)
    · rintro rfl
      exact answer_eq_level
  · intro ask q limit depth n enough
    have same : rank { q with env := q.env.atDepth limit depth } = q.rank := rfl
    exact iterate_level_eq_answer ask (same ▸ enough)

end Query

/-- A helper that calls itself with its arguments moved on by one, and does nothing else. -/
def circlingHelper : Helper String String where
  name := "circle"
  formals := ["x", "y", "z"]
  body := some (.call "circle" [.param "y", .param "z", .param "x"])

/-- A call of the helper, under a strategy that counts no levels and values the bodies as well. -/
def circlingCall : Query String String where
  env := { resolver := HelperTable.resolver ⟨[("circle", circlingHelper)]⟩, root := Strategy.leaf }
  strategy := .inline
  expr := .call "circle" [.param "p", .other "q()", .other "r()"]
  evidence := {}

/-- The body of the helper, for its first formal. -/
def circlingBody : Query String String where
  env := circlingCall.env.inside (circlingHelper, ["x"])
  strategy := Strategy.leaf
  expr := .call "circle" [.param "y", .param "z", .param "x"]
  evidence := { eligible := .only ["x"] }

/-- The helper is inlined for its first formal, for the third and for the second, and then not for the first
one again, however large the bound is. -/
theorem answer_by_descent_circlingCall :
    circlingCall.Asks circlingBody ∧ circlingBody.Below circlingCall ∧ circlingCall.rank = 26 ∧
      (circlingCall.strategy.run (circlingCall.env.atDepth 1000000 0) circlingCall.expr
        circlingCall.evidence).trace =
        [.inlining "circle" 1, .inlining "circle" 1, .inlining "circle" 1, .inlining "circle" 1,
          .recursion "circle"] := by
  obtain ⟨descends, -, -, -, computes⟩ := @Query.answer_by_descent String String _ _
  have found : circlingCall.env.frame? circlingCall.evidence.eligible "circle"
      [.param "p", .other "q()", .other "r()"] =
      some ⟨circlingHelper, circlingBody.expr, [("p", "x")]⟩ := rfl
  have asks : circlingCall.Asks circlingBody := .body found List.not_mem_nil
  have rank : circlingCall.rank = 26 := by decide +kernel
  refine ⟨asks, (descends _ _ asks).1, rank, ?_⟩
  rw [← computes (fun q => .unknown q.evidence) circlingCall 1000000 0 26 (Nat.le_of_eq rank)]
  decide +kernel

end NullGuard
