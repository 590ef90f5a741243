import Mathlib.Algebra.Ring.Nat
import Mathlib.Data.List.MinMax
import NullGuard.Proofs.Levels

/-!
How a valuation depends on its bound. Only the levels that may still be entered count, and more of them
add to what is found and take nothing away. Nor can they run out for ever: within one body no more
levels are entered than its expression is high, and each inlining leaves one pair of a helper and a set
of its formals less to be inlined. With `Resolver.depthBound` levels the bound is never hit, and from
there on the whole outcome stays the same.
-/
namespace NullGuard

variable {ι κ : Type}

/-- The number of nodes on the longest way down through parentheses, negations and connectives. -/
def Expr.height : Expr ι κ → Nat
  | .paren inner => inner.height + 1
  | .not operand => operand.height + 1
  | .connect _ left right => max left.height right.height + 1
  | _ => 1

theorem Expr.height_pos (e : Expr ι κ) : 0 < e.height := by
  cases e <;> simp [Expr.height]

/-- The height of what is inlined for a helper. -/
def Helper.height (helper : Helper ι κ) : Nat := (helper.body.map Expr.height).getD 0

namespace Resolver

/-- The height of the highest body. -/
def bodyHeight (resolver : Resolver ι κ) : Nat := (resolver.helpers.map Helper.height).foldr max 0

/-- The number of pairs of a helper and a set of its formals. -/
def inliningCount (resolver : Resolver ι κ) : Nat :=
  (resolver.helpers.map fun helper => 2 ^ helper.formals.length).sum

/-- Levels that are enough for an expression: its own, and those of one body for each inlining. -/
def depthBound (resolver : Resolver ι κ) (e : Expr ι κ) : Nat :=
  e.height + resolver.inliningCount * resolver.bodyHeight

theorem height_le_bodyHeight {resolver : Resolver ι κ} {helper : Helper ι κ} {body : Expr ι κ}
    (member : helper ∈ resolver.helpers) (has : helper.body = some body) :
    body.height ≤ resolver.bodyHeight := by
  have same : helper.height = body.height := by simp [Helper.height, has]
  rw [← same]
  exact List.le_max_of_le' 0 (List.mem_map_of_mem member) le_rfl

end Resolver

theorem length_subsets {α : Type} (l : List α) : (subsets l).length = 2 ^ l.length := by
  induction l with
  | nil => rfl
  | cons a l ih =>
    rw [subsets, List.length_append, List.length_map, ih, List.length_cons, Nat.pow_succ]
    omega

/-- The inlinings that can still be started are among the pairs of a helper and a set of its
formals. -/
theorem Env.pending_le [DecidableEq ι] [DecidableEq κ] (env : Env ι κ) :
    env.pending ≤ env.resolver.inliningCount := by
  have all : env.inlinings.length = env.resolver.inliningCount := by
    simp [Env.inlinings, Resolver.inliningCount, List.length_flatMap, length_subsets]
  rw [← all]
  exact List.length_filter_le _ _

namespace Outcome

/-- The bound was not hit on the way to the outcome. -/
def InBounds (o : Outcome ι) : Prop := ∀ bound, Note.boundHit bound ∉ o.trace

namespace InBounds

variable {o left right : Outcome ι}

theorem after {notes : List Note} (free : ∀ bound, Note.boundHit bound ∉ notes)
    (inBounds : o.InBounds) : (o.after notes).InBounds := by
  intro bound member
  rcases List.mem_append.1 member with member | member
  · exact free bound member
  · exact inBounds bound member

theorem settle (inBounds : o.InBounds) : o.settle.InBounds := by
  have same : o.settle.trace = o.trace := by
    unfold Outcome.settle
    split <;> rfl
  intro bound
  rw [same]
  exact inBounds bound

theorem combine (op : Connective) (l : left.InBounds) (r : right.InBounds) :
    (Outcome.combine op left right).InBounds := by
  intro bound member
  rcases List.mem_append.1 member with member | member
  · exact l bound member
  · exact r bound member

end InBounds

end Outcome

/-- The environment with another bound or other levels entered. -/
def Env.atDepth (env : Env ι κ) (limit : Int) (depth : Nat) : Env ι κ := { env with limit, depth }

theorem Env.boundHit_notMem_lookupNotes (env : Env ι κ) (callee : κ) (args : List (Expr ι κ))
    (bound : Int) : Note.boundHit bound ∉ env.lookupNotes callee args := by
  unfold Env.lookupNotes
  cases env.resolver.lookup callee args.length <;> simp [Lookup.notes]

variable [DecidableEq ι] [DecidableEq κ]

namespace Strategy

/-- In the second environment a valuation has the outcome that it has in the first, where the bound is
not hit. -/
structure Alike (strategy : Strategy) (env env' : Env ι κ) (e : Expr ι κ) (evidence : Evidence ι) :
    Prop where
  same : strategy.run env' e evidence = strategy.run env e evidence
  inBounds : (strategy.run env e evidence).InBounds

/-- Comparing to null takes no notice of the environment and notes nothing. -/
theorem run_nonNull_eq (env env' : Env ι κ) (e : Expr ι κ) (evidence : Evidence ι) :
    nonNull.run env' e evidence = nonNull.run env e evidence ∧
      (nonNull.run env e evidence).trace = [] := by
  cases e with
  | compare left right negated =>
    rw [run_nonNull_compare, run_nonNull_compare]
    refine ⟨rfl, ?_⟩
    split <;> rfl
  | _ =>
    rw [run_nonNull_of_not_compare _ (by simp), run_nonNull_of_not_compare _ (by simp)]
    exact ⟨rfl, rfl⟩

namespace Alike

variable {env env' : Env ι κ} {e left right : Expr ι κ} {evidence : Evidence ι} {inner : Strategy}

theorem of_eq {strategy : Strategy} {o : Outcome ι} (first : strategy.run env e evidence = o)
    (second : strategy.run env' e evidence = o) (inBounds : o.InBounds) :
    strategy.Alike env env' e evidence :=
  ⟨second.trans first.symm, first ▸ inBounds⟩

theorem inline_of_isEmpty (nothing : evidence.eligible.isEmpty = true) :
    inline.Alike env env' e evidence :=
  .of_eq (run_inline_of_isEmpty e nothing) (run_inline_of_isEmpty e nothing)
    fun _ => List.not_mem_nil

theorem inline_of_not_call (shape : ∀ callee args, e ≠ .call callee args) :
    inline.Alike env env' e evidence := by
  cases possible : evidence.eligible.isEmpty with
  | true => exact .inline_of_isEmpty possible
  | false =>
    exact .of_eq (run_inline_of_not_call possible shape) (run_inline_of_not_call possible shape)
      fun _ => List.not_mem_nil

/-- A call is valued alike where the body of its helper is. -/
theorem inline_of_body {callee : κ} {args : List (Expr ι κ)} {limit : Int} {depth : Nat}
    (bodies : ∀ frame, env.frame? evidence.eligible callee args = some frame →
      frame.inlining ∉ env.active →
      env.root.Alike (env.inside frame.inlining) ((env.inside frame.inlining).atDepth limit depth)
        frame.body frame.start) :
    inline.Alike env (env.atDepth limit depth) (.call callee args) evidence := by
  have quiet := env.boundHit_notMem_lookupNotes callee args
  -- Neither the lookup nor the inlinings under way depend on the depth.
  have lookup : (env.atDepth limit depth).frame? evidence.eligible callee args =
      env.frame? evidence.eligible callee args := rfl
  cases possible : evidence.eligible.isEmpty with
  | true => exact .inline_of_isEmpty possible
  | false =>
    cases found : env.frame? evidence.eligible callee args with
    | none =>
      exact .of_eq (run_inline_of_absent possible found)
        (run_inline_of_absent possible (lookup.trans found)) quiet
    | some frame =>
      by_cases busy : frame.inlining ∈ env.active
      · refine .of_eq (run_inline_of_busy possible found busy)
          (run_inline_of_busy possible (lookup.trans found) busy) fun bound => ?_
        simp [Outcome.unknown, quiet, Frame.note]
      · have body := bodies frame found busy
        have noted : ∀ bound, Note.boundHit bound ∉ env.lookupNotes callee args ++ [frame.note] := by
          simp [quiet, Frame.note]
        refine .of_eq (run_inline_of_fresh possible found busy) ?_ (.after noted body.inBounds)
        rw [run_inline_of_fresh possible (lookup.trans found) busy]
        exact congrArg (fun o => (frame.finish evidence o).after _) body.same

/-- Leaves that are inlined alike are valued alike. -/
theorem leaf (inlined : inline.Alike env env' e evidence) :
    Strategy.leaf.Alike env env' e evidence := by
  have compared := run_nonNull_eq env env' e (inline.run env e evidence).evidence
  constructor
  · simp only [Strategy.leaf, run_firstOf, runFirst_cons, runFirst_nil, inlined.same, compared.1]
  · simp only [Strategy.leaf, run_firstOf, runFirst_cons, runFirst_nil]
    split
    · exact inlined.inBounds
    · refine .after inlined.inBounds fun bound => ?_
      split <;> simp [Outcome.after, Outcome.unknown, compared.2]

section Levels

variable (within : env.enter.exceeded = false) (within' : env'.enter.exceeded = false)

include within within'

theorem ofLeaf (shape : e.isLeaf = true) (leaf : inner.Alike env.enter env'.enter e evidence) :
    (logic inner).Alike env env' e evidence := by
  constructor
  · rw [run_logic_of_isLeaf _ shape within, run_logic_of_isLeaf _ shape within', leaf.same]
  · rw [run_logic_of_isLeaf _ shape within]
    exact leaf.inBounds.settle

theorem paren (below : (logic inner).Alike env.enter env'.enter e evidence) :
    (logic inner).Alike env env' (.paren e) evidence := by
  constructor
  · rw [run_logic_paren _ _ within, run_logic_paren _ _ within', below.same]
  · rw [run_logic_paren _ _ within]
    exact below.inBounds

theorem not (below : (logic inner).Alike env.enter env'.enter e evidence) :
    (logic inner).Alike env env' (.not e) evidence := by
  constructor
  · rw [run_logic_not _ _ within, run_logic_not _ _ within', below.same]
  · rw [run_logic_not _ _ within]
    exact below.inBounds

theorem connect (op : Connective) (l : (logic inner).Alike env.enter env'.enter left evidence)
    (r : (logic inner).Alike env.enter env'.enter right evidence) :
    (logic inner).Alike env env' (.connect op left right) evidence := by
  constructor
  · rw [run_logic_connect _ op _ _ within, run_logic_connect _ op _ _ within', l.same, r.same]
  · rw [run_logic_connect _ op _ _ within]
    exact .combine op l.inBounds r.inBounds

end Levels

end Alike

/-- The inlining that a call starts uses up one of those that could be started, which pays for the
levels of its body. -/
theorem room_inside {env : Env ι κ} {eligible : Eligibility ι} {callee : κ}
    {args : List (Expr ι κ)} {frame : Frame ι κ}
    (found : env.frame? eligible callee args = some frame) (fresh : frame.inlining ∉ env.active) :
    frame.body.height + (env.inside frame.inlining).pending * env.resolver.bodyHeight ≤
      env.pending * env.resolver.bodyHeight := by
  obtain ⟨resolved, -, has⟩ := Resolver.lookup_of_frame? found
  have low : frame.body.height ≤ env.resolver.bodyHeight :=
    Resolver.height_le_bodyHeight (env.resolver.mem_helpers _ _ _ resolved) has
  have fewer : (env.inside frame.inlining).pending + 1 ≤ env.pending :=
    Env.pending_inside_lt (Env.inlining_mem found) fresh
  have paid := Nat.mul_le_mul_right env.resolver.bodyHeight fewer
  rw [Nat.add_mul, Nat.one_mul] at paid
  omega

/-- With room for the expression and for one body with each inlining that can still be started, the
bound is not hit, and more room changes nothing. -/
theorem alike_standard_of_room (n : Nat) (env : Env ι κ) (root : env.root = standard)
    (levels : env.levels = n) (e : Expr ι κ)
    (room : e.height + env.pending * env.resolver.bodyHeight ≤ n) {limit : Int} {depth : Nat}
    (more : n ≤ (env.atDepth limit depth).levels) (evidence : Evidence ι) :
    standard.Alike env (env.atDepth limit depth) e evidence := by
  -- On the levels left: a subexpression has one node less on its longest way down, and a body is paid
  -- for by the inlining that it uses up.
  induction n generalizing env e depth evidence with
  | zero => exact absurd room (by have := e.height_pos; omega)
  | succ n ih =>
    have within : env.enter.exceeded = false := by simp [Env.exceeded_enter, levels]
    have within' : (env.atDepth limit depth).enter.exceeded = false := by
      rw [Env.exceeded_enter, decide_eq_false_iff_not]
      omega
    have fewer : env.enter.levels = n := by rw [Env.levels_enter, levels]; rfl
    have more' : n ≤ (env.enter.atDepth limit (depth + 1)).levels := by
      have entered : (env.enter.atDepth limit (depth + 1)).levels =
          (env.atDepth limit depth).levels - 1 := (env.atDepth limit depth).levels_enter
      omega
    have below : ∀ sub : Expr ι κ, sub.height < e.height →
        standard.Alike env.enter (env.enter.atDepth limit (depth + 1)) sub evidence := by
      intro sub lower
      refine ih env.enter root fewer sub ?_ more' evidence
      change sub.height + env.pending * env.resolver.bodyHeight ≤ n
      omega
    cases e with
    | paren inner => exact .paren within within' (below inner (Nat.lt_succ_self _))
    | not operand => exact .not within within' (below operand (Nat.lt_succ_self _))
    | connect op left right =>
      exact .connect within within' op (below left (Nat.lt_succ_of_le (le_max_left _ _)))
        (below right (Nat.lt_succ_of_le (le_max_right _ _)))
    | call callee args =>
      have inlined : inline.Alike env.enter (env.enter.atDepth limit (depth + 1))
          (.call callee args) evidence := by
        refine .inline_of_body fun frame found fresh => ?_
        have same : env.enter.root = standard := root
        have paid := room_inside found fresh
        have room' : 1 + env.pending * env.resolver.bodyHeight ≤ n + 1 := room
        rw [same]
        refine ih (env.enter.inside frame.inlining) root fewer frame.body ?_ more' frame.start
        exact Nat.le_trans paid (by change env.pending * env.resolver.bodyHeight ≤ n; omega)
      exact .ofLeaf within within' rfl inlined.leaf
    | compare left right negated | null | param p | other text =>
      exact .ofLeaf within within' rfl (.leaf (.inline_of_not_call (by simp)))

/-- The standard strategy, started without evidence, depends on the bound and on the levels entered
only through their difference. A greater difference keeps a known value, and keeps what it rests on, in
order, with perhaps more in between. -/
theorem run_standard_mono (resolver : Resolver ι κ) (unit : Option String)
    (active : List (Inlining ι κ)) (eligible : Eligibility ι) (e : Expr ι κ) (limit limit' : Int)
    (depth depth' : Nat) :
    let o := standard.run { resolver, unit, limit, depth, active } e ⟨[], eligible⟩
    let o' := standard.run { resolver, unit, limit := limit', depth := depth', active } e
      ⟨[], eligible⟩
    (limit - depth = limit' - depth' → o'.value = o.value ∧ o'.evidence = o.evidence) ∧
      (limit - depth ≤ limit' - depth' → ∀ v, o.value = some v →
        o'.value = some v ∧ o.evidence.affected.Sublist o'.evidence.affected) := by
  intro o o'
  have reported : o.Reports eligible
      (resolver.check unit (limit - depth).toNat (some active) eligible e) :=
    reports_standard _ { resolver, unit, limit, depth, active } rfl rfl eligible e
  have reported' : o'.Reports eligible
      (resolver.check unit (limit' - depth').toNat (some active) eligible e) :=
    reports_standard _ { resolver, unit, limit := limit', depth := depth', active } rfl rfl eligible e
  constructor
  · intro same
    rw [← same] at reported'
    exact ⟨reported'.value.trans reported.value.symm, reported'.evidence.trans reported.evidence.symm⟩
  · intro le v known
    have more := resolver.check_mono unit (Int.toNat_le_toNat le) (some active) eligible e
    rw [reported.value] at known
    refine ⟨reported'.value.trans (more.value known), ?_⟩
    rw [reported.evidence, reported'.evidence]
    exact more.support

end Strategy

/-- A helper that tells whether its argument is null. -/
def nullTest : HelperTable String String where
  entries := [("isNull", { name := "isNull", formals := ["o"], body := some (.compare (.param "o")
    .null false) })]

/-- With three levels left instead of two the call counts as well, and its parameter is listed after
that of the comparison. -/
theorem run_standard_mono_nullTest :
    let e : Expr String String :=
      .connect .and (.compare (.param "p") .null false) (.call "isNull" [.param "q"])
    let run (limit : Int) (depth : Nat) :=
      Strategy.standard.run { resolver := nullTest.resolver, limit, depth } e ⟨[], .all⟩
    e.nullCheck? nullTest.resolver none 2 = some ⟨false, ["p"]⟩ ∧
      e.nullCheck? nullTest.resolver none 3 = some ⟨false, ["p", "q"]⟩ ∧
      (run 7 5).value = (run 2 0).value ∧ (run 7 5).evidence = (run 2 0).evidence ∧
      ∀ v, (run 2 0).value = some v →
        (run 9 6).value = some v ∧ (run 2 0).evidence.affected.Sublist (run 9 6).evidence.affected := by
  intro e run
  have two : e.nullCheck? nullTest.resolver none 2 = some ⟨false, ["p"]⟩ := by
    rw [Expr.nullCheck?_eq_check]
    decide +kernel
  have three : e.nullCheck? nullTest.resolver none 3 = some ⟨false, ["p", "q"]⟩ := by
    rw [Expr.nullCheck?_eq_check]
    decide +kernel
  obtain ⟨value, evidence⟩ :=
    (Strategy.run_standard_mono nullTest.resolver none [] .all e 2 7 0 5).1 (by decide)
  exact ⟨two, three, value, evidence,
    (Strategy.run_standard_mono nullTest.resolver none [] .all e 2 9 0 6).2 (by decide)⟩

/-- From `depthBound` on the bound has no part in a valuation: it is never hit, and the outcome (the
value, what it rests on and the trace) is the same for every such bound. -/
theorem valuation_of_depthBound_le (e : Expr ι κ) (resolver : Resolver ι κ) (unit : Option String)
    (limit : Int) (enough : resolver.depthBound e ≤ limit) :
    (∀ bound, Note.boundHit bound ∉ (e.valuation resolver unit limit).trace) ∧
      e.valuation resolver unit limit = e.valuation resolver unit (resolver.depthBound e) := by
  let least : Env ι κ := { resolver, unit, limit := resolver.depthBound e }
  have levels : least.levels = resolver.depthBound e := by simp [least, Env.levels]
  have more : resolver.depthBound e ≤ (least.atDepth limit 0).levels := by
    simp only [Env.levels, Env.atDepth]
    omega
  have room : e.height + least.pending * resolver.bodyHeight ≤ resolver.depthBound e :=
    Nat.add_le_add_left (Nat.mul_le_mul_right _ least.pending_le) _
  obtain ⟨same, inBounds⟩ := Strategy.alike_standard_of_room _ least rfl levels e room more {}
  have same : e.valuation resolver unit limit = e.valuation resolver unit (resolver.depthBound e) :=
    same
  exact ⟨fun bound => same ▸ inBounds bound, same⟩

/-- A helper that calls itself with its arguments moved on by one and looks at the second of them. -/
def rotatingHelper : HelperTable String String where
  entries := [("turn", { name := "turn", formals := ["x", "y", "z"], body := some (.connect .or
    (.compare (.param "y") .null true)
    (.call "turn" [.param "y", .param "z", .param "x"])) })]

/-- The parameter is looked at only in the third of three nested inlinings, each for another formal,
for which six levels are too few; the bound of seventeen is enough for all eight sets of formals. -/
theorem valuation_of_depthBound_le_rotatingHelper :
    let e : Expr String String := .call "turn" [.param "p", .other "q()", .other "r()"]
    rotatingHelper.resolver.depthBound e = 17 ∧
      e.nullCheck? rotatingHelper.resolver none 6 = none ∧
      e.nullCheck? rotatingHelper.resolver none 17 = some ⟨true, ["p"]⟩ ∧
      (∀ bound, Note.boundHit bound ∉ (e.valuation rotatingHelper.resolver none 1000).trace) ∧
      e.nullCheck? rotatingHelper.resolver none 1000 = some ⟨true, ["p"]⟩ := by
  intro e
  have bound : rotatingHelper.resolver.depthBound e = 17 := by decide
  have few : e.nullCheck? rotatingHelper.resolver none 6 = none := by
    rw [Expr.nullCheck?_eq_check]
    decide +kernel
  have known : e.nullCheck? rotatingHelper.resolver none 17 = some ⟨true, ["p"]⟩ := by
    rw [Expr.nullCheck?_eq_check]
    decide +kernel
  obtain ⟨free, same⟩ :=
    valuation_of_depthBound_le e rotatingHelper.resolver none 1000 (by rw [bound]; decide)
  rw [bound] at same
  refine ⟨bound, few, known, free, ?_⟩
  rw [Expr.nullCheck?, same]
  exact known

end NullGuard
