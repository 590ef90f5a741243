import NullGuard.Proofs.Soundness

/-!
What every strategy promises, however it is put together and whatever strategy the bodies of helpers
are valued by. `Strategy.Runs` spells a valuation out with an environment that is changed in place:
the depth goes up on entering a level and down on leaving it, an inlining is added before the body of
the helper is valued and discarded after it, the left operand of a connective hands its environment on
to the right one, and an alternative to the next. A call whose body relied on a formal that nothing was
handed over to has no run. Every valuation has exactly one run, which ends with the environment it
started in; what a valuation does to the evidence follows by induction on its run.
-/
namespace NullGuard

variable {ι κ : Type} [DecidableEq ι]

namespace Frame

/-- The parameter of the caller that a formal stands for. -/
def caller? (f : Frame ι κ) (formal : ι) : Option ι := handedBy f.pairs formal

theorem isSome_caller? {f : Frame ι κ} {formal : ι}
    (passed : (Eligibility.only f.passed).admits formal = true) :
    (f.caller? formal).isSome = true := by
  obtain ⟨p, -, listed⟩ := exists_renameBack passed (List.mem_singleton_self formal)
  obtain ⟨_, among, found⟩ := List.mem_filterMap.1 listed
  cases List.mem_singleton.1 among
  exact Option.isSome_iff_exists.2 ⟨p, found⟩

/-- Where every formal stands for a parameter of the caller, none is lost in going back to these. -/
theorem mapM_caller? {f : Frame ι κ} {formals : List ι}
    (named : ∀ formal ∈ formals, (f.caller? formal).isSome = true) :
    formals.mapM f.caller? = some (renameBack f.pairs formals) := by
  induction formals with
  | nil => rfl
  | cons formal rest ih =>
    obtain ⟨q, found⟩ := Option.isSome_iff_exists.1 (named formal List.mem_cons_self)
    have below := ih fun other member => named other (List.mem_cons_of_mem formal member)
    have first : renameBack f.pairs (formal :: rest) = q :: renameBack f.pairs rest :=
      List.filterMap_cons_some found
    rw [List.mapM_cons, found, below, first]
    rfl

/-- Going back to the parameters of the caller leaves some exactly if there were formals. -/
theorem mapM_caller?_eq_nil_iff {f : Frame ι κ} {formals callers : List ι}
    (named : formals.mapM f.caller? = some callers) : callers = [] ↔ formals = [] := by
  cases formals with
  | nil =>
    cases named
    simp
  | cons formal rest =>
    rw [List.mapM_cons] at named
    obtain ⟨q, -, named⟩ := Option.bind_eq_some_iff.1 named
    obtain ⟨others, -, same⟩ := Option.bind_eq_some_iff.1 named
    cases same
    simp

end Frame

theorem Connective.combine_none (op : Connective) : op.combine none none = none := by
  cases op <;> rfl

namespace Outcome

variable (op : Connective) (left right o : Outcome ι)

omit [DecidableEq ι]

theorem eligible_combine : (combine op left right).evidence.eligible = left.evidence.eligible := by
  simp only [combine]
  split <;> rfl

theorem affected_combine :
    (combine op left right).evidence.affected =
      if (op.combine left.value right.value).isSome then
        left.evidence.affected ++ right.evidence.affected
      else [] := by
  simp only [combine]
  split <;> rfl

theorem value_settle : o.settle.value = o.value := by
  unfold settle
  split <;> rfl

theorem eligible_settle : o.settle.evidence.eligible = o.evidence.eligible := by
  unfold settle
  split <;> rfl

theorem affected_settle :
    o.settle.evidence.affected = if o.value.isNone then [] else o.evidence.affected := by
  unfold settle
  split <;> rfl

end Outcome

variable [DecidableEq κ]

namespace Env

/-- The environment after an inlining: it is not under way any more. -/
def outside (env : Env ι κ) (inlining : Inlining ι κ) : Env ι κ :=
  { env with active := env.active.filter (· ≠ inlining) }

theorem outside_inside {env : Env ι κ} {inlining : Inlining ι κ} (fresh : inlining ∉ env.active) :
    (env.inside inlining).outside inlining = env := by
  have differ : ∀ other ∈ env.active, other ≠ inlining := by
    rintro other member rfl
    exact fresh member
  have rest : (inlining :: env.active).filter (· ≠ inlining) = env.active := by
    rw [List.filter_cons_of_neg (by simp), List.filter_eq_self]
    simpa using differ
  exact congrArg (fun active => { env with active }) rest

end Env

namespace Strategy

/-- A valuation step by step: it starts in the first environment and ends in the second. -/
inductive Runs : Env ι κ → Strategy → Expr ι κ → Evidence ι → Outcome ι → Env ι κ → Prop
  | ineligible {env : Env ι κ} {e : Expr ι κ} {evidence : Evidence ι}
      (nothing : evidence.eligible.isEmpty = true) :
      Runs env .inline e evidence (.unknown evidence.clear) env
  | noCall {env : Env ι κ} {e : Expr ι κ} {evidence : Evidence ι}
      (possible : evidence.eligible.isEmpty = false) (shape : ∀ callee args, e ≠ .call callee args) :
      Runs env .inline e evidence (.unknown evidence) env
  | absent {env : Env ι κ} {callee : κ} {args : List (Expr ι κ)} {evidence : Evidence ι}
      (possible : evidence.eligible.isEmpty = false)
      (absent : env.frame? evidence.eligible callee args = none) :
      Runs env .inline (.call callee args) evidence
        (.unknown evidence (env.lookupNotes callee args)) env
  | busy {env : Env ι κ} {callee : κ} {args : List (Expr ι κ)} {evidence : Evidence ι}
      {frame : Frame ι κ} (possible : evidence.eligible.isEmpty = false)
      (found : env.frame? evidence.eligible callee args = some frame)
      (busy : frame.inlining ∈ env.active) :
      Runs env .inline (.call callee args) evidence
        (.unknown evidence.clear
          (env.lookupNotes callee args ++ [frame.note] ++ [.recursion frame.helper.name])) env
  | body {env after : Env ι κ} {callee : κ} {args : List (Expr ι κ)} {evidence : Evidence ι}
      {frame : Frame ι κ} {o : Outcome ι} {callers : List ι}
      (possible : evidence.eligible.isEmpty = false)
      (found : env.frame? evidence.eligible callee args = some frame)
      (fresh : frame.inlining ∉ env.active)
      (inner : Runs (env.inside frame.inlining) env.root frame.body frame.start o after)
      (named : o.evidence.affected.mapM frame.caller? = some callers) :
      Runs env .inline (.call callee args) evidence
        { value := o.value
          evidence := { evidence with affected := callers }
          trace := env.lookupNotes callee args ++ [frame.note] ++ o.trace }
        (after.outside frame.inlining)
  | compared {env : Env ι κ} {left right : Expr ι κ} {evidence : Evidence ι} {p : ι} (negated : Bool)
      (hit : evidence.eligible.compared? left right = some p) :
      Runs env .nonNull (.compare left right negated) evidence
        { value := some negated, evidence := evidence.push p } env
  | uncompared {env : Env ι κ} {left right : Expr ι κ} {evidence : Evidence ι} (negated : Bool)
      (miss : evidence.eligible.compared? left right = none) :
      Runs env .nonNull (.compare left right negated) evidence (.unknown evidence) env
  | noCompare {env : Env ι κ} {e : Expr ι κ} {evidence : Evidence ι}
      (shape : ∀ left right negated, e ≠ .compare left right negated) :
      Runs env .nonNull e evidence (.unknown evidence) env
  | tooDeep {env : Env ι κ} {leaf : Strategy} {e : Expr ι κ} {evidence : Evidence ι}
      (exceeded : env.enter.exceeded = true) :
      Runs env (.logic leaf) e evidence (.unknown evidence.clear [.boundHit env.limit])
        env.enter.leave
  | paren {env after : Env ι κ} {leaf : Strategy} {e : Expr ι κ} {evidence : Evidence ι}
      {o : Outcome ι} (within : env.enter.exceeded = false)
      (inner : Runs env.enter (.logic leaf) e evidence o after) :
      Runs env (.logic leaf) (.paren e) evidence o after.leave
  | not {env after : Env ι κ} {leaf : Strategy} {e : Expr ι κ} {evidence : Evidence ι}
      {o : Outcome ι} (within : env.enter.exceeded = false)
      (operand : Runs env.enter (.logic leaf) e evidence o after) :
      Runs env (.logic leaf) (.not e) evidence o.negate after.leave
  | connect {env between after : Env ι κ} {leaf : Strategy} {l r : Expr ι κ} {evidence : Evidence ι}
      {o o' : Outcome ι} (op : Connective) (within : env.enter.exceeded = false)
      (left : Runs env.enter (.logic leaf) l evidence o between)
      (right : Runs between (.logic leaf) r evidence o' after) :
      Runs env (.logic leaf) (.connect op l r) evidence (.combine op o o') after.leave
  | leaf {env after : Env ι κ} {leaf : Strategy} {e : Expr ι κ} {evidence : Evidence ι}
      {o : Outcome ι} (within : env.enter.exceeded = false) (shape : e.isLeaf = true)
      (inner : Runs env.enter leaf e evidence o after) :
      Runs env (.logic leaf) e evidence o.settle after.leave
  | noneLeft {env : Env ι κ} {e : Expr ι κ} {evidence : Evidence ι} :
      Runs env (.firstOf []) e evidence (.unknown evidence) env
  | first {env after : Env ι κ} {strategy : Strategy} {rest : List Strategy} {e : Expr ι κ}
      {evidence : Evidence ι} {o : Outcome ι} (known : o.value.isSome = true)
      (run : Runs env strategy e evidence o after) :
      Runs env (.firstOf (strategy :: rest)) e evidence o after
  | next {env between after : Env ι κ} {strategy : Strategy} {rest : List Strategy} {e : Expr ι κ}
      {evidence : Evidence ι} {o o' : Outcome ι} (unknown : o.value = none)
      (run : Runs env strategy e evidence o between)
      (others : Runs between (.firstOf rest) e o.evidence o' after) :
      Runs env (.firstOf (strategy :: rest)) e evidence (o'.after o.trace) after

namespace Runs

variable {env after : Env ι κ} {strategy : Strategy} {e : Expr ι κ} {evidence : Evidence ι}
  {o : Outcome ι}

/-- The restriction stays, and what is relied on was so before or meets the restriction. -/
theorem admits (run : Runs env strategy e evidence o after) :
    o.evidence.eligible = evidence.eligible ∧
      ∀ p ∈ o.evidence.affected, p ∈ evidence.affected ∨ evidence.eligible.admits p = true := by
  induction run with
  | ineligible _ | busy _ _ _ | tooDeep _ => exact ⟨rfl, nofun⟩
  | noCall _ _ | absent _ _ | uncompared _ _ | noCompare _ | noneLeft =>
    exact ⟨rfl, fun _ member => .inl member⟩
  | @body _ _ _ _ _ frame o callers _ found _ _ named ih =>
    refine ⟨rfl, fun p member => .inr ?_⟩
    -- The body starts without evidence, so all it relied on are formals that were passed.
    have passed : ∀ formal ∈ o.evidence.affected, (frame.caller? formal).isSome = true := by
      intro formal relied
      exact Frame.isSome_caller? ((ih.2 formal relied).resolve_left List.not_mem_nil)
    rw [Frame.mapM_caller? passed] at named
    cases named
    obtain ⟨formal, -, pair⟩ := mem_renameBack member
    rw [Resolver.pairs_of_frame? found] at pair
    exact Eligibility.admits_of_passThrough pair
  | compared _ hit =>
    refine ⟨rfl, fun p member => ?_⟩
    rcases List.mem_append.1 member with member | member
    · exact .inl member
    · rw [List.mem_singleton.1 member]
      exact .inr (Eligibility.admits_of_compared? hit)
  | paren _ _ ih | not _ _ ih | first _ _ ih => exact ih
  | connect op _ _ _ left right =>
    rw [Outcome.eligible_combine, Outcome.affected_combine]
    refine ⟨left.1, fun p member => ?_⟩
    split at member
    · exact (List.mem_append.1 member).elim (left.2 p) (right.2 p)
    · cases member
  | leaf _ _ _ ih =>
    rw [Outcome.eligible_settle, Outcome.affected_settle]
    refine ⟨ih.1, fun p member => ?_⟩
    split at member
    · cases member
    · exact ih.2 p member
  | next _ _ _ first others =>
    refine ⟨others.1.trans first.1, fun p member => ?_⟩
    rcases others.2 p member with before | admitted
    · exact first.2 p before
    · rw [first.1] at admitted
      exact .inr admitted

/-- The body of a helper relies only on formals that stand for a parameter of the caller. -/
theorem isSome_caller? {frame : Frame ι κ}
    (run : Runs env strategy e frame.start o after) :
    ∀ formal ∈ o.evidence.affected, (frame.caller? formal).isSome = true := by
  intro formal relied
  exact Frame.isSome_caller? ((run.admits.2 formal relied).resolve_left List.not_mem_nil)

/-- A run is the valuation, and its environment ends as it began. -/
theorem eq_run (run : Runs env strategy e evidence o after) :
    o = strategy.run env e evidence ∧ after = env := by
  induction run with
  | ineligible nothing => exact ⟨(run_inline_of_isEmpty _ nothing).symm, rfl⟩
  | noCall possible shape => exact ⟨(run_inline_of_not_call possible shape).symm, rfl⟩
  | absent possible absent => exact ⟨(run_inline_of_absent possible absent).symm, rfl⟩
  | busy possible found busy => exact ⟨(run_inline_of_busy possible found busy).symm, rfl⟩
  | body possible found fresh inner named ih =>
    obtain ⟨rfl, rfl⟩ := ih
    rw [Frame.mapM_caller? inner.isSome_caller?] at named
    cases named
    exact ⟨(run_inline_of_fresh possible found fresh).symm, Env.outside_inside fresh⟩
  | compared negated hit => exact ⟨by rw [run_nonNull_compare, hit], rfl⟩
  | uncompared negated miss => exact ⟨by rw [run_nonNull_compare, miss], rfl⟩
  | noCompare shape => exact ⟨(run_nonNull_of_not_compare _ shape).symm, rfl⟩
  | tooDeep exceeded => exact ⟨(run_logic_of_exceeded _ _ exceeded).symm, rfl⟩
  | paren within _ ih =>
    obtain ⟨rfl, rfl⟩ := ih
    exact ⟨(run_logic_paren _ _ within).symm, rfl⟩
  | not within _ ih =>
    obtain ⟨rfl, rfl⟩ := ih
    exact ⟨(run_logic_not _ _ within).symm, rfl⟩
  | connect op within _ _ left right =>
    obtain ⟨rfl, rfl⟩ := left
    obtain ⟨rfl, rfl⟩ := right
    exact ⟨(run_logic_connect _ op _ _ within).symm, rfl⟩
  | leaf within shape _ ih =>
    obtain ⟨rfl, rfl⟩ := ih
    exact ⟨(run_logic_of_isLeaf _ shape within).symm, rfl⟩
  | noneLeft => exact ⟨by rw [run_firstOf, runFirst_nil], rfl⟩
  | first known _ ih =>
    obtain ⟨rfl, rfl⟩ := ih
    exact ⟨by rw [run_firstOf, runFirst_cons, if_pos known], rfl⟩
  | next unknown _ _ first others =>
    obtain ⟨rfl, rfl⟩ := first
    obtain ⟨rfl, rfl⟩ := others
    exact ⟨by simp [run_firstOf, runFirst_cons, unknown], rfl⟩

/-- With other evidence to start from, but the same restriction, the run finds the same value. -/
theorem value_eq (run : Runs env strategy e evidence o after) (affected : List ι) :
    ∃ o', Runs env strategy e ⟨affected, evidence.eligible⟩ o' after ∧ o'.value = o.value := by
  induction run generalizing affected with
  | ineligible nothing => exact ⟨_, .ineligible nothing, rfl⟩
  | noCall possible shape => exact ⟨_, .noCall possible shape, rfl⟩
  | absent possible absent => exact ⟨_, .absent possible absent, rfl⟩
  | busy possible found busy => exact ⟨_, .busy possible found busy, rfl⟩
  | body possible found fresh inner named => exact ⟨_, .body possible found fresh inner named, rfl⟩
  | compared negated hit => exact ⟨_, .compared negated hit, rfl⟩
  | uncompared negated miss => exact ⟨_, .uncompared negated miss, rfl⟩
  | noCompare shape => exact ⟨_, .noCompare shape, rfl⟩
  | tooDeep exceeded => exact ⟨_, .tooDeep exceeded, rfl⟩
  | paren within _ ih =>
    obtain ⟨o', inner, same⟩ := ih affected
    exact ⟨o', .paren within inner, same⟩
  | not within _ ih =>
    obtain ⟨o', operand, same⟩ := ih affected
    exact ⟨o'.negate, .not within operand, by simp [Outcome.negate, same]⟩
  | connect op within _ _ left right =>
    obtain ⟨l, left, sameLeft⟩ := left affected
    obtain ⟨r, right, sameRight⟩ := right affected
    exact ⟨.combine op l r, .connect op within left right,
      by simp [Outcome.combine, sameLeft, sameRight]⟩
  | leaf within shape _ ih =>
    obtain ⟨o', inner, same⟩ := ih affected
    refine ⟨o'.settle, .leaf within shape inner, ?_⟩
    rw [Outcome.value_settle, Outcome.value_settle, same]
  | noneLeft => exact ⟨_, .noneLeft, rfl⟩
  | first known _ ih =>
    obtain ⟨o', run, same⟩ := ih affected
    exact ⟨o', .first (same ▸ known) run, same⟩
  | @next _ _ _ _ _ _ _ o _ unknown run _ first others =>
    obtain ⟨l, run', same⟩ := first affected
    -- The next alternative starts where this one ended, under the restriction of both.
    have kept : o.evidence.eligible = l.evidence.eligible := run.admits.1.trans run'.admits.1.symm
    obtain ⟨r, others', same'⟩ := others l.evidence.affected
    rw [kept] at others'
    exact ⟨r.after l.trace, .next (same.trans unknown) run' others', same'⟩

/-- Strategies for whole conditions drop the evidence for no value. -/
theorem affected_of_unknown {leaf : Strategy} (run : Runs env (.logic leaf) e evidence o after)
    (unknown : o.value = none) : o.evidence.affected = [] := by
  generalize whole : Strategy.logic leaf = strategy at run
  induction run with
  | tooDeep _ => rfl
  | paren _ _ ih => exact ih unknown whole
  | not _ _ ih => exact ih (by simpa [Outcome.negate] using unknown) whole
  | connect op _ _ _ _ _ =>
    have undecided : (Outcome.combine op _ _).value = none := unknown
    simp only [Outcome.combine] at undecided
    simp [Outcome.affected_combine, undecided]
  | leaf _ _ _ _ =>
    rw [Outcome.value_settle] at unknown
    simp [Outcome.affected_settle, unknown]
  | _ => cases whole

/-- Started without evidence, a run ends with some exactly if it knows a value. -/
theorem affected_eq_nil_iff (run : Runs env strategy e evidence o after)
    (start : evidence.affected = []) : o.evidence.affected = [] ↔ o.value = none := by
  induction run with
  | ineligible _ | busy _ _ _ | tooDeep _ => simp [Outcome.unknown]
  | noCall _ _ | absent _ _ | uncompared _ _ | noCompare _ | noneLeft =>
    simp [Outcome.unknown, start]
  | @body _ _ _ _ _ frame o callers _ _ _ _ named ih =>
    rw [← ih rfl]
    exact Frame.mapM_caller?_eq_nil_iff named
  | compared _ _ => simp
  | paren _ _ ih | first _ _ ih => exact ih start
  | not _ _ ih => simpa [Outcome.negate] using ih start
  | connect op _ _ _ left right =>
    rw [Outcome.affected_combine]
    cases decided : (Outcome.combine op _ _).value with
    | none =>
      simp only [Outcome.combine] at decided
      simp [decided]
    | some value =>
      simp only [Outcome.combine] at decided
      simp only [decided, Option.isSome_some, if_true, List.append_eq_nil_iff, reduceCtorEq, iff_false]
      rintro ⟨noLeft, noRight⟩
      rw [(left start).1 noLeft, (right start).1 noRight, op.combine_none] at decided
      cases decided
  | leaf _ _ _ ih =>
    rw [Outcome.affected_settle, Outcome.value_settle, ← ih start]
    split
    · simp_all
    · rfl
  | next unknown _ _ first others => exact others ((first start).2 unknown)

end Runs

/-- Every valuation has a run. -/
theorem runs_run (env : Env ι κ) (strategy : Strategy) (e : Expr ι κ) (evidence : Evidence ι) :
    Runs env strategy e evidence (strategy.run env e evidence) env := by
  apply Strategy.run.induct
    (fun env strategy e evidence =>
      Runs env strategy e evidence (strategy.run env e evidence) env)
    (fun env alternatives e evidence =>
      Runs env (.firstOf alternatives) e evidence (runFirst env alternatives e evidence) env)
  case case1 =>
    intro env e evidence nothing
    rw [run_inline_of_isEmpty _ nothing]
    exact .ineligible nothing
  case case2 =>
    intro env evidence possible callee args absent
    have possible := Bool.eq_false_iff.2 possible
    rw [run_inline_of_absent possible absent]
    exact .absent possible absent
  case case3 =>
    intro env evidence possible callee args frame found busy
    have possible := Bool.eq_false_iff.2 possible
    rw [run_inline_of_busy possible found busy]
    exact .busy possible found busy
  case case4 =>
    intro env evidence possible callee args frame found fresh inner
    have possible := Bool.eq_false_iff.2 possible
    rw [run_inline_of_fresh possible found fresh]
    have run := Runs.body possible found fresh inner (Frame.mapM_caller? inner.isSome_caller?)
    rwa [Env.outside_inside fresh] at run
  case case5 =>
    intro env e evidence possible shape
    have possible := Bool.eq_false_iff.2 possible
    rw [run_inline_of_not_call possible shape]
    exact .noCall possible shape
  case case6 =>
    intro env evidence left right negated p hit
    rw [run_nonNull_compare, hit]
    exact .compared negated hit
  case case7 =>
    intro env evidence left right negated miss
    rw [run_nonNull_compare, miss]
    exact .uncompared negated miss
  case case8 =>
    intro env e evidence shape
    rw [run_nonNull_of_not_compare _ shape]
    exact .noCompare shape
  case case9 =>
    intro env e evidence leaf exceeded
    rw [run_logic_of_exceeded leaf e exceeded]
    exact .tooDeep exceeded
  case case10 =>
    intro env evidence leaf within inner ih
    have within := Bool.eq_false_iff.2 within
    rw [run_logic_paren leaf inner within]
    exact .paren within ih
  case case11 =>
    intro env evidence leaf within operand ih
    have within := Bool.eq_false_iff.2 within
    rw [run_logic_not leaf operand within]
    exact .not within ih
  case case12 =>
    intro env evidence leaf within op left right ihLeft ihRight
    have within := Bool.eq_false_iff.2 within
    rw [run_logic_connect leaf op left right within]
    exact .connect op within ihLeft ihRight
  case case13 =>
    intro env evidence leaf within e noParen noNot noConnect ih
    have within := Bool.eq_false_iff.2 within
    have shape : e.isLeaf = true := by
      cases e with
      | paren inner => exact (noParen inner rfl).elim
      | not operand => exact (noNot operand rfl).elim
      | connect op left right => exact (noConnect op left right rfl).elim
      | _ => rfl
    rw [run_logic_of_isLeaf evidence shape within]
    exact .leaf within shape ih
  case case14 =>
    intro env e evidence alternatives ih
    rwa [run_firstOf]
  case case15 =>
    intro env e evidence
    rw [runFirst_nil]
    exact .noneLeft
  case case16 =>
    intro env e evidence strategy rest first known ih
    rw [runFirst_cons, if_pos known]
    exact .first known ih
  case case17 =>
    intro env e evidence strategy rest first unknown ih others
    rw [runFirst_cons, if_neg unknown]
    exact .next (by simpa using unknown) ih others

/-- The contract of every strategy in every environment. Its runs have the outcome of the valuation and
leave the depth, the inlinings under way and the rest of the environment as they were. The restriction
stays. Nothing is relied on that was not relied on before or does not meet the restriction, so each
formal that the body of a helper relied on stands for a parameter of the caller. The evidence to start
from has no part in the value. From none, there is none at the end exactly if no value is known; and a
strategy for whole conditions that knows no value leaves none, whatever it started from. -/
theorem run_contract (env : Env ι κ) (strategy : Strategy) (e : Expr ι κ) (evidence : Evidence ι) :
    (∀ o after, Runs env strategy e evidence o after ↔
        o = strategy.run env e evidence ∧ after = env) ∧
      (strategy.run env e evidence).evidence.eligible = evidence.eligible ∧
      (∀ p ∈ (strategy.run env e evidence).evidence.affected,
        p ∈ evidence.affected ∨ evidence.eligible.admits p = true) ∧
      (∀ frame : Frame ι κ,
        ∀ formal ∈ (env.root.run (env.inside frame.inlining) frame.body frame.start).evidence.affected,
          (frame.caller? formal).isSome = true) ∧
      (∀ affected, (strategy.run env e ⟨affected, evidence.eligible⟩).value =
        (strategy.run env e evidence).value) ∧
      ((strategy.run env e ⟨[], evidence.eligible⟩).evidence.affected = [] ↔
        (strategy.run env e ⟨[], evidence.eligible⟩).value = none) ∧
      ∀ leaf, ((logic leaf).run env e evidence).value = none →
        ((logic leaf).run env e evidence).evidence.affected = [] := by
  have whole := runs_run env strategy e evidence
  refine ⟨?_, whole.admits.1, whole.admits.2, ?_, ?_, ?_, ?_⟩
  · intro o after
    constructor
    · exact Runs.eq_run
    · rintro ⟨rfl, rfl⟩
      exact whole
  · intro frame
    exact (runs_run (env.inside frame.inlining) env.root frame.body frame.start).isSome_caller?
  · intro affected
    obtain ⟨o, run, same⟩ := whole.value_eq affected
    rw [← run.eq_run.1, same]
  · exact (runs_run env strategy e ⟨[], evidence.eligible⟩).affected_eq_nil_iff rfl
  · intro leaf unknown
    exact (runs_run env (logic leaf) e evidence).affected_of_unknown unknown

end Strategy

end NullGuard
