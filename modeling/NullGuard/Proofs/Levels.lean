import Mathlib.Data.Bool.Basic
import NullGuard.Analysis

/-!
The standard valuation by levels. `Resolver.check` recurses on the number of levels that may still be
entered and returns only the finding: no trace, no evidence of unknown values, no depth counter. The
inlinings under way are watched or not, so the same recursion can be run with and without the test
that keeps a helper from being inlined inside itself. `nullCheck?_eq_check` says that it is the
valuation that runs, and `check_mono` that more levels only add to what is found.
-/
namespace NullGuard

variable {ι κ : Type}

namespace NullCheck

def negate (check : NullCheck ι) : NullCheck ι := { check with value := !check.value }

/-- The check of a helper's body as the caller sees it. -/
def rename [DecidableEq ι] (pairs : List (ι × ι)) (check : NullCheck ι) : NullCheck ι :=
  { check with params := renameBack pairs check.params }

/-- What a check rests on; nothing if there is none. -/
def support : Option (NullCheck ι) → List ι
  | some check => check.params
  | none => []

theorem value_negate (check : Option (NullCheck ι)) :
    (check.map negate).map (·.value) = (check.map (·.value)).map (!·) := by
  cases check <;> rfl

theorem value_rename [DecidableEq ι] (pairs : List (ι × ι)) (check : Option (NullCheck ι)) :
    (check.map (rename pairs)).map (·.value) = check.map (·.value) := by
  cases check <;> rfl

@[simp] theorem support_none : support (none : Option (NullCheck ι)) = [] := rfl
@[simp] theorem support_some (check : NullCheck ι) : support (some check) = check.params := rfl

theorem mem_support {check : Option (NullCheck ι)} {p : ι} (member : p ∈ support check) :
    ∃ known, check = some known ∧ p ∈ known.params := by
  cases check with
  | none => cases member
  | some known => exact ⟨known, rfl, member⟩

end NullCheck

theorem mem_renameBack [DecidableEq ι] {pairs : List (ι × ι)} {formals : List ι} {p : ι}
    (member : p ∈ renameBack pairs formals) : ∃ formal ∈ formals, (p, formal) ∈ pairs := by
  obtain ⟨formal, among, hit⟩ := List.mem_filterMap.1 member
  obtain ⟨pair, found, rfl⟩ := Option.map_eq_some_iff.1 hit
  have same : pair.2 = formal := by simpa using List.find?_some found
  exact ⟨formal, among, same ▸ List.mem_of_find?_eq_some found⟩

theorem Eligibility.admits_of_passThrough [DecidableEq ι] {eligible : Eligibility ι}
    {args : List (Expr ι κ)} {formals : List ι} {pair : ι × ι}
    (member : pair ∈ eligible.passThrough args formals) : eligible.admits pair.1 = true := by
  obtain ⟨handed, -, hit⟩ := List.mem_filterMap.1 member
  obtain ⟨p, eligibleParam, rfl⟩ := Option.map_eq_some_iff.1 hit
  exact admits_of_param? eligibleParam

namespace Connective

theorem combine_eq_dominant_iff (op : Connective) (left right : Option Bool) :
    op.combine left right = some op.dominant ↔
      left = some op.dominant ∨ right = some op.dominant := by
  by_cases decided : left = some op.dominant ∨ right = some op.dominant
  · simp [combine, decided]
  · simp [combine, decided]

theorem combine_eq_neutral_iff (op : Connective) (left right : Option Bool) :
    op.combine left right = some (!op.dominant) ↔
      left = some (!op.dominant) ∧ right = some (!op.dominant) := by
  cases op <;> rcases left with _ | _ | _ <;> rcases right with _ | _ | _ <;> decide

/-- Operands that are known where others are and agree with them decide what those decide. -/
theorem combine_mono (op : Connective) {left right left' right' : Option Bool} {value : Bool}
    (l : ∀ v, left = some v → left' = some v) (r : ∀ v, right = some v → right' = some v)
    (known : op.combine left right = some value) : op.combine left' right' = some value := by
  rcases Bool.eq_or_eq_not value op.dominant with rfl | rfl
  · rw [combine_eq_dominant_iff] at known ⊢
    exact known.imp (l _) (r _)
  · rw [combine_eq_neutral_iff] at known ⊢
    exact known.imp (l _) (r _)

end Connective

namespace HelperTable

variable [DecidableEq κ] {table : HelperTable ι κ}

/-- No helper has two formals of one identity. -/
def DistinctFormals (table : HelperTable ι κ) : Prop :=
  ∀ callee helper, table.find? callee = some helper → helper.formals.Nodup

theorem distinctFormals_of_entries (each : ∀ entry ∈ table.entries, entry.2.formals.Nodup) :
    table.DistinctFormals := by
  intro callee helper found
  obtain ⟨entry, hit, rfl⟩ := Option.map_eq_some_iff.1 found
  exact each entry (List.mem_of_find?_eq_some hit)

theorem find?_of_lookup {callee : κ} {helper : Helper ι κ}
    (found : table.lookup callee = .found helper) : table.find? callee = some helper := by
  unfold lookup at found
  split at found
  next h hit =>
    cases found
    exact hit
  · cases found

end HelperTable

/-- The check of a connective. An unknown operand adds nothing to what it rests on. -/
def Connective.check (op : Connective) (left right : Option (NullCheck ι)) :
    Option (NullCheck ι) :=
  (op.combine (left.map (·.value)) (right.map (·.value))).map fun value =>
    ⟨value, NullCheck.support left ++ NullCheck.support right⟩

theorem Connective.value_check (op : Connective) (left right : Option (NullCheck ι)) :
    (op.check left right).map (·.value) =
      op.combine (left.map (·.value)) (right.map (·.value)) := by
  simp [Connective.check, Function.comp_def]

theorem Connective.check_eq_some {op : Connective} {left right : Option (NullCheck ι)}
    {known : NullCheck ι} (hit : op.check left right = some known) :
    op.combine (left.map (·.value)) (right.map (·.value)) = some known.value ∧
      known.params = NullCheck.support left ++ NullCheck.support right := by
  obtain ⟨value, decided, rfl⟩ := Option.map_eq_some_iff.1 hit
  exact ⟨decided, rfl⟩

/-- The second check is known where the first is, has the same value and rests on at least as much. -/
def NullCheck.Extends (less more : Option (NullCheck ι)) : Prop :=
  ∀ known, less = some known →
    ∃ wider, more = some wider ∧ wider.value = known.value ∧ known.params.Sublist wider.params

namespace NullCheck.Extends

variable {less more left right left' right' : Option (NullCheck ι)}

theorem refl (check : Option (NullCheck ι)) : Extends check check :=
  fun known hit => ⟨known, hit, rfl, List.Sublist.refl _⟩

theorem of_none (check : Option (NullCheck ι)) : Extends none check :=
  fun _ hit => nomatch hit

theorem value (wider : Extends less more) {v : Bool} (known : less.map (·.value) = some v) :
    more.map (·.value) = some v := by
  obtain ⟨check, hit, rfl⟩ := Option.map_eq_some_iff.1 known
  obtain ⟨wide, hit', same, -⟩ := wider check hit
  rw [hit', Option.map_some, same]

theorem support (wider : Extends less more) :
    (NullCheck.support less).Sublist (NullCheck.support more) := by
  cases less with
  | none => exact List.nil_sublist _
  | some known =>
    obtain ⟨wide, rfl, -, sub⟩ := wider known rfl
    exact sub

theorem negate (wider : Extends less more) : Extends (less.map .negate) (more.map .negate) := by
  rintro _ hit
  obtain ⟨known, rfl, rfl⟩ := Option.map_eq_some_iff.1 hit
  obtain ⟨wide, rfl, same, sub⟩ := wider known rfl
  exact ⟨wide.negate, rfl, congrArg (!·) same, sub⟩

theorem rename [DecidableEq ι] (pairs : List (ι × ι)) (wider : Extends less more) :
    Extends (less.map (.rename pairs)) (more.map (.rename pairs)) := by
  rintro _ hit
  obtain ⟨known, rfl, rfl⟩ := Option.map_eq_some_iff.1 hit
  obtain ⟨wide, rfl, same, sub⟩ := wider known rfl
  exact ⟨wide.rename pairs, rfl, same, sub.filterMap _⟩

theorem connect (op : Connective) (l : Extends left left') (r : Extends right right') :
    Extends (op.check left right) (op.check left' right') := by
  rintro _ hit
  obtain ⟨value, known, rfl⟩ := Option.map_eq_some_iff.1 hit
  have known' := op.combine_mono (fun _ => l.value) (fun _ => r.value) known
  have hit' : op.check left' right' =
      some ⟨value, NullCheck.support left' ++ NullCheck.support right'⟩ := by
    rw [Connective.check, known', Option.map_some]
  exact ⟨_, hit', rfl, l.support.append r.support⟩

/-- A call extends to one of the same helper that is free where the first is and whose body extends
the first one's. -/
theorem call [DecidableEq ι] {empty : Bool} {found : Option (Frame ι κ)}
    {busy busy' : Frame ι κ → Bool} {body body' : Frame ι κ → Option (NullCheck ι)}
    (free : ∀ frame, busy' frame → busy frame)
    (bodies : ∀ frame, Extends (body frame) (body' frame)) :
    Extends
      (if empty then none
      else found.bind fun frame =>
        if busy frame then none else (body frame).map (.rename frame.pairs))
      (if empty then none
      else found.bind fun frame =>
        if busy' frame then none else (body' frame).map (.rename frame.pairs)) := by
  cases empty with
  | true => exact .of_none _
  | false =>
    cases found with
    | none => exact .of_none _
    | some frame =>
      by_cases taken : busy frame = true
      · simpa [taken] using Extends.of_none _
      · have taken' : ¬ busy' frame = true := fun h => taken (free frame h)
        simpa [taken, taken'] using (bodies frame).rename frame.pairs

end NullCheck.Extends

/-- An outcome under a restriction that says no more than a check does. -/
structure Outcome.Reports (o : Outcome ι) (eligible : Eligibility ι)
    (check : Option (NullCheck ι)) : Prop where
  value : o.value = check.map (·.value)
  evidence : o.evidence = ⟨NullCheck.support check, eligible⟩

namespace Outcome.Reports

variable {o left right : Outcome ι} {eligible : Eligibility ι}
  {check leftCheck rightCheck : Option (NullCheck ι)}

theorem unknown (eligible : Eligibility ι) (trace : List Note) :
    (Outcome.unknown ⟨[], eligible⟩ trace).Reports eligible none :=
  ⟨rfl, rfl⟩

theorem after (reported : o.Reports eligible check) (notes : List Note) :
    (o.after notes).Reports eligible check :=
  ⟨reported.value, reported.evidence⟩

theorem negate (reported : o.Reports eligible check) :
    o.negate.Reports eligible (check.map .negate) := by
  cases check with
  | none => exact ⟨by simp [Outcome.negate, reported.value], reported.evidence⟩
  | some known =>
    exact ⟨by simp [Outcome.negate, NullCheck.negate, reported.value], reported.evidence⟩

theorem settle (reported : o.Reports eligible check) : o.settle.Reports eligible check := by
  have same : o.settle = o := by
    cases check with
    | none =>
      have unknown : o.value = none := reported.value
      have nothing : o.evidence.clear = o.evidence := by rw [reported.evidence]; rfl
      simp only [Outcome.settle, unknown, Option.isNone_none, if_true, nothing]
      rw [← unknown]
    | some known =>
      have known : o.value = some known.value := reported.value
      simp [Outcome.settle, known]
  rwa [same]

theorem combine (op : Connective) (l : left.Reports eligible leftCheck)
    (r : right.Reports eligible rightCheck) :
    (Outcome.combine op left right).Reports eligible (op.check leftCheck rightCheck) := by
  refine ⟨?_, ?_⟩
  · rw [Connective.value_check, ← l.value, ← r.value]
    rfl
  · simp only [Outcome.combine, Connective.check, l.value, r.value, l.evidence, r.evidence]
    cases op.combine (leftCheck.map (·.value)) (rightCheck.map (·.value)) <;> rfl

theorem finish [DecidableEq ι] {inner : Eligibility ι} (frame : Frame ι κ)
    (reported : o.Reports inner check) :
    (frame.finish ⟨[], eligible⟩ o).Reports eligible (check.map (.rename frame.pairs)) := by
  cases check with
  | none => exact ⟨reported.value, by simp [Frame.finish, reported.evidence, renameBack]⟩
  | some known =>
    exact ⟨reported.value, by simp [Frame.finish, reported.evidence, NullCheck.rename]⟩

theorem nullCheck?_eq (reported : o.Reports eligible check) : o.nullCheck? = check := by
  cases check with
  | none => simp [Outcome.nullCheck?, reported.value]
  | some known => simp [Outcome.nullCheck?, reported.value, reported.evidence]

end Outcome.Reports

theorem Env.inlineable?_eq (env : Env ι κ) (callee : κ) (arity : Nat) :
    env.inlineable? callee arity = (env.resolver.lookup callee arity).helper?.bind fun helper =>
      if helper.unit = env.unit then helper.body.map (helper, ·) else none := by
  unfold inlineable?
  cases env.resolver.lookup callee arity with
  | found helper => rfl
  | ambiguous name candidates arity => rfl
  | absent => rfl

variable [DecidableEq ι] [DecidableEq κ]

namespace Resolver

/-- The inlining that a call asks for in a unit. -/
def frame? (resolver : Resolver ι κ) (unit : Option String) (eligible : Eligibility ι) (callee : κ)
    (args : List (Expr ι κ)) : Option (Frame ι κ) :=
  Env.frame? { resolver, unit } eligible callee args

/-- The check that an expression is within so many levels. The inlinings under way are `watched`;
with `none` there is no test against inlining a helper inside itself. -/
def check (resolver : Resolver ι κ) (unit : Option String) :
    Nat → Option (List (Inlining ι κ)) → Eligibility ι → Expr ι κ → Option (NullCheck ι)
  | 0, _, _, _ => none
  | n + 1, watched, eligible, .paren inner => resolver.check unit n watched eligible inner
  | n + 1, watched, eligible, .not operand =>
    (resolver.check unit n watched eligible operand).map .negate
  | n + 1, watched, eligible, .connect op left right =>
    op.check (resolver.check unit n watched eligible left)
      (resolver.check unit n watched eligible right)
  | _ + 1, _, eligible, .compare left right negated =>
    (eligible.compared? left right).map fun p => ⟨negated, [p]⟩
  | n + 1, watched, eligible, .call callee args =>
    if eligible.isEmpty then none
    else
      (resolver.frame? unit eligible callee args).bind fun frame =>
        if watched.any (·.contains frame.inlining) then none
        else
          (resolver.check unit n (watched.map (frame.inlining :: ·)) (.only frame.passed)
            frame.body).map (.rename frame.pairs)
  | _ + 1, _, _, .null => none
  | _ + 1, _, _, .param _ => none
  | _ + 1, _, _, .other _ => none

end Resolver

/-- The expression is no parenthesis, negation or connective. -/
def Expr.isLeaf : Expr ι κ → Bool
  | .paren _ | .not _ | .connect .. => false
  | _ => true

/-- The levels that may still be entered. -/
def Env.levels (env : Env ι κ) : Nat := (env.limit - env.depth).toNat

omit [DecidableEq ι] [DecidableEq κ] in
theorem Env.exceeded_enter (env : Env ι κ) : env.enter.exceeded = decide (env.levels = 0) := by
  have shifted : env.enter.exceeded = decide (env.limit < (env.depth + 1 : Nat)) := rfl
  rw [shifted, levels]
  refine decide_eq_decide.2 ?_
  omega

omit [DecidableEq ι] [DecidableEq κ] in
theorem Env.levels_enter (env : Env ι κ) : env.enter.levels = env.levels - 1 := by
  have shifted : env.enter.levels = (env.limit - (env.depth + 1 : Nat)).toNat := rfl
  rw [shifted, levels]
  omega

namespace Strategy

/-- The strategy for leaves. -/
def leaf : Strategy := .firstOf [.inline, .nonNull]

theorem standard_eq : standard = logic leaf := rfl

variable {env : Env ι κ} {eligible : Eligibility ι} {e : Expr ι κ}

theorem run_logic_of_isLeaf {inner : Strategy} (evidence : Evidence ι) (shape : e.isLeaf = true)
    (open_ : env.enter.exceeded = false) :
    (logic inner).run env e evidence = (inner.run env.enter e evidence).settle := by
  rw [run.eq_def]
  simp only [open_, Bool.false_eq_true, if_false]
  cases e with
  | paren _ | not _ | connect _ _ _ => cases shape
  | _ => rfl

theorem run_nonNull_of_not_compare (evidence : Evidence ι)
    (shape : ∀ left right negated, e ≠ .compare left right negated) :
    nonNull.run env e evidence = .unknown evidence := by
  rw [run.eq_def]
  cases e with
  | compare left right negated => exact absurd rfl (shape left right negated)
  | _ => rfl

theorem run_inline_of_not_call {evidence : Evidence ι} (possible : evidence.eligible.isEmpty = false)
    (shape : ∀ callee args, e ≠ .call callee args) :
    inline.run env e evidence = .unknown evidence := by
  rw [run.eq_def]
  simp only [possible, Bool.false_eq_true, if_false]

/-- Inlining is tried before comparing, which then starts without evidence again. -/
theorem reports_leaf {inlined compared : Option (NullCheck ι)}
    (inlines : (inline.run env e ⟨[], eligible⟩).Reports eligible inlined)
    (compares : (nonNull.run env e ⟨[], eligible⟩).Reports eligible compared) :
    (leaf.run env e ⟨[], eligible⟩).Reports eligible (inlined.or compared) := by
  simp only [leaf, run_firstOf, runFirst_cons, runFirst_nil]
  cases inlined with
  | some known =>
    have hit : (inline.run env e ⟨[], eligible⟩).value = some known.value := inlines.value
    simpa [hit] using inlines
  | none =>
    have miss : (inline.run env e ⟨[], eligible⟩).value = none := inlines.value
    have untouched : (inline.run env e ⟨[], eligible⟩).evidence = ⟨[], eligible⟩ := inlines.evidence
    simp only [miss, untouched, Option.isSome_none, Bool.false_eq_true, if_false, Option.none_or]
    refine Outcome.Reports.after ?_ _
    cases compared with
    | some known =>
      have hit : (nonNull.run env e ⟨[], eligible⟩).value = some known.value := compares.value
      simpa [hit] using compares
    | none =>
      have miss : (nonNull.run env e ⟨[], eligible⟩).value = none := compares.value
      have untouched : (nonNull.run env e ⟨[], eligible⟩).evidence = ⟨[], eligible⟩ :=
        compares.evidence
      simp only [miss, untouched, Option.isSome_none, Bool.false_eq_true, if_false]
      exact (Outcome.Reports.unknown eligible []).after _

theorem reports_inline_of_not_call (shape : ∀ callee args, e ≠ .call callee args) :
    (inline.run env e ⟨[], eligible⟩).Reports eligible none := by
  cases possible : eligible.isEmpty with
  | true =>
    rw [run_inline_of_isEmpty _ possible]
    exact .unknown eligible []
  | false =>
    rw [run_inline_of_not_call possible shape]
    exact .unknown eligible []

theorem reports_nonNull_of_not_compare
    (shape : ∀ left right negated, e ≠ .compare left right negated) :
    (nonNull.run env e ⟨[], eligible⟩).Reports eligible none := by
  rw [run_nonNull_of_not_compare _ shape]
  exact .unknown eligible []

theorem reports_nonNull (left right : Expr ι κ) (negated : Bool) :
    (nonNull.run env (.compare left right negated) ⟨[], eligible⟩).Reports eligible
      ((eligible.compared? left right).map fun p => ⟨negated, [p]⟩) := by
  rw [run_nonNull_compare]
  cases eligible.compared? left right with
  | none => exact .unknown eligible []
  | some p => exact ⟨rfl, rfl⟩

/-- A call reports what the root strategy makes of the body of its helper. -/
theorem reports_inline {callee : κ} {args : List (Expr ι κ)}
    {body : Frame ι κ → Option (NullCheck ι)}
    (bodies : ∀ frame : Frame ι κ,
      (env.root.run (env.inside frame.inlining) frame.body frame.start).Reports (.only frame.passed)
        (body frame)) :
    (inline.run env (.call callee args) ⟨[], eligible⟩).Reports eligible
      (if eligible.isEmpty then none
      else
        (env.frame? eligible callee args).bind fun frame =>
          if frame.inlining ∈ env.active then none
          else (body frame).map (.rename frame.pairs)) := by
  cases possible : eligible.isEmpty with
  | true =>
    rw [run_inline_of_isEmpty _ possible]
    exact .unknown eligible []
  | false =>
    cases found : env.frame? eligible callee args with
    | none =>
      rw [run_inline_of_absent possible found]
      exact .unknown eligible _
    | some frame =>
      by_cases busy : frame.inlining ∈ env.active
      · rw [run_inline_of_busy possible found busy]
        simp only [Bool.false_eq_true, if_false, Option.bind_some, if_pos busy]
        exact .unknown eligible _
      · rw [run_inline_of_fresh possible found busy]
        simpa [busy] using ((bodies frame).finish frame).after _

/-- The standard strategy, started without evidence, reports the check by levels. -/
theorem reports_standard (n : Nat) (env : Env ι κ) (root : env.root = standard)
    (levels : env.levels = n) (eligible : Eligibility ι) (e : Expr ι κ) :
    (standard.run env e ⟨[], eligible⟩).Reports eligible
      (env.resolver.check env.unit n (some env.active) eligible e) := by
  induction n generalizing env eligible e with
  | zero =>
    rw [standard_eq, run_logic_of_exceeded leaf e (by simp [Env.exceeded_enter, levels])]
    exact .unknown eligible _
  | succ n ih =>
    have open_ : env.enter.exceeded = false := by simp [Env.exceeded_enter, levels]
    have fewer : env.enter.levels = n := by rw [Env.levels_enter, levels]; rfl
    have below : ∀ sub : Expr ι κ, (standard.run env.enter sub ⟨[], eligible⟩).Reports eligible
        (env.resolver.check env.unit n (some env.active) eligible sub) :=
      fun sub => ih env.enter root fewer eligible sub
    rw [standard_eq]
    cases e with
    | paren inner =>
      rw [run_logic_paren leaf inner open_]
      exact below inner
    | not operand =>
      rw [run_logic_not leaf operand open_]
      exact (below operand).negate
    | connect op left right =>
      rw [run_logic_connect leaf op left right open_]
      exact .combine op (below left) (below right)
    | compare left right negated =>
      rw [run_logic_of_isLeaf _ rfl open_]
      exact (reports_leaf (reports_inline_of_not_call (by simp))
        (reports_nonNull left right negated)).settle
    | call callee args =>
      rw [run_logic_of_isLeaf _ rfl open_]
      -- The body of a helper is valued from the start, under its own restriction.
      have bodies : ∀ frame : Frame ι κ,
          (env.enter.root.run (env.enter.inside frame.inlining) frame.body frame.start).Reports
            (.only frame.passed) (env.resolver.check env.unit n (some (frame.inlining :: env.active))
              (.only frame.passed) frame.body) := by
        intro frame
        have same : env.enter.root = standard := root
        rw [same]
        exact ih (env.enter.inside frame.inlining) root fewer (.only frame.passed) frame.body
      have inlined : (inline.run env.enter (.call callee args) ⟨[], eligible⟩).Reports eligible _ :=
        reports_inline bodies
      have both := reports_leaf inlined (reports_nonNull_of_not_compare (by simp))
      rw [Option.or_none] at both
      simp only [Resolver.check, Option.any_some, List.contains_iff_mem, Option.map_some]
      exact both.settle
    | null | param p | other text =>
      rw [run_logic_of_isLeaf _ rfl open_]
      exact (reports_leaf (reports_inline_of_not_call (by simp))
        (reports_nonNull_of_not_compare (by simp))).settle

end Strategy

/-- The valuation of a whole condition is the check within `limit` levels. -/
theorem Expr.nullCheck?_eq_check (e : Expr ι κ) (resolver : Resolver ι κ) (unit : Option String)
    (limit : Int) :
    e.nullCheck? resolver unit limit = resolver.check unit limit.toNat (some []) .all e := by
  have levels : ({ resolver, unit, limit } : Env ι κ).levels = limit.toNat := by simp [Env.levels]
  exact (Strategy.reports_standard _ { resolver, unit, limit } rfl levels .all e).nullCheck?_eq

namespace Resolver

/-- What a known call rests on: a helper that is not being inlined, with a known body. -/
theorem check_call_eq_some {resolver : Resolver ι κ} {unit : Option String} {n : Nat}
    {watched : Option (List (Inlining ι κ))} {eligible : Eligibility ι} {callee : κ}
    {args : List (Expr ι κ)} {known : NullCheck ι}
    (hit : resolver.check unit (n + 1) watched eligible (.call callee args) = some known) :
    ∃ frame inner, resolver.frame? unit eligible callee args = some frame ∧
      resolver.check unit n (watched.map (frame.inlining :: ·)) (.only frame.passed) frame.body =
        some inner ∧
      known = inner.rename frame.pairs := by
  simp only [check] at hit
  split at hit
  · cases hit
  · obtain ⟨frame, found, hit⟩ := Option.bind_eq_some_iff.1 hit
    split at hit
    · cases hit
    · obtain ⟨inner, body, rfl⟩ := Option.map_eq_some_iff.1 hit
      exact ⟨frame, inner, found, body, rfl⟩

omit [DecidableEq κ] in
theorem pairs_of_frame? {resolver : Resolver ι κ} {unit : Option String} {eligible : Eligibility ι}
    {callee : κ} {args : List (Expr ι κ)} {frame : Frame ι κ}
    (found : resolver.frame? unit eligible callee args = some frame) :
    frame.pairs = eligible.passThrough args frame.helper.formals := by
  obtain ⟨⟨helper, body⟩, -, rfl⟩ := Option.map_eq_some_iff.1 found
  rfl

omit [DecidableEq κ] in
theorem lookup_of_frame? {resolver : Resolver ι κ} {unit : Option String} {eligible : Eligibility ι}
    {callee : κ} {args : List (Expr ι κ)} {frame : Frame ι κ}
    (found : resolver.frame? unit eligible callee args = some frame) :
    resolver.lookup callee args.length = .found frame.helper ∧
      frame.helper.unit = unit ∧ frame.helper.body = some frame.body := by
  obtain ⟨⟨helper, body⟩, hit, rfl⟩ := Option.map_eq_some_iff.1 found
  unfold Env.inlineable? at hit
  split at hit
  next h resolved =>
    split at hit
    next inUnit =>
      obtain ⟨body', same, pair⟩ := Option.map_eq_some_iff.1 hit
      cases pair
      exact ⟨resolved, inUnit, same⟩
    · cases hit
  · cases hit

omit [DecidableEq κ] in
theorem frame?_of_lookup {resolver : Resolver ι κ} {unit : Option String} {callee : κ}
    {args : List (Expr ι κ)} {helper : Helper ι κ} {body : Expr ι κ}
    (resolved : resolver.lookup callee args.length = .found helper) (inUnit : helper.unit = unit)
    (has : helper.body = some body) (eligible : Eligibility ι) :
    resolver.frame? unit eligible callee args =
      some ⟨helper, body, eligible.passThrough args helper.formals⟩ := by
  simp [frame?, Env.frame?, Env.inlineable?, resolved, inUnit, has]

/-- What a check rests on may be relied on. -/
theorem admits_of_check {resolver : Resolver ι κ} {unit : Option String} {n : Nat}
    {watched : Option (List (Inlining ι κ))} {eligible : Eligibility ι} {e : Expr ι κ}
    {known : NullCheck ι} (hit : resolver.check unit n watched eligible e = some known) {p : ι}
    (member : p ∈ known.params) : eligible.admits p = true := by
  induction n generalizing e known with
  | zero => cases hit
  | succ n ih =>
    cases e with
    | paren inner => exact ih hit member
    | not operand =>
      obtain ⟨inner, below, rfl⟩ := Option.map_eq_some_iff.1 hit
      exact ih below member
    | connect op left right =>
      rw [(Connective.check_eq_some hit).2, List.mem_append] at member
      rcases member with member | member
      · obtain ⟨inner, below, member⟩ := NullCheck.mem_support member
        exact ih below member
      · obtain ⟨inner, below, member⟩ := NullCheck.mem_support member
        exact ih below member
    | compare left right negated =>
      obtain ⟨q, compared, rfl⟩ := Option.map_eq_some_iff.1 hit
      rw [List.mem_singleton.1 member]
      exact Eligibility.admits_of_compared? compared
    | call callee args =>
      obtain ⟨frame, inner, found, -, rfl⟩ := check_call_eq_some hit
      obtain ⟨formal, -, pair⟩ := mem_renameBack member
      rw [pairs_of_frame? found] at pair
      exact Eligibility.admits_of_passThrough pair
    | null | param p | other text => cases hit

/-- More levels keep what is known and only add to what it rests on. -/
theorem check_mono (resolver : Resolver ι κ) (unit : Option String) {n m : Nat} (le : n ≤ m)
    (watched : Option (List (Inlining ι κ))) (eligible : Eligibility ι) (e : Expr ι κ) :
    NullCheck.Extends (resolver.check unit n watched eligible e)
      (resolver.check unit m watched eligible e) := by
  induction n generalizing m watched eligible e with
  | zero => exact .of_none _
  | succ n ih =>
    obtain ⟨m, rfl⟩ : ∃ k, m = k + 1 := ⟨m - 1, by omega⟩
    have le' : n ≤ m := by omega
    cases e with
    | paren inner => exact ih le' watched eligible inner
    | not operand => exact (ih le' watched eligible operand).negate
    | connect op left right =>
      exact .connect op (ih le' watched eligible left) (ih le' watched eligible right)
    | compare left right negated => exact .refl _
    | call callee args =>
      exact .call (fun _ => id) fun frame =>
        ih le' (watched.map (frame.inlining :: ·)) (.only frame.passed) frame.body
    | null | param p | other text => exact .of_none _

end Resolver

namespace CompilationUnit

/-- The finding on the statement at a place, with its condition valued by levels. -/
def checkAt? (u : CompilationUnit) (levels : Nat) (p : Place) : Option Finding :=
  if p.node.kind = .ifStatement then
    (p.child? .condition).bind fun condition =>
      (u.resolver.check u.name levels (some []) .all (u.conditionAt condition)).map (u.finding p.node)
  else none

theorem findingAt?_eq_checkAt? (u : CompilationUnit) (limit : Int) :
    u.findingAt? limit = u.checkAt? limit.toNat := by
  have same (e : Condition) : (e.valuation u.resolver u.name limit).nullCheck? =
      u.resolver.check u.name limit.toNat (some []) .all e :=
    e.nullCheck?_eq_check u.resolver u.name limit
  funext p
  simp only [findingAt?, checkAt?, valuation, same]

theorem findings_eq_checkAt? (u : CompilationUnit) (limit : Int) :
    u.findings limit = u.places.filterMap (u.checkAt? limit.toNat) := by
  rw [findings_eq_filterMap, findingAt?_eq_checkAt?]

end CompilationUnit

end NullGuard
