import Mathlib.Data.Fintype.EquivFin
import Mathlib.Logic.Relation
import Mathlib.Order.WellFounded
import NullGuard.Proofs.Substitution

/-!
Inlining a helper is substitution. The valuation never builds the inlined expression. `Inlined`
relates an expression to the one in which calls of helpers are replaced by their bodies with the
arguments put in, again and again, and all other calls by something unknown. Where no helper calls
itself, directly or through others, there is exactly one such expression, and from some bound on it is
valued as the expression with the calls, parameter lists included.
-/
namespace NullGuard

variable {ι κ : Type} [DecidableEq ι]

/-- The caller's parameter at the position of a formal, if the argument there is one. -/
def Expr.argument? (formals : List ι) (args : List (Expr ι κ)) (formal : ι) : Option ι :=
  ((formals.zip args).lookup formal).bind Expr.param?

/-- The body of a helper with the arguments of a call put in. -/
def Expr.instantiate (body : Expr ι κ) (formals : List ι) (args : List (Expr ι κ)) : Expr ι κ :=
  body.subst (Expr.argument? formals args)

theorem formal_mem_of_passThrough {eligible : Eligibility ι} {args : List (Expr ι κ)}
    {formals : List ι} {pair : ι × ι} (member : pair ∈ eligible.passThrough args formals) :
    pair.2 ∈ formals := by
  obtain ⟨zipped, among, hit⟩ := List.mem_filterMap.1 member
  obtain ⟨p, -, rfl⟩ := Option.map_eq_some_iff.1 hit
  exact (List.of_mem_zip among).2

theorem handedBy_eq_none {eligible : Eligibility ι} {args : List (Expr ι κ)} {formals : List ι}
    {formal : ι} (absent : formal ∉ formals) :
    handedBy (eligible.passThrough args formals) formal = none := by
  rw [handedBy, Option.map_eq_none_iff, List.find?_eq_none]
  intro pair member same
  exact absent (of_decide_eq_true same ▸ formal_mem_of_passThrough member)

theorem handedBy_passThrough_cons (eligible : Eligibility ι) (arg : Expr ι κ)
    (args : List (Expr ι κ)) (x : ι) (formals : List ι) (formal : ι) :
    handedBy (eligible.passThrough (arg :: args) (x :: formals)) formal =
      if x = formal then
        (eligible.param? arg).or (handedBy (eligible.passThrough args formals) formal)
      else handedBy (eligible.passThrough args formals) formal := by
  cases named : eligible.param? arg with
  | none => simp [handedBy, Eligibility.passThrough, named]
  | some p =>
    by_cases same : x = formal
    · simp [handedBy, Eligibility.passThrough, named, same]
    · simp [handedBy, Eligibility.passThrough, named, same]

/-- With distinct formals, the first pair for a formal is the one for its position. -/
theorem handedBy_passThrough {formals : List ι} (distinct : formals.Nodup) (args : List (Expr ι κ))
    (formal : ι) :
    handedBy (Eligibility.all.passThrough args formals) formal =
      Expr.argument? formals args formal := by
  induction formals generalizing args with
  | nil => simp [handedBy, Eligibility.passThrough, Expr.argument?]
  | cons x formals ih =>
    cases args with
    | nil => simp [handedBy, Eligibility.passThrough, Expr.argument?]
    | cons arg args =>
      obtain ⟨fresh, distinct⟩ := List.nodup_cons.1 distinct
      rw [handedBy_passThrough_cons]
      by_cases same : x = formal
      · subst same
        rw [if_pos rfl, handedBy_eq_none fresh, Option.or_none, Eligibility.param?_all]
        simp [Expr.argument?]
      · have other : (formal == x) = false := by simpa using Ne.symm same
        rw [if_neg same, ih distinct args]
        simp [Expr.argument?, List.lookup_cons, other]

variable [DecidableEq κ]

namespace Resolver

omit [DecidableEq κ] in
/-- Inside a helper, the formals that may be relied on are those that stand for a parameter. -/
theorem maps_passed {resolver : Resolver ι κ} {unit : Option String} {eligible : Eligibility ι}
    {callee : κ} {args : List (Expr ι κ)} {frame : Frame ι κ}
    (found : resolver.frame? unit eligible callee args = some frame) :
    (Eligibility.only frame.passed).Maps (handedBy frame.pairs) := by
  intro formal
  have handed : (handedBy frame.pairs formal).isSome = true ↔ formal ∈ frame.pairs.map (·.2) := by
    rw [handedBy, Option.isSome_map, List.find?_isSome, List.mem_map]
    simp
  have declared : formal ∈ frame.pairs.map (·.2) → formal ∈ frame.helper.formals := by
    intro member
    obtain ⟨pair, among, rfl⟩ := List.mem_map.1 member
    rw [pairs_of_frame? found] at among
    exact formal_mem_of_passThrough among
  rw [Bool.eq_iff_iff, handed, Eligibility.admits, decide_eq_true_iff, Frame.passed,
    List.mem_filter, decide_eq_true_iff]
  exact ⟨And.right, fun member => ⟨declared member, member⟩⟩

/-- An unwatched call is the body of its helper with the parameters handed over put in. -/
theorem check_call {resolver : Resolver ι κ} {unit : Option String} {callee : κ}
    {args : List (Expr ι κ)} {frame : Frame ι κ}
    (found : resolver.frame? unit .all callee args = some frame) (n : Nat) :
    resolver.check unit (n + 1) none .all (.call callee args) =
      resolver.check unit n none .all (frame.body.subst (handedBy frame.pairs)) := by
  rw [resolver.check_subst unit n none (maps_passed found), check, found]
  rfl

end Resolver

/-- An expression with its calls inlined. A call in Boolean position of a helper of the unit that has
a body becomes that body with the arguments put in, which may hold further calls; every other call
becomes something unknown. -/
inductive Inlined (table : HelperTable ι κ) (unit : Option String) : Expr ι κ → Expr ι κ → Prop
  | paren {e e' : Expr ι κ} (inner : Inlined table unit e e') :
      Inlined table unit (.paren e) (.paren e')
  | not {e e' : Expr ι κ} (operand : Inlined table unit e e') :
      Inlined table unit (.not e) (.not e')
  | connect (op : Connective) {l l' r r' : Expr ι κ} (left : Inlined table unit l l')
      (right : Inlined table unit r r') :
      Inlined table unit (.connect op l r) (.connect op l' r')
  | compare (l r : Expr ι κ) (negated : Bool) :
      Inlined table unit (.compare l r negated) (.compare l.withoutCalls r.withoutCalls negated)
  | null : Inlined table unit .null .null
  | param (p : ι) : Inlined table unit (.param p) (.param p)
  | other (text : String) : Inlined table unit (.other text) (.other text)
  | call {callee : κ} {args : List (Expr ι κ)} {helper : Helper ι κ} {body e' : Expr ι κ}
      (found : table.find? callee = some helper) (inUnit : helper.unit = unit)
      (has : helper.body = some body)
      (result : Inlined table unit (body.instantiate helper.formals args) e') :
      Inlined table unit (.call callee args) e'
  | unknownCall {callee : κ} {args : List (Expr ι κ)}
      (none : ∀ helper, table.find? callee = some helper → helper.unit = unit →
        helper.body = none) :
      Inlined table unit (.call callee args) (.other "")

namespace HelperTable

/-- The expression calls a helper that can be inlined, in Boolean position. -/
def Called (table : HelperTable ι κ) (unit : Option String) (e : Expr ι κ) (helper : Helper ι κ) :
    Prop :=
  helper.unit = unit ∧ helper.isInlineable = true ∧
    ∃ callee ∈ e.booleanCallees, table.find? callee = some helper

omit [DecidableEq ι] in
theorem Called.left {table : HelperTable ι κ} {unit : Option String} {op : Connective}
    {l r : Expr ι κ} {helper : Helper ι κ} (called : table.Called unit l helper) :
    table.Called unit (.connect op l r) helper := by
  obtain ⟨inUnit, has, callee, member, found⟩ := called
  exact ⟨inUnit, has, callee, List.mem_append_left _ member, found⟩

omit [DecidableEq ι] in
theorem Called.right {table : HelperTable ι κ} {unit : Option String} {op : Connective}
    {l r : Expr ι κ} {helper : Helper ι κ} (called : table.Called unit r helper) :
    table.Called unit (.connect op l r) helper := by
  obtain ⟨inUnit, has, callee, member, found⟩ := called
  exact ⟨inUnit, has, callee, List.mem_append_right _ member, found⟩

/-- The body of the first helper calls the second one. -/
def Calls (table : HelperTable ι κ) (unit : Option String) (caller helper : Helper ι κ) : Prop :=
  ∃ body, caller.body = some body ∧ table.Called unit body helper

/-- No helper calls itself, directly or through others. -/
def Acyclic (table : HelperTable ι κ) (unit : Option String) : Prop :=
  ∀ helper, ¬ Relation.TransGen (table.Calls unit) helper helper

variable {table : HelperTable ι κ} {unit : Option String}

omit [DecidableEq ι] in
theorem mem_of_calls {caller helper : Helper ι κ} (calls : table.Calls unit caller helper) :
    helper ∈ table.entries.map (·.2) := by
  obtain ⟨body, -, -, -, callee, -, hit⟩ := calls
  obtain ⟨entry, found, rfl⟩ := Option.map_eq_some_iff.1 hit
  exact List.mem_map_of_mem (List.mem_of_find?_eq_some found)

/-- Helpers are finitely many, so chains of calls end where there is no cycle. -/
theorem Acyclic.wellFounded (acyclic : table.Acyclic unit) :
    WellFounded fun helper caller => table.Calls unit caller helper := by
  let listed := { helper : Helper ι κ // helper ∈ table.entries.map (·.2) }
  have finite : Finite listed := (inferInstance : Finite { h // h ∈ table.entries.map (·.2) })
  let below : listed → listed → Prop := fun helper caller =>
    Relation.TransGen (table.Calls unit) caller.1 helper.1
  have trans : IsTrans listed below := ⟨fun _ _ _ first second => second.trans first⟩
  have irrefl : Std.Irrefl below := ⟨fun helper => acyclic helper.1⟩
  have ends : WellFounded below := Finite.wellFounded_of_trans_of_irrefl below
  -- A helper outside the table may call, but only helpers of the table are called.
  have reach : ∀ helper : listed,
      Acc (fun helper caller => table.Calls unit caller helper) helper.1 := by
    intro helper
    induction helper using ends.induction with
    | _ caller ih =>
      exact ⟨_, fun callee calls => ih ⟨callee, mem_of_calls calls⟩ (.single calls)⟩
  exact ⟨fun caller => ⟨_, fun callee calls => reach ⟨callee, mem_of_calls calls⟩⟩⟩

omit [DecidableEq ι] in
/-- A table has no cycles if its helpers call only helpers of a lower rank. -/
theorem acyclic_of_rank (rank : Helper ι κ → Nat)
    (falls : ∀ caller ∈ table.entries.map (·.2), ∀ helper, table.Calls unit caller helper →
      rank helper < rank caller) : table.Acyclic unit := by
  intro start cycle
  obtain ⟨last, -, calls⟩ := Relation.TransGen.tail'_iff.1 cycle
  have lower : ∀ helper, Relation.TransGen (table.Calls unit) start helper →
      helper ∈ table.entries.map (·.2) ∧ rank helper < rank start := by
    intro helper chain
    induction chain with
    | single first => exact ⟨mem_of_calls first, falls start (mem_of_calls calls) _ first⟩
    | tail _ next ih => exact ⟨mem_of_calls next, (falls _ ih.1 _ next).trans ih.2⟩
  exact Nat.lt_irrefl _ (lower start cycle).2

end HelperTable

namespace Inlined

variable {table : HelperTable ι κ} {unit : Option String}

/-- An expression can be inlined if the calls in Boolean position can. -/
theorem exists_of_calls (e : Expr ι κ)
    (calls : ∀ callee ∈ e.booleanCallees, ∀ args, ∃ e', Inlined table unit (.call callee args) e') :
    ∃ e', Inlined table unit e e' := by
  fun_induction Expr.booleanCallees e with
  | case1 inner ih =>
    obtain ⟨e', inlined⟩ := ih calls
    exact ⟨_, .paren inlined⟩
  | case2 operand ih =>
    obtain ⟨e', inlined⟩ := ih calls
    exact ⟨_, .not inlined⟩
  | case3 op left right ihLeft ihRight =>
    obtain ⟨l, left⟩ := ihLeft fun callee member => calls callee (List.mem_append_left _ member)
    obtain ⟨r, right⟩ := ihRight fun callee member => calls callee (List.mem_append_right _ member)
    exact ⟨_, .connect op left right⟩
  | case4 callee args => exact calls callee (List.mem_singleton_self callee) args
  | case5 e isParen isNot isConnect isCall =>
    cases e with
    | compare left right negated => exact ⟨_, .compare left right negated⟩
    | null => exact ⟨_, .null⟩
    | param p => exact ⟨_, .param p⟩
    | other text => exact ⟨_, .other text⟩
    | paren inner => exact absurd rfl (isParen inner)
    | not operand => exact absurd rfl (isNot operand)
    | connect op left right => exact absurd rfl (isConnect op left right)
    | call callee args => exact absurd rfl (isCall callee args)

/-- A call can be inlined if the body of its helper can, should it have one. -/
theorem exists_call {callee : κ} {args : List (Expr ι κ)}
    (bodies : ∀ helper body, table.find? callee = some helper → helper.unit = unit →
      helper.body = some body → ∃ e', Inlined table unit (body.instantiate helper.formals args) e') :
    ∃ e', Inlined table unit (.call callee args) e' := by
  by_cases inlineable : ∃ helper body,
      table.find? callee = some helper ∧ helper.unit = unit ∧ helper.body = some body
  · obtain ⟨helper, body, found, inUnit, has⟩ := inlineable
    obtain ⟨e', inlined⟩ := bodies helper body found inUnit has
    exact ⟨e', .call found inUnit has inlined⟩
  · refine ⟨_, .unknownCall fun helper found inUnit => ?_⟩
    refine Option.eq_none_iff_forall_ne_some.2 fun body has => ?_
    exact inlineable ⟨helper, body, found, inUnit, has⟩

/-- Without cycles the body of every helper can be inlined, by induction along the chains of calls. -/
theorem exists_body (acyclic : table.Acyclic unit) (helper : Helper ι κ) (body : Expr ι κ)
    (has : helper.body = some body) (args : List (Expr ι κ)) :
    ∃ e', Inlined table unit (body.instantiate helper.formals args) e' := by
  induction helper using acyclic.wellFounded.induction generalizing body args with
  | _ helper ih =>
  refine exists_of_calls _ fun callee member args' => exists_call ?_
  intro helper' body' found inUnit has'
  rw [Expr.instantiate, Expr.booleanCallees_subst] at member
  have inlineable : helper'.isInlineable = true := by rw [Helper.isInlineable, has']; rfl
  exact ih helper' ⟨body, has, inUnit, inlineable, callee, member, found⟩ body' has' args'

theorem exists_of_acyclic (acyclic : table.Acyclic unit) (e : Expr ι κ) :
    ∃ e', Inlined table unit e e' :=
  exists_of_calls e fun _ _ args => exists_call fun helper body _ _ has =>
    exists_body acyclic helper body has args

theorem unique {e e' e'' : Expr ι κ} (first : Inlined table unit e e')
    (second : Inlined table unit e e'') : e'' = e' := by
  induction first generalizing e'' with
  | paren inner ih =>
    cases second with
    | paren inner' => rw [ih inner']
  | not operand ih =>
    cases second with
    | not operand' => rw [ih operand']
  | connect op left right ihLeft ihRight =>
    cases second with
    | connect _ left' right' => rw [ihLeft left', ihRight right']
  | compare l r negated => cases second; rfl
  | null => cases second; rfl
  | param p => cases second; rfl
  | other text => cases second; rfl
  | call found inUnit has result ih =>
    cases second with
    | call found' inUnit' has' result' =>
      cases found.symm.trans found'
      cases has.symm.trans has'
      exact ih result'
    | unknownCall none =>
      rw [none _ found inUnit] at has
      cases has
  | unknownCall none =>
    cases second with
    | call found inUnit has result =>
      rw [none _ found inUnit] at has
      cases has
    | unknownCall => rfl

end Inlined

namespace Resolver

variable {table : HelperTable ι κ} {unit : Option String}

theorem frame?_eq_none {callee : κ} {args : List (Expr ι κ)} {eligible : Eligibility ι}
    (none : ∀ helper, table.find? callee = some helper → helper.unit = unit → helper.body = none) :
    table.resolver.frame? unit eligible callee args = .none := by
  refine Option.eq_none_iff_forall_ne_some.2 fun frame found => ?_
  obtain ⟨resolved, inUnit, has⟩ := lookup_of_frame? found
  rw [none frame.helper (HelperTable.find?_of_lookup resolved) inUnit] at has
  cases has

theorem called_of_frame? {callee : κ} {args : List (Expr ι κ)} {eligible : Eligibility ι}
    {frame : Frame ι κ} (found : table.resolver.frame? unit eligible callee args = some frame) :
    table.Called unit (.call callee args) frame.helper := by
  obtain ⟨resolved, inUnit, has⟩ := lookup_of_frame? found
  have inlineable : frame.helper.isInlineable = true := by rw [Helper.isInlineable, has]; rfl
  exact ⟨inUnit, inlineable, callee, List.mem_singleton_self callee,
    HelperTable.find?_of_lookup resolved⟩

/-- Without cycles there is nothing to watch: from a helper that the expression calls no inlining
under way can be reached, and this holds again inside the helper. -/
theorem check_watched_of_acyclic (acyclic : table.Acyclic unit) (n : Nat)
    (active : List (Inlining ι κ)) (eligible : Eligibility ι) (e : Expr ι κ)
    (apart : ∀ helper, table.Called unit e helper → ∀ inlining ∈ active,
      ¬ Relation.ReflTransGen (table.Calls unit) helper inlining.1) :
    table.resolver.check unit n (some active) eligible e =
      table.resolver.check unit n none eligible e := by
  induction n generalizing active eligible e with
  | zero => rfl
  | succ n ih =>
    cases e with
    | paren inner => exact ih active eligible inner apart
    | not operand => rw [check, check, ih active eligible operand apart]
    | connect op left right =>
      have l := ih active eligible left fun helper called => apart helper called.left
      have r := ih active eligible right fun helper called => apart helper called.right
      rw [check, check, l, r]
    | compare left right negated => rfl
    | call callee args =>
      simp only [check]
      cases found : table.resolver.frame? unit eligible callee args with
      | none => rfl
      | some frame =>
        have free := apart frame.helper (called_of_frame? found)
        have fresh : frame.inlining ∉ active := fun busy => free frame.inlining busy .refl
        have inner := ih (frame.inlining :: active) (.only frame.passed) frame.body ?_
        · simp [fresh, inner]
        · intro helper called inlining among reaches
          have calls : table.Calls unit frame.helper helper :=
            ⟨frame.body, (lookup_of_frame? found).2.2, called⟩
          -- An inlining under way that is reached from inside would close a cycle.
          rcases List.mem_cons.1 among with rfl | among
          · exact acyclic frame.helper (.head' calls reaches)
          · exact free inlining among (.head calls reaches)
    | null | param p | other text => rfl

end Resolver

/-- The unwatched check of an expression from some number of levels on. -/
def Settles (resolver : Resolver ι κ) (unit : Option String) (e : Expr ι κ)
    (check : Option (NullCheck ι)) : Prop :=
  ∃ levels, ∀ n, levels ≤ n → resolver.check unit n none .all e = check

namespace Settles

variable {resolver : Resolver ι κ} {unit : Option String} {e left right : Expr ι κ}
  {check leftCheck rightCheck : Option (NullCheck ι)}

/-- One level may be left aside. -/
theorem of_succ (levels : Nat)
    (same : ∀ n, levels ≤ n → resolver.check unit (n + 1) none .all e = check) :
    Settles resolver unit e check := by
  refine ⟨levels + 1, fun n le => ?_⟩
  obtain ⟨n, rfl⟩ : ∃ k, n = k + 1 := ⟨n - 1, by omega⟩
  exact same n (by omega)

theorem paren (inner : Settles resolver unit e check) : Settles resolver unit (.paren e) check := by
  obtain ⟨levels, same⟩ := inner
  exact of_succ levels same

theorem not (operand : Settles resolver unit e check) :
    Settles resolver unit (.not e) (check.map .negate) := by
  obtain ⟨levels, same⟩ := operand
  refine of_succ levels fun n le => ?_
  rw [Resolver.check, same n le]

theorem connect (op : Connective) (l : Settles resolver unit left leftCheck)
    (r : Settles resolver unit right rightCheck) :
    Settles resolver unit (.connect op left right) (op.check leftCheck rightCheck) := by
  obtain ⟨levelsLeft, sameLeft⟩ := l
  obtain ⟨levelsRight, sameRight⟩ := r
  refine of_succ (max levelsLeft levelsRight) fun n le => ?_
  rw [Resolver.check, sameLeft n (le_trans (le_max_left _ _) le),
    sameRight n (le_trans (le_max_right _ _) le)]

theorem compare (left right : Expr ι κ) (negated : Bool) :
    Settles resolver unit (.compare left right negated)
      ((Eligibility.all.compared? left right).map fun p => ⟨negated, [p]⟩) :=
  of_succ 0 fun _ _ => rfl

/-- A call settles with the body of its helper, the arguments put in. -/
theorem call {table : HelperTable ι κ} (distinct : table.DistinctFormals) {callee : κ}
    {args : List (Expr ι κ)} {helper : Helper ι κ} {body : Expr ι κ}
    (found : table.find? callee = some helper) (inUnit : helper.unit = unit)
    (has : helper.body = some body)
    (result : Settles table.resolver unit (body.instantiate helper.formals args) check) :
    Settles table.resolver unit (.call callee args) check := by
  obtain ⟨levels, same⟩ := result
  refine of_succ levels fun n le => ?_
  have resolved : table.lookup callee = .found helper := by
    rw [HelperTable.lookup, found]
  have frame : table.resolver.frame? unit .all callee args = _ :=
    Resolver.frame?_of_lookup resolved inUnit has .all
  have handed : handedBy (Eligibility.all.passThrough args helper.formals) =
      Expr.argument? helper.formals args :=
    funext (handedBy_passThrough (distinct callee helper found) args)
  rw [Resolver.check_call frame, handed]
  exact same n le

end Settles

namespace Inlined

variable {table : HelperTable ι κ} {unit : Option String}

/-- An expression and its inlined form settle with the same check. -/
theorem settles (distinct : table.DistinctFormals) {e e' : Expr ι κ}
    (inlined : Inlined table unit e e') :
    ∃ check, Settles table.resolver unit e check ∧
      Settles (⟨[]⟩ : HelperTable ι κ).resolver unit e' check := by
  induction inlined with
  | paren inner ih =>
    obtain ⟨check, here, there⟩ := ih
    exact ⟨check, here.paren, there.paren⟩
  | not operand ih =>
    obtain ⟨check, here, there⟩ := ih
    exact ⟨_, here.not, there.not⟩
  | connect op left right ihLeft ihRight =>
    obtain ⟨leftCheck, hereLeft, thereLeft⟩ := ihLeft
    obtain ⟨rightCheck, hereRight, thereRight⟩ := ihRight
    exact ⟨_, .connect op hereLeft hereRight, .connect op thereLeft thereRight⟩
  | compare l r negated =>
    have same : Eligibility.all.compared? l.withoutCalls r.withoutCalls =
        Eligibility.all.compared? l r := by
      simp only [Eligibility.compared?, Eligibility.param?, Expr.isNull_withoutCalls,
        Expr.param?_withoutCalls]
    exact ⟨_, .compare l r negated, same ▸ .compare l.withoutCalls r.withoutCalls negated⟩
  | null | param p | other text =>
    exact ⟨none, .of_succ 0 fun _ _ => rfl, .of_succ 0 fun _ _ => rfl⟩
  | call found inUnit has result ih =>
    obtain ⟨check, here, there⟩ := ih
    exact ⟨check, .call distinct found inUnit has here, there⟩
  | unknownCall bodiless =>
    refine ⟨none, .of_succ 0 fun n _ => ?_, .of_succ 0 fun _ _ => rfl⟩
    rw [Resolver.check, Resolver.frame?_eq_none bodiless]
    exact ite_self _

end Inlined

omit [DecidableEq ι] in
theorem HelperTable.acyclic_nil (unit : Option String) :
    (⟨[]⟩ : HelperTable ι κ).Acyclic unit := by
  intro helper cycle
  obtain ⟨_, -, body, -, -, -, callee, -, found⟩ := Relation.TransGen.tail'_iff.1 cycle
  cases found

/-- Where no helper calls itself, a condition has exactly one inlined form, and from some bound on
its null check without any helpers is the null check of the condition. -/
theorem nullCheck?_eq_inlined (table : HelperTable ι κ) (distinct : table.DistinctFormals)
    (unit : Option String) (acyclic : table.Acyclic unit) (e : Expr ι κ) :
    ∃ e', Inlined table unit e e' ∧ (∀ other, Inlined table unit e other → other = e') ∧
      ∃ bound : Int, ∀ limit, bound ≤ limit →
        e.nullCheck? table.resolver unit limit =
          e'.nullCheck? (⟨[]⟩ : HelperTable ι κ).resolver unit limit := by
  obtain ⟨e', inlined⟩ := Inlined.exists_of_acyclic acyclic e
  obtain ⟨check, ⟨levels, here⟩, ⟨levels', there⟩⟩ := inlined.settles distinct
  refine ⟨e', inlined, fun other second => inlined.unique second, max levels levels', ?_⟩
  intro limit le
  have enough : levels ≤ limit.toNat ∧ levels' ≤ limit.toNat := by omega
  rw [Expr.nullCheck?_eq_check, Expr.nullCheck?_eq_check,
    Resolver.check_watched_of_acyclic acyclic _ [] .all e (by simp),
    Resolver.check_watched_of_acyclic (HelperTable.acyclic_nil unit) _ [] .all e' (by simp),
    here _ enough.1, there _ enough.2]

/-- A helper that hands its parameters to another one, the second first. -/
def chainedHelpers : HelperTable String String where
  entries :=
    [("either", { name := "either", formals := ["x", "y"], body := some (.connect .or
        (.call "isNull" [.paren (.param "y")]) (.call "isNull" [.param "x"])) }),
     ("isNull", { name := "isNull", formals := ["o"], body := some (.compare (.param "o") .null
        false) })]

theorem chainedHelpers_acyclic : chainedHelpers.Acyclic none := by
  refine HelperTable.acyclic_of_rank (fun helper => helper.formals.length) ?_
  intro caller member helper calls
  obtain ⟨body, has, -, -, callee, among, found⟩ := calls
  simp [chainedHelpers] at member
  rcases member with rfl | rfl
  · cases has
    simp [Expr.booleanCallees] at among
    subst among
    cases found
    decide
  · cases has
    cases among

/-- The parameters are listed in the order of the inlined form, not in that of the arguments. -/
theorem nullCheck?_eq_inlined_chainedHelpers :
    let e : Expr String String := .call "either" [.param "p", .param "q"]
    let e' : Expr String String :=
      .connect .or (.compare (.param "q") .null false) (.compare (.param "p") .null false)
    chainedHelpers.DistinctFormals ∧ chainedHelpers.Acyclic none ∧
      e.nullCheck? chainedHelpers.resolver none 30 = some ⟨false, ["q", "p"]⟩ ∧
      Inlined chainedHelpers none e e' ∧
      ∃ bound : Int, ∀ limit, bound ≤ limit →
        e.nullCheck? chainedHelpers.resolver none limit =
          e'.nullCheck? (⟨[]⟩ : HelperTable String String).resolver none limit := by
  intro e e'
  have distinct : chainedHelpers.DistinctFormals :=
    HelperTable.distinctFormals_of_entries (by decide)
  have found : e.nullCheck? chainedHelpers.resolver none 30 = some ⟨false, ["q", "p"]⟩ := by
    rw [Expr.nullCheck?_eq_check]
    decide +kernel
  have first : Inlined chainedHelpers none
      (.call "isNull" [.paren (.param "q")]) (.compare (.param "q") .null false) :=
    .call rfl rfl rfl (.compare (.param "q") .null false)
  have second : Inlined chainedHelpers none
      (.call "isNull" [.param "p"]) (.compare (.param "p") .null false) :=
    .call rfl rfl rfl (.compare (.param "p") .null false)
  have inlined : Inlined chainedHelpers none e e' := .call rfl rfl rfl (.connect .or first second)
  obtain ⟨_, -, unique, bound, same⟩ :=
    nullCheck?_eq_inlined chainedHelpers distinct none chainedHelpers_acyclic e
  cases unique e' inlined
  exact ⟨distinct, chainedHelpers_acyclic, found, inlined, bound, same⟩

end NullGuard
