import Mathlib.Data.List.Forall2
import NullGuard.Proofs.Recursion
import NullGuard.Proofs.Substitution

/-!
More information keeps what is known. An expression is refined by putting anything in the place of
its unknown parts, and a table grows by helpers for callees that had none. A call may then hand over
more parameters than before, so that a helper is inlined for more of its formals, and the test against
inlining a helper inside itself may cut off what it let pass before. As that test changes no value,
it is left aside: unwatched, the valuation is monotone in the expression, in the parameters that may
be relied on and in the helpers.
-/
namespace NullGuard

variable {ι κ : Type}

/-- The second expression is the first one with anything in the place of some unknown parts. -/
inductive Expr.Refines : Expr ι κ → Expr ι κ → Prop
  | other (text : String) (e : Expr ι κ) : Refines (.other text) e
  | paren {e e' : Expr ι κ} (inner : Refines e e') : Refines (.paren e) (.paren e')
  | not {e e' : Expr ι κ} (operand : Refines e e') : Refines (.not e) (.not e')
  | connect (op : Connective) {l l' r r' : Expr ι κ} (left : Refines l l') (right : Refines r r') :
      Refines (.connect op l r) (.connect op l' r')
  | compare {l l' r r' : Expr ι κ} (left : Refines l l') (right : Refines r r') (negated : Bool) :
      Refines (.compare l r negated) (.compare l' r' negated)
  | null : Refines .null .null
  | param (p : ι) : Refines (.param p) (.param p)
  | call (callee : κ) {args args' : List (Expr ι κ)} (each : List.Forall₂ Refines args args') :
      Refines (.call callee args) (.call callee args')

namespace Expr.Refines

mutual

theorem refl : (e : Expr ι κ) → Refines e e
  | .paren inner => .paren (refl inner)
  | .not operand => .not (refl operand)
  | .connect op left right => .connect op (refl left) (refl right)
  | .compare left right negated => .compare (refl left) (refl right) negated
  | .null => .null
  | .param p => .param p
  | .call callee args => .call callee (refl_args args)
  | .other text => .other text (.other text)

theorem refl_args : (args : List (Expr ι κ)) → List.Forall₂ Refines args args
  | [] => .nil
  | arg :: args => .cons (refl arg) (refl_args args)

end

variable {e e' : Expr ι κ}

/-- Parentheses hide nothing but the unknown. -/
theorem bare (refined : e.Refines e') (known : ∀ text, e.bare ≠ .other text) :
    e.bare.Refines e'.bare := by
  induction e using Expr.bare.induct generalizing e' with
  | case1 inner ih =>
    cases refined with
    | paren refined =>
      have below := ih refined known
      exact below
  | case2 e isParen =>
    rw [Expr.bare.eq_2 e isParen] at known ⊢
    cases refined with
    | other text => exact absurd rfl (known text)
    | paren inner => exact absurd rfl (isParen _)
    | not operand => exact .not operand
    | connect op left right => exact .connect op left right
    | compare left right negated => exact .compare left right negated
    | null => exact .null
    | param p => exact .param p
    | call callee each => exact .call callee each

theorem param? (refined : e.Refines e') {p : ι} (named : e.param? = some p) :
    e'.param? = some p := by
  have shape : e.bare = .param p := by
    unfold Expr.param? at named
    split at named
    next q shape => rw [shape, Option.some.inj named]
    · cases named
  have below := refined.bare (by simp [shape])
  rw [shape] at below
  generalize other : e'.bare = bare' at below
  cases below
  rw [Expr.param?, other]

theorem isNull (refined : e.Refines e') (null : e.isNull = true) : e'.isNull = true := by
  have shape : e.bare = .null := by
    unfold Expr.isNull at null
    split at null
    next shape => exact shape
    · cases null
  have below := refined.bare (by simp [shape])
  rw [shape] at below
  generalize other : e'.bare = bare' at below
  cases below
  rw [Expr.isNull, other]

end Expr.Refines

/-- What may be relied on under the first restriction may be relied on under the second. -/
def Eligibility.Within [DecidableEq ι] (less more : Eligibility ι) : Prop :=
  ∀ p, less.admits p = true → more.admits p = true

namespace Eligibility.Within

variable [DecidableEq ι] {less more : Eligibility ι}

theorem param? (within : less.Within more) {e e' : Expr ι κ} (refined : e.Refines e') {p : ι}
    (named : less.param? e = some p) : more.param? e' = some p := by
  obtain ⟨mentioned, admitted⟩ := Option.filter_eq_some_iff.1 named
  exact Option.filter_eq_some_iff.2 ⟨refined.param? mentioned, within p admitted⟩

theorem isSome_compared? (within : less.Within more) {left left' right right' : Expr ι κ}
    (l : left.Refines left') (r : right.Refines right')
    (compared : (less.compared? left right).isSome = true) :
    (more.compared? left' right').isSome = true := by
  obtain ⟨p, compared⟩ := Option.isSome_iff_exists.1 compared
  unfold Eligibility.compared?
  rw [Option.isSome_or, Bool.or_eq_true]
  rcases Option.or_eq_some_iff.1 compared with hit | ⟨-, hit⟩
  · split at hit
    next null =>
      rw [if_pos (r.isNull null), within.param? l hit]
      exact .inl rfl
    · cases hit
  · split at hit
    next null =>
      rw [if_pos (l.isNull null), within.param? r hit]
      exact .inr rfl
    · cases hit

/-- Refined arguments hand over what they handed over before. -/
theorem mem_passThrough (within : less.Within more) {args args' : List (Expr ι κ)}
    (each : List.Forall₂ Expr.Refines args args') {formals : List ι} {pair : ι × ι}
    (member : pair ∈ less.passThrough args formals) : pair ∈ more.passThrough args' formals := by
  induction each generalizing formals with
  | nil => cases member
  | @cons arg arg' args args' refined each ih =>
    cases formals with
    | nil => cases member
    | cons x formals =>
      obtain ⟨zipped, among, hit⟩ := List.mem_filterMap.1 member
      rcases List.mem_cons.1 among with rfl | among
      · obtain ⟨p, named, rfl⟩ := Option.map_eq_some_iff.1 hit
        refine List.mem_filterMap.2 ⟨(arg', x), List.mem_cons_self, ?_⟩
        rw [within.param? refined named, Option.map_some]
      · have later := ih (List.mem_filterMap.2 ⟨zipped, among, hit⟩)
        obtain ⟨zipped', among', hit'⟩ := List.mem_filterMap.1 later
        exact List.mem_filterMap.2 ⟨zipped', List.mem_cons_of_mem _ among', hit'⟩

end Eligibility.Within

/-- A frame of the same helper that hands over no less lets its body rely on no less. -/
theorem Frame.passed_within [DecidableEq ι] {frame wider : Frame ι κ}
    (same : wider.helper = frame.helper) (more : ∀ pair ∈ frame.pairs, pair ∈ wider.pairs) :
    (Eligibility.only frame.passed).Within (.only wider.passed) := by
  intro formal admitted
  obtain ⟨declared, handed⟩ := List.mem_filter.1 (of_decide_eq_true admitted)
  obtain ⟨pair, member, rfl⟩ := List.mem_map.1 (of_decide_eq_true handed)
  refine decide_eq_true (List.mem_filter.2 ⟨same ▸ declared, decide_eq_true ?_⟩)
  exact List.mem_map_of_mem (more pair member)

/-- A call that has a helper in the first table has the same one in the second, which may have
helpers for other callees besides. -/
def HelperTable.Within [DecidableEq κ] (less more : HelperTable ι κ) : Prop :=
  ∀ callee helper, less.find? callee = some helper → more.find? callee = some helper

theorem HelperTable.Within.refl [DecidableEq κ] (table : HelperTable ι κ) : table.Within table :=
  fun _ _ found => found

theorem HelperTable.Within.lookup [DecidableEq κ] {less more : HelperTable ι κ}
    (within : less.Within more) {callee : κ} {helper : Helper ι κ}
    (found : less.lookup callee = .found helper) : more.lookup callee = .found helper := by
  rw [HelperTable.lookup, within callee helper (HelperTable.find?_of_lookup found)]

namespace Resolver

variable [DecidableEq ι] [DecidableEq κ]

/-- A refined call is inlined if the call was, and its body may rely on no less. -/
theorem exists_frame?_of_refines {less more : HelperTable ι κ} (grown : less.Within more)
    {unit : Option String} {eligible eligible' : Eligibility ι} (within : eligible.Within eligible')
    {callee : κ} {args args' : List (Expr ι κ)} (each : List.Forall₂ Expr.Refines args args')
    {frame : Frame ι κ} (found : less.resolver.frame? unit eligible callee args = some frame) :
    ∃ wider, more.resolver.frame? unit eligible' callee args' = some wider ∧
      wider.body = frame.body ∧ (Eligibility.only frame.passed).Within (.only wider.passed) := by
  obtain ⟨resolved, inUnit, has⟩ := lookup_of_frame? found
  have resolved' : more.resolver.lookup callee args'.length = .found frame.helper :=
    grown.lookup resolved
  refine ⟨_, frame?_of_lookup resolved' inUnit has eligible', rfl, Frame.passed_within rfl ?_⟩
  intro pair member
  rw [pairs_of_frame? found] at member
  exact within.mem_passThrough each member

/-- Unwatched, a call has the value of the body of its helper. That nothing is looked at where nothing
may be relied on only saves work: the body would be unknown. -/
theorem value_check_call {resolver : Resolver ι κ} {unit : Option String} {eligible : Eligibility ι}
    {callee : κ} {args : List (Expr ι κ)} {frame : Frame ι κ}
    (found : resolver.frame? unit eligible callee args = some frame) (n : Nat) :
    (resolver.check unit (n + 1) none eligible (.call callee args)).map (·.value) =
      (resolver.check unit n none (.only frame.passed) frame.body).map (·.value) := by
  rw [check, found]
  cases empty : eligible.isEmpty with
  | false => exact NullCheck.value_rename _ _
  | true =>
    rw [passed_of_isEmpty found empty, check_of_isEmpty _ _ _ _ rfl]
    rfl

/-- Unwatched, a refined expression keeps its value where more may be relied on and more helpers are
known. -/
theorem value_check_of_refines {less more : HelperTable ι κ} (grown : less.Within more)
    (unit : Option String) (n : Nat) {eligible eligible' : Eligibility ι}
    (within : eligible.Within eligible') {e e' : Expr ι κ} (refined : e.Refines e') {v : Bool}
    (known : (less.resolver.check unit n none eligible e).map (·.value) = some v) :
    (more.resolver.check unit n none eligible' e').map (·.value) = some v := by
  induction n generalizing eligible eligible' e e' v with
  | zero => cases known
  | succ n ih =>
    cases refined with
    | other text => cases known
    | paren inner => exact ih within inner known
    | not operand =>
      rw [check, NullCheck.value_negate] at known ⊢
      obtain ⟨w, hit, rfl⟩ := Option.map_eq_some_iff.1 known
      rw [ih within operand hit, Option.map_some]
    | connect op left right =>
      rw [check, Connective.value_check] at known ⊢
      exact op.combine_mono (fun _ => ih within left) (fun _ => ih within right) known
    | compare left right negated =>
      rw [check, Option.map_map] at known ⊢
      obtain ⟨p, compared, same⟩ := Option.map_eq_some_iff.1 known
      have compared' := within.isSome_compared? left right (by rw [compared, Option.isSome_some])
      obtain ⟨q, compared'⟩ := Option.isSome_iff_exists.1 compared'
      rw [compared', Option.map_some]
      exact congrArg some same
    | null => cases known
    | param p => cases known
    | call callee each =>
      obtain ⟨check, hit, -⟩ := Option.map_eq_some_iff.1 known
      obtain ⟨frame, -, found, -, -⟩ := check_call_eq_some hit
      obtain ⟨wider, found', body, passed⟩ := exists_frame?_of_refines grown within each found
      rw [value_check_call found] at known
      rw [value_check_call found', body]
      exact ih passed (.refl frame.body) known

end Resolver

variable [DecidableEq ι] [DecidableEq κ]

/-- A known value stays when unknown parts of the condition are filled in and when helpers are added
for callees that had none. -/
theorem nullCheck?_value_of_refines (less more : HelperTable ι κ) (grown : less.Within more)
    (unit : Option String) (limit : Int) (e e' : Expr ι κ) (refined : e.Refines e') (v : Bool)
    (known : (e.nullCheck? less.resolver unit limit).map (·.value) = some v) :
    (e'.nullCheck? more.resolver unit limit).map (·.value) = some v := by
  rw [Expr.nullCheck?_eq_check, Resolver.value_check_watched] at known ⊢
  exact Resolver.value_check_of_refines grown unit limit.toNat (fun _ => id) refined known

/-- A helper that calls itself with its first argument twice, and a helper that is missing. -/
def doublingHelper : HelperTable String String where
  entries :=
    [("f", { name := "f", formals := ["x", "y"], body := some (.connect .or
        (.connect .or (.call "f" [.param "x", .param "x"]) (.call "g" [.param "y"]))
        (.compare (.param "x") .null true)) })]

/-- The table with the missing helper. -/
def doublingHelpers : HelperTable String String :=
  doublingHelper.insert "g"
    { name := "g", formals := ["z"], body := some (.compare (.param "z") .null true) }

/-- With its second argument known, the helper is inlined for both formals at once and not once more
inside itself: the value stays, with less to rest on. -/
theorem nullCheck?_value_of_refines_doublingHelpers :
    let e : Expr String String := .call "f" [.param "p", .other "q()"]
    let e' : Expr String String := .call "f" [.param "p", .param "q"]
    doublingHelper.Within doublingHelpers ∧ e.Refines e' ∧
      e.nullCheck? doublingHelper.resolver none 30 = some ⟨true, ["p", "p"]⟩ ∧
      e'.nullCheck? doublingHelper.resolver none 30 = some ⟨true, ["p"]⟩ ∧
      (e'.nullCheck? doublingHelper.resolver none 30).map (·.value) = some true ∧
      (e.nullCheck? doublingHelpers.resolver none 30).map (·.value) = some true ∧
      (e'.nullCheck? doublingHelpers.resolver none 30).map (·.value) = some true := by
  intro e e'
  have grown : doublingHelper.Within doublingHelpers := by
    intro callee helper found
    rw [doublingHelpers, HelperTable.find?_insert, if_neg, found]
    rintro rfl
    cases found
  have refined : e.Refines e' :=
    .call "f" (.cons (.param "p") (.cons (.other "q()" (.param "q")) .nil))
  have found : e.nullCheck? doublingHelper.resolver none 30 = some ⟨true, ["p", "p"]⟩ := by
    rw [Expr.nullCheck?_eq_check]
    decide +kernel
  have found' : e'.nullCheck? doublingHelper.resolver none 30 = some ⟨true, ["p"]⟩ := by
    rw [Expr.nullCheck?_eq_check]
    decide +kernel
  have known : (e.nullCheck? doublingHelper.resolver none 30).map (·.value) = some true := by
    rw [found, Option.map_some]
  exact ⟨grown, refined, found, found',
    nullCheck?_value_of_refines _ _ (.refl doublingHelper) none 30 e e' refined true known,
    nullCheck?_value_of_refines _ _ grown none 30 e e (.refl e) true known,
    nullCheck?_value_of_refines _ _ grown none 30 e e' refined true known⟩

end NullGuard
