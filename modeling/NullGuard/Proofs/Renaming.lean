import NullGuard.Proofs.Levels
import NullGuard.Proofs.Lockstep

/-!
Parameters are only told apart. A valuation asks of two parameters whether they are the same and
nothing else, so parameters may be exchanged for others one to one: a relation that pairs each
parameter with at most one other, in both directions, is carried from the condition and the helpers
to what the check rests on.
-/
namespace NullGuard

open Relator

variable {ι ι' κ : Type} {R : ι → ι' → Prop}

/-- The second expression is the first one with paired parameters in the place of its own. -/
inductive Expr.Renames (R : ι → ι' → Prop) : Expr ι κ → Expr ι' κ → Prop
  | paren {e : Expr ι κ} {e' : Expr ι' κ} (inner : Renames R e e') : Renames R (.paren e) (.paren e')
  | not {e : Expr ι κ} {e' : Expr ι' κ} (operand : Renames R e e') : Renames R (.not e) (.not e')
  | connect (op : Connective) {l r : Expr ι κ} {l' r' : Expr ι' κ} (left : Renames R l l')
      (right : Renames R r r') : Renames R (.connect op l r) (.connect op l' r')
  | compare {l r : Expr ι κ} {l' r' : Expr ι' κ} (left : Renames R l l') (right : Renames R r r')
      (negated : Bool) : Renames R (.compare l r negated) (.compare l' r' negated)
  | null : Renames R .null .null
  | param {p : ι} {p' : ι'} (pair : R p p') : Renames R (.param p) (.param p')
  | call (callee : κ) {args : List (Expr ι κ)} {args' : List (Expr ι' κ)}
      (each : List.Forall₂ (Renames R) args args') : Renames R (.call callee args) (.call callee args')
  | other (text : String) : Renames R (.other text) (.other text)

namespace Expr.Renames

mutual

theorem flip {e : Expr ι κ} {e' : Expr ι' κ} (renamed : e.Renames R e') :
    e'.Renames (Function.swap R) e := by
  cases renamed with
  | paren inner => exact .paren (flip inner)
  | not operand => exact .not (flip operand)
  | connect op left right => exact .connect op (flip left) (flip right)
  | compare left right negated => exact .compare (flip left) (flip right) negated
  | null => exact .null
  | param pair => exact .param pair
  | call callee each => exact .call callee (flip_args each)
  | other text => exact .other text

theorem flip_args {args : List (Expr ι κ)} {args' : List (Expr ι' κ)}
    (each : List.Forall₂ (Renames R) args args') :
    List.Forall₂ (Renames (Function.swap R)) args' args := by
  cases each with
  | nil => exact .nil
  | cons renamed rest => exact .cons (flip renamed) (flip_args rest)

end

mutual

theorem unique (right : RightUnique R) {e : Expr ι κ} {e' e'' : Expr ι' κ}
    (first : e.Renames R e') (second : e.Renames R e'') : e' = e'' := by
  cases first with
  | paren inner =>
    cases second with
    | paren inner' => rw [unique right inner inner']
  | not operand =>
    cases second with
    | not operand' => rw [unique right operand operand']
  | connect op l r =>
    cases second with
    | connect _ l' r' => rw [unique right l l', unique right r r']
  | compare l r negated =>
    cases second with
    | compare l' r' => rw [unique right l l', unique right r r']
  | null =>
    cases second
    rfl
  | param pair =>
    cases second with
    | param pair' => rw [right pair pair']
  | call callee each =>
    cases second with
    | call _ each' => rw [unique_args right each each']
  | other text =>
    cases second
    rfl

theorem unique_args (right : RightUnique R) {args : List (Expr ι κ)}
    {args' args'' : List (Expr ι' κ)} (first : List.Forall₂ (Renames R) args args')
    (second : List.Forall₂ (Renames R) args args'') : args' = args'' := by
  cases first with
  | nil =>
    cases second
    rfl
  | cons renamed rest =>
    cases second with
    | cons renamed' rest' => rw [unique right renamed renamed', unique_args right rest rest']

end

/-- Where parameters are paired one to one, so are expressions. -/
theorem biUnique (pairing : BiUnique R) : BiUnique (Renames (κ := κ) R) := by
  constructor
  · intro e other e' first second
    have swapped : RightUnique (Function.swap R) := fun _ _ _ pair pair' => pairing.1 pair pair'
    exact unique swapped first.flip second.flip
  · intro e e' other first second
    exact unique pairing.2 first second

variable {e : Expr ι κ} {e' : Expr ι' κ}

theorem bare (renamed : e.Renames R e') : e.bare.Renames R e'.bare := by
  induction e using Expr.bare.induct generalizing e' with
  | case1 inner ih =>
    cases renamed with
    | paren renamed =>
      have below := ih renamed
      exact below
  | case2 e isParen =>
    cases renamed with
    | paren inner => exact absurd rfl (isParen _)
    | not operand => exact .not operand
    | connect op left right => exact .connect op left right
    | compare left right negated => exact .compare left right negated
    | null => exact .null
    | param pair => exact .param pair
    | call callee each => exact .call callee each
    | other text => exact .other text

theorem param? (renamed : e.Renames R e') : Option.Rel R e.param? e'.param? := by
  have below := renamed.bare
  unfold Expr.param?
  generalize e.bare = shape, e'.bare = shape' at below
  cases below with
  | param pair => exact .some pair
  | _ => exact .none

theorem isNull (renamed : e.Renames R e') : e.isNull = e'.isNull := by
  have below := renamed.bare
  unfold Expr.isNull
  generalize e.bare = shape, e'.bare = shape' at below
  cases below with
  | _ => rfl

end Expr.Renames

/-- The second restriction admits the paired parameters. -/
inductive Eligibility.Renames (R : ι → ι' → Prop) : Eligibility ι → Eligibility ι' → Prop
  | all : Renames R .all .all
  | only {params : List ι} {params' : List ι'} (each : List.Forall₂ R params params') :
      Renames R (.only params) (.only params')

/-- A caller's parameter and a formal are paired with a caller's parameter and a formal. -/
def PairRenames (R : ι → ι' → Prop) (pair : ι × ι) (pair' : ι' × ι') : Prop :=
  R pair.1 pair'.1 ∧ R pair.2 pair'.2

theorem Eligibility.Renames.isEmpty {eligible : Eligibility ι} {eligible' : Eligibility ι'}
    (renamed : eligible.Renames R eligible') : eligible.isEmpty = eligible'.isEmpty := by
  cases renamed with
  | all => rfl
  | only each =>
    cases each with
    | nil => rfl
    | cons pair rest => rfl

/-- The second check has the same value and rests on the paired parameters. -/
structure NullCheck.Renames (R : ι → ι' → Prop) (check : NullCheck ι) (check' : NullCheck ι') :
    Prop where
  value : check.value = check'.value
  params : List.Forall₂ R check.params check'.params

namespace NullCheck.Renames

variable {check : Option (NullCheck ι)} {check' : Option (NullCheck ι')}

theorem map_value (renamed : Option.Rel (Renames R) check check') :
    check.map (·.value) = check'.map (·.value) :=
  renamed.map_eq fun _ _ each => each.value

theorem support (renamed : Option.Rel (Renames R) check check') :
    List.Forall₂ R (NullCheck.support check) (NullCheck.support check') := by
  cases renamed with
  | some each => exact each.params
  | none => exact .nil

theorem negate (renamed : Option.Rel (Renames R) check check') :
    Option.Rel (Renames R) (check.map .negate) (check'.map .negate) :=
  renamed.map fun _ _ each => ⟨congrArg (!·) each.value, each.params⟩

theorem connect (op : Connective) {left right : Option (NullCheck ι)}
    {left' right' : Option (NullCheck ι')} (l : Option.Rel (Renames R) left left')
    (r : Option.Rel (Renames R) right right') :
    Option.Rel (Renames R) (op.check left right) (op.check left' right') := by
  unfold Connective.check
  rw [map_value l, map_value r]
  cases op.combine (left'.map (·.value)) (right'.map (·.value)) with
  | none => exact .none
  | some value => exact .some ⟨rfl, List.rel_append (support l) (support r)⟩

end NullCheck.Renames

/-- The second helper is the first one with paired parameters. -/
structure Helper.Renames (R : ι → ι' → Prop) (helper : Helper ι κ) (helper' : Helper ι' κ) :
    Prop where
  name : helper.name = helper'.name
  formals : List.Forall₂ R helper.formals helper'.formals
  body : Option.Rel (Expr.Renames R) helper.body helper'.body
  unit : helper.unit = helper'.unit

/-- An inlining of the paired helper for the paired formals. -/
def Inlining.Renames (R : ι → ι' → Prop) (inlining : Inlining ι κ) (inlining' : Inlining ι' κ) :
    Prop :=
  inlining.1.Renames R inlining'.1 ∧ List.Forall₂ R inlining.2 inlining'.2

/-- Where parameters are paired one to one, so are helpers. -/
theorem Helper.Renames.biUnique (pairing : BiUnique R) : BiUnique (Helper.Renames (κ := κ) R) := by
  have formals := pairing.forall₂
  have body := Option.Rel.biUnique (Expr.Renames.biUnique (κ := κ) pairing)
  constructor
  · rintro ⟨name, xs, e, unit⟩ ⟨name', xs', e', unit'⟩ helper first second
    have sameName : name = name' := first.name.trans second.name.symm
    have sameUnit : unit = unit' := first.unit.trans second.unit.symm
    have sameFormals : xs = xs' := formals.1 first.formals second.formals
    have sameBody : e = e' := body.1 first.body second.body
    rw [sameName, sameUnit, sameFormals, sameBody]
  · rintro helper ⟨name, xs, e, unit⟩ ⟨name', xs', e', unit'⟩ first second
    have sameName : name = name' := first.name.symm.trans second.name
    have sameUnit : unit = unit' := first.unit.symm.trans second.unit
    have sameFormals : xs = xs' := formals.2 first.formals second.formals
    have sameBody : e = e' := body.2 first.body second.body
    rw [sameName, sameUnit, sameFormals, sameBody]

theorem Inlining.Renames.biUnique (pairing : BiUnique R) :
    BiUnique (Inlining.Renames (κ := κ) R) := by
  have helpers := Helper.Renames.biUnique (κ := κ) pairing
  have formals := pairing.forall₂
  constructor
  · intro first second other same same'
    exact Prod.ext (helpers.1 same.1 same'.1) (formals.1 same.2 same'.2)
  · intro other first second same same'
    exact Prod.ext (helpers.2 same.1 same'.1) (formals.2 same.2 same'.2)

/-- A call that finds a helper in one resolver finds the paired helper in the other. -/
def Resolver.Renames (R : ι → ι' → Prop) (resolver : Resolver ι κ) (resolver' : Resolver ι' κ) :
    Prop :=
  ∀ callee arity, Option.Rel (Helper.Renames R) (resolver.lookup callee arity).helper?
    (resolver'.lookup callee arity).helper?

theorem Resolver.Renames.inlineable? {resolver : Resolver ι κ} {resolver' : Resolver ι' κ}
    (renamed : resolver.Renames R resolver') (unit : Option String) (callee : κ)
    (arity : Nat) :
    Option.Rel (fun found found' => found.1.Renames R found'.1 ∧ found.2.Renames R found'.2)
      (Env.inlineable? { resolver, unit } callee arity)
      (Env.inlineable? { resolver := resolver', unit } callee arity) := by
  rw [Env.inlineable?_eq, Env.inlineable?_eq]
  refine (renamed callee arity).bind fun helper helper' same => ?_
  dsimp only
  rw [same.unit]
  split
  · exact same.body.map fun _ _ body => ⟨same, body⟩
  · exact .none

variable [DecidableEq ι] [DecidableEq ι']

namespace Eligibility.Renames

variable {eligible : Eligibility ι} {eligible' : Eligibility ι'}

theorem admits (renamed : eligible.Renames R eligible') (pairing : BiUnique R) {p : ι} {p' : ι'}
    (pair : R p p') : eligible.admits p = eligible'.admits p' := by
  cases renamed with
  | all => rfl
  | only each =>
    have same := List.rel_mem pairing pair each
    simpa [Eligibility.admits] using same

theorem param? (renamed : eligible.Renames R eligible') (pairing : BiUnique R) {e : Expr ι κ}
    {e' : Expr ι' κ} (expr : e.Renames R e') :
    Option.Rel R (eligible.param? e) (eligible'.param? e') :=
  expr.param?.filter fun _ _ => renamed.admits pairing

theorem compared? (renamed : eligible.Renames R eligible') (pairing : BiUnique R)
    {left right : Expr ι κ} {left' right' : Expr ι' κ} (l : left.Renames R left')
    (r : right.Renames R right') :
    Option.Rel R (eligible.compared? left right) (eligible'.compared? left' right') := by
  have first := Option.Rel.ite r.isNull (renamed.param? pairing l)
  have second := Option.Rel.ite l.isNull (renamed.param? pairing r)
  exact first.or second

theorem passThrough (renamed : eligible.Renames R eligible') (pairing : BiUnique R)
    {args : List (Expr ι κ)} {args' : List (Expr ι' κ)}
    (each : List.Forall₂ (Expr.Renames R) args args') {formals : List ι} {formals' : List ι'}
    (declared : List.Forall₂ R formals formals') :
    List.Forall₂ (PairRenames R) (eligible.passThrough args formals)
      (eligible'.passThrough args' formals') := by
  refine List.rel_filterMap ?_ (each.zip declared)
  rintro ⟨arg, formal⟩ ⟨arg', formal'⟩ ⟨expr, pair⟩
  exact (renamed.param? pairing expr).map fun _ _ handed => ⟨handed, pair⟩

end Eligibility.Renames

theorem renameBack_renames (pairing : BiUnique R) {pairs : List (ι × ι)} {pairs' : List (ι' × ι')}
    (handed : List.Forall₂ (PairRenames R) pairs pairs') {formals : List ι} {formals' : List ι'}
    (each : List.Forall₂ R formals formals') :
    List.Forall₂ R (renameBack pairs formals) (renameBack pairs' formals') := by
  refine List.rel_filterMap ?_ each
  intro formal formal' pair
  have found := handed.find? (p := (·.2 = formal)) (q := (·.2 = formal')) fun first second both => by
    exact decide_eq_decide.2 (rel_eq pairing both.2 pair)
  exact found.map fun _ _ both => both.1

theorem NullCheck.Renames.rename (pairing : BiUnique R) {check : Option (NullCheck ι)}
    {check' : Option (NullCheck ι')} {pairs : List (ι × ι)} {pairs' : List (ι' × ι')}
    (handed : List.Forall₂ (PairRenames R) pairs pairs')
    (renamed : Option.Rel (Renames R) check check') :
    Option.Rel (Renames R) (check.map (.rename pairs)) (check'.map (.rename pairs')) :=
  renamed.map fun _ _ each => ⟨each.value, renameBack_renames pairing handed each.params⟩

/-- A frame of the paired helper to which the paired parameters are handed over. -/
structure Frame.Renames (R : ι → ι' → Prop) (frame : Frame ι κ) (frame' : Frame ι' κ) : Prop where
  helper : frame.helper.Renames R frame'.helper
  body : frame.body.Renames R frame'.body
  pairs : List.Forall₂ (PairRenames R) frame.pairs frame'.pairs

theorem Frame.Renames.passed {frame : Frame ι κ} {frame' : Frame ι' κ}
    (renamed : frame.Renames R frame') (pairing : BiUnique R) :
    List.Forall₂ R frame.passed frame'.passed := by
  have handed : List.Forall₂ R (frame.pairs.map (·.2)) (frame'.pairs.map (·.2)) :=
    List.rel_map (fun _ _ both => both.2) renamed.pairs
  exact renamed.helper.formals.filter fun formal formal' pair =>
    decide_eq_decide.2 (List.rel_mem pairing pair handed)

namespace Resolver.Renames

variable {resolver : Resolver ι κ} {resolver' : Resolver ι' κ}

/-- Related calls ask for related inlinings. -/
theorem frame? (renamed : resolver.Renames R resolver') (pairing : BiUnique R)
    (unit : Option String) {eligible : Eligibility ι} {eligible' : Eligibility ι'}
    (restricted : eligible.Renames R eligible') (callee : κ) {args : List (Expr ι κ)}
    {args' : List (Expr ι' κ)} (each : List.Forall₂ (Expr.Renames R) args args') :
    Option.Rel (Frame.Renames R) (resolver.frame? unit eligible callee args)
      (resolver'.frame? unit eligible' callee args') := by
  have found := renamed.inlineable? unit callee args.length
  unfold Resolver.frame? Env.frame?
  rw [← each.length_eq]
  refine found.map ?_
  rintro ⟨helper, body⟩ ⟨helper', body'⟩ ⟨same, expr⟩
  exact ⟨same, expr, restricted.passThrough pairing each same.formals⟩

variable [DecidableEq κ]

/-- A renamed inlining is under way where the inlining is. -/
theorem watches {watched : Option (List (Inlining ι κ))} {watched' : Option (List (Inlining ι' κ))}
    (active : Option.Rel (List.Forall₂ (Inlining.Renames R)) watched watched')
    (pairing : BiUnique R) {inlining : Inlining ι κ} {inlining' : Inlining ι' κ}
    (renamed : inlining.Renames R inlining') :
    watched.any (·.contains inlining) = watched'.any (·.contains inlining') := by
  cases active with
  | none => rfl
  | some each =>
    have same := List.rel_mem (Inlining.Renames.biUnique pairing) renamed each
    rw [Bool.eq_iff_iff]
    simpa using same

/-- The check of a renamed expression is the renamed check. -/
theorem check (renamed : resolver.Renames R resolver') (pairing : BiUnique R)
    (unit : Option String) (n : Nat) {watched : Option (List (Inlining ι κ))}
    {watched' : Option (List (Inlining ι' κ))}
    (active : Option.Rel (List.Forall₂ (Inlining.Renames R)) watched watched')
    {eligible : Eligibility ι} {eligible' : Eligibility ι'}
    (restricted : eligible.Renames R eligible') {e : Expr ι κ} {e' : Expr ι' κ}
    (expr : e.Renames R e') :
    Option.Rel (NullCheck.Renames R) (resolver.check unit n watched eligible e)
      (resolver'.check unit n watched' eligible' e') := by
  induction n generalizing watched watched' eligible eligible' e e' with
  | zero => exact .none
  | succ n ih =>
    cases expr with
    | paren inner => exact ih active restricted inner
    | not operand => exact NullCheck.Renames.negate (ih active restricted operand)
    | connect op left right =>
      have l := ih active restricted left
      have r := ih active restricted right
      exact NullCheck.Renames.connect op l r
    | compare left right negated =>
      exact (restricted.compared? pairing left right).map fun _ _ pair =>
        ⟨rfl, .cons pair .nil⟩
    | call callee each =>
      rw [Resolver.check, Resolver.check, restricted.isEmpty]
      split
      · exact .none
      · refine (renamed.frame? pairing unit restricted callee each).bind fun frame frame' same => ?_
        have inlining : Inlining.Renames R frame.inlining frame'.inlining :=
          ⟨same.helper, same.passed pairing⟩
        rw [watches active pairing inlining]
        split
        · exact .none
        · have inside := active.map fun _ _ others => List.Forall₂.cons inlining others
          exact NullCheck.Renames.rename pairing same.pairs
            (ih inside (.only (same.passed pairing)) same.body)
    | null | param pair | other text => exact .none

end Resolver.Renames

/-- The valuation of a renamed condition with renamed helpers has the same value and rests on the
renamed parameters. -/
theorem Expr.Renames.nullCheck? [DecidableEq κ] {resolver : Resolver ι κ}
    {resolver' : Resolver ι' κ} {e : Expr ι κ} {e' : Expr ι' κ} (expr : e.Renames R e')
    (renamed : resolver.Renames R resolver') (pairing : BiUnique R) (unit : Option String)
    (limit : Int) :
    Option.Rel (NullCheck.Renames R) (e.nullCheck? resolver unit limit)
      (e'.nullCheck? resolver' unit limit) := by
  rw [Expr.nullCheck?_eq_check, Expr.nullCheck?_eq_check]
  exact renamed.check pairing unit limit.toNat (.some .nil) .all expr

end NullGuard
