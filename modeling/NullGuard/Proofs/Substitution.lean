import NullGuard.Proofs.Levels

/-!
Substitution of parameters. An expression may have its parameters replaced by others, or by something
unknown, and its null check then changes in the same way: `check_subst` values the expression under a
restriction to the parameters that have an image and replaces what the check rests on.
-/
namespace NullGuard

variable {ι κ : Type}

namespace Expr

mutual

/-- The expression with each parameter replaced by its image, or by something unknown. -/
def subst (image : ι → Option ι) : Expr ι κ → Expr ι κ
  | paren inner => paren (inner.subst image)
  | not operand => not (operand.subst image)
  | connect op left right => connect op (left.subst image) (right.subst image)
  | compare left right negated => compare (left.subst image) (right.subst image) negated
  | null => null
  | param p =>
    match image p with
    | some q => param q
    | none => other ""
  | call callee args => call callee (substAll image args)
  | other text => other text

def substAll (image : ι → Option ι) : List (Expr ι κ) → List (Expr ι κ)
  | [] => []
  | arg :: args => arg.subst image :: substAll image args

end

/-- The expression with every call replaced by something unknown. -/
def withoutCalls : Expr ι κ → Expr ι κ
  | paren inner => paren inner.withoutCalls
  | not operand => not operand.withoutCalls
  | connect op left right => connect op left.withoutCalls right.withoutCalls
  | compare left right negated => compare left.withoutCalls right.withoutCalls negated
  | call _ _ => other ""
  | e => e

/-- The callees of the calls in Boolean position: below parentheses, negations and connectives only. -/
def booleanCallees : Expr ι κ → List κ
  | paren inner => inner.booleanCallees
  | not operand => operand.booleanCallees
  | connect _ left right => left.booleanCallees ++ right.booleanCallees
  | call callee _ => [callee]
  | _ => []

theorem substAll_eq_map (image : ι → Option ι) (args : List (Expr ι κ)) :
    substAll image args = args.map (subst image) := by
  induction args with
  | nil => rfl
  | cons arg args ih => rw [substAll, ih, List.map_cons]

theorem booleanCallees_subst (image : ι → Option ι) (e : Expr ι κ) :
    (e.subst image).booleanCallees = e.booleanCallees := by
  fun_induction booleanCallees e with
  | case1 inner ih => exact ih
  | case2 operand ih => exact ih
  | case3 op left right ihLeft ihRight => rw [subst, booleanCallees, ihLeft, ihRight]
  | case4 callee args => rfl
  | case5 e isParen isNot isConnect isCall =>
    cases e with
    | param p =>
      rw [subst]
      cases image p <;> rfl
    | compare left right negated => rfl
    | null | other text => rfl
    | paren inner => exact absurd rfl (isParen inner)
    | not operand => exact absurd rfl (isNot operand)
    | connect op left right => exact absurd rfl (isConnect op left right)
    | call callee args => exact absurd rfl (isCall callee args)

theorem bare_subst (image : ι → Option ι) (e : Expr ι κ) :
    (e.subst image).bare = e.bare.subst image := by
  fun_induction bare e with
  | case1 inner ih => exact ih
  | case2 e isParen =>
    cases e with
    | paren inner => exact absurd rfl (isParen inner)
    | param p =>
      rw [subst]
      cases image p <;> rfl
    | _ => rfl

theorem bare_withoutCalls (e : Expr ι κ) : e.withoutCalls.bare = e.bare.withoutCalls := by
  fun_induction bare e with
  | case1 inner ih => exact ih
  | case2 e isParen =>
    cases e with
    | paren inner => exact absurd rfl (isParen inner)
    | _ => rfl

theorem param?_subst (image : ι → Option ι) (e : Expr ι κ) :
    (e.subst image).param? = e.param?.bind image := by
  rw [param?, param?, bare_subst]
  cases e.bare with
  | param p =>
    simp only [subst, Option.bind_some]
    cases image p <;> rfl
  | _ => rfl

theorem isNull_subst (image : ι → Option ι) (e : Expr ι κ) : (e.subst image).isNull = e.isNull := by
  rw [isNull, isNull, bare_subst]
  cases e.bare with
  | param p =>
    simp only [subst]
    cases image p <;> rfl
  | _ => rfl

theorem param?_withoutCalls (e : Expr ι κ) : e.withoutCalls.param? = e.param? := by
  rw [param?, param?, bare_withoutCalls]
  cases e.bare <;> rfl

theorem isNull_withoutCalls (e : Expr ι κ) : e.withoutCalls.isNull = e.isNull := by
  rw [isNull, isNull, bare_withoutCalls]
  cases e.bare <;> rfl

end Expr

/-- A check with what it rests on replaced by its image. -/
def NullCheck.through (image : ι → Option ι) (check : NullCheck ι) : NullCheck ι :=
  { check with params := check.params.filterMap image }

namespace NullCheck

theorem through_negate (image : ι → Option ι) (check : Option (NullCheck ι)) :
    (check.map (through image)).map negate = (check.map negate).map (through image) := by
  cases check <;> rfl

theorem through_through (first second : ι → Option ι) (check : NullCheck ι) :
    (check.through first).through second = check.through fun p => (first p).bind second := by
  simp [through, List.filterMap_filterMap]

theorem value_through (image : ι → Option ι) (check : Option (NullCheck ι)) :
    (check.map (through image)).map (·.value) = check.map (·.value) := by
  cases check <;> rfl

theorem support_through (image : ι → Option ι) (check : Option (NullCheck ι)) :
    support (check.map (through image)) = (support check).filterMap image := by
  cases check <;> rfl

end NullCheck

theorem Connective.check_through (op : Connective) (image : ι → Option ι)
    (left right : Option (NullCheck ι)) :
    op.check (left.map (.through image)) (right.map (.through image)) =
      (op.check left right).map (.through image) := by
  simp only [Connective.check, NullCheck.value_through, NullCheck.support_through]
  cases op.combine (left.map (·.value)) (right.map (·.value)) with
  | none => rfl
  | some value => simp [NullCheck.through, List.filterMap_append]

variable [DecidableEq ι]

theorem NullCheck.rename_eq_through (pairs : List (ι × ι)) (check : NullCheck ι) :
    check.rename pairs = check.through (handedBy pairs) := rfl

theorem Eligibility.param?_all (e : Expr ι κ) : Eligibility.all.param? e = e.param? := by
  rw [Eligibility.param?]
  cases e.param? <;> rfl

theorem Eligibility.admits_of_isEmpty (eligible : Eligibility ι) (empty : eligible.isEmpty = true)
    (p : ι) : eligible.admits p = false := by
  cases eligible with
  | all => cases empty
  | only params => simp [List.isEmpty_iff.1 empty, Eligibility.admits]

/-- The parameters with an image are those that may be relied on. -/
def Eligibility.Maps (eligible : Eligibility ι) (image : ι → Option ι) : Prop :=
  ∀ p, eligible.admits p = (image p).isSome

namespace Eligibility.Maps

variable {eligible : Eligibility ι} {image : ι → Option ι}

theorem image_of_admits (maps : eligible.Maps image) {p : ι} (admitted : eligible.admits p = true) :
    ∃ q, image p = some q := by
  rw [maps p] at admitted
  exact Option.isSome_iff_exists.1 admitted

theorem param?_subst (maps : eligible.Maps image) (e : Expr ι κ) :
    Eligibility.all.param? (e.subst image) = (eligible.param? e).bind image := by
  rw [Eligibility.param?_all, Expr.param?_subst, Eligibility.param?]
  cases e.param? with
  | none => rfl
  | some p =>
    cases mapped : image p with
    | none => simp [Option.filter, maps p, mapped]
    | some q => simp [Option.filter, maps p, mapped]

theorem compared?_subst (maps : eligible.Maps image) (left right : Expr ι κ) :
    Eligibility.all.compared? (left.subst image) (right.subst image) =
      (eligible.compared? left right).bind image := by
  simp only [Eligibility.compared?, Expr.isNull_subst, maps.param?_subst]
  cases right.isNull with
  | false => cases left.isNull <;> rfl
  | true =>
    cases named : eligible.param? left with
    | none => cases left.isNull <;> rfl
    | some p =>
      obtain ⟨q, mapped⟩ := maps.image_of_admits (admits_of_param? named)
      simp [mapped]

theorem passThrough_subst (maps : eligible.Maps image) (args : List (Expr ι κ)) (formals : List ι) :
    Eligibility.all.passThrough (args.map (Expr.subst image)) formals =
      (eligible.passThrough args formals).filterMap fun pair => (image pair.1).map (·, pair.2) := by
  simp only [Eligibility.passThrough, List.zip_map_left, List.filterMap_map,
    List.filterMap_filterMap]
  congr 1
  funext pair
  simp only [Function.comp_apply, Prod.map_fst, Prod.map_snd, id_eq, maps.param?_subst]
  cases eligible.param? pair.1 <;> rfl

end Eligibility.Maps

namespace Resolver

variable [DecidableEq κ]

/-- Nothing is known where nothing may be relied on. -/
theorem check_of_isEmpty (resolver : Resolver ι κ) (unit : Option String) (n : Nat)
    (watched : Option (List (Inlining ι κ))) {eligible : Eligibility ι}
    (empty : eligible.isEmpty = true) (e : Expr ι κ) :
    resolver.check unit n watched eligible e = none := by
  induction n generalizing e with
  | zero => rfl
  | succ n ih =>
    cases e with
    | paren inner => exact ih inner
    | not operand => rw [check, ih operand, Option.map_none]
    | connect op left right =>
      rw [check, ih left, ih right]
      cases op <;> rfl
    | compare left right negated =>
      have refused : eligible.compared? left right = none := by
        refine Option.eq_none_iff_forall_ne_some.2 fun p named => ?_
        have admitted := Eligibility.admits_of_compared? named
        rw [eligible.admits_of_isEmpty empty] at admitted
        cases admitted
      rw [check, refused, Option.map_none]
    | call callee args => rw [check, if_pos empty]
    | null | param p | other text => rfl

end Resolver

namespace Frame

/-- The frame with the parameters of the caller replaced by their images. -/
def replace (image : ι → Option ι) (frame : Frame ι κ) : Frame ι κ :=
  { frame with pairs := frame.pairs.filterMap fun pair => (image pair.1).map (·, pair.2) }

/-- Each parameter that the frame hands over has an image. -/
def Replaceable (frame : Frame ι κ) (image : ι → Option ι) : Prop :=
  ∀ pair ∈ frame.pairs, ∃ q, image pair.1 = some q

variable {frame : Frame ι κ} {image : ι → Option ι}

omit [DecidableEq ι] in
theorem formals_replace (mapped : frame.Replaceable image) :
    (frame.replace image).pairs.map (·.2) = frame.pairs.map (·.2) := by
  obtain ⟨helper, body, pairs⟩ := frame
  induction pairs with
  | nil => rfl
  | cons pair pairs ih =>
    obtain ⟨q, hit⟩ := mapped pair List.mem_cons_self
    have rest := ih fun other member => mapped other (List.mem_cons_of_mem pair member)
    simp only [replace] at rest ⊢
    rw [List.filterMap_cons_some (by rw [hit, Option.map_some]), List.map_cons, rest, List.map_cons]

theorem passed_replace (mapped : frame.Replaceable image) :
    (frame.replace image).passed = frame.passed := by
  rw [passed, passed, formals_replace mapped]
  rfl

theorem handedBy_replace (mapped : frame.Replaceable image) (formal : ι) :
    handedBy (frame.replace image).pairs formal = (handedBy frame.pairs formal).bind image := by
  obtain ⟨helper, body, pairs⟩ := frame
  induction pairs with
  | nil => rfl
  | cons pair pairs ih =>
    obtain ⟨q, hit⟩ := mapped pair List.mem_cons_self
    have rest := ih fun other member => mapped other (List.mem_cons_of_mem pair member)
    simp only [replace, handedBy] at rest ⊢
    rw [List.filterMap_cons_some (by rw [hit, Option.map_some])]
    by_cases same : pair.2 = formal
    · simp [same, hit]
    · simpa [same] using rest

theorem rename_replace (mapped : frame.Replaceable image) (check : NullCheck ι) :
    check.rename (frame.replace image).pairs = (check.rename frame.pairs).through image := by
  have composed : handedBy (frame.replace image).pairs =
      fun formal => (handedBy frame.pairs formal).bind image :=
    funext (handedBy_replace mapped)
  rw [NullCheck.rename_eq_through, NullCheck.rename_eq_through, NullCheck.through_through, composed]

end Frame

namespace Resolver

variable [DecidableEq κ]

omit [DecidableEq κ] in
/-- Where nothing may be relied on, nothing is handed over. -/
theorem passed_of_isEmpty {resolver : Resolver ι κ} {unit : Option String} {eligible : Eligibility ι}
    {callee : κ} {args : List (Expr ι κ)} {frame : Frame ι κ}
    (found : resolver.frame? unit eligible callee args = some frame)
    (empty : eligible.isEmpty = true) : frame.passed = [] := by
  have nothing : frame.pairs = [] := by
    refine List.eq_nil_iff_forall_not_mem.2 fun pair member => ?_
    rw [pairs_of_frame? found] at member
    have admitted := Eligibility.admits_of_passThrough member
    rw [eligible.admits_of_isEmpty empty] at admitted
    cases admitted
  simp [Frame.passed, nothing]

omit [DecidableEq κ] in
/-- A call keeps its helper when its arguments are replaced. -/
theorem frame?_subst (resolver : Resolver ι κ) (unit : Option String) {eligible : Eligibility ι}
    {image : ι → Option ι} (maps : eligible.Maps image) (callee : κ) (args : List (Expr ι κ)) :
    resolver.frame? unit .all callee (args.map (Expr.subst image)) =
      (resolver.frame? unit eligible callee args).map (Frame.replace image) := by
  simp only [frame?, Env.frame?, List.length_map, maps.passThrough_subst, Option.map_map]
  rfl

omit [DecidableEq κ] in
theorem replaceable_of_frame? {resolver : Resolver ι κ} {unit : Option String}
    {eligible : Eligibility ι} {image : ι → Option ι} (maps : eligible.Maps image) {callee : κ}
    {args : List (Expr ι κ)} {frame : Frame ι κ}
    (found : resolver.frame? unit eligible callee args = some frame) : frame.Replaceable image := by
  intro pair member
  rw [pairs_of_frame? found] at member
  exact maps.image_of_admits (Eligibility.admits_of_passThrough member)

/-- Valuing an expression with its parameters replaced is replacing them in its check. -/
theorem check_subst (resolver : Resolver ι κ) (unit : Option String) (n : Nat)
    (watched : Option (List (Inlining ι κ))) {eligible : Eligibility ι} {image : ι → Option ι}
    (maps : eligible.Maps image) (e : Expr ι κ) :
    resolver.check unit n watched .all (e.subst image) =
      (resolver.check unit n watched eligible e).map (.through image) := by
  induction n generalizing e with
  | zero => rfl
  | succ n ih =>
    cases e with
    | paren inner => exact ih inner
    | not operand => rw [Expr.subst, check, ih operand, NullCheck.through_negate]; rfl
    | connect op left right =>
      rw [Expr.subst, check, ih left, ih right, Connective.check_through]
      rfl
    | compare left right negated =>
      rw [Expr.subst, check, maps.compared?_subst, check]
      cases named : eligible.compared? left right with
      | none => rfl
      | some p =>
        obtain ⟨q, mapped⟩ := maps.image_of_admits (Eligibility.admits_of_compared? named)
        simp [mapped, NullCheck.through]
    | call callee args =>
      rw [Expr.subst, Expr.substAll_eq_map, check, check, resolver.frame?_subst unit maps]
      cases found : resolver.frame? unit eligible callee args with
      | none => simp
      | some frame =>
        have mapped := replaceable_of_frame? maps found
        have same : (frame.replace image).inlining = frame.inlining := by
          rw [Frame.inlining, Frame.passed_replace mapped]
          rfl
        simp only [Option.map_some, Option.bind_some, same, Frame.passed_replace mapped]
        cases empty : eligible.isEmpty with
        | true =>
          -- Nothing may be relied on, so the call is not looked at; its body would be unknown.
          rw [passed_of_isEmpty found empty, check_of_isEmpty _ _ _ _ rfl]
          simp
        | false =>
          have renamed : NullCheck.rename (frame.replace image).pairs =
              NullCheck.through image ∘ NullCheck.rename frame.pairs :=
            funext (Frame.rename_replace mapped)
          have body : (frame.replace image).body = frame.body := rfl
          simp only [Eligibility.isEmpty, Bool.false_eq_true, if_false, body, renamed,
            ← Option.map_map]
          split <;> rfl
    | param p =>
      rw [Expr.subst]
      cases image p <;> rfl
    | null | other text => rfl

end Resolver

end NullGuard
