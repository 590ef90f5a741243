import NullGuard.Proofs.Levels

/-!
What the valuation says is true. `Eval` evaluates an expression step by step: connectives look at
their right operand only if the left one does not decide, a call binds the formals of its helper to
the values of its arguments and evaluates the body, and where the expression leaves something open
any value may come out. A recursion that does not end has no derivation. `nullCheck?_sound` says that
a condition with a null check has no other value than the check's, as long as the parameters listed
are not null; the other parameters may be.
-/
namespace NullGuard

variable {ι κ : Type} [DecidableEq ι]

/-- What expressions evaluate to. Objects are told apart by their address. -/
inductive Value where
  | null
  | object (address : Nat)
  | bool (b : Bool)
deriving DecidableEq, Repr

/-- The parameters inside a helper: a formal has the value of the argument at its position. What is
no formal, or has no argument, is as in `rest`. -/
def Value.bind (formals : List ι) (values : List Value) (rest : ι → Value) (p : ι) : Value :=
  ((formals.zip values).lookup p).getD (rest p)

theorem Value.bind_cons_self (x : ι) (formals : List ι) (v : Value) (values : List Value)
    (rest : ι → Value) : Value.bind (x :: formals) (v :: values) rest x = v := by
  simp [Value.bind]

theorem Value.bind_cons_of_ne {p x : ι} (differ : p ≠ x) (formals : List ι) (v : Value)
    (values : List Value) (rest : ι → Value) :
    Value.bind (x :: formals) (v :: values) rest p = Value.bind formals values rest p := by
  have miss : (p == x) = false := by simpa using differ
  simp [Value.bind, List.lookup_cons, miss]

variable [DecidableEq κ]

mutual

/-- Evaluation of an expression, where `params` are the values of the parameters. -/
inductive Eval (table : HelperTable ι κ) : (ι → Value) → Expr ι κ → Value → Prop
  | paren {params : ι → Value} {e : Expr ι κ} {v : Value} (inner : Eval table params e v) :
      Eval table params (.paren e) v
  | not {params : ι → Value} {e : Expr ι κ} {b : Bool} (operand : Eval table params e (.bool b)) :
      Eval table params (.not e) (.bool !b)
  | leftOnly {params : ι → Value} {op : Connective} {l r : Expr ι κ}
      (left : Eval table params l (.bool op.dominant)) :
      Eval table params (.connect op l r) (.bool op.dominant)
  | leftThenRight {params : ι → Value} {op : Connective} {l r : Expr ι κ} {b : Bool}
      (left : Eval table params l (.bool !op.dominant)) (right : Eval table params r (.bool b)) :
      Eval table params (.connect op l r) (.bool b)
  | compare {params : ι → Value} {l r : Expr ι κ} {v w : Value} (negated : Bool)
      (left : Eval table params l v) (right : Eval table params r w) :
      Eval table params (.compare l r negated) (.bool (decide (v = w) ^^ negated))
  | null {params : ι → Value} : Eval table params .null .null
  | param {params : ι → Value} (p : ι) : Eval table params (.param p) (params p)
  | callBody {params rest : ι → Value} {callee : κ} {args : List (Expr ι κ)} {values : List Value}
      {helper : Helper ι κ} {body : Expr ι κ} {v : Value}
      (found : table.find? callee = some helper) (has : helper.body = some body)
      (handed : EvalArgs table params args values)
      (result : Eval table (Value.bind helper.formals values rest) body v) :
      Eval table params (.call callee args) v
  | callUnknown {params : ι → Value} {callee : κ} {args : List (Expr ι κ)} {values : List Value}
      (bodiless : ∀ helper, table.find? callee = some helper → helper.body = none)
      (handed : EvalArgs table params args values) (v : Value) :
      Eval table params (.call callee args) v
  | other {params : ι → Value} (text : String) (v : Value) : Eval table params (.other text) v

/-- Evaluation of arguments, one after the other. -/
inductive EvalArgs (table : HelperTable ι κ) : (ι → Value) → List (Expr ι κ) → List Value → Prop
  | nil {params : ι → Value} : EvalArgs table params [] []
  | cons {params : ι → Value} {arg : Expr ι κ} {args : List (Expr ι κ)} {v : Value}
      {values : List Value} (first : Eval table params arg v)
      (others : EvalArgs table params args values) :
      EvalArgs table params (arg :: args) (v :: values)

end

omit [DecidableEq κ] in
/-- Every passed formal that a body relies on comes back as a parameter of the caller. -/
theorem Frame.exists_renameBack {frame : Frame ι κ} {formals : List ι} {formal : ι}
    (passed : (Eligibility.only frame.passed).admits formal = true) (member : formal ∈ formals) :
    ∃ p, (p, formal) ∈ frame.pairs ∧ p ∈ renameBack frame.pairs formals := by
  have handed : formal ∈ frame.pairs.map (·.2) := by
    simpa using (List.mem_filter.1 (of_decide_eq_true passed)).2
  obtain ⟨pair, among, rfl⟩ := List.mem_map.1 handed
  obtain ⟨first, found⟩ : ∃ first, frame.pairs.find? (·.2 = pair.2) = some first :=
    Option.isSome_iff_exists.1 (List.find?_isSome.2 ⟨pair, among, by simp⟩)
  have same : first.2 = pair.2 := by simpa using List.find?_some found
  refine ⟨first.1, ?_, ?_⟩
  · rw [← same]
    exact List.mem_of_find?_eq_some found
  · exact List.mem_filterMap.2 ⟨pair.2, member, by rw [handedBy, found, Option.map_some]⟩

namespace Eval

variable {table : HelperTable ι κ} {params : ι → Value}

theorem eq_of_param? {e : Expr ι κ} {v : Value} (evaluates : Eval table params e v) {p : ι}
    (named : e.param? = some p) : v = params p := by
  induction e using Expr.bare.induct with
  | case1 inner ih =>
    cases evaluates with
    | paren evaluates => exact ih evaluates named
  | case2 e bare =>
    rw [Expr.param?, Expr.bare.eq_2 e bare] at named
    split at named
    · cases named
      cases evaluates
      rfl
    · cases named

theorem eq_of_isNull {e : Expr ι κ} {v : Value} (evaluates : Eval table params e v)
    (isNull : e.isNull = true) : v = .null := by
  induction e using Expr.bare.induct with
  | case1 inner ih =>
    cases evaluates with
    | paren evaluates => exact ih evaluates isNull
  | case2 e bare =>
    rw [Expr.isNull, Expr.bare.eq_2 e bare] at isNull
    split at isNull
    · cases evaluates
      rfl
    · cases isNull

/-- A formal that a parameter is handed over to has its value inside the helper. -/
theorem bind_of_mem_passThrough {eligible : Eligibility ι} {args : List (Expr ι κ)}
    {values : List Value} (handed : EvalArgs table params args values) {formals : List ι}
    (distinct : formals.Nodup) (rest : ι → Value) {p formal : ι}
    (member : (p, formal) ∈ eligible.passThrough args formals) :
    Value.bind formals values rest formal = params p := by
  induction args generalizing values formals with
  | nil => simp [Eligibility.passThrough] at member
  | cons arg args ih =>
    cases handed with
    | @cons _ _ _ v values first others =>
    cases formals with
    | nil => simp [Eligibility.passThrough] at member
    | cons x formals =>
      obtain ⟨fresh, distinct⟩ := List.nodup_cons.1 distinct
      obtain ⟨⟨arg', receiver⟩, zipped, hit⟩ := List.mem_filterMap.1 member
      obtain ⟨q, named, same⟩ := Option.map_eq_some_iff.1 hit
      cases same
      rcases List.mem_cons.1 zipped with head | tail
      · cases head
        rw [Value.bind_cons_self]
        exact first.eq_of_param? (Option.filter_eq_some_iff.1 named).1
      · have differ : receiver ≠ x := by
          rintro rfl
          exact fresh (List.of_mem_zip tail).2
        rw [Value.bind_cons_of_ne differ]
        exact ih others distinct (List.mem_filterMap.2 ⟨(arg', receiver), tail, hit⟩)

/-- A parameter that is not null compares to null as the check says. -/
theorem compared {eligible : Eligibility ι} {left right : Expr ι κ} {p : ι}
    (named : eligible.compared? left right = some p) (nonNull : params p ≠ .null) {v w : Value}
    (l : Eval table params left v) (r : Eval table params right w) : v ≠ w := by
  rcases Option.or_eq_some_iff.1 named with hit | ⟨-, hit⟩
  · split at hit
    next isNull =>
      rw [l.eq_of_param? (Option.filter_eq_some_iff.1 hit).1, r.eq_of_isNull isNull]
      exact nonNull
    · cases hit
  · split at hit
    next isNull =>
      rw [r.eq_of_param? (Option.filter_eq_some_iff.1 hit).1, l.eq_of_isNull isNull]
      exact nonNull.symm
    · cases hit

/-- A connective evaluates as its operands decide, if each operand that is known evaluates to what
is known of it. -/
theorem connected {op : Connective} {left right : Expr ι κ} {l r : Option Bool} {value : Bool}
    (decided : op.combine l r = some value) {v : Value}
    (evaluates : Eval table params (.connect op left right) v)
    (leftSound : ∀ b w, l = some b → Eval table params left w → w = .bool b)
    (rightSound : ∀ b w, r = some b → Eval table params right w → w = .bool b) :
    v = .bool value := by
  rcases Bool.eq_or_eq_not value op.dominant with rfl | rfl
  · rw [op.combine_eq_dominant_iff] at decided
    cases evaluates with
    | leftOnly _ => rfl
    | leftThenRight evalLeft evalRight =>
      rcases decided with known | known
      · have clash := leftSound _ _ known evalLeft
        simp at clash
      · exact rightSound _ _ known evalRight
  · rw [op.combine_eq_neutral_iff] at decided
    cases evaluates with
    | leftOnly evalLeft =>
      have clash := leftSound _ _ decided.1 evalLeft
      simp at clash
    | leftThenRight _ evalRight => exact rightSound _ _ decided.2 evalRight

/-- Soundness by levels, whether inlinings are watched or not. Inside a helper the listed formals are
not null, as the parameters they stand for are listed by the caller. -/
theorem eq_of_check (distinct : table.DistinctFormals) {unit : Option String} {n : Nat}
    {watched : Option (List (Inlining ι κ))} {eligible : Eligibility ι} {e : Expr ι κ}
    {known : NullCheck ι} (hit : table.resolver.check unit n watched eligible e = some known)
    (nonNull : ∀ p ∈ known.params, params p ≠ .null) {v : Value}
    (evaluates : Eval table params e v) : v = .bool known.value := by
  induction n generalizing watched eligible e known params v with
  | zero => cases hit
  | succ n ih =>
    cases e with
    | paren inner =>
      cases evaluates with
      | paren evaluates => exact ih hit nonNull evaluates
    | not operand =>
      obtain ⟨inner, below, rfl⟩ := Option.map_eq_some_iff.1 hit
      cases evaluates with
      | not evaluates =>
        have same := ih below nonNull evaluates
        simp only [Value.bool.injEq] at same
        rw [same, NullCheck.negate]
    | connect op left right =>
      obtain ⟨decided, listed⟩ := Connective.check_eq_some hit
      simp only [listed, List.mem_append] at nonNull
      refine connected decided evaluates ?_ ?_
      · intro b w value evalLeft
        obtain ⟨inner, below, rfl⟩ := Option.map_eq_some_iff.1 value
        exact ih below (fun p member => nonNull p (.inl (by rw [below]; exact member))) evalLeft
      · intro b w value evalRight
        obtain ⟨inner, below, rfl⟩ := Option.map_eq_some_iff.1 value
        exact ih below (fun p member => nonNull p (.inr (by rw [below]; exact member))) evalRight
    | compare left right negated =>
      obtain ⟨p, named, rfl⟩ := Option.map_eq_some_iff.1 hit
      cases evaluates with
      | compare _ evalLeft evalRight =>
        have differ := compared named (nonNull p (List.mem_singleton_self p)) evalLeft evalRight
        simp [differ]
    | call callee args =>
      obtain ⟨frame, inner, found, below, rfl⟩ := Resolver.check_call_eq_some hit
      obtain ⟨resolved, -, has⟩ := Resolver.lookup_of_frame? found
      have hit := HelperTable.find?_of_lookup resolved
      cases evaluates with
      | callUnknown bodiless _ _ =>
        rw [bodiless frame.helper hit] at has
        cases has
      | callBody hit' has' handed result =>
        cases hit.symm.trans hit'
        cases has.symm.trans has'
        refine ih below ?_ result
        intro formal member
        -- A formal that the body's check lists was handed a parameter that the caller's check lists.
        obtain ⟨p, pair, listed⟩ :=
          Frame.exists_renameBack (Resolver.admits_of_check below member) member
        rw [Resolver.pairs_of_frame? found] at pair
        rw [bind_of_mem_passThrough handed (distinct _ _ hit) _ pair]
        exact nonNull p listed
    | null | param p | other text => cases hit

end Eval

/-- A condition with a null check evaluates to the value of the check and to nothing else when the
listed parameters are not null. -/
theorem nullCheck?_sound (table : HelperTable ι κ) (distinct : table.DistinctFormals)
    (unit : Option String) (limit : Int) (e : Expr ι κ) (check : NullCheck ι)
    (found : e.nullCheck? table.resolver unit limit = some check) (params : ι → Value)
    (nonNull : ∀ p ∈ check.params, params p ≠ .null) (v : Value)
    (evaluates : Eval table params e v) : v = .bool check.value := by
  rw [e.nullCheck?_eq_check] at found
  exact Eval.eq_of_check distinct found nonNull evaluates

/-- Two helpers that call each other with their arguments exchanged. -/
def mutualHelpers : HelperTable String String where
  entries :=
    [("first", { name := "first", formals := ["x", "y"], body := some (.connect .and
        (.compare (.param "y") .null false) (.call "second" [.param "x", .param "y"])) }),
     ("second", { name := "second", formals := ["a", "b"], body := some (.not
        (.call "first" [.param "b", .param "a"])) })]

/-- The second argument decides, so the first one may be null. -/
theorem nullCheck?_sound_mutualHelpers :
    let e : Expr String String := .call "first" [.param "q", .param "p"]
    let params : String → Value := fun name => if name = "p" then .object 1 else .null
    mutualHelpers.DistinctFormals ∧
      e.nullCheck? mutualHelpers.resolver none 30 = some ⟨false, ["p"]⟩ ∧
      params "p" ≠ .null ∧ params "q" = .null ∧
      Eval mutualHelpers params e (.bool false) ∧
      ∀ v, Eval mutualHelpers params e v → v = .bool false := by
  intro e params
  have distinct : mutualHelpers.DistinctFormals :=
    HelperTable.distinctFormals_of_entries (by decide)
  have found : e.nullCheck? mutualHelpers.resolver none 30 = some ⟨false, ["p"]⟩ := by
    rw [Expr.nullCheck?_eq_check]
    decide +kernel
  have compared : Eval mutualHelpers (Value.bind ["x", "y"] [.null, .object 1] params)
      (.compare (.param "y") .null false) (.bool false) :=
    .compare false (.param "y") .null
  refine ⟨distinct, found, by decide, by decide, ?_, ?_⟩
  · exact .callBody rfl rfl (.cons (.param "q") (.cons (.param "p") .nil)) (.leftOnly compared)
  · intro v evaluates
    exact nullCheck?_sound mutualHelpers distinct none 30 e _ found params (by decide) v evaluates

end NullGuard
