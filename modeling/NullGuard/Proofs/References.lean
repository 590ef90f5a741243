import NullGuard.Proofs.Soundness

/-!
What an expression refers to, and what its null check lists. A check rests on at least one parameter,
and only on parameters that the expression itself refers to: what the body of a helper relied on comes
back as the arguments of the call.
-/
namespace NullGuard

variable {ι κ : Type}

namespace Expr

mutual

/-- The parameters that an expression refers to, at any depth. -/
def references : Expr ι κ → List ι
  | paren inner => inner.references
  | not operand => operand.references
  | connect _ left right => left.references ++ right.references
  | compare left right _ => left.references ++ right.references
  | null => []
  | param p => [p]
  | call _ args => referencesAll args
  | other _ => []

def referencesAll : List (Expr ι κ) → List ι
  | [] => []
  | arg :: args => arg.references ++ referencesAll args

end

theorem mem_referencesAll {args : List (Expr ι κ)} {p : ι} :
    p ∈ referencesAll args ↔ ∃ arg ∈ args, p ∈ arg.references := by
  induction args with
  | nil => simp [referencesAll]
  | cons arg args ih => simp [referencesAll, ih]

theorem mem_references_of_param? {e : Expr ι κ} {p : ι} (named : e.param? = some p) :
    p ∈ e.references := by
  induction e using bare.induct with
  | case1 inner ih => exact ih named
  | case2 e isParen =>
    rw [param?, bare.eq_2 e isParen] at named
    split at named
    · cases named
      exact List.mem_singleton_self _
    · cases named

end Expr

variable [DecidableEq ι]

namespace Eligibility

variable {eligible : Eligibility ι} {p : ι}

theorem mem_references_of_param? {e : Expr ι κ} (named : eligible.param? e = some p) :
    p ∈ e.references :=
  Expr.mem_references_of_param? (Option.filter_eq_some_iff.1 named).1

theorem mem_references_of_compared? {left right : Expr ι κ}
    (named : eligible.compared? left right = some p) :
    p ∈ left.references ∨ p ∈ right.references := by
  rcases Option.or_eq_some_iff.1 named with hit | ⟨-, hit⟩
  · split at hit
    · exact .inl (mem_references_of_param? hit)
    · cases hit
  · split at hit
    · exact .inr (mem_references_of_param? hit)
    · cases hit

theorem mem_references_of_passThrough {args : List (Expr ι κ)} {formals : List ι} {pair : ι × ι}
    (member : pair ∈ eligible.passThrough args formals) : pair.1 ∈ Expr.referencesAll args := by
  obtain ⟨zipped, among, hit⟩ := List.mem_filterMap.1 member
  obtain ⟨q, named, rfl⟩ := Option.map_eq_some_iff.1 hit
  exact Expr.mem_referencesAll.2
    ⟨zipped.1, (List.of_mem_zip among).1, mem_references_of_param? named⟩

end Eligibility

namespace Resolver

variable [DecidableEq κ] {resolver : Resolver ι κ} {unit : Option String} {n : Nat}
  {watched : Option (List (Inlining ι κ))} {eligible : Eligibility ι} {e : Expr ι κ}
  {known : NullCheck ι}

/-- A check rests on parameters that the expression refers to. -/
theorem mem_references_of_check (hit : resolver.check unit n watched eligible e = some known) {p : ι}
    (member : p ∈ known.params) : p ∈ e.references := by
  induction n generalizing e known with
  | zero => cases hit
  | succ n ih =>
    cases e with
    | paren inner =>
      rw [Expr.references]
      exact ih hit member
    | not operand =>
      obtain ⟨inner, below, rfl⟩ := Option.map_eq_some_iff.1 hit
      rw [Expr.references]
      exact ih below member
    | connect op left right =>
      rw [(Connective.check_eq_some hit).2, List.mem_append] at member
      refine List.mem_append.2 (member.imp ?_ ?_)
      · intro member
        obtain ⟨inner, below, member⟩ := NullCheck.mem_support member
        exact ih below member
      · intro member
        obtain ⟨inner, below, member⟩ := NullCheck.mem_support member
        exact ih below member
    | compare left right negated =>
      obtain ⟨q, compared, rfl⟩ := Option.map_eq_some_iff.1 hit
      rw [List.mem_singleton.1 member]
      exact List.mem_append.2 (Eligibility.mem_references_of_compared? compared)
    | call callee args =>
      -- Whatever the body lists, the caller sees what it handed over itself.
      obtain ⟨frame, inner, found, -, rfl⟩ := check_call_eq_some hit
      obtain ⟨formal, -, pair⟩ := mem_renameBack member
      rw [pairs_of_frame? found] at pair
      exact Eligibility.mem_references_of_passThrough pair
    | null | param p | other text => cases hit

/-- A check rests on something. -/
theorem params_ne_nil_of_check (hit : resolver.check unit n watched eligible e = some known) :
    known.params ≠ [] := by
  induction n generalizing watched eligible e known with
  | zero => cases hit
  | succ n ih =>
    cases e with
    | paren inner => exact ih hit
    | not operand =>
      obtain ⟨inner, below, rfl⟩ := Option.map_eq_some_iff.1 hit
      have listed := ih below
      exact listed
    | connect op left right =>
      obtain ⟨decided, listed⟩ := Connective.check_eq_some hit
      rw [listed, Ne, List.append_eq_nil_iff]
      rintro ⟨noLeft, noRight⟩
      -- With nothing to rest on, neither operand is known, and so neither is the connective.
      have unknown : ∀ sub : Expr ι κ, NullCheck.support (resolver.check unit n watched eligible sub) =
          [] → resolver.check unit n watched eligible sub = none := by
        intro sub nothing
        cases below : resolver.check unit n watched eligible sub with
        | none => rfl
        | some inner =>
          rw [below] at nothing
          exact absurd nothing (ih below)
      rw [unknown left noLeft, unknown right noRight] at decided
      cases op <;> cases decided
    | compare left right negated =>
      obtain ⟨q, -, rfl⟩ := Option.map_eq_some_iff.1 hit
      exact List.cons_ne_nil q []
    | call callee args =>
      obtain ⟨frame, inner, -, below, rfl⟩ := check_call_eq_some hit
      obtain ⟨formal, member⟩ := List.exists_mem_of_ne_nil _ (ih below)
      obtain ⟨p, -, listed⟩ := Frame.exists_renameBack (admits_of_check below member) member
      exact List.ne_nil_of_mem listed
    | null | param p | other text => cases hit

end Resolver

end NullGuard
