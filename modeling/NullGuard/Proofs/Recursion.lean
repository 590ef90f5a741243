import Mathlib.Data.Nat.Find
import NullGuard.Proofs.Levels

/-!
The test against inlining a helper inside itself only saves work: with and without it the valuation
finds the same values. Of the levels at which a helper, restricted to some of its formals, has a known
value there is a least one, and at that level the value does not rest on the same helper with the same
formals again, which was unknown with fewer levels. So whatever the test cuts off could be left out.
-/
namespace NullGuard

variable {ι κ : Type} [DecidableEq ι] [DecidableEq κ]

namespace Resolver

/-- Watching the inlinings under way never adds to what is known. -/
theorem check_extends_unwatched (resolver : Resolver ι κ) (unit : Option String) (n : Nat)
    (watched : Option (List (Inlining ι κ))) (eligible : Eligibility ι) (e : Expr ι κ) :
    NullCheck.Extends (resolver.check unit n watched eligible e)
      (resolver.check unit n none eligible e) := by
  induction n generalizing watched eligible e with
  | zero => exact .of_none _
  | succ n ih =>
    cases e with
    | paren inner => exact ih watched eligible inner
    | not operand => exact (ih watched eligible operand).negate
    | connect op left right =>
      exact .connect op (ih watched eligible left) (ih watched eligible right)
    | compare left right negated => exact .refl _
    | call callee args =>
      exact .call (fun _ never => absurd never Bool.false_ne_true) fun frame =>
        ih (watched.map (frame.inlining :: ·)) (.only frame.passed) frame.body
    | null | param p | other text => exact .of_none _

/-- The helper is unknown for its passed formals within less than `n` levels. -/
def Late (resolver : Resolver ι κ) (unit : Option String) (n : Nat) (inlining : Inlining ι κ) :
    Prop :=
  ∀ body, inlining.1.body = some body → ∀ m, m < n →
    resolver.check unit m none (.only inlining.2) body = none

theorem Late.mono {resolver : Resolver ι κ} {unit : Option String} {n m : Nat}
    {inlining : Inlining ι κ} (late : resolver.Late unit n inlining) (le : m ≤ n) :
    resolver.Late unit m inlining :=
  fun body has k lt => late body has k (Nat.lt_of_lt_of_le lt le)

/-- A helper that is known within `n` levels is known at a least level, before which it is late. -/
theorem exists_least_known (resolver : Resolver ι κ) (unit : Option String) {n : Nat}
    {inlining : Inlining ι κ} {body : Expr ι κ} (has : inlining.1.body = some body) {v : Bool}
    (known : (resolver.check unit n none (.only inlining.2) body).map (·.value) = some v) :
    ∃ m, m ≤ n ∧ resolver.Late unit m inlining ∧
      (resolver.check unit m none (.only inlining.2) body).map (·.value) = some v := by
  have somewhere : ∃ m, resolver.check unit m none (.only inlining.2) body ≠ none :=
    ⟨n, fun unknown => by simp [unknown] at known⟩
  have first : Nat.find somewhere ≤ n :=
    Nat.find_min' somewhere fun unknown => by simp [unknown] at known
  refine ⟨Nat.find somewhere, first, ?_, ?_⟩
  · intro body' has' m lt
    cases has.symm.trans has'
    exact not_not.1 (Nat.find_min somewhere lt)
  · obtain ⟨check, hit⟩ := Option.ne_none_iff_exists'.1 (Nat.find_spec somewhere)
    have value : (resolver.check unit (Nat.find somewhere) none (.only inlining.2) body).map
        (·.value) = some check.value := by rw [hit, Option.map_some]
    have later := (resolver.check_mono unit first none (.only inlining.2) body).value value
    rw [value, ← known, later]

/-- What is known unwatched is known watched, if the inlinings under way are unknown within the
levels that are left. -/
theorem value_check_of_late (resolver : Resolver ι κ) (unit : Option String) (n : Nat)
    (active : List (Inlining ι κ)) (late : ∀ inlining ∈ active, resolver.Late unit n inlining)
    (eligible : Eligibility ι) (e : Expr ι κ) {v : Bool}
    (known : (resolver.check unit n none eligible e).map (·.value) = some v) :
    (resolver.check unit n (some active) eligible e).map (·.value) = some v := by
  -- Strong induction on the levels: the body of a helper is looked at where it is first known.
  induction n using Nat.strong_induction_on generalizing active eligible e v with
  | _ n ih =>
  match n with
  | 0 => cases known
  | n + 1 =>
    have late' : ∀ inlining ∈ active, resolver.Late unit n inlining :=
      fun inlining member => (late inlining member).mono (Nat.le_succ n)
    have below : ∀ (sub : Expr ι κ) (w : Bool),
        (resolver.check unit n none eligible sub).map (·.value) = some w →
        (resolver.check unit n (some active) eligible sub).map (·.value) = some w :=
      fun sub _ hit => ih n (Nat.lt_succ_self n) active late' eligible sub hit
    cases e with
    | paren inner => exact below inner v known
    | not operand =>
      rw [check, NullCheck.value_negate] at known ⊢
      obtain ⟨w, hit, rfl⟩ := Option.map_eq_some_iff.1 known
      rw [below operand w hit, Option.map_some]
    | connect op left right =>
      rw [check, Connective.value_check] at known ⊢
      exact op.combine_mono (below left) (below right) known
    | compare left right negated => exact known
    | call callee args =>
      simp only [check] at known ⊢
      cases possible : eligible.isEmpty with
      | true => simp [possible] at known
      | false =>
      cases found : resolver.frame? unit eligible callee args with
      | none => simp [possible, found] at known
      | some frame =>
        have has : frame.inlining.1.body = some frame.body :=
          (lookup_of_frame? found).2.2
        simp only [possible, found, Bool.false_eq_true, if_false, Option.bind_some, Option.any_none,
          Option.map_none, NullCheck.value_rename] at known
        by_cases busy : frame.inlining ∈ active
        · -- An inlining under way would have to be known within the levels left.
          have unknown := late frame.inlining busy frame.body has n (Nat.lt_succ_self n)
          simp only [Frame.inlining] at unknown
          simp [unknown] at known
        · obtain ⟨m, le, first, least⟩ := resolver.exists_least_known unit has known
          have late'' : ∀ inlining ∈ frame.inlining :: active, resolver.Late unit m inlining := by
            intro inlining member
            rcases List.mem_cons.1 member with rfl | member
            · exact first
            · exact (late' inlining member).mono le
          have inner := ih m (Nat.lt_succ_of_le le) (frame.inlining :: active) late'' _ _ least
          have more := (resolver.check_mono unit le (some (frame.inlining :: active))
            (.only frame.passed) frame.body).value inner
          simp only [Bool.false_eq_true, if_false, Option.bind_some, Option.any_some,
            List.contains_iff_mem, busy, Option.map_some, NullCheck.value_rename]
          exact more
    | null | param p | other text => cases known

/-- Watched or not, the same values are found. -/
theorem value_check_watched (resolver : Resolver ι κ) (unit : Option String) (n : Nat)
    (eligible : Eligibility ι) (e : Expr ι κ) :
    (resolver.check unit n (some []) eligible e).map (·.value) =
      (resolver.check unit n none eligible e).map (·.value) := by
  refine Option.ext fun v => ⟨fun known => ?_, fun known => ?_⟩
  · exact (resolver.check_extends_unwatched unit n (some []) eligible e).value known
  · exact resolver.value_check_of_late unit n [] (by simp) eligible e known

end Resolver

/-- The valuation of a condition is the check by levels that watches the inlinings under way, and the
same check without watching them, in which only the bound ends recursion, finds the same value. -/
theorem nullCheck?_value_eq_unwatched (e : Expr ι κ) (table : HelperTable ι κ)
    (unit : Option String) (limit : Int) :
    e.nullCheck? table.resolver unit limit =
        table.resolver.check unit limit.toNat (some []) .all e ∧
      (e.nullCheck? table.resolver unit limit).map (·.value) =
        (table.resolver.check unit limit.toNat none .all e).map (·.value) := by
  have watched := e.nullCheck?_eq_check table.resolver unit limit
  refine ⟨watched, ?_⟩
  rw [watched]
  exact table.resolver.value_check_watched unit limit.toNat .all e

end NullGuard
