import NullGuard.Proofs.Depth
import NullGuard.Proofs.Substitution

/-!
The valuation of conditions without calls is exact. Classically such a condition has a value once each
leaf has one: a leaf that compares a parameter to null has that for a parameter that is not null, and
any other leaf may have either value, whatever the others have. A value is found exactly if all these
assignments give it, and it rests on the comparisons that lie in no part of the condition whose value
is open.

`Expr.attains` computes which values some assignment gives. It is the link between the two sides: leaves
on different sides of a connective are assigned apart, so what each side attains can be had together.
-/
namespace NullGuard

variable {ι κ : Type}

/-- A side of a connective. -/
inductive Side where
  | left
  | right
deriving DecidableEq, Repr

/-- Values for the leaves of an expression. A leaf is found by the sides taken on the way to it. -/
abbrev Assignment := List Side → Bool

namespace Assignment

/-- The values for the leaves on one side. -/
def below (assign : Assignment) (side : Side) : Assignment := fun way => assign (side :: way)

/-- The assignment that has one for each side. -/
def join (left right : Assignment) : Assignment
  | .left :: way => left way
  | .right :: way => right way
  | [] => false

end Assignment

def Connective.apply : Connective → Bool → Bool → Bool
  | and, left, right => left && right
  | or, left, right => left || right

namespace Connective

variable (op : Connective) (left right : Bool)

theorem apply_eq_dominant_iff :
    op.apply left right = op.dominant ↔ left = op.dominant ∨ right = op.dominant := by
  cases op <;> cases left <;> cases right <;> decide

theorem apply_eq_neutral_iff :
    op.apply left right = !op.dominant ↔ left = !op.dominant ∧ right = !op.dominant := by
  cases op <;> cases left <;> cases right <;> decide

end Connective

namespace Expr

/-- Induction along parentheses, negations and connectives, down to the leaves. -/
@[elab_as_elim]
theorem shapeInduction {motive : Expr ι κ → Prop}
    (paren : ∀ inner, motive inner → motive (.paren inner))
    (not : ∀ operand, motive operand → motive (.not operand))
    (connect : ∀ op left right, motive left → motive right → motive (.connect op left right))
    (leaf : ∀ e, e.isLeaf = true → motive e) : (e : Expr ι κ) → motive e
  | .paren inner => paren inner (shapeInduction paren not connect leaf inner)
  | .not operand => not operand (shapeInduction paren not connect leaf operand)
  | .connect op left right =>
    connect op left right (shapeInduction paren not connect leaf left)
      (shapeInduction paren not connect leaf right)
  | .compare left right negated => leaf (.compare left right negated) rfl
  | .null => leaf .null rfl
  | .param p => leaf (.param p) rfl
  | .call callee args => leaf (.call callee args) rfl
  | .other text => leaf (.other text) rfl

/-- The parameter that a leaf compares to null, parentheses aside, and whether by `!=`. -/
def guard? : Expr ι κ → Option (ι × Bool)
  | compare left right negated =>
    match left.bare, right.bare with
    | param p, null => some (p, negated)
    | null, param p => some (p, negated)
    | _, _ => none
  | _ => none

/-- The classical value under an assignment. Parameters are not null, so that `!=` holds for them. -/
def evaluate : Expr ι κ → Assignment → Bool
  | paren inner, assign => inner.evaluate assign
  | not operand, assign => !operand.evaluate assign
  | connect op left right, assign =>
    op.apply (left.evaluate (assign.below .left)) (right.evaluate (assign.below .right))
  | leaf, assign =>
    match leaf.guard? with
    | some (_, negated) => negated
    | none => assign []

/-- Both values can be had. -/
def Open (e : Expr ι κ) : Prop :=
  (∃ assign, e.evaluate assign = true) ∧ ∃ assign, e.evaluate assign = false

/-- Whether some assignment gives the value. -/
def attains : Expr ι κ → Bool → Bool
  | paren inner, value => inner.attains value
  | not operand, value => operand.attains !value
  | connect op left right, value =>
    if value = op.dominant then left.attains value || right.attains value
    else left.attains value && right.attains value
  | leaf, value =>
    match leaf.guard? with
    | some (_, negated) => negated == value
    | none => true

variable {e left right : Expr ι κ}

theorem evaluate_of_isLeaf (shape : e.isLeaf = true) (assign : Assignment) :
    e.evaluate assign =
      match e.guard? with
      | some (_, negated) => negated
      | none => assign [] := by
  cases e with
  | paren _ | not _ | connect _ _ _ => cases shape
  | _ => rfl

theorem attains_of_isLeaf (shape : e.isLeaf = true) (value : Bool) :
    e.attains value =
      match e.guard? with
      | some (_, negated) => negated == value
      | none => true := by
  cases e with
  | paren _ | not _ | connect _ _ _ => cases shape
  | _ => rfl

/-- The sides of a connective are assigned apart. -/
theorem exists_evaluate_connect (p : Bool → Prop) (op : Connective) :
    (∃ assign, p ((connect op left right).evaluate assign)) ↔
      ∃ a b, p (op.apply (left.evaluate a) (right.evaluate b)) :=
  ⟨fun ⟨assign, holds⟩ => ⟨assign.below .left, assign.below .right, holds⟩,
    fun ⟨a, b, holds⟩ => ⟨.join a b, holds⟩⟩

theorem attains_connect_dominant (op : Connective) :
    (connect op left right).attains op.dominant =
      (left.attains op.dominant || right.attains op.dominant) := by
  simp [attains]

theorem attains_connect_neutral (op : Connective) :
    (connect op left right).attains (!op.dominant) =
      (left.attains (!op.dominant) && right.attains (!op.dominant)) := by
  simp [attains]

theorem attains_iff (e : Expr ι κ) (value : Bool) :
    e.attains value = true ↔ ∃ assign, e.evaluate assign = value := by
  induction e using shapeInduction generalizing value with
  | paren inner ih => exact ih value
  | not operand ih =>
    rw [attains, ih]
    simp only [evaluate, Bool.not_eq_eq_eq_not]
  | connect op left right ihLeft ihRight =>
    rw [exists_evaluate_connect (· = value) op]
    rcases Bool.eq_or_eq_not value op.dominant with rfl | rfl
    · rw [attains_connect_dominant, Bool.or_eq_true, ihLeft, ihRight]
      simp only [op.apply_eq_dominant_iff, exists_or, exists_const]
    · rw [attains_connect_neutral, Bool.and_eq_true, ihLeft, ihRight]
      simp only [op.apply_eq_neutral_iff, exists_and_left, exists_and_right]
  | leaf e shape =>
    rw [attains_of_isLeaf shape]
    simp only [evaluate_of_isLeaf shape]
    cases e.guard? with
    | none => exact ⟨fun _ => ⟨fun _ => value, rfl⟩, fun _ => rfl⟩
    | some guard => simp

instance (e : Expr ι κ) : Decidable e.Open :=
  decidable_of_iff (e.attains true = true ∧ e.attains false = true)
    (and_congr (e.attains_iff true) (e.attains_iff false))

theorem open_iff (e : Expr ι κ) : e.Open ↔ ∀ value, e.attains value = true := by
  rw [Bool.forall_bool, attains_iff, attains_iff]
  exact and_comm

theorem attains_not_eq_false_iff (e : Expr ι κ) (value : Bool) :
    e.attains (!value) = false ↔ ∀ assign, e.evaluate assign = value := by
  rw [Bool.eq_false_iff, ne_eq, attains_iff, not_exists]
  exact forall_congr' fun assign => Bool.not_eq_not

end Expr

/-- A leaf of an expression and the parts of the expression around it, from the inside out. -/
structure Leaf (ι κ : Type) where
  expr : Expr ι κ
  around : List (Expr ι κ) := []

namespace Leaf

def inside (leaf : Leaf ι κ) (e : Expr ι κ) : Leaf ι κ :=
  { leaf with around := leaf.around ++ [e] }

@[simp] theorem expr_inside (leaf : Leaf ι κ) (e : Expr ι κ) : (leaf.inside e).expr = leaf.expr := rfl

/-- No part of the expression around the leaf is open. -/
def Counts (leaf : Leaf ι κ) : Prop := ∀ e ∈ leaf.around, ¬ e.Open

instance (leaf : Leaf ι κ) : Decidable leaf.Counts :=
  inferInstanceAs (Decidable (∀ e ∈ leaf.around, ¬ e.Open))

/-- The parameters that leaves which count compare to null. -/
def guards (leaves : List (Leaf ι κ)) : List ι :=
  (leaves.filter fun leaf => leaf.Counts).filterMap fun leaf => leaf.expr.guard?.map (·.1)

theorem guards_append (first second : List (Leaf ι κ)) :
    guards (first ++ second) = guards first ++ guards second := by
  simp [guards]

/-- Of the leaves of an open part none counts. -/
theorem guards_inside (leaves : List (Leaf ι κ)) (e : Expr ι κ) :
    guards (leaves.map (·.inside e)) = if e.Open then [] else guards leaves := by
  have counts : ∀ leaf : Leaf ι κ, (leaf.inside e).Counts ↔ leaf.Counts ∧ ¬ e.Open := by
    intro leaf
    simp [Counts, inside, or_imp, forall_and]
  by_cases isOpen : e.Open
  · simp [guards, counts, isOpen]
  · simp [guards, counts, isOpen, List.filter_map, List.filterMap_map, Function.comp_def]

end Leaf

namespace Expr

/-- The leaves of an expression, from left to right. -/
def leaves : Expr ι κ → List (Leaf ι κ)
  | paren inner => inner.leaves.map (·.inside (paren inner))
  | not operand => operand.leaves.map (·.inside (not operand))
  | connect op left right => (left.leaves ++ right.leaves).map (·.inside (connect op left right))
  | leaf => [{ expr := leaf }]

theorem leaves_of_isLeaf {e : Expr ι κ} (shape : e.isLeaf = true) : e.leaves = [{ expr := e }] := by
  cases e with
  | paren _ | not _ | connect _ _ _ => cases shape
  | _ => rfl

/-- An expression takes at least one level. -/
theorem exists_level {e : Expr ι κ} {n : Nat} (enough : e.height ≤ n) : ∃ m, n = m + 1 :=
  Nat.exists_eq_add_of_le' (Nat.le_trans e.height_pos enough)

end Expr

variable [DecidableEq ι]

theorem Expr.compared?_eq_guard? (left right : Expr ι κ) (negated : Bool) :
    (Eligibility.all.compared? left right).map (fun p => (p, negated)) =
      (compare left right negated).guard? := by
  simp only [Eligibility.compared?, Eligibility.param?_all, Expr.param?, Expr.isNull, Expr.guard?]
  cases left.bare <;> cases right.bare <;> rfl

variable [DecidableEq κ]

namespace Resolver

variable (resolver : Resolver ι κ) (unit : Option String)
  (watched : Option (List (Inlining ι κ))) {e : Expr ι κ} {n : Nat}

theorem check_of_isLeaf (shape : e.isLeaf = true) (free : e.booleanCallees = [])
    (enough : e.height ≤ n) :
    resolver.check unit n watched .all e = e.guard?.map fun guard => ⟨guard.2, [guard.1]⟩ := by
  obtain ⟨n, rfl⟩ := Expr.exists_level enough
  cases e with
  | paren _ | not _ | connect _ _ _ => cases shape
  | call callee args => cases free
  | compare left right negated =>
    rw [check, ← Expr.compared?_eq_guard?, Option.map_map]
    rfl
  | _ => rfl

/-- With enough levels a value is found exactly if the other one is not attained. -/
theorem value_check_eq_some_iff (free : e.booleanCallees = []) (enough : e.height ≤ n)
    (value : Bool) :
    (resolver.check unit n watched .all e).map (·.value) = some value ↔
      e.attains (!value) = false := by
  induction e using Expr.shapeInduction generalizing n value with
  | paren inner ih =>
    obtain ⟨n, rfl⟩ := Expr.exists_level enough
    exact ih free (Nat.le_of_succ_le_succ enough) value
  | not operand ih =>
    obtain ⟨n, rfl⟩ := Expr.exists_level enough
    have below := ih free (Nat.le_of_succ_le_succ enough) (!value)
    rw [check, NullCheck.value_negate, Expr.attains, ← below]
    cases resolver.check unit n watched .all operand with
    | none => simp
    | some known => simp [Bool.eq_not_iff]
  | connect op left right ihLeft ihRight =>
    obtain ⟨n, rfl⟩ := Expr.exists_level enough
    obtain ⟨freeLeft, freeRight⟩ := List.append_eq_nil_iff.1 free
    obtain ⟨enoughLeft, enoughRight⟩ := max_le_iff.1 (Nat.le_of_succ_le_succ enough)
    rw [check, Connective.value_check]
    rcases Bool.eq_or_eq_not value op.dominant with rfl | rfl
    · rw [op.combine_eq_dominant_iff, ihLeft freeLeft enoughLeft, ihRight freeRight enoughRight,
        Expr.attains_connect_neutral, Bool.and_eq_false_iff]
    · rw [op.combine_eq_neutral_iff, ihLeft freeLeft enoughLeft, ihRight freeRight enoughRight,
        Bool.not_not, Expr.attains_connect_dominant, Bool.or_eq_false_iff]
  | leaf e shape =>
    rw [check_of_isLeaf resolver unit watched shape free enough, Expr.attains_of_isLeaf shape]
    cases e.guard? with
    | none => simp
    | some guard => simp

theorem check_eq_none_iff (free : e.booleanCallees = []) (enough : e.height ≤ n) :
    resolver.check unit n watched .all e = none ↔ e.Open := by
  have found := value_check_eq_some_iff resolver unit watched free enough
  rw [e.open_iff]
  constructor
  · intro unknown value
    have other := (found (!value)).not.1 (by simp [unknown])
    rwa [Bool.not_not, Bool.not_eq_false] at other
  · intro both
    rw [← Option.map_eq_none_iff, Option.eq_none_iff_forall_ne_some]
    intro value known
    exact absurd ((found value).1 known) (by simp [both])

/-- What a check rests on may be told from what it rests on where it is known. -/
theorem support_check_eq_guards {parts : List (Leaf ι κ)} (free : e.booleanCallees = [])
    (enough : e.height ≤ n)
    (known : ∀ check, resolver.check unit n watched .all e = some check →
      check.params = Leaf.guards parts) :
    NullCheck.support (resolver.check unit n watched .all e) =
      Leaf.guards (parts.map (·.inside e)) := by
  have unknown := check_eq_none_iff resolver unit watched free enough
  rw [Leaf.guards_inside]
  cases hit : resolver.check unit n watched .all e with
  | none => rw [if_pos (unknown.1 hit), NullCheck.support_none]
  | some check =>
    have fixed : ¬ e.Open := fun isOpen => by simp [unknown.2 isOpen] at hit
    rw [if_neg fixed, NullCheck.support_some, known check hit]

/-- With enough levels a check rests on the comparisons that count, and an unknown value on none. -/
theorem support_check (free : e.booleanCallees = []) (enough : e.height ≤ n) :
    NullCheck.support (resolver.check unit n watched .all e) = Leaf.guards e.leaves := by
  induction e using Expr.shapeInduction generalizing n with
  | paren inner ih =>
    refine support_check_eq_guards resolver unit watched free enough fun known hit => ?_
    obtain ⟨n, rfl⟩ := Expr.exists_level enough
    have below : resolver.check unit n watched .all inner = some known := hit
    rw [← ih free (Nat.le_of_succ_le_succ enough), below, NullCheck.support_some]
  | not operand ih =>
    refine support_check_eq_guards resolver unit watched free enough fun known hit => ?_
    obtain ⟨n, rfl⟩ := Expr.exists_level enough
    obtain ⟨inner, below, rfl⟩ := Option.map_eq_some_iff.1 hit
    rw [← ih free (Nat.le_of_succ_le_succ enough), below, NullCheck.support_some]
    rfl
  | connect op left right ihLeft ihRight =>
    refine support_check_eq_guards resolver unit watched free enough fun known hit => ?_
    obtain ⟨n, rfl⟩ := Expr.exists_level enough
    obtain ⟨freeLeft, freeRight⟩ := List.append_eq_nil_iff.1 free
    obtain ⟨enoughLeft, enoughRight⟩ := max_le_iff.1 (Nat.le_of_succ_le_succ enough)
    rw [Leaf.guards_append, ← ihLeft freeLeft enoughLeft, ← ihRight freeRight enoughRight]
    exact (Connective.check_eq_some hit).2
  | leaf e shape =>
    rw [check_of_isLeaf resolver unit watched shape free enough, Expr.leaves_of_isLeaf shape]
    cases guarded : e.guard? with
    | none => simp [Leaf.guards, Leaf.Counts, guarded]
    | some guard => simp [Leaf.guards, Leaf.Counts, guarded]

end Resolver

/-- Without calls in Boolean position and with a level for each node on the longest way down, the
valuation is exact. It finds a value if and only if every assignment gives it, and none if and only if
both values can be had. A value that is found rests on the parameters, from left to right, of the
comparisons to null around which no part of the condition is open. -/
theorem nullCheck?_exact (e : Expr ι κ) (free : e.booleanCallees = []) (resolver : Resolver ι κ)
    (unit : Option String) (limit : Int) (enough : e.height ≤ limit) :
    (∀ value, (e.nullCheck? resolver unit limit).map (·.value) = some value ↔
        ∀ assign, e.evaluate assign = value) ∧
      (e.nullCheck? resolver unit limit = none ↔
        (∃ assign, e.evaluate assign = true) ∧ ∃ assign, e.evaluate assign = false) ∧
      ∀ check, e.nullCheck? resolver unit limit = some check →
        check.params =
          (e.leaves.filter fun leaf => ∀ part ∈ leaf.around, ¬ part.Open).filterMap
            fun leaf => leaf.expr.guard?.map (·.1) := by
  have enough : e.height ≤ limit.toNat := by omega
  rw [Expr.nullCheck?_eq_check]
  refine ⟨fun value => ?_, resolver.check_eq_none_iff unit _ free enough, fun check hit => ?_⟩
  · rw [resolver.value_check_eq_some_iff unit _ free enough, e.attains_not_eq_false_iff]
  · have rests := resolver.support_check unit (some []) free enough
    rw [hit] at rests
    exact rests

/-- Two comparisons decide the condition; a third one stands beside something unknown. -/
def hiddenGuard : Expr String String :=
  .connect .or
    (.connect .and (.compare (.param "p") .null false) (.other "x"))
    (.paren (.not (.connect .or (.compare .null (.paren (.param "q")) true)
      (.connect .and (.compare (.param "r") .null true) (.other "y")))))

/-- The third comparison is a leaf as well, but not one that the value rests on. -/
theorem nullCheck?_exact_hiddenGuard :
    hiddenGuard.booleanCallees = [] ∧ hiddenGuard.height = 6 ∧
      hiddenGuard.nullCheck? nullTest.resolver none 6 = some ⟨false, ["p", "q"]⟩ ∧
      (∀ assign, hiddenGuard.evaluate assign = false) ∧
      hiddenGuard.leaves.filterMap (fun leaf => leaf.expr.guard?.map (·.1)) = ["p", "q", "r"] ∧
      (hiddenGuard.leaves.filter fun leaf => ∀ part ∈ leaf.around, ¬ part.Open).filterMap
        (fun leaf => leaf.expr.guard?.map (·.1)) = ["p", "q"] := by
  have known : hiddenGuard.nullCheck? nullTest.resolver none 6 = some ⟨false, ["p", "q"]⟩ := by
    rw [Expr.nullCheck?_eq_check]
    decide +kernel
  have height : hiddenGuard.height = 6 := by decide
  obtain ⟨values, -, params⟩ :=
    nullCheck?_exact hiddenGuard (by decide) nullTest.resolver none 6 (by rw [height]; decide)
  refine ⟨by decide, height, known, (values false).1 ?_, by decide, (params _ known).symm⟩
  rw [known, Option.map_some]

end NullGuard
