import NullGuard.Strategy

/-!
What a valuation is run with: the resolver, the strategy for the bodies of helpers, the bound on nested
levels of connectives and the inlinings under way. The same helper is never inlined inside itself for
the same formals. As the helpers and their formals are finitely many, so are the inlinings that can
still be started, which `Env.pending` counts.
-/
namespace NullGuard

variable {ι κ : Type}

/-- A call about to be inlined. -/
structure Frame (ι κ : Type) where
  helper : Helper ι κ
  body : Expr ι κ
  /-- The caller's parameters that are handed over, each with the formal that receives it. -/
  pairs : List (ι × ι)

/-- An inlining under way: the helper and its formals that stand for a parameter of the caller. -/
abbrev Inlining (ι κ : Type) := Helper ι κ × List ι

namespace Frame

variable [DecidableEq ι]

/-- The formals that stand for a parameter of the caller, in order of declaration. -/
def passed (f : Frame ι κ) : List ι := f.helper.formals.filter (· ∈ f.pairs.map (·.2))

def inlining (f : Frame ι κ) : Inlining ι κ := (f.helper, f.passed)

def note (f : Frame ι κ) : Note := .inlining f.helper.name f.pairs.length

/-- The body may rely on the formals that stand for a parameter of the caller. -/
def start (f : Frame ι κ) : Evidence ι := { eligible := .only f.passed }

/-- The outcome of the call, for the outcome of the body: what that relied on, as the caller sees
it, takes the place of what the caller had. -/
def finish (f : Frame ι κ) (evidence : Evidence ι) (inner : Outcome ι) : Outcome ι :=
  { value := inner.value
    evidence := { evidence with affected := renameBack f.pairs inner.evidence.affected }
    trace := inner.trace }

end Frame

/-- The lists that keep a chosen set of the positions of a list. -/
def subsets {α : Type} : List α → List (List α)
  | [] => [[]]
  | a :: l => subsets l ++ (subsets l).map (a :: ·)

theorem filter_mem_subsets {α : Type} (keep : α → Bool) (l : List α) :
    l.filter keep ∈ subsets l := by
  induction l with
  | nil => exact List.mem_singleton_self []
  | cons a l ih =>
    cases h : keep a
    · rw [List.filter_cons_of_neg (by rw [h]; exact Bool.false_ne_true)]
      exact List.mem_append_left _ ih
    · rw [List.filter_cons_of_pos h]
      exact List.mem_append_right _ (List.mem_map_of_mem ih)

structure Env (ι κ : Type) where
  resolver : Resolver ι κ
  /-- The strategy for the bodies of helpers. -/
  root : Strategy := .standard
  /-- The compilation unit of the condition; only its own helpers are inlined. -/
  unit : Option String := none
  /-- The bound on nested levels of `Strategy.logic`. -/
  limit : Int := 30
  /-- The levels entered so far. -/
  depth : Nat := 0
  /-- The inlinings under way. -/
  active : List (Inlining ι κ) := []

namespace Env

def exceeded (env : Env ι κ) : Bool := env.limit < env.depth

def enter (env : Env ι κ) : Env ι κ := { env with depth := env.depth + 1 }

def leave (env : Env ι κ) : Env ι κ := { env with depth := env.depth - 1 }

/-- The environment inside an inlining. -/
def inside (env : Env ι κ) (inlining : Inlining ι κ) : Env ι κ :=
  { env with active := inlining :: env.active }

/-- The helper of a call and its body, if it has one and belongs to the unit. -/
def inlineable? (env : Env ι κ) (callee : κ) (arity : Nat) : Option (Helper ι κ × Expr ι κ) :=
  match env.resolver.lookup callee arity with
  | .found h => if h.unit = env.unit then h.body.map (h, ·) else none
  | _ => none

theorem mem_helpers_of_inlineable? {env : Env ι κ} {callee : κ} {arity : Nat} {h : Helper ι κ}
    {body : Expr ι κ} (found : env.inlineable? callee arity = some (h, body)) :
    h ∈ env.resolver.helpers := by
  unfold inlineable? at found
  split at found
  case h_1 g hit =>
    split at found
    · obtain ⟨_, _, same⟩ := Option.map_eq_some_iff.1 found
      cases same
      exact env.resolver.mem_helpers _ _ _ hit
    · cases found
  case h_2 => cases found

/-- Every helper with every set of its formals. -/
def inlinings (env : Env ι κ) : List (Inlining ι κ) :=
  env.resolver.helpers.flatMap fun h => (subsets h.formals).map (h, ·)

variable [DecidableEq ι]

/-- The inlining that a call asks for. -/
def frame? (env : Env ι κ) (eligible : Eligibility ι) (callee : κ) (args : List (Expr ι κ)) :
    Option (Frame ι κ) :=
  (env.inlineable? callee args.length).map fun (helper, body) =>
    ⟨helper, body, eligible.passThrough args helper.formals⟩

/-- What is noted about looking for the helper of a call. -/
def lookupNotes (env : Env ι κ) (callee : κ) (args : List (Expr ι κ)) : List Note :=
  (env.resolver.lookup callee args.length).notes

theorem inlining_mem {env : Env ι κ} {eligible : Eligibility ι} {callee : κ}
    {args : List (Expr ι κ)} {f : Frame ι κ} (found : env.frame? eligible callee args = some f) :
    f.inlining ∈ env.inlinings := by
  obtain ⟨⟨helper, body⟩, hit, rfl⟩ := Option.map_eq_some_iff.1 found
  exact List.mem_flatMap.2 ⟨helper, mem_helpers_of_inlineable? hit,
    List.mem_map_of_mem (filter_mem_subsets _ helper.formals)⟩

variable [DecidableEq κ]

/-- The number of inlinings that are not under way. -/
def pending (env : Env ι κ) : Nat := (env.inlinings.filter (· ∉ env.active)).length

@[simp] theorem pending_enter (env : Env ι κ) : env.enter.pending = env.pending := rfl

theorem pending_inside_lt {env : Env ι κ} {inlining : Inlining ι κ}
    (member : inlining ∈ env.inlinings) (fresh : inlining ∉ env.active) :
    (env.inside inlining).pending < env.pending := by
  have same : (env.inside inlining).inlinings = env.inlinings := rfl
  have split : (fun i => decide (i ∉ (env.inside inlining).active)) =
      fun i => decide (i ≠ inlining) && decide (i ∉ env.active) := by
    funext i
    simp [inside, not_or]
  unfold pending
  rw [same, split, ← List.filter_filter]
  refine List.length_filter_lt_length_iff_exists.2 ⟨inlining, ?_, by simp⟩
  exact List.mem_filter.2 ⟨member, by simpa using fresh⟩

end Env

end NullGuard
