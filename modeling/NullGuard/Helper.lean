import NullGuard.Expr

/-!
Boolean helper functions and where calls find them. A helper can be inlined when its body is a single
returned expression. A resolver answers which helper a call refers to; its answers come from a finite
list of helpers, which is what bounds inlining.
-/
namespace NullGuard

variable {ι κ : Type}

structure Helper (ι κ : Type) where
  name : String
  formals : List ι
  /-- The single returned expression, if the helper has that shape. -/
  body : Option (Expr ι κ) := none
  /-- The compilation unit that declares the helper. -/
  unit : Option String := none
deriving DecidableEq

def Helper.isInlineable (h : Helper ι κ) : Bool := h.body.isSome

/-- What a resolver says about a call. -/
inductive Lookup (ι κ : Type) where
  | found (helper : Helper ι κ)
  /-- Functions of that name are declared, but not exactly one takes `arity` arguments. -/
  | ambiguous (name : String) (candidates arity : Nat)
  | absent
deriving DecidableEq

namespace Lookup

def helper? : Lookup ι κ → Option (Helper ι κ)
  | found h => some h
  | _ => none

end Lookup

/-- Resolution of calls by callee and number of arguments, within a finite list of helpers. -/
structure Resolver (ι κ : Type) where
  lookup : κ → Nat → Lookup ι κ
  helpers : List (Helper ι κ)
  mem_helpers : ∀ callee arity h, lookup callee arity = .found h → h ∈ helpers

/-- A fixed table of helpers by callee. The first entry of a callee counts. -/
structure HelperTable (ι κ : Type) where
  entries : List (κ × Helper ι κ) := []

namespace HelperTable

variable [DecidableEq κ]

def find? (table : HelperTable ι κ) (callee : κ) : Option (Helper ι κ) :=
  (table.entries.find? (·.1 = callee)).map (·.2)

/-- Enters a helper under a callee, in place of the one it had. -/
def insert (table : HelperTable ι κ) (callee : κ) (helper : Helper ι κ) : HelperTable ι κ :=
  ⟨(callee, helper) :: table.entries.filter (·.1 ≠ callee)⟩

def ofList (entries : List (κ × Helper ι κ)) : HelperTable ι κ :=
  entries.foldl (fun table entry => table.insert entry.1 entry.2) ⟨[]⟩

def lookup (table : HelperTable ι κ) (callee : κ) : Lookup ι κ :=
  match table.find? callee with
  | some h => .found h
  | none => .absent

theorem find?_insert (table : HelperTable ι κ) (callee other : κ) (helper : Helper ι κ) :
    (table.insert callee helper).find? other =
      if callee = other then some helper else table.find? other := by
  by_cases same : callee = other
  · simp [find?, insert, same]
  · have kept : ∀ entry : κ × Helper ι κ,
        (entry.1 ≠ callee ∧ entry.1 = other) ↔ entry.1 = other :=
      fun entry => ⟨And.right, fun h => ⟨fun h' => same (h'.symm.trans h), h⟩⟩
    simp [find?, insert, same, List.find?_filter, ← ne_eq, kept]

theorem mem_of_lookup (table : HelperTable ι κ) {callee : κ} {h : Helper ι κ}
    (found : table.lookup callee = .found h) : h ∈ table.entries.map (·.2) := by
  unfold lookup at found
  split at found
  case h_1 g hit =>
    cases found
    obtain ⟨entry, first, rfl⟩ := Option.map_eq_some_iff.1 hit
    exact List.mem_map_of_mem (List.mem_of_find?_eq_some first)
  case h_2 => cases found

/-- The table as a resolver: the number of arguments plays no part. -/
def resolver (table : HelperTable ι κ) : Resolver ι κ where
  lookup callee _ := table.lookup callee
  helpers := table.entries.map (·.2)
  mem_helpers _ _ _ found := table.mem_of_lookup found

end HelperTable

end NullGuard
