import Mathlib.Data.List.Forall2

/-!
Lists and options in lockstep. Two lists whose members are related in pairs stay so under an operation
that treats related members alike.
-/

variable {α β γ δ : Type} {R : α → β → Prop} {S : γ → δ → Prop}

namespace Option.Rel

variable {a : Option α} {b : Option β}

theorem of_eq {a a' : Option α} (same : a = a') : Option.Rel Eq a a' := by
  subst same
  cases a with
  | none => exact .none
  | some x => exact .some rfl

theorem map {f : α → γ} {g : β → δ} (related : Option.Rel R a b)
    (each : ∀ x y, R x y → S (f x) (g y)) : Option.Rel S (a.map f) (b.map g) := by
  cases related with
  | some related => exact .some (each _ _ related)
  | none => exact .none

theorem bind {f : α → Option γ} {g : β → Option δ} (related : Option.Rel R a b)
    (each : ∀ x y, R x y → Option.Rel S (f x) (g y)) : Option.Rel S (a.bind f) (b.bind g) := by
  cases related with
  | some related => exact each _ _ related
  | none => exact .none

theorem map_eq {f : α → γ} {g : β → γ} (related : Option.Rel R a b)
    (each : ∀ x y, R x y → f x = g y) : a.map f = b.map g := by
  cases related with
  | some related => rw [Option.map_some, Option.map_some, each _ _ related]
  | none => rfl

theorem bind_eq {f : α → Option γ} {g : β → Option γ} (related : Option.Rel R a b)
    (each : ∀ x y, R x y → f x = g y) : a.bind f = b.bind g := by
  cases related with
  | some related => rw [Option.bind_some, Option.bind_some, each _ _ related]
  | none => rfl

theorem any_eq {p : α → Bool} {q : β → Bool} (related : Option.Rel R a b)
    (same : ∀ x y, R x y → p x = q y) : a.any p = b.any q := by
  cases related with
  | some related => exact same _ _ related
  | none => rfl

theorem isSome_eq (related : Option.Rel R a b) : a.isSome = b.isSome := by
  cases related with
  | some related => rfl
  | none => rfl

theorem filter {p : α → Bool} {q : β → Bool} (related : Option.Rel R a b)
    (same : ∀ x y, R x y → p x = q y) : Option.Rel R (a.filter p) (b.filter q) := by
  cases related with
  | @some x y related =>
    rw [Option.filter_some, Option.filter_some, same x y related]
    cases q y with
    | false => exact .none
    | true => exact .some related
  | none => exact .none

theorem or {a' : Option α} {b' : Option β} (first : Option.Rel R a b)
    (second : Option.Rel R a' b') : Option.Rel R (a.or a') (b.or b') := by
  cases first with
  | some related => exact .some related
  | none => exact second

theorem ite {p q : Bool} (same : p = q) (related : Option.Rel R a b) :
    Option.Rel R (if p then a else Option.none) (if q then b else Option.none) := by
  subst same
  cases p with
  | false => exact .none
  | true => exact related

theorem biUnique (unique : Relator.BiUnique R) : Relator.BiUnique (Option.Rel R) := by
  constructor
  · intro a b c first second
    cases first with
    | some related =>
      cases second with
      | some related' => rw [unique.1 related related']
    | none =>
      cases second
      rfl
  · intro a b c first second
    cases first with
    | some related =>
      cases second with
      | some related' => rw [unique.2 related related']
    | none =>
      cases second
      rfl

end Option.Rel

namespace List.Forall₂

variable {l : List α} {m : List β}

theorem map_eq {f : α → γ} {g : β → γ} (each : Forall₂ R l m)
    (same : ∀ x y, R x y → f x = g y) : l.map f = m.map g := by
  induction each with
  | nil => rfl
  | cons related _ ih => rw [map_cons, map_cons, same _ _ related, ih]

/-- Related members may be taken for members of their lists. -/
theorem with_mem (each : Forall₂ R l m) :
    Forall₂ (fun x y => x ∈ l ∧ y ∈ m ∧ R x y) l m := by
  obtain ⟨length, paired⟩ := forall₂_iff_zip.1 each
  refine forall₂_iff_zip.2 ⟨length, fun {x y} member => ?_⟩
  obtain ⟨left, right⟩ := of_mem_zip member
  exact ⟨left, right, paired member⟩

theorem filter {p : α → Bool} {q : β → Bool} (each : Forall₂ R l m)
    (same : ∀ x y, R x y → p x = q y) : Forall₂ R (l.filter p) (m.filter q) :=
  rel_filter (fun x y related => Bool.eq_iff_iff.1 (same x y related)) each

theorem head? (each : Forall₂ R l m) : Option.Rel R l.head? m.head? := by
  cases each with
  | nil => exact .none
  | cons related _ => exact .some related

theorem getLast? (each : Forall₂ R l m) : Option.Rel R l.getLast? m.getLast? := by
  rw [← head?_reverse, ← head?_reverse]
  exact (rel_reverse each).head?

theorem find? {p : α → Bool} {q : β → Bool} (each : Forall₂ R l m)
    (same : ∀ x y, R x y → p x = q y) : Option.Rel R (l.find? p) (m.find? q) := by
  rw [← head?_filter, ← head?_filter]
  exact (each.filter same).head?

theorem zip {l' : List γ} {m' : List δ} (first : Forall₂ R l m) (second : Forall₂ S l' m') :
    Forall₂ (fun x y => R x.1 y.1 ∧ S x.2 y.2) (l.zip l') (m.zip m') := by
  induction first generalizing l' m' with
  | nil => exact .nil
  | cons related _ ih =>
    cases second with
    | nil => exact .nil
    | cons related' rest => exact .cons ⟨related, related'⟩ (ih rest)

theorem zipIdx (each : Forall₂ R l m) (start : Nat) :
    Forall₂ (fun x y => R x.1 y.1 ∧ x.2 = y.2) (l.zipIdx start) (m.zipIdx start) := by
  induction each generalizing start with
  | nil => exact .nil
  | cons related _ ih => exact .cons ⟨related, rfl⟩ (ih (start + 1))

/-- Sorting by keys that related members share keeps the pairs together. -/
theorem mergeSort {le : α → α → Bool} {le' : β → β → Bool} (each : Forall₂ R l m)
    (same : ∀ x y x' y', R x y → R x' y' → le x x' = le' y y') :
    Forall₂ R (l.mergeSort le) (m.mergeSort le') := by
  -- Both lists are sides of the list of pairs, and sorting that by its left sides sorts both.
  obtain ⟨length, paired⟩ := forall₂_iff_zip.1 each
  let pairs := l.zip m
  have left : pairs.map Prod.fst = l := map_fst_zip (Nat.le_of_eq length)
  have right : pairs.map Prod.snd = m := map_snd_zip (Nat.le_of_eq length.symm)
  let sorted := pairs.mergeSort fun a b => le a.1 b.1
  have sortedLeft : sorted.map Prod.fst = l.mergeSort le := by
    rw [← left]
    exact map_mergeSort fun _ _ _ _ => rfl
  have sortedRight : sorted.map Prod.snd = m.mergeSort le' := by
    rw [← right]
    exact map_mergeSort fun a first b second => same _ _ _ _ (paired first) (paired second)
  rw [← sortedLeft, ← sortedRight, forall₂_map_left_iff, forall₂_map_right_iff, forall₂_same]
  intro pair member
  exact paired (mem_mergeSort.1 member)

end List.Forall₂
