import NullGuard.CommandLine.Options

/-!
What a command line asks for. A command line is written from settings, the paths and further settings,
or from settings, paths, two dashes and further paths, which may then begin with a dash. It is read as a
check with just these paths, where a later bound on the depth overrides an earlier one.
-/
namespace NullGuard.CommandLine

/-- A bound on the depth that can be given. -/
structure Bound where
  value : Nat
  positive : 1 ≤ value
  short : (Nat.toDigits 10 value).length ≤ Text.maxDigits

/-- An argument that is no path, in one of its spellings, or two that belong together. -/
inductive Setting where
  | fix
  | json
  | quiet (short : Bool)
  | verbose (short : Bool)
  | maxDepth (bound : Bound) (joined : Bool)

namespace Setting

def words : Setting → List String
  | fix => ["--fix"]
  | json => ["--json"]
  | quiet short => [if short then "-q" else "--quiet"]
  | verbose short => [if short then "-v" else "--verbose"]
  | maxDepth bound false => ["--max-depth", toString bound.value]
  | maxDepth bound true => ["--max-depth=" ++ toString bound.value]

/-- What a setting changes. -/
def apply (options : Options) : Setting → Options
  | fix => { options with fix := true }
  | json => { options with json := true }
  | quiet _ => { options with quiet := true }
  | verbose _ => { options with verbose := true }
  | maxDepth bound _ => { options with maxDepth := bound.value }

end Setting

/-- The argument does not begin with a dash. -/
def Undashed (arg : String) : Prop := arg.toList.head? ≠ some '-'

instance : DecidablePred Undashed := fun _ => inferInstanceAs (Decidable (_ ≠ _))

/-- A command line for a check with some options. -/
inductive Written : List String → Options → Prop
  | plain {before after : List Setting} {paths : List String} (given : paths ≠ [])
      (undashed : ∀ p ∈ paths, Undashed p) :
      Written (before.flatMap Setting.words ++ paths ++ after.flatMap Setting.words)
        ((before ++ after).foldl Setting.apply { paths })
  | divided {before : List Setting} {paths more : List String} (given : paths ++ more ≠ [])
      (undashed : ∀ p ∈ paths, Undashed p) :
      Written (before.flatMap Setting.words ++ paths ++ "--" :: more)
        (before.foldl Setting.apply { paths := paths ++ more })

/-! Numbers. -/

section Numbers

variable {c : Char} {l : List Char}

theorem digit?_of_isDigit (digit : c.isDigit = true) : Text.digit? c = some (c.toNat - 48) := by
  obtain ⟨low, high⟩ : 48 ≤ c.toNat ∧ c.toNat ≤ 57 := Char.isDigit_iff_toNat.1 digit
  have zeros : Text.zeros = 48 :: Text.zeros.tail := rfl
  rw [Text.digit?, zeros, List.find?_cons_of_pos (by simp [low, Nat.lt_succ_of_le high])]
  rfl

theorem isBlank_of_isDigit (digit : c.isDigit = true) : Text.isBlank c = false := by
  obtain ⟨low, high⟩ : 48 ≤ c.toNat ∧ c.toNat ≤ 57 := Char.isDigit_iff_toNat.1 digit
  grind [Text.isBlank]

theorem dropWhile_isBlank (digits : ∀ c ∈ l, c.isDigit = true) : l.dropWhile Text.isBlank = l := by
  cases l with
  | nil => rfl
  | cons c rest =>
    refine List.dropWhile_cons_of_neg ?_
    rw [isBlank_of_isDigit (digits c List.mem_cons_self)]
    decide

theorem digits?_of_isDigit (some : l ≠ []) (digits : ∀ c ∈ l, c.isDigit = true) :
    Text.digits? l = .some (l.map fun c => c.toNat - 48) := by
  fun_induction Text.digits? l with
  | case1 => contradiction
  | case2 c => rw [digit?_of_isDigit (digits c List.mem_cons_self)]; rfl
  | case3 c rest ih =>
    have underscore := digits '_' (by simp)
    contradiction
  | case4 c rest single none ih =>
    obtain ⟨digit, digits⟩ := List.forall_mem_cons.1 digits
    rw [digit?_of_isDigit digit, ih (fun empty => single empty) digits]
    rfl

/-- A number is read from its decimal digits. -/
theorem integer?_toString (bound : Bound) :
    Text.integer? (toString bound.value) = some (bound.value : Int) := by
  have digits : ∀ c ∈ Nat.toDigits 10 bound.value, c.isDigit = true := fun c =>
    Nat.isDigit_of_mem_toDigits (by decide) (by decide)
  have inner : (((toString bound.value).toList.dropWhile Text.isBlank).reverse.dropWhile
      Text.isBlank).reverse = Nat.toDigits 10 bound.value := by
    rw [Nat.toString_eq_repr, Nat.toList_repr, dropWhile_isBlank digits,
      dropWhile_isBlank fun c member => digits c (List.mem_reverse.1 member), List.reverse_reverse]
  have natural : Text.natural? (Nat.toDigits 10 bound.value) = some bound.value := by
    have sum : ((Nat.toDigits 10 bound.value).map fun c => c.toNat - 48).foldl
        (fun value d => value * 10 + d) 0 = Nat.ofDigitChars 10 (Nat.toDigits 10 bound.value) 0 := by
      simp only [List.foldl_map, Nat.ofDigitChars, Nat.mul_comm 10]
      rfl
    have short : guard (((Nat.toDigits 10 bound.value).map fun c => c.toNat - 48).length ≤
        Text.maxDigits) = some () := if_pos (by rw [List.length_map]; exact bound.short)
    rw [Text.natural?, digits?_of_isDigit Nat.toDigits_ne_nil digits, Option.bind_eq_bind,
      Option.bind_some, short]
    exact congrArg some (sum.trans Nat.ofDigitChars_ten_toDigits)
  rw [Text.integer?, inner]
  split
  next is => exact absurd (digits '-' (by simp [is])) (by decide)
  next is => exact absurd (digits '+' (by simp [is])) (by decide)
  next => rw [natural]; rfl

end Numbers

/-! Words. -/

section Words

variable {arg : String} {args : List String} {word : Word} {words : List Word}

theorem readWords_cons (plain : arg ≠ "--") (first : readWord arg = .ok word)
    (rest : readWords args = .ok words) : readWords (arg :: args) = .ok (word :: words) := by
  rw [readWords, if_neg plain, first, rest]
  rfl

theorem readWords_of_undashed (undashed : Undashed arg) (rest : readWords args = .ok words) :
    readWords (arg :: args) = .ok (.value arg :: words) := by
  have plain : arg ≠ "--" := fun is => undashed (by rw [is]; decide)
  refine readWords_cons plain ?_ rest
  unfold readWord
  split
  next rest is => exact absurd (by rw [is]; rfl) undashed
  next => rfl

theorem readWords_paths {paths : List String} (undashed : ∀ p ∈ paths, Undashed p)
    (rest : readWords args = .ok words) :
    readWords (paths ++ args) = .ok (paths.map .value ++ words) := by
  induction paths with
  | nil => exact rest
  | cons p paths ih =>
    obtain ⟨first, undashed⟩ := List.forall_mem_cons.1 undashed
    exact readWords_of_undashed first (ih undashed)

theorem undashed_toString (n : Nat) : Undashed (toString n) := by
  intro dash
  rw [Nat.toString_eq_repr, Nat.toList_repr] at dash
  have digit := Nat.isDigit_of_mem_toDigits (by decide) (by decide) (List.mem_of_head? dash)
  contradiction

theorem equals_mem_joined (value : String) : '=' ∈ ("--max-depth=" ++ value).toList := by
  simp

/-- A bound after an equals sign. -/
theorem readWord_joined (value : String) :
    readWord ("--max-depth=" ++ value) = .ok (.option .maxDepth false (some value.toList)) := by
  have chars : ("--max-depth=" ++ value).toList =
      ['-', '-', 'm', 'a', 'x', '-', 'd', 'e', 'p', 't', 'h', '='] ++ value.toList :=
    String.toList_append
  have unnamed : Switch.named? ("--max-depth=" ++ value) = none := by
    have without : ∀ entry ∈ Switch.byName, '=' ∉ entry.1.toList := by decide
    refine List.lookup_eq_none_iff.2 fun entry member => bne_iff_ne.2 fun is => ?_
    exact without entry member (is ▸ equals_mem_joined value)
  rw [readWord, chars]
  simp only [List.cons_append, List.nil_append, unnamed]
  rfl

namespace Setting

/-- The words of a setting as read. -/
def read : Setting → List Word
  | fix => [.option .fix false none]
  | json => [.option .json false none]
  | quiet short => [.option .quiet short none]
  | verbose short => [.option .verbose short none]
  | maxDepth bound false => [.option .maxDepth false none, .value (toString bound.value)]
  | maxDepth bound true => [.option .maxDepth false (some (toString bound.value).toList)]

theorem readWords_words (s : Setting) (rest : readWords args = .ok words) :
    readWords (s.words ++ args) = .ok (s.read ++ words) := by
  cases s with
  | fix => exact readWords_cons (by decide) rfl rest
  | json => exact readWords_cons (by decide) rfl rest
  | quiet short =>
    cases short with
    | true => exact readWords_cons (by decide) rfl rest
    | false => exact readWords_cons (by decide) rfl rest
  | verbose short =>
    cases short with
    | true => exact readWords_cons (by decide) rfl rest
    | false => exact readWords_cons (by decide) rfl rest
  | maxDepth bound joined =>
    cases joined with
    | false =>
      exact readWords_cons (by decide) rfl
        (readWords_of_undashed (undashed_toString bound.value) rest)
    | true =>
      have plain : "--max-depth=" ++ toString bound.value ≠ "--" := fun is =>
        absurd (equals_mem_joined (toString bound.value)) (by rw [is]; decide)
      exact readWords_cons plain (readWord_joined _) rest

theorem readWords_flatMap (settings : List Setting) (rest : readWords args = .ok words) :
    readWords (settings.flatMap Setting.words ++ args) = .ok (settings.flatMap read ++ words) := by
  induction settings with
  | nil => exact rest
  | cons s settings ih =>
    rw [List.flatMap_cons, List.flatMap_cons, List.append_assoc, List.append_assoc]
    exact s.readWords_words ih

end Setting

end Words

/-! Options. -/

namespace Partway

variable {options : Options} {hasPaths : Bool} {state : Partway} {run : List Word}

/-- What is known after words that give some options. -/
def known (options : Options) (hasPaths : Bool) : Partway :=
  { options := { options with maxDepth := 30 }, depth := some options.maxDepth, hasPaths }

/-- What is known once a run of values has been dealt with. -/
def flush (state : Partway) (run : List Word) : Partway :=
  if run.isEmpty then state else state.values run

theorem bound_known (bound : Bound) : (known options hasPaths).bound (toString bound.value) =
    .ok (known { options with maxDepth := bound.value } hasPaths) := by
  have plain : toString bound.value ≠ "--" := fun is =>
    undashed_toString bound.value (by rw [is]; decide)
  rw [Partway.bound, if_neg plain, integer?_toString]
  rfl

/-- A setting after a run of values. -/
theorem readFrom_read (s : Setting) (flushed : state.flush run = .known options hasPaths)
    (rest : List Word) :
    readFrom state run (s.read ++ rest) = readFrom (.known (s.apply options) hasPaths) [] rest := by
  rw [flush] at flushed
  cases s with
  | fix => simp only [Setting.read, List.singleton_append, readFrom, flushed]; rfl
  | json => simp only [Setting.read, List.singleton_append, readFrom, flushed]; rfl
  | quiet short => simp only [Setting.read, List.singleton_append, readFrom, flushed]; rfl
  | verbose short => simp only [Setting.read, List.singleton_append, readFrom, flushed]; rfl
  | maxDepth bound joined =>
    cases joined with
    | false =>
      simp only [Setting.read, List.cons_append, List.nil_append, readFrom, flushed, bound_known]
      rfl
    | true =>
      simp only [Setting.read, List.singleton_append, readFrom, flushed, String.ofList_toList,
        bound_known]
      rfl

theorem readFrom_known (settings : List Setting) (rest : List Word) :
    readFrom (known options hasPaths) [] (settings.flatMap Setting.read ++ rest) =
      readFrom (known (settings.foldl Setting.apply options) hasPaths) [] rest := by
  induction settings generalizing options with
  | nil => rfl
  | cons s settings ih =>
    rw [List.flatMap_cons, List.append_assoc, readFrom_read s rfl, ih]
    rfl

/-- The last settings of a command line. -/
theorem readFrom_settings (settings : List Setting)
    (flushed : state.flush run = .known options hasPaths) :
    readFrom state run (settings.flatMap Setting.read) =
      .ok (.further (.known (settings.foldl Setting.apply options) hasPaths)) := by
  cases settings with
  | nil =>
    rw [List.foldl_nil, ← flushed]
    rfl
  | cons s settings =>
    rw [List.flatMap_cons, readFrom_read s flushed, ← List.append_nil (settings.flatMap _),
      readFrom_known]
    rfl

theorem readFrom_values (state : Partway) (run : List Word) (paths : List String) (rest : List Word) :
    readFrom state run (paths.map .value ++ rest) =
      readFrom state (run ++ paths.map .value) rest := by
  induction paths generalizing run with
  | nil => rw [List.map_nil, List.nil_append, List.append_nil]
  | cons p paths ih =>
    rw [List.map_cons, List.cons_append, readFrom, ih, List.append_assoc, List.singleton_append]

theorem texts_values (paths : List String) :
    ((paths.map Word.value).filter (· ≠ .divider)).map (·.text) = paths := by
  induction paths with
  | nil => rfl
  | cons p paths ih => exact congrArg (p :: ·) ih

/-- The first run of values gives the paths. -/
theorem flush_known {paths : List String} (some : paths ≠ [])
    (given : (run.filter (· ≠ .divider)).map (·.text) = paths) :
    (known options false).flush run = known { options with paths } true := by
  have chosen : run.filter (· ≠ .divider) ≠ [] := by
    intro none
    rw [none] at given
    exact some given.symm
  obtain ⟨word, member⟩ := List.exists_mem_of_ne_nil _ chosen
  obtain ⟨member, value⟩ := List.mem_filter.1 member
  have values : run.any (· ≠ .divider) = true := List.any_eq_true.2 ⟨word, member, value⟩
  have full : run.isEmpty = false := List.isEmpty_eq_false_iff.2 (List.ne_nil_of_mem member)
  have first : (!(known options false).hasPaths && run.any (· ≠ .divider)) = true := values
  rw [flush, full, if_neg Bool.false_ne_true, Partway.values, if_pos first, given]
  rfl

end Partway

namespace Setting

theorem foldl_apply_paths (settings : List Setting) (options : Options) (paths : List String) :
    settings.foldl apply { options with paths } =
      { settings.foldl apply options with paths } := by
  induction settings generalizing options with
  | nil => rfl
  | cons s settings ih =>
    rw [List.foldl_cons, List.foldl_cons, ← ih]
    cases s <;> rfl

theorem one_le_maxDepth (settings : List Setting) {options : Options}
    (positive : 1 ≤ options.maxDepth) :
    1 ≤ (settings.foldl apply options).maxDepth := by
  induction settings generalizing options with
  | nil => exact positive
  | cons s settings ih =>
    refine ih ?_
    cases s with
    | maxDepth bound joined => exact Int.ofNat_le.2 bound.positive
    | _ => exact positive

end Setting

theorem parse_of_known {args : List String} {words : List Word} {options : Options}
    (first : readWords args = .ok words)
    (second : readFrom {} [] words = .ok (.further (.known options true)))
    (positive : 1 ≤ options.maxDepth) : parse args = .ok (.check options) := by
  have depth : ¬ options.maxDepth < 1 := Int.not_lt.2 positive
  rw [parse, first]
  change (readFrom {} [] words >>= _) = _
  rw [second]
  change (if options.maxDepth < 1 then _ else _) = _
  rw [if_neg depth]
  rfl

/-- A command line for a check is read as such. -/
theorem parse_of_written {args : List String} {options : Options} (written : Written args options) :
    parse args = .ok (.check options) := by
  have start : ({} : Partway) = .known { paths := [] } false := rfl
  have bound : (1 : Int) ≤ 30 := by decide
  cases written with
  | @plain before after paths given undashed =>
    have read := Setting.readWords_flatMap before (readWords_paths undashed
      (Setting.readWords_flatMap after (show readWords [] = .ok [] from rfl)))
    rw [List.append_nil, List.append_nil, ← List.append_assoc] at read
    refine parse_of_known read ?_ (Setting.one_le_maxDepth _ bound)
    rw [start, Partway.readFrom_known, Partway.readFrom_values, List.nil_append,
      Partway.readFrom_settings after (Partway.flush_known given (Partway.texts_values paths)),
      ← Setting.foldl_apply_paths, List.foldl_append]
  | @divided before paths more given undashed =>
    have read := Setting.readWords_flatMap before (readWords_paths undashed
      (show readWords ("--" :: more) = .ok (.divider :: more.map .value) from rfl))
    rw [← List.append_assoc] at read
    refine parse_of_known read ?_ (Setting.one_le_maxDepth _ bound)
    have texts : ((paths.map Word.value ++ [Word.divider] ++ more.map Word.value).filter
        (· ≠ .divider)).map (·.text) = paths ++ more := by
      rw [List.filter_append, List.filter_append, List.map_append, List.map_append,
        Partway.texts_values, Partway.texts_values]
      exact congrArg (· ++ more) (List.append_nil paths)
    rw [start, Partway.readFrom_known, Partway.readFrom_values, List.nil_append, readFrom,
      ← List.append_nil (more.map Word.value), Partway.readFrom_values]
    refine (Partway.readFrom_settings [] (Partway.flush_known given texts)).trans ?_
    rw [List.foldl_nil, ← Setting.foldl_apply_paths]

end NullGuard.CommandLine
