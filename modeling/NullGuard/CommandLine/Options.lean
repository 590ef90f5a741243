import NullGuard.CommandLine.Switch

/-!
A command line as a whole. Arguments take effect from left to right, and asking for the help or the
version ends the reading at once. The paths are the first run of values; the values of later runs are
not recognized.
-/
namespace NullGuard.CommandLine

structure Options where
  paths : List String
  fix : Bool := false
  json : Bool := false
  quiet : Bool := false
  verbose : Bool := false
  maxDepth : Int := 30
deriving DecidableEq, Repr

/-- What a command line asks for. -/
inductive Request where
  | help
  | version
  | check (options : Options)
deriving DecidableEq, Repr

/-- What is known after some of the arguments. -/
structure Partway where
  options : Options := { paths := [] }
  /-- The bound on the depth, unless the last one given was no value. -/
  depth : Option Int := some 30
  hasPaths : Bool := false
  unrecognized : List String := []

/-- Reading goes on, or it is known what is asked for. -/
inductive Progress where
  | further (state : Partway)
  | done (request : Request)

namespace Partway

def extra (state : Partway) (args : List String) : Partway :=
  { state with unrecognized := state.unrecognized ++ args }

/-- Takes a flag into account. -/
def flag (state : Partway) : Switch → Progress
  | .help => .done .help
  | .version => .done .version
  | .fix => .further { state with options.fix := true }
  | .json => .further { state with options.json := true }
  | .quiet => .further { state with options.quiet := true }
  | .verbose => .further { state with options.verbose := true }
  | .maxDepth => .further state

def flags (state : Partway) : List Switch → Progress
  | [] => .further state
  | switch :: rest =>
    match state.flag switch with
    | .further next => next.flags rest
    | done => done

/-- Takes a bound on the depth into account. Two dashes are no value, here as elsewhere: they only
take back the bound given before. -/
def bound (state : Partway) (value : String) : Except UsageError Partway :=
  if value = "--" then .ok { state with depth := none }
  else
    match Text.integer? value with
    | some n => .ok { state with depth := some n }
    | none => .error (.notANumber .maxDepth value)

/-- The flags in an argument of joined short names, `switch` and one for each further character. A
character that is no short name makes it and what follows a value, which no flag takes. -/
def cluster (switch : Switch) : List Char → Except UsageError (List Switch)
  | [] => .ok [switch]
  | c :: rest =>
    match Switch.named? (String.ofList ['-', c]) with
    | none => .error (.ignoredValue switch (String.ofList (c :: rest)))
    | some next => do return switch :: (← cluster next rest)

/-- Takes a run of values into account: the first run that has one gives the paths. -/
def values (state : Partway) (run : List Word) : Partway :=
  if !state.hasPaths && run.any (· ≠ .divider) then
    { state with options.paths := (run.filter (· ≠ .divider)).map (·.text), hasPaths := true }
  else state.extra (run.map (·.text))

end Partway

/-- Takes the words into account, the first of which follow `run`, the values not yet dealt with. -/
def readFrom (state : Partway) (run : List Word) : List Word → Except UsageError Progress
  | [] => .ok (.further (if run.isEmpty then state else state.values run))
  | word :: rest =>
    let state' := if run.isEmpty then state else state.values run
    match word with
    | .value _ | .divider => readFrom state (run ++ [word]) rest
    | .unknown arg => readFrom (state'.extra [arg]) [] rest
    | .option .maxDepth _ (some attached) => do
      readFrom (← state'.bound (String.ofList attached)) [] rest
    | .option .maxDepth _ none =>
      match rest with
      | .value text :: rest => do readFrom (← state'.bound text) [] rest
      | _ => .error (.noValue .maxDepth)
    | .option switch short attached => do
      let flags ← match attached with
        | none => .ok [switch]
        | some text =>
          if short && !text.isEmpty then Partway.cluster switch text
          else .error (.ignoredValue switch (String.ofList text))
      match state'.flags flags with
      | .further next => readFrom next [] rest
      | done => .ok done

/-- Reads a command line. A missing path is told before arguments that are not recognized, and these
before a bound that is missing or not positive. -/
def parse (args : List String) : Except UsageError Request := do
  match ← readFrom {} [] (← readWords args) with
  | .done request => return request
  | .further state =>
    if !state.hasPaths then .error .noPaths
    else if !state.unrecognized.isEmpty then .error (.unrecognized state.unrecognized)
    else
      match state.depth with
      | none => .error .depthMissing
      | some depth =>
        if depth < 1 then .error .depthNotPositive
        else return .check { state.options with maxDepth := depth }

end NullGuard.CommandLine
