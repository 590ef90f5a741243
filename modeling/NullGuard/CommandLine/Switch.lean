import NullGuard.Text.Numeral
import NullGuard.Text.Quoted

/-!
The switches of the command line and how a single argument is read. A long name may be cut short as
long as one switch alone begins that way; a value may follow a name after an equals sign; short names
may be joined. What begins with a dash but is no switch is a value if it is a negative number or holds
a space.
-/
namespace NullGuard.CommandLine

inductive Switch where
  | help
  | fix
  | json
  | maxDepth
  | quiet
  | verbose
  | version
deriving DecidableEq, Repr

namespace Switch

def all : List Switch := [help, fix, json, maxDepth, quiet, verbose, version]

def names : Switch → List String
  | help => ["-h", "--help"]
  | fix => ["--fix"]
  | json => ["--json"]
  | maxDepth => ["--max-depth"]
  | quiet => ["--quiet", "-q"]
  | verbose => ["--verbose", "-v"]
  | version => ["--version"]

/-- How messages call a switch. -/
def title (s : Switch) : String := String.intercalate "/" s.names

/-- Every name with its switch, in the order of the usage text. -/
def byName : List (String × Switch) := all.flatMap fun s => s.names.map (·, s)

def named? (name : String) : Option Switch := byName.lookup name

end Switch

inductive UsageError where
  | ambiguous (arg : String) (names : List String)
  | ignoredValue (switch : Switch) (value : String)
  | noValue (switch : Switch)
  | notANumber (switch : Switch) (value : String)
  | noPaths
  | unrecognized (args : List String)
  | depthMissing
  | depthNotPositive
deriving DecidableEq, Repr

def UsageError.message : UsageError → String
  | ambiguous arg names =>
    let shown := String.intercalate ", " names
    s!"ambiguous option: {arg} could match {shown}"
  | ignoredValue switch value =>
    s!"argument {switch.title}: ignored explicit argument {Text.quoted value}"
  | noValue switch => s!"argument {switch.title}: expected one argument"
  | notANumber switch value => s!"argument {switch.title}: invalid int value: {Text.quoted value}"
  | noPaths => "the following arguments are required: PATH"
  | unrecognized args =>
    let shown := String.intercalate " " args
    s!"unrecognized arguments: {shown}"
  | depthMissing => "--max-depth has no value"
  | depthNotPositive => "--max-depth must be positive"

/-- An argument as read. -/
inductive Word where
  | value (text : String)
  /-- The two dashes after which every argument is a value. -/
  | divider
  /-- A switch, by its short name or not, with what follows the name in the same argument. -/
  | option (switch : Switch) (short : Bool) (attached : Option (List Char))
  | unknown (text : String)
deriving DecidableEq, Repr

namespace Word

/-- The argument, for words that are no options. -/
def text : Word → String
  | value text | unknown text => text
  | _ => "--"

end Word

/-- Digits after a dash, with a point among or before them or without one. A line feed may follow. -/
def isNegativeNumber (chars : List Char) : Bool :=
  match chars with
  | '-' :: rest =>
    let rest := if rest.getLast? = some '\n' then rest.dropLast else rest
    match rest.dropWhile Text.isDigit with
    | [] => !rest.isEmpty
    | '.' :: fraction => !fraction.isEmpty && fraction.all Text.isDigit
    | _ => false
  | _ => false

/-- The switches that the part of an argument before an equals sign can stand for, with their names. -/
def candidates (name : List Char) : List (String × Switch) :=
  Switch.byName.filter fun entry => name.isPrefixOf entry.1.toList

/-- The value after the equals sign of an argument. -/
def afterEquals? : List Char → Option (List Char)
  | '=' :: value => some value
  | _ => none

/-- Reads an argument that begins with a dash and is not the name of a switch. -/
def readDashed (arg : String) (chars : List Char) : Except UsageError Word :=
  let name := chars.takeWhile (· ≠ '=')
  let attached := afterEquals? (chars.dropWhile (· ≠ '='))
  match Switch.named? (String.ofList name), attached with
  | some switch, some attached => .ok (.option switch (name.length = 2) (some attached))
  | _, _ =>
    match chars with
    | '-' :: '-' :: _ =>
      match candidates name with
      | [] => .ok (if ' ' ∈ chars then .value arg else .unknown arg)
      | [(_, switch)] => .ok (.option switch false attached)
      | several => .error (.ambiguous arg (several.map (·.1)))
    | _ =>
      match Switch.named? (String.ofList (chars.take 2)) with
      | some switch => .ok (.option switch true (some (chars.drop 2)))
      | none =>
        .ok (if isNegativeNumber chars || ' ' ∈ chars then .value arg else .unknown arg)

def readWord (arg : String) : Except UsageError Word :=
  match arg.toList with
  | '-' :: rest =>
    match Switch.named? arg with
    | some switch => .ok (.option switch (arg.length = 2) none)
    | none => if rest.isEmpty then .ok (.value arg) else readDashed arg ('-' :: rest)
  | _ => .ok (.value arg)

/-- Reads the arguments; after two dashes all are values. -/
def readWords : List String → Except UsageError (List Word)
  | [] => .ok []
  | arg :: rest =>
    if arg = "--" then .ok (.divider :: rest.map .value)
    else do return (← readWord arg) :: (← readWords rest)

end NullGuard.CommandLine
