import NullGuard.Text.Quoted

/-!
JSON documents and their text: two blanks of indentation a level, one item a line, and nothing but
printable ASCII.
-/
namespace NullGuard

inductive JsonValue where
  | bool (value : Bool)
  | nat (value : Nat)
  | text (value : String)
  | list (items : List JsonValue)
  | object (fields : List (String × JsonValue))

namespace JsonValue

/-- A code unit of sixteen bits by its number. -/
def unit (n : Nat) : List Char := '\\' :: 'u' :: Text.hex 4 n

def escape (c : Char) : List Char :=
  if c = '"' ∨ c = '\\' then ['\\', c]
  else if c = '\n' then ['\\', 'n']
  else if c = '\r' then ['\\', 'r']
  else if c = '\t' then ['\\', 't']
  else if c.toNat = 0x08 then ['\\', 'b']
  else if c.toNat = 0x0c then ['\\', 'f']
  else if 0x20 ≤ c.toNat ∧ c.toNat ≤ 0x7e then [c]
  else if c.toNat < 0x10000 then unit c.toNat
  else
    let rest := c.toNat - 0x10000
    unit (0xd800 + rest / 0x400) ++ unit (0xdc00 + rest % 0x400)

def quoted (text : String) : String :=
  String.ofList ('"' :: text.toList.flatMap escape ++ ['"'])

def newline (level : Nat) : String := "\n" ++ String.ofList (List.replicate (2 * level) ' ')

/-- Items between brackets, each on a line of its own. -/
def bracketed (level : Nat) (opening closing : String) (items : List String) : String :=
  if items.isEmpty then opening ++ closing
  else
    opening ++ newline (level + 1) ++ String.intercalate ("," ++ newline (level + 1)) items ++
      newline level ++ closing

mutual

/-- The text of a value whose first line is `level` levels deep. -/
def render (level : Nat) : JsonValue → String
  | bool value => if value then "true" else "false"
  | nat value => toString value
  | text value => quoted value
  | list items => bracketed level "[" "]" (renderItems (level + 1) items)
  | object fields => bracketed level "\x7b" "\x7d" (renderFields (level + 1) fields)

def renderItems (level : Nat) : List JsonValue → List String
  | [] => []
  | item :: rest => item.render level :: renderItems level rest

def renderFields (level : Nat) : List (String × JsonValue) → List String
  | [] => []
  | (name, value) :: rest =>
    (quoted name ++ ": " ++ value.render level) :: renderFields level rest

end

end JsonValue

end NullGuard
