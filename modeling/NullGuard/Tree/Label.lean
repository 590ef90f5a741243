import NullGuard.Tree.Node

/-!
Labels as text: the kind of a node, after the name of the field it fills and a colon if it fills one.
The kind of a token is written after an equals sign.
-/
namespace NullGuard.Label

def isFieldChar (c : Char) : Bool := c.isAlpha || c == '_'

def ofKind (field : Option Field) : List Char → Label
  | '=' :: kind => { kind := .ofName (String.ofList kind), named := false, field }
  | kind => { kind := .ofName (String.ofList kind), field }

def ofText (text : String) : Label :=
  let chars := text.toList
  match chars.takeWhile isFieldChar, chars.dropWhile isFieldChar with
  | field@(_ :: _), ':' :: kind => ofKind (some (.ofName (String.ofList field))) kind
  | _, _ => ofKind none chars

end NullGuard.Label
