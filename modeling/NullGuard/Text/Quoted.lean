import NullGuard.Text.Printable

/-!
Text in quotes, for messages. Single quotes are used unless the text holds one and no double quote.
The backslash, the quote in use and what is not printable are escaped.
-/
namespace NullGuard.Text

def singleQuote : Char := Char.ofNat 0x27

/-- A number in hexadecimal, with zeros in front up to a width. -/
def hex (width n : Nat) : List Char :=
  let digits := Nat.toDigits 16 n
  List.replicate (width - digits.length) '0' ++ digits

def escape (quote c : Char) : List Char :=
  if c = quote ∨ c = '\\' then ['\\', c]
  else if c = '\n' then ['\\', 'n']
  else if c = '\r' then ['\\', 'r']
  else if c = '\t' then ['\\', 't']
  else if isPrintable c then [c]
  else if c.toNat < 0x100 then '\\' :: 'x' :: hex 2 c.toNat
  else if c.toNat < 0x10000 then '\\' :: 'u' :: hex 4 c.toNat
  else '\\' :: 'U' :: hex 8 c.toNat

def quoted (text : String) : String :=
  let chars := text.toList
  let quote := if singleQuote ∈ chars ∧ '"' ∉ chars then '"' else singleQuote
  String.ofList (quote :: chars.flatMap (escape quote) ++ [quote])

end NullGuard.Text
