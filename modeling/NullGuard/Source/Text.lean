import NullGuard.Source.Span

/-!
Reading source bytes as text. Bytes that are no UTF-8 do not stop the reader: each longest run that
could have begun a character, and each byte that could not, reads as one replacement character.
-/
namespace NullGuard

namespace Utf8

/-- U+FFFD, which stands for what cannot be read. -/
def replacement : Char := Char.ofNat 0xfffd

/-- A character of which some bytes are read: `bits` so far, `need` bytes to come, the next of them
between `low` and `high`. -/
structure Begun where
  bits : Nat
  need : Nat
  low : Nat := 0x80
  high : Nat := 0xbf

/-- The bytes that begin a longer character. The ranges of the next byte leave out overlong forms,
surrogates and values above U+10FFFF. -/
def lead? (b : Nat) : Option Begun :=
  if 0xc2 ≤ b ∧ b ≤ 0xdf then some { bits := b - 0xc0, need := 1 }
  else if b = 0xe0 then some { bits := 0, need := 2, low := 0xa0 }
  else if b = 0xed then some { bits := 0xd, need := 2, high := 0x9f }
  else if 0xe1 ≤ b ∧ b ≤ 0xef then some { bits := b - 0xe0, need := 2 }
  else if b = 0xf0 then some { bits := 0, need := 3, low := 0x90 }
  else if 0xf1 ≤ b ∧ b ≤ 0xf3 then some { bits := b - 0xf0, need := 3 }
  else if b = 0xf4 then some { bits := 4, need := 3, high := 0x8f }
  else none

/-- A byte where a character may begin: what can be said at once, and what has begun. -/
def first (b : Nat) : List Char × Option Begun :=
  if b < 0x80 then ([Char.ofNat b], none)
  else
    match lead? b with
    | some begun => ([], some begun)
    | none => ([replacement], none)

/-- One more byte. -/
def next (begun : Begun) (b : Nat) : List Char × Option Begun :=
  if begun.low ≤ b ∧ b ≤ begun.high then
    let bits := begun.bits * 0x40 + (b - 0x80)
    if begun.need ≤ 1 then ([Char.ofNat bits], none)
    else ([], some { bits, need := begun.need - 1 })
  else
    let (chars, again) := first b
    (replacement :: chars, again)

def decodeFrom : Option Begun → Bytes → List Char
  | none, [] => []
  | some _, [] => [replacement]
  | none, b :: rest =>
    let (chars, begun) := first b.toNat
    chars ++ decodeFrom begun rest
  | some begun, b :: rest =>
    let (chars, begun) := next begun b.toNat
    chars ++ decodeFrom begun rest

end Utf8

namespace Bytes

/-- The text of the bytes. -/
def text (source : Bytes) : String := String.ofList (Utf8.decodeFrom none source)

def ofText (text : String) : Bytes := text.toUTF8.toList

end Bytes

end NullGuard
