import Mathlib.Data.List.Forall2
import NullGuard.Text.Json

/-!
What a JSON text says. The grammar of JSON documents, with blanks wherever they may stand and with every
way to write a character, relates a text to the value that it spells. The text that is rendered for a
value spells that value.
-/
namespace NullGuard.JsonValue

/-- The value of a hexadecimal digit. -/
def hexDigit? (c : Char) : Option Nat :=
  if '0' ≤ c ∧ c ≤ '9' then some (c.toNat - 48)
  else if 'a' ≤ c ∧ c ≤ 'f' then some (c.toNat - 87)
  else if 'A' ≤ c ∧ c ≤ 'F' then some (c.toNat - 55)
  else none

/-- A code unit of sixteen bits by four hexadecimal digits. -/
inductive SpellsUnit : Nat → List Char → Prop
  | digits {a b c d : Char} {i j k l : Nat} (first : hexDigit? a = some i)
      (second : hexDigit? b = some j) (third : hexDigit? c = some k) (fourth : hexDigit? d = some l) :
      SpellsUnit (((i * 16 + j) * 16 + k) * 16 + l) ['\\', 'u', a, b, c, d]

/-- The escapes of one letter, with the characters that they stand for. -/
def letters : List (Char × Char) :=
  [('"', '"'), ('\\', '\\'), ('/', '/'), ('b', Char.ofNat 0x08), ('f', Char.ofNat 0x0c), ('n', '\n'),
    ('r', '\r'), ('t', '\t')]

/-- Characters and what stands for them between quotes. -/
inductive SpellsChars : List Char → List Char → Prop
  | nil : SpellsChars [] []
  | plain {c : Char} {cs text : List Char} (visible : 0x20 ≤ c.toNat) (quote : c ≠ '"')
      (escape : c ≠ '\\') (rest : SpellsChars cs text) : SpellsChars (c :: cs) (c :: text)
  | letter {c letter : Char} {cs text : List Char} (short : (letter, c) ∈ letters)
      (rest : SpellsChars cs text) : SpellsChars (c :: cs) ('\\' :: letter :: text)
  | unit {c : Char} {cs escape text : List Char} (spelled : SpellsUnit c.toNat escape)
      (rest : SpellsChars cs text) : SpellsChars (c :: cs) (escape ++ text)
  | pair {c : Char} {cs first second text : List Char} {high low : Nat} (small : high < 0x400)
      (small' : low < 0x400) (sum : c.toNat = 0x10000 + high * 0x400 + low)
      (spelled : SpellsUnit (0xd800 + high) first) (spelled' : SpellsUnit (0xdc00 + low) second)
      (rest : SpellsChars cs text) : SpellsChars (c :: cs) (first ++ second ++ text)

def isBlank (c : Char) : Bool := c == ' ' || c == '\t' || c == '\n' || c == '\r'

/-- Texts with commas between them. -/
inductive Separated {α : Type} (spells : α → List Char → Prop) : List α → List Char → Prop
  | last {item : α} {text : List Char} (inner : spells item text) : Separated spells [item] text
  | cons {item : α} {items : List α} {text more : List Char} (inner : spells item text)
      (rest : Separated spells items more) : Separated spells (item :: items) (text ++ ',' :: more)

mutual

/-- A value and a text for it. -/
inductive Spells : JsonValue → List Char → Prop
  | yes : Spells (.bool true) ['t', 'r', 'u', 'e']
  | no : Spells (.bool false) ['f', 'a', 'l', 's', 'e']
  | nat (n : Nat) : Spells (.nat n) (Nat.toDigits 10 n)
  | text {value : String} {chars : List Char} (inner : SpellsChars value.toList chars) :
      Spells (.text value) ('"' :: chars ++ ['"'])
  | noItems : Spells (.list []) ['[', ']']
  | list {items : List JsonValue} {text : List Char} (inner : Separated Spells items text) :
      Spells (.list items) ('[' :: text ++ [']'])
  | noFields : Spells (.object []) ['\x7b', '\x7d']
  | object {fields : List (String × JsonValue)} {text : List Char}
      (inner : Separated SpellsField fields text) :
      Spells (.object fields) ('\x7b' :: text ++ ['\x7d'])
  | padded {value : JsonValue} {before text after : List Char} (blank : before.all isBlank = true)
      (blank' : after.all isBlank = true) (inner : Spells value text) :
      Spells value (before ++ text ++ after)

/-- A field of an object, by its name and its value. -/
inductive SpellsField : String × JsonValue → List Char → Prop
  | field {name : String} {value : JsonValue} {title text : List Char}
      (named : Spells (.text name) title) (inner : Spells value text) :
      SpellsField (name, value) (title ++ ':' :: text)

end

/-! Characters. -/

/-- A digit more at the end of a number in hexadecimal. -/
theorem hex_succ {width : Nat} (wide : 0 < width) (n : Nat) :
    Text.hex (width + 1) n = Text.hex width (n / 16) ++ [Nat.digitChar (n % 16)] := by
  unfold Text.hex
  by_cases small : n < 16
  · have none : n / 16 = 0 := Nat.div_eq_of_lt small
    rw [none, Nat.mod_eq_of_lt small, Nat.toDigits_of_lt_base small,
      Nat.toDigits_of_lt_base (show 0 < 16 by decide)]
    obtain ⟨k, rfl⟩ := Nat.exists_eq_add_of_lt wide
    simp only [List.length_singleton, Nat.add_sub_cancel, Nat.zero_add]
    rw [List.replicate_succ']
    rfl
  · rw [Nat.toDigits_of_base_le (by decide) (Nat.le_of_not_lt small)]
    simp only [List.length_append, List.length_singleton, Nat.add_sub_add_right, List.append_assoc]

theorem hexDigit?_digitChar : ∀ d < 16, hexDigit? (Nat.digitChar d) = some d := by decide

theorem spellsUnit_unit {n : Nat} (small : n < 0x10000) : SpellsUnit n (unit n) := by
  have last : Text.hex 1 (n / 16 / 16 / 16) = [Nat.digitChar (n / 16 / 16 / 16)] := by
    rw [Text.hex, Nat.toDigits_of_lt_base (by omega)]
    rfl
  have all : unit n = ['\\', 'u', Nat.digitChar (n / 16 / 16 / 16), Nat.digitChar (n / 16 / 16 % 16),
      Nat.digitChar (n / 16 % 16), Nat.digitChar (n % 16)] := by
    rw [unit, hex_succ (by decide), hex_succ (by decide), hex_succ (by decide), last]
    rfl
  have value : n = (((n / 16 / 16 / 16) * 16 + n / 16 / 16 % 16) * 16 + n / 16 % 16) * 16 + n % 16 := by
    omega
  have spelled := SpellsUnit.digits (hexDigit?_digitChar (n / 16 / 16 / 16) (by omega))
    (hexDigit?_digitChar (n / 16 / 16 % 16) (Nat.mod_lt _ (by decide)))
    (hexDigit?_digitChar (n / 16 % 16) (Nat.mod_lt _ (by decide)))
    (hexDigit?_digitChar (n % 16) (Nat.mod_lt _ (by decide)))
  rwa [← value, ← all] at spelled

theorem SpellsChars.escape_append {cs text : List Char} (rest : SpellsChars cs text) (c : Char) :
    SpellsChars (c :: cs) (escape c ++ text) := by
  unfold escape
  split
  next special =>
    rcases special with rfl | rfl
    · exact .letter (by decide) rest
    · exact .letter (by decide) rest
  next common =>
  split
  next is => exact .letter (by rw [is]; decide) rest
  split
  next is => exact .letter (by rw [is]; decide) rest
  split
  next is => exact .letter (by rw [is]; decide) rest
  split
  next is =>
    have is : c = Char.ofNat 0x08 := by rw [← is, Char.ofNat_toNat]
    exact .letter (by rw [is]; decide) rest
  split
  next is =>
    have is : c = Char.ofNat 0x0c := by rw [← is, Char.ofNat_toNat]
    exact .letter (by rw [is]; decide) rest
  split
  next visible =>
    exact .plain visible.1 (fun is => common (.inl is)) (fun is => common (.inr is)) rest
  split
  next small => exact .unit (spellsUnit_unit small) rest
  next large =>
    have bound : c.toNat < 0x110000 := by
      rcases c.valid with low | ⟨-, high⟩
      · exact Nat.lt_trans low (by decide)
      · exact high
    have high : (c.toNat - 0x10000) / 0x400 < 0x400 := by omega
    have low : (c.toNat - 0x10000) % 0x400 < 0x400 := Nat.mod_lt _ (by decide)
    exact .pair high low (by omega) (spellsUnit_unit (by omega)) (spellsUnit_unit (by omega)) rest

theorem spells_quoted (value : String) : Spells (.text value) (quoted value).toList := by
  rw [quoted, String.toList_ofList]
  refine .text ?_
  induction value.toList with
  | nil => exact .nil
  | cons c cs ih => exact ih.escape_append c

/-! Values. -/

theorem blank_newline (level : Nat) : (newline level).toList.all isBlank = true := by
  simp [newline, isBlank]

theorem SpellsField.padded {field : String × JsonValue} {before text after : List Char}
    (blank : before.all isBlank = true) (blank' : after.all isBlank = true)
    (inner : SpellsField field text) : SpellsField field (before ++ text ++ after) := by
  obtain ⟨named, inner⟩ := inner
  have whole := SpellsField.field (.padded blank List.all_nil named) (.padded List.all_nil blank' inner)
  simpa only [List.append_nil, List.nil_append, List.append_assoc, List.cons_append] using whole

/-- Items that each begin on a line of their own. -/
theorem Separated.of_forall₂ {α : Type} {spells : α → List Char → Prop} {before after : List Char}
    (padded : ∀ {item text after}, after.all isBlank = true → spells item text →
      spells item (before ++ text ++ after)) (blank : after.all isBlank = true)
    {item : α} {items : List α} {text : List Char} {texts : List (List Char)}
    (first : spells item text) (rest : List.Forall₂ spells items texts) :
    Separated spells (item :: items)
      (before ++ List.intercalate (',' :: before) (text :: texts) ++ after) := by
  induction rest generalizing item text with
  | nil =>
    rw [List.intercalate_singleton]
    exact .last (padded blank first)
  | cons second rest ih =>
    have whole := Separated.cons (padded List.all_nil first) (ih second)
    simpa only [List.intercalate_cons_cons, List.append_nil, List.append_assoc, List.cons_append]
      using whole

theorem toList_bracketed (level : Nat) (opening closing item : String) (items : List String) :
    (bracketed level opening closing (item :: items)).toList =
      opening.toList ++ ((newline (level + 1)).toList ++
        List.intercalate (',' :: (newline (level + 1)).toList) ((item :: items).map String.toList) ++
        (newline level).toList) ++ closing.toList := by
  simp only [bracketed, List.isEmpty_cons, Bool.false_eq_true, if_false, String.toList_append,
    String.toList_intercalate, List.append_assoc]
  rfl

theorem spells_renderField {value : JsonValue} {text : String} (name : String)
    (inner : Spells value text.toList) :
    SpellsField (name, value) (quoted name ++ ": " ++ text).toList := by
  have whole := SpellsField.field (spells_quoted name)
    (.padded (show [' '].all isBlank = true by decide) List.all_nil inner)
  simpa using whole

mutual

/-- The text of a value spells the value. -/
theorem spells_render (level : Nat) : (value : JsonValue) → Spells value (value.render level).toList
  | bool true => by simpa [render] using Spells.yes
  | bool false => by simpa [render] using Spells.no
  | nat n => by
    rw [render, Nat.toString_eq_repr, Nat.toList_repr]
    exact .nat n
  | text value => by
    rw [render]
    exact spells_quoted value
  | list [] => by simpa [render, renderItems, bracketed] using Spells.noItems
  | list (item :: items) => by
    rw [render, renderItems, toList_bracketed, List.map_cons]
    exact .list (.of_forall₂ (.padded (blank_newline _)) (blank_newline _) (spells_render _ item)
      (spells_renderItems _ items))
  | object [] => by simpa [render, renderFields, bracketed] using Spells.noFields
  | object ((name, value) :: fields) => by
    rw [render, renderFields, toList_bracketed, List.map_cons]
    exact .object (.of_forall₂ (.padded (blank_newline _)) (blank_newline _)
      (spells_renderField name (spells_render _ value)) (spells_renderFields _ fields))

theorem spells_renderItems (level : Nat) : (items : List JsonValue) →
    List.Forall₂ Spells items ((renderItems level items).map String.toList)
  | [] => by
    rw [renderItems]
    exact .nil
  | item :: items => by
    rw [renderItems, List.map_cons]
    exact .cons (spells_render level item) (spells_renderItems level items)

theorem spells_renderFields (level : Nat) : (fields : List (String × JsonValue)) →
    List.Forall₂ SpellsField fields ((renderFields level fields).map String.toList)
  | [] => by
    rw [renderFields]
    exact .nil
  | (name, value) :: fields => by
    rw [renderFields, List.map_cons]
    exact .cons (spells_renderField name (spells_render level value)) (spells_renderFields level fields)

end

end NullGuard.JsonValue
