import Pmkit.Library.Ascii
import Pmkit.Library.Json
import Pmkit.Library.Table

/-!
# The compact text of a JSON value

The text without blanks, with the escapes that JSON asks for.  The fields of an
object are written in the order that a writer arranges them in: a map sorts
them by name, a record leaves them as they are.
-/

namespace JsonValue

def hexDigit (value : Nat) : Char :=
  if value < 10 then
    Char.ofNat ('0'.toNat + value)
  else
    Char.ofNat ('a'.toNat + (value - 10))

def escapeChar (character : Char) : List Char :=
  if character = '"' then
    ['\\', '"']
  else if character = '\\' then
    ['\\', '\\']
  else if character.toNat = 8 then
    ['\\', 'b']
  else if character.toNat = 9 then
    ['\\', 't']
  else if character.toNat = 10 then
    ['\\', 'n']
  else if character.toNat = 12 then
    ['\\', 'f']
  else if character.toNat = 13 then
    ['\\', 'r']
  else if character.toNat < 32 then
    ['\\', 'u', '0', '0', hexDigit (character.toNat / 16),
      hexDigit (character.toNat % 16)]
  else
    [character]

/-- Letters, digits and underscores are written as they are. -/
theorem escapeChar_of_plain
    {letter : Char} (plain : letter.isAlphanum = true ∨ letter = '_') :
    escapeChar letter = [letter] := by
  have above : 48 ≤ letter.toNat ∧ letter ≠ '\\' := by
    rcases plain with alphanumeric | rfl
    · refine ⟨(Ascii.toNat_of_isAlphanum alphanumeric).1, ?_⟩
      rintro rfl
      exact absurd alphanumeric (by decide)
    · decide
  have notQuote : letter ≠ '"' := by
    rintro rfl
    exact absurd above.1 (by decide)
  rw [escapeChar, if_neg notQuote, if_neg above.2, if_neg (by omega),
    if_neg (by omega), if_neg (by omega), if_neg (by omega), if_neg (by omega),
    if_neg (by omega)]

def quote (text : String) : List Char :=
  '"' :: (text.toList.flatMap escapeChar ++ ['"'])

def commaJoin : List (List Char) → List Char
  | [] => []
  | [item] => item
  | item :: rest => item ++ ',' :: commaJoin rest

def fieldText (field : String × List Char) : List Char :=
  quote field.1 ++ ':' :: field.2

section Writer

variable (realText : UInt64 → String)
  (arrange : List (String × List Char) → List (String × List Char))

mutual

def characters : JsonValue → List Char
  | null => "null".toList
  | bool value => (if value then "true" else "false").toList
  | number value => (toString value).toList
  | real bits => (realText bits).toList
  | string value => quote value
  | array items => '[' :: (commaJoin (itemCharacters items) ++ [']'])
  | object fields =>
      '\x7b' :: (commaJoin ((arrange (fieldCharacters fields)).map fieldText) ++
        ['\x7d'])

def itemCharacters : List JsonValue → List (List Char)
  | [] => []
  | item :: rest => characters item :: itemCharacters rest

def fieldCharacters : List (String × JsonValue) → List (String × List Char)
  | [] => []
  | (name, value) :: rest => (name, characters value) :: fieldCharacters rest

end

def compact (value : JsonValue) : String :=
  String.ofList (characters realText arrange value)

end Writer

def sortFields (fields : List (String × List Char)) :
    List (String × List Char) :=
  Table.orderBy (compareOn Prod.fst) fields

theorem mem_commaJoin {items : List (List Char)} {letter : Char}
    (mem : letter ∈ commaJoin items) :
    letter = ',' ∨ ∃ item ∈ items, letter ∈ item := by
  induction items with
  | nil => cases mem
  | cons item rest ih =>
      cases rest with
      | nil => exact .inr ⟨item, List.mem_cons_self, mem⟩
      | cons next rest =>
          rw [commaJoin, List.mem_append, List.mem_cons] at mem
          · rcases mem with inside | comma | later
            · exact .inr ⟨item, List.mem_cons_self, inside⟩
            · exact .inl comma
            · rcases ih later with comma | ⟨other, isIn, has⟩
              · exact .inl comma
              · exact .inr ⟨other, List.mem_cons_of_mem item isIn, has⟩
          · simp

theorem commaJoin_cons (item : List Char) (rest : List (List Char)) :
    ∃ more, commaJoin (item :: rest) = item ++ more := by
  cases rest with
  | nil => exact ⟨[], by simp [commaJoin]⟩
  | cons next rest => exact ⟨',' :: commaJoin (next :: rest), rfl⟩

variable {name : String} {fields : List (String × JsonValue)}

/-- A name without quotes, backslashes and control characters is written as it
is. -/
theorem quote_of_plain
    (plain : ∀ letter ∈ name.toList, escapeChar letter = [letter]) :
    quote name = '"' :: (name.toList ++ ['"']) := by
  have same : name.toList.flatMap escapeChar = name.toList := by
    rw [List.flatMap_congr plain]
    simp
  rw [quote, same]

variable {realText : UInt64 → String}
  {arrange : List (String × List Char) → List (String × List Char)}

theorem compact_object_of_head {value : List Char}
    (plain : ∀ letter ∈ name.toList, escapeChar letter = [letter])
    (first : (arrange (fieldCharacters realText arrange fields)).head? =
      some (name, value)) :
    ∃ more, compact realText arrange (object fields) =
      "\x7b\"" ++ name ++ "\":" ++ more := by
  obtain ⟨rest, arranged⟩ := List.head?_eq_some_iff.mp first
  obtain ⟨more, joined⟩ := commaJoin_cons (fieldText (name, value))
    (rest.map fieldText)
  refine ⟨String.ofList (value ++ more ++ ['\x7d']), ?_⟩
  rw [compact, characters, arranged, List.map_cons, joined, fieldText,
    quote_of_plain plain]
  apply String.toList_inj.mp
  simp

/-- The names of the written fields are those of the object. -/
theorem mem_fieldCharacters {written : String × List Char}
    (mem : written ∈ fieldCharacters realText arrange fields) :
    ∃ field ∈ fields, field.1 = written.1 := by
  induction fields with
  | nil =>
      cases mem
  | cons field rest ih =>
      obtain ⟨name, value⟩ := field
      rw [fieldCharacters] at mem
      rcases List.mem_cons.mp mem with rfl | later
      · exact ⟨(name, value), List.mem_cons_self, rfl⟩
      · obtain ⟨other, inside, same⟩ := ih later
        exact ⟨other, List.mem_cons_of_mem _ inside, same⟩

theorem head?_sortFields {value : JsonValue} {rest : List (String × JsonValue)}
    (least : ∀ other ∈ rest, compare name other.1 = .lt) :
    (sortFields (fieldCharacters realText arrange
      ((name, value) :: rest))).head? =
        some (name, characters realText arrange value) := by
  rw [fieldCharacters]
  apply Table.head?_orderBy List.mem_cons_self
  intro written mem ne
  rcases List.mem_cons.mp mem with rfl | later
  · exact absurd rfl ne
  · obtain ⟨other, inside, same⟩ := mem_fieldCharacters later
    show compare name written.1 = .lt
    rw [← same]
    exact least other inside

end JsonValue
