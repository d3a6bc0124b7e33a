import Pmkit.Library.Delimited
import Pmkit.Library.JsonText

/-!
# Reading a compact text

A reader of the compact text of a value, by recursive descent.  The fuel bounds
how often it calls itself, and the length of the text is enough.
-/

namespace JsonRead

open JsonValue

/-! ## Strings -/

def hexValue (digit : Char) : Nat :=
  if digit.isDigit then
    digit.toNat - '0'.toNat
  else
    digit.toNat - 'a'.toNat + 10

def escapes : List (Char × Char) :=
  [('"', '"'), ('\\', '\\'), ('/', '/'), ('b', Char.ofNat 8),
    ('t', Char.ofNat 9), ('n', Char.ofNat 10), ('f', Char.ofNat 12),
    ('r', Char.ofNat 13)]

def readLetter : List Char → Option (Char × List Char)
  | [] => none
  | first :: rest =>
      if first = '\\' then
        match rest with
        | [] => none
        | escape :: more =>
            if escape = 'u' then
              match more with
              | a :: b :: c :: d :: after =>
                  some (Char.ofNat (((hexValue a * 16 + hexValue b) * 16 +
                    hexValue c) * 16 + hexValue d), after)
              | _ => none
            else
              (escapes.lookup escape).map fun letter => (letter, more)
      else
        some (first, rest)

def readString : Nat → List Char → Option (List Char × List Char)
  | 0, _ => none
  | _ + 1, [] => none
  | fuel + 1, first :: rest =>
      if first = '"' then
        some ([], rest)
      else
        match readLetter (first :: rest) with
        | none => none
        | some (letter, more) =>
            (readString fuel more).map fun read => (letter :: read.1, read.2)

section Strings

theorem hexValue_hexDigit {value : Nat} (small : value < 16) :
    hexValue (hexDigit value) = value := by
  have each : ∀ value < 16, hexValue (hexDigit value) = value := by
    decide
  exact each value small

theorem readLetter_escapeChar (letter : Char) (rest : List Char) :
    readLetter (escapeChar letter ++ rest) = some (letter, rest) := by
  have short : ∀ escape code, escape ≠ 'u' →
      escapes.lookup escape = some (Char.ofNat code) → letter.toNat = code →
      readLetter (['\\', escape] ++ rest) = some (letter, rest) := by
    intro escape code notHex found isCode
    have letters : letter = Char.ofNat code := by
      rw [← isCode, Char.ofNat_toNat]
    simp [readLetter, notHex, found, letters]
  unfold escapeChar
  split
  · rename_i isQuote
    exact short '"' 34 (by decide) (by decide) (by rw [isQuote]; rfl)
  split
  · rename_i _ isBackslash
    exact short '\\' 92 (by decide) (by decide) (by rw [isBackslash]; rfl)
  split
  · exact short 'b' 8 (by decide) (by decide) ‹_›
  split
  · exact short 't' 9 (by decide) (by decide) ‹_›
  split
  · exact short 'n' 10 (by decide) (by decide) ‹_›
  split
  · exact short 'f' 12 (by decide) (by decide) ‹_›
  split
  · exact short 'r' 13 (by decide) (by decide) ‹_›
  split
  · rename_i small
    have zero : hexValue '0' = 0 := by decide
    have code : letter.toNat / 16 * 16 + letter.toNat % 16 = letter.toNat := by
      omega
    simp [readLetter, zero, hexValue_hexDigit (show letter.toNat / 16 < 16 by
      omega), hexValue_hexDigit (show letter.toNat % 16 < 16 by omega), code]
  · rename_i _ notBackslash _ _ _ _ _ _
    simp [readLetter, notBackslash]

/-- An escaped character does not start with a quote. -/
theorem escapeChar_head (letter : Char) :
    ∃ first rest, escapeChar letter = first :: rest ∧ first ≠ '"' := by
  by_cases isQuote : letter = '"'
  · exact ⟨'\\', ['"'], by rw [isQuote]; rfl, by decide⟩
  · unfold escapeChar
    rw [if_neg isQuote]
    repeat' split
    all_goals exact ⟨_, _, rfl, by first | exact isQuote | decide⟩

/-- A quoted text is read back. -/
theorem readString_escaped
    (letters rest : List Char) {fuel : Nat} (enough : letters.length < fuel) :
    readString fuel (letters.flatMap escapeChar ++ '"' :: rest) =
      some (letters, rest) := by
  induction letters generalizing fuel with
  | nil =>
      obtain ⟨less, rfl⟩ := Nat.exists_eq_succ_of_ne_zero (by omega :
        fuel ≠ 0)
      simp [readString]
  | cons letter letters ih =>
      rw [List.length_cons] at enough
      obtain ⟨less, rfl⟩ := Nat.exists_eq_succ_of_ne_zero (by omega :
        fuel ≠ 0)
      obtain ⟨first, more, escaped, notQuote⟩ := escapeChar_head letter
      have read := readLetter_escapeChar letter
        (letters.flatMap escapeChar ++ '"' :: rest)
      rw [escaped, List.cons_append] at read
      rw [List.flatMap_cons, List.append_assoc, escaped, List.cons_append,
        readString, if_neg notQuote, read]
      simp only [ih (by omega : letters.length < less),
        Option.map_some]

end Strings

def readDigits (text : List Char) : Option (Nat × List Char) :=
  if text.takeWhile Char.isDigit = [] then
    none
  else
    some (Nat.ofDigitChars 10 (text.takeWhile Char.isDigit) 0,
      text.dropWhile Char.isDigit)

def readNumber : List Char → Option (Int × List Char)
  | [] => none
  | first :: rest =>
      if first = '-' then
        (readDigits rest).map fun read => (-(read.1 : Int), read.2)
      else
        (readDigits (first :: rest)).map fun read => ((read.1 : Int), read.2)

/-- No digit follows. -/
def Stops (rest : List Char) : Prop :=
  ∀ letter ∈ rest.head?, letter.isDigit = false

section Numbers

variable {rest : List Char}

theorem stops_cons {letter : Char}
    (notDigit : letter.isDigit = false) : Stops (letter :: rest) := by
  rintro other ⟨⟩
  exact notDigit

theorem readDigits_toDigits (number : Nat) (stops : Stops rest) :
    readDigits (Nat.toDigits 10 number ++ rest) = some (number, rest) := by
  have digits : ∀ letter ∈ Nat.toDigits 10 number, letter.isDigit = true :=
    fun letter mem =>
      Nat.isDigit_of_mem_toDigits (by decide) (by decide) mem
  have before : rest.takeWhile Char.isDigit = [] := by
    cases rest with
    | nil => rfl
    | cons letter rest =>
        rw [List.takeWhile_cons, stops letter rfl]
        rfl
  have after : rest.dropWhile Char.isDigit = rest := by
    cases rest with
    | nil => rfl
    | cons letter rest =>
        rw [List.dropWhile_cons, stops letter rfl]
        rfl
  rw [readDigits, List.takeWhile_append_of_pos digits, before, List.append_nil,
    List.dropWhile_append_of_pos digits, after,
    if_neg Nat.toDigits_ne_nil, Nat.ofDigitChars_ten_toDigits]

theorem readNumber_toString (value : Int) (stops : Stops rest) :
    readNumber ((toString value).toList ++ rest) = some (value, rest) := by
  cases value with
  | ofNat number =>
      rw [Delimited.toString_ofNat]
      have read := readDigits_toDigits number stops
      cases digits : Nat.toDigits 10 number with
      | nil => exact absurd digits Nat.toDigits_ne_nil
      | cons first more =>
          have notMinus : first ≠ '-' := by
            rintro rfl
            exact Delimited.minus_not_mem_toDigits number
              (digits ▸ List.mem_cons_self)
          rw [digits, List.cons_append] at read
          rw [List.cons_append, readNumber, if_neg notMinus, read]
          rfl
  | negSucc number =>
      rw [Delimited.toString_negSucc, List.cons_append, readNumber,
        if_pos rfl, readDigits_toDigits (number + 1) stops]
      rfl

end Numbers

def skip (fixed text : List Char) : Option (List Char) :=
  if fixed.isPrefixOf text then some (text.drop fixed.length) else none

def readFixed (fixed : List Char) (value : JsonValue) (text : List Char) :
    Option (JsonValue × List Char) :=
  (skip fixed text).map fun rest => (value, rest)

mutual

def readValue : Nat → List Char → Option (JsonValue × List Char)
  | 0, _ => none
  | _ + 1, [] => none
  | fuel + 1, first :: rest =>
      if first = '"' then
        (readString fuel rest).map fun read =>
          (string (String.ofList read.1), read.2)
      else if first = '[' then
        match skip [']'] rest with
        | some more => some (array [], more)
        | none =>
            (readItems fuel rest).map fun read => (array read.1, read.2)
      else if first = '\x7b' then
        match skip ['\x7d'] rest with
        | some more => some (object [], more)
        | none =>
            (readFields fuel rest).map fun read => (object read.1, read.2)
      else if first = 'n' then
        readFixed "ull".toList null rest
      else if first = 't' then
        readFixed "rue".toList (bool true) rest
      else if first = 'f' then
        readFixed "alse".toList (bool false) rest
      else
        (readNumber (first :: rest)).map fun read => (number read.1, read.2)

def readItems : Nat → List Char → Option (List JsonValue × List Char)
  | 0, _ => none
  | fuel + 1, text =>
      match readValue fuel text with
      | none => none
      | some (item, rest) =>
          match skip [','] rest with
          | some more =>
              (readItems fuel more).map fun read => (item :: read.1, read.2)
          | none => (skip [']'] rest).map fun more => ([item], more)

def readFields :
    Nat → List Char → Option (List (String × JsonValue) × List Char)
  | 0, _ => none
  | fuel + 1, text =>
      match (skip ['"'] text).bind (readString fuel) with
      | none => none
      | some (name, named) =>
          match (skip [':'] named).bind (readValue fuel) with
          | none => none
          | some (value, rest) =>
              match skip [','] rest with
              | some more =>
                  (readFields fuel more).map fun read =>
                    ((String.ofList name, value) :: read.1, read.2)
              | none =>
                  (skip ['\x7d'] rest).map fun more =>
                    ([(String.ofList name, value)], more)

end

/-- A whole text, after which nothing may stand but line ends and blanks. -/
def parse (text : List Char) : Option JsonValue :=
  match readValue text.length text with
  | none => none
  | some (value, rest) =>
      if rest.all fun letter => letter = '\n' ∨ letter = ' ' ∨
          letter = '\t' ∨ letter = '\r' then
        some value
      else
        none

/-! ## Round trips -/

section RoundTrips

variable (realText : UInt64 → String)
  (arrange : List (String × List Char) → List (String × List Char))

mutual

/-- A value without reals, whose fields stand in the order in which they are
written. -/
def Readable : JsonValue → Prop
  | .null | .bool _ | .number _ | .string _ => True
  | .real _ => False
  | .array items => ReadableItems items
  | .object fields =>
      arrange (fieldCharacters realText arrange fields) =
          fieldCharacters realText arrange fields ∧
        ReadableFields fields

def ReadableItems : List JsonValue → Prop
  | [] => True
  | item :: rest => Readable item ∧ ReadableItems rest

def ReadableFields : List (String × JsonValue) → Prop
  | [] => True
  | (_, value) :: rest => Readable value ∧ ReadableFields rest

end

def fieldsText (fields : List (String × JsonValue)) : List Char :=
  commaJoin ((fieldCharacters realText arrange fields).map fieldText)

structure ReadsAt (fuel : Nat) : Prop where
  value : ∀ value rest, Readable realText arrange value →
    (characters realText arrange value).length ≤ fuel → Stops rest →
    readValue fuel (characters realText arrange value ++ rest) =
      some (value, rest)
  items : ∀ items rest, items ≠ [] → ReadableItems realText arrange items →
    (commaJoin (itemCharacters realText arrange items)).length < fuel →
    readItems fuel (commaJoin (itemCharacters realText arrange items) ++
      ']' :: rest) = some (items, rest)
  fields : ∀ fields rest, fields ≠ [] →
    ReadableFields realText arrange fields →
    (fieldsText realText arrange fields).length < fuel →
    readFields fuel (fieldsText realText arrange fields ++ '\x7d' :: rest) =
      some (fields, rest)

variable {realText : UInt64 → String}
  {arrange : List (String × List Char) → List (String × List Char)}

theorem skip_self (fixed rest : List Char) :
    skip fixed (fixed ++ rest) = some rest := by
  rw [skip, if_pos (List.isPrefixOf_iff_prefix.mpr (List.prefix_append _ _)),
    List.drop_left]

theorem skip_cons_self (letter : Char) (rest : List Char) :
    skip [letter] (letter :: rest) = some rest :=
  skip_self [letter] rest

theorem skip_cons_ne {letter first : Char} (ne : letter ≠ first)
    (rest : List Char) : skip [letter] (first :: rest) = none := by
  simp [skip, List.isPrefixOf, ne]

theorem readFixed_self (fixed rest : List Char) (value : JsonValue) :
    readFixed fixed value (fixed ++ rest) = some (value, rest) := by
  rw [readFixed, skip_self]
  rfl

/-- A number starts with a digit or a sign. -/
theorem toString_head (value : Int) :
    ∃ first more, (toString value).toList = first :: more ∧
      (first = '-' ∨ first.isDigit = true) := by
  cases text : (toString value).toList with
  | nil =>
      cases value with
      | ofNat number =>
          rw [Delimited.toString_ofNat] at text
          exact absurd text Nat.toDigits_ne_nil
      | negSucc number =>
          rw [Delimited.toString_negSucc] at text
          cases text
  | cons first more =>
      have mem : first ∈ (toString value).toList := by
        rw [text]
        exact List.mem_cons_self
      exact ⟨first, more, rfl, Delimited.letter_of_mem_toString mem⟩

/-- A value does not start with a closing bracket. -/
theorem characters_head
    {value : JsonValue} (readable : Readable realText arrange value) :
    ∃ first more, characters realText arrange value = first :: more ∧
      first ≠ ']' := by
  cases value with
  | null => exact ⟨'n', "ull".toList, rfl, by decide⟩
  | bool value =>
      cases value with
      | true => exact ⟨'t', "rue".toList, rfl, by decide⟩
      | false => exact ⟨'f', "alse".toList, rfl, by decide⟩
  | number value =>
      obtain ⟨first, more, text, kind⟩ := toString_head value
      refine ⟨first, more, text, ?_⟩
      rintro rfl
      rcases kind with minus | digit
      · exact absurd minus (by decide)
      · exact absurd digit (by decide)
  | real bits => exact absurd readable id
  | string text => exact ⟨'"', _, rfl, by decide⟩
  | array items => exact ⟨'[', _, rfl, by decide⟩
  | object fields => exact ⟨'\x7b', _, rfl, by decide⟩

theorem length_flatMap_escapeChar (letters : List Char) :
    letters.length ≤ (letters.flatMap escapeChar).length := by
  induction letters with
  | nil => exact Nat.le_refl _
  | cons letter rest ih =>
      obtain ⟨first, more, escaped, _⟩ := escapeChar_head letter
      rw [List.flatMap_cons, escaped, List.length_append, List.length_cons,
        List.length_cons]
      omega

/-- A quoted text is read back behind its opening quote. -/
theorem readString_text (text : String) (rest : List Char) {fuel : Nat}
    (enough : (text.toList.flatMap escapeChar).length < fuel) :
    readString fuel (text.toList.flatMap escapeChar ++ '"' :: rest) =
      some (text.toList, rest) :=
  readString_escaped _ _
    (Nat.lt_of_le_of_lt (length_flatMap_escapeChar _) enough)

variable {fuel : Nat} {rest : List Char}

theorem readValue_step
    (reads : ReadsAt realText arrange fuel) {value : JsonValue}
    (readable : Readable realText arrange value)
    (enough : (characters realText arrange value).length ≤ fuel + 1)
    (stops : Stops rest) :
    readValue (fuel + 1) (characters realText arrange value ++ rest) =
      some (value, rest) := by
  cases value with
  | null => exact readFixed_self "ull".toList rest null
  | bool value =>
      cases value with
      | true => exact readFixed_self "rue".toList rest (.bool true)
      | false => exact readFixed_self "alse".toList rest (.bool false)
  | number value =>
      obtain ⟨first, more, text, kind⟩ := toString_head value
      have read := readNumber_toString value stops
      have apart : first ≠ '"' ∧ first ≠ '[' ∧ first ≠ '\x7b' ∧
          first ≠ 'n' ∧ first ≠ 't' ∧ first ≠ 'f' := by
        refine ⟨?_, ?_, ?_, ?_, ?_, ?_⟩
        all_goals
          rintro rfl
          rcases kind with minus | digit
          · exact absurd minus (by decide)
          · exact absurd digit (by decide)
      obtain ⟨quote, bracket, brace, isNull, isTrue, isFalse⟩ := apart
      rw [characters, text, List.cons_append, readValue, if_neg quote,
        if_neg bracket, if_neg brace, if_neg isNull, if_neg isTrue,
        if_neg isFalse]
      rw [text, List.cons_append] at read
      rw [read]
      rfl
  | real bits => exact absurd readable id
  | string text =>
      rw [characters, quote, List.length_cons, List.length_append] at enough
      have read := @readString_text text rest fuel (by
        simp only [List.length_singleton] at enough
        omega)
      rw [characters, quote, List.cons_append, List.append_assoc, readValue,
        if_pos rfl, List.singleton_append, read, Option.map_some,
        String.ofList_toList]
  | array items =>
      rw [characters, List.length_cons, List.length_append] at enough
      simp only [List.length_singleton] at enough
      rw [characters, List.cons_append, List.append_assoc, readValue,
        if_neg (by decide), if_pos rfl, List.singleton_append]
      cases items with
      | nil => rfl
      | cons item items =>
          have read := reads.items (item :: items) rest (by simp) readable
            (by omega)
          obtain ⟨first, more, text, notBracket⟩ := characters_head
            readable.1
          obtain ⟨tail, joined⟩ := commaJoin_cons
            (characters realText arrange item)
            (itemCharacters realText arrange items)
          rw [itemCharacters, joined, text] at read ⊢
          rw [List.cons_append, List.cons_append] at read ⊢
          rw [skip_cons_ne notBracket.symm, read]
          rfl
  | object fields =>
      rw [characters, readable.1, List.length_cons, List.length_append]
        at enough
      simp only [List.length_singleton] at enough
      rw [characters, readable.1, List.cons_append, List.append_assoc,
        readValue, if_neg (by decide), if_neg (by decide), if_pos rfl,
        List.singleton_append]
      cases fields with
      | nil => rfl
      | cons field fields =>
          obtain ⟨name, value⟩ := field
          have read := reads.fields ((name, value) :: fields) rest (by simp)
            readable.2 (by unfold fieldsText; omega)
          obtain ⟨tail, joined⟩ := commaJoin_cons
            (fieldText (name, characters realText arrange value))
            ((fieldCharacters realText arrange fields).map fieldText)
          rw [fieldsText] at read
          rw [fieldCharacters, List.map_cons, joined, fieldText, quote]
            at read ⊢
          simp only [List.cons_append] at read ⊢
          rw [skip_cons_ne (by decide), read]
          rfl

theorem readItems_step (reads : ReadsAt realText arrange fuel)
    {items : List JsonValue} (filled : items ≠ [])
    (readable : ReadableItems realText arrange items)
    (enough : (commaJoin (itemCharacters realText arrange items)).length <
      fuel + 1) :
    readItems (fuel + 1) (commaJoin (itemCharacters realText arrange items) ++
      ']' :: rest) = some (items, rest) := by
  cases items with
  | nil => exact absurd rfl filled
  | cons item items =>
      cases items with
      | nil =>
          simp only [itemCharacters, commaJoin] at enough ⊢
          have read := reads.value item (']' :: rest) readable.1 (by omega)
            (stops_cons (by decide))
          rw [readItems, read]
          simp only [skip_cons_ne (show ',' ≠ ']' by decide), skip_cons_self,
            Option.map_some]
      | cons next items =>
          have more : next :: items ≠ [] := List.cons_ne_nil next items
          rw [itemCharacters, itemCharacters, commaJoin] at enough ⊢
          · rw [← itemCharacters] at enough ⊢
            obtain ⟨first, tail, text, _⟩ := characters_head readable.1
            have size := congrArg List.length text
            rw [List.length_cons] at size
            rw [List.length_append, List.length_cons] at enough
            have read := reads.value item (',' ::
              (commaJoin (itemCharacters realText arrange (next :: items)) ++
                ']' :: rest)) readable.1 (by omega) (stops_cons (by decide))
            have later := reads.items (next :: items) rest more readable.2
              (by omega)
            rw [List.append_assoc, List.cons_append, readItems, read]
            simp only [skip_cons_self, later, Option.map_some]
          · simp
          · simp

theorem readFields_step (reads : ReadsAt realText arrange fuel)
    {fields : List (String × JsonValue)}
    (filled : fields ≠ [])
    (readable : ReadableFields realText arrange fields)
    (enough : (fieldsText realText arrange fields).length < fuel + 1) :
    readFields (fuel + 1) (fieldsText realText arrange fields ++
      '\x7d' :: rest) = some (fields, rest) := by
  cases fields with
  | nil => exact absurd rfl filled
  | cons field fields =>
      obtain ⟨name, value⟩ := field
      -- What is read of the name and the value, whatever follows.
      have field : ∀ after, Stops after →
          (fieldText (name, characters realText arrange value)).length ≤
            fuel →
          (skip ['"'] (fieldText (name, characters realText arrange value) ++
              after)).bind (readString fuel) =
            some (name.toList, ':' ::
              (characters realText arrange value ++ after)) ∧
          readValue fuel (characters realText arrange value ++ after) =
            some (value, after) := by
        intro after stops fits
        simp only [fieldText, quote, List.length_append, List.length_cons,
          List.length_nil] at fits
        have read := @readString_text name
          (':' :: (characters realText arrange value ++ after)) fuel (by omega)
        refine ⟨?_, reads.value value after readable.1 (by omega) stops⟩
        simp only [fieldText, quote, List.cons_append, List.append_assoc,
          List.nil_append, skip_cons_self, Option.bind_some]
        exact read
      cases fields with
      | nil =>
          simp only [fieldsText, fieldCharacters, List.map_cons, List.map_nil,
            commaJoin] at enough ⊢
          obtain ⟨named, read⟩ := field ('\x7d' :: rest)
            (stops_cons (by decide)) (by omega)
          rw [readFields, named]
          simp only [skip_cons_self, Option.bind_some, read,
            skip_cons_ne (show ',' ≠ '\x7d' by decide), Option.map_some,
            String.ofList_toList]
      | cons next fields =>
          obtain ⟨nextName, nextValue⟩ := next
          have text : fieldsText realText arrange
              ((name, value) :: (nextName, nextValue) :: fields) =
            fieldText (name, characters realText arrange value) ++ ',' ::
              fieldsText realText arrange ((nextName, nextValue) :: fields) := by
            rw [fieldsText, fieldCharacters, fieldCharacters, List.map_cons,
              List.map_cons, commaJoin]
            · rfl
            · simp
          rw [text] at enough ⊢
          rw [List.length_append, List.length_cons] at enough
          have size : 0 < (fieldText (name,
              characters realText arrange value)).length := by
            simp [fieldText, quote]
          obtain ⟨named, read⟩ := field (',' :: (fieldsText realText arrange
            ((nextName, nextValue) :: fields) ++ '\x7d' :: rest))
            (stops_cons (by decide)) (by omega)
          have later := reads.fields ((nextName, nextValue) :: fields) rest
            (List.cons_ne_nil _ _) readable.2 (by omega)
          rw [List.append_assoc, List.cons_append, readFields, named]
          simp only [skip_cons_self, Option.bind_some, read, later,
            Option.map_some, String.ofList_toList]

theorem readsAt (fuel : Nat) : ReadsAt realText arrange fuel := by
  induction fuel with
  | zero =>
      constructor
      · intro value rest readable enough
        obtain ⟨first, more, text, _⟩ := characters_head readable
        rw [text, List.length_cons] at enough
        omega
      · intro items rest _ _ enough
        omega
      · intro fields rest _ _ enough
        omega
  | succ fuel ih =>
      exact
        { value := fun _ _ readable enough stops =>
            readValue_step ih readable enough stops
          items := fun _ _ filled readable enough =>
            readItems_step ih filled readable enough
          fields := fun _ _ filled readable enough =>
            readFields_step ih filled readable enough }

/-- A text is read back, whatever blank stands behind it. -/
theorem parse_characters
    {value : JsonValue} (readable : Readable realText arrange value)
    {rest : List Char} (blank : ∀ letter ∈ rest, letter = '\n') :
    parse (characters realText arrange value ++ rest) = some value := by
  have stops : Stops rest := by
    intro letter first
    rw [blank letter (List.mem_of_mem_head? first)]
    rfl
  have read := (readsAt
    (characters realText arrange value ++ rest).length).value value rest
    readable (by simp) stops
  have noneLeft : (rest.all fun letter => letter = '\n' ∨ letter = ' ' ∨
      letter = '\t' ∨ letter = '\r') = true :=
    List.all_eq_true.mpr fun letter mem =>
      decide_eq_true (Or.inl (blank letter mem))
  rw [parse, read]
  exact if_pos noneLeft

end RoundTrips

/-! ## Lines -/

section Lines

variable {realText : UInt64 → String}
  {arrange : List (String × List Char) → List (String × List Char)}

/-- What stands for a character in a string is no control character. -/
theorem printable_escapeChar (letter : Char) :
    ∀ other ∈ escapeChar letter, 32 ≤ other.toNat := by
  intro other mem
  have short : ∀ escape : Char, 32 ≤ escape.toNat → other ∈ ['\\', escape] →
      32 ≤ other.toNat := by
    intro escape above inside
    rcases List.mem_pair.mp inside with rfl | rfl
    · decide
    · exact above
  have digits : ∀ value < 16, 32 ≤ (hexDigit value).toNat := by
    decide
  unfold escapeChar at mem
  split at mem
  · exact short '"' (by decide) mem
  split at mem
  · exact short '\\' (by decide) mem
  split at mem
  · exact short 'b' (by decide) mem
  split at mem
  · exact short 't' (by decide) mem
  split at mem
  · exact short 'n' (by decide) mem
  split at mem
  · exact short 'f' (by decide) mem
  split at mem
  · exact short 'r' (by decide) mem
  split at mem
  · simp only [List.mem_cons, List.not_mem_nil, or_false] at mem
    rcases mem with rfl | rfl | rfl | rfl | rfl | rfl
    · decide
    · decide
    · decide
    · decide
    · exact digits _ (by omega)
    · exact digits _ (by omega)
  · rename_i above
    rw [List.mem_singleton] at mem
    rw [mem]
    omega

theorem printable_quote (text : String) :
    ∀ letter ∈ quote text, 32 ≤ letter.toNat := by
  intro letter mem
  rw [quote, List.mem_cons, List.mem_append, List.mem_singleton] at mem
  rcases mem with rfl | escaped | rfl
  · decide
  · obtain ⟨other, _, inside⟩ := List.mem_flatMap.mp escaped
    exact printable_escapeChar other letter inside
  · decide

theorem printable_toString (value : Int) :
    ∀ letter ∈ (toString value).toList, 32 ≤ letter.toNat := by
  intro letter mem
  rcases Delimited.letter_of_mem_toString mem with rfl | digit
  · decide
  · rw [Char.isDigit_iff_toNat] at digit
    exact Nat.le_trans (by decide) digit.1

theorem printable_commaJoin {items : List (List Char)}
    (each : ∀ item ∈ items, ∀ letter ∈ item, 32 ≤ letter.toNat) :
    ∀ letter ∈ commaJoin items, 32 ≤ letter.toNat := by
  intro letter mem
  rcases mem_commaJoin mem with rfl | ⟨item, inside, has⟩
  · decide
  · exact each item inside letter has

theorem printable_of_all (letters : List Char)
    (all : letters.all (fun letter => 32 ≤ letter.toNat) = true) :
    ∀ letter ∈ letters, 32 ≤ letter.toNat := by
  simpa using all

mutual

theorem printable_characters : ∀ value : JsonValue,
    Readable realText arrange value →
      ∀ letter ∈ characters realText arrange value, 32 ≤ letter.toNat
  | .null, _ => printable_of_all "null".toList (by decide)
  | .bool true, _ => printable_of_all "true".toList (by decide)
  | .bool false, _ => printable_of_all "false".toList (by decide)
  | .number value, _ => printable_toString value
  | .real _, readable => absurd readable id
  | .string text, _ => printable_quote text
  | .array items, readable => by
      intro letter mem
      rw [characters, List.mem_cons, List.mem_append, List.mem_singleton]
        at mem
      rcases mem with rfl | inside | rfl
      · decide
      · exact printable_commaJoin (printable_items items readable) letter inside
      · decide
  | .object fields, readable => by
      intro letter mem
      rw [characters, readable.1, List.mem_cons, List.mem_append,
        List.mem_singleton] at mem
      rcases mem with rfl | inside | rfl
      · decide
      · refine printable_commaJoin ?_ letter inside
        intro item isField other has
        obtain ⟨field, isIn, rfl⟩ := List.mem_map.mp isField
        rw [fieldText, List.mem_append, List.mem_cons] at has
        rcases has with named | rfl | valued
        · exact printable_quote field.1 other named
        · decide
        · exact printable_fields fields readable.2 field isIn other valued
      · decide

theorem printable_items : ∀ items : List JsonValue,
    ReadableItems realText arrange items →
      ∀ item ∈ itemCharacters realText arrange items,
        ∀ letter ∈ item, 32 ≤ letter.toNat
  | [], _ => by simp [itemCharacters]
  | first :: rest, readable => by
      intro item mem
      rw [itemCharacters] at mem
      rcases List.mem_cons.mp mem with rfl | later
      · exact printable_characters first readable.1
      · exact printable_items rest readable.2 item later

theorem printable_fields : ∀ fields : List (String × JsonValue),
    ReadableFields realText arrange fields →
      ∀ field ∈ fieldCharacters realText arrange fields,
        ∀ letter ∈ field.2, 32 ≤ letter.toNat
  | [], _ => by simp [fieldCharacters]
  | (name, value) :: rest, readable => by
      intro field mem
      rw [fieldCharacters] at mem
      rcases List.mem_cons.mp mem with rfl | later
      · exact printable_characters value readable.1
      · exact printable_fields rest readable.2 field later

end

end Lines

end JsonRead
