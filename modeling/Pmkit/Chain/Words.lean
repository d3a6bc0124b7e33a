import Mathlib.Tactic.IntervalCases
import Pmkit.Chain.Decoder
import Pmkit.Library.Abi
import Pmkit.Library.Fallible

/-!
# The words of raw texts

A text of hexadecimal digits in either case is the number that it writes.  The
parts of the decoder that read words are described by these numbers.
-/

namespace Pmkit

def hexDigit (value : Nat) : Char :=
  if value < 10 then
    Char.ofNat (48 + value)
  else
    Char.ofNat (87 + value)

def hexDigits (width value : Nat) : List Char :=
  (FixedDigits.write 16 width value).map hexDigit

/-- Digits in either case that write a number. -/
structure Writes (width : Nat) (digits : List Char) (value : Nat) : Prop where
  length : digits.length = width
  allDigits : digits.all isHexDigit = true
  value : hexValue digits = value

variable {value : Nat} {digit : Char} {digits : List Char} {text : String}

theorem hexDigit_spec (small : value < 16) :
    isHexDigit (hexDigit value) = true ∧
      hexDigitValue (hexDigit value) = value ∧
      (hexDigit value).toLower = hexDigit value := by
  interval_cases value <;> decide

theorem mem_of_isHexDigit (isDigit : isHexDigit digit = true) :
    digit ∈ "0123456789abcdefABCDEF".toList := by
  have range : (48 ≤ digit.toNat ∧ digit.toNat ≤ 57) ∨
      (97 ≤ digit.toNat ∧ digit.toNat ≤ 102) ∨
        (65 ≤ digit.toNat ∧ digit.toNat ≤ 70) := by
    simp only [isHexDigit, Char.isDigit, Bool.or_eq_true, Bool.and_eq_true,
      decide_eq_true_eq, Char.le_def, ge_iff_le, UInt32.le_iff_toNat_le]
      at isDigit
    simp only [Char.toNat]
    rcases isDigit with (decimal | lower) | upper
    · exact .inl decimal
    · exact .inr (Or.inl lower)
    · exact .inr (Or.inr upper)
  rw [← Char.ofNat_toNat digit]
  generalize digit.toNat = code at range
  rcases range with ⟨low, high⟩ | ⟨low, high⟩ | ⟨low, high⟩ <;>
    interval_cases code <;> decide

theorem hexDigitValue_spec (isDigit : isHexDigit digit = true) :
    hexDigitValue digit < 16 ∧
      digit.toLower = hexDigit (hexDigitValue digit) := by
  have mem := mem_of_isHexDigit isDigit
  simp only [String.reduceToList, List.mem_cons, List.not_mem_nil,
    or_false] at mem
  rcases mem with rfl | rfl | rfl | rfl | rfl | rfl | rfl | rfl | rfl |
    rfl | rfl | rfl | rfl | rfl | rfl | rfl | rfl | rfl | rfl | rfl | rfl |
    rfl <;> decide

theorem toNat_hexDigit (small : value < 16) :
    (hexDigit value).toNat = if value < 10 then 48 + value else 87 + value := by
  interval_cases value <;> rfl

theorem isHexDigit_of_toLower (small : value < 16)
    (lower : digit.toLower = hexDigit value) : isHexDigit digit = true := by
  unfold Char.toLower at lower
  split at lower
  · rename_i upper
    have low : 65 ≤ digit.toNat := UInt32.le_iff_toNat_le.mp upper.1
    have high : digit.toNat ≤ 90 := UInt32.le_iff_toNat_le.mp upper.2
    have shifted : digit.toNat + 32 = (hexDigit value).toNat := by
      rw [← lower]
      change digit.toNat + 32 = (digit.val + 32).toNat
      rw [UInt32.toNat_add]
      change digit.toNat + 32 = (digit.toNat + 32) % 4294967296
      omega
    rw [toNat_hexDigit small] at shifted
    split at shifted
    · omega
    · have code : digit.toNat = value + 55 := by omega
      have letter : 10 ≤ value := by omega
      rw [← Char.ofNat_toNat digit, code]
      interval_cases value <;> decide
  · rw [lower]
    exact (hexDigit_spec small).1

theorem eq_zero_of_toLower (lower : digit.toLower = '0') :
    digit = '0' := by
  unfold Char.toLower at lower
  split at lower
  · rename_i upper
    have low : 65 ≤ digit.toNat := UInt32.le_iff_toNat_le.mp upper.1
    have high : digit.toNat ≤ 90 := UInt32.le_iff_toNat_le.mp upper.2
    have shifted : (digit.val + 32).toNat = 48 := congrArg Char.toNat lower
    rw [UInt32.toNat_add] at shifted
    change (digit.toNat + 32) % 4294967296 = 48 at shifted
    omega
  · exact lower

section Numbers

variable {width value : Nat} {digits : List Char}

theorem hexValue_eq (digits : List Char) :
    hexValue digits = FixedDigits.read 16 (digits.map hexDigitValue) :=
  List.foldl_map.symm

theorem asciiLowercase_of_digits (all : digits.all isHexDigit = true) :
    asciiLowercase digits = (digits.map hexDigitValue).map hexDigit := by
  rw [asciiLowercase, List.map_map]
  apply List.map_congr_left
  intro digit mem
  exact (hexDigitValue_spec (List.all_eq_true.mp all digit mem)).2

theorem hexDigitValue_lt (all : digits.all isHexDigit = true) :
    ∀ digit ∈ digits.map hexDigitValue, digit < 16 := by
  intro value mem
  obtain ⟨digit, inside, rfl⟩ := List.mem_map.mp mem
  exact (hexDigitValue_spec (List.all_eq_true.mp all digit inside)).1

theorem map_hexDigitValue
    {values : List Nat} (small : ∀ value ∈ values, value < 16) :
    (values.map hexDigit).map hexDigitValue = values := by
  rw [List.map_map]
  refine (List.map_congr_left ?_).trans (List.map_id values)
  intro value mem
  exact (hexDigit_spec (small value mem)).2.1

@[simp]
theorem length_hexDigits (width value : Nat) :
    (hexDigits width value).length = width := by
  rw [hexDigits, List.length_map, FixedDigits.length_write]

theorem mem_hexDigits {digit : Char} (mem : digit ∈ hexDigits width value) :
    ∃ digitValue < 16, digit = hexDigit digitValue := by
  obtain ⟨digitValue, inside, rfl⟩ := List.mem_map.mp mem
  exact ⟨digitValue, FixedDigits.lt_of_mem_write (by decide) inside, rfl⟩

/-- Digits that are those of a number in lower case. -/
theorem allDigits_of_lower
    (lower : asciiLowercase digits = hexDigits width value) :
    digits.all isHexDigit = true := by
  rw [List.all_eq_true]
  intro digit mem
  have inside : digit.toLower ∈ hexDigits width value := by
    rw [← lower]
    exact List.mem_map_of_mem mem
  obtain ⟨digitValue, small, same⟩ := mem_hexDigits inside
  exact isHexDigit_of_toLower small same

theorem writes_iff :
    Writes width digits value ↔
      asciiLowercase digits = hexDigits width value ∧ value < 16 ^ width := by
  constructor
  · rintro ⟨rfl, all, rfl⟩
    have small := hexDigitValue_lt all
    rw [asciiLowercase_of_digits all, hexValue_eq, hexDigits]
    have count : digits.length = (digits.map hexDigitValue).length :=
      (List.length_map hexDigitValue).symm
    rw [count]
    exact ⟨congrArg (List.map hexDigit) (FixedDigits.write_read small).symm,
      FixedDigits.read_lt small⟩
  · rintro ⟨lower, fits⟩
    have all := allDigits_of_lower lower
    have length : digits.length = width := by
      rw [← length_hexDigits width value, ← lower, asciiLowercase,
        List.length_map]
    refine ⟨length, all, ?_⟩
    have same := congrArg (List.map hexDigitValue) lower
    rw [asciiLowercase_of_digits all, hexDigits,
      map_hexDigitValue (hexDigitValue_lt all), map_hexDigitValue] at same
    · rw [hexValue_eq, same, FixedDigits.read_write fits]
    · intro digit mem
      exact FixedDigits.lt_of_mem_write (by decide) mem

theorem hexValue_append (first later : List Char) :
    hexValue (first ++ later) =
      hexValue first * 16 ^ later.length + hexValue later := by
  rw [hexValue_eq, hexValue_eq, hexValue_eq, List.map_append,
    FixedDigits.read_append_list, List.length_map]

theorem hexValue_eq_zero_iff (all : digits.all isHexDigit = true) :
    hexValue digits = 0 ↔ digits.all (· = '0') = true := by
  rw [hexValue_eq, FixedDigits.read_eq_zero_iff (by decide), List.all_eq_true]
  constructor
  · intro zeros digit mem
    have zero := zeros _ (List.mem_map_of_mem mem)
    have lower := (hexDigitValue_spec (List.all_eq_true.mp all digit mem)).2
    rw [zero] at lower
    simpa using eq_zero_of_toLower lower
  · intro zeros value mem
    obtain ⟨digit, inside, rfl⟩ := List.mem_map.mp mem
    have zero : digit = '0' := by simpa using zeros digit inside
    rw [zero]
    rfl

end Numbers

/-! ## Texts -/

def SameUpToHexCase (text other : String) : Prop :=
  List.Forall₂ (fun character lower => character = lower ∨
      isHexDigit character = true ∧ character.toLower = lower)
    text.toList other.toList

def wordsText (words : List Nat) : String :=
  String.ofList ('0' :: 'x' :: words.flatMap (hexDigits 64))

def WritesWords (digits : List Char) (words : List Nat) : Prop :=
  asciiLowercase digits = words.flatMap (hexDigits 64)

theorem sameUpToHexCase_digits {words : List Nat} :
    List.Forall₂ (fun character lower => character = lower ∨
        isHexDigit character = true ∧ character.toLower = lower)
      digits (words.flatMap (hexDigits 64)) ↔ WritesWords digits words := by
  have lowers : ∀ lower ∈ words.flatMap (hexDigits 64),
      ∃ value < 16, lower = hexDigit value := by
    intro lower mem
    obtain ⟨word, _, inside⟩ := List.mem_flatMap.mp mem
    exact mem_hexDigits inside
  unfold WritesWords asciiLowercase
  generalize words.flatMap (hexDigits 64) = written at lowers
  rw [← List.forall₂_eq_eq_eq, List.forall₂_map_left_iff]
  induction written generalizing digits with
  | nil =>
      rw [List.forall₂_nil_right_iff, List.forall₂_nil_right_iff]
  | cons lower rest ih =>
      obtain ⟨value, small, rfl⟩ := lowers lower List.mem_cons_self
      cases digits with
      | nil =>
          constructor <;> intro no <;> cases no
      | cons digit digits =>
          rw [List.forall₂_cons, List.forall₂_cons]
          apply and_congr
          · constructor
            · rintro (rfl | ⟨_, same⟩)
              · exact (hexDigit_spec small).2.2
              · exact same
            · intro same
              exact .inr ⟨isHexDigit_of_toLower small same, same⟩
          · exact ih fun other mem =>
              lowers other (List.mem_cons_of_mem _ mem)

theorem stripHexPrefix_eq_some :
    stripHexPrefix text = some digits ↔ text.toList = '0' :: 'x' :: digits := by
  unfold stripHexPrefix
  split
  · rename_i rest found
    rw [found]
    simp
  · rename_i other
    constructor
    · intro no
      cases no
    · intro found
      exact absurd found (other digits)

theorem hexDigit_ne_x (small : value < 16) :
    hexDigit value ≠ 'x' := by
  interval_cases value <;> decide

theorem sameUpToHexCase_wordsText {words : List Nat} :
    SameUpToHexCase text (wordsText words) ↔
      ∃ digits, stripHexPrefix text = some digits ∧
        WritesWords digits words := by
  simp only [stripHexPrefix_eq_some, ← sameUpToHexCase_digits]
  rw [SameUpToHexCase, wordsText, String.toList_ofList]
  constructor
  · intro same
    cases found : text.toList with
    | nil =>
        rw [found] at same
        cases same
    | cons first rest =>
        rw [found, List.forall₂_cons] at same
        cases rest with
        | nil => cases same.2
        | cons second digits =>
            rw [List.forall₂_cons] at same
            obtain ⟨zero, marker, later⟩ := same
            have isZero : first = '0' := by
              rcases zero with same | ⟨_, lower⟩
              · exact same
              · exact eq_zero_of_toLower lower
            have isMarker : second = 'x' := by
              rcases marker with same | ⟨isDigit, lower⟩
              · exact same
              · obtain ⟨small, spelled⟩ := hexDigitValue_spec isDigit
                rw [lower] at spelled
                exact absurd spelled.symm (hexDigit_ne_x small)
            exact ⟨digits, by rw [isZero, isMarker], later⟩
  · rintro ⟨digits, found, later⟩
    rw [found, List.forall₂_cons, List.forall₂_cons]
    exact ⟨Or.inl rfl, Or.inl rfl, later⟩

def wordBound : Nat :=
  16 ^ 64

def addressBound : Nat :=
  16 ^ 40

/-- One word in either case. -/
abbrev WritesWord : List Char → Nat → Prop :=
  Writes 64

theorem writesWords_singleton {word : Nat} (fits : word < wordBound) :
    WritesWords digits [word] ↔ WritesWord digits word := by
  change _ ↔ Writes 64 digits word
  rw [writes_iff, WritesWords, List.flatMap_singleton]
  exact (and_iff_left fits).symm

theorem abiWord_eq_ok {word : List Char} :
    abiWord text = .ok word ↔ stripHexPrefix text = some word ∧
      word.length = 64 ∧ word.all isHexDigit = true := by
  unfold abiWord
  cases stripHexPrefix text with
  | none => simp
  | some digits =>
      by_cases bad : digits.length ≠ 64 ∨ digits.all isHexDigit = false
      · simp only [if_pos bad]
        constructor
        · intro no
          cases no
        · rintro ⟨same, length, all⟩
          cases same
          rcases bad with other | other
          · exact absurd length other
          · rw [all] at other
            cases other
      · simp only [if_neg bad]
        rw [not_or, not_not, Bool.not_eq_false] at bad
        constructor
        · intro same
          cases same
          exact ⟨rfl, bad⟩
        · rintro ⟨same, _⟩
          cases same
          rfl

theorem abiWord_writes {word : Nat} (fits : word < wordBound) :
    (∃ digits, abiWord text = .ok digits ∧ hexValue digits = word) ↔
      SameUpToHexCase text (wordsText [word]) := by
  rw [sameUpToHexCase_wordsText]
  apply exists_congr
  intro digits
  rw [writesWords_singleton fits, abiWord_eq_ok]
  constructor
  · rintro ⟨⟨found, length, all⟩, value⟩
    exact ⟨found, length, all, value⟩
  · rintro ⟨found, length, all, value⟩
    exact ⟨⟨found, length, all⟩, value⟩

/-! ## Data -/

structure Chunked (data : List Char) (chunks : List (List Char)) : Prop where
  flatten : data = chunks.flatten
  length : ∀ chunk ∈ chunks, chunk.length = 64
  allDigits : ∀ chunk ∈ chunks, chunk.all isHexDigit = true

namespace Chunked

variable {data : List Char} {chunks : List (List Char)}

theorem writes (chunked : Chunked data chunks) {chunk : List Char}
    (mem : chunk ∈ chunks) : WritesWord chunk (hexValue chunk) where
  length := chunked.length chunk mem
  allDigits := chunked.allDigits chunk mem
  value := rfl

theorem data_length (chunked : Chunked data chunks) :
    data.length = chunks.length * 64 := by
  rw [chunked.flatten]
  exact length_flatten_of_forall chunked.length

theorem sublist {fewer : List (List Char)} (chunked : Chunked data chunks)
    (inside : fewer ⊆ chunks) : Chunked fewer.flatten fewer where
  flatten := rfl
  length := fun chunk mem => chunked.length chunk (inside mem)
  allDigits := fun chunk mem => chunked.allDigits chunk (inside mem)

/-- Digits of whole words have their pieces. -/
theorem exists_of_length {count : Nat} (length : data.length = count * 64)
    (all : data.all isHexDigit = true) : ∃ chunks, Chunked data chunks := by
  induction count generalizing data with
  | zero =>
      have empty : data = [] := by
        rw [← List.length_eq_zero_iff, length, Nat.zero_mul]
      subst empty
      exact ⟨[], rfl, by simp, by simp⟩
  | succ count ih =>
      rw [← List.take_append_drop 64 data, List.all_append,
        Bool.and_eq_true] at all
      have shorter : (data.drop 64).length = count * 64 := by
        rw [List.length_drop, length]
        omega
      obtain ⟨chunks, later⟩ := ih shorter all.2
      refine ⟨data.take 64 :: chunks, ?_, ?_, ?_⟩
      · rw [List.flatten_cons, ← later.flatten, List.take_append_drop]
      · intro chunk mem
        rcases List.mem_cons.mp mem with rfl | inside
        · rw [List.length_take, length]
          omega
        · exact later.length chunk inside
      · intro chunk mem
        rcases List.mem_cons.mp mem with rfl | inside
        · exact all.1
        · exact later.allDigits chunk inside

theorem writesWords_iff {words : List Nat} :
    (∃ chunks, Chunked data chunks ∧ chunks.map hexValue = words) ↔
      WritesWords data words ∧ ∀ word ∈ words, word < wordBound := by
  constructor
  · rintro ⟨chunks, chunked, rfl⟩
    constructor
    · rw [WritesWords, chunked.flatten, asciiLowercase, List.map_flatten,
        List.flatMap_map, List.flatMap_def]
      refine congrArg List.flatten (List.map_congr_left ?_)
      intro chunk mem
      exact (writes_iff.mp (chunked.writes mem)).1
    · intro word mem
      obtain ⟨chunk, inside, rfl⟩ := List.mem_map.mp mem
      exact (writes_iff.mp (chunked.writes inside)).2
  · rintro ⟨written, fits⟩
    induction words generalizing data with
    | nil =>
        have empty : data = [] := List.map_eq_nil_iff.mp written
        subst empty
        exact ⟨[], ⟨rfl, by simp, by simp⟩, rfl⟩
    | cons word rest ih =>
        rw [WritesWords, List.flatMap_cons, asciiLowercase] at written
        obtain ⟨first, later, rfl, ofFirst, ofLater⟩ :=
          List.map_eq_append_iff.mp written
        obtain ⟨chunks, chunked, same⟩ := ih ofLater
          fun other mem => fits other (List.mem_cons_of_mem word mem)
        have writesFirst : WritesWord first word :=
          writes_iff.mpr ⟨ofFirst, fits word List.mem_cons_self⟩
        refine ⟨first :: chunks, ⟨?_, ?_, ?_⟩, ?_⟩
        · rw [List.flatten_cons, chunked.flatten]
        · intro chunk mem
          rcases List.mem_cons.mp mem with rfl | inside
          · exact writesFirst.length
          · exact chunked.length chunk inside
        · intro chunk mem
          rcases List.mem_cons.mp mem with rfl | inside
          · exact writesFirst.allDigits
          · exact chunked.allDigits chunk inside
        · rw [List.map_cons, writesFirst.value, same]

end Chunked

/-- `abi_data` takes whole words. -/
theorem abiData_eq_ok {data : List Char} :
    abiData text = .ok data ↔
      stripHexPrefix text = some data ∧ ∃ chunks, Chunked data chunks := by
  unfold abiData
  cases stripHexPrefix text with
  | none => simp
  | some digits =>
      by_cases bad : digits.length % 64 ≠ 0 ∨ digits.all isHexDigit = false
      · simp only [if_pos bad]
        constructor
        · intro no
          cases no
        · rintro ⟨same, chunks, chunked⟩
          cases same
          rcases bad with other | other
          · rw [chunked.data_length] at other
            omega
          · rw [chunked.flatten, List.all_flatten] at other
            have all : (chunks.all fun chunk => chunk.all isHexDigit) = true :=
              List.all_eq_true.mpr chunked.allDigits
            rw [all] at other
            cases other
      · simp only [if_neg bad]
        rw [not_or, not_not, Bool.not_eq_false] at bad
        constructor
        · intro same
          cases same
          have whole : data.length = data.length / 64 * 64 := by omega
          exact ⟨rfl, Chunked.exists_of_length whole bad.2⟩
        · rintro ⟨same, _⟩
          cases same
          rfl

/-! ## Values of words -/

def addressOf (value : Nat) : Address :=
  ⟨String.ofList ('0' :: 'x' :: hexDigits 40 value)⟩

section Values

variable {word : List Char} {value : Nat}

theorem isZeroWord_iff (writes : WritesWord word value) :
    isZeroWord word = true ↔ value = 0 := by
  rw [isZeroWord, ← hexValue_eq_zero_iff writes.allDigits, writes.value]

theorem normalizedAssetId_eq (writes : WritesWord word value) :
    normalizedAssetId word = wordsText [value] := by
  rw [normalizedAssetId, (writes_iff.mp writes).1, wordsText,
    List.flatMap_singleton]

/-- `hex_decimal` takes the numbers up to its bound. -/
theorem hexDecimal_eq_ok {amount : Decimal} :
    hexDecimal word = .ok amount ↔
      hexValue word ≤ decimalMaxMantissa ∧ amount = hexValue word := by
  have bound : decimalMaxMantissa < 2 ^ 128 := by decide
  unfold hexDecimal hexU128
  by_cases fits : hexValue word < 2 ^ 128
  · rw [if_pos fits]
    by_cases exceeds : decimalMaxMantissa < hexValue word
    · simp only [bind, Except.bind, if_pos exceeds]
      constructor
      · intro no
        cases no
      · rintro ⟨small, _⟩
        exact absurd exceeds (not_lt.mpr small)
    · simp only [bind, Except.bind, if_neg exceeds]
      constructor
      · intro same
        cases same
        exact ⟨not_lt.mp exceeds, rfl⟩
      · rintro ⟨_, rfl⟩
        rfl
  · rw [if_neg fits]
    constructor
    · intro no
      cases no
    · rintro ⟨small, _⟩
      exact absurd (lt_of_le_of_lt small bound) fits

theorem hexAddress_eq_ok (writes : WritesWord word value) {address : Address} :
    hexAddress word = .ok address ↔
      value < addressBound ∧ address = addressOf value := by
  have split : word.take 24 ++ word.drop 24 = word :=
    List.take_append_drop 24 word
  have all := writes.allDigits
  rw [← split, List.all_append, Bool.and_eq_true] at all
  have length : (word.drop 24).length = 40 := by
    rw [List.length_drop, writes.length]
  have low : hexValue (word.drop 24) < addressBound :=
    (writes_iff.mp ⟨length, all.2, rfl⟩).2
  have sum : value =
      hexValue (word.take 24) * addressBound + hexValue (word.drop 24) := by
    rw [← writes.value, ← congrArg hexValue split, hexValue_append, length]
    rfl
  unfold hexAddress
  by_cases padded : (word.take 24).all (· = '0') = false
  · rw [if_pos padded]
    constructor
    · intro no
      cases no
    · rintro ⟨small, _⟩
      have zero : hexValue (word.take 24) = 0 := by
        by_contra nonzero
        have large := Nat.le_mul_of_pos_left addressBound
          (Nat.pos_of_ne_zero nonzero)
        omega
      rw [(hexValue_eq_zero_iff all.1).mp zero] at padded
      cases padded
  · rw [if_neg padded]
    rw [Bool.not_eq_false] at padded
    have zero := (hexValue_eq_zero_iff all.1).mpr padded
    have same : value = hexValue (word.drop 24) := by
      rw [sum, zero, Nat.zero_mul, Nat.zero_add]
    have written : Writes 40 (word.drop 24) value := ⟨length, all.2, same.symm⟩
    have lower := (writes_iff.mp written).1
    have known : Address.new (String.ofList ('0' :: 'x' :: word.drop 24)) =
        some (addressOf value) := by
      have digits : (hexDigits 40 value).all isHexDigit = true := by
        rw [List.all_eq_true]
        intro digit mem
        obtain ⟨digitValue, small, rfl⟩ := mem_hexDigits mem
        exact (hexDigit_spec small).1
      have whole : asciiLowercase ('0' :: 'x' :: word.drop 24) =
          '0' :: 'x' :: hexDigits 40 value := by
        rw [← lower]
        rfl
      unfold Address.new
      rw [String.toList_ofList, whole]
      simp only [length_hexDigits, digits, and_self, if_true]
      rfl
    have small : value < addressBound := by
      rw [same]
      exact low
    simp only [known, Except.ok.injEq]
    constructor
    · intro accepted
      exact ⟨small, accepted.symm⟩
    · rintro ⟨_, known⟩
      exact known.symm

end Values

theorem abiWord_cases (topic : String) :
    (∃ word value, abiWord topic = .ok word ∧ WritesWord word value ∧
        value < wordBound ∧ ∀ other < wordBound,
          SameUpToHexCase topic (wordsText [other]) ↔ other = value) ∨
      (∃ failure, abiWord topic = .error failure) ∧ ∀ other < wordBound,
        ¬ SameUpToHexCase topic (wordsText [other]) := by
  cases read : abiWord topic with
  | ok word =>
      obtain ⟨found, length, all⟩ := abiWord_eq_ok.mp read
      have writes : WritesWord word (hexValue word) := ⟨length, all, rfl⟩
      refine Or.inl ⟨word, hexValue word, rfl, writes, (writes_iff.mp writes).2,
        ?_⟩
      intro other fits
      rw [← abiWord_writes fits, read]
      constructor
      · rintro ⟨digits, same, value⟩
        cases same
        exact value.symm
      · intro same
        exact ⟨word, rfl, same.symm⟩
  | error failure =>
      refine Or.inr ⟨⟨failure, rfl⟩, ?_⟩
      intro other fits written
      obtain ⟨digits, no, _⟩ := (abiWord_writes fits).mpr written
      rw [read] at no
      cases no

theorem addressBound_lt : addressBound < wordBound := by
  decide

theorem topicAddress_eq_ok {topic : String} {address : Address} :
    topicAddress topic = .ok address ↔ ∃ value < addressBound,
      SameUpToHexCase topic (wordsText [value]) ∧
        address = addressOf value := by
  unfold topicAddress
  rcases abiWord_cases topic with ⟨word, value, read, writes, _, unique⟩ |
    ⟨⟨failure, read⟩, none⟩
  · rw [read]
    simp only [bind, Except.bind]
    rw [hexAddress_eq_ok writes]
    constructor
    · rintro ⟨small, same⟩
      exact ⟨value, small,
        (unique value (small.trans addressBound_lt)).mpr rfl, same⟩
    · rintro ⟨other, small, written, same⟩
      have isValue := (unique other (small.trans addressBound_lt)).mp written
      rw [isValue] at small same
      exact ⟨small, same⟩
  · rw [read]
    constructor
    · intro no
      cases no
    · rintro ⟨other, small, written, _⟩
      exact absurd written (none other (small.trans addressBound_lt))

/-! ## Places in data -/

section Places

variable {data : List Char} {chunks : List (List Char)}

theorem slice_eq_some (chunked : Chunked data chunks)
    {first count : Nat} {words : List Char} :
    slice data (first * 64) (first * 64 + count * 64) = some words ↔
      first + count ≤ chunks.length ∧
        words = ((chunks.drop first).take count).flatten := by
  have uniform : ∀ chunk ∈ chunks.drop first, chunk.length = 64 :=
    fun chunk mem => chunked.length chunk (List.mem_of_mem_drop mem)
  have piece : (data.take (first * 64 + count * 64)).drop (first * 64) =
      ((chunks.drop first).take count).flatten := by
    rw [List.drop_take, Nat.add_sub_cancel_left, chunked.flatten,
      drop_flatten_of_forall chunked.length, take_flatten_of_forall uniform]
  unfold slice
  rw [piece, chunked.data_length]
  by_cases inside : first + count ≤ chunks.length
  · have bound : first * 64 ≤ first * 64 + count * 64 ∧
        first * 64 + count * 64 ≤ chunks.length * 64 := by omega
    rw [if_pos bound, Option.some.injEq]
    constructor
    · intro same
      exact ⟨inside, same.symm⟩
    · rintro ⟨_, same⟩
      exact same.symm
  · have outside : ¬ (first * 64 ≤ first * 64 + count * 64 ∧
        first * 64 + count * 64 ≤ chunks.length * 64) := by omega
    rw [if_neg outside]
    constructor
    · intro no
      cases no
    · rintro ⟨within, _⟩
      exact absurd within inside

variable {word : List Char}

/-- `abi_word_at` reads one piece. -/
theorem abiWordAt_eq_ok (chunked : Chunked data chunks) {index : Nat} :
    abiWordAt data index = .ok word ↔ chunks[index]? = some word := by
  have place : index * 64 + 64 = index * 64 + 1 * 64 := by omega
  have one : chunks[index]? = some word ↔ index + 1 ≤ chunks.length ∧
      word = ((chunks.drop index).take 1).flatten := by
    rw [List.getElem?_eq_some_iff]
    constructor
    · rintro ⟨inside, rfl⟩
      refine ⟨inside, ?_⟩
      rw [List.drop_eq_getElem_cons inside, List.take_succ_cons,
        List.take_zero, List.flatten_cons, List.flatten_nil, List.append_nil]
    · rintro ⟨inside, rfl⟩
      refine ⟨inside, ?_⟩
      rw [List.drop_eq_getElem_cons inside, List.take_succ_cons,
        List.take_zero, List.flatten_cons, List.flatten_nil, List.append_nil]
  unfold abiWordAt
  rw [one, place, ← slice_eq_some chunked]
  cases slice data (index * 64) (index * 64 + 1 * 64) with
  | none => simp
  | some found => simp

/-- `chunks_exact` gives the pieces. -/
theorem abiChunks_flatten (chunked : Chunked data chunks) :
    abiChunks data = chunks := by
  have count : data.length / 64 = chunks.length := by
    rw [chunked.data_length, Nat.mul_div_cancel _ (by decide)]
  apply List.ext_getElem
  · rw [abiChunks, List.length_map, List.length_range, count]
  · intro index _ inside
    have uniform : ∀ chunk ∈ chunks.drop index, chunk.length = 64 :=
      fun chunk mem => chunked.length chunk (List.mem_of_mem_drop mem)
    have one := take_flatten_of_forall uniform 1
    have head : ((chunks.drop index).take 1).flatten = chunks[index] := by
      rw [List.drop_eq_getElem_cons inside, List.take_succ_cons,
        List.take_zero, List.flatten_cons, List.flatten_nil, List.append_nil]
    rw [Nat.one_mul, head] at one
    simp only [abiChunks, List.getElem_map, List.getElem_range]
    rw [chunked.flatten, drop_flatten_of_forall chunked.length, one]

theorem hexUsize_eq_ok {field : String} {value : Nat} :
    hexUsize word field = .ok value ↔
      hexValue word = value ∧ value < 2 ^ 64 := by
  unfold hexUsize
  by_cases fits : hexValue word < 2 ^ 64
  · rw [if_pos fits, Except.ok.injEq]
    constructor
    · rintro rfl
      exact ⟨rfl, fits⟩
    · rintro ⟨same, _⟩
      exact same
  · rw [if_neg fits]
    constructor
    · intro no
      cases no
    · rintro ⟨rfl, small⟩
      exact absurd small fits

theorem hexU128_eq_ok {field : String} {value : Nat} :
    hexU128 word field = .ok value ↔
      hexValue word = value ∧ value < 2 ^ 128 := by
  unfold hexU128
  by_cases fits : hexValue word < 2 ^ 128
  · rw [if_pos fits, Except.ok.injEq]
    constructor
    · rintro rfl
      exact ⟨rfl, fits⟩
    · rintro ⟨same, _⟩
      exact same
  · rw [if_neg fits]
    constructor
    · intro no
      cases no
    · rintro ⟨rfl, small⟩
      exact absurd small fits

/-- An array among pieces: its length and its items, and what is behind. -/
def ArrayAt (chunks : List (List Char)) (index : Nat)
    (items later : List (List Char)) : Prop :=
  ∃ length, chunks.drop index = length :: (items ++ later) ∧
    hexValue length = items.length

/-- `dynamic_abi_words` reads an array where its offset is the expected one.
No data that fits in memory overflows a machine word. -/
theorem dynamicAbiWords_eq_ok
    (chunked : Chunked data chunks) (short : data.length < 2 ^ 63)
    {offsetWord expectedOffset : Nat} {words : List Char} :
    dynamicAbiWords data offsetWord expectedOffset = .ok words ↔
      (∃ offset, chunks[offsetWord]? = some offset ∧
        hexValue offset = expectedOffset) ∧
      ∃ items later, ArrayAt chunks (expectedOffset / 32) items later ∧
        words = items.flatten := by
  have size := chunked.data_length
  unfold dynamicAbiWords
  simp only [Fallible.bind_eq_ok, abiWordAt_eq_ok chunked, hexUsize_eq_ok]
  constructor
  · rintro ⟨offset, atOffset, _, ⟨rfl, _⟩, rest⟩
    by_cases canonical : hexValue offset ≠ expectedOffset
    · rw [if_pos canonical] at rest
      cases rest
    rw [if_neg canonical] at rest
    rw [not_not] at canonical
    simp only [Fallible.bind_eq_ok, abiWordAt_eq_ok chunked, hexUsize_eq_ok]
      at rest
    obtain ⟨length, atLength, _, ⟨rfl, _⟩, rest⟩ := rest
    split at rest
    · cases rest
    split at rest
    · cases rest
    split at rest
    · cases rest
    rename_i taken found
    cases rest
    obtain ⟨inside, rfl⟩ := (slice_eq_some chunked).mp found
    rw [canonical] at atLength inside ⊢
    obtain ⟨within, rfl⟩ := List.getElem?_eq_some_iff.mp atLength
    refine ⟨⟨offset, atOffset, canonical⟩, _,
      (chunks.drop (expectedOffset / 32 + 1)).drop
        (hexValue chunks[expectedOffset / 32]),
      ⟨chunks[expectedOffset / 32], ?_, ?_⟩, rfl⟩
    · rw [List.drop_eq_getElem_cons within, List.take_append_drop]
    · rw [List.length_take, List.length_drop]
      omega
  · rintro ⟨⟨offset, atOffset, canonical⟩, items, later,
      ⟨length, atLength, count⟩, rfl⟩
    have within : expectedOffset / 32 < chunks.length := by
      by_contra outside
      rw [List.drop_eq_nil_of_le (by omega)] at atLength
      cases atLength
    have enough := congrArg List.length atLength
    rw [List.length_drop, List.length_cons, List.length_append] at enough
    have atIndex : chunks[expectedOffset / 32]? = some length := by
      rw [← List.head?_drop, atLength]
      rfl
    have behind : chunks.drop (expectedOffset / 32 + 1) = items ++ later := by
      rw [← List.tail_drop, atLength]
      rfl
    refine ⟨offset, atOffset, expectedOffset, ⟨canonical, by omega⟩, ?_⟩
    rw [if_neg (not_not.mpr rfl)]
    simp only [Fallible.bind_eq_ok, abiWordAt_eq_ok chunked, hexUsize_eq_ok]
    refine ⟨length, atIndex, items.length, ⟨count, by omega⟩, ?_⟩
    have noStart : ¬ 2 ^ 64 ≤ (expectedOffset / 32 + 1) * 64 := by omega
    have noEnd : ¬ 2 ^ 64 ≤
        (expectedOffset / 32 + 1) * 64 + items.length * 64 := by omega
    have found : slice data ((expectedOffset / 32 + 1) * 64)
        ((expectedOffset / 32 + 1) * 64 + items.length * 64) =
          some items.flatten := by
      rw [slice_eq_some chunked, behind, List.take_left]
      exact ⟨by omega, rfl⟩
    rw [if_neg noStart, if_neg noEnd, found]

end Places

end Pmkit
