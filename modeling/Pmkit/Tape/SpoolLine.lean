import Pmkit.Library.Delimited
import Pmkit.Tape.SpoolRecord

/-!
# The lines of the raw spool

The line of a record in characters, and what follows from it: a line has no
newline in it and starts an object.  The names of the files of a chunk tell the
chunk and what the file is for.
-/

namespace Pmkit

open MachineInt JsonValue

/-! ## The characters of a line -/

def intText (value : Int) : List Char :=
  (toString value).toList

def rawText (bytes : List UInt8) : List Char :=
  commaJoin (bytes.map fun byte => intText byte.toNat)

structure WireSpoolFrame.Plain (wire : WireSpoolFrame) : Prop where
  replica : ∀ letter ∈ wire.replicaId.toList, isIdentifierLetter letter = true
  shard : ∀ letter ∈ wire.shardId.toList, isIdentifierLetter letter = true
  digest : ∀ letter ∈ wire.discoverySnapshotSha256.toList,
    isIdentifierLetter letter = true

variable {letter : Char} {wire : WireSpoolFrame}

theorem escapeChar_of_identifierLetter
    (valid : isIdentifierLetter letter = true) :
    escapeChar letter = [letter] := by
  simp only [isIdentifierLetter, Bool.or_eq_true, decide_eq_true_eq] at valid
  rcases valid with (alphanumeric | rfl) | rfl
  · exact escapeChar_of_plain (Or.inl alphanumeric)
  · decide
  · decide

theorem characters_plain {text : String}
    (plain : ∀ letter ∈ text.toList, isIdentifierLetter letter = true) :
    quote text = '"' :: (text.toList ++ ['"']) :=
  quote_of_plain fun letter mem =>
    escapeChar_of_identifierLetter (plain letter mem)

theorem itemCharacters_numbers (bytes : List UInt8) :
    itemCharacters (fun _ => "") id
        (bytes.map fun byte => number byte.toNat) =
      bytes.map fun byte => intText byte.toNat := by
  induction bytes with
  | nil => rfl
  | cons byte rest ih =>
      rw [List.map_cons, List.map_cons, itemCharacters, ih]
      rfl

/-- The line of a record, field by field. -/
theorem WireSpoolFrame.characters_eq (plain : wire.Plain) :
    wire.characters =
      "\x7b\"connection_epoch\":".toList ++ (
        intText wire.connectionEpoch.toNat ++ (
      ",\"discovery_snapshot_sha256\":\"".toList ++ (
        wire.discoverySnapshotSha256.toList ++ (
      "\",\"frame_sequence\":".toList ++ (
        intText wire.frameSequence.toNat ++ (
      ",\"minute_start_ms\":".toList ++ (
        intText wire.minuteStartMs.1 ++ (
      ",\"raw_bytes\":[".toList ++ (
        rawText wire.rawBytes ++ (
      "],\"receipt_time_ms\":".toList ++ (
        intText wire.receiptTimeMs.1 ++ (
      ",\"replica_id\":\"".toList ++ (
        wire.replicaId.toList ++ (
      "\",\"schema_version\":".toList ++ (
        intText wire.schemaVersion.toNat ++ (
      ",\"shard_id\":\"".toList ++ (
        wire.shardId.toList ++ "\"\x7d".toList))))))))))))))))) := by
  have names : ∀ name : String, name.toList.all isIdentifierLetter = true →
      quote name = '"' :: (name.toList ++ ['"']) := fun name all =>
    characters_plain (List.all_eq_true.mp all)
  simp only [WireSpoolFrame.characters, WireSpoolFrame.json,
    JsonValue.characters, fieldCharacters, List.map_cons, List.map_nil, id,
    commaJoin, fieldText, characters_plain plain.replica,
    characters_plain plain.shard, characters_plain plain.digest,
    itemCharacters_numbers]
  rw [names "connection_epoch" (by decide),
    names "discovery_snapshot_sha256" (by decide),
    names "frame_sequence" (by decide), names "minute_start_ms" (by decide),
    names "raw_bytes" (by decide), names "receipt_time_ms" (by decide),
    names "replica_id" (by decide), names "schema_version" (by decide),
    names "shard_id" (by decide)]
  simp only [List.cons_append, List.nil_append, List.append_assoc]
  rfl

theorem intText_nonneg (value : Nat) :
    intText value = Nat.toDigits 10 value :=
  Delimited.toString_ofNat value

theorem intText_negSucc (value : Nat) :
    intText (Int.negSucc value) = '-' :: Nat.toDigits 10 (value + 1) :=
  Delimited.toString_negSucc value

/-- Decimals are digits after a possible sign. -/
theorem mem_intText {value : Int} (mem : letter ∈ intText value) :
    letter = '-' ∨ letter.isDigit = true :=
  Delimited.letter_of_mem_toString mem

def isPrintable (letter : Char) : Bool :=
  32 ≤ letter.toNat && letter.toNat < 128

theorem isPrintable_of_identifierLetter
    (valid : isIdentifierLetter letter = true) :
    isPrintable letter = true := by
  simp only [isIdentifierLetter, Bool.or_eq_true, decide_eq_true_eq] at valid
  rcases valid with (alphanumeric | rfl) | rfl
  · have bounds := Ascii.toNat_of_isAlphanum alphanumeric
    unfold isPrintable
    rw [Bool.and_eq_true, decide_eq_true_eq, decide_eq_true_eq]
    omega
  · decide
  · decide

theorem isIdentifierLetter_of_isDigit (digit : letter.isDigit = true) :
    isIdentifierLetter letter = true := by
  rw [isIdentifierLetter, Bool.or_eq_true, Bool.or_eq_true, Char.isAlphanum,
    Bool.or_eq_true]
  exact .inl (Or.inl (Or.inr digit))

theorem isPrintable_intText (value : Int) :
    ∀ letter ∈ intText value, isPrintable letter = true := by
  intro letter mem
  rcases mem_intText mem with rfl | digit
  · decide
  · exact isPrintable_of_identifierLetter
      (isIdentifierLetter_of_isDigit digit)

theorem isPrintable_rawText (bytes : List UInt8) :
    ∀ letter ∈ rawText bytes, isPrintable letter = true := by
  intro letter mem
  rcases mem_commaJoin mem with rfl | ⟨item, inside, has⟩
  · decide
  · obtain ⟨byte, _, rfl⟩ := List.mem_map.mp inside
    exact isPrintable_intText _ letter has

theorem WireSpoolFrame.characters_printable (plain : wire.Plain) :
    ∀ letter ∈ wire.characters, isPrintable letter = true := by
  have literal : ∀ text : String, text.toList.all isPrintable = true →
      ∀ letter ∈ text.toList, isPrintable letter = true := fun text all =>
    List.all_eq_true.mp all
  have identifier : ∀ text : String,
      (∀ letter ∈ text.toList, isIdentifierLetter letter = true) →
      ∀ letter ∈ text.toList, isPrintable letter = true :=
    fun text plain letter mem =>
      isPrintable_of_identifierLetter (plain letter mem)
  rw [characters_eq plain]
  simp only [List.forall_mem_append]
  exact ⟨literal _ (by decide), isPrintable_intText _, literal _ (by decide),
    identifier _ plain.digest, literal _ (by decide), isPrintable_intText _,
    literal _ (by decide), isPrintable_intText _, literal _ (by decide),
    isPrintable_rawText _, literal _ (by decide), isPrintable_intText _,
    literal _ (by decide), identifier _ plain.replica, literal _ (by decide),
    isPrintable_intText _, literal _ (by decide), identifier _ plain.shard,
    literal _ (by decide)⟩

theorem isIdentifierLetter_of_isHex
    (hex : (letter.isDigit || ('a' ≤ letter && letter ≤ 'f')) = true) :
    isIdentifierLetter letter = true := by
  rw [Bool.or_eq_true] at hex
  rcases hex with digit | lower
  · exact isIdentifierLetter_of_isDigit digit
  · simp only [Bool.and_eq_true, decide_eq_true_eq] at lower
    have isLower : ((97 : UInt32) ≤ letter.val && letter.val ≤ 122) =
        true := by
      rw [Bool.and_eq_true, decide_eq_true_eq, decide_eq_true_eq]
      exact ⟨lower.1, UInt32.le_trans lower.2 (by decide)⟩
    have isAlpha : letter.isAlpha = true :=
      (Bool.or_eq_true _ _).mpr (Or.inr isLower)
    rw [isIdentifierLetter, Bool.or_eq_true, Bool.or_eq_true,
      Char.isAlphanum, Bool.or_eq_true]
    exact .inl (Or.inl (Or.inl isAlpha))

theorem isIdentifierLetter_of_isSha256Hex
    {digest : String} (valid : isSha256Hex digest = true) :
    ∀ letter ∈ digest.toList, isIdentifierLetter letter = true := by
  intro letter mem
  rw [isSha256Hex, Bool.and_eq_true] at valid
  exact isIdentifierLetter_of_isHex
    (List.all_eq_true.mp valid.2 letter mem)

theorem letters_of_isIdentifier
    {value : String} (valid : isIdentifier value = true) :
    ∀ letter ∈ value.toList, isIdentifierLetter letter = true := by
  rw [isIdentifier, Bool.and_eq_true] at valid
  exact List.all_eq_true.mp valid.2

theorem isSha256Hex_of_valid {chunk : SpoolChunk} {frame : SpoolFrame}
    (valid : validateFrame chunk frame = .ok ()) :
    isSha256Hex frame.discoverySnapshotSha256 = true := by
  unfold validateFrame at valid
  split at valid
  · cases valid
  · split at valid
    · assumption
    · cases valid

theorem plain_of_valid {chunk : SpoolChunk} {frame : SpoolFrame}
    (valid : validateFrame chunk frame = .ok ()) :
    (frame.wire chunk).Plain where
  replica := letters_of_isIdentifier chunk.replicaValid
  shard := letters_of_isIdentifier chunk.shardValid
  digest := isIdentifierLetter_of_isSha256Hex (isSha256Hex_of_valid valid)

theorem ascii_of_printable {letters : List Char}
    (printable : ∀ letter ∈ letters, isPrintable letter = true) :
    ∀ letter ∈ letters, letter.toNat < 128 := by
  intro letter mem
  have bounds := printable letter mem
  rw [isPrintable, Bool.and_eq_true, decide_eq_true_eq, decide_eq_true_eq]
    at bounds
  exact bounds.2

theorem WireSpoolFrame.bytes_eq (plain : wire.Plain) :
    wire.bytes = wire.characters.map Ascii.byte :=
  Ascii.bytes_ofList (ascii_of_printable (characters_printable plain))

theorem WireSpoolFrame.newline_notMem
    (plain : wire.Plain) : newline ∉ wire.bytes := by
  rw [bytes_eq plain]
  intro mem
  obtain ⟨letter, inside, isNewline⟩ := List.mem_map.mp mem
  have bounds := characters_printable plain letter inside
  rw [isPrintable, Bool.and_eq_true, decide_eq_true_eq, decide_eq_true_eq]
    at bounds
  have same := Ascii.byte_toNat bounds.2
  rw [isNewline] at same
  have ten : newline.toNat = 10 := rfl
  omega

/-- A line is an object whose first name starts with a letter. -/
theorem WireSpoolFrame.bytes_head (plain : wire.Plain) :
    ∃ rest, wire.bytes = 123 :: 34 :: 99 :: rest := by
  have start : "\x7b\"connection_epoch\":".toList.map Ascii.byte =
      123 :: 34 :: 99 :: "onnection_epoch\":".toList.map Ascii.byte := by
    decide +kernel
  rw [bytes_eq plain, characters_eq plain, List.map_append, start]
  exact ⟨_, rfl⟩

/-! ## The names of the files of a chunk -/

/-- Whether the file holds records; the others hold a sidecar. -/
def SpoolRole.isData : SpoolRole → Bool
  | .open | .closed => true
  | .checksum | .temporaryChecksum => false

theorem foldl_toDigits (number : Nat) :
    (Nat.toDigits 10 number).foldl
      (fun value digit => 10 * value + (digit.toNat - '0'.toNat)) 0 =
        number := by
  rw [← Nat.ofDigitChars_eq_foldl, Nat.ofDigitChars_ten_toDigits]

theorem parseI64_intText (value : I64) :
    parseI64 (intText value.1) = some value.1 := by
  obtain ⟨value, bounds⟩ := value
  have lower : -(2 ^ 63) ≤ value := bounds.1
  have upper : value < 2 ^ 63 := Int.lt_of_le_sub_one bounds.2
  have digits : ∀ number : Nat, Nat.toDigits 10 number ≠ [] ∧
      (Nat.toDigits 10 number).all Char.isDigit = true := fun number =>
    ⟨Nat.toDigits_ne_nil, List.all_eq_true.mpr fun letter mem =>
      Nat.isDigit_of_mem_toDigits (by decide) (by decide) mem⟩
  cases value with
  | ofNat value =>
      have unsigned : ∀ letter ∈ Nat.toDigits 10 value,
          letter ≠ '+' ∧ letter ≠ '-' := by
        intro letter mem
        have digit :=
          Nat.isDigit_of_mem_toDigits (by decide) (by decide) mem
        constructor <;> rintro rfl <;> exact absurd digit (by decide)
      show parseI64 (intText (value : Int)) = some (value : Int)
      rw [intText_nonneg]
      unfold parseI64
      dsimp only
      split
      · rename_i rest isText
        exact absurd rfl (unsigned '+' (isText ▸ List.mem_cons_self)).1
      · rename_i rest isText
        exact absurd rfl (unsigned '-' (isText ▸ List.mem_cons_self)).2
      · have same : 1 * (value : Int) = Int.ofNat value := Int.one_mul _
        rw [if_pos (digits value), foldl_toDigits, same, if_pos ⟨lower, upper⟩]
        rfl
  | negSucc value =>
      have same : -1 * ((value + 1 : Nat) : Int) = Int.negSucc value := by
        omega
      show parseI64 (intText (Int.negSucc value)) = some (Int.negSucc value)
      rw [intText_negSucc]
      unfold parseI64
      simp only [if_pos (digits (value + 1)), foldl_toDigits, same,
        if_pos (And.intro lower upper)]

theorem stripPrefix_append (start text : List Char) :
    stripPrefix start (start ++ text) = some text := by
  rw [stripPrefix, if_pos (List.isPrefixOf_iff_prefix.mpr
    (List.prefix_append start text)), List.drop_left]

theorem stripSuffix_append (text ending : List Char) :
    stripSuffix ending (text ++ ending) = some text := by
  rw [stripSuffix, if_pos (List.isSuffixOf_iff_suffix.mpr
    (List.suffix_append text ending)), List.length_append,
    Nat.add_sub_cancel, List.take_left]

theorem toList_fileName (chunk : SpoolChunk) (suffix : String) :
    (chunk.path suffix).fileName.toList =
      "minute-".toList ++ intText chunk.minuteStartMs.1 ++ suffix.toList := by
  show (("minute-" ++ toString chunk.minuteStartMs.1) ++ suffix).toList = _
  rw [String.toList_append, String.toList_append]
  rfl

theorem fromFilename_closedPath (chunk : SpoolChunk) :
    SpoolChunk.fromFilename chunk.replicaId chunk.shardId
        chunk.closedPath.fileName = .ok chunk := by
  unfold SpoolChunk.fromFilename SpoolChunk.closedPath SpoolChunk.file
  rw [toList_fileName, SpoolRole.suffix, stripSuffix_append, Option.bind_some,
    stripPrefix_append, Option.bind_some, parseI64_intText, Option.bind_some,
    I64.ofInt_val]
  exact SpoolChunk.new_self chunk

theorem isClosed_file (chunk : SpoolChunk) (role : SpoolRole) :
    (stripSuffix ".jsonl".toList (chunk.file role).fileName.toList).isSome =
      decide (role = .closed) := by
  unfold SpoolChunk.file
  rw [toList_fileName]
  cases role with
  | closed => rw [SpoolRole.suffix, stripSuffix_append]; rfl
  | «open» =>
      simp [stripSuffix, SpoolRole.suffix, List.isSuffixOf, List.isPrefixOf]
  | checksum =>
      simp [stripSuffix, SpoolRole.suffix, List.isSuffixOf, List.isPrefixOf]
  | temporaryChecksum =>
      simp [stripSuffix, SpoolRole.suffix, List.isSuffixOf, List.isPrefixOf]

theorem intText_injective {left right : I64}
    (same : intText left.1 = intText right.1) : left = right := by
  have read := congrArg parseI64 same
  rw [parseI64_intText, parseI64_intText] at read
  exact Subtype.ext (Option.some.inj read)

/-- The number of a file name ends at the first dot. -/
theorem takeWhile_fileName (value : Int) (role : SpoolRole) :
    (intText value ++ role.suffix.toList).takeWhile (· ≠ '.') =
      intText value := by
  have noDot : ∀ letter ∈ intText value, decide (letter ≠ '.') = true := by
    intro letter mem
    rw [decide_eq_true_eq]
    rintro rfl
    rcases mem_intText mem with sign | digit
    · exact absurd sign (by decide)
    · exact absurd digit (by decide)
  have dot : role.suffix.toList.takeWhile (· ≠ '.') = [] := by
    cases role <;> decide +kernel
  rw [List.takeWhile_append_of_pos noDot, dot, List.append_nil]

theorem file_inj {left right : SpoolChunk} {leftRole rightRole : SpoolRole} :
    left.file leftRole = right.file rightRole ↔
      left = right ∧ leftRole = rightRole := by
  constructor
  · intro same
    have replica : left.replicaId = right.replicaId :=
      congrArg SpoolPath.replica same
    have shard : left.shardId = right.shardId := congrArg SpoolPath.shard same
    have name : (left.file leftRole).fileName.toList =
        (right.file rightRole).fileName.toList := by rw [same]
    unfold SpoolChunk.file at name
    rw [toList_fileName, toList_fileName, List.append_assoc,
      List.append_assoc, List.append_cancel_left_eq] at name
    have numbers := congrArg (List.takeWhile (· ≠ '.')) name
    rw [takeWhile_fileName, takeWhile_fileName] at numbers
    have suffixes : leftRole.suffix.toList = rightRole.suffix.toList := by
      rw [numbers] at name
      exact List.append_cancel_left name
    constructor
    · obtain ⟨_, _, leftMinute, _, _, _⟩ := left
      obtain ⟨_, _, rightMinute, _, _, _⟩ := right
      cases replica
      cases shard
      cases intText_injective numbers
      rfl
    · have equal := String.toList_inj.mp suffixes
      cases leftRole <;> cases rightRole <;>
        first | rfl | exact absurd equal (by decide)
  · rintro ⟨rfl, rfl⟩
    rfl

end Pmkit
