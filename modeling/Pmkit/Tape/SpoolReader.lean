import Pmkit.Library.Template
import Pmkit.Tape.SpoolLine

/-!
# A reader of the lines as they are written

The JSON reader of the spool accepts more than the lines the spool writes.  The
reader here takes these lines only: it splits a text into its fields and checks
that they print the same text again.
-/

namespace Pmkit

open MachineInt JsonValue

namespace SpoolReader

def digitsValue (digits : List Char) : Nat :=
  digits.foldl (fun value digit => 10 * value + (digit.toNat - '0'.toNat)) 0

def intValue : List Char → Int
  | '-' :: digits => -(digitsValue digits : Int)
  | digits => digitsValue digits

theorem digitsValue_toDigits (number : Nat) :
    digitsValue (Nat.toDigits 10 number) = number :=
  foldl_toDigits number

theorem digitsValue_intText (number : Nat) :
    digitsValue (intText number) = number := by
  rw [intText_nonneg, digitsValue_toDigits]

theorem intValue_intText (value : Int) : intValue (intText value) = value := by
  cases value with
  | ofNat value =>
      show intValue (intText (value : Int)) = (value : Int)
      rw [intText_nonneg]
      unfold intValue
      split
      · rename_i rest isText
        have digit := Nat.isDigit_of_mem_toDigits (n := value) (c := '-')
          (b := 10) (by decide) (by decide) (isText ▸ List.mem_cons_self)
        exact absurd digit (by decide)
      · rw [digitsValue_toDigits]
  | negSucc value =>
      rw [intText_negSucc]
      show -(digitsValue (Nat.toDigits 10 (value + 1)) : Int) = _
      rw [digitsValue_toDigits]
      rfl

/-- The bytes between commas. -/
def rawValue (text : List Char) : List UInt8 :=
  if text = [] then []
  else (text.splitOn ',').map fun digits => UInt8.ofNat (digitsValue digits)

theorem commaJoin_eq_intercalate (items : List (List Char)) :
    commaJoin items = [','].intercalate items := by
  induction items with
  | nil => rfl
  | cons item rest ih =>
      cases rest with
      | nil => simp [commaJoin, List.intercalate]
      | cons next rest =>
          rw [commaJoin, ih]
          · simp [List.intercalate]
          · simp

theorem rawValue_rawText (bytes : List UInt8) :
    rawValue (rawText bytes) = bytes := by
  cases bytes with
  | nil => rfl
  | cons byte rest =>
      have noComma : ∀ item ∈ (byte :: rest).map (fun byte : UInt8 =>
          intText byte.toNat), ',' ∉ item := by
        intro item mem
        obtain ⟨byte, _, rfl⟩ := List.mem_map.mp mem
        intro comma
        rcases mem_intText comma with sign | digit
        · exact absurd sign (by decide)
        · exact absurd digit (by decide)
      have some : rawText (byte :: rest) ≠ [] := by
        unfold rawText
        rw [List.map_cons]
        obtain ⟨more, joined⟩ := commaJoin_cons (intText byte.toNat)
          (rest.map fun byte => intText byte.toNat)
        rw [joined, intText_nonneg]
        simp [Nat.toDigits_ne_nil]
      rw [rawValue, if_neg some, rawText, commaJoin_eq_intercalate,
        List.splitOn_intercalate ',' noComma (by simp), List.map_map]
      simp [Function.comp_def, digitsValue_intText]

def recordLiterals : List (List Char) := [
  "\x7b\"connection_epoch\":".toList,
  ",\"discovery_snapshot_sha256\":\"".toList,
  "\",\"frame_sequence\":".toList,
  ",\"minute_start_ms\":".toList,
  ",\"raw_bytes\":[".toList,
  "],\"receipt_time_ms\":".toList,
  ",\"replica_id\":\"".toList,
  "\",\"schema_version\":".toList,
  ",\"shard_id\":\"".toList,
  "\"\x7d".toList]

def recordFields (wire : WireSpoolFrame) : List (List Char) := [
  intText wire.connectionEpoch.toNat, wire.discoverySnapshotSha256.toList,
  intText wire.frameSequence.toNat, intText wire.minuteStartMs.1,
  rawText wire.rawBytes, intText wire.receiptTimeMs.1, wire.replicaId.toList,
  intText wire.schemaVersion.toNat, wire.shardId.toList]

def readFields : List (List Char) → Option WireSpoolFrame
  | [epoch, digest, sequence, minute, raw, receipt, replica, version, shard] =>
      some {
        schemaVersion := UInt16.ofNat (digitsValue version)
        replicaId := String.ofList replica
        shardId := String.ofList shard
        minuteStartMs := I64.clamp (intValue minute)
        connectionEpoch := UInt64.ofNat (digitsValue epoch)
        frameSequence := UInt64.ofNat (digitsValue sequence)
        receiptTimeMs := I64.clamp (intValue receipt)
        discoverySnapshotSha256 := String.ofList digest
        rawBytes := rawValue raw }
  | _ => none

theorem readFields_recordFields (wire : WireSpoolFrame) :
    readFields (recordFields wire) = some wire := by
  simp [readFields, recordFields, digitsValue_intText, intValue_intText,
    rawValue_rawText, MachineInt.I64.clamp_val]

variable {wire : WireSpoolFrame} {letters : List Char}

theorem characters_eq_render (plain : wire.Plain) :
    wire.characters =
      Template.render recordLiterals (recordFields wire) :=
  WireSpoolFrame.characters_eq plain

theorem notMem_identifier {stop : Char}
    (plain : ∀ letter ∈ letters, isIdentifierLetter letter = true)
    (other : isIdentifierLetter stop = false) : stop ∉ letters := by
  intro mem
  rw [plain stop mem] at other
  cases other

theorem notMem_intText {stop : Char} (value : Int)
    (notDigit : stop.isDigit = false) (notSign : stop ≠ '-') :
    stop ∉ intText value := by
  intro mem
  rcases mem_intText mem with sign | digit
  · exact notSign sign
  · rw [notDigit] at digit
    cases digit

theorem notMem_rawText (bytes : List UInt8) : ']' ∉ rawText bytes := by
  intro mem
  rcases mem_commaJoin mem with comma | ⟨item, inside, has⟩
  · exact absurd comma (by decide)
  · obtain ⟨byte, _, rfl⟩ := List.mem_map.mp inside
    exact notMem_intText _ (by decide) (by decide) has

theorem record_fits (plain : wire.Plain) :
    Template.Fits recordLiterals (recordFields wire) := by
  have number : ∀ value : Int, ',' ∉ intText value := fun value =>
    notMem_intText value (by decide) (by decide)
  have string : ∀ letters : List Char,
      (∀ letter ∈ letters, isIdentifierLetter letter = true) →
      '"' ∉ letters := fun letters all => notMem_identifier all (by decide)
  exact
    .field rfl (number _) <| .field rfl (string _ plain.digest) <|
    .field rfl (number _) <| .field rfl (number _) <|
    .field rfl (notMem_rawText _) <| .field rfl (number _) <|
    .field rfl (string _ plain.replica) <| .field rfl (number _) <|
    .field rfl (string _ plain.shard) <| .last _

/-! ### A line is the text of an object -/

theorem byte_ne {letter : Char} (ascii : letter.toNat < 128) {byte : UInt8}
    (ne : letter ≠ Ascii.char byte) : Ascii.byte letter ≠ byte := by
  intro same
  rw [← same, Ascii.char_byte ascii] at ne
  exact ne rfl

/-- Numbers and their commas stay between the strings of a container. -/
theorem after_values (depth : Nat)
    (values : ∀ letter ∈ letters,
      letter = ',' ∨ letter = '-' ∨ letter.isDigit = true) :
    (JsonScan.Scan.between depth false).after (letters.map Ascii.byte) =
      .between depth false := by
  induction letters with
  | nil => rfl
  | cons letter rest ih =>
      have others := ih fun other mem =>
        values other (List.mem_cons_of_mem letter mem)
      rw [List.map_cons, JsonScan.Scan.after_cons]
      have isValue := values letter List.mem_cons_self
      rcases isValue with rfl | number
      · have step : (JsonScan.Scan.between depth false).step
            (Ascii.byte ',') = .between depth false := rfl
        rw [step, others]
      · have ascii : letter.toNat < 128 := by
          rcases number with rfl | digit
          · decide
          · have bounds := Ascii.toNat_of_isAlphanum
              (by rw [Char.isAlphanum, digit, Bool.or_true])
            omega
        have other : ∀ byte : UInt8, Ascii.char byte ≠ '-' →
            (Ascii.char byte).isDigit = false →
            Ascii.byte letter ≠ byte := by
          intro byte notSign notDigit
          apply byte_ne ascii
          rintro rfl
          rcases number with sign | digit
          · exact notSign sign
          · rw [notDigit] at digit
            cases digit
        have isLetter : JsonScan.isLetter (Ascii.byte letter) = true := by
          simp [JsonScan.isLetter, JsonScan.isBlank,
            other 32 (by decide) (by decide), other 9 (by decide) (by decide),
            other 10 (by decide) (by decide),
            other 13 (by decide) (by decide),
            other 34 (by decide) (by decide),
            other 123 (by decide) (by decide),
            other 91 (by decide) (by decide),
            other 125 (by decide) (by decide),
            other 93 (by decide) (by decide),
            other 44 (by decide) (by decide),
            other 58 (by decide) (by decide)]
        have step : (JsonScan.Scan.between depth false).step
            (Ascii.byte letter) = .between depth false :=
          JsonScan.step_letter isLetter depth false
        rw [step, others]

theorem after_intText (depth : Nat) (value : Int) :
    (JsonScan.Scan.between depth false).after
      ((intText value).map Ascii.byte) = .between depth false :=
  after_values depth fun _ mem => .inr (mem_intText mem)

theorem after_rawText (depth : Nat) (bytes : List UInt8) :
    (JsonScan.Scan.between depth false).after
      ((rawText bytes).map Ascii.byte) = .between depth false := by
  apply after_values
  intro letter mem
  rcases mem_commaJoin mem with comma | ⟨item, inside, has⟩
  · exact .inl comma
  · obtain ⟨byte, _, rfl⟩ := List.mem_map.mp inside
    exact .inr (mem_intText has)

theorem after_identifier (depth : Nat)
    (plain : ∀ letter ∈ letters, isIdentifierLetter letter = true) :
    (JsonScan.Scan.inString depth false).after (letters.map Ascii.byte) =
      .inString depth false := by
  induction letters with
  | nil => rfl
  | cons letter rest ih =>
      have identifier := plain letter List.mem_cons_self
      have printable : ∀ other ∈ [letter], isPrintable other = true := by
        intro other mem
        rw [List.mem_singleton.mp mem]
        exact isPrintable_of_identifierLetter identifier
      have ascii := ascii_of_printable printable letter List.mem_cons_self
      have other : ∀ byte : UInt8,
          isIdentifierLetter (Ascii.char byte) = false →
          Ascii.byte letter ≠ byte := by
        intro byte notLetter
        apply byte_ne ascii
        rintro rfl
        rw [notLetter] at identifier
        cases identifier
      have step : (JsonScan.Scan.inString depth false).step
          (Ascii.byte letter) = .inString depth false := by
        rw [JsonScan.Scan.step, if_neg (other 92 (by decide)),
          if_neg (other 34 (by decide))]
      rw [List.map_cons, JsonScan.Scan.after_cons, step]
      exact ih fun other mem =>
        plain other (List.mem_cons_of_mem letter mem)

theorem accepts_bytes (plain : wire.Plain) :
    JsonScan.Accepts (wire.bytes ++ [newline]) := by
  -- The scan over the texts between the fields.
  have literal : ∀ (scan next : JsonScan.Scan) (text : String)
      (rest : List UInt8),
      scan.after (text.toList.map Ascii.byte) = next →
      scan.after (text.toList.map Ascii.byte ++ rest) = next.after rest := by
    intro scan next text rest reached
    rw [JsonScan.Scan.after_append, reached]
  have value : ∀ (scan : JsonScan.Scan) (letters : List Char)
      (rest : List UInt8), scan.after (letters.map Ascii.byte) = scan →
      scan.after (letters.map Ascii.byte ++ rest) = scan.after rest := by
    intro scan letters rest stays
    rw [JsonScan.Scan.after_append, stays]
  unfold JsonScan.Accepts
  rw [WireSpoolFrame.bytes_eq plain, WireSpoolFrame.characters_eq plain]
  simp only [List.map_append, List.append_assoc]
  rw [literal .start (.between 1 false) _ _ (by decide +kernel),
    value _ _ _ (after_intText 1 _),
    literal _ (.inString 1 false) _ _ (by decide +kernel),
    value _ _ _ (after_identifier 1 plain.digest),
    literal _ (.between 1 false) _ _ (by decide +kernel),
    value _ _ _ (after_intText 1 _),
    literal _ (.between 1 false) _ _ (by decide +kernel),
    value _ _ _ (after_intText 1 _),
    literal _ (.between 2 false) _ _ (by decide +kernel),
    value _ _ _ (after_rawText 2 _),
    literal _ (.between 1 false) _ _ (by decide +kernel),
    value _ _ _ (after_intText 1 _),
    literal _ (.inString 1 false) _ _ (by decide +kernel),
    value _ _ _ (after_identifier 1 plain.replica),
    literal _ (.between 1 false) _ _ (by decide +kernel),
    value _ _ _ (after_intText 1 _),
    literal _ (.inString 1 false) _ _ (by decide +kernel),
    value _ _ _ (after_identifier 1 plain.shard),
    literal _ .finished _ _ (by decide +kernel)]
  rfl

/-- Whether the strings of a record need no escapes. -/
def isPlain (wire : WireSpoolFrame) : Bool :=
  wire.replicaId.toList.all isIdentifierLetter &&
    wire.shardId.toList.all isIdentifierLetter &&
    wire.discoverySnapshotSha256.toList.all isIdentifierLetter

theorem isPlain_iff :
    isPlain wire = true ↔ wire.Plain := by
  simp only [isPlain, Bool.and_eq_true, List.all_eq_true]
  exact ⟨fun ⟨⟨replica, shard⟩, digest⟩ => ⟨replica, shard, digest⟩,
    fun plain => ⟨⟨plain.replica, plain.shard⟩, plain.digest⟩⟩

def lineCharacters (line : List UInt8) : List Char :=
  (line.map Ascii.char).dropLast

def readRecord (line : List UInt8) : Except String WireSpoolFrame :=
  match (Template.parse recordLiterals (lineCharacters line)).bind
      readFields with
  | none => .error "expected value"
  | some wire =>
      if isPlain wire = true ∧ wire.bytes ++ [newline] = line then .ok wire
      else .error "expected value"

theorem lineCharacters_bytes (ascii : ∀ letter ∈ letters, letter.toNat < 128) :
    lineCharacters (Ascii.bytes (String.ofList letters) ++ [newline]) =
      letters := by
  rw [lineCharacters, List.map_append, Ascii.map_char_bytes ascii]
  exact List.dropLast_concat

theorem readRecord_bytes (plain : wire.Plain) :
    readRecord (wire.bytes ++ [newline]) = .ok wire := by
  have letters : lineCharacters (wire.bytes ++ [newline]) =
      wire.characters :=
    lineCharacters_bytes
      (ascii_of_printable (WireSpoolFrame.characters_printable plain))
  rw [readRecord, letters, characters_eq_render plain,
    Template.parse_render (record_fits plain), Option.bind_some,
    readFields_recordFields]
  exact if_pos ⟨isPlain_iff.mpr plain, rfl⟩

theorem accepts_of_readRecord {line : List UInt8}
    (read : readRecord line = .ok wire) : JsonScan.Accepts line := by
  unfold readRecord at read
  split at read
  · cases read
  · split at read
    · rename_i found
      rw [← found.2]
      exact accepts_bytes (isPlain_iff.mp found.1)
    · cases read

/-! ## Sidecars -/

def sidecarLiterals : List (List Char) := [
  "\x7b\"schema_version\":".toList,
  ",\"replica_id\":\"".toList,
  "\",\"shard_id\":\"".toList,
  "\",\"minute_start_ms\":".toList,
  ",\"byte_length\":".toList,
  ",\"sha256_hex\":\"".toList,
  "\"\x7d".toList]

def sidecarFields (sidecar : ChecksumSidecar) : List (List Char) := [
  intText sidecar.schemaVersion.toNat, sidecar.replicaId.toList,
  sidecar.shardId.toList, intText sidecar.minuteStartMs.1,
  intText sidecar.byteLength, sidecar.sha256Hex.toList]

def readSidecarFields : List (List Char) → Option ChecksumSidecar
  | [version, replica, shard, minute, length, digest] =>
      some {
        schemaVersion := UInt16.ofNat (digitsValue version)
        replicaId := String.ofList replica
        shardId := String.ofList shard
        minuteStartMs := I64.clamp (intValue minute)
        byteLength := digitsValue length
        sha256Hex := String.ofList digest }
  | _ => none

theorem readSidecarFields_sidecarFields (sidecar : ChecksumSidecar) :
    readSidecarFields (sidecarFields sidecar) = some sidecar := by
  simp [readSidecarFields, sidecarFields, digitsValue_intText,
    intValue_intText, MachineInt.I64.clamp_val]

section Sidecar

variable {sidecar : ChecksumSidecar}
  (replica : ∀ letter ∈ sidecar.replicaId.toList,
    isIdentifierLetter letter = true)
  (shard : ∀ letter ∈ sidecar.shardId.toList, isIdentifierLetter letter = true)
  (digest : ∀ letter ∈ sidecar.sha256Hex.toList,
    isIdentifierLetter letter = true)

include replica shard digest

theorem sidecar_eq_render :
    sidecar.characters =
      Template.render sidecarLiterals (sidecarFields sidecar) := by
  have names : ∀ name : String, name.toList.all isIdentifierLetter = true →
      quote name = '"' :: (name.toList ++ ['"']) := fun name all =>
    characters_plain (List.all_eq_true.mp all)
  simp only [ChecksumSidecar.characters, ChecksumSidecar.json,
    JsonValue.characters, fieldCharacters, List.map_cons, List.map_nil, id,
    commaJoin, fieldText, characters_plain replica, characters_plain shard,
    characters_plain digest]
  rw [names "schema_version" (by decide), names "replica_id" (by decide),
    names "shard_id" (by decide), names "minute_start_ms" (by decide),
    names "byte_length" (by decide), names "sha256_hex" (by decide)]
  simp only [List.cons_append, List.nil_append, List.append_assoc]
  rfl

theorem sidecar_fits :
    Template.Fits sidecarLiterals (sidecarFields sidecar) := by
  have number : ∀ value : Int, ',' ∉ intText value := fun value =>
    notMem_intText value (by decide) (by decide)
  have string : ∀ letters : List Char,
      (∀ letter ∈ letters, isIdentifierLetter letter = true) →
      '"' ∉ letters := fun letters all => notMem_identifier all (by decide)
  exact
    .field rfl (number _) <| .field rfl (string _ replica) <|
    .field rfl (string _ shard) <| .field rfl (number _) <|
    .field rfl (number _) <| .field rfl (string _ digest) <| .last _

theorem sidecar_printable :
    ∀ letter ∈ sidecar.characters, isPrintable letter = true := by
  have literal : ∀ text : List Char, text.all isPrintable = true →
      ∀ letter ∈ text, isPrintable letter = true := fun text all =>
    List.all_eq_true.mp all
  have identifier : ∀ text : String,
      (∀ letter ∈ text.toList, isIdentifierLetter letter = true) →
      ∀ letter ∈ text.toList, isPrintable letter = true :=
    fun text plain letter mem =>
      isPrintable_of_identifierLetter (plain letter mem)
  rw [sidecar_eq_render replica shard digest]
  simp only [sidecarLiterals, sidecarFields, Template.render,
    List.forall_mem_append]
  exact ⟨literal _ (by decide), isPrintable_intText _, literal _ (by decide),
    identifier _ replica, literal _ (by decide), identifier _ shard,
    literal _ (by decide), isPrintable_intText _, literal _ (by decide),
    isPrintable_intText _, literal _ (by decide), identifier _ digest,
    literal _ (by decide)⟩

end Sidecar

def readSidecar (text : List UInt8) : Option ChecksumSidecar :=
  ((Template.parse sidecarLiterals (lineCharacters text)).bind
    readSidecarFields).filter fun sidecar =>
      sidecar.bytes ++ [newline] = text

theorem readSidecar_bytes
    (chunk : SpoolChunk) (byteLength : Nat) {sha256Hex : String}
    (hex : isSha256Hex sha256Hex = true) :
    readSidecar ((chunk.sidecar byteLength sha256Hex).bytes ++ [newline]) =
      some (chunk.sidecar byteLength sha256Hex) := by
  have replica : ∀ letter ∈
      (chunk.sidecar byteLength sha256Hex).replicaId.toList,
      isIdentifierLetter letter = true :=
    letters_of_isIdentifier chunk.replicaValid
  have shard : ∀ letter ∈
      (chunk.sidecar byteLength sha256Hex).shardId.toList,
      isIdentifierLetter letter = true :=
    letters_of_isIdentifier chunk.shardValid
  have digest : ∀ letter ∈
      (chunk.sidecar byteLength sha256Hex).sha256Hex.toList,
      isIdentifierLetter letter = true :=
    isIdentifierLetter_of_isSha256Hex hex
  have letters : lineCharacters
      ((chunk.sidecar byteLength sha256Hex).bytes ++ [newline]) =
        (chunk.sidecar byteLength sha256Hex).characters :=
    lineCharacters_bytes
      (ascii_of_printable (sidecar_printable replica shard digest))
  rw [readSidecar, letters, sidecar_eq_render replica shard digest,
    Template.parse_render (sidecar_fits replica shard digest),
    Option.bind_some, readSidecarFields_sidecarFields]
  simp

def text (checksumHex : List UInt8 → String)
    (hex : ∀ bytes, isSha256Hex (checksumHex bytes) = true) : SpoolText where
  checksumHex := checksumHex
  readRecord := readRecord
  readSidecar := readSidecar
  isSha256Hex_checksumHex := hex
  readRecord_bytes := fun _ _ valid => readRecord_bytes (plain_of_valid valid)
  accepts_of_readRecord := fun _ _ read => accepts_of_readRecord read
  readSidecar_bytes := fun chunk byteLength _ hex =>
    readSidecar_bytes chunk byteLength hex

end SpoolReader

end Pmkit
