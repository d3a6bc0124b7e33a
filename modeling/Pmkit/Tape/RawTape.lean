import Pmkit.Library.JsonRead
import Pmkit.Library.Lines
import Pmkit.Library.Utf8
import Pmkit.Tape.EventJson
import Pmkit.Tape.SpoolReader

/-!
# The raw tape

A tape has one JSON object a line, with the time, the connection and the text
of a received frame.  After a crash its last line may be cut anywhere; what is
kept are the lines before it.
-/

namespace Pmkit

open MachineInt JsonValue

/-- `RAW_TAPE_SCHEMA_VERSION`. -/
def rawTapeSchemaVersion : UInt16 := 1

structure RawTapeRecord where
  receiptTimeMs : I64
  connectionId : String
  raw : String
  deriving DecidableEq

inductive RawTapeError where
  | incompleteTail
  | unsupportedSchemaVersion (found : UInt16)
  | malformed (message : String)
  deriving DecidableEq

structure WireRawTapeRecord where
  schemaVersion : Option UInt16
  receiptTimeMs : Option I64
  connectionId : Option String
  raw : Option String

/-! ## Records as JSON -/

/-- The JSON object of a record; the map of `json!` orders its fields by
name. -/
def RawTapeRecord.json (record : RawTapeRecord) : JsonValue :=
  .object
    [("connection_id", .string record.connectionId),
      ("raw", .string record.raw),
      ("receipt_time_ms", .number record.receiptTimeMs.1),
      ("schema_version", .number rawTapeSchemaVersion.toNat)]

def lineText (value : JsonValue) : List Char :=
  characters (fun _ => "") id value

def RawTapeRecord.bytes (record : RawTapeRecord) : List UInt8 :=
  Ascii.bytes (String.ofList (lineText record.json))

/-- A string, or an integer of a machine word. -/
def IsScalar (value : JsonValue) : Prop :=
  (∃ text, value = .string text) ∨ ∃ word : I64, value = .number word.1

/-- The JSON library of the tape: the fields that a line has, and what it says
of a value that is no record.  An object of strings and integers is read back
from its line. -/
structure RawTapeText where
  readJson : List UInt8 → Except String JsonValue
  message : JsonValue → String
  readJson_line : ∀ fields : List (String × JsonValue),
    (∀ field ∈ fields, IsScalar field.2) →
    readJson (Ascii.bytes (String.ofList (lineText (.object fields))) ++
      [newline]) = .ok (.object fields)

/-- The fields of a derived reader that passes over other fields: it refuses
one of its own that stands twice, and takes an array of all of them. -/
def knownFields (names : List String) :
    JsonValue → Option (List (String × JsonValue))
  | .object fields =>
      if ((fields.map Prod.fst).filter fun name => name ∈ names).Nodup then
        some fields
      else
        none
  | .array items =>
      if items.length = names.length then
        some (names.zip items)
      else
        none
  | _ => none

def WireRawTapeRecord.read (value : JsonValue) : Option WireRawTapeRecord := do
  let fields ← knownFields
    ["schema_version", "receipt_time_ms", "connection_id", "raw"] value
  return {
    schemaVersion := (← optional fields "schema_version"
      (asUnsigned 16)).map UInt16.ofNat
    receiptTimeMs := ← optional fields "receipt_time_ms" fun time =>
      (asI64 time).bind I64.ofInt
    connectionId := ← optional fields "connection_id" asStr
    raw := ← optional fields "raw" asStr }

def WireRawTapeRecord.toRecord (wire : WireRawTapeRecord) :
    Except RawTapeError RawTapeRecord :=
  match wire.receiptTimeMs with
  | none => .error (.malformed "missing receipt_time_ms")
  | some receiptTimeMs =>
      match wire.connectionId with
      | none => .error (.malformed "missing connection_id")
      | some connectionId =>
          match wire.raw with
          | none => .error (.malformed "missing raw")
          | some raw => .ok { receiptTimeMs, connectionId, raw }

/-- `decode_raw_record`. -/
def decodeRawRecord (text : RawTapeText) (line : List UInt8) :
    Except RawTapeError RawTapeRecord :=
  if line.getLast? ≠ some newline then
    .error .incompleteTail
  else
    match text.readJson line with
    | .error message => .error (.malformed message)
    | .ok value =>
        match WireRawTapeRecord.read value with
        | none => .error (.malformed (text.message value))
        | some wire =>
            let found := wire.schemaVersion.getD 0
            if found ≠ rawTapeSchemaVersion then
              .error (.unsupportedSchemaVersion found)
            else
              wire.toRecord

/-- The loop of `recoverable_raw_tape_prefix`. -/
def recoverableFrom (text : RawTapeText) (offset : Nat) :
    List (List UInt8) → Except RawTapeError Nat
  | [] => .ok offset
  | line :: rest =>
      if line.getLast? ≠ some newline then
        .ok offset
      else
        match decodeRawRecord text line with
        | .error error => .error error
        | .ok _ => recoverableFrom text (offset + line.length) rest

/-- `recoverable_raw_tape_prefix`. -/
def recoverableRawTapePrefix (text : RawTapeText) (bytes : List UInt8) :
    Except RawTapeError Nat :=
  recoverableFrom text 0 (Lines.splitInclusive newline bytes)

/-- `append_raw`. -/
def appendRaw (tape : List UInt8) (receiptTimeMs : I64)
    (connectionId raw : String) : List UInt8 :=
  tape ++ (RawTapeRecord.bytes { receiptTimeMs, connectionId, raw } ++
    [newline])

def recordTape (records : List RawTapeRecord) : List UInt8 :=
  records.foldl (fun tape record =>
    appendRaw tape record.receiptTimeMs record.connectionId record.raw) []

section Lines

theorem RawTapeRecord.json_readable (record : RawTapeRecord) :
    JsonRead.Readable (fun _ => "") id record.json :=
  ⟨rfl, trivial, trivial, trivial, trivial, trivial⟩

/-- The line of a record has no newline, whatever its text holds. -/
theorem RawTapeRecord.newline_notMem (record : RawTapeRecord) :
    newline ∉ record.bytes :=
  Utf8.notMem_bytes (JsonRead.printable_characters record.json
    record.json_readable) (by decide)

theorem RawTapeRecord.scalars (record : RawTapeRecord) :
    ∀ field ∈ [("connection_id", JsonValue.string record.connectionId),
        ("raw", .string record.raw),
        ("receipt_time_ms", .number record.receiptTimeMs.1),
        ("schema_version", .number rawTapeSchemaVersion.toNat)],
      IsScalar field.2 := by
  intro field mem
  simp only [List.mem_cons, List.not_mem_nil, or_false] at mem
  rcases mem with rfl | rfl | rfl | rfl
  · exact .inl ⟨_, rfl⟩
  · exact .inl ⟨_, rfl⟩
  · exact .inr ⟨_, rfl⟩
  · exact .inr ⟨1, by decide⟩

theorem WireRawTapeRecord.read_json (record : RawTapeRecord) :
    WireRawTapeRecord.read record.json =
      some
        { schemaVersion := some rawTapeSchemaVersion
          receiptTimeMs := some record.receiptTimeMs
          connectionId := some record.connectionId
          raw := some record.raw } := by
  have version : asUnsigned 16 (.number rawTapeSchemaVersion.toNat) =
      some 1 := by
    decide
  simp [WireRawTapeRecord.read, RawTapeRecord.json, knownFields,
    JsonValue.optional, JsonValue.lookup_cons_ite, asI64_val, I64.ofInt_val, version, asStr]
  rfl

theorem decodeRawRecord_bytes (text : RawTapeText) (record : RawTapeRecord) :
    decodeRawRecord text (record.bytes ++ [newline]) = .ok record := by
  have read : text.readJson (record.bytes ++ [newline]) = .ok record.json :=
    text.readJson_line _ record.scalars
  rw [decodeRawRecord, if_neg (by simp), read]
  simp only [WireRawTapeRecord.read_json, Option.getD_some, ne_eq,
    not_true_eq_false, if_false]
  rfl

end Lines

/-! ## Recovery -/

section Recovery

variable (text : RawTapeText)

theorem recordTape_eq_join (records : List RawTapeRecord) :
    recordTape records =
      Lines.join newline (records.map RawTapeRecord.bytes) := by
  have appended : ∀ before : List UInt8,
      records.foldl (fun tape record => appendRaw tape record.receiptTimeMs
        record.connectionId record.raw) before =
      before ++ Lines.join newline (records.map RawTapeRecord.bytes) := by
    induction records with
    | nil => simp
    | cons record rest ih =>
        intro before
        rw [List.foldl_cons, ih, List.map_cons, Lines.join_cons, appendRaw]
        simp
  rw [recordTape, appended, List.nil_append]

theorem bytes_plain (records : List RawTapeRecord) :
    ∀ line ∈ records.map RawTapeRecord.bytes, newline ∉ line := by
  intro line mem
  obtain ⟨record, _, rfl⟩ := List.mem_map.mp mem
  exact record.newline_notMem

/-- A recovery takes the lines of records and stops at an unterminated one. -/
theorem recoverableFrom_lines (records : List RawTapeRecord) {tail : List UInt8}
    (unmarked : newline ∉ tail) (offset : Nat) :
    recoverableFrom text offset
        ((records.map RawTapeRecord.bytes).map (Lines.terminated newline) ++
          Lines.splitInclusive newline tail) =
      .ok (offset + (recordTape records).length) := by
  induction records generalizing offset with
  | nil =>
      by_cases some : tail = []
      · rw [some]
        rfl
      · rw [Lines.splitInclusive_tail unmarked some]
        have last : tail.getLast? ≠ .some newline := fun ends =>
          unmarked (List.mem_of_getLast? ends)
        simp only [List.map_nil, List.nil_append, recoverableFrom, if_pos last]
        rfl
  | cons record rest ih =>
      have length : (recordTape (record :: rest)).length =
          (Lines.terminated newline record.bytes).length +
            (recordTape rest).length := by
        rw [recordTape_eq_join, recordTape_eq_join, List.map_cons,
          Lines.join_cons, Lines.terminated, List.append_cons,
          List.length_append]
      rw [List.map_cons, List.map_cons, List.cons_append, recoverableFrom,
        if_neg (by simp [Lines.terminated])]
      have decoded : decodeRawRecord text (Lines.terminated newline
          record.bytes) = .ok record :=
        decodeRawRecord_bytes text record
      rw [decoded]
      simp only [ih]
      rw [length, Nat.add_assoc]

theorem mapM_decode (records : List RawTapeRecord) :
    (Lines.splitInclusive newline (recordTape records)).mapM
      (decodeRawRecord text) = .ok records := by
  have lines := Lines.splitInclusive_join (bytes_plain records) []
  have nothing : Lines.splitInclusive newline [] = [] := rfl
  rw [List.append_nil, nothing, List.append_nil, ← recordTape_eq_join] at lines
  rw [lines]
  clear lines
  induction records with
  | nil => rfl
  | cons record rest ih =>
      have decoded : decodeRawRecord text (Lines.terminated newline
          record.bytes) = .ok record :=
        decodeRawRecord_bytes text record
      rw [List.map_cons, List.map_cons, List.mapM_cons, decoded]
      simp only [ih]
      rfl

/-- A cut tape recovers the records that are completely written, and no
more. -/
theorem recoverable_take (records : List RawTapeRecord) (count : Nat) :
    ∃ whole ≤ records.length,
      (recordTape (records.take whole)).length ≤ count ∧
      (∀ more ≤ records.length,
        (recordTape (records.take more)).length ≤ count → more ≤ whole) ∧
      recoverableRawTapePrefix text ((recordTape records).take count) =
        .ok (recordTape (records.take whole)).length ∧
      (Lines.splitInclusive newline ((recordTape records).take
          (recordTape (records.take whole)).length)).mapM
        (decodeRawRecord text) = .ok (records.take whole) := by
  obtain ⟨whole, tail, within, cut, unmarked, short, most⟩ :=
    Lines.take_join (bytes_plain records) count
  rw [List.length_map] at within most
  simp only [← List.map_take, ← recordTape_eq_join] at cut short most
  refine ⟨whole, within, short, most, ?_, ?_⟩
  · rw [cut, recoverableRawTapePrefix, recordTape_eq_join,
      Lines.splitInclusive_join (bytes_plain _)]
    have recovered := recoverableFrom_lines text (records.take whole) unmarked 0
    rw [recovered, Nat.zero_add, recordTape_eq_join]
  · have kept : (recordTape records).take
        (recordTape (records.take whole)).length =
          recordTape (records.take whole) := by
      have again := congrArg
        (List.take (recordTape (records.take whole)).length) cut
      rw [List.take_take, Nat.min_eq_left short, List.take_left] at again
      exact again
    rw [kept]
    exact mapM_decode text _

end Recovery

/-- Records of the spool and of the raw tape have no newline in their lines and
are decoded as what was written, and a raw tape that is cut anywhere recovers
its complete records. -/
structure TapesRoundTrip (spool : SpoolText) (text : RawTapeText) : Prop where
  spoolRecord : ∀ chunk frame bytes, encodeRecord chunk frame = .ok bytes →
    newline ∉ bytes ∧
      decodeRecord spool (bytes ++ [newline]) = .ok (chunk, frame)
  rawRecord : ∀ record : RawTapeRecord, newline ∉ record.bytes ∧
    decodeRawRecord text (record.bytes ++ [newline]) = .ok record
  cut : ∀ records count, ∃ whole ≤ records.length,
    (recordTape (records.take whole)).length ≤ count ∧
    (∀ more ≤ records.length,
      (recordTape (records.take more)).length ≤ count → more ≤ whole) ∧
    recoverableRawTapePrefix text ((recordTape records).take count) =
      .ok (recordTape (records.take whole)).length ∧
    (Lines.splitInclusive newline ((recordTape records).take
        (recordTape (records.take whole)).length)).mapM
      (decodeRawRecord text) = .ok (records.take whole)

theorem tapesRoundTrip (spool : SpoolText) (text : RawTapeText) :
    TapesRoundTrip spool text where
  spoolRecord := by
    intro chunk frame bytes encoded
    obtain ⟨accepted, valid, rfl⟩ := Fallible.map_eq_ok.mp encoded
    exact ⟨WireSpoolFrame.newline_notMem (plain_of_valid valid),
      decodeRecord_bytes spool valid⟩
  rawRecord := fun record =>
    ⟨record.newline_notMem, decodeRawRecord_bytes text record⟩
  cut := recoverable_take text

section Compact

theorem scalar_readable {value : JsonValue} (scalar : IsScalar value) :
    JsonRead.Readable (fun _ => "") id value := by
  rcases scalar with ⟨text, rfl⟩ | ⟨word, rfl⟩
  · trivial
  · trivial

theorem scalars_readable {fields : List (String × JsonValue)}
    (scalars : ∀ field ∈ fields, IsScalar field.2) :
    JsonRead.ReadableFields (fun _ => "") id fields := by
  induction fields with
  | nil => trivial
  | cons field rest ih =>
      exact ⟨scalar_readable (scalars field List.mem_cons_self),
        ih fun other mem =>
          scalars other (List.mem_cons_of_mem field mem)⟩

theorem bytes_line (letters : List Char) :
    Ascii.bytes (String.ofList letters) ++ [newline] =
      Ascii.bytes (String.ofList (letters ++ ['\n'])) := by
  have last : String.utf8EncodeChar '\n' = [newline] := by
    decide
  rw [Utf8.bytes_ofList, Utf8.bytes_ofList, List.flatMap_append,
    List.flatMap_singleton, last]

def RawTapeText.compact : RawTapeText where
  readJson := fun line =>
    match (Utf8.decode line).bind fun text => JsonRead.parse text.toList with
    | none => .error "expected value"
    | some value => .ok value
  message := fun _ => "invalid type"
  readJson_line := by
    intro fields scalars
    have readable : JsonRead.Readable (fun _ => "") id (.object fields) :=
      ⟨rfl, scalars_readable scalars⟩
    have read := @JsonRead.parse_characters _ _ _ readable ['\n'] (by simp)
    rw [bytes_line, Utf8.decode_bytes, Option.bind_some, String.toList_ofList]
    simp only [lineText, read]

end Compact

theorem tapesRoundTrip_compact :
    TapesRoundTrip
      (SpoolReader.text (fun _ =>
        "e3b0c44298fc1c149afbf4c8996fb92427ae41e4649b934ca495991b7852b855")
        (fun _ => by decide +kernel)) .compact :=
  tapesRoundTrip _ _

end Pmkit
