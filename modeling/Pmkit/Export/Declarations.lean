import Pmkit.Export.Portable
import Pmkit.Library.Fallible

/-!
# Declarations that are read

What a reader of a declaration has found in the fields, one by one, and that it
reads back what is written.
-/

namespace Pmkit

open JsonValue

theorem PortableOutcomeToken.read_json (token : PortableOutcomeToken) :
    PortableOutcomeToken.read token.json = some token := by
  simp [PortableOutcomeToken.read, PortableOutcomeToken.json, recordFields,
    required_cons, asStr]

namespace PortableMarketSegment

/-- A segment has the values of the fields it was read from. -/
structure ReadFrom (segment : PortableMarketSegment)
    (fields : List (String × JsonValue)) : Prop where
  segmentId : required fields "segment_id" asStr = some segment.segmentId
  seriesId : required fields "series_id" asStr = some segment.seriesId
  asset : optional fields "asset" asStr = some segment.asset
  durationSeconds : optional fields "duration_seconds" (asUnsigned 64) =
    some segment.durationSeconds
  marketId : required fields "market_id" asStr = some segment.marketId
  discoverySnapshotSha256 :
    optional fields "discovery_snapshot_sha256" asStr =
      some segment.discoverySnapshotSha256
  conditionId : required fields "condition_id" asStr = some segment.conditionId
  outcomeTokens : (required fields "outcome_tokens" fun tokens =>
    tokens.asArray.bind (·.mapM PortableOutcomeToken.read)) =
      some segment.outcomeTokens
  marketOpenTimeMs : required fields "market_open_time_ms" asI64 =
    some segment.marketOpenTimeMs
  marketCloseTimeMs : required fields "market_close_time_ms" asI64 =
    some segment.marketCloseTimeMs
  partitionStartTimeMs : required fields "partition_start_time_ms" asI64 =
    some segment.partitionStartTimeMs
  partitionEndTimeMs : required fields "partition_end_time_ms" asI64 =
    some segment.partitionEndTimeMs
  subpartOrdinal : required fields "subpart_ordinal" (asUnsigned 64) =
    some segment.subpartOrdinal
  fromTimeMs : required fields "from_time_ms" asI64 = some segment.fromTimeMs
  toTimeMs : required fields "to_time_ms" asI64 = some segment.toTimeMs
  fromTsMs : optional fields "from_ts_ms" asI64 = some segment.fromTsMs
  toTsMs : optional fields "to_ts_ms" asI64 = some segment.toTsMs
  rows : required fields "rows" (asUnsigned 64) = some segment.rows
  bytes : required fields "bytes" (asUnsigned 64) = some segment.bytes
  sha256 : required fields "sha256" asStr = some segment.sha256
  sourceManifestSha256 : required fields "source_manifest_sha256" asStr =
    some segment.sourceManifestSha256
  artifactKey : required fields "artifact_key" asStr = some segment.artifactKey

variable {value : JsonValue} {segment : PortableMarketSegment} {name : String}
  {fields : List (String × JsonValue)}

theorem read_eq_some_iff
    :
    PortableMarketSegment.read value = some segment ↔
      ∃ fields, value.recordFields segmentFieldNames = some fields ∧
        segment.ReadFrom fields := by
  constructor
  · intro read
    unfold PortableMarketSegment.read at read
    obtain ⟨fields, named, read⟩ := Option.bind_eq_some_iff.mp read
    obtain ⟨_, segmentId, read⟩ := Option.bind_eq_some_iff.mp read
    obtain ⟨_, seriesId, read⟩ := Option.bind_eq_some_iff.mp read
    obtain ⟨_, asset, read⟩ := Option.bind_eq_some_iff.mp read
    obtain ⟨_, duration, read⟩ := Option.bind_eq_some_iff.mp read
    obtain ⟨_, marketId, read⟩ := Option.bind_eq_some_iff.mp read
    obtain ⟨_, snapshot, read⟩ := Option.bind_eq_some_iff.mp read
    obtain ⟨_, conditionId, read⟩ := Option.bind_eq_some_iff.mp read
    obtain ⟨_, outcomeTokens, read⟩ := Option.bind_eq_some_iff.mp read
    obtain ⟨_, opens, read⟩ := Option.bind_eq_some_iff.mp read
    obtain ⟨_, closes, read⟩ := Option.bind_eq_some_iff.mp read
    obtain ⟨_, starts, read⟩ := Option.bind_eq_some_iff.mp read
    obtain ⟨_, ends, read⟩ := Option.bind_eq_some_iff.mp read
    obtain ⟨_, ordinal, read⟩ := Option.bind_eq_some_iff.mp read
    obtain ⟨_, fromTime, read⟩ := Option.bind_eq_some_iff.mp read
    obtain ⟨_, toTime, read⟩ := Option.bind_eq_some_iff.mp read
    obtain ⟨_, fromTs, read⟩ := Option.bind_eq_some_iff.mp read
    obtain ⟨_, toTs, read⟩ := Option.bind_eq_some_iff.mp read
    obtain ⟨_, rows, read⟩ := Option.bind_eq_some_iff.mp read
    obtain ⟨_, bytes, read⟩ := Option.bind_eq_some_iff.mp read
    obtain ⟨_, sha256, read⟩ := Option.bind_eq_some_iff.mp read
    obtain ⟨_, source, read⟩ := Option.bind_eq_some_iff.mp read
    obtain ⟨_, artifactKey, read⟩ := Option.bind_eq_some_iff.mp read
    cases read
    exact ⟨fields, named, segmentId, seriesId, asset, duration, marketId,
      snapshot, conditionId, outcomeTokens, opens, closes, starts, ends,
      ordinal, fromTime, toTime, fromTs, toTs, rows, bytes, sha256, source,
      artifactKey⟩
  · rintro ⟨fields, named, found⟩
    unfold PortableMarketSegment.read
    refine Option.bind_eq_some_iff.mpr ⟨_, named, ?_⟩
    refine Option.bind_eq_some_iff.mpr ⟨_, found.segmentId, ?_⟩
    refine Option.bind_eq_some_iff.mpr ⟨_, found.seriesId, ?_⟩
    refine Option.bind_eq_some_iff.mpr ⟨_, found.asset, ?_⟩
    refine Option.bind_eq_some_iff.mpr ⟨_, found.durationSeconds, ?_⟩
    refine Option.bind_eq_some_iff.mpr ⟨_, found.marketId, ?_⟩
    refine Option.bind_eq_some_iff.mpr ⟨_, found.discoverySnapshotSha256, ?_⟩
    refine Option.bind_eq_some_iff.mpr ⟨_, found.conditionId, ?_⟩
    refine Option.bind_eq_some_iff.mpr ⟨_, found.outcomeTokens, ?_⟩
    refine Option.bind_eq_some_iff.mpr ⟨_, found.marketOpenTimeMs, ?_⟩
    refine Option.bind_eq_some_iff.mpr ⟨_, found.marketCloseTimeMs, ?_⟩
    refine Option.bind_eq_some_iff.mpr ⟨_, found.partitionStartTimeMs, ?_⟩
    refine Option.bind_eq_some_iff.mpr ⟨_, found.partitionEndTimeMs, ?_⟩
    refine Option.bind_eq_some_iff.mpr ⟨_, found.subpartOrdinal, ?_⟩
    refine Option.bind_eq_some_iff.mpr ⟨_, found.fromTimeMs, ?_⟩
    refine Option.bind_eq_some_iff.mpr ⟨_, found.toTimeMs, ?_⟩
    refine Option.bind_eq_some_iff.mpr ⟨_, found.fromTsMs, ?_⟩
    refine Option.bind_eq_some_iff.mpr ⟨_, found.toTsMs, ?_⟩
    refine Option.bind_eq_some_iff.mpr ⟨_, found.rows, ?_⟩
    refine Option.bind_eq_some_iff.mpr ⟨_, found.bytes, ?_⟩
    refine Option.bind_eq_some_iff.mpr ⟨_, found.sha256, ?_⟩
    refine Option.bind_eq_some_iff.mpr ⟨_, found.sourceManifestSha256, ?_⟩
    refine Option.bind_eq_some_iff.mpr ⟨_, found.artifactKey, ?_⟩
    rfl

/-! ## Values of the declared types -/

def times (segment : PortableMarketSegment) : List Int :=
  [segment.marketOpenTimeMs, segment.marketCloseTimeMs,
    segment.partitionStartTimeMs, segment.partitionEndTimeMs,
    segment.fromTimeMs, segment.toTimeMs] ++ segment.fromTsMs.toList ++
    segment.toTsMs.toList

def counts (segment : PortableMarketSegment) : List Nat :=
  [segment.subpartOrdinal, segment.rows, segment.bytes] ++
    segment.durationSeconds.toList

/-- Times are of type `i64` and counts of type `u64`. -/
structure Typed (segment : PortableMarketSegment) : Prop where
  times : ∀ time ∈ segment.times, -(2 ^ 63) ≤ time ∧ time < 2 ^ 63
  counts : ∀ count ∈ segment.counts, count < 2 ^ 64

def written (segment : PortableMarketSegment) : List (String × JsonValue) :=
  match segment.json with
  | .object fields => fields
  | _ => []

theorem json_eq (segment : PortableMarketSegment) :
    segment.json = .object segment.written :=
  rfl

theorem mem_skipNone {value : Option JsonValue} {field : String × JsonValue} :
    field ∈ skipNone name value ↔ field.1 = name ∧ value = some field.2 := by
  cases value with
  | none => simp [skipNone]
  | some value => simp [skipNone, Prod.ext_iff, eq_comm]

/-- The written fields are declared ones, in their order. -/
theorem written_sublist (segment : PortableMarketSegment) :
    (segment.written.map Prod.fst).Sublist segmentFieldNames := by
  have skipped : ∀ name value,
      ((skipNone name value).map Prod.fst).Sublist [name] := by
    intro name value
    cases value with
    | none => exact List.nil_sublist _
    | some value => exact List.Sublist.refl _
  have names : segment.written.map Prod.fst =
      ["segment_id", "series_id", "asset", "duration_seconds", "market_id"] ++
      (skipNone "discovery_snapshot_sha256"
        (segment.discoverySnapshotSha256.map .string)).map Prod.fst ++
      ["condition_id", "outcome_tokens", "market_open_time_ms",
        "market_close_time_ms", "partition_start_time_ms",
        "partition_end_time_ms", "subpart_ordinal", "from_time_ms",
        "to_time_ms"] ++
      (skipNone "from_ts_ms" (segment.fromTsMs.map .number)).map Prod.fst ++
      (skipNone "to_ts_ms" (segment.toTsMs.map .number)).map Prod.fst ++
      ["rows", "bytes", "sha256", "source_manifest_sha256",
        "artifact_key"] := by
    simp only [written, json, List.map_append]
    rfl
  rw [names]
  exact (((((List.Sublist.refl _).append (skipped _ _)).append
    (List.Sublist.refl _)).append (skipped _ _)).append (skipped _ _)).append
      (List.Sublist.refl _)

theorem written_nodup (segment : PortableMarketSegment) :
    (segment.written.map Prod.fst).Nodup :=
  segment.written_sublist.nodup (by decide)

/-- A field whose name stands once is found. -/
theorem lookup_of_mem
    (distinct : (fields.map Prod.fst).Nodup) (mem : (name, value) ∈ fields) :
    fields.lookup name = some value := by
  induction fields with
  | nil => cases mem
  | cons field rest ih =>
      rw [List.map_cons, List.nodup_cons] at distinct
      rw [lookup_cons_ite]
      rcases List.mem_cons.mp mem with rfl | later
      · rw [if_pos rfl]
      · rw [if_neg, ih distinct.2 later]
        rintro rfl
        exact distinct.1 (List.mem_map.mpr ⟨_, later, rfl⟩)

theorem lookup_of_notMem
    (absent : name ∉ fields.map Prod.fst) : fields.lookup name = none := by
  rw [List.lookup_eq_none_iff]
  intro field mem
  rw [bne_iff_ne]
  rintro rfl
  exact absent (List.mem_map_of_mem mem)

section Found

variable {A : Type} {fields : List (String × JsonValue)} {name : String}
  {value : JsonValue} {read : JsonValue → Option A}

theorem required_of_mem
    (distinct : (fields.map Prod.fst).Nodup) (mem : (name, value) ∈ fields) :
    JsonValue.required fields name read = read value := by
  rw [JsonValue.required, lookup_of_mem distinct mem, Option.bind_some]

theorem optional_of_mem
    (distinct : (fields.map Prod.fst).Nodup) (mem : (name, value) ∈ fields)
    (notNull : value ≠ .null) :
    JsonValue.optional fields name read = (read value).map some := by
  rw [JsonValue.optional, lookup_of_mem distinct mem]
  split
  · contradiction
  · rename_i null
    exact absurd (Option.some.inj null) notNull
  · rename_i same
    rw [Option.some.inj same]

theorem optional_of_null (distinct : (fields.map Prod.fst).Nodup)
    (mem : (name, JsonValue.null) ∈ fields) :
    JsonValue.optional fields name read = some none := by
  rw [JsonValue.optional, lookup_of_mem distinct mem]

theorem optional_of_notMem (absent : name ∉ fields.map Prod.fst) :
    JsonValue.optional fields name read = some none := by
  rw [JsonValue.optional, lookup_of_notMem absent]

end Found

theorem readFrom_written (typed : segment.Typed) :
    segment.ReadFrom segment.written := by
  have distinct := segment.written_nodup
  have text : ∀ name value, (name, .string value) ∈ segment.written →
      JsonValue.required segment.written name asStr = some value :=
    fun name value mem => required_of_mem distinct mem
  have time : ∀ name, ∀ value ∈ segment.times,
      (name, .number value) ∈ segment.written →
      JsonValue.required segment.written name asI64 = some value := by
    intro name value isTime mem
    rw [required_of_mem distinct mem, asI64_number (typed.times value isTime)]
  have count : ∀ name, ∀ value ∈ segment.counts,
      (name, .number (value : Int)) ∈ segment.written →
      JsonValue.required segment.written name (asUnsigned 64) =
        some value := by
    intro name value isCount mem
    rw [required_of_mem distinct mem,
      asUnsigned_number (typed.counts value isCount)]
  constructor
  case segmentId => exact text _ _ (by simp [written, json])
  case seriesId => exact text _ _ (by simp [written, json])
  case marketId => exact text _ _ (by simp [written, json])
  case conditionId => exact text _ _ (by simp [written, json])
  case sha256 => exact text _ _ (by simp [written, json])
  case sourceManifestSha256 => exact text _ _ (by simp [written, json])
  case artifactKey => exact text _ _ (by simp [written, json])
  case marketOpenTimeMs =>
    exact time _ _ (by simp [times]) (by simp [written, json])
  case marketCloseTimeMs =>
    exact time _ _ (by simp [times]) (by simp [written, json])
  case partitionStartTimeMs =>
    exact time _ _ (by simp [times]) (by simp [written, json])
  case partitionEndTimeMs =>
    exact time _ _ (by simp [times]) (by simp [written, json])
  case fromTimeMs =>
    exact time _ _ (by simp [times]) (by simp [written, json])
  case toTimeMs =>
    exact time _ _ (by simp [times]) (by simp [written, json])
  case subpartOrdinal =>
    exact count _ _ (by simp [counts]) (by simp [written, json])
  case rows =>
    exact count _ _ (by simp [counts]) (by simp [written, json])
  case bytes =>
    exact count _ _ (by simp [counts]) (by simp [written, json])
  case asset =>
    cases value : segment.asset with
    | none => exact optional_of_null distinct (by simp [written, json, value, orNull])
    | some item =>
        exact @optional_of_mem _ _ _ (.string item) _ distinct
          (by simp [written, json, value, orNull]) (by simp)
  case durationSeconds =>
    cases value : segment.durationSeconds with
    | none => exact optional_of_null distinct (by simp [written, json, value, orNull])
    | some item =>
        rw [@optional_of_mem _ _ _ (.number (item : Int)) _ distinct
          (by simp [written, json, value, orNull]) (by simp), asUnsigned_number
            (typed.counts item (by simp [counts, value]))]
        rfl
  case discoverySnapshotSha256 =>
    cases value : segment.discoverySnapshotSha256 with
    | none => exact optional_of_notMem (by simp [written, json, value, mem_skipNone])
    | some item =>
        rw [@optional_of_mem _ _ _ (.string item) _ distinct
          (by simp [written, json, value, mem_skipNone]) (by simp)]
        rfl
  case fromTsMs =>
    cases value : segment.fromTsMs with
    | none => exact optional_of_notMem (by simp [written, json, value, mem_skipNone])
    | some item =>
        rw [@optional_of_mem _ _ _ (.number item) _ distinct
          (by simp [written, json, value, mem_skipNone]) (by simp)]
        rw [asI64_number (typed.times item (by simp [times, value]))]
        rfl
  case toTsMs =>
    cases value : segment.toTsMs with
    | none => exact optional_of_notMem (by simp [written, json, value, mem_skipNone])
    | some item =>
        rw [@optional_of_mem _ _ _ (.number item) _ distinct
          (by simp [written, json, value, mem_skipNone]) (by simp)]
        rw [asI64_number (typed.times item (by simp [times, value]))]
        rfl
  case outcomeTokens =>
    rw [@required_of_mem _ _ _ (.array (segment.outcomeTokens.map
      PortableOutcomeToken.json)) _ distinct (by simp [written, json])]
    exact (Fallible.mapM_map_eq_some fun token _ => token.read_json).trans
      (congrArg some (List.map_id segment.outcomeTokens))

theorem read_json {segment : PortableMarketSegment} (typed : segment.Typed) :
    PortableMarketSegment.read segment.json = some segment := by
  refine read_eq_some_iff.mpr ⟨segment.written, ?_, readFrom_written typed⟩
  rw [json_eq, recordFields, if_pos]
  exact ⟨segment.written_nodup, fun field mem =>
    segment.written_sublist.subset (List.mem_map_of_mem mem)⟩

theorem fits_of_asI64 {time : Int} (read : value.asI64 = some time) :
    -(2 ^ 63) ≤ time ∧ time < 2 ^ 63 := by
  unfold asI64 at read
  split at read
  · split at read
    · cases read
      assumption
    · cases read
  · cases read

theorem lt_of_asUnsigned {bits count : Nat}
    (read : value.asUnsigned bits = some count) : count < 2 ^ bits := by
  unfold asUnsigned at read
  split at read
  · split at read
    · rename_i bounds
      cases read
      rw [Int.toNat_lt bounds.1]
      exact_mod_cast bounds.2
    · cases read
  · cases read

theorem read_of_optional {A : Type} {read : JsonValue → Option A} {value : A}
    (found : JsonValue.optional fields name read = some (some value)) :
    ∃ item, read item = some value := by
  unfold JsonValue.optional at found
  split at found
  · cases found
  · cases found
  · obtain ⟨item, isItem, same⟩ := Option.map_eq_some_iff.mp found
    cases same
    exact ⟨_, isItem⟩

theorem typed_of_read (read : PortableMarketSegment.read value = some segment) :
    segment.Typed := by
  obtain ⟨fields, _, found⟩ := read_eq_some_iff.mp read
  have time : ∀ name value,
      JsonValue.required fields name asI64 = some value →
        -(2 ^ 63) ≤ value ∧ value < 2 ^ 63 := by
    intro name value isTime
    obtain ⟨item, _, isValue⟩ := Option.bind_eq_some_iff.mp isTime
    exact fits_of_asI64 isValue
  have count : ∀ name value,
      JsonValue.required fields name (asUnsigned 64) = some value →
        value < 2 ^ 64 := by
    intro name value isCount
    obtain ⟨item, _, isValue⟩ := Option.bind_eq_some_iff.mp isCount
    exact lt_of_asUnsigned isValue
  constructor
  · intro value mem
    simp only [times, List.mem_append, List.mem_cons, List.not_mem_nil,
      or_false, Option.mem_toList] at mem
    rcases mem with ((rfl | rfl | rfl | rfl | rfl | rfl) | isFrom) | isTo
    · exact time _ _ found.marketOpenTimeMs
    · exact time _ _ found.marketCloseTimeMs
    · exact time _ _ found.partitionStartTimeMs
    · exact time _ _ found.partitionEndTimeMs
    · exact time _ _ found.fromTimeMs
    · exact time _ _ found.toTimeMs
    · obtain ⟨item, isValue⟩ := read_of_optional (isFrom ▸ found.fromTsMs)
      exact fits_of_asI64 isValue
    · obtain ⟨item, isValue⟩ := read_of_optional (isTo ▸ found.toTsMs)
      exact fits_of_asI64 isValue
  · intro value mem
    simp only [counts, List.mem_append, List.mem_cons, List.not_mem_nil,
      or_false, Option.mem_toList] at mem
    rcases mem with (rfl | rfl | rfl) | isDuration
    · exact count _ _ found.subpartOrdinal
    · exact count _ _ found.rows
    · exact count _ _ found.bytes
    · obtain ⟨item, isValue⟩ :=
        read_of_optional (isDuration ▸ found.durationSeconds)
      exact lt_of_asUnsigned isValue

end PortableMarketSegment

end Pmkit
