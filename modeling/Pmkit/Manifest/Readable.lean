import Pmkit.Library.Fallible
import Pmkit.Manifest.Parse

/-!
# What a manifest keeps

What is written is read back field by field, so two manifests are the same
only if their runs agree on all that a manifest records.  The limits of the
market are not recorded, and a latency of more milliseconds than a JSON number
has cannot be.
-/

namespace Pmkit.Manifest

open JsonValue

@[simp]
theorem asRecord_ofFields
    (names : List String) (fields : List (String × JsonValue)) :
    asRecord names (ofFields fields) = some (ofFields fields) := rfl

theorem field_ofFields
    {A : Type} (fields : List (String × JsonValue)) (name : String)
    (read : JsonValue → Option A) :
    field (ofFields fields) name read =
      (fields.reverse.lookup name).bind read := by
  rw [field, get_ofFields]

/-- A text that is written as null or as itself is read back. -/
theorem optionalText_ofFields
    {fields : List (String × JsonValue)} {name : String}
    {value : Option String}
    (written : fields.reverse.lookup name = some (orNull value)) :
    optionalText (ofFields fields) name = some value := by
  rw [optionalText, get_ofFields, written]
  cases value with
  | none => rfl
  | some text => rfl

theorem asUnsigned_toNat16 (value : UInt16) :
    asUnsigned 16 (.number value.toNat) = some value.toNat :=
  asUnsigned_number value.toNat_lt

theorem asI32_number {value : Int} (fits : -10000 ≤ value ∧ value ≤ 10000) :
    asI32 (.number value) = some value := by
  have inRange : -2147483648 ≤ value ∧ value ≤ 2147483647 := by
    omega
  rw [asI32, if_pos inRange]

/-! ## Records -/

theorem Provenance.read_json (provenance : Provenance) :
    Provenance.read provenance.json = some provenance := by
  simp [Provenance.read, Provenance.json, field_ofFields, lookup_cons_ite,
    asStr, asBool]

def ConservativeV1Config.wire (config : ConservativeV1Config) :
    SimulationV2 where
  activationLatencyMs := .number config.activationLatency.asMillis
  makerQueueAheadBps := config.makerQueueAheadBps.toNat
  slippageBps := config.slippageBps.toNat
  marketImpactBps := config.marketImpactBps.toNat
  feeModel :=
    ⟨config.resolvedFeeModel.makerBps, config.resolvedFeeModel.takerBps⟩

def StrategyRegistration.wire (registration : StrategyRegistration) :
    StrategyV1 where
  id := registration.id.value
  market := registration.market.value
  name := registration.name
  version := registration.version
  configRevision := registration.configRevision

def RuntimeConfig.wire (config : RuntimeConfig) : RuntimeV1 where
  backtestConcurrency := config.backtestConcurrency.toNat
  manifestDir := redactedManifestDir

theorem FeeModelV1.read_json (model : FeeModel) :
    FeeModelV1.read (feeModelJson model) =
      some ⟨model.makerBps, model.takerBps⟩ := by
  have maker : asI32 (.number model.makerBps) = some model.makerBps :=
    asI32_number model.makerRange
  have taker : asI32 (.number model.takerBps) = some model.takerBps := by
    apply asI32_number
    have range := model.takerRange
    omega
  simp [FeeModelV1.read, feeModelJson, field_ofFields, lookup_cons_ite, maker,
    taker]

theorem eq_of_wideNumber {value : Nat} {written : JsonValue}
    (wide : wideNumber value = some written) : written = .number value := by
  unfold wideNumber at wide
  split at wide
  · exact (Option.some.inj wide).symm
  · cases wide

/-- A latency that fits is written and the simulation is read back. -/
theorem SimulationV2.read_json
    {config : ConservativeV1Config} {written : JsonValue}
    (json : simulationJson config = some written) :
    SimulationV2.read written = some config.wire := by
  rw [simulationJson, Option.map_eq_some_iff] at json
  obtain ⟨latency, wide, rfl⟩ := json
  rw [eq_of_wideNumber wide]
  have queue := asUnsigned_toNat16 config.makerQueueAheadBps
  have slippage := asUnsigned_toNat16 config.slippageBps
  have impact := asUnsigned_toNat16 config.marketImpactBps
  simp -implicitDefEqProofs [SimulationV2.read, SimulationV1.ofRecord,
    field_ofFields, lookup_cons_ite, asNumber, queue, slippage, impact,
    FeeModelV1.read_json, ConservativeV1Config.wire]

theorem StrategyV1.read_json (registration : StrategyRegistration) :
    StrategyV1.read (strategyJson registration) = some registration.wire := by
  have name : optionalText (strategyJson registration) "name" =
      some registration.name :=
    optionalText_ofFields (by simp [lookup_cons_ite])
  have version : optionalText (strategyJson registration) "version" =
      some registration.version :=
    optionalText_ofFields (by simp [lookup_cons_ite])
  have revision : optionalText (strategyJson registration) "config_revision" =
      some registration.configRevision :=
    optionalText_ofFields (by simp)
  rw [strategyJson] at name version revision ⊢
  simp [StrategyV1.read, field_ofFields, lookup_cons_ite, asStr, name, version,
    revision, StrategyRegistration.wire]

theorem RuntimeV1.read_json (config : RuntimeConfig) :
    RuntimeV1.read (runtimeJson config) = some config.wire := by
  have concurrency : asUnsigned 64
      (.number config.backtestConcurrency.toNat) =
        some config.backtestConcurrency.toNat :=
    asUnsigned_number config.backtestConcurrency.toNat_lt
  simp -implicitDefEqProofs [RuntimeV1.read, runtimeJson, field_ofFields,
    lookup_cons_ite, concurrency, asStr, RuntimeConfig.wire]

section Text

variable {M : Type} (text : ManifestText M)

def RiskLimits.wire (risk : RiskLimits M) : RiskV1 where
  maxOrderNotional := text.decimal risk.maxOrderNotional
  maxPositionNotional := text.decimal risk.maxPositionNotional
  maxPortfolioNotional := text.decimal risk.maxPortfolioNotional
  maxMarketNotional := text.decimal risk.maxMarketNotional
  maxStrategyNotional := text.decimal risk.maxStrategyNotional
  openOrdersLimit := risk.maxOpenOrders.toNat
  maxLoss := text.decimal risk.maxLoss
  maxDailyLoss := text.decimal risk.maxDailyLoss

def ReplaySpec.wire (replay : ReplaySpec) : ReplayV1 where
  start := text.rfc3339 replay.start
  stop := text.rfc3339 replay.stop
  evidence := evidenceStr replay.evidence

theorem RiskV1.read_json (risk : RiskLimits M) :
    RiskV1.read (riskJson text risk) = some (risk.wire text) := by
  have openOrders : asUnsigned 32 (.number risk.maxOpenOrders.toNat) =
      some risk.maxOpenOrders.toNat :=
    asUnsigned_number risk.maxOpenOrders.toNat_lt
  simp -implicitDefEqProofs [RiskV1.read, riskJson, field_ofFields,
    lookup_cons_ite, openOrders, asStr, RiskLimits.wire]

theorem ReplayV1.read_json (replay : ReplaySpec) :
    ReplayV1.read (replayJson text replay) = some (replay.wire text) := by
  simp -implicitDefEqProofs [ReplayV1.read, replayJson, field_ofFields,
    lookup_cons_ite, asStr, ReplaySpec.wire]

/-! ## A manifest read back -/

/-- What every mode records. -/
def commonOf (id : RunId) (portfolio : PortfolioId) (risk : RiskLimits M)
    (strategies : List StrategyRegistration) (config : RuntimeConfig) :
    ManifestCommonV1 where
  run := id.value
  portfolio := portfolio.value
  risk := risk.wire text
  strategies := strategies.map StrategyRegistration.wire
  runtime := config.wire

def RunSpec.body (config : RuntimeConfig) : RunSpec M → ManifestBodyV3
  | .backtest run =>
      .backtest (commonOf text run.id run.portfolio run.risk run.strategies
        config) (text.decimal run.initialCash) run.simulation.wire
        (run.replay.wire text)
  | .paper run =>
      .paper (commonOf text run.id run.portfolio run.risk run.strategies
        config) (text.decimal run.initialCash) run.simulation.wire
  | .live run =>
      .live (commonOf text run.id run.portfolio run.risk run.strategies config)

variable {fields : List (String × JsonValue)} {config : RuntimeConfig}
  {run : RunSpec M} {provenance : Provenance}

theorem field_written {A : Type} {name : String}
    {value : JsonValue} {read : JsonValue → Option A}
    (other : name ≠ "artifact_sha256")
    (found : fields.reverse.lookup name = some value) :
    field (withArtifactSha256 text (ofFields fields)) name read =
      read value := by
  rw [field, withArtifactSha256, get_insert, if_neg other, get_ofFields, found,
    Option.bind_some]

theorem ManifestCommonV1.read_written {id : RunId} {portfolio : PortfolioId}
    {risk : RiskLimits M} {strategies : List StrategyRegistration}
    (run : fields.reverse.lookup "run" = some (.string id.value))
    (owner : fields.reverse.lookup "portfolio" =
      some (.string portfolio.value))
    (limits : fields.reverse.lookup "risk" = some (riskJson text risk))
    (registered : fields.reverse.lookup "strategies" =
      some (strategiesJson strategies))
    (runtime : fields.reverse.lookup "runtime" = some (runtimeJson config)) :
    ManifestCommonV1.read (withArtifactSha256 text (ofFields fields)) =
      some (commonOf text id portfolio risk strategies config) := by
  rw [ManifestCommonV1.read, field_written text (by decide) run,
    field_written text (by decide) owner,
    field_written text (by decide) limits,
    field_written text (by decide) registered,
    field_written text (by decide) runtime, RiskV1.read_json,
    RuntimeV1.read_json]
  have registrations := @Fallible.mapM_map_eq_some _ _ _ _ _ _
    strategies
    fun registration _ => StrategyV1.read_json registration
  simp only [Option.bind_eq_bind, Option.bind_some, asStr, strategiesJson,
    asArray, registrations]
  rfl

/-- A manifest is read back as what it records. -/
theorem ManifestBody.read_written {content : JsonValue}
    (written : manifestContent text run config provenance = some content) :
    ManifestBody.read SimulationV2.read (withArtifactSha256 text content) =
      some (run.body text config) := by
  cases run with
  | backtest run =>
      rw [manifestContent, Option.map_eq_some_iff] at written
      obtain ⟨simulation, simulated, rfl⟩ := written
      have terms := SimulationV2.read_json simulated
      rw [ManifestBody.read, field_written text (by decide) rfl,
        ManifestCommonV1.read_written text rfl rfl rfl rfl rfl]
      simp only [Mode.read, Option.bind_eq_bind, Option.bind_some]
      rw [field_written text (by decide) rfl,
        field_written text (by decide) rfl,
        field_written text (by decide) rfl, terms, ReplayV1.read_json]
      rfl
  | paper run =>
      rw [manifestContent, Option.map_eq_some_iff] at written
      obtain ⟨simulation, simulated, rfl⟩ := written
      have terms := SimulationV2.read_json simulated
      rw [ManifestBody.read, field_written text (by decide) rfl,
        ManifestCommonV1.read_written text rfl rfl rfl rfl rfl]
      simp only [Mode.read, Option.bind_eq_bind, Option.bind_some]
      rw [field_written text (by decide) rfl,
        field_written text (by decide) rfl, terms]
      rfl
  | live run =>
      obtain rfl := Option.some.inj written
      rw [ManifestBody.read, field_written text (by decide) rfl,
        ManifestCommonV1.read_written text rfl rfl rfl rfl rfl]
      rfl

theorem manifestContent_fields {content : JsonValue}
    (written : manifestContent text run config provenance = some content) :
    ∃ fields, content = ofFields fields ∧
      fields.reverse.lookup "schema_version" =
        some (.number manifestSchemaVersion) ∧
      fields.reverse.lookup "provenance" = some provenance.json := by
  cases run with
  | backtest run =>
      rw [manifestContent, Option.map_eq_some_iff] at written
      obtain ⟨simulation, _, rfl⟩ := written
      exact ⟨_, rfl, rfl, rfl⟩
  | paper run =>
      rw [manifestContent, Option.map_eq_some_iff] at written
      obtain ⟨simulation, _, rfl⟩ := written
      exact ⟨_, rfl, rfl, rfl⟩
  | live run =>
      obtain rfl := Option.some.inj written
      exact ⟨_, rfl, rfl, rfl⟩

/-- The fees of a run are accepted by the reader. -/
theorem RunSpec.validateFeeModel_body
    (config : RuntimeConfig) (run : RunSpec M) :
    (run.body text config).validateFeeModel = .ok () := by
  have accepted : ∀ model : FeeModel,
      FeeModel.tryNew model.makerBps model.takerBps = .ok model := by
    intro model
    rw [FeeModel.tryNew, dif_pos model.makerRange, dif_pos model.takerRange]
  cases run with
  | backtest run =>
      simp only [body, ManifestBody.validateFeeModel,
        ConservativeV1Config.wire, accepted]
  | paper run =>
      simp only [body, ManifestBody.validateFeeModel,
        ConservativeV1Config.wire, accepted]
  | live run =>
      rfl

/-- What is built is read as a manifest of the third version. -/
theorem parseManifest_of_build {manifest : JsonValue}
    (built : buildManifest text run config provenance = some manifest) :
    ∃ digest, parseManifest manifest =
      .ok (.v3 ⟨3, digest, provenance, run.body text config⟩) := by
  rw [buildManifest, Option.map_eq_some_iff] at built
  obtain ⟨content, written, rfl⟩ := built
  have body := ManifestBody.read_written text written
  have fees := run.validateFeeModel_body text config
  obtain ⟨fields, rfl, version, origin⟩ := manifestContent_fields text written
  have schemaVersion :
      field (withArtifactSha256 text (ofFields fields)) "schema_version"
        (asUnsigned 16) = some 3 :=
    field_written text (by decide) version
  have source :
      field (withArtifactSha256 text (ofFields fields)) "provenance"
        Provenance.read = some provenance := by
    rw [field_written text (by decide) origin, Provenance.read_json]
  have digest :
      field (withArtifactSha256 text (ofFields fields)) "artifact_sha256"
        asStr = some (text.sha256Hex (text.writeJson (ofFields fields))) := by
    rw [field, withArtifactSha256, get_insert, if_pos rfl]
    rfl
  have record :
      asRecord ["schema_version"] (withArtifactSha256 text (ofFields fields)) =
        some (withArtifactSha256 text (ofFields fields)) := rfl
  have read : ManifestV3.read (withArtifactSha256 text (ofFields fields)) =
      some ⟨3, text.sha256Hex (text.writeJson (ofFields fields)), provenance,
        run.body text config⟩ := by
    rw [ManifestV3.read, schemaVersion, digest, source, body]
    rfl
  refine ⟨text.sha256Hex (text.writeJson (ofFields fields)), ?_⟩
  rw [parseManifest, record, Option.bind_some, schemaVersion]
  simp only [read, fees]

end Text

end Pmkit.Manifest
