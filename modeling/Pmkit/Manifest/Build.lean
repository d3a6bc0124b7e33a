import Pmkit.Event
import Pmkit.Library.Instants
import Pmkit.Library.Json
import Pmkit.Sim.Engine

/-!
# Run manifests

A manifest records what a run was made of: its ids, its risk limits, its
simulation, its strategies and its window, with the build that wrote it and a
digest over all of it.
-/

namespace Pmkit.Manifest

open JsonValue

structure Duration where
  seconds : UInt64
  nanoseconds : UInt32
  below : nanoseconds < 1000000000
  deriving DecidableEq

/-- `as_millis`. -/
def Duration.asMillis (duration : Duration) : Nat :=
  duration.seconds.toNat * 1000 + duration.nanoseconds.toNat / 1000000

structure ConservativeV1Config where
  activationLatency : Duration
  makerQueueAheadBps : UInt16
  slippageBps : UInt16
  marketImpactBps : UInt16
  feeModel : Option FeeModel
  marketLimits : Option MarketLimits
  deriving DecidableEq

/-- `resolved_fee_model`. -/
def ConservativeV1Config.resolvedFeeModel (config : ConservativeV1Config) :
    FeeModel :=
  match config.feeModel with
  | some feeModel => feeModel
  | none => FeeModel.forCategory .crypto

structure RiskLimits (M : Type) where
  maxOrderNotional : M
  maxPositionNotional : M
  maxPortfolioNotional : M
  maxMarketNotional : M
  maxStrategyNotional : M
  maxOpenOrders : UInt32
  maxLoss : M
  maxDailyLoss : M
  someOrders : maxOpenOrders ≠ 0

structure StrategyRegistration where
  id : StrategyId
  market : MarketId
  name : Option String
  version : Option String
  configRevision : Option String
  deriving DecidableEq

structure ReplaySpec where
  start : DateTime
  stop : DateTime
  evidence : EvidenceRequirement
  deriving DecidableEq

structure BacktestRun (M : Type) where
  id : RunId
  portfolio : PortfolioId
  replay : ReplaySpec
  initialCash : M
  risk : RiskLimits M
  simulation : ConservativeV1Config
  strategies : List StrategyRegistration

structure PaperRun (M : Type) where
  id : RunId
  portfolio : PortfolioId
  initialCash : M
  risk : RiskLimits M
  simulation : ConservativeV1Config
  strategies : List StrategyRegistration

structure LiveRun (M : Type) where
  id : RunId
  portfolio : PortfolioId
  risk : RiskLimits M
  strategies : List StrategyRegistration

inductive RunSpec (M : Type) where
  | backtest (run : BacktestRun M)
  | paper (run : PaperRun M)
  | live (run : LiveRun M)

structure RuntimeConfig where
  backtestConcurrency : UInt64
  someBacktests : backtestConcurrency ≠ 0

structure GitProvenance where
  commit : String
  dirty : Bool
  deriving DecidableEq

structure Provenance where
  git : GitProvenance
  cargoLockSha256 : String
  toolchain : String
  deriving DecidableEq

/-! ## Writing -/

/-- How amounts and instants are printed, and how a value is digested. -/
structure ManifestText (M : Type) where
  decimal : M → String
  rfc3339 : DateTime → String
  writeJson : JsonValue → String
  sha256Hex : String → String

def manifestSchemaVersion : Nat := 3

def redactedManifestDir : String := "<redacted>"

def wideNumber (value : Nat) : Option JsonValue :=
  if value < 18446744073709551616 then some (.number value) else none

def orNull : Option String → JsonValue
  | none => .null
  | some value => .string value

def Provenance.json (provenance : Provenance) : JsonValue :=
  .ofFields
    [("git", .ofFields
      [("commit", .string provenance.git.commit),
        ("dirty", .bool provenance.git.dirty)]),
      ("cargo_lock_sha256", .string provenance.cargoLockSha256),
      ("toolchain", .string provenance.toolchain)]

def feeModelJson (model : FeeModel) : JsonValue :=
  .ofFields
    [("maker_bps", .number model.makerBps),
      ("taker_bps", .number model.takerBps)]

/-- `simulation_json`; there is none when a number does not fit. -/
def simulationJson (config : ConservativeV1Config) : Option JsonValue :=
  (wideNumber config.activationLatency.asMillis).map fun latency =>
    .ofFields
      [("activation_latency_ms", latency),
        ("maker_queue_ahead_bps", .number config.makerQueueAheadBps.toNat),
        ("slippage_bps", .number config.slippageBps.toNat),
        ("market_impact_bps", .number config.marketImpactBps.toNat),
        ("fee_model", feeModelJson config.resolvedFeeModel)]

def strategyJson (registration : StrategyRegistration) : JsonValue :=
  .ofFields
    [("id", .string registration.id.value),
      ("market", .string registration.market.value),
      ("name", orNull registration.name),
      ("version", orNull registration.version),
      ("config_revision", orNull registration.configRevision)]

/-- `strategies_json`. -/
def strategiesJson (registrations : List StrategyRegistration) : JsonValue :=
  .array (registrations.map strategyJson)

/-- `evidence_str`. -/
def evidenceStr : EvidenceRequirement → String
  | .corroboratedOnly => "corroborated_only"
  | .allowSingleSource => "allow_single_source"

def runtimeJson (config : RuntimeConfig) : JsonValue :=
  .ofFields
    [("backtest_concurrency", .number config.backtestConcurrency.toNat),
      ("manifest_dir", .string redactedManifestDir)]

section Text

variable {M : Type} (text : ManifestText M)

/-- `risk_json`. -/
def riskJson (risk : RiskLimits M) : JsonValue :=
  .ofFields
    [("max_order_notional", .string (text.decimal risk.maxOrderNotional)),
      ("max_position_notional",
        .string (text.decimal risk.maxPositionNotional)),
      ("max_portfolio_notional",
        .string (text.decimal risk.maxPortfolioNotional)),
      ("max_market_notional", .string (text.decimal risk.maxMarketNotional)),
      ("max_strategy_notional",
        .string (text.decimal risk.maxStrategyNotional)),
      ("max_open_orders", .number risk.maxOpenOrders.toNat),
      ("max_loss", .string (text.decimal risk.maxLoss)),
      ("max_daily_loss", .string (text.decimal risk.maxDailyLoss))]

def replayJson (replay : ReplaySpec) : JsonValue :=
  .ofFields
    [("from", .string (text.rfc3339 replay.start)),
      ("to", .string (text.rfc3339 replay.stop)),
      ("evidence", .string (evidenceStr replay.evidence))]

def manifestContent (run : RunSpec M) (config : RuntimeConfig)
    (provenance : Provenance) : Option JsonValue :=
  match run with
  | .backtest backtest =>
      (simulationJson backtest.simulation).map fun simulation =>
        .ofFields
          [("schema_version", .number manifestSchemaVersion),
            ("mode", .string "backtest"),
            ("run", .string backtest.id.value),
            ("portfolio", .string backtest.portfolio.value),
            ("initial_cash", .string (text.decimal backtest.initialCash)),
            ("risk", riskJson text backtest.risk),
            ("simulation", simulation),
            ("strategies", strategiesJson backtest.strategies),
            ("provenance", provenance.json),
            ("replay", replayJson text backtest.replay),
            ("runtime", runtimeJson config)]
  | .paper paper =>
      (simulationJson paper.simulation).map fun simulation =>
        .ofFields
          [("schema_version", .number manifestSchemaVersion),
            ("mode", .string "paper"),
            ("run", .string paper.id.value),
            ("portfolio", .string paper.portfolio.value),
            ("initial_cash", .string (text.decimal paper.initialCash)),
            ("risk", riskJson text paper.risk),
            ("simulation", simulation),
            ("strategies", strategiesJson paper.strategies),
            ("provenance", provenance.json),
            ("runtime", runtimeJson config)]
  | .live live =>
      some (.ofFields
        [("schema_version", .number manifestSchemaVersion),
          ("mode", .string "live"),
          ("run", .string live.id.value),
          ("portfolio", .string live.portfolio.value),
          ("risk", riskJson text live.risk),
          ("strategies", strategiesJson live.strategies),
          ("provenance", provenance.json),
          ("runtime", runtimeJson config)])

/-- `with_artifact_sha256`. -/
def withArtifactSha256 (artifact : JsonValue) : JsonValue :=
  artifact.insert "artifact_sha256"
    (.string (text.sha256Hex (text.writeJson artifact)))

/-- `build_manifest_with_provenance`; `none` where it panics. -/
def buildManifest (run : RunSpec M) (config : RuntimeConfig)
    (provenance : Provenance) : Option JsonValue :=
  (manifestContent text run config provenance).map (withArtifactSha256 text)

end Text

end Pmkit.Manifest
