import Pmkit.Manifest.Build

/-!
# Reading a run manifest

The reader knows three versions.  Each has its own fields beside a body whose
variant stands in the field `mode`, and passes over fields it does not know.
-/

namespace Pmkit.Manifest

open JsonValue

structure RiskV1 where
  maxOrderNotional : String
  maxPositionNotional : String
  maxPortfolioNotional : String
  maxMarketNotional : String
  maxStrategyNotional : String
  openOrdersLimit : Nat
  maxLoss : String
  maxDailyLoss : String
  deriving DecidableEq

structure FeeModelV1 where
  makerBps : Int
  takerBps : Int
  deriving DecidableEq

/-- The latency keeps whatever number was written. -/
structure SimulationV1 where
  activationLatencyMs : JsonValue
  makerQueueAheadBps : Nat
  slippageBps : Nat
  marketImpactBps : Nat
  deriving DecidableEq

structure SimulationV2 extends SimulationV1 where
  feeModel : FeeModelV1
  deriving DecidableEq

structure StrategyV1 where
  id : String
  market : String
  name : Option String
  version : Option String
  configRevision : Option String
  deriving DecidableEq

structure ReplayV1 where
  start : String
  stop : String
  evidence : String
  deriving DecidableEq

structure RuntimeV1 where
  backtestConcurrency : Nat
  manifestDir : String
  deriving DecidableEq

structure ManifestCommonV1 where
  run : String
  portfolio : String
  risk : RiskV1
  strategies : List StrategyV1
  runtime : RuntimeV1
  deriving DecidableEq

/-- A body whose simulation is written in one of two ways. -/
inductive ManifestBody (S : Type) where
  | backtest (common : ManifestCommonV1) (initialCash : String)
      (simulation : S) (replay : ReplayV1)
  | paper (common : ManifestCommonV1) (initialCash : String) (simulation : S)
  | live (common : ManifestCommonV1)
  deriving DecidableEq

abbrev ManifestBodyV1 : Type :=
  ManifestBody SimulationV1

abbrev ManifestBodyV3 : Type :=
  ManifestBody SimulationV2

structure ManifestV1 where
  schemaVersion : Nat
  body : ManifestBodyV1
  deriving DecidableEq

structure ManifestV2 where
  schemaVersion : Nat
  artifactSha256 : String
  provenance : Provenance
  body : ManifestBodyV1
  deriving DecidableEq

structure ManifestV3 where
  schemaVersion : Nat
  artifactSha256 : String
  provenance : Provenance
  body : ManifestBodyV3
  deriving DecidableEq

inductive VersionedManifest where
  | v1 (manifest : ManifestV1)
  | v2 (manifest : ManifestV2)
  | v3 (manifest : ManifestV3)
  deriving DecidableEq

inductive ManifestError where
  | unsupportedSchemaVersion (found : Nat)
  | malformed
  | invalidFeeModel (makerBps takerBps : Int)
  deriving DecidableEq

def asRecord (names : List String) : JsonValue → Option JsonValue
  | .object fields => some (.object fields)
  | .array items =>
      if items.length = names.length then
        some (.object (names.zip items))
      else
        none
  | _ => none

def field {A : Type} (value : JsonValue) (name : String)
    (read : JsonValue → Option A) : Option A :=
  (value.get name).bind read

def optionalText (value : JsonValue) (name : String) :
    Option (Option String) :=
  match value.get name with
  | none => some none
  | some .null => some none
  | some other => other.asStr.map some

def asBool : JsonValue → Option Bool
  | .bool value => some value
  | _ => none

def asNumber : JsonValue → Option JsonValue
  | .number value => some (.number value)
  | .real bits => some (.real bits)
  | _ => none

def asI32 : JsonValue → Option Int
  | .number value =>
      if -2147483648 ≤ value ∧ value ≤ 2147483647 then some value else none
  | _ => none

/-! ## Readers -/

def Provenance.read (value : JsonValue) : Option Provenance := do
  let provenance ← asRecord ["git", "cargo_lock_sha256", "toolchain"] value
  let git ← field provenance "git" (asRecord ["commit", "dirty"])
  let commit ← field git "commit" asStr
  let dirty ← field git "dirty" asBool
  let cargoLockSha256 ← field provenance "cargo_lock_sha256" asStr
  let toolchain ← field provenance "toolchain" asStr
  some ⟨⟨commit, dirty⟩, cargoLockSha256, toolchain⟩

def RiskV1.read (value : JsonValue) : Option RiskV1 := do
  let risk ← asRecord ["max_order_notional", "max_position_notional",
    "max_portfolio_notional", "max_market_notional", "max_strategy_notional",
    "max_open_orders", "max_loss", "max_daily_loss"] value
  let maxOrderNotional ← field risk "max_order_notional" asStr
  let maxPositionNotional ← field risk "max_position_notional" asStr
  let maxPortfolioNotional ← field risk "max_portfolio_notional" asStr
  let maxMarketNotional ← field risk "max_market_notional" asStr
  let maxStrategyNotional ← field risk "max_strategy_notional" asStr
  let openOrdersLimit ← field risk "max_open_orders" (asUnsigned 32)
  let maxLoss ← field risk "max_loss" asStr
  let maxDailyLoss ← field risk "max_daily_loss" asStr
  some ⟨maxOrderNotional, maxPositionNotional, maxPortfolioNotional,
    maxMarketNotional, maxStrategyNotional, openOrdersLimit, maxLoss,
    maxDailyLoss⟩

def FeeModelV1.read (value : JsonValue) : Option FeeModelV1 := do
  let model ← asRecord ["maker_bps", "taker_bps"] value
  let makerBps ← field model "maker_bps" asI32
  let takerBps ← field model "taker_bps" asI32
  some ⟨makerBps, takerBps⟩

def SimulationV1.ofRecord (simulation : JsonValue) : Option SimulationV1 := do
  let activationLatencyMs ← field simulation "activation_latency_ms" asNumber
  let makerQueueAheadBps ←
    field simulation "maker_queue_ahead_bps" (asUnsigned 16)
  let slippageBps ← field simulation "slippage_bps" (asUnsigned 16)
  let marketImpactBps ← field simulation "market_impact_bps" (asUnsigned 16)
  some ⟨activationLatencyMs, makerQueueAheadBps, slippageBps, marketImpactBps⟩

def SimulationV1.read (value : JsonValue) : Option SimulationV1 := do
  let simulation ← asRecord ["activation_latency_ms", "maker_queue_ahead_bps",
    "slippage_bps", "market_impact_bps"] value
  SimulationV1.ofRecord simulation

def SimulationV2.read (value : JsonValue) : Option SimulationV2 := do
  let simulation ← asRecord ["activation_latency_ms", "maker_queue_ahead_bps",
    "slippage_bps", "market_impact_bps", "fee_model"] value
  let terms ← SimulationV1.ofRecord simulation
  let feeModel ← field simulation "fee_model" FeeModelV1.read
  some ⟨terms, feeModel⟩

def StrategyV1.read (value : JsonValue) : Option StrategyV1 := do
  let strategy ←
    asRecord ["id", "market", "name", "version", "config_revision"] value
  let id ← field strategy "id" asStr
  let market ← field strategy "market" asStr
  let name ← optionalText strategy "name"
  let version ← optionalText strategy "version"
  let configRevision ← optionalText strategy "config_revision"
  some ⟨id, market, name, version, configRevision⟩

def ReplayV1.read (value : JsonValue) : Option ReplayV1 := do
  let replay ← asRecord ["from", "to", "evidence"] value
  let start ← field replay "from" asStr
  let stop ← field replay "to" asStr
  let evidence ← field replay "evidence" asStr
  some ⟨start, stop, evidence⟩

def RuntimeV1.read (value : JsonValue) : Option RuntimeV1 := do
  let runtime ← asRecord ["backtest_concurrency", "manifest_dir"] value
  let backtestConcurrency ← field runtime "backtest_concurrency" (asUnsigned 64)
  let manifestDir ← field runtime "manifest_dir" asStr
  some ⟨backtestConcurrency, manifestDir⟩

def ManifestCommonV1.read (value : JsonValue) : Option ManifestCommonV1 := do
  let run ← field value "run" asStr
  let portfolio ← field value "portfolio" asStr
  let risk ← field value "risk" RiskV1.read
  let entries ← field value "strategies" asArray
  let strategies ← entries.mapM StrategyV1.read
  let runtime ← field value "runtime" RuntimeV1.read
  some ⟨run, portfolio, risk, strategies, runtime⟩

inductive Mode where
  | backtest
  | paper
  | live
  deriving DecidableEq

/-- A mode is named, or counted among the variants. -/
def Mode.read : JsonValue → Option Mode
  | .string "backtest" => some .backtest
  | .string "paper" => some .paper
  | .string "live" => some .live
  | .number 0 => some .backtest
  | .number 1 => some .paper
  | .number 2 => some .live
  | _ => none

def ManifestBody.read {S : Type} (readSimulation : JsonValue → Option S)
    (value : JsonValue) : Option (ManifestBody S) := do
  let mode ← field value "mode" Mode.read
  let common ← ManifestCommonV1.read value
  match mode with
  | .backtest => do
      let initialCash ← field value "initial_cash" asStr
      let simulation ← field value "simulation" readSimulation
      let replay ← field value "replay" ReplayV1.read
      some (.backtest common initialCash simulation replay)
  | .paper => do
      let initialCash ← field value "initial_cash" asStr
      let simulation ← field value "simulation" readSimulation
      some (.paper common initialCash simulation)
  | .live => some (.live common)

def ManifestV1.read (value : JsonValue) : Option ManifestV1 := do
  let schemaVersion ← field value "schema_version" (asUnsigned 16)
  let body ← ManifestBody.read SimulationV1.read value
  some ⟨schemaVersion, body⟩

def ManifestV2.read (value : JsonValue) : Option ManifestV2 := do
  let schemaVersion ← field value "schema_version" (asUnsigned 16)
  let artifactSha256 ← field value "artifact_sha256" asStr
  let provenance ← field value "provenance" Provenance.read
  let body ← ManifestBody.read SimulationV1.read value
  some ⟨schemaVersion, artifactSha256, provenance, body⟩

def ManifestV3.read (value : JsonValue) : Option ManifestV3 := do
  let schemaVersion ← field value "schema_version" (asUnsigned 16)
  let artifactSha256 ← field value "artifact_sha256" asStr
  let provenance ← field value "provenance" Provenance.read
  let body ← ManifestBody.read SimulationV2.read value
  some ⟨schemaVersion, artifactSha256, provenance, body⟩

/-- `validate_fee_model`. -/
def ManifestBody.validateFeeModel :
    ManifestBodyV3 → Except ManifestError Unit
  | .backtest _ _ simulation _ | .paper _ _ simulation =>
      match FeeModel.tryNew simulation.feeModel.makerBps
          simulation.feeModel.takerBps with
      | .ok _ => .ok ()
      | .error _ => .error (.invalidFeeModel simulation.feeModel.makerBps
          simulation.feeModel.takerBps)
  | .live _ => .ok ()

/-- `parse_manifest`. -/
def parseManifest (value : JsonValue) :
    Except ManifestError VersionedManifest :=
  match (asRecord ["schema_version"] value).bind fun record =>
      field record "schema_version" (asUnsigned 16) with
  | none => .error .malformed
  | some 1 =>
      match ManifestV1.read value with
      | none => .error .malformed
      | some manifest => .ok (.v1 manifest)
  | some 2 =>
      match ManifestV2.read value with
      | none => .error .malformed
      | some manifest => .ok (.v2 manifest)
  | some 3 =>
      match ManifestV3.read value with
      | none => .error .malformed
      | some manifest =>
          match manifest.body.validateFeeModel with
          | .error error => .error error
          | .ok () => .ok (.v3 manifest)
  | some found => .error (.unsupportedSchemaVersion found)

end Pmkit.Manifest
