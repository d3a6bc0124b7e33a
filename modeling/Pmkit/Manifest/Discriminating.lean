import Pmkit.Library.JsonText
import Pmkit.Manifest.Readable

/-!
# Manifests that tell runs apart

Two manifests are the same exactly when their runs agree on everything that
is recorded.  The limits of the market are not, so two simulations that differ
in them alone have one manifest.
-/

namespace Pmkit.Manifest

open JsonValue

/-- Some field of two simulations differs once their fees are resolved. -/
def ConservativeV1Config.Differs (left right : ConservativeV1Config) : Prop :=
  left.activationLatency.asMillis ≠ right.activationLatency.asMillis ∨
    left.makerQueueAheadBps ≠ right.makerQueueAheadBps ∨
    left.slippageBps ≠ right.slippageBps ∨
    left.marketImpactBps ≠ right.marketImpactBps ∨
    left.resolvedFeeModel ≠ right.resolvedFeeModel ∨
    left.marketLimits ≠ right.marketLimits

/-- Two simulations agree on everything but their market limits. -/
structure ConservativeV1Config.SameTerms
    (left right : ConservativeV1Config) : Prop where
  latency : left.activationLatency.asMillis = right.activationLatency.asMillis
  queue : left.makerQueueAheadBps = right.makerQueueAheadBps
  slippage : left.slippageBps = right.slippageBps
  impact : left.marketImpactBps = right.marketImpactBps
  fees : left.resolvedFeeModel = right.resolvedFeeModel

/-- Two windows are printed alike and ask for the same evidence. -/
structure ReplaySpec.SameWindow {M : Type} (text : ManifestText M)
    (left right : ReplaySpec) : Prop where
  start : text.rfc3339 left.start = text.rfc3339 right.start
  stop : text.rfc3339 left.stop = text.rfc3339 right.stop
  evidence : left.evidence = right.evidence

section Text

variable {M : Type} (text : ManifestText M)

structure RiskLimits.SameTexts (left right : RiskLimits M) : Prop where
  order : text.decimal left.maxOrderNotional =
    text.decimal right.maxOrderNotional
  position : text.decimal left.maxPositionNotional =
    text.decimal right.maxPositionNotional
  portfolio : text.decimal left.maxPortfolioNotional =
    text.decimal right.maxPortfolioNotional
  market : text.decimal left.maxMarketNotional =
    text.decimal right.maxMarketNotional
  strategy : text.decimal left.maxStrategyNotional =
    text.decimal right.maxStrategyNotional
  openOrders : left.maxOpenOrders = right.maxOpenOrders
  loss : text.decimal left.maxLoss = text.decimal right.maxLoss
  dailyLoss : text.decimal left.maxDailyLoss = text.decimal right.maxDailyLoss

def RunSpec.SameApartFromLimits : RunSpec M → RunSpec M → Prop
  | .backtest left, .backtest right =>
      left.id = right.id ∧ left.portfolio = right.portfolio ∧
        left.replay.SameWindow text right.replay ∧
        text.decimal left.initialCash = text.decimal right.initialCash ∧
        left.risk.SameTexts text right.risk ∧
        left.simulation.SameTerms right.simulation ∧
        left.strategies = right.strategies
  | .paper left, .paper right =>
      left.id = right.id ∧ left.portfolio = right.portfolio ∧
        text.decimal left.initialCash = text.decimal right.initialCash ∧
        left.risk.SameTexts text right.risk ∧
        left.simulation.SameTerms right.simulation ∧
        left.strategies = right.strategies
  | .live left, .live right =>
      left.id = right.id ∧ left.portfolio = right.portfolio ∧
        left.risk.SameTexts text right.risk ∧
        left.strategies = right.strategies
  | _, _ => False

end Text

/-! ## What is recorded tells it -/

theorem ConservativeV1Config.wire_eq_iff (left right : ConservativeV1Config) :
    left.wire = right.wire ↔ left.SameTerms right := by
  constructor
  · intro same
    have parts := SimulationV2.mk.inj same
    obtain ⟨latency, queue, slippage, impact⟩ := SimulationV1.mk.inj parts.1
    obtain ⟨maker, taker⟩ := FeeModelV1.mk.inj parts.2
    have milliseconds := JsonValue.number.inj latency
    refine ⟨by omega, UInt16.toNat_inj.mp queue, UInt16.toNat_inj.mp slippage,
      UInt16.toNat_inj.mp impact, ?_⟩
    cases leftFees : left.resolvedFeeModel
    cases rightFees : right.resolvedFeeModel
    rw [leftFees, rightFees] at maker taker
    simp_all
  · rintro ⟨latency, queue, slippage, impact, fees⟩
    simp only [wire, latency, queue, slippage, impact, fees]

theorem StrategyRegistration.wire_injective :
    Function.Injective StrategyRegistration.wire := by
  intro left right same
  obtain ⟨⟨id, _⟩, ⟨market, _⟩, name, version, revision⟩ := left
  obtain ⟨⟨otherId, _⟩, ⟨otherMarket, _⟩, otherName, otherVersion,
    otherRevision⟩ := right
  simp only [wire, StrategyV1.mk.injEq] at same
  obtain ⟨rfl, rfl, rfl, rfl, rfl⟩ := same
  rfl

theorem RuntimeConfig.wire_eq_iff (left right : RuntimeConfig) :
    left.wire = right.wire ↔
      left.backtestConcurrency = right.backtestConcurrency := by
  constructor
  · intro same
    exact UInt64.toNat_inj.mp (RuntimeV1.mk.inj same).1
  · intro same
    simp only [wire, same]

section Text

variable {M : Type} (text : ManifestText M)

theorem RiskLimits.wire_eq_iff (left right : RiskLimits M) :
    left.wire text = right.wire text ↔ left.SameTexts text right := by
  constructor
  · intro same
    obtain ⟨order, position, portfolio, market, strategy, openOrders, loss,
      dailyLoss⟩ := RiskV1.mk.inj same
    exact ⟨order, position, portfolio, market, strategy,
      UInt32.toNat_inj.mp openOrders, loss, dailyLoss⟩
  · rintro ⟨order, position, portfolio, market, strategy, openOrders, loss,
      dailyLoss⟩
    simp only [wire, order, position, portfolio, market, strategy, openOrders,
      loss, dailyLoss]

theorem evidenceStr_injective : Function.Injective evidenceStr := by
  intro left right same
  cases left <;> cases right <;> first | rfl | simp [evidenceStr] at same

theorem ReplaySpec.wire_eq_iff (left right : ReplaySpec) :
    left.wire text = right.wire text ↔ left.SameWindow text right := by
  constructor
  · intro same
    obtain ⟨start, stop, evidence⟩ := ReplayV1.mk.inj same
    exact ⟨start, stop, evidenceStr_injective evidence⟩
  · rintro ⟨start, stop, evidence⟩
    simp only [wire, start, stop, evidence]

theorem commonOf_eq_iff
    {id otherId : RunId} {portfolio otherPortfolio : PortfolioId}
    {risk otherRisk : RiskLimits M}
    {strategies others : List StrategyRegistration}
    {config otherConfig : RuntimeConfig} :
    commonOf text id portfolio risk strategies config =
        commonOf text otherId otherPortfolio otherRisk others otherConfig ↔
      id = otherId ∧ portfolio = otherPortfolio ∧
        risk.SameTexts text otherRisk ∧ strategies = others ∧
        config.backtestConcurrency = otherConfig.backtestConcurrency := by
  have ids : ∀ {kind : IdKind} {left right : Id kind},
      left.value = right.value ↔ left = right := by
    intro kind left right
    constructor
    · intro same
      cases left
      cases right
      cases same
      rfl
    · rintro rfl
      rfl
  have registered : strategies.map StrategyRegistration.wire =
      others.map StrategyRegistration.wire ↔ strategies = others :=
    (List.map_injective_iff.mpr StrategyRegistration.wire_injective).eq_iff
  rw [commonOf, commonOf, ManifestCommonV1.mk.injEq, ids, ids,
    RiskLimits.wire_eq_iff, registered, RuntimeConfig.wire_eq_iff]

/-- Two runs are recorded alike if and only if they agree on everything but the
market limits. -/
theorem RunSpec.body_eq_iff
    (left right : RunSpec M) (leftConfig rightConfig : RuntimeConfig) :
    left.body text leftConfig = right.body text rightConfig ↔
      left.SameApartFromLimits text right ∧
        leftConfig.backtestConcurrency = rightConfig.backtestConcurrency := by
  cases left with
  | backtest left =>
      cases right with
      | backtest right =>
          rw [body, body, ManifestBody.backtest.injEq, commonOf_eq_iff,
            ConservativeV1Config.wire_eq_iff, ReplaySpec.wire_eq_iff,
            SameApartFromLimits]
          tauto
      | paper right => simp [body, SameApartFromLimits]
      | live right => simp [body, SameApartFromLimits]
  | paper left =>
      cases right with
      | backtest right => simp [body, SameApartFromLimits]
      | paper right =>
          rw [body, body, ManifestBody.paper.injEq, commonOf_eq_iff,
            ConservativeV1Config.wire_eq_iff, SameApartFromLimits]
          tauto
      | live right => simp [body, SameApartFromLimits]
  | live left =>
      cases right with
      | backtest right => simp [body, SameApartFromLimits]
      | paper right => simp [body, SameApartFromLimits]
      | live right =>
          rw [body, body, ManifestBody.live.injEq, commonOf_eq_iff,
            SameApartFromLimits]
          tauto

theorem riskJson_congr {left right : RiskLimits M}
    (same : left.SameTexts text right) :
    riskJson text left = riskJson text right := by
  obtain ⟨order, position, portfolio, market, strategy, openOrders, loss,
    dailyLoss⟩ := same
  simp only [riskJson, order, position, portfolio, market, strategy, openOrders,
    loss, dailyLoss]

theorem simulationJson_congr {left right : ConservativeV1Config}
    (same : left.SameTerms right) :
    simulationJson left = simulationJson right := by
  obtain ⟨latency, queue, slippage, impact, fees⟩ := same
  simp only [simulationJson, latency, queue, slippage, impact, fees]

theorem replayJson_congr {left right : ReplaySpec}
    (same : left.SameWindow text right) :
    replayJson text left = replayJson text right := by
  obtain ⟨start, stop, evidence⟩ := same
  simp only [replayJson, start, stop, evidence]

/-- Runs that agree on everything but the market limits have one manifest. -/
theorem buildManifest_congr
    {left right : RunSpec M} {leftConfig rightConfig : RuntimeConfig}
    (provenance : Provenance) (same : left.SameApartFromLimits text right)
    (concurrency : leftConfig.backtestConcurrency =
      rightConfig.backtestConcurrency) :
    buildManifest text left leftConfig provenance =
      buildManifest text right rightConfig provenance := by
  have runtime : runtimeJson leftConfig = runtimeJson rightConfig := by
    rw [runtimeJson, runtimeJson, concurrency]
  unfold buildManifest
  cases left with
  | backtest left =>
      cases right with
      | backtest right =>
          obtain ⟨id, portfolio, window, cash, risk, terms, strategies⟩ := same
          simp only [manifestContent, id, portfolio, cash, strategies, runtime,
            riskJson_congr text risk, simulationJson_congr terms,
            replayJson_congr text window]
      | paper right => cases same
      | live right => cases same
  | paper left =>
      cases right with
      | backtest right => cases same
      | paper right =>
          obtain ⟨id, portfolio, cash, risk, terms, strategies⟩ := same
          simp only [manifestContent, id, portfolio, cash, strategies, runtime,
            riskJson_congr text risk, simulationJson_congr terms]
      | live right => cases same
  | live left =>
      cases right with
      | backtest right => cases same
      | paper right => cases same
      | live right =>
          obtain ⟨id, portfolio, risk, strategies⟩ := same
          simp only [manifestContent, id, portfolio, strategies, runtime,
            riskJson_congr text risk]

/-- Manifests that are built are the same if and only if their runs agree on
everything but the market limits. -/
theorem buildManifest_eq_iff
    {left right : RunSpec M} {leftConfig rightConfig : RuntimeConfig}
    {provenance : Provenance} {manifest : JsonValue}
    (built : buildManifest text left leftConfig provenance = some manifest)
    (otherBuilt : ∃ other,
      buildManifest text right rightConfig provenance = some other) :
    buildManifest text left leftConfig provenance =
        buildManifest text right rightConfig provenance ↔
      left.SameApartFromLimits text right ∧
        leftConfig.backtestConcurrency = rightConfig.backtestConcurrency := by
  constructor
  · intro same
    obtain ⟨other, otherBuilt⟩ := otherBuilt
    have equal : manifest = other := by
      rw [built, otherBuilt] at same
      exact Option.some.inj same
    obtain ⟨leftDigest, leftRead⟩ := parseManifest_of_build text built
    obtain ⟨rightDigest, rightRead⟩ := parseManifest_of_build text otherBuilt
    rw [equal, rightRead] at leftRead
    have bodies := (ManifestV3.mk.inj
      (VersionedManifest.v3.inj (Except.ok.inj leftRead))).2.2.2
    exact (RunSpec.body_eq_iff text left right leftConfig rightConfig).mp
      bodies.symm
  · rintro ⟨same, concurrency⟩
    exact buildManifest_congr text provenance same concurrency

end Text

/-! ## Manifests of every run -/

def RunSpec.simulation {M : Type} : RunSpec M → Option ConservativeV1Config
  | .backtest run => some run.simulation
  | .paper run => some run.simulation
  | .live _ => none

def RunSpec.LatencyFits {M : Type} (run : RunSpec M) : Prop :=
  ∀ config, run.simulation = some config →
    config.activationLatency.asMillis < 18446744073709551616

section Text

variable {M : Type} (text : ManifestText M) (provenance : Provenance)

/-- A manifest is built, and it is read as one of the third version. -/
def RunSpec.Readable (run : RunSpec M) (config : RuntimeConfig) : Prop :=
  ∃ manifest read, buildManifest text run config provenance = some manifest ∧
    parseManifest manifest = .ok (.v3 read)

/-- Two runs have manifests that are read, and that differ if a field of their
simulations does. -/
structure Discriminating (first second : RunSpec M)
    (firstConfig secondConfig : RuntimeConfig) : Prop where
  firstReadable : first.Readable text provenance firstConfig
  secondReadable : second.Readable text provenance secondConfig
  differ : ∀ left right, first.simulation = some left →
    second.simulation = some right → left.Differs right →
    buildManifest text first firstConfig provenance ≠
      buildManifest text second secondConfig provenance

theorem wideNumber_eq_some_iff (value : Nat) :
    (∃ written, wideNumber value = some written) ↔
      value < 18446744073709551616 := by
  unfold wideNumber
  split
  · exact ⟨fun _ => ‹_›, fun _ => ⟨_, rfl⟩⟩
  · exact ⟨fun found => by simp at found, fun fits => absurd fits ‹_›⟩

theorem simulationJson_eq_some_iff (config : ConservativeV1Config) :
    (∃ written, simulationJson config = some written) ↔
      config.activationLatency.asMillis < 18446744073709551616 := by
  rw [← wideNumber_eq_some_iff, simulationJson]
  cases wideNumber config.activationLatency.asMillis with
  | none => simp
  | some latency => simp

theorem RunSpec.readable_iff (run : RunSpec M) (config : RuntimeConfig) :
    run.Readable text provenance config ↔ run.LatencyFits := by
  have built : run.Readable text provenance config ↔ ∃ content,
      manifestContent text run config provenance = some content := by
    constructor
    · rintro ⟨manifest, _, built, _⟩
      rw [buildManifest, Option.map_eq_some_iff] at built
      obtain ⟨content, written, _⟩ := built
      exact ⟨content, written⟩
    · rintro ⟨content, written⟩
      have manifest : buildManifest text run config provenance =
          some (withArtifactSha256 text content) := by
        rw [buildManifest, written, Option.map_some]
      obtain ⟨digest, parsed⟩ := parseManifest_of_build text manifest
      exact ⟨_, _, manifest, parsed⟩
  rw [built]
  have simulated : ∀ (simulation : ConservativeV1Config)
      (content : JsonValue → JsonValue),
      (∃ written, (simulationJson simulation).map content = some written) ↔
        simulation.activationLatency.asMillis < 18446744073709551616 := by
    intro simulation content
    rw [← simulationJson_eq_some_iff]
    cases simulationJson simulation with
    | none => simp
    | some written => simp
  cases run with
  | backtest run =>
      simp only [manifestContent, simulated, LatencyFits, RunSpec.simulation,
        Option.some.injEq, forall_eq']
  | paper run =>
      simp only [manifestContent, simulated, LatencyFits, RunSpec.simulation,
        Option.some.injEq, forall_eq']
  | live run =>
      simp [manifestContent, LatencyFits, RunSpec.simulation]

theorem RunSpec.SameApartFromLimits.sameTerms
    {text : ManifestText M} {first second : RunSpec M}
    (same : first.SameApartFromLimits text second)
    {left right : ConservativeV1Config}
    (leftSimulated : first.simulation = some left)
    (rightSimulated : second.simulation = some right) :
    left.SameTerms right := by
  cases first with
  | backtest first =>
      cases second with
      | backtest second =>
          cases leftSimulated
          cases rightSimulated
          exact same.2.2.2.2.2.1
      | paper second => cases same
      | live second => cases same
  | paper first =>
      cases second with
      | backtest second => cases same
      | paper second =>
          cases leftSimulated
          cases rightSimulated
          exact same.2.2.2.2.1
      | live second => cases same
  | live first => cases leftSimulated

theorem ConservativeV1Config.SameTerms.differs_iff
    {left right : ConservativeV1Config} (same : left.SameTerms right) :
    left.Differs right ↔ left.marketLimits ≠ right.marketLimits := by
  obtain ⟨latency, queue, slippage, impact, fees⟩ := same
  simp [Differs, latency, queue, slippage, impact, fees]

/-- Two manifests are built, read and tell the simulations of their runs apart
if and only if both latencies fit and simulations with different market limits
come with something else that differs. -/
theorem manifests_discriminating_iff
    (first second : RunSpec M) (firstConfig secondConfig : RuntimeConfig) :
    Discriminating text provenance first second firstConfig secondConfig ↔
      first.LatencyFits ∧ second.LatencyFits ∧
        ∀ left right, first.simulation = some left →
          second.simulation = some right →
          left.marketLimits ≠ right.marketLimits →
          ¬(first.SameApartFromLimits text second ∧
            firstConfig.backtestConcurrency =
              secondConfig.backtestConcurrency) := by
  constructor
  · rintro ⟨firstReadable, secondReadable, differ⟩
    refine ⟨(RunSpec.readable_iff text provenance first firstConfig).mp
        firstReadable,
      (RunSpec.readable_iff text provenance second secondConfig).mp
        secondReadable, ?_⟩
    rintro left right leftSimulated rightSimulated limits ⟨same, concurrency⟩
    have terms := same.sameTerms leftSimulated rightSimulated
    exact differ left right leftSimulated rightSimulated
      (terms.differs_iff.mpr limits)
      (buildManifest_congr text provenance same concurrency)
  · rintro ⟨firstFits, secondFits, told⟩
    have firstReadable :=
      (RunSpec.readable_iff text provenance first firstConfig).mpr firstFits
    have secondReadable :=
      (RunSpec.readable_iff text provenance second secondConfig).mpr secondFits
    refine ⟨firstReadable, secondReadable, ?_⟩
    intro left right leftSimulated rightSimulated differs equal
    obtain ⟨manifest, _, built, _⟩ := firstReadable
    obtain ⟨other, _, otherBuilt, _⟩ := secondReadable
    have same :=
      (buildManifest_eq_iff text built ⟨other, otherBuilt⟩).mp equal
    have terms := same.1.sameTerms leftSimulated rightSimulated
    exact told left right leftSimulated rightSimulated
      (terms.differs_iff.mp differs) same

end Text

namespace DiscriminatingSample

def text : ManifestText String where
  decimal := id
  rfc3339 := fun _ => "1970-01-01T00:00:00+00:00"
  writeJson := compact toString sortFields
  sha256Hex := fun _ =>
    "d3734e2249d641c8667635189628ad51fcf365d60c21385c7f0781d164d0afd5"

def provenance : Provenance where
  git := ⟨"unknown", false⟩
  cargoLockSha256 := "unknown"
  toolchain := "unknown"

def risk : RiskLimits String where
  maxOrderNotional := "100"
  maxPositionNotional := "100"
  maxPortfolioNotional := "100"
  maxMarketNotional := "100"
  maxStrategyNotional := "100"
  maxOpenOrders := 10
  maxLoss := "50"
  maxDailyLoss := "50"
  someOrders := by decide

def simulation (seconds : UInt64) (limits : Option MarketLimits) :
    ConservativeV1Config where
  activationLatency := ⟨seconds, 0, by decide⟩
  makerQueueAheadBps := 0
  slippageBps := 0
  marketImpactBps := 0
  feeModel := none
  marketLimits := limits

def run (seconds : UInt64) (limits : Option MarketLimits) : RunSpec String :=
  .paper
    { id := ⟨"alice-paper", by decide⟩
      portfolio := ⟨"alice-desk", by decide⟩
      initialCash := "10000"
      risk := risk
      simulation := simulation seconds limits
      strategies := [] }

def config : RuntimeConfig where
  backtestConcurrency := 1
  someBacktests := by decide

theorem sameApartFromLimits (limits others : Option MarketLimits) :
    (run 1 limits).SameApartFromLimits text (run 1 others) :=
  ⟨rfl, rfl, rfl, ⟨rfl, rfl, rfl, rfl, rfl, rfl, rfl, rfl⟩,
    ⟨rfl, rfl, rfl, rfl, rfl⟩, rfl⟩

end DiscriminatingSample

section

open DiscriminatingSample

/-- Two runs that differ in a minimum order size have one manifest, and a run
with the longest latency has none. -/
theorem manifests_not_discriminating :
    ¬ Discriminating text provenance (run 1 none) (run 1 (some ⟨5, 1⟩)) config
        config ∧
      ¬ Discriminating text provenance (run 18446744073709551615 none)
        (run 18446744073709551615 none) config config := by
  constructor
  · rintro ⟨_, _, differ⟩
    have limits : (simulation 1 none).Differs (simulation 1 (some ⟨5, 1⟩)) := by
      simp [ConservativeV1Config.Differs, simulation]
    exact differ _ _ rfl rfl limits
      (buildManifest_congr text provenance (sameApartFromLimits _ _) rfl)
  · rintro ⟨readable, _, _⟩
    have fits := (RunSpec.readable_iff text provenance _ config).mp readable _
      rfl
    have late : ¬ (simulation 18446744073709551615
        none).activationLatency.asMillis < 18446744073709551616 := by
      decide
    exact late fits

end

end Pmkit.Manifest
