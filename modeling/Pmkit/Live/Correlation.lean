import Pmkit.Library.Delimited
import Pmkit.Live.Risk

/-!
# Correlation ids of live decisions

A decision is named after its strategy, its market and its time, and an order
intent after its decision and the place of its action.  The name of the
strategy is found again behind its length, so no other strategy is found for
it; the place of the action stands behind the last colon.
-/

namespace Pmkit

open MachineInt

/-- A strategy of a run.  Its factory makes the first state, or fails. -/
structure StrategyRegistration (S : Type) where
  id : StrategyId
  market : MarketId
  riskOverrides : RiskLimitOverrides
  create : Except String S

/-- What every correlation id of a strategy starts with. -/
def strategyPrefix (strategy : StrategyId) : String :=
  "live-strategy:" ++ toString strategy.value.utf8ByteSize ++ ":" ++
    strategy.value ++ ":"

/-- `strategy_correlation_id`. -/
def strategyCorrelationId (strategy : StrategyId) (market : MarketId)
    (timestampMs : I64) : String :=
  "live-strategy:" ++ toString strategy.value.utf8ByteSize ++ ":" ++
    strategy.value ++ ":" ++ "market:" ++
    toString market.value.utf8ByteSize ++ ":" ++ market.value ++ ":" ++
    toString timestampMs.1

/-- `strategy_event_correlation_id`. -/
def strategyEventCorrelationId (strategy : StrategyId) (market : MarketId)
    (timestampMs : I64) (sourceKind sourceId : String)
    (aggregateTradeId : Option UInt64) (ingestSequence : UInt64) : String :=
  let base := strategyCorrelationId strategy market timestampMs
  match aggregateTradeId with
  | none => base
  | some aggregateTradeId =>
      base ++ ":" ++ sourceKind ++ ":" ++ sourceId ++ ":" ++
        toString aggregateTradeId ++ ":" ++ toString ingestSequence

def intentCorrelationId (decision : String) (actionIndex : UInt32) : String :=
  decision ++ ":" ++ toString actionIndex

/-- `starts_with`. -/
def startsWith (text start : String) : Bool :=
  start.toList.isPrefixOf text.toList

/-- `correlation_strategy`. -/
def correlationStrategy {S : Type} (correlationId : String)
    (registrations : List (StrategyRegistration S)) : Option StrategyId :=
  (registrations.find? fun registration =>
    startsWith correlationId (strategyPrefix registration.id)).map
      StrategyRegistration.id

theorem colon_not_mem_digits (value : Nat) :
    ':' ∉ Nat.toDigits 10 value := by
  intro mem
  have digit := Nat.isDigit_of_mem_toDigits (by decide) (by decide) mem
  exact absurd digit (by decide)

theorem eq_of_prefix_of_size {left right : String} {text : List Char}
    (size : left.utf8ByteSize = right.utf8ByteSize)
    (leftStarts : left.toList <+: text)
    (rightStarts : right.toList <+: text) : left = right := by
  have shorter : ∀ first second : String,
      first.utf8ByteSize = second.utf8ByteSize →
      first.toList <+: second.toList → first = second := by
    rintro first second sizes ⟨rest, joined⟩
    have whole : second = first ++ String.ofList rest := by
      apply String.toList_injective
      rw [String.toList_append, String.toList_ofList, joined]
    rw [whole, String.utf8ByteSize_append] at sizes
    have empty : (String.ofList rest).utf8ByteSize = 0 := by
      omega
    rw [String.utf8ByteSize_eq_zero_iff] at empty
    rw [whole, empty, String.append_empty]
  rcases List.prefix_or_prefix_of_prefix leftStarts rightStarts with
    starts | starts
  · exact shorter left right size starts
  · exact (shorter right left size.symm starts).symm

theorem strategyPrefix_toList (strategy : StrategyId) :
    (strategyPrefix strategy).toList =
      "live-strategy:".toList ++
        (Nat.toDigits 10 strategy.value.utf8ByteSize ++
          ':' :: (strategy.value.toList ++ [':'])) := by
  have colon : ":".toList = [':'] := rfl
  unfold strategyPrefix
  generalize "live-strategy:" = start
  simp only [String.toList_append, Delimited.toString_natural, colon,
    List.append_assoc, List.cons_append, List.nil_append]

theorem strategyPrefix_unique {left right : StrategyId} {text : String}
    (leftStarts : startsWith text (strategyPrefix left) = true)
    (rightStarts : startsWith text (strategyPrefix right) = true) :
    left = right := by
  rw [startsWith, List.isPrefixOf_iff_prefix, strategyPrefix_toList]
    at leftStarts rightStarts
  generalize "live-strategy:".toList = head at leftStarts rightStarts
  obtain ⟨leftRest, leftJoined⟩ := leftStarts
  obtain ⟨rightRest, rightJoined⟩ := rightStarts
  simp only [← rightJoined, List.append_assoc, List.cons_append,
    List.append_cancel_left_eq] at leftJoined
  obtain ⟨digits, values⟩ := Delimited.cut_first (colon_not_mem_digits _)
    (colon_not_mem_digits _) leftJoined
  apply Id.ext_value
  apply eq_of_prefix_of_size (Delimited.toDigits_injective digits)
  · exact ⟨':' :: ([] ++ leftRest), rfl⟩
  · exact ⟨':' :: ([] ++ rightRest), values.symm⟩

theorem startsWith_append
    {text start : String} (starts : startsWith text start = true)
    (rest : String) : startsWith (text ++ rest) start = true := by
  rw [startsWith, List.isPrefixOf_iff_prefix] at starts ⊢
  rw [String.toList_append]
  exact starts.trans (List.prefix_append _ _)

theorem startsWith_event
    (strategy : StrategyId) (market : MarketId) (timestampMs : I64)
    (sourceKind sourceId : String) (aggregateTradeId : Option UInt64)
    (ingestSequence : UInt64) :
    startsWith (strategyEventCorrelationId strategy market timestampMs
      sourceKind sourceId aggregateTradeId ingestSequence)
      (strategyPrefix strategy) = true := by
  have base : startsWith (strategyCorrelationId strategy market timestampMs)
      (strategyPrefix strategy) = true := by
    unfold strategyCorrelationId
    iterate 6 apply startsWith_append
    exact List.isPrefixOf_iff_prefix.mpr (List.prefix_refl _)
  cases aggregateTradeId with
  | none => exact base
  | some aggregateTradeId =>
      simp only [strategyEventCorrelationId]
      iterate 8 apply startsWith_append
      exact base

theorem correlationStrategy_eq
    {S : Type} {registrations : List (StrategyRegistration S)}
    {registration : StrategyRegistration S} {text : String}
    (registered : registration ∈ registrations)
    (starts : startsWith text (strategyPrefix registration.id) = true) :
    correlationStrategy text registrations = some registration.id := by
  unfold correlationStrategy
  cases found : registrations.find? fun registration =>
      startsWith text (strategyPrefix registration.id) with
  | none =>
      rw [List.find?_eq_none] at found
      exact absurd starts (found registration registered)
  | some other =>
      have otherStarts := List.find?_some found
      rw [Option.map_some, strategyPrefix_unique otherStarts starts]

theorem intentCorrelationId_toList (decision : String) (index : UInt32) :
    (intentCorrelationId decision index).toList =
      decision.toList ++ ':' :: Nat.toDigits 10 index.toNat := by
  have number : toString index = toString index.toNat := rfl
  simp [intentCorrelationId, number]

/-- An intent names its decision and its action. -/
theorem intentCorrelationId_inj
    {left right : String} {leftIndex rightIndex : UInt32} :
    intentCorrelationId left leftIndex = intentCorrelationId right rightIndex ↔
      left = right ∧ leftIndex = rightIndex := by
  constructor
  · intro same
    have lists := congrArg String.toList same
    rw [intentCorrelationId_toList, intentCorrelationId_toList] at lists
    obtain ⟨decisions, indexes⟩ := Delimited.cut_last
      (colon_not_mem_digits _) (colon_not_mem_digits _) lists
    exact ⟨String.toList_injective decisions,
      UInt32.toNat_inj.mp (Delimited.toDigits_injective indexes)⟩
  · rintro ⟨rfl, rfl⟩
    rfl

end Pmkit
