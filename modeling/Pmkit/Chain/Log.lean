import Pmkit.Domain

/-!
# Canonical chain logs

The contract registry of a chain, the events the contracts emit, and the logs
that carry them with their place in the chain.  Heights and positions are
unsigned 64-bit numbers in the source; they are naturals here, and each check
of the source against a bound is written out.
-/

namespace Pmkit

structure ChainId where
  get : Nat
  deriving DecidableEq, Repr

/-- `POLYGON`. -/
def ChainId.polygon : ChainId := ⟨137⟩

/-- The characters `is_ascii_hexdigit` accepts. -/
def isHexDigit (character : Char) : Bool :=
  character.isDigit || ('a' ≤ character && character ≤ 'f') ||
    ('A' ≤ character && character ≤ 'F')

/-- `to_ascii_lowercase`. -/
def asciiLowercase (text : List Char) : List Char :=
  text.map Char.toLower

/-- An EVM address.  Reading one from JSON does not check its text, so nothing
is known of it. -/
structure Address where
  value : String
  deriving DecidableEq, Repr

/-- `Address::new`; the error has no content. -/
def Address.new (value : String) : Option Address :=
  match asciiLowercase value.toList with
  | '0' :: 'x' :: digits =>
      if digits.length = 40 ∧ digits.all isHexDigit then
        some ⟨String.ofList ('0' :: 'x' :: digits)⟩
      else
        none
  | _ => none

structure CanonicalLogIdentity where
  chainId : ChainId
  blockNumber : Nat
  blockHash : String
  transactionHash : String
  transactionIndex : Nat
  logIndex : Nat
  deriving DecidableEq

structure OutcomeTokenAmount where
  assetId : String
  amount : Decimal
  deriving DecidableEq

inductive TradeSide where
  | buy
  | sell
  deriving DecidableEq

/-- `from_collateral_flow`. -/
def TradeSide.fromCollateralFlow (makerAssetIsCollateral : Bool)
    (takerAssetIsCollateral : Bool) : Option TradeSide :=
  match makerAssetIsCollateral, takerAssetIsCollateral with
  | true, false => some .buy
  | false, true => some .sell
  | true, true => none
  | false, false => none

/-- A protocol event parsed from a log. -/
inductive ChainEvent where
  | collateralTransfer (sender recipient : Address) (amount : Decimal)
  | outcomeTransferSingle (sender recipient : Address) (assetId : String)
      (amount : Decimal)
  | outcomeTransferBatch (sender recipient : Address)
      (transfers : List OutcomeTokenAmount)
  | positionSplit (stakeholder : Address) (conditionId : String)
      (amount : Decimal)
  | positionsMerge (stakeholder : Address) (conditionId : String)
      (amount : Decimal)
  | payoutRedemption (redeemer : Address) (conditionId : String)
      (payout : Decimal)
  | orderFilled (maker taker : Address) (makerAssetId takerAssetId : String)
      (makerSide : TradeSide) (makerAmount takerAmount fee : Decimal)
  | ordersMatched (trader : Address) (assetId : String) (amount : Decimal)
  | feeCharged (payer recipient : Address) (amount : Decimal)
  deriving DecidableEq

structure CanonicalChainLog where
  identity : CanonicalLogIdentity
  contractAddress : Address
  event : ChainEvent
  deriving DecidableEq

/-- A block of a chain: a common ancestor, a tip or a finalized head. -/
structure ChainCheckpoint where
  chainId : ChainId
  blockNumber : Nat
  blockHash : String
  deriving DecidableEq

/-- Replacement logs and the block they follow. -/
structure CanonicalLogSegment where
  commonAncestor : ChainCheckpoint
  logs : List CanonicalChainLog
  deriving DecidableEq

structure LegacyV1Contracts where
  ctfExchange : Address
  negRiskExchange : Address
  deriving DecidableEq

structure ContractRegistry where
  chainId : ChainId
  collateral : Address
  conditionalTokens : Address
  ctfExchange : Address
  negRiskExchange : Address
  legacyV1 : Option LegacyV1Contracts
  deriving DecidableEq

namespace ContractRegistry

def polygon : ContractRegistry where
  chainId := .polygon
  collateral := ⟨"0xc011a7e12a19f7b1f670d46f03b03f3342e82dfb"⟩
  conditionalTokens := ⟨"0x4d97dcd97ec945f40cf65f87097ace5ea0476045"⟩
  ctfExchange := ⟨"0xe111180000d2663c0091e4f400237545b87b996b"⟩
  negRiskExchange := ⟨"0xe2222d279d744050d28e00520010520000310f59"⟩
  legacyV1 := none

def isConditionalTokens (registry : ContractRegistry) (address : Address) :
    Bool :=
  address = registry.conditionalTokens

def isCurrentExchange (registry : ContractRegistry) (address : Address) :
    Bool :=
  address = registry.ctfExchange ∨ address = registry.negRiskExchange

def isLegacyExchange (registry : ContractRegistry) (address : Address) :
    Bool :=
  registry.legacyV1.any fun legacy =>
    address = legacy.ctfExchange ∨ address = legacy.negRiskExchange

/-- `accepts`: the chain is the registry's, and the contract emits this family
of events. -/
def accepts (registry : ContractRegistry) (log : CanonicalChainLog) : Bool :=
  if log.identity.chainId ≠ registry.chainId then
    false
  else
    match log.event with
    | .collateralTransfer .. => log.contractAddress = registry.collateral
    | .outcomeTransferSingle .. => registry.isConditionalTokens log.contractAddress
    | .outcomeTransferBatch .. => registry.isConditionalTokens log.contractAddress
    | .positionSplit .. => registry.isConditionalTokens log.contractAddress
    | .positionsMerge .. => registry.isConditionalTokens log.contractAddress
    | .payoutRedemption .. => registry.isConditionalTokens log.contractAddress
    | .orderFilled .. =>
        registry.isCurrentExchange log.contractAddress ||
          registry.isLegacyExchange log.contractAddress
    | .ordersMatched .. =>
        registry.isCurrentExchange log.contractAddress ||
          registry.isLegacyExchange log.contractAddress
    | .feeCharged .. =>
        registry.isCurrentExchange log.contractAddress ||
          registry.isLegacyExchange log.contractAddress

theorem chainId_of_accepts
    {registry : ContractRegistry} {log : CanonicalChainLog}
    (accepted : registry.accepts log = true) :
    log.identity.chainId = registry.chainId := by
  by_contra ne
  simp [accepts, ne] at accepted

end ContractRegistry

end Pmkit
