import Pmkit.Chain.Words

/-!
# Events of the contracts

The supported event signatures with their arguments, the canonical encoding of
an event as topics and data, the contract that emits it, and what a decoded log
keeps of it.
-/

namespace Pmkit

abbrev AbiAddress : Type :=
  Fin addressBound

abbrev AbiWord : Type :=
  Fin wordBound

/-- An event with its arguments, in the order of its signature. -/
inductive AbiEvent where
  | transfer (sender recipient : AbiAddress) (value : AbiWord)
  | transferSingle (operator sender recipient : AbiAddress)
      (id value : AbiWord)
  | transferBatch (operator sender recipient : AbiAddress)
      (ids values : List AbiWord)
  | positionSplit (stakeholder collateral : AbiAddress)
      (parent condition : AbiWord) (partition : List AbiWord)
      (amount : AbiWord)
  | positionsMerge (stakeholder collateral : AbiAddress)
      (parent condition : AbiWord) (partition : List AbiWord)
      (amount : AbiWord)
  | orderFilledV1 (order : AbiWord) (maker taker : AbiAddress)
      (makerAsset takerAsset makerAmount takerAmount fee : AbiWord)
  | orderFilledV2 (order : AbiWord) (maker taker : AbiAddress) (side : Fin 256)
      (token makerAmount takerAmount fee builder metadata : AbiWord)

namespace AbiEvent

/-- The hash of the signature. -/
def topic : AbiEvent → String
  | transfer .. => EventTopic.erc20Transfer
  | transferSingle .. => EventTopic.erc1155TransferSingle
  | transferBatch .. => EventTopic.erc1155TransferBatch
  | positionSplit .. => EventTopic.ctfPositionSplit
  | positionsMerge .. => EventTopic.ctfPositionsMerge
  | orderFilledV1 .. => EventTopic.exchangeV1OrderFilled
  | orderFilledV2 .. => EventTopic.exchangeV2OrderFilled

def indexed : AbiEvent → List Nat
  | transfer sender recipient _ => [sender, recipient]
  | transferSingle operator sender recipient _ _ =>
      [operator, sender, recipient]
  | transferBatch operator sender recipient _ _ => [operator, sender, recipient]
  | positionSplit stakeholder _ parent condition _ _ =>
      [stakeholder, parent, condition]
  | positionsMerge stakeholder _ parent condition _ _ =>
      [stakeholder, parent, condition]
  | orderFilledV1 order maker taker .. => [order, maker, taker]
  | orderFilledV2 order maker taker .. => [order, maker, taker]

def arguments : AbiEvent → List AbiArgument
  | transfer _ _ value => [.word value]
  | transferSingle _ _ _ id value => [.word id, .word value]
  | transferBatch _ _ _ ids values =>
      [.array (ids.map Fin.val), .array (values.map Fin.val)]
  | positionSplit _ collateral _ _ partition amount =>
      [.word collateral, .array (partition.map Fin.val), .word amount]
  | positionsMerge _ collateral _ _ partition amount =>
      [.word collateral, .array (partition.map Fin.val), .word amount]
  | orderFilledV1 _ _ _ makerAsset takerAsset makerAmount takerAmount fee =>
      [.word makerAsset, .word takerAsset, .word makerAmount,
        .word takerAmount, .word fee]
  | orderFilledV2 _ _ _ side token makerAmount takerAmount fee builder
      metadata =>
      [.word side, .word token, .word makerAmount, .word takerAmount,
        .word fee, .word builder, .word metadata]

def indexedTexts (event : AbiEvent) : List String :=
  event.indexed.map fun word => wordsText [word]

def dataText (event : AbiEvent) : String :=
  wordsText (AbiArgument.encode event.arguments)

/-- Topics and data are those of an event, but for the case of the digits. -/
structure WrittenIn (event : AbiEvent) (topics : List String)
    (data : String) : Prop where
  topics : List.Forall₂ SameUpToHexCase topics event.indexedTexts
  data : SameUpToHexCase data event.dataText

/-- A text in another case of its letters, the prefix of a number included. -/
def SameUpToCase (text lower : String) : Prop :=
  List.Forall₂ (fun character expected => character.toLower = expected)
    text.toList lower.toList

/-- A raw log encodes an event.  Its first topic is the one of the event in the
sense of a relation of texts. -/
def EncodedIn (event : AbiEvent) (sameTopic : String → String → Prop)
    (raw : RawRpcLog) : Prop :=
  ∃ first rest, raw.topics = first :: rest ∧ sameTopic first event.topic ∧
    event.WrittenIn rest raw.data

def encode (event : AbiEvent) (identity : RawLogIdentity)
    (contractAddress : Address) : RawRpcLog where
  identity := identity
  contractAddress := contractAddress
  topics := event.topic :: event.indexedTexts
  data := event.dataText

def EmittedBy (event : AbiEvent) (registry : ContractRegistry)
    (contract : Address) : Prop :=
  match event with
  | transfer .. => contract = registry.collateral
  | transferSingle .. => registry.isConditionalTokens contract = true
  | transferBatch .. => registry.isConditionalTokens contract = true
  | positionSplit .. => registry.isConditionalTokens contract = true
  | positionsMerge .. => registry.isConditionalTokens contract = true
  | orderFilledV1 .. => registry.isLegacyExchange contract = true
  | orderFilledV2 .. => registry.isCurrentExchange contract = true

def KeptAmount (amount : AbiWord) : Prop :=
  amount.val ≤ 2 ^ 96 - 1

def filled (maker taker : AbiAddress) (makerAsset takerAsset : Nat)
    (makerSide : TradeSide) (makerAmount takerAmount fee : AbiWord) :
    ChainEvent :=
  .orderFilled (addressOf maker) (addressOf taker) (wordsText [makerAsset])
    (wordsText [takerAsset]) makerSide (makerAmount.val : Decimal)
    (takerAmount.val : Decimal) (fee.val : Decimal)

/-- What a log keeps of an event, and which events are kept: a fill of the
first version exchanges collateral for one token, a fill of the second one is of
a token and has a side, and a split or a merge is of the registered
collateral. -/
def Keeps (registry : ContractRegistry) (event : AbiEvent)
    (kept : ChainEvent) : Prop :=
  match event with
  | transfer sender recipient value =>
      KeptAmount value ∧
        kept = .collateralTransfer (addressOf sender) (addressOf recipient)
          (value.val : Decimal)
  | transferSingle _ sender recipient id value =>
      KeptAmount value ∧
        kept = .outcomeTransferSingle (addressOf sender) (addressOf recipient)
          (wordsText [id]) (value.val : Decimal)
  | transferBatch _ sender recipient ids values =>
      ids.length = values.length ∧ (∀ value ∈ values, KeptAmount value) ∧
        kept = .outcomeTransferBatch (addressOf sender) (addressOf recipient)
          (ids.zipWith (fun (id value : AbiWord) =>
            ⟨wordsText [id.val], (value.val : Decimal)⟩) values)
  | positionSplit stakeholder collateral _ condition _ amount =>
      addressOf collateral = registry.collateral ∧ KeptAmount amount ∧
        kept = .positionSplit (addressOf stakeholder) (wordsText [condition])
          (amount.val : Decimal)
  | positionsMerge stakeholder collateral _ condition _ amount =>
      addressOf collateral = registry.collateral ∧ KeptAmount amount ∧
        kept = .positionsMerge (addressOf stakeholder) (wordsText [condition])
          (amount.val : Decimal)
  | orderFilledV1 _ maker taker makerAsset takerAsset makerAmount takerAmount
      fee =>
      (KeptAmount makerAmount ∧ KeptAmount takerAmount ∧ KeptAmount fee) ∧
        (makerAsset.val = 0 ∧ takerAsset.val ≠ 0 ∧
            kept = filled maker taker makerAsset takerAsset .buy makerAmount
              takerAmount fee ∨ makerAsset.val ≠ 0 ∧ takerAsset.val = 0 ∧
            kept = filled maker taker makerAsset takerAsset .sell makerAmount
              takerAmount fee)
  | orderFilledV2 _ maker taker side token makerAmount takerAmount fee _ _ =>
      (KeptAmount makerAmount ∧ KeptAmount takerAmount ∧ KeptAmount fee) ∧
        token.val ≠ 0 ∧
        (side.val = 0 ∧
            kept = filled maker taker 0 token .buy makerAmount takerAmount fee ∨
          side.val = 1 ∧
            kept = filled maker taker token 0 .sell makerAmount takerAmount fee)

end AbiEvent

end Pmkit
