import Pmkit.Chain.Raw

/-!
# Decoding raw logs

A raw log is decoded by its first topic.  Each decoder checks the contract, the
number of topics and the layout of the data, word by word; every failure of a
check is an error, so an unknown or malformed log never becomes an event.
-/

namespace Pmkit

inductive DecodeError where
  | unsupportedChain (provider : ProviderIdentity)
  | unregisteredContract (provider : ProviderIdentity)
  | unsupportedTopic (provider : ProviderIdentity)
  | malformed (message : String)
  deriving DecidableEq

namespace EventTopic

def erc20Transfer : String :=
  "0xddf252ad1be2c89b69c2b068fc378daa952ba7f163c4a11628f55a8df523b3ef"

def erc1155TransferSingle : String :=
  "0xc3d58168c5ae7397731d063d5bbf3d657854427343f4c083240f7aacaa2d0f62"

def erc1155TransferBatch : String :=
  "0x4a39dc06d4c0dbc64b70af90fd698a233a518aa5d07e595d983b8c0526c8f7fb"

def ctfPositionSplit : String :=
  "0x2e6bb91f8cbcda0c93623c54d0403a43514fabc40084ec96b6d5379a74786298"

def ctfPositionsMerge : String :=
  "0x6f13ca62553fcc2bcd2372180a43949c1e4cebba603901ede2f4e14f36b282ca"

def exchangeV1OrderFilled : String :=
  "0xd0a08e8c493f9c94f29311604c9de1b4e8c8d4c06bd0c789af57f2d65bfec0f6"

def exchangeV2OrderFilled : String :=
  "0xd543adfd945773f1a62f74f0ee55a5e3b9b1a28262980ba90b1a89f2ea84d8ee"

end EventTopic

section Words

/-- `DECIMAL_MAX_MANTISSA`. -/
def decimalMaxMantissa : Nat := 79228162514264337593543950335

/-- `strip_prefix("0x")`. -/
def stripHexPrefix (value : String) : Option (List Char) :=
  match value.toList with
  | '0' :: 'x' :: rest => some rest
  | _ => none

def hexDigitValue (digit : Char) : Nat :=
  if digit.isDigit then
    digit.toNat - '0'.toNat
  else if 'a' ≤ digit then
    digit.toNat - 'a'.toNat + 10
  else
    digit.toNat - 'A'.toNat + 10

def hexValue (digits : List Char) : Nat :=
  digits.foldl (fun value digit => 16 * value + hexDigitValue digit) 0

/-- `malformed_parse` of a number that does not fit its type. -/
def malformedOverflow (field : String) : DecodeError :=
  .malformed (field ++ " is invalid: number too large to fit in target type")

/-- `abi_word`. -/
def abiWord (value : String) : Except DecodeError (List Char) :=
  match stripHexPrefix value with
  | none => .error (.malformed "word is not hex")
  | some word =>
      if word.length ≠ 64 ∨ word.all isHexDigit = false then
        .error (.malformed "ABI value is not one 32-byte word")
      else
        .ok word

/-- `abi_data`. -/
def abiData (value : String) : Except DecodeError (List Char) :=
  match stripHexPrefix value with
  | none => .error (.malformed "ABI data is not hex")
  | some data =>
      if data.length % 64 ≠ 0 ∨ data.all isHexDigit = false then
        .error (.malformed "ABI data is not a sequence of 32-byte words")
      else
        .ok data

/-- `fixed_abi_data`. -/
def fixedAbiData (value : String) (words : Nat) :
    Except DecodeError (List Char) := do
  let data ← abiData value
  if data.length ≠ words * 64 then
    .error (.malformed "ABI data has an invalid fixed-word layout")
  else
    .ok data

/-- `get(start..end)`. -/
def slice (data : List Char) (first last : Nat) : Option (List Char) :=
  if first ≤ last ∧ last ≤ data.length then
    some ((data.take last).drop first)
  else
    none

/-- `abi_word_at`, for the word numbers that are passed to it: the offsets of
words never reach the bound of a machine word. -/
def abiWordAt (data : List Char) (index : Nat) :
    Except DecodeError (List Char) :=
  match slice data (index * 64) (index * 64 + 64) with
  | none => .error (.malformed "ABI word is missing")
  | some word => .ok word

/-- `hex_u128`. -/
def hexU128 (word : List Char) (field : String) : Except DecodeError Nat :=
  if hexValue word < 2 ^ 128 then
    .ok (hexValue word)
  else
    .error (malformedOverflow field)

/-- `usize::from_str_radix`. -/
def hexUsize (word : List Char) (field : String) : Except DecodeError Nat :=
  if hexValue word < 2 ^ 64 then
    .ok (hexValue word)
  else
    .error (malformedOverflow field)

/-- `hex_decimal`. -/
def hexDecimal (word : List Char) : Except DecodeError Decimal := do
  let value ← hexU128 word "word"
  if decimalMaxMantissa < value then
    .error (.malformed "word exceeds the exact decimal range")
  else
    .ok value

/-- `word_decimal`. -/
def wordDecimal (word : String) : Except DecodeError Decimal := do
  hexDecimal (← abiWord word)

/-- `hex_address`. -/
def hexAddress (word : List Char) : Except DecodeError Address :=
  if (word.take 24).all (· = '0') = false then
    .error (.malformed "address word has a nonzero prefix")
  else
    match Address.new (String.ofList ('0' :: 'x' :: word.drop 24)) with
    | none => .error (.malformed "invalid address word")
    | some address => .ok address

/-- `topic_address`. -/
def topicAddress (topic : String) : Except DecodeError Address := do
  hexAddress (← abiWord topic)

/-- `is_zero_word`. -/
def isZeroWord (word : List Char) : Bool :=
  word.all (· = '0')

/-- `normalized_asset_id`. -/
def normalizedAssetId (word : List Char) : String :=
  String.ofList ('0' :: 'x' :: asciiLowercase word)

/-- `dynamic_abi_words`: the words of an array, read where its offset word says
and nowhere else. -/
def dynamicAbiWords (data : List Char) (offsetWord expectedOffset : Nat) :
    Except DecodeError (List Char) := do
  let offset ← hexUsize (← abiWordAt data offsetWord) "offset"
  if offset ≠ expectedOffset then
    .error (.malformed "dynamic ABI offset is not canonical")
  else
    let lengthWord := offset / 32
    let length ← hexUsize (← abiWordAt data lengthWord) "array length"
    let first := (lengthWord + 1) * 64
    if 2 ^ 64 ≤ first then
      .error (.malformed "dynamic ABI start overflows")
    else if 2 ^ 64 ≤ first + length * 64 then
      .error (.malformed "dynamic ABI length overflows")
    else
      match slice data first (first + length * 64) with
      | none => .error (.malformed "dynamic ABI array is truncated")
      | some words => .ok words

/-- `chunks_exact(64)`. -/
def abiChunks (data : List Char) : List (List Char) :=
  (List.range (data.length / 64)).map fun index =>
    (data.drop (index * 64)).take 64

end Words

/-! ## Events -/

section Events

/-- `decode_erc20_transfer`. -/
def decodeErc20Transfer (raw : RawRpcLog) : Except DecodeError ChainEvent :=
  match raw.topics with
  | [_, sender, recipient] => do
      let sender ← topicAddress sender
      let recipient ← topicAddress recipient
      return .collateralTransfer sender recipient (← wordDecimal raw.data)
  | _ => .error (.malformed "ERC-20 Transfer requires three topics")

/-- `decode_erc1155_transfer_single`. -/
def decodeErc1155TransferSingle (raw : RawRpcLog) :
    Except DecodeError ChainEvent :=
  match raw.topics with
  | [_, operator, sender, recipient] => do
      let _ ← topicAddress operator
      let data ← fixedAbiData raw.data 2
      let sender ← topicAddress sender
      let recipient ← topicAddress recipient
      return .outcomeTransferSingle sender recipient
        (normalizedAssetId (data.take 64)) (← hexDecimal (data.drop 64))
  | _ => .error (.malformed "ERC-1155 TransferSingle requires four topics")

/-- `decode_erc1155_transfer_batch`. -/
def decodeErc1155TransferBatch (raw : RawRpcLog) :
    Except DecodeError ChainEvent :=
  match raw.topics with
  | [_, operator, sender, recipient] => do
      let _ ← topicAddress operator
      let data ← abiData raw.data
      let ids ← dynamicAbiWords data 0 64
      let valuesOffset := 96 + ids.length / 2
      let values ← dynamicAbiWords data 1 valuesOffset
      if ids.length ≠ values.length ∨
          data.length ≠ (valuesOffset + 32) * 2 + values.length then
        .error (.malformed
          "ERC-1155 TransferBatch IDs and values must have one canonical layout")
      else
        let transfers ← ((abiChunks ids).zip (abiChunks values)).mapM
          fun pair => do
            return OutcomeTokenAmount.mk (normalizedAssetId pair.1)
              (← hexDecimal pair.2)
        let sender ← topicAddress sender
        let recipient ← topicAddress recipient
        return .outcomeTransferBatch sender recipient transfers
  | _ => .error (.malformed "ERC-1155 TransferBatch requires four topics")

/-- `decode_ctf_position_change`: the stakeholder, the condition and the
amount. -/
def decodeCtfPositionChange (raw : RawRpcLog) (expectedCollateral : Address) :
    Except DecodeError (Address × String × Decimal) :=
  match raw.topics with
  | [_, stakeholder, parent, condition] => do
      let stakeholder ← topicAddress stakeholder
      let _ ← abiWord parent
      let condition ← abiWord condition
      let data ← abiData raw.data
      let collateral ← hexAddress (← abiWordAt data 0)
      if collateral ≠ expectedCollateral then
        .error (.malformed "CTF collateral token is not registered")
      else
        let partitionWords ← dynamicAbiWords data 1 96
        if data.length ≠ 128 * 2 + partitionWords.length then
          .error (.malformed "CTF position change has trailing ABI data")
        else
          return (stakeholder, normalizedAssetId condition,
            ← hexDecimal (← abiWordAt data 2))
  | _ => .error (.malformed "CTF position change requires four topics")

/-- The part that both exchange decoders share: the parties, the assets and
the amounts of words 2, 3 and 4. -/
def orderFilledEvent (makerTopic takerTopic : String) (data : List Char)
    (makerAsset takerAsset : List Char) (makerSide : TradeSide) :
    Except DecodeError ChainEvent := do
  let maker ← topicAddress makerTopic
  let taker ← topicAddress takerTopic
  let makerAmount ← hexDecimal (← abiWordAt data 2)
  let takerAmount ← hexDecimal (← abiWordAt data 3)
  let fee ← hexDecimal (← abiWordAt data 4)
  return .orderFilled maker taker (normalizedAssetId makerAsset)
    (normalizedAssetId takerAsset) makerSide makerAmount takerAmount fee

/-- `decode_exchange_v1_order_filled`. -/
def decodeExchangeV1OrderFilled (raw : RawRpcLog) :
    Except DecodeError ChainEvent :=
  match raw.topics with
  | [_, order, maker, taker] => do
      let _ ← abiWord order
      let data ← fixedAbiData raw.data 5
      let makerAsset ← abiWordAt data 0
      let takerAsset ← abiWordAt data 1
      match TradeSide.fromCollateralFlow (isZeroWord makerAsset)
          (isZeroWord takerAsset) with
      | none =>
          .error (.malformed
            "V1 OrderFilled must exchange collateral for one outcome token")
      | some makerSide =>
          orderFilledEvent maker taker data makerAsset takerAsset makerSide
  | _ => .error (.malformed "V1 OrderFilled requires four topics")

/-- `ZERO_ASSET_ID`. -/
def zeroAssetId : List Char :=
  List.replicate 64 '0'

/-- `decode_exchange_v2_order_filled`. -/
def decodeExchangeV2OrderFilled (raw : RawRpcLog) :
    Except DecodeError ChainEvent :=
  match raw.topics with
  | [_, order, maker, taker] => do
      let _ ← abiWord order
      let data ← fixedAbiData raw.data 7
      let tokenId ← abiWordAt data 1
      if isZeroWord tokenId then
        .error (.malformed "V2 OrderFilled token ID cannot be collateral")
      else
        match ← hexU128 (← abiWordAt data 0) "side" with
        | 0 => orderFilledEvent maker taker data zeroAssetId tokenId .buy
        | 1 => orderFilledEvent maker taker data tokenId zeroAssetId .sell
        | _ => .error (.malformed "V2 OrderFilled side must be BUY or SELL")
  | _ => .error (.malformed "V2 OrderFilled requires four topics")

end Events

/-- `eq_ignore_ascii_case`. -/
def eqIgnoreAsciiCase (left right : String) : Bool :=
  asciiLowercase left.toList = asciiLowercase right.toList

def guardRole (raw : RawRpcLog) (registered : Bool)
    (event : Except DecodeError ChainEvent) : Except DecodeError ChainEvent :=
  if registered then
    event
  else
    .error (.unregisteredContract raw.identity.provider)

/-- The branches of `decode_raw_log` over the first topic. -/
def decodeEvent (registry : ContractRegistry) (raw : RawRpcLog)
    (topic : String) : Except DecodeError ChainEvent :=
  if eqIgnoreAsciiCase topic EventTopic.erc20Transfer then
    guardRole raw (raw.contractAddress = registry.collateral)
      (decodeErc20Transfer raw)
  else if eqIgnoreAsciiCase topic EventTopic.erc1155TransferSingle then
    guardRole raw (registry.isConditionalTokens raw.contractAddress)
      (decodeErc1155TransferSingle raw)
  else if eqIgnoreAsciiCase topic EventTopic.erc1155TransferBatch then
    guardRole raw (registry.isConditionalTokens raw.contractAddress)
      (decodeErc1155TransferBatch raw)
  else if eqIgnoreAsciiCase topic EventTopic.ctfPositionSplit then
    guardRole raw (registry.isConditionalTokens raw.contractAddress)
      ((decodeCtfPositionChange raw registry.collateral).map fun change =>
        .positionSplit change.1 change.2.1 change.2.2)
  else if eqIgnoreAsciiCase topic EventTopic.ctfPositionsMerge then
    guardRole raw (registry.isConditionalTokens raw.contractAddress)
      ((decodeCtfPositionChange raw registry.collateral).map fun change =>
        .positionsMerge change.1 change.2.1 change.2.2)
  else if eqIgnoreAsciiCase topic EventTopic.exchangeV1OrderFilled then
    guardRole raw (registry.isLegacyExchange raw.contractAddress)
      (decodeExchangeV1OrderFilled raw)
  else if eqIgnoreAsciiCase topic EventTopic.exchangeV2OrderFilled then
    guardRole raw (registry.isCurrentExchange raw.contractAddress)
      (decodeExchangeV2OrderFilled raw)
  else
    .error (.unsupportedTopic raw.identity.provider)

def RawLogIdentity.canonical (identity : RawLogIdentity) :
    CanonicalLogIdentity where
  chainId := identity.chainId
  blockNumber := identity.blockNumber
  blockHash := identity.blockHash
  transactionHash := identity.transactionHash
  transactionIndex := identity.transactionIndex
  logIndex := identity.logIndex

/-- `decode_raw_log`. -/
def decodeRawLog (registry : ContractRegistry) (raw : RawRpcLog) :
    Except DecodeError CanonicalChainLog :=
  if raw.identity.chainId ≠ registry.chainId then
    .error (.unsupportedChain raw.identity.provider)
  else
    match raw.topics.head? with
    | none => .error (.malformed "missing event topic")
    | some topic =>
        match decodeEvent registry raw topic with
        | .error error => .error error
        | .ok event =>
            let log : CanonicalChainLog :=
              { identity := raw.identity.canonical
                contractAddress := raw.contractAddress
                event := event }
            if registry.accepts log then
              .ok log
            else
              .error (.unregisteredContract raw.identity.provider)

theorem decodeRawLog_eq_ok
    {registry : ContractRegistry} {raw : RawRpcLog} {log : CanonicalChainLog}
    (decoded : decodeRawLog registry raw = .ok log) :
    log.identity = raw.identity.canonical ∧
      log.contractAddress = raw.contractAddress ∧
      registry.accepts log = true := by
  unfold decodeRawLog at decoded
  split at decoded
  · cases decoded
  · split at decoded
    · cases decoded
    · split at decoded
      · cases decoded
      · simp only at decoded
        split at decoded
        · cases decoded
          exact ⟨rfl, rfl, ‹_›⟩
        · cases decoded

end Pmkit
