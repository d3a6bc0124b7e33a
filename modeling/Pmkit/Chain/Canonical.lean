import Pmkit.Chain.EventDecoders

/-!
# Canonical logs are decoded

`decode_raw_log` takes the canonical encodings of the events that can be kept
from the contracts of their role, and no other raw log.
-/

namespace Pmkit

open Fallible (map_eq_ok)

section Logs

variable {registry : ContractRegistry} {raw : RawRpcLog} {first : String}
  {rest : List String} {event : ChainEvent}

theorem guardRole_eq_ok {registered : Bool}
    {decoded : Except DecodeError ChainEvent} :
    guardRole raw registered decoded = .ok event ↔
      registered = true ∧ decoded = .ok event := by
  cases registered <;> simp [guardRole]

theorem eqIgnoreAsciiCase_iff {left right : String} :
    eqIgnoreAsciiCase left right = true ↔
      asciiLowercase left.toList = asciiLowercase right.toList := by
  rw [eqIgnoreAsciiCase, decide_eq_true_eq]

def eventTopics : List String :=
  [EventTopic.erc20Transfer, EventTopic.erc1155TransferSingle,
    EventTopic.erc1155TransferBatch, EventTopic.ctfPositionSplit,
    EventTopic.ctfPositionsMerge, EventTopic.exchangeV1OrderFilled,
    EventTopic.exchangeV2OrderFilled]

/-- A text with the prefix of a number and without capitals. -/
def isLowerHex (text : String) : Bool :=
  match text.toList with
  | '0' :: 'x' :: digits =>
      digits.all fun digit => decide (digit.toNat < 65 ∨ 90 < digit.toNat)
  | _ => false

theorem toLower_of_not_capital {character : Char}
    (notCapital : character.toNat < 65 ∨ 90 < character.toNat) :
    character.toLower = character := by
  unfold Char.toLower
  rw [dif_neg]
  rintro ⟨low, high⟩
  have low : 65 ≤ character.toNat := UInt32.le_iff_toNat_le.mp low
  have high : character.toNat ≤ 90 := UInt32.le_iff_toNat_le.mp high
  omega

theorem exists_of_isLowerHex {text : String} (lower : isLowerHex text = true) :
    ∃ digits, text.toList = '0' :: 'x' :: digits ∧
      asciiLowercase text.toList = text.toList := by
  unfold isLowerHex at lower
  split at lower
  · rename_i digits found
    refine ⟨digits, found, ?_⟩
    have kept : digits.map Char.toLower = digits := by
      refine (List.map_congr_left ?_).trans (List.map_id digits)
      intro digit mem
      have each := List.all_eq_true.mp lower digit mem
      exact toLower_of_not_capital (of_decide_eq_true each)
    rw [found, asciiLowercase, List.map_cons, List.map_cons, kept]
    rfl
  · cases lower

/-- The topics of the signatures are written in lower case. -/
theorem eventTopics_lower :
    ∀ topic ∈ eventTopics, isLowerHex topic = true := by
  decide +kernel

theorem topic_mem (abi : AbiEvent) : abi.topic ∈ eventTopics := by
  cases abi <;> simp [eventTopics, AbiEvent.topic]

variable {abi : AbiEvent}

theorem sameTopic_iff :
    AbiEvent.SameUpToCase first abi.topic ↔
      eqIgnoreAsciiCase first abi.topic = true := by
  obtain ⟨_, _, lower⟩ :=
    exists_of_isLowerHex (eventTopics_lower _ (topic_mem abi))
  rw [eqIgnoreAsciiCase_iff, lower, AbiEvent.SameUpToCase, asciiLowercase,
    ← List.forall₂_eq_eq_eq, List.forall₂_map_left_iff]

theorem not_matched_of_ne {topic other : String}
    (matched : eqIgnoreAsciiCase first topic = true)
    (inside : topic ∈ eventTopics) (otherInside : other ∈ eventTopics)
    (ne : topic ≠ other) :
    ¬ eqIgnoreAsciiCase first other = true := by
  obtain ⟨_, _, lower⟩ := exists_of_isLowerHex (eventTopics_lower _ inside)
  obtain ⟨_, _, otherLower⟩ :=
    exists_of_isLowerHex (eventTopics_lower _ otherInside)
  rw [eqIgnoreAsciiCase_iff, lower] at matched
  rw [eqIgnoreAsciiCase_iff, otherLower, matched]
  exact fun same => ne (String.toList_injective same)

/-! ## Events -/

/-- Only the decoder of a signature reads its logs, and only from the contracts
of its role. -/
theorem decodeEvent_reads (topics : raw.topics = first :: rest)
    (short : raw.data.toList.length < 2 ^ 63)
    (decoded : decodeEvent registry raw first = .ok event) :
    ∃ abi : AbiEvent, AbiEvent.SameUpToCase first abi.topic ∧
      abi.EmittedBy registry raw.contractAddress ∧
      abi.WrittenIn rest raw.data ∧ abi.Keeps registry event := by
  unfold decodeEvent at decoded
  split at decoded
  · rename_i matched
    obtain ⟨role, decoded⟩ := guardRole_eq_ok.mp decoded
    obtain ⟨sender, recipient, value, written, kept⟩ :=
      (decodeErc20Transfer_eq_ok topics).mp decoded
    have emitted : raw.contractAddress = registry.collateral :=
      of_decide_eq_true role
    exact ⟨.transfer sender recipient value, sameTopic_iff.mpr matched,
      emitted, written, kept⟩
  split at decoded
  · rename_i matched
    obtain ⟨role, decoded⟩ := guardRole_eq_ok.mp decoded
    obtain ⟨operator, sender, recipient, id, value, written, kept⟩ :=
      (decodeErc1155TransferSingle_eq_ok topics).mp decoded
    exact ⟨.transferSingle operator sender recipient id value,
      sameTopic_iff.mpr matched, role, written, kept⟩
  split at decoded
  · rename_i matched
    obtain ⟨role, decoded⟩ := guardRole_eq_ok.mp decoded
    obtain ⟨operator, sender, recipient, ids, values, written, kept⟩ :=
      (decodeErc1155TransferBatch_eq_ok topics short).mp decoded
    exact ⟨.transferBatch operator sender recipient ids values,
      sameTopic_iff.mpr matched, role, written, kept⟩
  split at decoded
  · rename_i matched
    obtain ⟨role, decoded⟩ := guardRole_eq_ok.mp decoded
    obtain ⟨_, ofChange, rfl⟩ := map_eq_ok.mp decoded
    obtain ⟨stakeholder, collateral, parent, condition, partition, amount,
      written, registered, small, rfl⟩ :=
      (decodeCtfPositionChange_eq_ok topics short).mp ofChange
    exact ⟨.positionSplit stakeholder collateral parent condition partition
      amount, sameTopic_iff.mpr matched, role, written, registered, small, rfl⟩
  split at decoded
  · rename_i matched
    obtain ⟨role, decoded⟩ := guardRole_eq_ok.mp decoded
    obtain ⟨_, ofChange, rfl⟩ := map_eq_ok.mp decoded
    obtain ⟨stakeholder, collateral, parent, condition, partition, amount,
      written, registered, small, rfl⟩ :=
      (decodeCtfPositionChange_eq_ok topics short).mp ofChange
    exact ⟨.positionsMerge stakeholder collateral parent condition partition
      amount, sameTopic_iff.mpr matched, role,
      positionsMerge_writtenIn.mpr written, registered, small, rfl⟩
  split at decoded
  · rename_i matched
    obtain ⟨role, decoded⟩ := guardRole_eq_ok.mp decoded
    obtain ⟨order, maker, taker, makerAsset, takerAsset, makerAmount,
      takerAmount, fee, written, kept⟩ :=
      (decodeExchangeV1OrderFilled_eq_ok topics).mp decoded
    exact ⟨.orderFilledV1 order maker taker makerAsset takerAsset makerAmount
      takerAmount fee, sameTopic_iff.mpr matched, role, written, kept⟩
  split at decoded
  · rename_i matched
    obtain ⟨role, decoded⟩ := guardRole_eq_ok.mp decoded
    obtain ⟨order, maker, taker, side, token, makerAmount, takerAmount, fee,
      builder, metadata, written, kept⟩ :=
      (decodeExchangeV2OrderFilled_eq_ok topics).mp decoded
    exact ⟨.orderFilledV2 order maker taker side token makerAmount takerAmount
      fee builder metadata, sameTopic_iff.mpr matched, role, written, kept⟩
  · cases decoded

theorem decodeEvent_of_written (topics : raw.topics = first :: rest)
    (short : raw.data.toList.length < 2 ^ 63)
    (sameTopic : AbiEvent.SameUpToCase first abi.topic)
    (emitted : abi.EmittedBy registry raw.contractAddress)
    (written : abi.WrittenIn rest raw.data) (kept : abi.Keeps registry event) :
    decodeEvent registry raw first = .ok event := by
  have others := fun other => @not_matched_of_ne _ _ other
    (sameTopic_iff.mp sameTopic) (topic_mem abi)
  have matched := sameTopic_iff.mp sameTopic
  unfold decodeEvent
  cases abi with
  | transfer =>
      change eqIgnoreAsciiCase first EventTopic.erc20Transfer = true at matched
      rw [if_pos matched, guardRole_eq_ok]
      exact ⟨decide_eq_true emitted,
        (decodeErc20Transfer_eq_ok topics).mpr ⟨_, _, _, written, kept⟩⟩
  | transferSingle =>
      change eqIgnoreAsciiCase first
        EventTopic.erc1155TransferSingle = true at matched
      change ∀ other ∈ eventTopics,
        EventTopic.erc1155TransferSingle ≠ other → _ at others
      rw [if_neg (others _ (by simp [eventTopics]) (by decide +kernel)),
        if_pos matched, guardRole_eq_ok]
      exact ⟨emitted, (decodeErc1155TransferSingle_eq_ok topics).mpr
        ⟨_, _, _, _, _, written, kept⟩⟩
  | transferBatch =>
      change eqIgnoreAsciiCase first
        EventTopic.erc1155TransferBatch = true at matched
      change ∀ other ∈ eventTopics,
        EventTopic.erc1155TransferBatch ≠ other → _ at others
      rw [if_neg (others _ (by simp [eventTopics]) (by decide +kernel)),
        if_neg (others _ (by simp [eventTopics]) (by decide +kernel)),
        if_pos matched, guardRole_eq_ok]
      exact ⟨emitted, (decodeErc1155TransferBatch_eq_ok topics short).mpr
        ⟨_, _, _, _, _, written, kept⟩⟩
  | positionSplit =>
      change eqIgnoreAsciiCase first
        EventTopic.ctfPositionSplit = true at matched
      change ∀ other ∈ eventTopics,
        EventTopic.ctfPositionSplit ≠ other → _ at others
      rw [if_neg (others _ (by simp [eventTopics]) (by decide +kernel)),
        if_neg (others _ (by simp [eventTopics]) (by decide +kernel)),
        if_neg (others _ (by simp [eventTopics]) (by decide +kernel)),
        if_pos matched, guardRole_eq_ok, map_eq_ok]
      obtain ⟨registered, small, rfl⟩ := kept
      exact ⟨emitted, _, (decodeCtfPositionChange_eq_ok topics short).mpr
        ⟨_, _, _, _, _, _, written, registered, small, rfl⟩, rfl⟩
  | positionsMerge =>
      change eqIgnoreAsciiCase first
        EventTopic.ctfPositionsMerge = true at matched
      change ∀ other ∈ eventTopics,
        EventTopic.ctfPositionsMerge ≠ other → _ at others
      rw [if_neg (others _ (by simp [eventTopics]) (by decide +kernel)),
        if_neg (others _ (by simp [eventTopics]) (by decide +kernel)),
        if_neg (others _ (by simp [eventTopics]) (by decide +kernel)),
        if_neg (others _ (by simp [eventTopics]) (by decide +kernel)),
        if_pos matched, guardRole_eq_ok, map_eq_ok]
      obtain ⟨registered, small, rfl⟩ := kept
      exact ⟨emitted, _, (decodeCtfPositionChange_eq_ok topics short).mpr
        ⟨_, _, _, _, _, _, positionsMerge_writtenIn.mp written, registered,
          small, rfl⟩, rfl⟩
  | orderFilledV1 =>
      change eqIgnoreAsciiCase first
        EventTopic.exchangeV1OrderFilled = true at matched
      change ∀ other ∈ eventTopics,
        EventTopic.exchangeV1OrderFilled ≠ other → _ at others
      rw [if_neg (others _ (by simp [eventTopics]) (by decide +kernel)),
        if_neg (others _ (by simp [eventTopics]) (by decide +kernel)),
        if_neg (others _ (by simp [eventTopics]) (by decide +kernel)),
        if_neg (others _ (by simp [eventTopics]) (by decide +kernel)),
        if_neg (others _ (by simp [eventTopics]) (by decide +kernel)),
        if_pos matched, guardRole_eq_ok]
      exact ⟨emitted, (decodeExchangeV1OrderFilled_eq_ok topics).mpr
        ⟨_, _, _, _, _, _, _, _, written, kept⟩⟩
  | orderFilledV2 =>
      change eqIgnoreAsciiCase first
        EventTopic.exchangeV2OrderFilled = true at matched
      change ∀ other ∈ eventTopics,
        EventTopic.exchangeV2OrderFilled ≠ other → _ at others
      rw [if_neg (others _ (by simp [eventTopics]) (by decide +kernel)),
        if_neg (others _ (by simp [eventTopics]) (by decide +kernel)),
        if_neg (others _ (by simp [eventTopics]) (by decide +kernel)),
        if_neg (others _ (by simp [eventTopics]) (by decide +kernel)),
        if_neg (others _ (by simp [eventTopics]) (by decide +kernel)),
        if_neg (others _ (by simp [eventTopics]) (by decide +kernel)),
        if_pos matched, guardRole_eq_ok]
      exact ⟨emitted, (decodeExchangeV2OrderFilled_eq_ok topics).mpr
        ⟨_, _, _, _, _, _, _, _, _, _, written, kept⟩⟩

/-! ## Logs -/

theorem accepts_of_kept {identity : CanonicalLogIdentity}
    {contractAddress : Address} (chain : identity.chainId = registry.chainId)
    (emitted : abi.EmittedBy registry contractAddress)
    (kept : abi.Keeps registry event) :
    registry.accepts ⟨identity, contractAddress, event⟩ = true := by
  unfold ContractRegistry.accepts
  rw [if_neg (not_not.mpr chain)]
  cases abi with
  | transfer =>
      obtain ⟨_, rfl⟩ := kept
      exact decide_eq_true emitted
  | transferSingle =>
      obtain ⟨_, rfl⟩ := kept
      exact emitted
  | transferBatch =>
      obtain ⟨_, _, rfl⟩ := kept
      exact emitted
  | positionSplit =>
      obtain ⟨_, _, rfl⟩ := kept
      exact emitted
  | positionsMerge =>
      obtain ⟨_, _, rfl⟩ := kept
      exact emitted
  | orderFilledV1 =>
      obtain ⟨_, ⟨_, _, rfl⟩ | ⟨_, _, rfl⟩⟩ := kept
      all_goals
        change (_ || _) = true
        rw [Bool.or_eq_true]
        exact .inr emitted
  | orderFilledV2 =>
      obtain ⟨_, _, ⟨_, rfl⟩ | ⟨_, rfl⟩⟩ := kept
      all_goals
        change (_ || _) = true
        rw [Bool.or_eq_true]
        exact .inl emitted

def DecodesTo (sameTopic : String → String → Prop)
    (registry : ContractRegistry) (raw : RawRpcLog)
    (log : CanonicalChainLog) : Prop :=
  raw.identity.chainId = registry.chainId ∧
    log.identity = raw.identity.canonical ∧
    log.contractAddress = raw.contractAddress ∧
    ∃ abi : AbiEvent, abi.EmittedBy registry raw.contractAddress ∧
      abi.EncodedIn sameTopic raw ∧ abi.Keeps registry log.event

theorem decodeRawLog_iff {log : CanonicalChainLog}
    (short : raw.data.toList.length < 2 ^ 63) :
    decodeRawLog registry raw = .ok log ↔
      DecodesTo AbiEvent.SameUpToCase registry raw log := by
  constructor
  · intro decoded
    obtain ⟨identity, contract, _⟩ := decodeRawLog_eq_ok decoded
    unfold decodeRawLog at decoded
    split at decoded
    · cases decoded
    rename_i chain
    split at decoded
    · cases decoded
    rename_i first found
    split at decoded
    · cases decoded
    rename_i event read
    obtain ⟨rest, topics⟩ := List.head?_eq_some_iff.mp found
    obtain ⟨abi, sameTopic, emitted, written, kept⟩ :=
      decodeEvent_reads topics short read
    have isEvent : event = log.event := by
      simp only at decoded
      split at decoded
      · cases decoded
        rfl
      · cases decoded
    rw [isEvent] at kept
    exact ⟨not_not.mp chain, identity, contract, abi, emitted,
      ⟨first, rest, topics, sameTopic, written⟩, kept⟩
  · rintro ⟨chain, identity, contract, abi, emitted,
      ⟨first, rest, topics, sameTopic, written⟩, kept⟩
    obtain ⟨_, _, event⟩ := log
    simp only at identity contract kept
    subst identity
    subst contract
    have accepted : registry.accepts
        ⟨raw.identity.canonical, raw.contractAddress, event⟩ = true :=
      accepts_of_kept chain emitted kept
    unfold decodeRawLog
    rw [if_neg (not_not.mpr chain), topics]
    simp only [List.head?_cons, decodeEvent_of_written topics short sameTopic
      emitted written kept, accepted, if_true]

/-- The texts that the decoder cuts at fixed places have only digits and are
long enough: a word, data of a fixed count of words, and each word of data. -/
structure CutsInside (raw : RawRpcLog) : Prop where
  word : ∀ text word, abiWord text = .ok word →
    word.length = 64 ∧ word.all isHexDigit = true
  data : ∀ count data, fixedAbiData raw.data count = .ok data →
    data.length = count * 64 ∧ data.all isHexDigit = true
  wordAt : ∀ data index word, abiData raw.data = .ok data →
    abiWordAt data index = .ok word →
    word.length = 64 ∧ word.all isHexDigit = true

theorem cutsInside (raw : RawRpcLog) : CutsInside raw where
  word := by
    intro text word read
    exact (abiWord_eq_ok.mp read).2
  data := by
    intro count data read
    obtain ⟨whole, length⟩ := fixedAbiData_eq_abiData.mp read
    obtain ⟨_, chunks, chunked⟩ := abiData_eq_ok.mp whole
    rw [chunked.flatten, List.all_flatten, ← chunked.flatten]
    exact ⟨length, List.all_eq_true.mpr chunked.allDigits⟩
  wordAt := by
    intro data index word whole read
    obtain ⟨_, chunks, chunked⟩ := abiData_eq_ok.mp whole
    have mem : word ∈ chunks :=
      List.mem_of_getElem? ((abiWordAt_eq_ok chunked).mp read)
    exact ⟨chunked.length word mem, chunked.allDigits word mem⟩

theorem SameUpToHexCase.refl (text : String) : SameUpToHexCase text text :=
  List.forall₂_same.mpr fun _ _ => .inl rfl

theorem AbiEvent.encodedIn_encode (abi : AbiEvent) (identity : RawLogIdentity)
    (contractAddress : Address) :
    abi.EncodedIn AbiEvent.SameUpToCase
      (abi.encode identity contractAddress) := by
  refine ⟨abi.topic, abi.indexedTexts, rfl, ?_, ?_, SameUpToHexCase.refl _⟩
  · rw [sameTopic_iff, eqIgnoreAsciiCase_iff]
  · exact List.forall₂_same.mpr fun text _ => SameUpToHexCase.refl text

end Logs

/-- A text in memory has a length that a signed machine word holds. -/
def FitsInMemory (text : String) : Prop :=
  text.toList.length < 2 ^ 63

/-- The decoder takes the canonical encodings of the events that can be kept,
and no other raw logs. -/
theorem decodeRawLog_canonical
    (registry : ContractRegistry) (raw : RawRpcLog) (log : CanonicalChainLog)
    (fits : FitsInMemory raw.data) :
    (decodeRawLog registry raw = .ok log ↔
      DecodesTo AbiEvent.SameUpToCase registry raw log) ∧
    CutsInside raw ∧
    ∀ (abi : AbiEvent) (kept : ChainEvent) (contractAddress : Address),
      raw.identity.chainId = registry.chainId →
      abi.EmittedBy registry contractAddress → abi.Keeps registry kept →
      FitsInMemory abi.dataText →
      decodeRawLog registry (abi.encode raw.identity contractAddress) =
        .ok ⟨raw.identity.canonical, contractAddress, kept⟩ := by
  refine ⟨decodeRawLog_iff fits, cutsInside raw, ?_⟩
  intro abi kept contractAddress chain emitted keeps short
  have short : (abi.encode raw.identity contractAddress).data.toList.length <
      2 ^ 63 := short
  rw [decodeRawLog_iff short]
  exact ⟨chain, rfl, rfl, abi, emitted, abi.encodedIn_encode _ _, keeps⟩

def transferEvent : AbiEvent :=
  .transfer ⟨1, by decide⟩ ⟨170, by decide⟩ ⟨42, by decide⟩

def transferIdentity : RawLogIdentity :=
  ⟨⟨"first"⟩, .polygon, 1, "0xblock1", "0xtx", 0, 0⟩

theorem transferEvent_fits : FitsInMemory transferEvent.dataText := by
  have length : transferEvent.dataText.toList.length = 66 := by
    change (wordsText [42]).toList.length = 66
    rw [wordsText, String.toList_ofList, List.length_cons, List.length_cons,
      List.flatMap_singleton, length_hexDigits]
  rw [FitsInMemory, length]
  decide

theorem transferEvent_kept :
    AbiEvent.KeptAmount ⟨42, by decide⟩ := by
  change (42 : Nat) ≤ 2 ^ 96 - 1
  decide

theorem decodeRawLog_canonical_transferEvent :
    decodeRawLog .polygon
        (transferEvent.encode transferIdentity
          ContractRegistry.polygon.collateral) =
      .ok ⟨transferIdentity.canonical, ContractRegistry.polygon.collateral,
        .collateralTransfer (addressOf 1) (addressOf 170) 42⟩ :=
  (decodeRawLog_canonical .polygon
    (transferEvent.encode transferIdentity
      ContractRegistry.polygon.collateral)
    ⟨transferIdentity.canonical, ContractRegistry.polygon.collateral,
      .collateralTransfer (addressOf 1) (addressOf 170) 42⟩
    transferEvent_fits).2.2 transferEvent _ _ rfl rfl
    ⟨transferEvent_kept, rfl⟩ transferEvent_fits

def capitalTransferTopic : String :=
  "0XDDF252AD1BE2C89B69C2B068FC378DAA952BA7F163C4A11628F55A8DF523B3EF"

def capitalTransferLog : RawRpcLog where
  identity := transferIdentity
  contractAddress := ContractRegistry.polygon.collateral
  topics := [capitalTransferTopic,
    "0x0000000000000000000000000000000000000000000000000000000000000001",
    "0x00000000000000000000000000000000000000000000000000000000000000AA"]
  data := "0x000000000000000000000000000000000000000000000000000000000000002a"

/-- The prefix of a first topic is not a digit, and its case is ignored. -/
theorem capitalTransferLog_not_canonical :
    ¬ ∀ (registry : ContractRegistry) (raw : RawRpcLog)
      (log : CanonicalChainLog), FitsInMemory raw.data →
      (decodeRawLog registry raw = .ok log ↔
        DecodesTo SameUpToHexCase registry raw log) := by
  intro claimed
  have fits : FitsInMemory capitalTransferLog.data := by
    rw [FitsInMemory]
    decide +kernel
  have decoded : decodeRawLog .polygon capitalTransferLog =
      .ok ⟨transferIdentity.canonical, ContractRegistry.polygon.collateral,
        .collateralTransfer ⟨"0x0000000000000000000000000000000000000001"⟩
          ⟨"0x00000000000000000000000000000000000000aa"⟩ 42⟩ := by
    decide +kernel
  obtain ⟨_, _, _, abi, _, ⟨first, rest, topics, same, _⟩, _⟩ :=
    (claimed _ _ _ fits).mp decoded
  cases topics
  obtain ⟨digits, lower, _⟩ :=
    exists_of_isLowerHex (eventTopics_lower _ (topic_mem abi))
  rw [SameUpToHexCase, lower] at same
  have second := List.forall₂_drop 1 same
  have capital : capitalTransferTopic.toList.drop 1 =
      'X' :: capitalTransferTopic.toList.drop 2 := by decide +kernel
  rw [capital, List.drop_succ_cons, List.drop_zero, List.forall₂_cons] at second
  rcases second.1 with impossible | ⟨impossible, _⟩
  · cases impossible
  · cases impossible

end Pmkit
