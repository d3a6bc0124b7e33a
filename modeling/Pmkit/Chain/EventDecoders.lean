import Pmkit.Chain.AbiEvents

/-!
# The decoders of the signatures

Each decoder takes the canonical encodings of the events of its signature whose
arguments can be kept, and no other topics and data.
-/

namespace Pmkit

open Fallible (bind_eq_ok)

/-! ## Topics and data -/

section Texts

variable {text : String} {digits : List Char}

theorem abiWord_reads (read : abiWord text = .ok digits) :
    ∃ word : AbiWord, SameUpToHexCase text (wordsText [word]) ∧
      WritesWord digits word := by
  obtain ⟨found, length, all⟩ := abiWord_eq_ok.mp read
  have writes : WritesWord digits (hexValue digits) := ⟨length, all, rfl⟩
  have fits := (writes_iff.mp writes).2
  exact ⟨⟨hexValue digits, fits⟩,
    (abiWord_writes fits).mp ⟨digits, read, rfl⟩, writes⟩

theorem abiWord_of_same {word : AbiWord}
    (same : SameUpToHexCase text (wordsText [word])) :
    ∃ digits, abiWord text = .ok digits ∧ WritesWord digits word := by
  obtain ⟨digits, read, value⟩ := (abiWord_writes word.isLt).mpr same
  obtain ⟨_, length, all⟩ := abiWord_eq_ok.mp read
  exact ⟨digits, read, length, all, value⟩

theorem topicAddress_reads {address : Address}
    (read : topicAddress text = .ok address) :
    ∃ value : AbiAddress, SameUpToHexCase text (wordsText [value]) ∧
      address = addressOf value := by
  obtain ⟨value, fits, same, known⟩ := topicAddress_eq_ok.mp read
  exact ⟨⟨value, fits⟩, same, known⟩

theorem topicAddress_of_same {value : AbiAddress}
    (same : SameUpToHexCase text (wordsText [value])) :
    topicAddress text = .ok (addressOf value) :=
  topicAddress_eq_ok.mpr ⟨value, value.isLt, same, rfl⟩

theorem forall₂_writes {data : List Char} {chunks : List (List Char)}
    (chunked : Chunked data chunks) {words : List Nat} :
    List.Forall₂ WritesWord chunks words ↔ chunks.map hexValue = words := by
  constructor
  · intro writes
    rw [← List.forall₂_eq_eq_eq, List.forall₂_map_left_iff]
    exact writes.imp fun _ _ each => each.value
  · rintro rfl
    rw [List.forall₂_map_right_iff, List.forall₂_same]
    intro chunk mem
    exact chunked.writes mem

theorem abiData_reads (read : abiData text = .ok digits) :
    ∃ chunks words, Chunked digits chunks ∧
      List.Forall₂ WritesWord chunks words ∧
      SameUpToHexCase text (wordsText words) := by
  obtain ⟨found, chunks, chunked⟩ := abiData_eq_ok.mp read
  refine ⟨chunks, chunks.map hexValue, chunked,
    (forall₂_writes chunked).mpr rfl,
    sameUpToHexCase_wordsText.mpr ⟨digits, found, ?_⟩⟩
  exact (Chunked.writesWords_iff.mp ⟨chunks, chunked, rfl⟩).1

theorem abiData_of_same {words : List Nat}
    (fits : ∀ word ∈ words, word < wordBound)
    (same : SameUpToHexCase text (wordsText words)) :
    ∃ digits chunks, abiData text = .ok digits ∧ Chunked digits chunks ∧
      List.Forall₂ WritesWord chunks words := by
  obtain ⟨digits, found, written⟩ := sameUpToHexCase_wordsText.mp same
  obtain ⟨chunks, chunked, values⟩ :=
    Chunked.writesWords_iff.mpr ⟨written, fits⟩
  exact ⟨digits, chunks, abiData_eq_ok.mpr ⟨found, chunks, chunked⟩, chunked,
    (forall₂_writes chunked).mpr values⟩

theorem fixedAbiData_eq_abiData {count : Nat} :
    fixedAbiData text count = .ok digits ↔
      abiData text = .ok digits ∧ digits.length = count * 64 := by
  unfold fixedAbiData
  rw [bind_eq_ok]
  constructor
  · rintro ⟨data, read, rest⟩
    split at rest
    · cases rest
    · rename_i exact
      cases rest
      exact ⟨read, not_not.mp exact⟩
  · rintro ⟨read, length⟩
    refine ⟨digits, read, ?_⟩
    rw [if_neg (not_not.mpr length)]

end Texts

variable {text : String} {digits : List Char}

theorem fixedAbiData_reads {count : Nat}
    (read : fixedAbiData text count = .ok digits) :
    ∃ chunks words, Chunked digits chunks ∧
      List.Forall₂ WritesWord chunks words ∧ words.length = count ∧
      SameUpToHexCase text (wordsText words) := by
  obtain ⟨read, length⟩ := fixedAbiData_eq_abiData.mp read
  obtain ⟨chunks, words, chunked, writes, same⟩ := abiData_reads read
  rw [chunked.data_length, Nat.mul_left_inj (by decide), writes.length_eq]
    at length
  exact ⟨chunks, words, chunked, writes, length, same⟩

theorem fits_of_val (words : List AbiWord) :
    ∀ word ∈ words.map Fin.val, word < wordBound := by
  intro word mem
  obtain ⟨⟨_, fits⟩, _, rfl⟩ := List.mem_map.mp mem
  exact fits

theorem fixedAbiData_of_same (words : List AbiWord)
    (count : Nat) (length : words.length = count)
    (same : SameUpToHexCase text (wordsText (words.map Fin.val))) :
    ∃ digits chunks, fixedAbiData text count = .ok digits ∧
      Chunked digits chunks ∧
      List.Forall₂ WritesWord chunks (words.map Fin.val) := by
  obtain ⟨digits, chunks, read, chunked, writes⟩ :=
    abiData_of_same (fits_of_val words) same
  refine ⟨digits, chunks, fixedAbiData_eq_abiData.mpr ⟨read, ?_⟩, chunked,
    writes⟩
  rw [chunked.data_length, writes.length_eq, List.length_map, length]

theorem abiData_length (read : abiData text = .ok digits) :
    digits.length ≤ text.toList.length := by
  rw [stripHexPrefix_eq_some.mp (abiData_eq_ok.mp read).1, List.length_cons,
    List.length_cons]
  omega

theorem length_of_same {words : List Nat}
    (same : SameUpToHexCase text (wordsText words)) :
    words.length ≤ text.toList.length := by
  have length := List.Forall₂.length_eq same
  rw [wordsText, String.toList_ofList, List.length_cons, List.length_cons,
    List.length_flatMap] at length
  simp only [length_hexDigits, List.map_const', List.sum_replicate_nat]
    at length
  omega

theorem exists_abiWords {chunks : List (List Char)} {words : List Nat}
    (writes : List.Forall₂ WritesWord chunks words) :
    ∃ items : List AbiWord, items.map Fin.val = words := by
  induction writes with
  | nil =>
      exact ⟨[], rfl⟩
  | cons first _ ih =>
      obtain ⟨items, rfl⟩ := ih
      exact ⟨⟨_, (writes_iff.mp first).2⟩ :: items, rfl⟩

def abiWordOf {digits : List Char} {value : Nat}
    (writes : WritesWord digits value) : AbiWord :=
  ⟨value, (writes_iff.mp writes).2⟩

theorem Chunked.take_drop_two {data front back : List Char}
    (chunked : Chunked data [front, back]) :
    data.take 64 = front ∧ data.drop 64 = back := by
  have length := chunked.length front List.mem_cons_self
  rw [chunked.flatten, List.flatten_cons, ← length, List.take_left,
    List.drop_left, List.flatten_singleton]
  exact ⟨rfl, rfl⟩

theorem decimalMaxMantissa_eq : decimalMaxMantissa = 2 ^ 96 - 1 := by
  decide

theorem hexDecimal_reads {value : Nat} {amount : Decimal}
    (writes : WritesWord digits value)
    (read : hexDecimal digits = .ok amount) :
    AbiEvent.KeptAmount (abiWordOf writes) ∧ amount = (value : Decimal) := by
  rw [hexDecimal_eq_ok, writes.value, decimalMaxMantissa_eq] at read
  exact read

theorem hexDecimal_of_kept {word : AbiWord}
    (writes : WritesWord digits word) (kept : AbiEvent.KeptAmount word) :
    hexDecimal digits = .ok (word.val : Decimal) := by
  rw [hexDecimal_eq_ok, writes.value, decimalMaxMantissa_eq]
  exact ⟨kept, rfl⟩

theorem forall₂_three {topics : List String} {a b c : Nat} :
    List.Forall₂ SameUpToHexCase topics
        ([a, b, c].map fun word => wordsText [word]) ↔
      ∃ x y z, topics = [x, y, z] ∧ SameUpToHexCase x (wordsText [a]) ∧
        SameUpToHexCase y (wordsText [b]) ∧
        SameUpToHexCase z (wordsText [c]) := by
  simp only [List.map_cons, List.map_nil, List.forall₂_cons_right_iff,
    List.forall₂_nil_right_iff]
  constructor
  · rintro ⟨x, _, ofA, ⟨y, _, ofB, ⟨z, _, ofC, rfl, rfl⟩, rfl⟩, rfl⟩
    exact ⟨x, y, z, rfl, ofA, ofB, ofC⟩
  · rintro ⟨x, y, z, rfl, ofA, ofB, ofC⟩
    exact ⟨x, _, ofA, ⟨y, _, ofB, ⟨z, _, ofC, rfl, rfl⟩, rfl⟩, rfl⟩

theorem transfers_eq_ok
    {ids values : List (List Char)} {idWords valueWords : List AbiWord}
    (idWrites : List.Forall₂ WritesWord ids (idWords.map Fin.val))
    (valueWrites : List.Forall₂ WritesWord values (valueWords.map Fin.val))
    (even : idWords.length = valueWords.length)
    {transfers : List OutcomeTokenAmount} :
    ((ids.zip values).mapM fun pair => do
        return OutcomeTokenAmount.mk (normalizedAssetId pair.1)
          (← hexDecimal pair.2)) = .ok transfers ↔
      (∀ value ∈ valueWords, AbiEvent.KeptAmount value) ∧
        transfers = idWords.zipWith (fun id value =>
          ⟨wordsText [id.val], (value.val : Decimal)⟩) valueWords := by
  induction idWords generalizing ids values valueWords transfers with
  | nil =>
      have none : valueWords = [] := List.eq_nil_of_length_eq_zero even.symm
      subst none
      cases idWrites
      cases valueWrites
      constructor
      · intro read
        cases read
        exact ⟨fun value mem => absurd mem List.not_mem_nil, rfl⟩
      · rintro ⟨_, rfl⟩
        rfl
  | cons id idWords ih =>
      cases valueWords with
      | nil => cases even
      | cons value valueWords =>
          cases idWrites with | cons ofId idWrites
          cases valueWrites with | cons ofValue valueWrites
          rw [List.zip_cons_cons, List.mapM_cons, List.forall_mem_cons,
            List.zipWith_cons_cons]
          simp only [bind_eq_ok, ih idWrites valueWrites (Nat.succ.inj even)]
          constructor
          · rintro ⟨_, ⟨amount, read, head⟩, _, ⟨kept, rest⟩, joined⟩
            obtain ⟨small, rfl⟩ := hexDecimal_reads ofValue read
            rw [← Except.ok.inj joined, ← Except.ok.inj head, rest,
              normalizedAssetId_eq ofId]
            exact ⟨⟨small, kept⟩, rfl⟩
          · rintro ⟨⟨small, kept⟩, rfl⟩
            rw [normalizedAssetId_eq ofId]
            exact ⟨_, ⟨_, hexDecimal_of_kept ofValue small, rfl⟩, _,
              ⟨kept, rfl⟩, rfl⟩

/-! ## Decoders -/

section Decoders

variable {registry : ContractRegistry} {raw : RawRpcLog} {first : String}
  {rest : List String} {event : ChainEvent}

theorem decodeErc20Transfer_eq_ok (topics : raw.topics = first :: rest) :
    decodeErc20Transfer raw = .ok event ↔ ∃ sender recipient value,
      (AbiEvent.transfer sender recipient value).WrittenIn rest raw.data ∧
      (AbiEvent.transfer sender recipient value).Keeps registry event := by
  unfold decodeErc20Transfer
  rw [topics]
  constructor
  · intro decoded
    split at decoded
    · rename_i senderTopic recipientTopic same
      cases same
      simp only [bind_eq_ok] at decoded
      obtain ⟨_, ofSender, _, ofRecipient, _, ofData, kept⟩ := decoded
      obtain ⟨sender, sameSender, rfl⟩ := topicAddress_reads ofSender
      obtain ⟨recipient, sameRecipient, rfl⟩ := topicAddress_reads ofRecipient
      obtain ⟨digits, ofWord, ofAmount⟩ := bind_eq_ok.mp ofData
      obtain ⟨value, sameData, writes⟩ := abiWord_reads ofWord
      obtain ⟨small, rfl⟩ := hexDecimal_reads writes ofAmount
      cases kept
      exact ⟨sender, recipient, value,
        ⟨.cons sameSender (.cons sameRecipient .nil), sameData⟩, small, rfl⟩
    · cases decoded
  · rintro ⟨sender, recipient, value, ⟨ofTopics, ofData⟩, small, rfl⟩
    simp only [AbiEvent.indexedTexts, AbiEvent.indexed, List.map_cons,
      List.map_nil, List.forall₂_cons_right_iff, List.forall₂_nil_right_iff]
      at ofTopics
    obtain ⟨_, _, ofSender, ⟨_, _, ofRecipient, rfl, rfl⟩, rfl⟩ := ofTopics
    obtain ⟨digits, ofWord, writes⟩ := abiWord_of_same ofData
    simp only [topicAddress_of_same ofSender,
      topicAddress_of_same ofRecipient, wordDecimal, ofWord,
      hexDecimal_of_kept writes small, bind, Except.bind]
    rfl

theorem decodeErc1155TransferSingle_eq_ok
    (topics : raw.topics = first :: rest) :
    decodeErc1155TransferSingle raw = .ok event ↔
      ∃ operator sender recipient id value,
        (AbiEvent.transferSingle operator sender recipient id value).WrittenIn
          rest raw.data ∧
        (AbiEvent.transferSingle operator sender recipient id value).Keeps
          registry event := by
  unfold decodeErc1155TransferSingle
  rw [topics]
  constructor
  · intro decoded
    split at decoded
    · rename_i operatorTopic senderTopic recipientTopic same
      cases same
      simp only [bind_eq_ok] at decoded
      obtain ⟨_, ofOperator, data, ofData, _, ofSender, _, ofRecipient, _,
        ofAmount, kept⟩ := decoded
      obtain ⟨operator, sameOperator, rfl⟩ := topicAddress_reads ofOperator
      obtain ⟨sender, sameSender, rfl⟩ := topicAddress_reads ofSender
      obtain ⟨recipient, sameRecipient, rfl⟩ := topicAddress_reads ofRecipient
      obtain ⟨chunks, words, chunked, writes, length, sameData⟩ :=
        fixedAbiData_reads ofData
      obtain ⟨id, value, rfl⟩ := List.length_eq_two.mp length
      cases writes with | cons ofId writes
      cases writes with | cons ofValue writes
      cases writes
      rw [chunked.take_drop_two.2] at ofAmount
      obtain ⟨small, rfl⟩ := hexDecimal_reads ofValue ofAmount
      cases kept
      rw [chunked.take_drop_two.1, normalizedAssetId_eq ofId]
      exact ⟨operator, sender, recipient, abiWordOf ofId, abiWordOf ofValue,
        ⟨.cons sameOperator (.cons sameSender (.cons sameRecipient .nil)),
          sameData⟩, small, rfl⟩
    · cases decoded
  · rintro ⟨operator, sender, recipient, id, value, ⟨ofTopics, ofData⟩, small,
      rfl⟩
    obtain ⟨_, _, _, rfl, ofOperator, ofSender, ofRecipient⟩ :=
      forall₂_three.mp ofTopics
    obtain ⟨digits, chunks, read, chunked, writes⟩ :=
      fixedAbiData_of_same [id, value] 2 rfl ofData
    cases writes with | cons ofId writes
    cases writes with | cons ofValue writes
    cases writes
    simp only [topicAddress_of_same ofOperator, topicAddress_of_same ofSender,
      topicAddress_of_same ofRecipient, read, chunked.take_drop_two,
      normalizedAssetId_eq ofId, hexDecimal_of_kept ofValue small,
      bind, Except.bind]
    rfl

section Fills

variable {data : List Char} {chunks : List (List Char)}
  {makerTopic takerTopic : String} {makerAsset takerAsset : List Char}
  {ofMaker ofTaker ofFee : List Char} {makerSide : TradeSide}

/-- What the exchange decoders share reads the parties and the amounts. -/
theorem orderFilledEvent_reads
    {makerAssetId takerAssetId makerAmount takerAmount fee : Nat}
    (chunked : Chunked data chunks) (atMaker : chunks[2]? = some ofMaker)
    (atTaker : chunks[3]? = some ofTaker) (atFee : chunks[4]? = some ofFee)
    (makerAssetWrites : WritesWord makerAsset makerAssetId)
    (takerAssetWrites : WritesWord takerAsset takerAssetId)
    (makerWrites : WritesWord ofMaker makerAmount)
    (takerWrites : WritesWord ofTaker takerAmount)
    (feeWrites : WritesWord ofFee fee)
    (decoded : orderFilledEvent makerTopic takerTopic data makerAsset
      takerAsset makerSide = .ok event) :
    ∃ maker taker : AbiAddress,
      SameUpToHexCase makerTopic (wordsText [maker]) ∧
      SameUpToHexCase takerTopic (wordsText [taker]) ∧
      (AbiEvent.KeptAmount (abiWordOf makerWrites) ∧
        AbiEvent.KeptAmount (abiWordOf takerWrites) ∧
        AbiEvent.KeptAmount (abiWordOf feeWrites)) ∧
      event = AbiEvent.filled maker taker makerAssetId takerAssetId makerSide
        (abiWordOf makerWrites) (abiWordOf takerWrites)
        (abiWordOf feeWrites) := by
  unfold orderFilledEvent at decoded
  simp only [bind_eq_ok, abiWordAt_eq_ok chunked] at decoded
  obtain ⟨_, makerKnown, _, takerKnown, _, sameMaker, _, makerRead, _,
    sameTaker, _, takerRead, _, sameFee, _, feeRead, kept⟩ := decoded
  rw [atMaker] at sameMaker
  rw [atTaker] at sameTaker
  rw [atFee] at sameFee
  cases sameMaker
  cases sameTaker
  cases sameFee
  obtain ⟨maker, makerSame, rfl⟩ := topicAddress_reads makerKnown
  obtain ⟨taker, takerSame, rfl⟩ := topicAddress_reads takerKnown
  obtain ⟨makerSmall, rfl⟩ := hexDecimal_reads makerWrites makerRead
  obtain ⟨takerSmall, rfl⟩ := hexDecimal_reads takerWrites takerRead
  obtain ⟨feeSmall, rfl⟩ := hexDecimal_reads feeWrites feeRead
  cases kept
  refine ⟨maker, taker, makerSame, takerSame,
    ⟨makerSmall, takerSmall, feeSmall⟩, ?_⟩
  rw [normalizedAssetId_eq makerAssetWrites,
    normalizedAssetId_eq takerAssetWrites]
  rfl

theorem orderFilledEvent_of_same
    {makerAssetId takerAssetId : Nat} {maker taker : AbiAddress}
    {makerAmount takerAmount fee : AbiWord}
    (chunked : Chunked data chunks) (atMaker : chunks[2]? = some ofMaker)
    (atTaker : chunks[3]? = some ofTaker) (atFee : chunks[4]? = some ofFee)
    (makerAssetWrites : WritesWord makerAsset makerAssetId)
    (takerAssetWrites : WritesWord takerAsset takerAssetId)
    (makerWrites : WritesWord ofMaker makerAmount)
    (takerWrites : WritesWord ofTaker takerAmount)
    (feeWrites : WritesWord ofFee fee)
    (makerSame : SameUpToHexCase makerTopic (wordsText [maker]))
    (takerSame : SameUpToHexCase takerTopic (wordsText [taker]))
    (kept : AbiEvent.KeptAmount makerAmount ∧
      AbiEvent.KeptAmount takerAmount ∧ AbiEvent.KeptAmount fee) :
    orderFilledEvent makerTopic takerTopic data makerAsset takerAsset
      makerSide = .ok (AbiEvent.filled maker taker makerAssetId takerAssetId
        makerSide makerAmount takerAmount fee) := by
  unfold orderFilledEvent
  simp only [topicAddress_of_same makerSame, topicAddress_of_same takerSame,
    (abiWordAt_eq_ok chunked).mpr atMaker,
    (abiWordAt_eq_ok chunked).mpr atTaker, (abiWordAt_eq_ok chunked).mpr atFee,
    hexDecimal_of_kept makerWrites kept.1,
    hexDecimal_of_kept takerWrites kept.2.1,
    hexDecimal_of_kept feeWrites kept.2.2, bind, Except.bind,
    normalizedAssetId_eq makerAssetWrites,
    normalizedAssetId_eq takerAssetWrites]
  rfl

theorem fromCollateralFlow_eq_some {maker taker : Nat} {side : TradeSide}
    (makerWrites : WritesWord makerAsset maker)
    (takerWrites : WritesWord takerAsset taker) :
    TradeSide.fromCollateralFlow (isZeroWord makerAsset)
        (isZeroWord takerAsset) = some side ↔
      maker = 0 ∧ taker ≠ 0 ∧ side = .buy ∨
        maker ≠ 0 ∧ taker = 0 ∧ side = .sell := by
  rw [ne_eq, ne_eq, ← isZeroWord_iff makerWrites, ← isZeroWord_iff takerWrites]
  cases isZeroWord makerAsset <;> cases isZeroWord takerAsset <;>
    cases side <;> simp [TradeSide.fromCollateralFlow]

end Fills

theorem decodeExchangeV1OrderFilled_eq_ok
    (topics : raw.topics = first :: rest) :
    decodeExchangeV1OrderFilled raw = .ok event ↔
      ∃ order maker taker makerAsset takerAsset makerAmount takerAmount fee,
        (AbiEvent.orderFilledV1 order maker taker makerAsset takerAsset
          makerAmount takerAmount fee).WrittenIn rest raw.data ∧
        (AbiEvent.orderFilledV1 order maker taker makerAsset takerAsset
          makerAmount takerAmount fee).Keeps registry event := by
  unfold decodeExchangeV1OrderFilled
  rw [topics]
  constructor
  · intro decoded
    split at decoded
    · rename_i orderTopic makerTopic takerTopic same
      cases same
      simp only [bind_eq_ok] at decoded
      obtain ⟨_, ofOrder, data, ofData, _, ofMakerAsset, _, ofTakerAsset,
        filled⟩ := decoded
      obtain ⟨order, sameOrder, _⟩ := abiWord_reads ofOrder
      obtain ⟨chunks, words, chunked, writes, length, sameData⟩ :=
        fixedAbiData_reads ofData
      rcases writes with _ | ⟨makerAssetWrites, _ | ⟨takerAssetWrites, _ |
        ⟨makerWrites, _ | ⟨takerWrites, _ | ⟨feeWrites, _ | _⟩⟩⟩⟩⟩
      all_goals simp at length
      cases (abiWordAt_eq_ok chunked).mp ofMakerAsset
      cases (abiWordAt_eq_ok chunked).mp ofTakerAsset
      split at filled
      · cases filled
      · rename_i side flow
        obtain ⟨maker, taker, makerSame, takerSame, kept, rfl⟩ :=
          orderFilledEvent_reads chunked rfl rfl rfl makerAssetWrites
            takerAssetWrites makerWrites takerWrites feeWrites filled
        refine ⟨order, maker, taker, abiWordOf makerAssetWrites,
          abiWordOf takerAssetWrites, abiWordOf makerWrites,
          abiWordOf takerWrites, abiWordOf feeWrites,
          ⟨.cons sameOrder (.cons makerSame (.cons takerSame .nil)),
            sameData⟩, kept, ?_⟩
        rcases (fromCollateralFlow_eq_some makerAssetWrites
          takerAssetWrites).mp flow with
          ⟨zero, token, rfl⟩ | ⟨token, zero, rfl⟩
        · exact .inl ⟨zero, token, rfl⟩
        · exact .inr ⟨token, zero, rfl⟩
    · cases decoded
  · rintro ⟨order, maker, taker, makerAsset, takerAsset, makerAmount,
      takerAmount, fee, ⟨ofTopics, ofData⟩, kept, sides⟩
    obtain ⟨_, _, _, rfl, ofOrder, ofMaker, ofTaker⟩ :=
      forall₂_three.mp ofTopics
    obtain ⟨_, orderRead, _⟩ := abiWord_of_same ofOrder
    obtain ⟨digits, chunks, read, chunked, writes⟩ :=
      fixedAbiData_of_same
        [makerAsset, takerAsset, makerAmount, takerAmount, fee] 5 rfl ofData
    rcases writes with _ | ⟨makerAssetWrites, _ | ⟨takerAssetWrites, _ |
      ⟨makerWrites, _ | ⟨takerWrites, _ | ⟨feeWrites, _ | _⟩⟩⟩⟩⟩
    simp only [orderRead, read, bind, Except.bind,
      (abiWordAt_eq_ok chunked).mpr (List.getElem?_cons_zero),
      (abiWordAt_eq_ok chunked).mpr
        ((List.getElem?_cons_succ).trans List.getElem?_cons_zero)]
    rcases sides with ⟨zero, token, rfl⟩ | ⟨token, zero, rfl⟩
    · rw [(fromCollateralFlow_eq_some makerAssetWrites takerAssetWrites).mpr
        (Or.inl ⟨zero, token, rfl⟩)]
      exact orderFilledEvent_of_same chunked rfl rfl rfl makerAssetWrites
        takerAssetWrites makerWrites takerWrites feeWrites ofMaker ofTaker kept
    · rw [(fromCollateralFlow_eq_some makerAssetWrites takerAssetWrites).mpr
        (Or.inr ⟨token, zero, rfl⟩)]
      exact orderFilledEvent_of_same chunked rfl rfl rfl makerAssetWrites
        takerAssetWrites makerWrites takerWrites feeWrites ofMaker ofTaker kept

theorem zeroAssetId_writes : WritesWord zeroAssetId 0 where
  length := by decide
  allDigits := by decide
  value := by decide

theorem decodeExchangeV2OrderFilled_eq_ok
    (topics : raw.topics = first :: rest) :
    decodeExchangeV2OrderFilled raw = .ok event ↔
      ∃ order maker taker side token makerAmount takerAmount fee builder
          metadata,
        (AbiEvent.orderFilledV2 order maker taker side token makerAmount
          takerAmount fee builder metadata).WrittenIn rest raw.data ∧
        (AbiEvent.orderFilledV2 order maker taker side token makerAmount
          takerAmount fee builder metadata).Keeps registry event := by
  unfold decodeExchangeV2OrderFilled
  rw [topics]
  constructor
  · intro decoded
    split at decoded
    · rename_i orderTopic makerTopic takerTopic same
      cases same
      simp only [bind_eq_ok] at decoded
      obtain ⟨_, ofOrder, data, ofData, _, ofToken, decoded⟩ := decoded
      obtain ⟨order, sameOrder, _⟩ := abiWord_reads ofOrder
      obtain ⟨chunks, words, chunked, writes, length, sameData⟩ :=
        fixedAbiData_reads ofData
      rcases writes with _ | ⟨sideWrites, _ | ⟨tokenWrites, _ | ⟨makerWrites,
        _ | ⟨takerWrites, _ | ⟨feeWrites, _ | ⟨builderWrites, _ |
        ⟨metadataWrites, _ | _⟩⟩⟩⟩⟩⟩⟩
      all_goals simp at length
      cases (abiWordAt_eq_ok chunked).mp ofToken
      split at decoded
      · cases decoded
      rename_i isToken
      rw [isZeroWord_iff tokenWrites] at isToken
      simp only [bind_eq_ok] at decoded
      obtain ⟨_, ofSide, side, sideRead, filled⟩ := decoded
      cases (abiWordAt_eq_ok chunked).mp ofSide
      obtain ⟨isSide, _⟩ := hexU128_eq_ok.mp sideRead
      rw [sideWrites.value] at isSide
      subst isSide
      split at filled
      · obtain ⟨maker, taker, makerSame, takerSame, kept, rfl⟩ :=
          orderFilledEvent_reads chunked rfl rfl rfl zeroAssetId_writes
            tokenWrites makerWrites takerWrites feeWrites filled
        exact ⟨order, maker, taker, ⟨0, by decide⟩, abiWordOf tokenWrites,
          abiWordOf makerWrites, abiWordOf takerWrites, abiWordOf feeWrites,
          abiWordOf builderWrites, abiWordOf metadataWrites,
          ⟨.cons sameOrder (.cons makerSame (.cons takerSame .nil)),
            sameData⟩, kept, isToken, Or.inl ⟨rfl, rfl⟩⟩
      · obtain ⟨maker, taker, makerSame, takerSame, kept, rfl⟩ :=
          orderFilledEvent_reads chunked rfl rfl rfl tokenWrites
            zeroAssetId_writes makerWrites takerWrites feeWrites filled
        exact ⟨order, maker, taker, ⟨1, by decide⟩, abiWordOf tokenWrites,
          abiWordOf makerWrites, abiWordOf takerWrites, abiWordOf feeWrites,
          abiWordOf builderWrites, abiWordOf metadataWrites,
          ⟨.cons sameOrder (.cons makerSame (.cons takerSame .nil)),
            sameData⟩, kept, isToken, Or.inr ⟨rfl, rfl⟩⟩
      · cases filled
    · cases decoded
  · rintro ⟨order, maker, taker, side, token, makerAmount, takerAmount, fee,
      builder, metadata, ⟨ofTopics, ofData⟩, kept, isToken, sides⟩
    obtain ⟨_, _, _, rfl, ofOrder, ofMaker, ofTaker⟩ :=
      forall₂_three.mp ofTopics
    obtain ⟨_, orderRead, _⟩ := abiWord_of_same ofOrder
    obtain ⟨digits, chunks, read, chunked, writes⟩ :=
      fixedAbiData_of_same
        [⟨side, lt_trans side.isLt (by decide)⟩, token, makerAmount,
          takerAmount, fee, builder, metadata] 7 rfl ofData
    rcases writes with _ | ⟨sideWrites, _ | ⟨tokenWrites, _ | ⟨makerWrites, _
      | ⟨takerWrites, _ | ⟨feeWrites, _ | ⟨builderWrites, _ | ⟨metadataWrites,
      _ | _⟩⟩⟩⟩⟩⟩⟩
    rw [ne_eq, ← isZeroWord_iff tokenWrites] at isToken
    simp only [orderRead, read, bind, Except.bind, if_neg isToken,
      (abiWordAt_eq_ok chunked).mpr (List.getElem?_cons_zero),
      (abiWordAt_eq_ok chunked).mpr
        ((List.getElem?_cons_succ).trans List.getElem?_cons_zero)]
    rcases sides with ⟨isBuy, rfl⟩ | ⟨isSell, rfl⟩
    · rw [hexU128_eq_ok.mpr ⟨sideWrites.value.trans isBuy, by decide⟩]
      exact orderFilledEvent_of_same chunked rfl rfl rfl zeroAssetId_writes
        tokenWrites makerWrites takerWrites feeWrites ofMaker ofTaker kept
    · rw [hexU128_eq_ok.mpr ⟨sideWrites.value.trans isSell, by decide⟩]
      exact orderFilledEvent_of_same chunked rfl rfl rfl tokenWrites
        zeroAssetId_writes makerWrites takerWrites feeWrites ofMaker ofTaker
        kept

theorem exists_of_drop_two {A : Type} {items later : List A} {item : A}
    (behind : items.drop 2 = item :: later) :
    ∃ x y, items = x :: y :: item :: later := by
  rcases items with _ | ⟨x, _ | ⟨y, rest⟩⟩
  · cases behind
  · cases behind
  · exact ⟨x, y, congrArg (fun rest => x :: y :: rest) behind⟩

theorem exists_of_drop_three {A : Type} {items later : List A} {item : A}
    (behind : items.drop 3 = item :: later) :
    ∃ x y z, items = x :: y :: z :: item :: later := by
  rcases items with _ | ⟨x, _ | ⟨y, _ | ⟨z, rest⟩⟩⟩
  · cases behind
  · cases behind
  · cases behind
  · exact ⟨x, y, z, congrArg (fun rest => x :: y :: z :: rest) behind⟩

/-- A split and a merge differ in their signature only. -/
theorem positionsMerge_writtenIn
    {stakeholder collateral : AbiAddress} {parent condition amount : AbiWord}
    {partition : List AbiWord} {topics : List String} {data : String} :
    (AbiEvent.positionsMerge stakeholder collateral parent condition partition
        amount).WrittenIn topics data ↔
      (AbiEvent.positionSplit stakeholder collateral parent condition partition
        amount).WrittenIn topics data :=
  ⟨fun written => ⟨written.topics, written.data⟩,
    fun written => ⟨written.topics, written.data⟩⟩

theorem positionSplit_dataText
    (stakeholder collateral : AbiAddress) (parent condition amount : AbiWord)
    (partition : List AbiWord) :
    (AbiEvent.positionSplit stakeholder collateral parent condition partition
        amount).dataText =
      wordsText (collateral :: 96 :: amount :: partition.length ::
        partition.map Fin.val) := by
  simp [AbiEvent.dataText, AbiEvent.arguments, AbiArgument.encode,
    AbiArgument.heads, AbiArgument.tail]

variable {chunks : List (List Char)}

/-- The layout of a position change: three words and the partition, with
nothing behind. -/
theorem positionData_layout {data partitionWords : List Char}
    {words : List Nat} (chunked : Chunked data chunks)
    (writes : List.Forall₂ WritesWord chunks words)
    (short : data.length < 2 ^ 63)
    (read : dynamicAbiWords data 1 96 = .ok partitionWords)
    (length : data.length = 128 * 2 + partitionWords.length) :
    ∃ collateralWord offsetWord amountWord later collateral amount,
      ∃ partition : List AbiWord,
      chunks = collateralWord :: offsetWord :: amountWord :: later ∧
      WritesWord collateralWord collateral ∧ WritesWord amountWord amount ∧
      words = collateral :: 96 :: amount :: partition.length ::
        partition.map Fin.val := by
  obtain ⟨⟨offset, atOffset, isOffset⟩, items, later,
    ⟨count, behind, isCount⟩, rfl⟩ :=
    (dynamicAbiWords_eq_ok chunked short).mp read
  have uniform : ∀ item ∈ items, item.length = 64 := by
    intro item mem
    refine chunked.length item (List.mem_of_mem_drop (i := 3) ?_)
    rw [behind]
    exact List.mem_cons_of_mem count (List.mem_append_left later mem)
  rw [length_flatten_of_forall uniform, chunked.data_length] at length
  obtain ⟨collateralWord, offsetWord, amountWord, rfl⟩ :=
    exists_of_drop_three behind
  simp only [List.length_cons, List.length_append] at length
  have nothing : later = [] := List.eq_nil_of_length_eq_zero (by omega)
  subst nothing
  rw [List.append_nil] at writes
  cases writes with | cons collateralWrites writes
  cases writes with | cons offsetWrites writes
  cases writes with | cons amountWrites writes
  cases writes with | cons countWrites writes
  cases atOffset
  rw [offsetWrites.value] at isOffset
  rw [countWrites.value, writes.length_eq] at isCount
  obtain ⟨partition, rfl⟩ := exists_abiWords writes
  rw [List.length_map] at isCount
  refine ⟨_, _, _, _, _, _, partition, rfl, collateralWrites, amountWrites, ?_⟩
  rw [isOffset, isCount]

theorem decodeCtfPositionChange_eq_ok (topics : raw.topics = first :: rest)
    (short : raw.data.toList.length < 2 ^ 63)
    {change : Address × String × Decimal} :
    decodeCtfPositionChange raw registry.collateral = .ok change ↔
      ∃ stakeholder collateral parent condition partition amount,
        (AbiEvent.positionSplit stakeholder collateral parent condition
          partition amount).WrittenIn rest raw.data ∧
        addressOf collateral = registry.collateral ∧
        AbiEvent.KeptAmount amount ∧
        change = (addressOf stakeholder, wordsText [condition],
          (amount.val : Decimal)) := by
  unfold decodeCtfPositionChange
  rw [topics]
  constructor
  · intro decoded
    split at decoded
    · rename_i stakeholderTopic parentTopic conditionTopic same
      cases same
      simp only [bind_eq_ok] at decoded
      obtain ⟨_, ofStakeholder, _, ofParent, _, ofCondition, data, ofData, _,
        ofCollateral, _, collateralRead, decoded⟩ := decoded
      obtain ⟨stakeholder, sameStakeholder, rfl⟩ :=
        topicAddress_reads ofStakeholder
      obtain ⟨parent, sameParent, _⟩ := abiWord_reads ofParent
      obtain ⟨condition, sameCondition, conditionWrites⟩ :=
        abiWord_reads ofCondition
      obtain ⟨chunks, words, chunked, writes, sameData⟩ := abiData_reads ofData
      split at decoded
      · cases decoded
      rename_i registered
      rw [not_not] at registered
      simp only [bind_eq_ok] at decoded
      obtain ⟨_, ofPartition, decoded⟩ := decoded
      split at decoded
      · cases decoded
      rename_i length
      rw [not_not] at length
      simp only [bind_eq_ok] at decoded
      obtain ⟨_, ofAmount, _, amountRead, kept⟩ := decoded
      obtain ⟨collateralWord, offsetWord, amountWord, later, collateral, amount,
        partition, rfl, collateralWrites, amountWrites, rfl⟩ :=
        positionData_layout chunked writes
          (lt_of_le_of_lt (abiData_length ofData) short) ofPartition length
      cases (abiWordAt_eq_ok chunked).mp ofCollateral
      cases (abiWordAt_eq_ok chunked).mp ofAmount
      obtain ⟨small, rfl⟩ := hexDecimal_reads amountWrites amountRead
      obtain ⟨fits, rfl⟩ :=
        (hexAddress_eq_ok collateralWrites).mp collateralRead
      refine ⟨stakeholder, ⟨collateral, fits⟩, parent, condition, partition,
        abiWordOf amountWrites,
        ⟨.cons sameStakeholder (.cons sameParent (.cons sameCondition .nil)),
          ?_⟩, registered, small, ?_⟩
      · rw [positionSplit_dataText]
        exact sameData
      · rw [← Except.ok.inj kept, normalizedAssetId_eq conditionWrites]
        rfl
    · cases decoded
  · rintro ⟨stakeholder, collateral, parent, condition, partition, amount,
      ⟨ofTopics, ofData⟩, registered, small, rfl⟩
    obtain ⟨_, _, _, rfl, ofStakeholder, ofParent, ofCondition⟩ :=
      forall₂_three.mp ofTopics
    obtain ⟨_, parentRead, _⟩ := abiWord_of_same ofParent
    obtain ⟨_, conditionRead, conditionWrites⟩ := abiWord_of_same ofCondition
    rw [positionSplit_dataText] at ofData
    have fits : ∀ word ∈ collateral.val :: 96 :: amount.val ::
        partition.length :: partition.map Fin.val, word < wordBound := by
      have count := length_of_same ofData
      simp only [List.length_cons, List.length_map] at count
      have large : 2 ^ 63 < wordBound := by decide
      rw [List.forall_mem_cons, List.forall_mem_cons, List.forall_mem_cons,
        List.forall_mem_cons]
      exact ⟨collateral.isLt.trans addressBound_lt, by decide, amount.isLt,
        by omega, fits_of_val partition⟩
    obtain ⟨digits, chunks, read, chunked, writes⟩ :=
      abiData_of_same fits ofData
    cases writes with | cons collateralWrites writes
    cases writes with | cons offsetWrites writes
    cases writes with | cons amountWrites writes
    cases writes with | cons countWrites writes
    rename_i countWord items
    have partitionRead : dynamicAbiWords digits 1 96 = .ok items.flatten := by
      rw [dynamicAbiWords_eq_ok chunked
        (lt_of_le_of_lt (abiData_length read) short)]
      refine ⟨⟨_, rfl, offsetWrites.value⟩, items, [], ⟨countWord, ?_, ?_⟩, rfl⟩
      · rw [List.append_nil]
        rfl
      · rw [countWrites.value, writes.length_eq, List.length_map]
    have collateralRead := (hexAddress_eq_ok collateralWrites).mpr
      ⟨collateral.isLt, rfl⟩
    have length : ¬ digits.length ≠ 128 * 2 + items.flatten.length := by
      rw [chunked.flatten]
      simp only [List.flatten_cons, List.length_append, collateralWrites.length,
        offsetWrites.length, amountWrites.length, countWrites.length]
      omega
    simp only [topicAddress_of_same ofStakeholder, parentRead, conditionRead,
      read, (abiWordAt_eq_ok chunked).mpr (List.getElem?_cons_zero),
      collateralRead, if_neg (not_not.mpr registered), partitionRead,
      if_neg length, bind, Except.bind]
    rw [(abiWordAt_eq_ok chunked).mpr rfl]
    simp only [hexDecimal_of_kept amountWrites small,
      normalizedAssetId_eq conditionWrites]
    rfl

theorem transferBatch_dataText
    (operator sender recipient : AbiAddress) (ids values : List AbiWord) :
    (AbiEvent.transferBatch operator sender recipient ids values).dataText =
      wordsText (64 :: (96 + 32 * ids.length) :: ids.length ::
        (ids.map Fin.val ++ values.length :: values.map Fin.val)) := by
  have offset : 64 + 32 * (ids.length + 1) = 96 + 32 * ids.length := by omega
  simp [AbiEvent.dataText, AbiEvent.arguments, AbiArgument.encode,
    AbiArgument.heads, AbiArgument.tail, offset]

/-- The layout of a batch: two offsets, the tokens and as many amounts, with
nothing behind. -/
theorem batchData_layout {data ofIds ofValues : List Char}
    {words : List Nat} (chunked : Chunked data chunks)
    (writes : List.Forall₂ WritesWord chunks words)
    (short : data.length < 2 ^ 63)
    (idsRead : dynamicAbiWords data 0 64 = .ok ofIds)
    (valuesRead : dynamicAbiWords data 1 (96 + ofIds.length / 2) = .ok ofValues)
    (even : ofIds.length = ofValues.length)
    (length : data.length =
      (96 + ofIds.length / 2 + 32) * 2 + ofValues.length) :
    ∃ idChunks valueChunks, ∃ ids values : List AbiWord,
      Chunked ofIds idChunks ∧ Chunked ofValues valueChunks ∧
      List.Forall₂ WritesWord idChunks (ids.map Fin.val) ∧
      List.Forall₂ WritesWord valueChunks (values.map Fin.val) ∧
      ids.length = values.length ∧
      words = 64 :: (96 + 32 * ids.length) :: ids.length ::
        (ids.map Fin.val ++ values.length :: values.map Fin.val) := by
  obtain ⟨⟨idsOffset, atIdsOffset, isIdsOffset⟩, idChunks, rest,
    ⟨idsCount, behindIds, isIdsCount⟩, rfl⟩ :=
    (dynamicAbiWords_eq_ok chunked short).mp idsRead
  obtain ⟨⟨valuesOffset, atValuesOffset, isValuesOffset⟩, valueChunks, later,
    ⟨valuesCount, behindValues, isValuesCount⟩, rfl⟩ :=
    (dynamicAbiWords_eq_ok chunked short).mp valuesRead
  obtain ⟨firstOffset, secondOffset, rfl⟩ := exists_of_drop_two behindIds
  cases atIdsOffset
  cases atValuesOffset
  have idsInside : idChunks ⊆
      idsOffset :: valuesOffset :: idsCount :: (idChunks ++ rest) := by
    intro chunk mem
    simp [mem]
  have idsChunked := chunked.sublist idsInside
  have idsLength := idsChunked.data_length
  have place : (96 + idChunks.flatten.length / 2) / 32 =
      (idsOffset :: valuesOffset :: idsCount :: idChunks).length := by
    simp only [List.length_cons]
    omega
  have split : idsOffset :: valuesOffset :: idsCount :: (idChunks ++ rest) =
      (idsOffset :: valuesOffset :: idsCount :: idChunks) ++ rest := rfl
  rw [place, split, List.drop_left] at behindValues
  subst behindValues
  have valuesInside : valueChunks ⊆ idsOffset :: valuesOffset :: idsCount ::
      (idChunks ++ valuesCount :: (valueChunks ++ later)) := by
    intro chunk mem
    simp [mem]
  have valuesChunked := chunked.sublist valuesInside
  have valuesLength := valuesChunked.data_length
  rw [chunked.data_length] at length
  simp only [List.length_cons, List.length_append] at length
  have nothing : later = [] := List.eq_nil_of_length_eq_zero (by omega)
  subst nothing
  obtain ⟨ids, ofIds⟩ :=
    exists_abiWords ((forall₂_writes idsChunked).mpr rfl)
  obtain ⟨values, ofValues⟩ :=
    exists_abiWords ((forall₂_writes valuesChunked).mpr rfl)
  have idsCounted : idChunks.length = ids.length := by
    rw [← List.length_map Fin.val, ofIds, List.length_map]
  have valuesCounted : valueChunks.length = values.length := by
    rw [← List.length_map Fin.val, ofValues, List.length_map]
  refine ⟨idChunks, valueChunks, ids, values, idsChunked, valuesChunked,
    (forall₂_writes idsChunked).mpr ofIds.symm,
    (forall₂_writes valuesChunked).mpr ofValues.symm, by omega, ?_⟩
  have offset : 96 + idChunks.flatten.length / 2 = 96 + 32 * ids.length := by
    omega
  rw [← (forall₂_writes chunked).mp writes, List.append_nil]
  simp only [List.map_cons, List.map_append]
  rw [isIdsOffset, isValuesOffset, isIdsCount, isValuesCount, offset,
    idsCounted, valuesCounted, ofIds, ofValues]

theorem batchData_reads {data : List Char} {ids values : List AbiWord}
    (chunked : Chunked data chunks) (short : data.length < 2 ^ 63)
    (even : ids.length = values.length)
    (writes : List.Forall₂ WritesWord chunks
      (64 :: (96 + 32 * ids.length) :: ids.length ::
        (ids.map Fin.val ++ values.length :: values.map Fin.val))) :
    ∃ ofIds ofValues idChunks valueChunks,
      dynamicAbiWords data 0 64 = .ok ofIds ∧
      dynamicAbiWords data 1 (96 + ofIds.length / 2) = .ok ofValues ∧
      Chunked ofIds idChunks ∧ Chunked ofValues valueChunks ∧
      List.Forall₂ WritesWord idChunks (ids.map Fin.val) ∧
      List.Forall₂ WritesWord valueChunks (values.map Fin.val) ∧
      ofIds.length = ofValues.length ∧
      data.length = (96 + ofIds.length / 2 + 32) * 2 + ofValues.length := by
  have all := (forall₂_writes chunked).mp writes
  obtain ⟨idsOffset, _, rfl, isIdsOffset, all⟩ := List.map_eq_cons_iff.mp all
  obtain ⟨valuesOffset, _, rfl, isValuesOffset, all⟩ :=
    List.map_eq_cons_iff.mp all
  obtain ⟨idsCount, _, rfl, isIdsCount, all⟩ := List.map_eq_cons_iff.mp all
  obtain ⟨idChunks, _, rfl, ofIds, all⟩ := List.map_eq_append_iff.mp all
  obtain ⟨valuesCount, valueChunks, rfl, isValuesCount, ofValues⟩ :=
    List.map_eq_cons_iff.mp all
  have idsChunked : Chunked idChunks.flatten idChunks := by
    apply chunked.sublist
    intro chunk mem
    simp [mem]
  have valuesChunked : Chunked valueChunks.flatten valueChunks := by
    apply chunked.sublist
    intro chunk mem
    simp [mem]
  have idsCounted : idChunks.length = ids.length := by
    rw [← List.length_map hexValue, ofIds, List.length_map]
  have valuesCounted : valueChunks.length = values.length := by
    rw [← List.length_map hexValue, ofValues, List.length_map]
  have idsLength := idsChunked.data_length
  have valuesLength := valuesChunked.data_length
  have dataLength := chunked.data_length
  simp only [List.length_cons, List.length_append] at dataLength
  have offset : 96 + idChunks.flatten.length / 2 = 96 + 32 * ids.length := by
    omega
  refine ⟨idChunks.flatten, valueChunks.flatten, idChunks, valueChunks, ?_, ?_,
    idsChunked, valuesChunked, (forall₂_writes idsChunked).mpr ofIds,
    (forall₂_writes valuesChunked).mpr ofValues, by omega, by omega⟩
  · rw [dynamicAbiWords_eq_ok chunked short]
    exact ⟨⟨idsOffset, rfl, isIdsOffset⟩, idChunks, _,
      ⟨idsCount, rfl, isIdsCount.trans idsCounted.symm⟩, rfl⟩
  · rw [dynamicAbiWords_eq_ok chunked short, offset]
    refine ⟨⟨valuesOffset, rfl, isValuesOffset⟩, valueChunks, [],
      ⟨valuesCount, ?_, isValuesCount.trans valuesCounted.symm⟩, rfl⟩
    have place : (96 + 32 * ids.length) / 32 =
        (idsOffset :: valuesOffset :: idsCount :: idChunks).length := by
      simp only [List.length_cons]
      omega
    have split : idsOffset :: valuesOffset :: idsCount ::
        (idChunks ++ valuesCount :: valueChunks) =
          (idsOffset :: valuesOffset :: idsCount :: idChunks) ++
            valuesCount :: valueChunks := rfl
    rw [place, split, List.drop_left, List.append_nil]

theorem decodeErc1155TransferBatch_eq_ok (topics : raw.topics = first :: rest)
    (short : raw.data.toList.length < 2 ^ 63) :
    decodeErc1155TransferBatch raw = .ok event ↔
      ∃ operator sender recipient ids values,
        (AbiEvent.transferBatch operator sender recipient ids values).WrittenIn
          rest raw.data ∧
        (AbiEvent.transferBatch operator sender recipient ids values).Keeps
          registry event := by
  unfold decodeErc1155TransferBatch
  rw [topics]
  constructor
  · intro decoded
    split at decoded
    · rename_i operatorTopic senderTopic recipientTopic same
      cases same
      simp only [bind_eq_ok] at decoded
      obtain ⟨_, ofOperator, data, ofData, ofIds, idsRead, ofValues, valuesRead,
        decoded⟩ := decoded
      split at decoded
      · cases decoded
      rename_i layout
      rw [not_or, not_not, not_not] at layout
      simp only [bind_eq_ok] at decoded
      obtain ⟨transfers, ofTransfers, _, ofSender, _, ofRecipient, kept⟩ :=
        decoded
      obtain ⟨operator, sameOperator, rfl⟩ := topicAddress_reads ofOperator
      obtain ⟨sender, sameSender, rfl⟩ := topicAddress_reads ofSender
      obtain ⟨recipient, sameRecipient, rfl⟩ := topicAddress_reads ofRecipient
      obtain ⟨chunks, words, chunked, writes, sameData⟩ := abiData_reads ofData
      obtain ⟨idChunks, valueChunks, ids, values, idsChunked, valuesChunked,
        idWrites, valueWrites, even, rfl⟩ := batchData_layout chunked writes
          (lt_of_le_of_lt (abiData_length ofData) short) idsRead valuesRead
          layout.1 layout.2
      rw [abiChunks_flatten idsChunked, abiChunks_flatten valuesChunked,
        transfers_eq_ok idWrites valueWrites even] at ofTransfers
      obtain ⟨small, rfl⟩ := ofTransfers
      refine ⟨operator, sender, recipient, ids, values,
        ⟨.cons sameOperator (.cons sameSender (.cons sameRecipient .nil)), ?_⟩,
        even, small, (Except.ok.inj kept).symm⟩
      rw [transferBatch_dataText]
      exact sameData
    · cases decoded
  · rintro ⟨operator, sender, recipient, ids, values, ⟨ofTopics, ofData⟩, even,
      small, rfl⟩
    obtain ⟨_, _, _, rfl, ofOperator, ofSender, ofRecipient⟩ :=
      forall₂_three.mp ofTopics
    rw [transferBatch_dataText] at ofData
    have count := length_of_same ofData
    simp only [List.length_cons, List.length_append, List.length_map] at count
    have large : 2 ^ 70 < wordBound := by decide
    have fits : ∀ word ∈ 64 :: (96 + 32 * ids.length) :: ids.length ::
        (ids.map Fin.val ++ values.length :: values.map Fin.val),
        word < wordBound := by
      rw [List.forall_mem_cons, List.forall_mem_cons, List.forall_mem_cons,
        List.forall_mem_append, List.forall_mem_cons]
      exact ⟨by decide, by omega, by omega, fits_of_val ids, by omega,
        fits_of_val values⟩
    obtain ⟨digits, chunks, read, chunked, writes⟩ :=
      abiData_of_same fits ofData
    obtain ⟨ofIds, ofValues, idChunks, valueChunks, idsRead, valuesRead,
      idsChunked, valuesChunked, idWrites, valueWrites, same, length⟩ :=
      batchData_reads chunked (lt_of_le_of_lt (abiData_length read) short) even
        writes
    have layout : ¬ (ofIds.length ≠ ofValues.length ∨ digits.length ≠
        (96 + ofIds.length / 2 + 32) * 2 + ofValues.length) := by
      rw [not_or, not_not, not_not]
      exact ⟨same, length⟩
    have transfers := (transfers_eq_ok idWrites valueWrites even).mpr
      ⟨small, rfl⟩
    simp only [topicAddress_of_same ofOperator, topicAddress_of_same ofSender,
      topicAddress_of_same ofRecipient, read, idsRead, valuesRead,
      if_neg layout, abiChunks_flatten idsChunked,
      abiChunks_flatten valuesChunked, bind, Except.bind] at transfers ⊢
    rw [transfers]
    rfl

end Decoders

end Pmkit
