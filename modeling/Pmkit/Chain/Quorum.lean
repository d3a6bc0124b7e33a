import Pmkit.Chain.Raw
import Pmkit.Library.Majority

/-!
# What a quorum agrees on

Agreement is decided in two rounds: the finalized heads first, then the logs
of the valid responses for the agreed head.  Both rounds count the supporters
of a value, so at most one value is ever agreed, and the order of the
responses does not matter.
-/

namespace Pmkit

open Majority

structure LogContent where
  chainId : ChainId
  blockNumber : Nat
  blockHash : String
  transactionHash : String
  transactionIndex : Nat
  logIndex : Nat
  contractAddress : Address
  topics : List String
  data : String
  deriving DecidableEq

/-- What the responses of two providers may agree on. -/
structure BatchContent where
  finalized : BlockHead
  range : FinalizedBlockRange
  coverage : FinalizedBlockCoverage
  logs : List LogContent
  deriving DecidableEq

def RawRpcLog.content (log : RawRpcLog) : LogContent where
  chainId := log.identity.chainId
  blockNumber := log.identity.blockNumber
  blockHash := log.identity.blockHash
  transactionHash := log.identity.transactionHash
  transactionIndex := log.identity.transactionIndex
  logIndex := log.identity.logIndex
  contractAddress := log.contractAddress
  topics := log.topics
  data := log.data

namespace FinalizedRawLogBatch

def content (batch : FinalizedRawLogBatch) : BatchContent where
  finalized := batch.finalized
  range := batch.range
  coverage := batch.coverage
  logs := batch.logs.map RawRpcLog.content

/-- A valid response stands for its content, any other for nothing. -/
def vote (batch : FinalizedRawLogBatch) : Option BatchContent :=
  if batch.verify = .ok () then some batch.content else none

theorem vote_eq_some {batch : FinalizedRawLogBatch} {content : BatchContent} :
    batch.vote = some content ↔
      batch.verify = .ok () ∧ batch.content = content := by
  unfold vote
  split <;> simp_all

theorem sameLog_iff (left right : RawRpcLog) :
    sameLog left right = true ↔ left.content = right.content := by
  simp [sameLog, RawRpcLog.content]

theorem zip_sameLog_iff (left right : List RawRpcLog) :
    (left.length = right.length ∧
        (left.zip right).all (fun pair => sameLog pair.1 pair.2) = true) ↔
      left.map RawRpcLog.content = right.map RawRpcLog.content := by
  induction left generalizing right with
  | nil =>
      cases right <;> simp
  | cons log left ih =>
      cases right with
      | nil =>
          simp
      | cons other right =>
          rw [List.map_cons, List.map_cons, List.cons.injEq,
            ← ih right, ← sameLog_iff]
          simp only [List.length_cons, List.zip_cons_cons, List.all_cons,
            Bool.and_eq_true, Nat.add_right_cancel_iff]
          tauto

theorem agrees_iff (left right : FinalizedRawLogBatch) :
    left.agrees right = true ↔
      left.range = right.range ∧ left.coverage = right.coverage ∧
        left.logs.map RawRpcLog.content =
          right.logs.map RawRpcLog.content := by
  rw [← zip_sameLog_iff]
  simp [agrees]

theorem agreementCount_eq
    {agreedHead : BlockHead} {candidate : FinalizedRawLogBatch}
    (valid : candidate.isValidFor agreedHead = true)
    (batches : List FinalizedRawLogBatch) :
    candidate.agreementCount agreedHead batches =
      (supporters vote batches candidate.content).length := by
  have head : candidate.finalized = agreedHead := by
    simp only [isValidFor, decide_eq_true_eq] at valid
    exact valid.2
  unfold agreementCount supporters
  rw [if_pos valid]
  congr 1
  apply List.filter_congr
  intro batch _
  rw [Bool.eq_iff_iff, Bool.and_eq_true, agrees_iff, decide_eq_true_eq,
    vote_eq_some]
  simp only [isValidFor, decide_eq_true_eq, content, BatchContent.mk.injEq,
    head]
  grind

end FinalizedRawLogBatch

/-! ## The first round -/

theorem requiredFinalityQuorum_le_iff
    {configured : Nat} (several : 2 ≤ configured) (count : Nat) :
    requiredFinalityQuorum configured ≤ count ↔ configured < 2 * count := by
  unfold requiredFinalityQuorum
  simp only
  split <;> omega

theorem firstRepeat_eq_none_iff (seen providers : List ProviderIdentity) :
    firstRepeat seen providers = none ↔
      providers.Nodup ∧ ∀ provider ∈ providers, provider ∉ seen := by
  induction providers generalizing seen with
  | nil =>
      simp [firstRepeat]
  | cons provider rest ih =>
      unfold firstRepeat
      by_cases known : provider ∈ seen
      · simp [known]
      · rw [if_neg known, ih]
        simp only [List.nodup_cons, List.mem_cons, not_or, forall_eq_or_imp]
        constructor
        · rintro ⟨nodup, fresh⟩
          exact ⟨⟨fun mem => (fresh provider mem).1 rfl, nodup⟩, known,
            fun other mem => (fresh other mem).2⟩
        · rintro ⟨⟨absent, nodup⟩, _, fresh⟩
          exact ⟨nodup, fun other mem =>
            ⟨fun same => absent (same ▸ mem), fresh other mem⟩⟩

namespace FinalizedProviderHead

def vote (providerHead : FinalizedProviderHead) : Option BlockHead :=
  some providerHead.finalized

theorem headAgreementCount_eq (providerHeads : List FinalizedProviderHead)
    (candidate : FinalizedProviderHead) :
    headAgreementCount providerHeads candidate =
      (supporters vote providerHeads candidate.finalized).length := by
  simp [headAgreementCount, supporters, vote]

end FinalizedProviderHead

/-- The first round asks two providers that are all there are to agree on the
current head as well. -/
def PairAgrees (configured : Nat)
    (providerHeads : List FinalizedProviderHead) : Prop :=
  configured = 2 → providerHeads.length = 2 →
    ∀ left ∈ providerHeads, ∀ right ∈ providerHeads, left.head = right.head

theorem majorityHead_eq_ok_iff {configured : Nat} (several : 2 ≤ configured)
    {providerHeads : List FinalizedProviderHead}
    (bounded : providerHeads.length ≤ configured) (agreed : BlockHead) :
    majorityHead configured providerHeads = .ok agreed ↔
      HasMajority FinalizedProviderHead.vote configured providerHeads
        agreed := by
  have counted : ∀ candidate : FinalizedProviderHead,
      requiredFinalityQuorum configured ≤
          headAgreementCount providerHeads candidate ↔
        HasMajority FinalizedProviderHead.vote configured providerHeads
          candidate.finalized := by
    intro candidate
    rw [requiredFinalityQuorum_le_iff several,
      FinalizedProviderHead.headAgreementCount_eq]
    exact Iff.rfl
  unfold majorityHead
  simp only [counted]
  constructor
  · intro chosen
    split at chosen
    · rename_i found isFound
      cases chosen
      simpa using List.find?_some isFound
    · cases chosen
  · intro majority
    obtain ⟨supporter, mem, stands⟩ := majority.exists_mem
    cases stands
    split
    · rename_i found isFound
      have foundMajority : HasMajority FinalizedProviderHead.vote configured
          providerHeads found.finalized := by
        simpa using List.find?_some isFound
      rw [HasMajority.unique _ foundMajority majority bounded]
    · rename_i noneFound
      have against := List.find?_eq_none.mp noneFound supporter mem
      simp [majority] at against

theorem pairAgrees_two (left right : FinalizedProviderHead) :
    PairAgrees 2 [left, right] ↔ left.head = right.head := by
  unfold PairAgrees
  simp only [List.length_cons, List.length_nil, forall_const,
    List.mem_cons, List.not_mem_nil, or_false]
  constructor
  · intro same
    exact same left (Or.inl rfl) right (Or.inr rfl)
  · rintro same first (rfl | rfl) second (rfl | rfl) <;>
      first | rfl | exact same | exact same.symm

theorem majority_of_two
    (left right : FinalizedProviderHead) (agreed : BlockHead) :
    HasMajority FinalizedProviderHead.vote 2 [left, right] agreed ↔
      left.finalized = agreed ∧ right.finalized = agreed := by
  unfold HasMajority
  simp only [supporters_cons, FinalizedProviderHead.vote, Option.some.injEq]
  by_cases first : left.finalized = agreed <;>
    by_cases second : right.finalized = agreed <;>
    simp [first, second, supporters]

theorem agreedPair_eq_ok_iff
    (left right : FinalizedProviderHead) (agreed : BlockHead) :
    (if left.head ≠ right.head ∨ left.finalized ≠ right.finalized then
        Except.error
          (ChainSourceError.providerDisagreement left.provider right.provider)
      else
        Except.ok left.finalized) = .ok agreed ↔
      PairAgrees 2 [left, right] ∧
        HasMajority FinalizedProviderHead.vote 2 [left, right] agreed := by
  rw [pairAgrees_two, majority_of_two]
  by_cases heads : left.head = right.head
  · by_cases blocks : left.finalized = right.finalized
    · simp [heads, blocks]
    · rw [if_pos (Or.inr blocks)]
      simp only [reduceCtorEq, false_iff]
      rintro ⟨_, first, second⟩
      exact blocks (first.trans second.symm)
  · simp [heads]

theorem agreeOnFinalizedHeads_eq_ok_iff
    (configured : Nat) (providerHeads : List FinalizedProviderHead)
    (agreed : BlockHead) :
    agreeOnFinalizedHeads configured providerHeads = .ok agreed ↔
      2 ≤ configured ∧ providerHeads.length ≤ configured ∧
        (providerHeads.map FinalizedProviderHead.provider).Nodup ∧
        PairAgrees configured providerHeads ∧
        HasMajority FinalizedProviderHead.vote configured providerHeads
          agreed := by
  unfold agreeOnFinalizedHeads
  simp only
  by_cases sized : configured < 2 ∨ configured < providerHeads.length
  · rw [if_pos sized]
    simp only [reduceCtorEq, false_iff]
    rintro ⟨several, bounded, -⟩
    omega
  rw [if_neg sized]
  have several : 2 ≤ configured := by omega
  have bounded : providerHeads.length ≤ configured := by omega
  cases repeated :
      firstRepeat [] (providerHeads.map FinalizedProviderHead.provider) with
  | some observed =>
      simp only [reduceCtorEq, false_iff]
      rintro ⟨-, -, nodup, -⟩
      rw [(firstRepeat_eq_none_iff _ _).mpr ⟨nodup, by simp⟩] at repeated
      cases repeated
  | none =>
      have nodup := ((firstRepeat_eq_none_iff _ _).mp repeated).1
      simp only [several, bounded, nodup, true_and]
      split
      · rename_i left right
        exact agreedPair_eq_ok_iff left right agreed
      · rename_i general
        rw [majorityHead_eq_ok_iff several bounded]
        refine ⟨fun majority => ⟨?_, majority⟩, fun both => both.2⟩
        intro two pair
        exfalso
        match providerHeads, pair with
        | [left, right], _ => exact general left right two rfl

/-! ## The second round -/

namespace FinalizedRawLogBatch

variable {configured : Nat} {batches : List FinalizedRawLogBatch}
  {content : BatchContent}

/-- The valid responses of a content name its finalized block. -/
theorem majority_head (majority : HasMajority vote configured batches content) :
    HasMajority FinalizedProviderHead.vote configured
      (batches.map providerHead) content.finalized := by
  have coarse : HasMajority (fun batch => some batch.finalized) configured
      batches content.finalized := by
    apply majority.map
    intro batch _ stands
    rw [← (vote_eq_some.mp stands).2]
    rfl
  unfold HasMajority supporters at coarse ⊢
  rw [List.filter_map, List.length_map]
  exact coarse

theorem required_le_agreementCount_iff
    (several : 2 ≤ configured) (agreedHead : BlockHead)
    (batches : List FinalizedRawLogBatch) (candidate : FinalizedRawLogBatch) :
    requiredFinalityQuorum configured ≤
        candidate.agreementCount agreedHead batches ↔
      candidate.isValidFor agreedHead = true ∧
        HasMajority vote configured batches candidate.content := by
  rw [requiredFinalityQuorum_le_iff several]
  by_cases valid : candidate.isValidFor agreedHead = true
  · rw [agreementCount_eq valid]
    simp [valid, HasMajority]
  · simp [agreementCount, valid]

/-- The conditions under which a quorum takes a content. -/
structure Agreed (configured : Nat) (batches : List FinalizedRawLogBatch)
    (content : BatchContent) : Prop where
  several : 2 ≤ configured
  bounded : batches.length ≤ configured
  distinct : (batches.map FinalizedRawLogBatch.provider).Nodup
  pair : PairAgrees configured (batches.map providerHead)
  majority : HasMajority vote configured batches content

theorem Agreed.head (agreed : Agreed configured batches content) :
    agreeOnFinalizedHeads configured (batches.map providerHead) =
      .ok content.finalized := by
  rw [agreeOnFinalizedHeads_eq_ok_iff]
  refine ⟨agreed.several, by simpa using agreed.bounded, ?_, agreed.pair,
    majority_head agreed.majority⟩
  rw [List.map_map]
  exact agreed.distinct

theorem agreed_of_ok {chosen : FinalizedRawLogBatch}
    (taken : agreeOnFinalizedLogBatches configured batches = .ok chosen) :
    chosen ∈ batches ∧ chosen.verify = .ok () ∧
      Agreed configured batches chosen.content := by
  unfold agreeOnFinalizedLogBatches at taken
  split at taken
  · cases taken
  · rename_i agreedHead headAgreed
    obtain ⟨several, bounded, distinct, pair, _⟩ :=
      (agreeOnFinalizedHeads_eq_ok_iff _ _ _).mp headAgreed
    simp only at taken
    split at taken
    · rename_i found isFound
      cases taken
      have reached := List.find?_some isFound
      rw [decide_eq_true_eq, required_le_agreementCount_iff several] at reached
      have valid := reached.1
      simp only [isValidFor, decide_eq_true_eq] at valid
      refine ⟨List.mem_of_find?_eq_some isFound, valid.1, several,
        by simpa using bounded, ?_, pair, reached.2⟩
      rw [List.map_map] at distinct
      exact distinct
    · cases taken

theorem Agreed.ok (agreed : Agreed configured batches content) :
    ∃ chosen, agreeOnFinalizedLogBatches configured batches = .ok chosen ∧
      chosen.content = content := by
  have reaches : ∃ chosen,
      agreeOnFinalizedLogBatches configured batches = .ok chosen := by
    obtain ⟨supporter, mem, stands⟩ := agreed.majority.exists_mem
    obtain ⟨verified, same⟩ := vote_eq_some.mp stands
    unfold agreeOnFinalizedLogBatches
    rw [agreed.head]
    simp only
    split
    · exact ⟨_, rfl⟩
    · rename_i noneFound
      have against := List.find?_eq_none.mp noneFound supporter mem
      rw [decide_eq_true_eq,
        required_le_agreementCount_iff agreed.several] at against
      refine absurd ⟨?_, ?_⟩ against
      · simp [isValidFor, verified, ← same, FinalizedRawLogBatch.content]
      · rw [same]
        exact agreed.majority
  obtain ⟨chosen, taken⟩ := reaches
  obtain ⟨_, _, again⟩ := agreed_of_ok taken
  exact ⟨chosen, taken,
    HasMajority.unique _ again.majority agreed.majority agreed.bounded⟩

theorem Agreed.perm {permuted : List FinalizedRawLogBatch}
    (agreed : Agreed configured batches content)
    (same : permuted.Perm batches) : Agreed configured permuted content where
  several := agreed.several
  bounded := same.length_eq ▸ agreed.bounded
  distinct := ((same.map _).nodup_iff).mpr agreed.distinct
  pair := by
    intro two length left leftMem right rightMem
    have heads := same.map providerHead
    exact agreed.pair two (heads.length_eq ▸ length) left
      (heads.subset leftMem) right (heads.subset rightMem)
  majority := (hasMajority_perm vote same).mpr agreed.majority

end FinalizedRawLogBatch

section Agreement

open FinalizedRawLogBatch

/-- A batch is taken only for the content of a strict majority of distinct
providers, whichever supporter comes first. -/
theorem agreeOnFinalizedLogBatches_unique
    (configured : Nat) (batches : List FinalizedRawLogBatch) :
    (∀ chosen, agreeOnFinalizedLogBatches configured batches = .ok chosen →
      chosen ∈ batches ∧ chosen.verify = .ok () ∧
        HasMajority vote configured batches chosen.content ∧
        ((supporters vote batches chosen.content).map
          FinalizedRawLogBatch.provider).Nodup ∧
        (∀ content, HasMajority vote configured batches content →
          content = chosen.content) ∧
        (∀ agreedHead, ∀ other ∈ batches,
          requiredFinalityQuorum configured ≤
              other.agreementCount agreedHead batches →
            other.content = chosen.content) ∧
        ∀ permuted, permuted.Perm batches →
          ∃ again, agreeOnFinalizedLogBatches configured permuted =
              .ok again ∧
            again.content = chosen.content) ∧
      ((∀ content, ¬ HasMajority vote configured batches content) →
        ∃ error, agreeOnFinalizedLogBatches configured batches =
          .error error) := by
  constructor
  · intro chosen taken
    obtain ⟨member, verified, agreed⟩ := agreed_of_ok taken
    have unique : ∀ content, HasMajority vote configured batches content →
        content = chosen.content := fun content majority =>
      majority.unique _ agreed.majority agreed.bounded
    refine ⟨member, verified, agreed.majority, ?_, unique, ?_, ?_⟩
    · exact agreed.distinct.sublist (List.filter_sublist.map _)
    · intro agreedHead other _ reached
      rw [required_le_agreementCount_iff agreed.several] at reached
      exact unique _ reached.2
    · intro permuted same
      exact (agreed.perm same).ok
  · intro none
    cases result : agreeOnFinalizedLogBatches configured batches with
    | error error =>
        exact ⟨error, rfl⟩
    | ok chosen =>
        exact absurd (agreed_of_ok result).2.2.majority (none chosen.content)

def oneLogBatch (provider : String) (hash : String) :
    FinalizedRawLogBatch where
  provider := ⟨provider⟩
  range := ⟨.polygon, 7, 7⟩
  head := ⟨.polygon, 8, "0xhead", hash⟩
  finalized := ⟨.polygon, 7, hash, "0xbefore"⟩
  coverage := ⟨⟨.polygon, 7, 7⟩, [⟨.polygon, 7, hash, "0xbefore"⟩]⟩
  logs := [⟨⟨⟨provider⟩, .polygon, 7, hash, "0xtx", 0, 0⟩, ⟨"0xtoken"⟩,
    ["0xtopic"], "0x"⟩]

/-- Two of three providers agree; the third is on another block. -/
def splitAnswers : List FinalizedRawLogBatch :=
  [oneLogBatch "lagging" "0xold", oneLogBatch "first" "0xnew",
    oneLogBatch "second" "0xnew"]

theorem agreeOnFinalizedLogBatches_unique_splitAnswers :
    agreeOnFinalizedLogBatches 3 splitAnswers =
        .ok (oneLogBatch "first" "0xnew") ∧
      HasMajority vote 3 splitAnswers (oneLogBatch "first" "0xnew").content ∧
      ∃ again, agreeOnFinalizedLogBatches 3 splitAnswers.reverse = .ok again ∧
        again.content = (oneLogBatch "first" "0xnew").content := by
  have taken : agreeOnFinalizedLogBatches 3 splitAnswers =
      .ok (oneLogBatch "first" "0xnew") := by
    decide +kernel
  obtain ⟨_, _, majority, _, _, _, permuted⟩ :=
    (agreeOnFinalizedLogBatches_unique 3 splitAnswers).1 _ taken
  exact ⟨taken, majority, permuted _ splitAnswers.reverse_perm⟩

end Agreement

end Pmkit
