import Mathlib.Data.List.Sort
import Mathlib.Data.String.Basic
import Pmkit.Domain
import Pmkit.Library.Chunks
import Pmkit.Library.Fallible
import Pmkit.Library.Json

/-!
# Discovery snapshots

The markets that Gamma returned become one snapshot: the active ones in the
order of their identities, and the tokens of their outcomes in shards.  An
identity that comes twice fails the snapshot as a whole.
-/

namespace Pmkit

open MachineInt

structure RecurringFamily where
  seriesId : String
  asset : Option String
  duration : Option String
  deriving DecidableEq

structure GammaOutcome where
  outcomeId : String
  tokenId : String
  deriving DecidableEq

structure GammaMarket where
  marketId : String
  conditionId : String
  openTimeMs : I64
  closeTimeMs : I64
  active : Bool
  family : Option RecurringFamily
  outcomes : List GammaOutcome
  deriving DecidableEq

structure PublicSubscription where
  assetIds : List String
  customFeatureEnabled : Bool
  deriving DecidableEq

/-- `PublicSubscription::new`. -/
def PublicSubscription.new (assetIds : List String) : PublicSubscription where
  assetIds
  customFeatureEnabled := true

/-- A part of the tokens, subscribed on one socket. -/
structure SubscriptionShard where
  index : Nat
  subscription : PublicSubscription
  deriving DecidableEq

structure ReplicaSubscriptionPlan where
  shards : List SubscriptionShard
  deriving DecidableEq

/-- A complete snapshot with the plans of its two lanes. -/
structure DiscoverySnapshot where
  markets : List GammaMarket
  digest : String
  laneA : ReplicaSubscriptionPlan
  laneB : ReplicaSubscriptionPlan
  deriving DecidableEq

/-- `DiscoveryError`. -/
inductive DiscoveryError where
  | unavailable
  | incompletePagination (offset : Nat)
  | repeatedPage (offset : Nat)
  | offsetOverflow (offset : Nat)
  | duplicateMarketId (marketId : String)
  | duplicateOutcomeId (marketId : String)
  | missingFamilyMetadata (marketId : String)
  | malformedPage (reason : String)
  deriving DecidableEq

/-- The text of a `DiscoveryError`. -/
def DiscoveryError.message : DiscoveryError → String
  | .unavailable => "Gamma discovery is unavailable"
  | .incompletePagination offset =>
      s!"Gamma discovery became incomplete at offset {offset}"
  | .repeatedPage offset => s!"Gamma repeated a full page at offset {offset}"
  | .offsetOverflow offset => s!"Gamma offset overflow at {offset}"
  | .duplicateMarketId marketId =>
      s!"Gamma returned duplicate market id {marketId}"
  | .duplicateOutcomeId marketId =>
      s!"Gamma returned duplicate outcome identity in market {marketId}"
  | .missingFamilyMetadata marketId =>
      s!"Gamma market {marketId} lacks recurring-family metadata"
  | .malformedPage reason => s!"Gamma page is malformed: {reason}"

/-- The encoding and the hash that `page_digest` composes. -/
structure DigestText where
  sha256Hex : List UInt8 → String
  toVec : JsonValue → List UInt8

def RecurringFamily.json (family : RecurringFamily) : JsonValue :=
  .object [("series_id", .string family.seriesId),
    ("asset", family.asset.elim .null .string),
    ("duration", family.duration.elim .null .string)]

def GammaOutcome.json (outcome : GammaOutcome) : JsonValue :=
  .object [("outcome_id", .string outcome.outcomeId),
    ("token_id", .string outcome.tokenId)]

def GammaMarket.json (market : GammaMarket) : JsonValue :=
  .object [("market_id", .string market.marketId),
    ("condition_id", .string market.conditionId),
    ("open_time_ms", .number market.openTimeMs.1),
    ("close_time_ms", .number market.closeTimeMs.1),
    ("active", .bool market.active),
    ("family", market.family.elim .null RecurringFamily.json),
    ("outcomes", .array (market.outcomes.map GammaOutcome.json))]

/-- What `page_digest` hashes. -/
def pageBytes (text : DigestText) (markets : List GammaMarket) : List UInt8 :=
  text.toVec (.array (markets.map GammaMarket.json))

/-- `page_digest`.  Nothing in a market fails to be serialized. -/
def pageDigest (text : DigestText) (markets : List GammaMarket) : String :=
  text.sha256Hex (pageBytes text markets)

/-- One round over the outcomes of a market: the outcome identities and the
tokens taken so far. -/
def takeOutcome (marketId : String) (taken : List String × List String)
    (outcome : GammaOutcome) :
    Except DiscoveryError (List String × List String) :=
  if isBlank outcome.outcomeId || isBlank outcome.tokenId ||
      taken.1.contains outcome.outcomeId then
    .error (.duplicateOutcomeId marketId)
  else
    .ok (taken.1 ++ [outcome.outcomeId], taken.2 ++ [outcome.tokenId])

/-- One round over the markets: the market identities and the tokens taken so
far. -/
def takeMarket (taken : List String × List String) (market : GammaMarket) :
    Except DiscoveryError (List String × List String) :=
  if taken.1.contains market.marketId then
    .error (.duplicateMarketId market.marketId)
  else
    match market.family with
    | none => .error (.missingFamilyMetadata market.marketId)
    | some family =>
        if isBlank family.seriesId then
          .error (.missingFamilyMetadata market.marketId)
        else
          (market.outcomes.foldlM (takeOutcome market.marketId)
            ([], taken.2)).map fun outcomes =>
              (taken.1 ++ [market.marketId], outcomes.2)

def shardsOf (shardSize : Nat) (assetIds : List String) :
    List SubscriptionShard :=
  (Chunks.chunks shardSize assetIds).zipIdx.map fun (assets, index) =>
    { index, subscription := .new assets }

def activeMarkets (markets : List GammaMarket) : List GammaMarket :=
  (markets.filter GammaMarket.active).insertionSort
    fun left right => left.marketId ≤ right.marketId

/-- `normalize_snapshot`. -/
def normalizeSnapshot (text : DigestText) (markets : List GammaMarket)
    (shardSize : Nat) : Except DiscoveryError DiscoverySnapshot := do
  let markets := activeMarkets markets
  let taken ← markets.foldlM takeMarket ([], [])
  let assetIds := taken.2.insertionSort (· ≤ ·)
  if Chunks.hasTwin assetIds then
    .error (.malformedPage "token identity appears in multiple outcomes")
  else
    .ok {
      digest := pageDigest text markets
      markets
      laneA := ⟨shardsOf shardSize assetIds⟩
      laneB := ⟨shardsOf shardSize assetIds⟩ }

/-! ## What a snapshot holds -/

structure OutcomesUsable (outcomes : List GammaOutcome) : Prop where
  named : ∀ outcome ∈ outcomes,
    isBlank outcome.outcomeId = false ∧ isBlank outcome.tokenId = false
  distinct : (outcomes.map GammaOutcome.outcomeId).Nodup

/-- A market has a family, and its outcomes can be subscribed. -/
structure GammaMarket.Usable (market : GammaMarket) : Prop where
  family : ∃ family, market.family = some family ∧
    isBlank family.seriesId = false
  outcomes : OutcomesUsable market.outcomes

def tokenIds (markets : List GammaMarket) : List String :=
  markets.flatMap fun market => market.outcomes.map GammaOutcome.tokenId

theorem takeOutcomes_eq_ok {marketId : String} {outcomes : List GammaOutcome}
    {taken result : List String × List String} :
    outcomes.foldlM (takeOutcome marketId) taken = .ok result ↔
      ((∀ outcome ∈ outcomes, isBlank outcome.outcomeId = false ∧
          isBlank outcome.tokenId = false) ∧
        (outcomes.map GammaOutcome.outcomeId).Nodup ∧
        ∀ outcome ∈ outcomes, outcome.outcomeId ∉ taken.1) ∧
      result = (taken.1 ++ outcomes.map GammaOutcome.outcomeId,
        taken.2 ++ outcomes.map GammaOutcome.tokenId) := by
  induction outcomes generalizing taken with
  | nil =>
      simp only [List.foldlM_nil, pure, Except.pure, Except.ok.injEq,
        List.not_mem_nil, false_imp_iff, implies_true, List.map_nil,
        List.nodup_nil, true_and, List.append_nil]
      exact eq_comm
  | cons outcome rest ih =>
      rw [List.foldlM_cons]
      unfold takeOutcome
      split
      · rename_i refused
        simp only [Bool.or_eq_true, List.contains_iff_mem] at refused
        constructor
        · intro no
          cases no
        · rintro ⟨⟨named, _, fresh⟩, _⟩
          have names := named outcome List.mem_cons_self
          have missing := fresh outcome List.mem_cons_self
          simp [names.1, names.2, missing] at refused
      · rename_i accepted
        simp only [Bool.or_eq_true, List.contains_iff_mem, not_or,
          Bool.not_eq_true] at accepted
        obtain ⟨⟨outcomeNamed, tokenNamed⟩, fresh⟩ := accepted
        refine (ih).trans ?_
        simp only [List.mem_append, List.mem_singleton, not_or, List.map_cons,
          List.nodup_cons, List.mem_map, List.forall_mem_cons,
          List.append_assoc, List.singleton_append]
        constructor
        · rintro ⟨⟨named, distinct, others⟩, same⟩
          refine ⟨⟨⟨⟨outcomeNamed, tokenNamed⟩, named⟩, ⟨?_, distinct⟩,
            fresh, fun other mem => (others other mem).1⟩, same⟩
          rintro ⟨other, mem, sameId⟩
          exact (others other mem).2 sameId
        · rintro ⟨⟨⟨_, named⟩, ⟨alone, distinct⟩, _, others⟩, same⟩
          refine ⟨⟨named, distinct, fun other mem =>
            ⟨others other mem, ?_⟩⟩, same⟩
          intro sameId
          exact alone ⟨other, mem, sameId⟩

theorem takeMarket_eq_ok
    {market : GammaMarket} {taken result : List String × List String} :
    takeMarket taken market = .ok result ↔
      (market.Usable ∧ market.marketId ∉ taken.1) ∧
      result = (taken.1 ++ [market.marketId],
        taken.2 ++ market.outcomes.map GammaOutcome.tokenId) := by
  unfold takeMarket
  constructor
  · intro accepted
    split at accepted
    · cases accepted
    · rename_i fresh
      split at accepted
      · cases accepted
      · rename_i family isFamily
        split at accepted
        · cases accepted
        · rename_i named
          obtain ⟨outcomes, usable, rfl⟩ :=
            Fallible.map_eq_ok.mp accepted
          obtain ⟨⟨names, distinct, _⟩, rfl⟩ := takeOutcomes_eq_ok.mp usable
          exact ⟨⟨⟨⟨family, isFamily, by simpa using named⟩, names, distinct⟩,
            by simpa using fresh⟩, rfl⟩
  · rintro ⟨⟨⟨⟨family, isFamily, named⟩, names, distinct⟩, fresh⟩, rfl⟩
    have usable : market.outcomes.foldlM (takeOutcome market.marketId)
        ([], taken.2) = .ok (market.outcomes.map GammaOutcome.outcomeId,
          taken.2 ++ market.outcomes.map GammaOutcome.tokenId) :=
      takeOutcomes_eq_ok.mpr
        ⟨⟨names, distinct, fun _ _ => List.not_mem_nil⟩, rfl⟩
    rw [if_neg (by simpa using fresh), isFamily]
    simp only
    rw [if_neg (by simp [named]), usable]
    rfl

theorem takeMarkets_eq_ok
    {markets : List GammaMarket} {taken result : List String × List String} :
    markets.foldlM takeMarket taken = .ok result ↔
      ((∀ market ∈ markets, market.Usable) ∧
        (markets.map GammaMarket.marketId).Nodup ∧
        ∀ market ∈ markets, market.marketId ∉ taken.1) ∧
      result = (taken.1 ++ markets.map GammaMarket.marketId,
        taken.2 ++ tokenIds markets) := by
  induction markets generalizing taken with
  | nil =>
      simp only [List.foldlM_nil, pure, Except.pure, Except.ok.injEq,
        List.not_mem_nil, false_imp_iff, implies_true, List.map_nil,
        List.nodup_nil, true_and, tokenIds, List.flatMap_nil, List.append_nil]
      exact eq_comm
  | cons market rest ih =>
      rw [List.foldlM_cons, Fallible.bind_eq_ok]
      simp only [takeMarket_eq_ok, ih, List.forall_mem_cons,
        List.map_cons, List.nodup_cons, List.mem_map]
      constructor
      · rintro ⟨next, ⟨⟨usable, fresh⟩, rfl⟩, ⟨others, distinct, apart⟩, rfl⟩
        simp only [List.mem_append, List.mem_singleton, not_or] at apart
        refine ⟨⟨⟨usable, others⟩, ⟨?_, distinct⟩, fresh,
          fun other mem => (apart other mem).1⟩, ?_⟩
        · rintro ⟨other, mem, sameId⟩
          exact (apart other mem).2 sameId
        · simp [tokenIds]
      · rintro ⟨⟨⟨usable, others⟩, ⟨alone, distinct⟩, fresh, apart⟩, rfl⟩
        refine ⟨_, ⟨⟨usable, fresh⟩, rfl⟩, ⟨others, distinct, ?_⟩, ?_⟩
        · intro other mem taken
          rcases List.mem_append.mp taken with before | now
          · exact apart other mem before
          · exact alone ⟨other, mem, List.mem_singleton.mp now⟩
        · simp [tokenIds]

/-- The active markets can be published together. -/
structure Normal (markets : List GammaMarket) : Prop where
  usable : ∀ market ∈ activeMarkets markets, market.Usable
  distinct : ((activeMarkets markets).map GammaMarket.marketId).Nodup
  tokens : (tokenIds (activeMarkets markets)).Nodup

/-- The tokens that a snapshot subscribes, in their order. -/
def assetIds (markets : List GammaMarket) : List String :=
  (tokenIds (activeMarkets markets)).insertionSort (· ≤ ·)

def snapshotOf (text : DigestText) (markets : List GammaMarket)
    (shardSize : Nat) : DiscoverySnapshot where
  markets := activeMarkets markets
  digest := pageDigest text (activeMarkets markets)
  laneA := ⟨shardsOf shardSize (assetIds markets)⟩
  laneB := ⟨shardsOf shardSize (assetIds markets)⟩

section Order

variable (markets : List GammaMarket)

theorem activeMarkets_perm :
    (activeMarkets markets).Perm (markets.filter GammaMarket.active) :=
  List.perm_insertionSort _ _

theorem activeMarkets_sorted :
    (activeMarkets markets).Pairwise
      fun left right => left.marketId ≤ right.marketId := by
  have total : Std.Total fun left right : GammaMarket =>
      left.marketId ≤ right.marketId :=
    ⟨fun left right => le_total left.marketId right.marketId⟩
  have transitive : IsTrans GammaMarket fun left right =>
      left.marketId ≤ right.marketId :=
    ⟨fun _ _ _ => le_trans⟩
  exact List.pairwise_insertionSort _ _

theorem assetIds_perm :
    (assetIds markets).Perm
      (tokenIds (markets.filter GammaMarket.active)) :=
  (List.perm_insertionSort _ _).trans
    ((activeMarkets_perm markets).flatMap_right _)

theorem assetIds_sorted : (assetIds markets).Pairwise (· ≤ ·) :=
  List.pairwise_insertionSort _ _

theorem assetIds_rising :
    (assetIds markets).Pairwise (· < ·) ↔
      (tokenIds (activeMarkets markets)).Nodup := by
  rw [← (List.perm_insertionSort (· ≤ ·) _).nodup_iff]
  constructor
  · intro rising
    exact rising.imp ne_of_lt
  · intro distinct
    exact (assetIds_sorted markets).imp₂ (fun _ _ => lt_of_le_of_ne) distinct

end Order

section Publishing

variable {text : DigestText} {markets others : List GammaMarket}
  {shardSize : Nat} {snapshot : DiscoverySnapshot}

theorem normalizeSnapshot_eq_ok :
    normalizeSnapshot text markets shardSize = .ok snapshot ↔
      Normal markets ∧ snapshot = snapshotOf text markets shardSize := by
  unfold normalizeSnapshot
  rw [Fallible.bind_eq_ok]
  simp only [takeMarkets_eq_ok, List.not_mem_nil, not_false_eq_true,
    implies_true, and_true, List.nil_append]
  constructor
  · rintro ⟨_, ⟨⟨usable, distinct⟩, rfl⟩, published⟩
    split at published
    · cases published
    · rename_i apart
      cases published
      refine ⟨⟨usable, distinct, ?_⟩, rfl⟩
      apply (assetIds_rising markets).mp
      apply (Chunks.pairwise_lt_iff (assetIds_sorted markets)).mpr
      exact Bool.eq_false_iff.mpr apart
  · rintro ⟨normal, rfl⟩
    refine ⟨_, ⟨⟨normal.usable, normal.distinct⟩, rfl⟩, ?_⟩
    have apart : Chunks.hasTwin (assetIds markets) = false :=
      (Chunks.pairwise_lt_iff (assetIds_sorted markets)).mp
        ((assetIds_rising markets).mpr normal.tokens)
    have single : Chunks.hasTwin
        ((tokenIds (activeMarkets markets)).insertionSort (· ≤ ·)) = false :=
      apart
    simp only [single]
    rfl

theorem Normal.rising (normal : Normal markets) :
    (activeMarkets markets).Pairwise
      fun left right => left.marketId < right.marketId :=
  (activeMarkets_sorted markets).imp₂ (fun _ _ => lt_of_le_of_ne)
    (List.pairwise_map.mp normal.distinct)

/-- The order in which normal markets are given is forgotten. -/
theorem Normal.activeMarkets_eq
    (normal : Normal markets) (otherNormal : Normal others)
    (perm : others.Perm markets) :
    activeMarkets others = activeMarkets markets := by
  have same : (activeMarkets others).Perm (activeMarkets markets) :=
    (activeMarkets_perm others).trans
      ((perm.filter _).trans (activeMarkets_perm markets).symm)
  refine List.Perm.eq_of_pairwise ?_ otherNormal.rising normal.rising same
  intro left right _ _ before after
  exact absurd (before.trans after) (lt_irrefl _)

end Publishing

section Shards

variable {shardSize : Nat} {tokens : List String}

theorem shardsOf_tokens :
    (shardsOf shardSize tokens).map (·.subscription.assetIds) =
      Chunks.chunks shardSize tokens := by
  simp [shardsOf, Function.comp_def, PublicSubscription.new]

theorem shardsOf_indices :
    (shardsOf shardSize tokens).map SubscriptionShard.index =
      List.range (shardsOf shardSize tokens).length := by
  simp [shardsOf, Function.comp_def, List.range_eq_range']

end Shards

end Pmkit
