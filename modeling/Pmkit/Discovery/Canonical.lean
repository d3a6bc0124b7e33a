import Pmkit.Discovery.Paging

/-!
# Snapshots of a list of markets

A list of markets is served page by page.  The snapshot depends on the markets
only, and neither on the size of the pages nor on the order in which the
markets were served.
-/

namespace Pmkit

def listed (markets : List GammaMarket) : Fetch :=
  fun _ request => .ok ((markets.drop request.offset).take request.limit)

structure ReplicaSubscriptionPlan.Canonical (plan : ReplicaSubscriptionPlan)
    (tokens : List String) (shardSize : Nat) : Prop where
  indices : plan.shards.map SubscriptionShard.index =
    List.range plan.shards.length
  tokens : (plan.shards.flatMap (·.subscription.assetIds)).Perm tokens
  rising : (plan.shards.flatMap (·.subscription.assetIds)).Pairwise (· < ·)
  full : ∀ shard ∈ plan.shards.dropLast,
    shard.subscription.assetIds.length = shardSize
  last : ∀ shard ∈ plan.shards, 1 ≤ shard.subscription.assetIds.length ∧
    shard.subscription.assetIds.length ≤ shardSize

structure DiscoverySnapshot.Canonical (snapshot : DiscoverySnapshot)
    (markets : List GammaMarket) (shardSize : Nat) : Prop where
  active : snapshot.markets.Perm (markets.filter GammaMarket.active)
  sorted : snapshot.markets.Pairwise
    fun left right => left.marketId < right.marketId
  plan : snapshot.laneA.Canonical
    (tokenIds (markets.filter GammaMarket.active)) shardSize
  lanes : snapshot.laneA = snapshot.laneB

section Shards

variable {shardSize : Nat} {tokens : List String}

theorem shardsOf_canonical (positive : 0 < shardSize)
    (rising : tokens.Pairwise (· < ·)) :
    (ReplicaSubscriptionPlan.mk (shardsOf shardSize tokens)).Canonical tokens
      shardSize := by
  have joined : (shardsOf shardSize tokens).flatMap
      (·.subscription.assetIds) = tokens := by
    rw [List.flatMap_def, shardsOf_tokens, Chunks.flatten_chunks positive]
  constructor
  · exact shardsOf_indices
  · rw [joined]
  · rw [joined]
    exact rising
  · intro shard mem
    have chunk : shard.subscription.assetIds ∈
        (Chunks.chunks shardSize tokens).dropLast := by
      rw [← shardsOf_tokens, ← List.map_dropLast]
      exact List.mem_map_of_mem mem
    exact Chunks.dropLast_chunks chunk
  · intro shard mem
    have chunk : shard.subscription.assetIds ∈
        Chunks.chunks shardSize tokens := by
      rw [← shardsOf_tokens]
      exact List.mem_map_of_mem mem
    obtain ⟨some, small⟩ := Chunks.mem_chunks positive chunk
    exact ⟨List.length_pos_of_ne_nil some, small⟩

end Shards

section Listed

variable {text : DigestText} {pageSize shardSize : Nat}
  {markets : List GammaMarket}
  {pages : List (List GammaMarket)} {page : List GammaMarket}

/-- The pages served are the list as far as they go. -/
theorem flatten_listed
    (received : Received (receivePage pageSize (listed markets)) pages) :
    pages.flatten = markets.take pages.flatten.length := by
  induction received with
  | nil => simp
  | snoc received found ih =>
      rename_i before last
      have served := (receivePage_eq_ok.mp found).1
      cases served
      rw [List.flatten_append, List.flatten_singleton, List.length_append,
        List.take_add, ← ih]
      congr 1
      rw [List.length_take, List.take_eq_take_iff]
      simp

theorem flatten_listed_of_short
    (received : Received (receivePage pageSize (listed markets))
      (pages ++ [page]))
    (short : page.length < pageSize) :
    (pages ++ [page]).flatten = markets := by
  obtain ⟨before, found⟩ := received.split
  have served := (receivePage_eq_ok.mp found).1
  cases served
  rw [List.length_take, List.length_drop] at short
  dsimp only at short
  have rest : (markets.drop pages.flatten.length).length ≤ pageSize := by
    rw [List.length_drop]
    omega
  rw [List.flatten_append, List.flatten_singleton, List.take_of_length_le rest]
  calc pages.flatten ++ markets.drop pages.flatten.length =
      markets.take pages.flatten.length ++
        markets.drop pages.flatten.length := by
        rw [← flatten_listed before]
    _ = markets := List.take_append_drop _ _

theorem discoverSubscriptionSnapshot_listed {requests : Nat}
    {snapshot : DiscoverySnapshot}
    (accepted : discoverSubscriptionSnapshot text pageSize shardSize
      (listed markets) requests = some (.ok snapshot)) :
    0 < shardSize ∧ Normal markets ∧
      snapshot = snapshotOf text markets shardSize := by
  unfold discoverSubscriptionSnapshot at accepted
  split at accepted
  · cases accepted
  · rename_i positive
    obtain ⟨all, returned, normalized⟩ := publish_eq_some_ok.mp accepted
    obtain ⟨pages, page, _, received, _, short, rfl⟩ :=
      pagingAfter_eq_ok.mp returned
    rw [flatten_listed_of_short received short] at normalized
    exact ⟨by omega, normalizeSnapshot_eq_ok.mp normalized⟩

theorem snapshotOf_canonical (positive : 0 < shardSize)
    (normal : Normal markets) :
    (snapshotOf text markets shardSize).Canonical markets shardSize where
  active := activeMarkets_perm markets
  sorted := normal.rising
  plan := by
    have canonical := shardsOf_canonical positive
      ((assetIds_rising markets).mpr normal.tokens)
    exact { canonical with
      tokens := canonical.tokens.trans (assetIds_perm markets) }
  lanes := rfl

/-- A list of markets is served in no more requests than it fills pages, and
one. -/
theorem listed_returns (positive : 0 < pageSize) :
    ∃ result, pagingAfter text pageSize
      (receivePage pageSize (listed markets))
      (markets.length / pageSize + 1) = .returns result := by
  cases turn : pagingAfter text pageSize
      (receivePage pageSize (listed markets))
      (markets.length / pageSize + 1) with
  | returns result => exact ⟨result, rfl⟩
  | goesOn state =>
      obtain ⟨pages, count, received, continues, _⟩ :=
        pagingAfter_eq_goesOn.mp turn
      have whole := flatten_listed received
      have bound : pages.flatten.length ≤ markets.length := by
        have lengths := congrArg List.length whole
        rw [List.length_take] at lengths
        omega
      have full := continues.length_mul_le
      have rest := Nat.lt_div_mul_add positive (a := markets.length)
      rw [count, Nat.add_mul, one_mul] at full
      omega

end Listed

/-- A snapshot of a list of markets is canonical, and another discovery of the
same markets finds the same one. -/
theorem discovery_canonical
    (text : DigestText) (pageSize shardSize : Nat) (markets : List GammaMarket)
    (pagePositive : 0 < pageSize) (shardPositive : 0 < shardSize) :
    (∃ result, discoverSubscriptionSnapshot text pageSize shardSize
      (listed markets) (markets.length / pageSize + 1) = some result) ∧
    ∀ requests snapshot,
      discoverSubscriptionSnapshot text pageSize shardSize (listed markets)
          requests = some (.ok snapshot) →
        snapshot.Canonical markets shardSize ∧
        ∀ others otherSize otherRequests other, others.Perm markets →
          discoverSubscriptionSnapshot text otherSize shardSize
              (listed others) otherRequests = some (.ok other) →
            other = snapshot := by
  constructor
  · obtain ⟨result, returned⟩ : ∃ result, pagingAfter text pageSize
        (receivePage pageSize (listed markets))
        (markets.length / pageSize + 1) = .returns result :=
      listed_returns pagePositive
    unfold discoverSubscriptionSnapshot
    rw [if_neg (by omega), returned]
    cases result with
    | error error => exact ⟨_, rfl⟩
    | ok all => exact ⟨_, rfl⟩
  · intro requests snapshot accepted
    obtain ⟨_, normal, rfl⟩ := discoverSubscriptionSnapshot_listed accepted
    refine ⟨snapshotOf_canonical shardPositive normal, ?_⟩
    intro others otherSize otherRequests other perm otherAccepted
    obtain ⟨_, otherNormal, rfl⟩ :=
      discoverSubscriptionSnapshot_listed otherAccepted
    have same := normal.activeMarkets_eq otherNormal perm
    unfold snapshotOf assetIds
    rw [same]

section Samples

open DiscoverySample

theorem discovery_canonical_two :
    (discoverSubscriptionSnapshot text 3 1 (listed [market 1, market 0]) 1 =
        some (.ok (snapshotOf text [market 1, market 0] 1)) ∧
      discoverSubscriptionSnapshot text 5 1 (listed [market 0, market 1]) 1 =
        some (.ok (snapshotOf text [market 0, market 1] 1))) ∧
    (snapshotOf text [market 1, market 0] 1).Canonical [market 1, market 0]
      1 ∧
    snapshotOf text [market 0, market 1] 1 =
      snapshotOf text [market 1, market 0] 1 := by
  have first : discoverSubscriptionSnapshot text 3 1
      (listed [market 1, market 0]) 1 =
        some (.ok (snapshotOf text [market 1, market 0] 1)) := by
    rfl
  have second : discoverSubscriptionSnapshot text 5 1
      (listed [market 0, market 1]) 1 =
        some (.ok (snapshotOf text [market 0, market 1] 1)) := by
    rfl
  obtain ⟨canonical, unique⟩ :=
    (discovery_canonical text 3 1 [market 1, market 0] (by decide)
      (by decide)).2 1 _ first
  exact ⟨⟨first, second⟩, canonical,
    unique _ 5 1 _ (List.Perm.swap _ _ _) second⟩

end Samples

end Pmkit
