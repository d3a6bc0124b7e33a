import Mathlib.Algebra.BigOperators.Group.Finset.Piecewise
import Mathlib.Algebra.BigOperators.Ring.List
import Pmkit.Chain.Wallet

/-!
# What wallets hold together

A wallet holds what it received less what it sent.  So its holdings over two
adjacent ranges of blocks add up, and what all wallets hold of an asset that is
only ever transferred is nothing.
-/

namespace Pmkit

/-- An amount that goes from one address to another. -/
structure Transfer where
  sender : Address
  recipient : Address
  amount : Decimal
  deriving DecidableEq

namespace Transfer

def inbound (wallet : Address) (transfers : List Transfer) : Decimal :=
  ((transfers.filter fun transfer => transfer.recipient = wallet).map
    Transfer.amount).sum

def outbound (wallet : Address) (transfers : List Transfer) : Decimal :=
  ((transfers.filter fun transfer => transfer.sender = wallet).map
    Transfer.amount).sum

def net (wallet : Address) (transfers : List Transfer) : Decimal :=
  inbound wallet transfers - outbound wallet transfers

variable {wallet : Address}

@[simp]
theorem net_nil : net wallet [] = 0 := by
  simp [net, inbound, outbound]

theorem add_net_nil (amount : Decimal) : amount = amount + net wallet [] := by
  rw [net_nil, add_zero]

theorem net_append (first second : List Transfer) :
    net wallet (first ++ second) = net wallet first + net wallet second := by
  simp only [net, inbound, outbound, List.filter_append, List.map_append,
    List.sum_append]
  ring

theorem transferred_eq (sender recipient : Address) (amount balance : Decimal) :
    ReconstructionState.transferred wallet sender recipient amount balance =
      balance + net wallet [⟨sender, recipient, amount⟩] := by
  unfold ReconstructionState.transferred net inbound outbound
  by_cases sent : sender = wallet
  · by_cases received : recipient = wallet
    · simp [sent, received]
    · simp [sent, received, sub_eq_add_neg]
  · by_cases received : recipient = wallet
    · simp [sent, received]
    · simp [sent, received]

/-- What the wallets of a set are left with together, if it has every sender
and recipient, is nothing. -/
theorem sum_net {transfers : List Transfer} {addresses : Finset Address}
    (covered : ∀ transfer ∈ transfers,
      transfer.sender ∈ addresses ∧ transfer.recipient ∈ addresses) :
    ∑ wallet ∈ addresses, net wallet transfers = 0 := by
  induction transfers with
  | nil =>
      simp
  | cons transfer rest ih =>
      have later := ih fun other mem =>
        covered other (List.mem_cons_of_mem transfer mem)
      obtain ⟨sender, recipient⟩ := covered transfer List.mem_cons_self
      have single : ∀ wallet, net wallet [transfer] =
          (if transfer.recipient = wallet then transfer.amount else 0) -
            if transfer.sender = wallet then transfer.amount else 0 := by
        intro wallet
        unfold net inbound outbound
        congr 1
        · split <;> simp_all
        · split <;> simp_all
      calc
        ∑ wallet ∈ addresses, net wallet (transfer :: rest) =
            ∑ wallet ∈ addresses, (net wallet [transfer] + net wallet rest) :=
          Finset.sum_congr rfl fun wallet _ => net_append [transfer] rest
        _ = ∑ wallet ∈ addresses, net wallet [transfer] := by
          rw [Finset.sum_add_distrib, later, add_zero]
        _ = 0 := by
          simp only [single, Finset.sum_sub_distrib, Finset.sum_ite_eq,
            if_pos sender, if_pos recipient, sub_self]

end Transfer

/-! ## What a log says of a wallet -/

namespace CanonicalChainLog

def collateralTransfers (log : CanonicalChainLog) : List Transfer :=
  match log.event with
  | .collateralTransfer sender recipient amount => [⟨sender, recipient, amount⟩]
  | _ => []

def positionTransfers (assetId : String) (log : CanonicalChainLog) :
    List Transfer :=
  match log.event with
  | .outcomeTransferSingle sender recipient transferred amount =>
      if transferred = assetId then [⟨sender, recipient, amount⟩] else []
  | .outcomeTransferBatch sender recipient transfers =>
      (transfers.filter fun transfer => transfer.assetId = assetId).map
        fun transfer => ⟨sender, recipient, transfer.amount⟩
  | _ => []

def trades (wallet : Address) (log : CanonicalChainLog) : List WalletTrade :=
  match log.event with
  | .orderFilled maker taker makerAssetId takerAssetId makerSide makerAmount
      takerAmount fee =>
      if maker = wallet ∨ taker = wallet then
        let terms := ReconstructionState.tradeTerms (maker = wallet) makerSide
          makerAssetId takerAssetId makerAmount takerAmount
        [⟨log.identity.transactionHash, log.identity.blockNumber, terms.1,
          maker = wallet, terms.2.1, terms.2.2.1, terms.2.2.2, fee⟩]
      else
        []
  | _ => []

def activity (wallet : Address) (log : CanonicalChainLog) :
    List WalletActivity :=
  ((ReconstructionState.new wallet).applyEvent log).activity

end CanonicalChainLog

namespace ReconstructionState

/-- What the wallet holds of a token. -/
def held (state : ReconstructionState) (assetId : String) : Decimal :=
  (state.positions.lookup assetId).getD 0

theorem held_applyPosition (state : ReconstructionState)
    (sender recipient : Address) (transferred assetId : String)
    (amount : Decimal) :
    (state.applyPosition sender recipient transferred amount).held assetId =
      state.held assetId + Transfer.net state.wallet
        (if transferred = assetId then [⟨sender, recipient, amount⟩]
        else []) := by
  unfold applyPosition held
  by_cases same : transferred = assetId
  · subst same
    rw [AList.lookup_insert, if_pos rfl, Option.getD_some,
      Transfer.transferred_eq]
  · rw [AList.lookup_insert_ne (Ne.symm same), if_neg same, Transfer.net_nil,
      add_zero]

/-- What the transfers of a batch leave of a state. -/
theorem applyPositions_eq (state : ReconstructionState)
    (sender recipient : Address) (transfers : List OutcomeTokenAmount) :
    let after := transfers.foldl (fun state transfer =>
      state.applyPosition sender recipient transfer.assetId transfer.amount)
      state
    after.wallet = state.wallet ∧
      after.collateralBalance = state.collateralBalance ∧
      after.trades = state.trades ∧ after.activity = state.activity ∧
      ∀ assetId, after.held assetId = state.held assetId +
        Transfer.net state.wallet
          ((transfers.filter fun transfer => transfer.assetId = assetId).map
            fun transfer => ⟨sender, recipient, transfer.amount⟩) := by
  induction transfers generalizing state with
  | nil =>
      simp
  | cons transfer rest ih =>
      obtain ⟨wallet, collateral, trades, activity, held⟩ :=
        ih (state.applyPosition sender recipient
          transfer.assetId transfer.amount)
      refine ⟨wallet, collateral, trades, activity, fun assetId => ?_⟩
      rw [List.foldl_cons, held, held_applyPosition]
      change _ + Transfer.net state.wallet _ = _
      rw [add_assoc, ← Transfer.net_append]
      by_cases same : transfer.assetId = assetId
      · rw [if_pos same, List.filter_cons_of_pos (by simpa using same)]
        rfl
      · rw [if_neg same, List.filter_cons_of_neg (by simpa using same)]
        rfl

theorem apply_eq (state : ReconstructionState) (log : CanonicalChainLog) :
    (state.apply log).wallet = state.wallet ∧
      (state.apply log).collateralBalance = state.collateralBalance +
        Transfer.net state.wallet log.collateralTransfers ∧
      (∀ assetId, (state.apply log).held assetId = state.held assetId +
        Transfer.net state.wallet (log.positionTransfers assetId)) ∧
      (state.apply log).trades = state.trades ++ log.trades state.wallet ∧
      (state.apply log).activity =
        state.activity ++ log.activity state.wallet := by
  obtain ⟨identity, contractAddress, event⟩ := log
  cases event with
  | collateralTransfer sender recipient amount =>
      refine ⟨rfl, ?_, fun _ => Transfer.add_net_nil _,
        (List.append_nil _).symm, (List.append_nil _).symm⟩
      exact Transfer.transferred_eq sender recipient amount _
  | outcomeTransferSingle sender recipient transferred amount =>
      refine ⟨rfl, Transfer.add_net_nil _, ?_, (List.append_nil _).symm,
        (List.append_nil _).symm⟩
      intro assetId
      exact held_applyPosition _ sender recipient transferred assetId amount
  | outcomeTransferBatch sender recipient transfers =>
      obtain ⟨wallet, collateral, trades, activity, held⟩ := applyPositions_eq
        { state with
          canonicalTip := some ⟨identity.chainId, identity.blockNumber,
            identity.blockHash⟩ } sender recipient transfers
      have none := (applyPositions_eq (new state.wallet) sender recipient
        transfers).2.2.2.1
      refine ⟨wallet, collateral.trans (Transfer.add_net_nil _), held,
        trades.trans (List.append_nil _).symm, activity.trans ?_⟩
      exact (List.append_nil _).symm.trans (congrArg _ none.symm)
  | orderFilled maker taker makerAssetId takerAssetId makerSide makerAmount
      takerAmount fee =>
      by_cases own : maker = state.wallet ∨ taker = state.wallet
      · simp only [apply, applyEvent, CanonicalChainLog.activity,
          CanonicalChainLog.trades, new, own, ↓reduceIte]
        exact ⟨rfl, Transfer.add_net_nil _, fun _ => Transfer.add_net_nil _,
          rfl, rfl⟩
      · simp only [apply, applyEvent, CanonicalChainLog.activity,
          CanonicalChainLog.trades, new, own, ↓reduceIte, List.append_nil]
        exact ⟨trivial, Transfer.add_net_nil _,
          fun _ => Transfer.add_net_nil _, trivial, trivial⟩
  | _ =>
      -- What is left notes an activity of the wallet, or does nothing.
      simp only [apply, applyEvent, CanonicalChainLog.activity, new,
        CanonicalChainLog.collateralTransfers,
        CanonicalChainLog.positionTransfers, CanonicalChainLog.trades,
        Transfer.net_nil, add_zero, List.append_nil]
      split <;> simp_all [pushActivity, held]

end ReconstructionState

/-! ## Snapshots -/

theorem reconstructLogs_eq (query : WalletQuery) (state : ReconstructionState)
    (logs : List CanonicalChainLog) :
    let inside := logs.filter query.inRange
    let after := reconstructLogs query state logs
    after.wallet = state.wallet ∧
      after.collateralBalance = state.collateralBalance +
        Transfer.net state.wallet
          (inside.flatMap CanonicalChainLog.collateralTransfers) ∧
      (∀ assetId, after.held assetId = state.held assetId +
        Transfer.net state.wallet
          (inside.flatMap (CanonicalChainLog.positionTransfers assetId))) ∧
      after.trades =
        state.trades ++ inside.flatMap (CanonicalChainLog.trades state.wallet) ∧
      after.activity = state.activity ++
        inside.flatMap (CanonicalChainLog.activity state.wallet) := by
  induction logs generalizing state with
  | nil =>
      simp [reconstructLogs]
  | cons log rest ih =>
      by_cases inRange : query.inRange log = true
      · obtain ⟨wallet, collateral, held, trades, activity⟩ := state.apply_eq log
        have later := ih (state.apply log)
        rw [wallet, collateral, trades, activity] at later
        simp only [held] at later
        simp only [reconstructLogs, if_pos inRange,
          List.filter_cons_of_pos inRange, List.flatMap_cons,
          Transfer.net_append, ← add_assoc, ← List.append_assoc]
        exact later
      · rw [List.filter_cons_of_neg inRange, reconstructLogs, if_neg inRange]
        exact ih state

/-- The size of the position in a token; a token without one has none. -/
def WalletSnapshot.position (snapshot : WalletSnapshot) (assetId : String) :
    Decimal :=
  ((snapshot.positions.find? fun position => position.assetId = assetId).map
    WalletPosition.size).getD 0

/-- The listed positions are the holdings that are not zero. -/
theorem ReconstructionState.position_finish
    (state : ReconstructionState) (assetId : String) :
    state.finish.position assetId = state.held assetId := by
  have listed : ∀ position : WalletPosition,
      position ∈ state.finish.positions ↔
        state.positions.lookup position.assetId = some position.size ∧
          position.size ≠ 0 := by
    intro position
    rw [finish, List.mem_map]
    constructor
    · rintro ⟨entry, mem, rfl⟩
      rw [List.mem_filter, Table.mem_orderBy, decide_eq_true_eq] at mem
      exact ⟨AList.mem_lookup_iff.mpr mem.1, mem.2⟩
    · rintro ⟨stored, filled⟩
      refine ⟨⟨position.assetId, position.size⟩, ?_, rfl⟩
      rw [List.mem_filter, Table.mem_orderBy, decide_eq_true_eq]
      exact ⟨AList.mem_lookup_iff.mp stored, filled⟩
  unfold WalletSnapshot.position held
  cases found : state.finish.positions.find? fun position =>
      decide (position.assetId = assetId) with
  | some position =>
      have same := List.find?_some found
      rw [decide_eq_true_eq] at same
      have stored := (listed position).mp (List.mem_of_find?_eq_some found)
      rw [← same, stored.1]
      rfl
  | none =>
      rw [List.find?_eq_none] at found
      cases stored : state.positions.lookup assetId with
      | none => rfl
      | some size =>
          by_contra filled
          refine found ⟨assetId, size⟩ ((listed _).mpr ⟨stored, ?_⟩) (by simp)
          exact fun empty => filled empty.symm

section Snapshots

variable (query : WalletQuery) (logs : List CanonicalChainLog)

theorem rebuildWallet_collateralBalance :
    (rebuildWallet query logs).collateralBalance =
      Transfer.net query.wallet ((logs.filter query.inRange).flatMap
        CanonicalChainLog.collateralTransfers) := by
  have whole := (reconstructLogs_eq query (.new query.wallet) logs).2.1
  exact whole.trans (zero_add _)

theorem rebuildWallet_position (assetId : String) :
    (rebuildWallet query logs).position assetId =
      Transfer.net query.wallet ((logs.filter query.inRange).flatMap
        (CanonicalChainLog.positionTransfers assetId)) := by
  have whole := (reconstructLogs_eq query (.new query.wallet) logs).2.2.1
    assetId
  rw [rebuildWallet, ReconstructionState.position_finish]
  exact whole.trans (zero_add _)

theorem rebuildWallet_trades :
    (rebuildWallet query logs).trades = (logs.filter query.inRange).flatMap
      (CanonicalChainLog.trades query.wallet) :=
  (reconstructLogs_eq query (.new query.wallet) logs).2.2.2.1

theorem rebuildWallet_activity :
    (rebuildWallet query logs).activity = (logs.filter query.inRange).flatMap
      (CanonicalChainLog.activity query.wallet) :=
  (reconstructLogs_eq query (.new query.wallet) logs).2.2.2.2

end Snapshots

namespace WalletQuery

def upTo (query : WalletQuery) (block : Nat) : WalletQuery :=
  { query with toBlock := some block }

def behind (query : WalletQuery) (block : Nat) : WalletQuery :=
  { query with fromBlock := some (block + 1) }

/-- The logs of a range are those of its two parts. -/
theorem filter_split {query : WalletQuery} {logs : List CanonicalChainLog}
    (ordered : logs.Pairwise fun left right =>
      left.identity.blockNumber ≤ right.identity.blockNumber)
    {block : Nat}
    (inside : inBounds query.fromBlock query.toBlock block = true) :
    logs.filter query.inRange =
      logs.filter (query.upTo block).inRange ++
        logs.filter (query.behind block).inRange := by
  obtain ⟨wallet, fromBlock, toBlock⟩ := query
  simp only [inBounds, Bool.and_eq_true] at inside
  have parts : ∀ log : CanonicalChainLog,
      inRange ⟨wallet, fromBlock, toBlock⟩ log =
        (inRange (upTo ⟨wallet, fromBlock, toBlock⟩ block) log ||
          inRange (behind ⟨wallet, fromBlock, toBlock⟩ block) log) := by
    intro log
    rw [Bool.eq_iff_iff]
    cases fromBlock <;> cases toBlock <;>
      simp [inRange, inBounds, upTo, behind] at inside ⊢ <;> omega
  induction logs with
  | nil =>
      rfl
  | cons log rest ih =>
      obtain ⟨first, later⟩ := List.pairwise_cons.mp ordered
      by_cases early : log.identity.blockNumber ≤ block
      · have notBehind : inRange (behind ⟨wallet, fromBlock, toBlock⟩ block)
            log = false := by
          simp [inRange, inBounds, behind]
          omega
        simp only [List.filter_cons, parts log, notBehind, Bool.or_false]
        rw [ih later]
        split
        · rfl
        · rfl
      · have notUpTo : ∀ other ∈ log :: rest, inRange
            (upTo ⟨wallet, fromBlock, toBlock⟩ block) other = false := by
          intro other mem
          have behindLog : log.identity.blockNumber ≤
              other.identity.blockNumber := by
            rcases List.mem_cons.mp mem with rfl | inRest
            · exact Nat.le_refl _
            · exact first other inRest
          simp [inRange, inBounds, upTo]
          omega
        have none : (log :: rest).filter
            (inRange (upTo ⟨wallet, fromBlock, toBlock⟩ block)) = [] := by
          rw [List.filter_eq_nil_iff]
          intro other mem
          rw [notUpTo other mem]
          exact Bool.false_ne_true
        rw [none, List.nil_append]
        apply List.filter_congr
        intro other mem
        rw [parts other, notUpTo other mem, Bool.false_or]

def of (query : WalletQuery) (wallet : Address) : WalletQuery :=
  { query with wallet := wallet }

@[simp]
theorem inRange_of (query : WalletQuery) (wallet : Address) :
    (query.of wallet).inRange = query.inRange := rfl

@[simp]
theorem wallet_of (query : WalletQuery) (wallet : Address) :
    (query.of wallet).wallet = wallet := rfl

end WalletQuery

/-! ## Conservation -/

structure OppositeTrades (made taken : WalletTrade) : Prop where
  assetId : taken.assetId = made.assetId
  size : taken.size = made.size
  counterAmount : taken.counterAmount = made.counterAmount
  fee : taken.fee = made.fee
  side : taken.side ≠ made.side

/-- A fill between two wallets is a trade of each. -/
theorem CanonicalChainLog.trades_opposite
    {log : CanonicalChainLog} {maker taker : Address}
    {makerAssetId takerAssetId : String} {makerSide : TradeSide}
    {makerAmount takerAmount fee : Decimal}
    (filled : log.event = .orderFilled maker taker makerAssetId takerAssetId
      makerSide makerAmount takerAmount fee) (ne : maker ≠ taker) :
    ∃ made taken, log.trades maker = [made] ∧ log.trades taker = [taken] ∧
      OppositeTrades made taken := by
  obtain ⟨identity, contractAddress, event⟩ := log
  cases filled
  refine ⟨_, _, if_pos (Or.inl rfl), if_pos (Or.inr rfl), ?_⟩
  cases makerSide <;> constructor <;>
    simp [ReconstructionState.tradeTerms, ne]

structure Conserves (query : WalletQuery) (logs : List CanonicalChainLog) :
    Prop where
  collateral : (rebuildWallet query logs).collateralBalance =
    Transfer.inbound query.wallet ((logs.filter query.inRange).flatMap
        CanonicalChainLog.collateralTransfers) -
      Transfer.outbound query.wallet ((logs.filter query.inRange).flatMap
        CanonicalChainLog.collateralTransfers)
  position : ∀ assetId, (rebuildWallet query logs).position assetId =
    Transfer.inbound query.wallet ((logs.filter query.inRange).flatMap
        (CanonicalChainLog.positionTransfers assetId)) -
      Transfer.outbound query.wallet ((logs.filter query.inRange).flatMap
        (CanonicalChainLog.positionTransfers assetId))
  parts : ∀ block,
    WalletQuery.inBounds query.fromBlock query.toBlock block = true →
    let first := rebuildWallet (query.upTo block) logs
    let second := rebuildWallet (query.behind block) logs
    (rebuildWallet query logs).collateralBalance =
        first.collateralBalance + second.collateralBalance ∧
      (∀ assetId, (rebuildWallet query logs).position assetId =
        first.position assetId + second.position assetId) ∧
      (rebuildWallet query logs).trades = first.trades ++ second.trades ∧
      (rebuildWallet query logs).activity = first.activity ++ second.activity
  collateralSum : ∀ addresses : Finset Address,
    (∀ log ∈ logs, ∀ transfer ∈ log.collateralTransfers,
      transfer.sender ∈ addresses ∧ transfer.recipient ∈ addresses) →
    ∑ wallet ∈ addresses,
      (rebuildWallet (query.of wallet) logs).collateralBalance = 0
  positionSum : ∀ (assetId : String) (addresses : Finset Address),
    (∀ log ∈ logs, ∀ transfer ∈ log.positionTransfers assetId,
      transfer.sender ∈ addresses ∧ transfer.recipient ∈ addresses) →
    ∑ wallet ∈ addresses,
      (rebuildWallet (query.of wallet) logs).position assetId = 0
  fills : ∀ log ∈ logs, query.inRange log = true →
    ∀ (maker taker : Address) (makerAssetId takerAssetId : String)
      (makerSide : TradeSide) (makerAmount takerAmount fee : Decimal),
      log.event = .orderFilled maker taker makerAssetId takerAssetId makerSide
        makerAmount takerAmount fee → maker ≠ taker →
      ∃ made taken, log.trades maker = [made] ∧ log.trades taker = [taken] ∧
        made ∈ (rebuildWallet (query.of maker) logs).trades ∧
        taken ∈ (rebuildWallet (query.of taker) logs).trades ∧
        OppositeTrades made taken

/-- What the wallets of a set hold together of something only transferred. -/
theorem sum_net_filter
    {logs : List CanonicalChainLog} {keep : CanonicalChainLog → Bool}
    {transfers : CanonicalChainLog → List Transfer}
    {addresses : Finset Address}
    (covered : ∀ log ∈ logs, ∀ transfer ∈ transfers log,
      transfer.sender ∈ addresses ∧ transfer.recipient ∈ addresses) :
    ∑ wallet ∈ addresses,
      Transfer.net wallet ((logs.filter keep).flatMap transfers) = 0 := by
  apply Transfer.sum_net
  intro transfer mem
  obtain ⟨log, inside, ofLog⟩ := List.mem_flatMap.mp mem
  exact covered log (List.mem_of_mem_filter inside) transfer ofLog

/-- Wallets are conserved: each holds what it received less what it sent,
ranges that follow each other add up, all wallets together hold nothing, and
the two sides of a fill agree. -/
theorem rebuildWallet_conserves
    {logs : List CanonicalChainLog}
    (ordered : logs.Pairwise fun left right =>
      left.identity.blockNumber ≤ right.identity.blockNumber)
    (query : WalletQuery) : Conserves query logs where
  collateral := rebuildWallet_collateralBalance query logs
  position := rebuildWallet_position query logs
  parts := by
    intro block inside
    have split := WalletQuery.filter_split ordered inside
    refine ⟨?_, ?_, ?_, ?_⟩
    · rw [rebuildWallet_collateralBalance, rebuildWallet_collateralBalance,
        rebuildWallet_collateralBalance, split, List.flatMap_append,
        Transfer.net_append]
      rfl
    · intro assetId
      rw [rebuildWallet_position, rebuildWallet_position,
        rebuildWallet_position, split, List.flatMap_append,
        Transfer.net_append]
      rfl
    · rw [rebuildWallet_trades, rebuildWallet_trades, rebuildWallet_trades,
        split, List.flatMap_append]
      rfl
    · rw [rebuildWallet_activity, rebuildWallet_activity,
        rebuildWallet_activity, split, List.flatMap_append]
      rfl
  collateralSum := by
    intro addresses covered
    simp only [rebuildWallet_collateralBalance, WalletQuery.inRange_of,
      WalletQuery.wallet_of]
    exact sum_net_filter covered
  positionSum := by
    intro assetId addresses covered
    simp only [rebuildWallet_position, WalletQuery.inRange_of,
      WalletQuery.wallet_of]
    exact sum_net_filter covered
  fills := by
    intro log member inRange maker taker _ _ _ _ _ _ filled different
    obtain ⟨made, taken, ofMaker, ofTaker, opposite⟩ :=
      CanonicalChainLog.trades_opposite filled different
    have inside : log ∈ logs.filter query.inRange :=
      List.mem_filter.mpr ⟨member, inRange⟩
    refine ⟨made, taken, ofMaker, ofTaker, ?_, ?_, opposite⟩
    · rw [rebuildWallet_trades, List.mem_flatMap]
      exact ⟨log, inside, by
        change made ∈ log.trades maker
        rw [ofMaker]
        exact List.mem_singleton.mpr rfl⟩
    · rw [rebuildWallet_trades, List.mem_flatMap]
      exact ⟨log, inside, by
        change taken ∈ log.trades taker
        rw [ofTaker]
        exact List.mem_singleton.mpr rfl⟩

namespace WalletSample

def alice : Address := ⟨"0x00000000000000000000000000000000000000a1"⟩

def bob : Address := ⟨"0x00000000000000000000000000000000000000b0"⟩

def log (blockNumber : Nat) (event : ChainEvent) : CanonicalChainLog where
  identity := ⟨.polygon, blockNumber, "0xblock", "0xtransaction", 0, 0⟩
  contractAddress := ⟨"0x00000000000000000000000000000000000000c0"⟩
  event := event

def logs : List CanonicalChainLog :=
  [log 1 (.collateralTransfer alice bob 5),
    log 2 (.orderFilled alice bob "usdc" "token" .buy 3 6 0),
    log 3 (.outcomeTransferBatch bob alice [⟨"token", 2⟩, ⟨"token", 4⟩])]

end WalletSample

theorem rebuildWallet_conserves_sample :
    Conserves ⟨WalletSample.alice, some 1, none⟩ WalletSample.logs :=
  rebuildWallet_conserves (by decide) ⟨WalletSample.alice, some 1, none⟩

end Pmkit
