import Pmkit.Chain.EventText
import Pmkit.Chain.Tip

/-!
# Wallets from canonical logs

A wallet is rebuilt by replaying the canonical logs of a range of blocks in
their order.
-/

namespace Pmkit

structure WalletQuery where
  wallet : Address
  fromBlock : Option Nat
  toBlock : Option Nat
  deriving DecidableEq

structure WalletPosition where
  assetId : String
  size : Decimal
  deriving DecidableEq

structure WalletTrade where
  transactionHash : String
  blockNumber : Nat
  assetId : String
  maker : Bool
  side : TradeSide
  size : Decimal
  counterAmount : Decimal
  fee : Decimal
  deriving DecidableEq

inductive WalletActivityKind where
  | split
  | merge
  | redemption
  | trade
  | match_
  | fee
  deriving DecidableEq

structure WalletActivity where
  transactionHash : String
  blockNumber : Nat
  kind : WalletActivityKind
  conditionId : Option String
  assetId : Option String
  amount : Decimal
  deriving DecidableEq

structure WalletSnapshot where
  wallet : Address
  canonicalTip : Option ChainCheckpoint
  collateralBalance : Decimal
  positions : List WalletPosition
  settledCollateral : Decimal
  trades : List WalletTrade
  activity : List WalletActivity
  deriving DecidableEq

/-! ## Reconstruction -/

structure ReconstructionState where
  wallet : Address
  canonicalTip : Option ChainCheckpoint
  collateralBalance : Decimal
  positions : KeyedMap String Decimal
  settledCollateral : Decimal
  trades : List WalletTrade
  activity : List WalletActivity

namespace ReconstructionState

def new (wallet : Address) : ReconstructionState where
  wallet := wallet
  canonicalTip := none
  collateralBalance := 0
  positions := ∅
  settledCollateral := 0
  trades := []
  activity := []

/-- A balance after a transfer: what the wallet sends goes, and what it
receives comes. -/
def transferred (wallet sender recipient : Address) (amount balance : Decimal) :
    Decimal :=
  let sent := if sender = wallet then balance - amount else balance
  if recipient = wallet then sent + amount else sent

def applyCollateral (state : ReconstructionState)
    (sender recipient : Address) (amount : Decimal) : ReconstructionState :=
  { state with
    collateralBalance :=
      transferred state.wallet sender recipient amount state.collateralBalance }

def applyPosition (state : ReconstructionState)
    (sender recipient : Address) (assetId : String) (amount : Decimal) :
    ReconstructionState :=
  { state with
    positions := state.positions.insert assetId
      (transferred state.wallet sender recipient amount
        ((state.positions.lookup assetId).getD 0)) }

def pushActivity (state : ReconstructionState) (log : CanonicalChainLog)
    (kind : WalletActivityKind) (conditionId assetId : Option String)
    (amount : Decimal) : ReconstructionState :=
  { state with
    activity := state.activity ++
      [⟨log.identity.transactionHash, log.identity.blockNumber, kind,
        conditionId, assetId, amount⟩] }

/-- The asset, direction, size and counter amount of a fill for one of its
sides. -/
def tradeTerms (maker : Bool) (makerSide : TradeSide)
    (makerAssetId takerAssetId : String) (makerAmount takerAmount : Decimal) :
    String × TradeSide × Decimal × Decimal :=
  match maker, makerSide with
  | true, .buy => (takerAssetId, .buy, takerAmount, makerAmount)
  | true, .sell => (makerAssetId, .sell, makerAmount, takerAmount)
  | false, .buy => (takerAssetId, .sell, takerAmount, makerAmount)
  | false, .sell => (makerAssetId, .buy, makerAmount, takerAmount)

def applyTrade (state : ReconstructionState) (log : CanonicalChainLog)
    (maker : Address) (makerAssetId takerAssetId : String)
    (makerSide : TradeSide) (makerAmount takerAmount fee : Decimal) :
    ReconstructionState :=
  let isMaker : Bool := maker = state.wallet
  let terms := tradeTerms isMaker makerSide makerAssetId takerAssetId
    makerAmount takerAmount
  let traded : ReconstructionState :=
    { state with
      trades := state.trades ++
        [⟨log.identity.transactionHash, log.identity.blockNumber, terms.1,
          isMaker, terms.2.1, terms.2.2.1, terms.2.2.2, fee⟩] }
  traded.pushActivity log .trade none (some terms.1) terms.2.2.1

def applyEvent (state : ReconstructionState) (log : CanonicalChainLog) :
    ReconstructionState :=
  match log.event with
  | .collateralTransfer sender recipient amount =>
      state.applyCollateral sender recipient amount
  | .outcomeTransferSingle sender recipient assetId amount =>
      state.applyPosition sender recipient assetId amount
  | .outcomeTransferBatch sender recipient transfers =>
      transfers.foldl (fun state transfer =>
        state.applyPosition sender recipient transfer.assetId transfer.amount)
        state
  | .positionSplit stakeholder conditionId amount =>
      if stakeholder = state.wallet then
        state.pushActivity log .split (some conditionId) none amount
      else
        state
  | .positionsMerge stakeholder conditionId amount =>
      if stakeholder = state.wallet then
        state.pushActivity log .merge (some conditionId) none amount
      else
        state
  | .payoutRedemption redeemer conditionId payout =>
      if redeemer = state.wallet then
        { state with
          settledCollateral := state.settledCollateral + payout
        }.pushActivity log .redemption (some conditionId) none payout
      else
        state
  | .orderFilled maker taker makerAssetId takerAssetId makerSide makerAmount
      takerAmount fee =>
      if maker = state.wallet ∨ taker = state.wallet then
        state.applyTrade log maker makerAssetId takerAssetId makerSide
          makerAmount takerAmount fee
      else
        state
  | .ordersMatched trader assetId amount =>
      if trader = state.wallet then
        state.pushActivity log .match_ none (some assetId) amount
      else
        state
  | .feeCharged payer _ amount =>
      if payer = state.wallet then
        state.pushActivity log .fee none none amount
      else
        state

def apply (state : ReconstructionState) (log : CanonicalChainLog) :
    ReconstructionState :=
  { state with
    canonicalTip := some
      ⟨log.identity.chainId, log.identity.blockNumber, log.identity.blockHash⟩
  }.applyEvent log

/-- The snapshot: positions in ascending order of their asset, without the
empty ones. -/
def finish (state : ReconstructionState) : WalletSnapshot where
  wallet := state.wallet
  canonicalTip := state.canonicalTip
  collateralBalance := state.collateralBalance
  positions :=
    ((Table.orderBy (fun left right : Sigma fun _ : String => Decimal =>
        compare left.1 right.1) state.positions.entries).filter
      fun entry => entry.2 ≠ 0).map fun entry => ⟨entry.1, entry.2⟩
  settledCollateral := state.settledCollateral
  trades := state.trades
  activity := state.activity

end ReconstructionState

namespace WalletQuery

def inBounds (fromBlock toBlock : Option Nat) (height : Nat) : Bool :=
  fromBlock.all (· ≤ height) && toBlock.all (height ≤ ·)

/-- `in_range`. -/
def inRange (query : WalletQuery) (log : CanonicalChainLog) : Bool :=
  inBounds query.fromBlock query.toBlock log.identity.blockNumber

def fits (query : WalletQuery) : Bool :=
  query.fromBlock.all fitsColumn && query.toBlock.all fitsColumn

end WalletQuery

/-- The loop of `reconstruct_wallet`. -/
def reconstructLogs (query : WalletQuery) :
    ReconstructionState → List CanonicalChainLog → ReconstructionState
  | state, [] => state
  | state, log :: rest =>
      if query.inRange log then
        reconstructLogs query (state.apply log) rest
      else
        reconstructLogs query state rest

/-- `rebuild_wallet`. -/
def rebuildWallet (query : WalletQuery) (logs : List CanonicalChainLog) :
    WalletSnapshot :=
  (reconstructLogs query (.new query.wallet) logs).finish

theorem reconstructLogs_filter
    (query : WalletQuery) (state : ReconstructionState)
    (logs : List CanonicalChainLog) :
    reconstructLogs query state (logs.filter query.inRange) =
      reconstructLogs query state logs := by
  induction logs generalizing state with
  | nil =>
      rfl
  | cons log rest ih =>
      by_cases inside : query.inRange log = true
      · rw [List.filter_cons_of_pos inside, reconstructLogs, if_pos inside,
          reconstructLogs, if_pos inside]
        exact ih (state.apply log)
      · rw [List.filter_cons_of_neg inside, reconstructLogs, if_neg inside]
        exact ih state

theorem rebuildWallet_filter
    (query : WalletQuery) (logs : List CanonicalChainLog) :
    rebuildWallet query (logs.filter query.inRange) =
      rebuildWallet query logs := by
  rw [rebuildWallet, rebuildWallet, reconstructLogs_filter]

/-- The errors of `wallet_snapshot`. -/
inductive WalletError where
  | limitTooLarge
  | canonicalLogDecode (message : String)
  deriving DecidableEq

namespace CanonicalLogRow

/-- `decode_log`.  The text of a JSON error is that of the library. -/
def decode (text : ChainText) (row : CanonicalLogRow) :
    Except WalletError CanonicalChainLog :=
  match Address.new row.contractAddress with
  | none =>
      .error (.canonicalLogDecode ("invalid stored contract address " ++
        row.contractAddress ++
        ": address must be a 0x-prefixed 20-byte hex value"))
  | some contractAddress =>
      match text.readEvent row.eventJson with
      | none => .error (.canonicalLogDecode (text.eventError row.eventJson))
      | some event =>
          .ok ⟨⟨.polygon, row.blockNumber, row.blockHash, row.transactionHash,
            row.transactionIndex, row.logIndex⟩, contractAddress, event⟩

end CanonicalLogRow

/-- The loop of `wallet_snapshot`. -/
def decodeRows (text : ChainText) :
    List CanonicalLogRow → Except WalletError (List CanonicalChainLog)
  | [] => .ok []
  | row :: rest =>
      match row.decode text with
      | .error error => .error error
      | .ok log => (decodeRows text rest).map (log :: ·)

namespace ChainTables

/-- `READ_CANONICAL_LOGS`. -/
def readCanonicalLogs (tables : ChainTables) (chainId : Nat)
    (fromBlock toBlock : Option Nat) : List CanonicalLogRow :=
  Table.orderBy (fun left right : CanonicalLogRow =>
      LogPosition.cmp left.position right.position)
    ((tables.chainRows chainId).filter fun row =>
      WalletQuery.inBounds fromBlock toBlock row.blockNumber)

/-- `wallet_snapshot`. -/
def walletSnapshot (text : ChainText) (tables : ChainTables)
    (query : WalletQuery) : Except WalletError WalletSnapshot :=
  if query.fits = false then
    .error .limitTooLarge
  else
    match decodeRows text
        (tables.readCanonicalLogs ContractRegistry.polygon.chainId.get
          query.fromBlock query.toBlock) with
    | .error error => .error error
    | .ok logs => .ok (rebuildWallet query logs)

end ChainTables

end Pmkit
