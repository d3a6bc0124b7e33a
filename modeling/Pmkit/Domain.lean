import Mathlib.Data.Rat.Floor
import Pmkit.Library.MachineInt

/-!
# Neutral domain values

Identifiers, decimals, order books, orders and venue limits: the values that
the simulator, the paper account, the feed and the store all speak about.

Decimals are exact rationals.  Only the checked operations of the decimal
library keep its 96-bit bound, because the program reads their failure.
-/

namespace Pmkit

open MachineInt

/-- Which ownership identifier a value is. -/
inductive IdKind where
  | portfolio
  | market
  | strategy
  | run
  deriving DecidableEq, Repr

/-- The text of `EmptyIdError`. -/
def emptyIdMessage : IdKind → String
  | .portfolio => "portfolio ID cannot be empty"
  | .market => "market ID cannot be empty"
  | .strategy => "strategy ID cannot be empty"
  | .run => "run ID cannot be empty"

/-- The characters `str::trim` removes. -/
def isWhitespace (character : Char) : Bool :=
  let code := character.toNat
  (9 ≤ code && code ≤ 13) || code = 32 || code = 0x85 || code = 0xA0 ||
    code = 0x1680 || (0x2000 ≤ code && code ≤ 0x200A) || code = 0x2028 ||
    code = 0x2029 || code = 0x202F || code = 0x205F || code = 0x3000

def isBlank (value : String) : Bool :=
  value.toList.all isWhitespace

/-- An ownership identifier: a string that is not blank. -/
structure Id (kind : IdKind) where
  value : String
  notBlank : isBlank value = false
  deriving DecidableEq, Repr

namespace Id

/-- `new` of the identifier family: blank strings are refused. -/
def new (kind : IdKind) (value : String) : Except IdKind (Id kind) :=
  if notBlank : isBlank value = false then
    .ok ⟨value, notBlank⟩
  else
    .error kind

theorem value_ne_empty {kind : IdKind} (id : Id kind) : id.value ≠ "" := by
  intro empty
  have blank := id.notBlank
  rw [empty] at blank
  exact absurd blank (by decide)

theorem ext_value {kind : IdKind} {left right : Id kind}
    (same : left.value = right.value) : left = right := by
  cases left
  cases right
  cases same
  rfl

end Id

abbrev PortfolioId := Id .portfolio
abbrev MarketId := Id .market
abbrev StrategyId := Id .strategy
abbrev RunId := Id .run

/-- `str::parse` of a signed 64-bit number: a sign may stand before the
digits. -/
def parseI64 (text : List Char) : Option Int :=
  let number := fun (digits : List Char) (sign : Int) =>
    if digits ≠ [] ∧ digits.all Char.isDigit then
      let value := sign * (digits.foldl
        (fun value digit => 10 * value + (digit.toNat - '0'.toNat)) 0 : Nat)
      if -(2 ^ 63) ≤ value ∧ value < 2 ^ 63 then some value else none
    else
      none
  match text with
  | '+' :: digits => number digits 1
  | '-' :: digits => number digits (-1)
  | digits => number digits 1

/-- A decimal amount, price or quantity. -/
abbrev Decimal := ℚ

/-- An amount of USDC. -/
abbrev Money := Decimal

namespace Decimal

def maxMagnitude : Decimal :=
  2 ^ 96 - 1

/-- `Some` exactly when the magnitude is representable. -/
def checked (value : Decimal) : Option Decimal :=
  if |value| ≤ maxMagnitude then some value else none

def checkedMul (left right : Decimal) : Option Decimal :=
  checked (left * right)

def checkedSub (left right : Decimal) : Option Decimal :=
  checked (left - right)

def roundHalfEven (value : Decimal) : ℤ :=
  let below := ⌊value⌋
  let rest := value - below
  if rest < 1 / 2 then
    below
  else if 1 / 2 < rest then
    below + 1
  else if below % 2 = 0 then
    below
  else
    below + 1

/-- `round_dp`: round to a number of decimal places, ties to even. -/
def roundDp (places : Nat) (value : Decimal) : Decimal :=
  roundHalfEven (value * 10 ^ places) / 10 ^ places

/-- Whether `left` is a multiple of `right`.  A zero divisor makes the
remainder of the source panic before it changed anything; here it divides
nothing. -/
def isMultipleOf (left right : Decimal) : Bool :=
  right ≠ 0 ∧ (left / right).den = 1

end Decimal

/-! ## Books -/

/-- The two outcome tokens of a binary market. -/
inductive Outcome where
  | up
  | down
  deriving DecidableEq, Repr

namespace Outcome

/-- `Display` of an outcome. -/
def display : Outcome → String
  | .up => "UP"
  | .down => "DOWN"

/-- `Debug` of an outcome. -/
def debug : Outcome → String
  | .up => "Up"
  | .down => "Down"

def lowercase : Outcome → String
  | .up => "up"
  | .down => "down"

/-- `outcome_rank`. -/
def rank : Outcome → Nat
  | .up => 0
  | .down => 1

end Outcome

inductive Side where
  | buy
  | sell
  deriving DecidableEq, Repr

/-- Whether a fill provided or took liquidity. -/
inductive Liquidity where
  | maker
  | taker
  deriving DecidableEq, Repr

/-- A level 2 book: `(price, quantity)` levels, best first. -/
structure OrderBookL2 where
  bids : List (Decimal × Decimal)
  asks : List (Decimal × Decimal)
  timestampMs : I64
  lastTradePrice : Option Decimal
  deriving DecidableEq

namespace OrderBookL2

def bestBid (book : OrderBookL2) : Option (Decimal × Decimal) :=
  book.bids.head?

def bestAsk (book : OrderBookL2) : Option (Decimal × Decimal) :=
  book.asks.head?

/-- `empty_book`. -/
def empty (timestampMs : I64) : OrderBookL2 where
  bids := []
  asks := []
  timestampMs := timestampMs
  lastTradePrice := none

@[simp]
theorem bestBid_empty (timestampMs : I64) :
    (empty timestampMs).bestBid = none := rfl

@[simp]
theorem bestAsk_empty (timestampMs : I64) :
    (empty timestampMs).bestAsk = none := rfl

end OrderBookL2

/-- The level 2 loop of `walk_book`: what is left to fill, the cost and the
quantity so far. -/
def walkBookLoop (limitPrice : Decimal) (isBuy : Bool) :
    List (Decimal × Decimal) → Decimal → Decimal → Decimal →
      Decimal × Decimal
  | [], _, totalCost, totalQty => (totalCost, totalQty)
  | (price, qty) :: rest, remaining, totalCost, totalQty =>
      if remaining ≤ 0 then
        (totalCost, totalQty)
      else if isBuy && decide (price > limitPrice) then
        (totalCost, totalQty)
      else if !isBuy && decide (price < limitPrice) then
        (totalCost, totalQty)
      else
        let fill := min remaining qty
        walkBookLoop limitPrice isBuy rest (remaining - fill)
          (totalCost + fill * price) (totalQty + fill)

/-- Walk a best-first side up to a limit price.  Returns the volume-weighted
price and the quantity, or `none` when nothing fills. -/
def walkBook (levels : List (Decimal × Decimal)) (remaining : Decimal)
    (limitPrice : Decimal) (isBuy : Bool) : Option (Decimal × Decimal) :=
  let (totalCost, totalQty) :=
    walkBookLoop limitPrice isBuy levels remaining 0 0
  if totalQty > 0 then
    some (totalCost / totalQty, totalQty)
  else
    none

/-- What the loop has filled never exceeds what it was asked to fill. -/
theorem walkBookLoop_qty_le (limitPrice : Decimal) (isBuy : Bool)
    (levels : List (Decimal × Decimal))
    (remaining totalCost totalQty asked : Decimal)
    (bound : totalQty + remaining = asked)
    (nonnegative : 0 ≤ remaining) :
    (walkBookLoop limitPrice isBuy levels remaining totalCost totalQty).2 ≤
      asked := by
  induction levels generalizing remaining totalCost totalQty with
  | nil =>
      simp only [walkBookLoop]
      linarith
  | cons level rest ih =>
      obtain ⟨price, qty⟩ := level
      rw [walkBookLoop]
      split
      · change totalQty ≤ asked
        linarith
      · split
        · change totalQty ≤ asked
          linarith
        · split
          · change totalQty ≤ asked
            linarith
          · apply ih
            · linarith
            · have least := min_le_left remaining qty
              linarith

/-- A walk fills a positive quantity, at most the quantity asked for. -/
theorem walkBook_qty
    {levels : List (Decimal × Decimal)} {remaining limitPrice : Decimal}
    {isBuy : Bool} {vwap fillQty : Decimal}
    (filled : walkBook levels remaining limitPrice isBuy =
      some (vwap, fillQty)) :
    0 < fillQty ∧ fillQty ≤ remaining := by
  unfold walkBook at filled
  generalize totals :
    walkBookLoop limitPrice isBuy levels remaining 0 0 = result at filled
  obtain ⟨totalCost, totalQty⟩ := result
  simp only at filled
  split at filled
  · rename_i positive
    injection filled with pair
    injection pair with _ quantity
    subst quantity
    refine ⟨positive, ?_⟩
    by_cases nonnegative : 0 ≤ remaining
    · have bound := walkBookLoop_qty_le limitPrice isBuy levels remaining
        0 0 remaining (by ring) nonnegative
      rw [totals] at bound
      exact bound
    · exfalso
      have negative : remaining ≤ 0 := le_of_not_ge nonnegative
      have nothing : (walkBookLoop limitPrice isBuy levels remaining 0 0).2 = 0 := by
        cases levels with
        | nil => rfl
        | cons level rest => simp [walkBookLoop, negative]
      rw [totals] at nothing
      simp only at nothing
      rw [nothing] at positive
      exact lt_irrefl _ positive
  · cases filled

/-- How long an order stays working. -/
inductive TimeInForce where
  | gtc
  | gtd (expireAtMs : I64)
  deriving DecidableEq

structure PlaceOrder where
  market : MarketId
  outcome : Outcome
  side : Side
  price : Decimal
  qty : Decimal
  postOnly : Bool
  tif : TimeInForce
  deriving DecidableEq

inductive LimitViolation where
  | belowMinOrderSize (qty minOrderSize : Decimal)
  | offTickGrid (price tickSize : Decimal)
  deriving DecidableEq

/-- Venue limits: the minimum order size in shares and the price tick. -/
structure MarketLimits where
  minOrderSize : Decimal
  tickSize : Decimal
  deriving DecidableEq

namespace MarketLimits

def check (limits : MarketLimits) (order : PlaceOrder) :
    Except LimitViolation Unit :=
  if order.qty < limits.minOrderSize then
    .error (.belowMinOrderSize order.qty limits.minOrderSize)
  else if order.price < limits.tickSize ∨
      order.price > 1 - limits.tickSize ∨
      Decimal.isMultipleOf order.price limits.tickSize = false then
    .error (.offTickGrid order.price limits.tickSize)
  else
    .ok ()

end MarketLimits

/-- A fill on one of our orders, the payload of `MarketEvent::Fill`. -/
structure FillEvent (D : Type) where
  strategy : Option StrategyId
  orderId : String
  market : MarketId
  outcome : Outcome
  price : D
  size : D
  side : Side
  fee : D
  liquidity : Liquidity
  timestampMs : I64
  deriving DecidableEq

end Pmkit
