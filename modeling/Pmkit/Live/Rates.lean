import Mathlib.Data.List.Sort
import Pmkit.Domain
import Pmkit.Library.KeyedMap

/-!
# Order rate limits

An accepted submission is counted in a window of the portfolio and in one of
its strategy.  A window starts at its first submission and is replaced by the
first one after its end.
-/

namespace Pmkit

open MachineInt

structure OrderRateLimits where
  maxPerStrategy : Nat
  maxPerPortfolio : Nat
  windowDurationMs : I64

/-- `OrderRateLimits::default`. -/
def OrderRateLimits.default : OrderRateLimits where
  maxPerStrategy := 100
  maxPerPortfolio := 1000
  windowDurationMs := 60000

structure FixedOrderWindow where
  startedAtMs : I64
  accepted : Nat
  deriving DecidableEq

namespace FixedOrderWindow

def ended (window : FixedOrderWindow) (timestampMs durationMs : I64) : Bool :=
  I64.saturatingAdd window.startedAtMs durationMs < timestampMs

/-- `has_capacity`. -/
def hasCapacity (window : FixedOrderWindow) (timestampMs durationMs : I64)
    (maximum : Nat) : Bool :=
  window.ended timestampMs durationMs || window.accepted < maximum

def first (timestampMs : I64) : FixedOrderWindow where
  startedAtMs := timestampMs
  accepted := 1

/-- `record`.  The count is an unsigned 32-bit number and stops at its end. -/
def record (window : FixedOrderWindow) (timestampMs durationMs : I64) :
    FixedOrderWindow :=
  if window.ended timestampMs durationMs then
    first timestampMs
  else
    { window with accepted := min (window.accepted + 1) (2 ^ 32 - 1) }

def recordAt (timestampMs durationMs : I64) :
    Option FixedOrderWindow → FixedOrderWindow
  | none => first timestampMs
  | some window => window.record timestampMs durationMs

end FixedOrderWindow

structure OrderRateState where
  portfolio : Option FixedOrderWindow
  perStrategy : KeyedMap StrategyId FixedOrderWindow

namespace OrderRateState

/-- `OrderRateState::default`. -/
def default : OrderRateState where
  portfolio := none
  perStrategy := ∅

/-- `record_portfolio`. -/
def recordPortfolio (state : OrderRateState) (timestampMs durationMs : I64) :
    OrderRateState :=
  { state with
    portfolio :=
      some (FixedOrderWindow.recordAt timestampMs durationMs state.portfolio) }

/-- `record_strategy`. -/
def recordStrategy (state : OrderRateState) (strategy : StrategyId)
    (timestampMs durationMs : I64) : OrderRateState :=
  { state with
    perStrategy := AList.insert strategy
      (FixedOrderWindow.recordAt timestampMs durationMs
        (state.perStrategy.lookup strategy)) state.perStrategy }

/-- One step of `restore`. -/
def restoreOne (limits : OrderRateLimits) (state : OrderRateState)
    (accepted : Option StrategyId × I64) : OrderRateState :=
  let state := state.recordPortfolio accepted.2 limits.windowDurationMs
  match accepted.1 with
  | none => state
  | some strategy =>
      state.recordStrategy strategy accepted.2 limits.windowDurationMs

/-- `restore`: the submissions in the order of their times. -/
def restore (limits : OrderRateLimits) (state : OrderRateState)
    (accepted : List (Option StrategyId × I64)) : OrderRateState :=
  (accepted.insertionSort fun left right => left.2 ≤ right.2).foldl
    (restoreOne limits) state

/-- Whether both windows of a submission have room. -/
def hasCapacity (limits : OrderRateLimits) (state : OrderRateState)
    (strategy : StrategyId) (timestampMs : I64) : Bool :=
  (state.portfolio.all fun window =>
    window.hasCapacity timestampMs limits.windowDurationMs
      limits.maxPerPortfolio) &&
    (state.perStrategy.lookup strategy).all fun window =>
      window.hasCapacity timestampMs limits.windowDurationMs
        limits.maxPerStrategy

/-- `try_accept`. -/
def tryAccept (limits : OrderRateLimits) (state : OrderRateState)
    (strategy : StrategyId) (timestampMs : I64) : OrderRateState × Bool :=
  if state.hasCapacity limits strategy timestampMs then
    ((state.recordPortfolio timestampMs limits.windowDurationMs).recordStrategy
      strategy timestampMs limits.windowDurationMs, true)
  else
    (state, false)

structure Within (limits : OrderRateLimits) (state : OrderRateState) :
    Prop where
  portfolio : ∀ window, state.portfolio = some window →
    window.accepted ≤ limits.maxPerPortfolio
  perStrategy : ∀ strategy window,
    state.perStrategy.lookup strategy = some window →
      window.accepted ≤ limits.maxPerStrategy

end OrderRateState

end Pmkit
