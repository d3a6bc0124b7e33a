import Pmkit.Library.Allocation
import Pmkit.Sim.Engine

/-!
# The best execution of a taker

`walk_book` is the greedy allocation over the levels of one side, with the
prices of the bids counted negatively.  From a best-first side it takes as
much as the limit allows at the best total price.
-/

namespace Pmkit

open MachineInt

/-- A price as a taker ranks it: a buyer prefers the lower, a seller the
higher. -/
def ranked (isBuy : Bool) (price : Decimal) : Decimal :=
  if isBuy then price else -price

def rankedLevels (isBuy : Bool) (levels : List (Decimal × Decimal)) :
    List (Decimal × Decimal) :=
  levels.map fun level => (ranked isBuy level.1, level.2)

def WithinLimit (isBuy : Bool) (limitPrice price : Decimal) : Prop :=
  if isBuy then price ≤ limitPrice else limitPrice ≤ price

/-- Best-first levels with positive prices and quantities. -/
structure BestFirst (isBuy : Bool) (levels : List (Decimal × Decimal)) :
    Prop where
  sorted : levels.Pairwise fun left right =>
    if isBuy then left.1 ≤ right.1 else right.1 ≤ left.1
  positive : ∀ level ∈ levels, 0 < level.1 ∧ 0 < level.2

def Takes (isBuy : Bool) (limitPrice : Decimal)
    (levels : List (Decimal × Decimal)) (takes : List Decimal) : Prop :=
  List.Forall₂ (fun level take => 0 ≤ take ∧ take ≤ level.2 ∧
    (take ≠ 0 → WithinLimit isBuy limitPrice level.1)) levels takes

def takeable (isBuy : Bool) (limitPrice : Decimal)
    (levels : List (Decimal × Decimal)) : Set Decimal :=
  {total | ∃ takes, Takes isBuy limitPrice levels takes ∧ takes.sum = total}

def payments (isBuy : Bool) (limitPrice : Decimal)
    (levels : List (Decimal × Decimal)) (total : Decimal) : Set Decimal :=
  {paid | ∃ takes, Takes isBuy limitPrice levels takes ∧ takes.sum = total ∧
    Allocation.cost levels takes = paid}

variable {isBuy : Bool} {limitPrice : Decimal}
  {levels : List (Decimal × Decimal)}

theorem ranked_le_iff {price : Decimal} :
    ranked isBuy price ≤ ranked isBuy limitPrice ↔
      WithinLimit isBuy limitPrice price := by
  cases isBuy with
  | true => exact Iff.rfl
  | false => exact neg_le_neg_iff

theorem takes_iff_fits {takes : List Decimal} :
    Takes isBuy limitPrice levels takes ↔
      Allocation.Fits (ranked isBuy limitPrice) (rankedLevels isBuy levels)
        takes := by
  unfold Takes Allocation.Fits rankedLevels
  rw [List.forall₂_map_left_iff]
  simp only [ranked_le_iff]

theorem cost_rankedLevels (isBuy : Bool) (levels : List (Decimal × Decimal))
    (takes : List Decimal) :
    Allocation.cost (rankedLevels isBuy levels) takes =
      ranked isBuy (Allocation.cost levels takes) := by
  induction levels generalizing takes with
  | nil =>
      cases isBuy with
      | true => rfl
      | false => simp [rankedLevels, ranked, Allocation.cost]
  | cons level rest ih =>
      cases takes with
      | nil =>
          cases isBuy with
          | true => rfl
          | false => simp [rankedLevels, ranked, Allocation.cost]
      | cons take others =>
          have later := ih others
          simp only [rankedLevels, List.map_cons, Allocation.cost] at later ⊢
          rw [later]
          cases isBuy with
          | true => rfl
          | false =>
              simp only [ranked, Bool.false_eq_true, if_false]
              ring

namespace BestFirst

variable {isBuy : Bool} {levels : List (Decimal × Decimal)}

theorem ascending (bestFirst : BestFirst isBuy levels) :
    (rankedLevels isBuy levels).Pairwise fun left right =>
      left.1 ≤ right.1 := by
  rw [rankedLevels, List.pairwise_map]
  apply bestFirst.sorted.imp
  intro left right ordered
  cases isBuy with
  | true => exact ordered
  | false => exact neg_le_neg ordered

theorem capacity (bestFirst : BestFirst isBuy levels) :
    ∀ level ∈ rankedLevels isBuy levels, 0 ≤ level.2 := by
  intro level mem
  obtain ⟨source, listed, rfl⟩ := List.mem_map.mp mem
  exact (bestFirst.positive source listed).2.le

end BestFirst

/-- What `walk_book` takes of each level. -/
def walkTakes (levels : List (Decimal × Decimal))
    (remaining limitPrice : Decimal) (isBuy : Bool) : List Decimal :=
  Allocation.greedy (ranked isBuy limitPrice) (rankedLevels isBuy levels)
    remaining

theorem walkBookLoop_eq (limitPrice : Decimal) (isBuy : Bool)
    (levels : List (Decimal × Decimal))
    (remaining totalCost totalQty : Decimal) :
    walkBookLoop limitPrice isBuy levels remaining totalCost totalQty =
      (totalCost + Allocation.cost levels
          (walkTakes levels remaining limitPrice isBuy),
        totalQty + (walkTakes levels remaining limitPrice isBuy).sum) := by
  induction levels generalizing remaining totalCost totalQty with
  | nil =>
      simp [walkBookLoop, walkTakes, rankedLevels, Allocation.greedy,
        Allocation.cost]
  | cons level rest ih =>
      obtain ⟨price, qty⟩ := level
      have beyond : ranked isBuy limitPrice < ranked isBuy price ↔
          (isBuy && decide (price > limitPrice)) = true ∨
            (!isBuy && decide (price < limitPrice)) = true := by
        cases isBuy with
        | true => simp [ranked]
        | false => simp [ranked]
      have takes : walkTakes ((price, qty) :: rest) remaining limitPrice isBuy =
          Allocation.greedy (ranked isBuy limitPrice)
            ((ranked isBuy price, qty) :: rankedLevels isBuy rest)
            remaining := rfl
      rw [takes, walkBookLoop]
      rcases Allocation.greedy_cons (ranked isBuy limitPrice)
          (ranked isBuy price, qty) (rankedLevels isBuy rest) remaining with
        ⟨stop, stops⟩ | ⟨positive, within, goes⟩
      · have nothing : Allocation.nothing
            ((ranked isBuy price, qty) :: rankedLevels isBuy rest) =
            Allocation.nothing ((price, qty) :: rest) := by
          simp only [Allocation.nothing, rankedLevels, List.map_cons,
            List.map_map, Function.comp_def]
        rw [stops, nothing, Allocation.cost_nothing, Allocation.sum_nothing,
          add_zero, add_zero]
        rcases stop with none | far
        · rw [if_pos none]
        · split
          · rfl
          · rcases beyond.mp far with above | below
            · rw [if_pos above]
            · rw [if_pos below, ite_self]
      · have near : ¬ ranked isBuy limitPrice < ranked isBuy price :=
          not_lt.mpr within
        rw [beyond, not_or] at near
        rw [goes, if_neg (not_le.mpr positive), if_neg near.1, if_neg near.2,
          ih, Allocation.cost, List.sum_cons]
        simp only [walkTakes, add_assoc]

theorem walkBook_eq
    (levels : List (Decimal × Decimal)) (remaining limitPrice : Decimal)
    (isBuy : Bool) :
    walkBook levels remaining limitPrice isBuy =
      if 0 < (walkTakes levels remaining limitPrice isBuy).sum then
        some
          (Allocation.cost levels
              (walkTakes levels remaining limitPrice isBuy) /
            (walkTakes levels remaining limitPrice isBuy).sum,
            (walkTakes levels remaining limitPrice isBuy).sum)
      else
        none := by
  simp only [walkBook, walkBookLoop_eq, zero_add, gt_iff_lt]

theorem mem_payments {total paid : Decimal} :
    paid ∈ payments isBuy limitPrice levels total ↔
      ranked isBuy paid ∈ Allocation.costs (ranked isBuy limitPrice)
        (rankedLevels isBuy levels) total := by
  simp only [payments, Allocation.costs, Set.mem_ofPred_eq, takes_iff_fits,
    cost_rankedLevels]
  cases isBuy with
  | true => exact Iff.rfl
  | false => simp [ranked]

section Optimum

variable {isBuy : Bool} {levels : List (Decimal × Decimal)}
  {limitPrice qty : Decimal}

theorem BestFirst.sum_walkTakes
    (bestFirst : BestFirst isBuy levels) (asked : 0 < qty) :
    (walkTakes levels qty limitPrice isBuy).sum =
      min qty (Allocation.depth (ranked isBuy limitPrice)
        (rankedLevels isBuy levels)) :=
  Allocation.sum_greedy bestFirst.ascending bestFirst.capacity asked.le

theorem BestFirst.takeable_isGreatest (bestFirst : BestFirst isBuy levels) :
    IsGreatest (takeable isBuy limitPrice levels)
      (Allocation.depth (ranked isBuy limitPrice)
        (rankedLevels isBuy levels)) := by
  have greatest : IsGreatest
      (Allocation.totals (ranked isBuy limitPrice) (rankedLevels isBuy levels))
      (Allocation.depth (ranked isBuy limitPrice)
        (rankedLevels isBuy levels)) :=
    Allocation.depth_isGreatest bestFirst.ascending bestFirst.capacity
  have same : takeable isBuy limitPrice levels =
      Allocation.totals (ranked isBuy limitPrice)
        (rankedLevels isBuy levels) := by
    simp only [takeable, Allocation.totals, takes_iff_fits]
  rw [same]
  exact greatest

/-- The walk pays the least total price, or is paid the greatest. -/
theorem BestFirst.payments_best (bestFirst : BestFirst isBuy levels) :
    (isBuy = true → IsLeast (payments isBuy limitPrice levels
        (walkTakes levels qty limitPrice isBuy).sum)
      (Allocation.cost levels (walkTakes levels qty limitPrice isBuy))) ∧
    (isBuy = false → IsGreatest (payments isBuy limitPrice levels
        (walkTakes levels qty limitPrice isBuy).sum) (Allocation.cost levels
        (walkTakes levels qty limitPrice isBuy))) := by
  have least : IsLeast
      (Allocation.costs (ranked isBuy limitPrice) (rankedLevels isBuy levels)
        (walkTakes levels qty limitPrice isBuy).sum)
      (Allocation.cost (rankedLevels isBuy levels)
        (walkTakes levels qty limitPrice isBuy)) :=
    Allocation.greedy_isLeast bestFirst.ascending bestFirst.capacity qty
  rw [cost_rankedLevels] at least
  have own : Allocation.cost levels (walkTakes levels qty limitPrice isBuy) ∈
      payments isBuy limitPrice levels
        (walkTakes levels qty limitPrice isBuy).sum := by
    rw [mem_payments]
    exact least.1
  constructor
  · rintro rfl
    exact ⟨own, fun paid mem => least.2 (mem_payments.mp mem)⟩
  · rintro rfl
    exact ⟨own, fun paid mem =>
      neg_le_neg_iff.mp (least.2 (mem_payments.mp mem))⟩

theorem BestFirst.vwap_bounds
    (bestFirst : BestFirst isBuy levels) {vwap filled : Decimal}
    (walked : walkBook levels qty limitPrice isBuy = some (vwap, filled)) :
    0 ≤ vwap ∧ WithinLimit isBuy limitPrice vwap := by
  rw [walkBook_eq] at walked
  split at walked
  · rename_i positive
    injection walked with pair
    injection pair with average total
    subst average total
    have fits : Allocation.Fits (ranked isBuy limitPrice)
        (rankedLevels isBuy levels)
        (walkTakes levels qty limitPrice isBuy) :=
      Allocation.greedy_fits bestFirst.capacity qty
    constructor
    · exact div_nonneg
        (Allocation.cost_nonneg
          (fun level mem => (bestFirst.positive level mem).1.le)
          fits.take_nonneg)
        positive.le
    · have bound := fits.cost_le
      rw [cost_rankedLevels] at bound
      cases isBuy with
      | true =>
          exact (div_le_iff₀ positive).mpr bound
      | false =>
          simp only [ranked, Bool.false_eq_true, if_false] at bound
          apply (le_div_iff₀ positive).mpr
          linarith
  · cases walked

end Optimum

/-! ## The taker's fill -/

def sideLevels (book : OrderBookL2) (side : Side) :
    List (Decimal × Decimal) :=
  if side = .buy then book.asks else book.bids

namespace SimEngine

def adverseShare (config : SimulationConfig) : Decimal :=
  (config.slippageBps.toNat + config.marketImpactBps.toNat : Nat) / 10000

theorem adverseShare_nonneg (config : SimulationConfig) :
    0 ≤ adverseShare config :=
  div_nonneg (Nat.cast_nonneg _) (by norm_num)

variable {fill : FillEvent Decimal}

theorem takerFill_walk
    {engine : SimEngine} {orderId : String} {order : PlaceOrder}
    {submittedMs fillMs : I64}
    (filled : engine.takerFill orderId order submittedMs fillMs = some fill) :
    ∃ book vwap,
      engine.books.lookup (order.market, order.outcome) = some book ∧
        walkBook (sideLevels book order.side) order.qty order.price
          (order.side = .buy) = some (vwap, fill.size) ∧
        fill.price =
          if order.side = .buy then
            min (vwap * (1 + adverseShare engine.config)) order.price
          else
            max (vwap * (1 - adverseShare engine.config)) order.price := by
  unfold takerFill at filled
  simp only [Option.bind_eq_bind, Option.bind_eq_some_iff] at filled
  obtain ⟨book, found, ⟨vwap, fillQty⟩, walked, fee, _, built⟩ := filled
  injection built with built
  subst built
  refine ⟨book, vwap, found, ?_⟩
  cases side : order.side with
  | buy =>
      rw [side] at walked
      exact ⟨by simpa [sideLevels] using walked, by simp [adverseShare]⟩
  | sell =>
      rw [side] at walked
      exact ⟨by simpa [sideLevels] using walked, by simp [adverseShare]⟩

def PricedBetween (side : Side) (vwap limitPrice price : Decimal) : Prop :=
  if side = .buy then
    vwap ≤ price ∧ price ≤ limitPrice
  else
    limitPrice ≤ price ∧ price ≤ vwap

theorem takerFill_between
    {engine : SimEngine} {orderId : String} {order : PlaceOrder}
    {submittedMs fillMs : I64} {book : OrderBookL2}
    (found : engine.books.lookup (order.market, order.outcome) = some book)
    (bestFirst : BestFirst (order.side = .buy) (sideLevels book order.side))
    (filled : engine.takerFill orderId order submittedMs fillMs = some fill) :
    ∃ vwap, walkBook (sideLevels book order.side) order.qty order.price
        (order.side = .buy) = some (vwap, fill.size) ∧
      PricedBetween order.side vwap order.price fill.price := by
  obtain ⟨stored, vwap, storedFound, walked, price⟩ := takerFill_walk filled
  rw [found] at storedFound
  cases storedFound
  refine ⟨vwap, walked, ?_⟩
  obtain ⟨nonnegative, within⟩ := bestFirst.vwap_bounds walked
  have moved := mul_nonneg nonnegative (adverseShare_nonneg engine.config)
  rw [price]
  unfold PricedBetween
  cases side : order.side with
  | buy =>
      have below : vwap ≤ order.price := by
        simpa [WithinLimit, side] using within
      simp only [if_true]
      exact ⟨le_min (by linarith) below, min_le_right _ _⟩
  | sell =>
      have above : order.price ≤ vwap := by
        simpa [WithinLimit, side] using within
      simp only [reduceCtorEq, if_false]
      exact ⟨le_max_right _ _, max_le (by linarith) above⟩

end SimEngine

end Pmkit
