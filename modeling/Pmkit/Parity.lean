import Pmkit.Conservation
import Pmkit.Live.Risk

/-!
# Two models of positions

The books of the drivers keep a signed quantity for each outcome of a market and
keep it when it is zero; the ledger of an account drops closed positions and
opens them again.  While nothing is sold that is not held they agree.
-/

namespace Pmkit

/-! ## The books -/

namespace Position

theorem find_applyFill
    (filled outcome : Outcome) (side : Side) (price quantity : Decimal)
    (positions : List Position) :
    find outcome (applyFill filled side price quantity positions) =
      if outcome = filled then
        some (((find filled positions).map fun position =>
          position.filled side price quantity).getD
            { outcome := filled
              qty := match side with
                | .buy => quantity
                | .sell => -quantity
              avgEntry := price
              unrealizedPnl := 0 })
      else
        find outcome positions := by
  unfold find
  induction positions with
  | nil =>
      unfold applyFill
      by_cases same : outcome = filled
      · subst same
        cases side with
        | buy => simp
        | sell => simp
      · simp [same, Ne.symm same]
  | cons position rest ih =>
      rw [applyFill]
      by_cases own : position.outcome = filled
      · have kept : (position.filled side price quantity).outcome = filled :=
          own
        rw [if_pos own, List.find?_cons, List.find?_cons, List.find?_cons,
          kept, own]
        by_cases same : outcome = filled
        · subst same
          simp
        · simp [same, Ne.symm same]
      · rw [if_neg own, List.find?_cons, List.find?_cons, List.find?_cons, ih]
        by_cases same : outcome = filled
        · subst same
          simp [own]
        · simp [same]

end Position

/-- `apply_fill` on the positions of the market of a fill. -/
def PositionsByMarket.applyFill (books : PositionsByMarket)
    (fill : LedgerFill) : PositionsByMarket :=
  AList.insert fill.market
    (Position.applyFill fill.outcome fill.side fill.price fill.quantity
      ((books.lookup fill.market).getD [])) books

def PositionsByMarket.position (books : PositionsByMarket) (market : MarketId)
    (outcome : Outcome) : Position :=
  (Position.find outcome ((books.lookup market).getD [])).getD
    { outcome := outcome
      qty := 0
      avgEntry := 0
      unrealizedPnl := 0 }

theorem PositionsByMarket.position_applyFill_of_ne
    (books : PositionsByMarket) (fill : LedgerFill) {market : MarketId}
    {outcome : Outcome} (other : (market, outcome) ≠ (fill.market, fill.outcome)) :
    (books.applyFill fill).position market outcome =
      books.position market outcome := by
  unfold applyFill position
  rw [KeyedMap.lookup_insert_eq]
  by_cases same : market = fill.market
  · have ne : outcome ≠ fill.outcome := by
      intro equal
      exact other (by rw [same, equal])
    rw [if_pos same, Option.getD_some, Position.find_applyFill, if_neg ne, same]
  · rw [if_neg same]

section Own

variable {books : PositionsByMarket} {fill : LedgerFill}

theorem PositionsByMarket.position_applyFill_own :
    (books.applyFill fill).position fill.market fill.outcome =
      ((Position.find fill.outcome
        ((books.lookup fill.market).getD [])).map fun position =>
          position.filled fill.side fill.price fill.quantity).getD
            { outcome := fill.outcome
              qty := match fill.side with
                | .buy => fill.quantity
                | .sell => -fill.quantity
              avgEntry := fill.price
              unrealizedPnl := 0 } := by
  unfold applyFill position
  rw [KeyedMap.lookup_insert_eq, if_pos rfl, Option.getD_some,
    Position.find_applyFill, if_pos rfl, Option.getD_some]

/-- A purchase adds to what is held and averages its entry. -/
theorem PositionsByMarket.position_buy
    (buy : fill.side = .buy) (positive : 0 < fill.quantity)
    (held : 0 ≤ (books.position fill.market fill.outcome).qty) :
    ((books.applyFill fill).position fill.market fill.outcome).qty =
        (books.position fill.market fill.outcome).qty + fill.quantity ∧
      ((books.applyFill fill).position fill.market fill.outcome).avgEntry =
        ((books.position fill.market fill.outcome).avgEntry *
            (books.position fill.market fill.outcome).qty +
          fill.price * fill.quantity) /
            ((books.position fill.market fill.outcome).qty +
              fill.quantity) := by
  rw [position_applyFill_own, buy]
  unfold position at held ⊢
  cases found : Position.find fill.outcome
      ((books.lookup fill.market).getD []) with
  | none =>
      simp [positive.ne']
  | some position =>
      rw [found] at held
      simp only [Option.getD_some] at held
      have total : 0 < position.qty + fill.quantity :=
        add_pos_of_nonneg_of_pos held positive
      simp only [Option.map_some, Option.getD_some, Position.filled,
        abs_of_nonneg held, held, positive, total, total.ne', true_or, and_self,
        if_true, if_false]

/-- A sale of what is held leaves the entry of the rest. -/
theorem PositionsByMarket.position_sell
    (sell : fill.side = .sell) (positive : 0 < fill.quantity)
    (covered : fill.quantity ≤ (books.position fill.market fill.outcome).qty) :
    ((books.applyFill fill).position fill.market fill.outcome).qty =
        (books.position fill.market fill.outcome).qty - fill.quantity ∧
      (((books.applyFill fill).position fill.market fill.outcome).qty ≠ 0 →
        ((books.applyFill fill).position fill.market fill.outcome).avgEntry =
          (books.position fill.market fill.outcome).avgEntry) := by
  rw [position_applyFill_own, sell]
  unfold position at covered ⊢
  cases found : Position.find fill.outcome
      ((books.lookup fill.market).getD []) with
  | none =>
      rw [found] at covered
      exact absurd covered (not_le.mpr positive)
  | some position =>
      rw [found] at covered
      simp only [Option.getD_some] at covered
      have long : ¬ position.qty ≤ 0 := not_le.mpr (positive.trans_le covered)
      have notGrowing : ¬ 0 < -fill.quantity := by linarith
      simp only [Option.map_some, Option.getD_some, Position.filled, long,
        notGrowing, and_false, false_and, or_self, if_false]
      refine ⟨(sub_eq_add_neg _ _).symm, ?_⟩
      intro rest
      rw [if_neg rest]

end Own

/-! ## The ledger -/

namespace PortfolioLedger

theorem find?_modifyPosition (market : MarketId) (outcome : Outcome)
    {change : LedgerPosition → LedgerPosition}
    (keeps : ∀ position, keyOf (change position) = keyOf position)
    (positions : List LedgerPosition) (other : MarketId × Outcome) :
    (modifyPosition market outcome change positions).find?
        (holds other.1 other.2) =
      if other = (market, outcome) then
        (positions.find? (holds market outcome)).map change
      else
        positions.find? (holds other.1 other.2) := by
  have same : ∀ (key : MarketId × Outcome) position, holds market outcome (change position) =
      holds market outcome position ∧
    holds key.1 key.2 (change position) = holds key.1 key.2 position := by
    intro key position
    have kept := keeps position
    simp only [keyOf, Prod.mk.injEq] at kept
    simp only [holds, kept, and_self]
  induction positions with
  | nil =>
      simp [modifyPosition]
  | cons position rest ih =>
      rw [modifyPosition]
      cases here : holds market outcome position with
      | true =>
          have key := holds_iff.mp here
          simp only [if_true, List.find?_cons, (same other position).2, here]
          by_cases equal : other = (market, outcome)
          · subst equal
            simp [here]
          · have elsewhere : holds other.1 other.2 position = false := by
              rw [Bool.eq_false_iff]
              intro found
              exact equal ((holds_iff.mp found).symm.trans key)
            simp [elsewhere, equal]
      | false =>
          simp only [Bool.false_eq_true, if_false, List.find?_cons, here, ih]
          by_cases equal : other = (market, outcome)
          · subst equal
            simp [here]
          · simp [equal]

theorem find?_filter_open {positions : List LedgerPosition}
    (distinct : (positions.map keyOf).Nodup) (market : MarketId)
    (outcome : Outcome) :
    (positions.filter fun position => position.quantity ≠ 0).find?
        (holds market outcome) =
      (positions.find? (holds market outcome)).filter fun position =>
        position.quantity ≠ 0 := by
  induction positions with
  | nil =>
      rfl
  | cons position rest ih =>
      rw [List.map_cons, List.nodup_cons] at distinct
      have later := ih distinct.2
      rw [List.filter_cons, List.find?_cons]
      cases here : holds market outcome position with
      | false =>
          split
          · rw [List.find?_cons, here]
            exact later
          · exact later
      | true =>
          split
          · rename_i kept
            rw [List.find?_cons, here]
            simp only [Option.filter, kept, if_true]
          · rename_i closed
            have absent : rest.find? (holds market outcome) = none := by
              rw [List.find?_eq_none]
              intro other mem found
              apply distinct.1
              rw [holds_iff.mp here, ← holds_iff.mp found]
              exact List.mem_map_of_mem mem
            rw [later, absent]
            simp only [Option.filter, closed]
            rfl

section Position

variable {ledger : PortfolioLedger} {market : MarketId} {outcome : Outcome}
  {quantity : Decimal}

variable {other : MarketId × Outcome}

theorem position_addPosition_of_ne (price : Decimal)
    (ne : other ≠ (market, outcome)) :
    (ledger.addPosition market outcome quantity price).position other.1
        other.2 = ledger.position other.1 other.2 := by
  unfold addPosition position
  split
  · rw [find?_modifyPosition market outcome ?_, if_neg ne]
    exact fun _ => rfl
  · have elsewhere : holds other.1 other.2
        { market := market
          outcome := outcome
          quantity := quantity
          averageEntry := price } = false := by
      rw [Bool.eq_false_iff]
      intro found
      exact ne (holds_iff.mp found).symm
    simp only [List.find?_append, List.find?_cons, elsewhere, List.find?_nil,
      Option.or_none]

theorem position_addPosition (price : Decimal) (bought : 0 < quantity) :
    ((ledger.addPosition market outcome quantity price).position market
        outcome).quantity =
      (ledger.position market outcome).quantity + quantity ∧
    ((ledger.addPosition market outcome quantity price).position market
        outcome).averageEntry =
      ((ledger.position market outcome).averageEntry *
          (ledger.position market outcome).quantity + price * quantity) /
        ((ledger.position market outcome).quantity + quantity) := by
  unfold addPosition position
  cases held : ledger.positions.find? (holds market outcome) with
  | none =>
      have absent : ledger.positions.any (holds market outcome) = false := by
        rw [List.any_eq_false]
        exact fun position mem => List.find?_eq_none.mp held position mem
      simp [absent, held, holds, bought.ne']
  | some position =>
      have present : ledger.positions.any (holds market outcome) = true := by
        rw [List.any_eq_true]
        exact ⟨position, List.mem_of_find?_eq_some held, List.find?_some held⟩
      have changed := @find?_modifyPosition market outcome
        (fun position =>
          { position with
            averageEntry := (position.averageEntry * position.quantity +
              price * quantity) / (position.quantity + quantity)
            quantity := position.quantity + quantity })
        (fun _ => rfl) ledger.positions (market, outcome)
      rw [if_pos rfl, held] at changed
      simp only [present, if_true, changed, Option.map_some, Option.getD_some,
        and_self]

variable (distinct : (ledger.positions.map keyOf).Nodup)

include distinct

theorem find?_removePosition (other : MarketId × Outcome) :
    (ledger.removePosition market outcome quantity).positions.find?
        (holds other.1 other.2) =
      (if other = (market, outcome) then
        (ledger.positions.find? (holds market outcome)).map fun position =>
          { position with quantity := position.quantity - quantity }
      else
        ledger.positions.find? (holds other.1 other.2)).filter
          fun position => position.quantity ≠ 0 := by
  have keys := modifyPosition_keys market outcome
    (fun position => { position with quantity := position.quantity - quantity })
    (fun _ => rfl) ledger.positions
  have changed := @find?_modifyPosition market outcome
    (fun position =>
      { position with quantity := position.quantity - quantity })
    (fun _ => rfl) ledger.positions other
  have afterwards : ((modifyPosition market outcome
      (fun position => { position with quantity := position.quantity - quantity })
      ledger.positions).map keyOf).Nodup := by
    rw [keys]
    exact distinct
  rw [removePosition, find?_filter_open afterwards, changed]

theorem position_removePosition_of_ne
    (positive : ∀ position ∈ ledger.positions, 0 < position.quantity)
    (ne : other ≠ (market, outcome)) :
    (ledger.removePosition market outcome quantity).position other.1 other.2 =
      ledger.position other.1 other.2 := by
  unfold position
  rw [find?_removePosition distinct, if_neg ne]
  cases held : ledger.positions.find? (holds other.1 other.2) with
  | none => rfl
  | some position =>
      have isOpen := (positive position (List.mem_of_find?_eq_some held)).ne'
      simp [Option.filter, isOpen]

theorem position_removePosition
    (covered : 0 < (ledger.position market outcome).quantity) :
    ((ledger.removePosition market outcome quantity).position market
        outcome).quantity =
      (ledger.position market outcome).quantity - quantity ∧
    (((ledger.removePosition market outcome quantity).position market
        outcome).quantity ≠ 0 →
      ((ledger.removePosition market outcome quantity).position market
          outcome).averageEntry =
        (ledger.position market outcome).averageEntry) := by
  have found := @find?_removePosition ledger market outcome quantity distinct
    (market, outcome)
  rw [if_pos rfl] at found
  unfold position at covered ⊢
  rw [found]
  cases held : ledger.positions.find? (holds market outcome) with
  | none =>
      rw [held] at covered
      exact absurd covered (lt_irrefl 0)
  | some position =>
      by_cases closed : position.quantity - quantity = 0
      · simp [Option.filter, closed]
      · simp [Option.filter, closed]

end Position

end PortfolioLedger

/-! ## Both models -/

structure PositionModels where
  books : PositionsByMarket
  ledger : PortfolioLedger

namespace PositionModels

def start (initialCash : Money) : PositionModels where
  books := ∅
  ledger := .new initialCash

def step (models : PositionModels) (fill : LedgerFill) : PositionModels where
  books := models.books.applyFill fill
  ledger := (models.ledger.applyFill fill).1

def NothingOversold (models : PositionModels) (fill : LedgerFill) : Prop :=
  0 < fill.quantity ∧
    (fill.side = .sell →
      fill.quantity ≤ (models.books.position fill.market fill.outcome).qty)

def Covered (models : PositionModels) (fill : LedgerFill) : Prop :=
  models.NothingOversold fill ∧ 0 ≤ fill.price ∧ 0 ≤ fill.fee

/-- The models hold the same of every market outcome, at the same entry. -/
structure Agree (models : PositionModels) : Prop where
  quantity : ∀ market outcome,
    (models.books.position market outcome).qty =
      (models.ledger.position market outcome).quantity
  entry : ∀ market outcome,
    (models.ledger.position market outcome).quantity ≠ 0 →
      (models.books.position market outcome).avgEntry =
        (models.ledger.position market outcome).averageEntry

theorem position_quantity_nonneg
    {ledger : PortfolioLedger} (kept : ledger.WellKept) (market : MarketId)
    (outcome : Outcome) : 0 ≤ (ledger.position market outcome).quantity := by
  unfold PortfolioLedger.position
  cases held : ledger.positions.find? (PortfolioLedger.holds market outcome) with
  | none => exact le_rfl
  | some position =>
      exact (kept.positive position (List.mem_of_find?_eq_some held)).le

theorem Covered.accepts
    {models : PositionModels} {fill : LedgerFill} (agree : models.Agree)
    (covered : models.Covered fill) : models.ledger.Accepts fill := by
  obtain ⟨⟨positive, held⟩, price, fee⟩ := covered
  refine ⟨price, positive.le, fee, ?_⟩
  intro sell
  rw [← agree.quantity]
  exact held sell

theorem Agree.step {models : PositionModels} {fill : LedgerFill}
    (kept : models.ledger.WellKept) (agree : models.Agree)
    (covered : models.Covered fill) : (models.step fill).Agree := by
  have accepted := covered.accepts agree
  have nonneg := position_quantity_nonneg kept fill.market fill.outcome
  have same := agree.quantity fill.market fill.outcome
  obtain ⟨⟨positive, held⟩, _⟩ := covered
  suffices each : ∀ market outcome,
      ((models.books.applyFill fill).position market outcome).qty =
          ((models.ledger.applyFill fill).1.position market outcome).quantity ∧
        (((models.ledger.applyFill fill).1.position market
            outcome).quantity ≠ 0 →
          ((models.books.applyFill fill).position market outcome).avgEntry =
            ((models.ledger.applyFill fill).1.position market
              outcome).averageEntry) from
    ⟨fun market outcome => (each market outcome).1,
      fun market outcome => (each market outcome).2⟩
  intro market outcome
  have positions := PortfolioLedger.applyFill_positions accepted
  have position : ∀ ledger : PortfolioLedger,
      (models.ledger.applyFill fill).1.positions = ledger.positions →
      (models.ledger.applyFill fill).1.position market outcome =
        ledger.position market outcome := by
    intro ledger same
    rw [PortfolioLedger.position, PortfolioLedger.position, same]
  by_cases own : (market, outcome) = (fill.market, fill.outcome)
  · cases own
    cases side : fill.side with
    | buy =>
        rw [if_pos side] at positions
        rw [position _ positions]
        have bought := PositionsByMarket.position_buy side positive
          (same ▸ nonneg)
        have added := @PortfolioLedger.position_addPosition models.ledger
          fill.market fill.outcome fill.quantity fill.price positive
        rw [bought.1, added.1, bought.2, added.2, same]
        refine ⟨rfl, fun _ => ?_⟩
        by_cases nothing :
            (models.ledger.position fill.market fill.outcome).quantity = 0
        · rw [nothing, mul_zero, mul_zero]
        · rw [agree.entry fill.market fill.outcome nothing]
    | sell =>
        rw [if_neg (by rw [side]; exact Side.noConfusion)] at positions
        rw [position _ positions]
        have held := held side
        have sold := PositionsByMarket.position_sell side positive held
        rw [same] at held
        have before := positive.trans_le held
        have removed := @PortfolioLedger.position_removePosition models.ledger
          fill.market fill.outcome fill.quantity kept.distinct before
        rw [same] at sold
        refine ⟨sold.1.trans removed.1.symm, ?_⟩
        intro rest
        have left := rest
        rw [removed.1, ← sold.1] at left
        rw [sold.2 left, removed.2 rest,
          agree.entry fill.market fill.outcome before.ne']
  · rw [PositionsByMarket.position_applyFill_of_ne _ _ own]
    have unchanged : (models.ledger.applyFill fill).1.position market outcome =
        models.ledger.position market outcome := by
      cases side : fill.side with
      | buy =>
          rw [if_pos side] at positions
          rw [position _ positions]
          exact PortfolioLedger.position_addPosition_of_ne fill.price own
      | sell =>
          rw [if_neg (by rw [side]; exact Side.noConfusion)] at positions
          rw [position _ positions]
          exact PortfolioLedger.position_removePosition_of_ne kept.distinct
            kept.positive own
    rw [unchanged]
    exact ⟨agree.quantity market outcome, agree.entry market outcome⟩

theorem start_agree (initialCash : Money) : (start initialCash).Agree where
  quantity := fun _ _ => rfl
  entry := fun _ _ _ => rfl

/-- The models agree in every state of a run that sells nothing that is not
held, at prices and fees that are not negative. -/
theorem agree_everyState
    (initialCash : Money) (fills : List LedgerFill)
    (covered : Trace.EveryStep step Covered (start initialCash) fills) :
    Trace.EveryState step Agree (start initialCash) fills := by
  have every : Trace.EveryState step
      (fun models => models.ledger.WellKept ∧ models.Agree)
      (start initialCash) fills := by
    refine Trace.everyState_of_everyStep ?_
      ⟨PortfolioLedger.new_wellKept initialCash, start_agree initialCash⟩
      covered
    rintro models fill ⟨kept, agree⟩ isCovered
    refine ⟨?_, agree.step kept isCovered⟩
    have opens : ¬ models.ledger.OpensEmpty (.fill fill) := by
      rintro ⟨_, _, zero, _⟩
      exact isCovered.1.1.ne' zero
    exact kept.step opens
  exact every.imp fun models both => both.2

def purchase : LedgerFill :=
  { PortfolioLedger.emptyBuy with quantity := 4 }

/-- A position that is closed and opened again. -/
theorem reopened_agree :
    Trace.EveryState step Agree (start 0)
      [purchase, { purchase with side := .sell, price := 1 / 4 },
        { purchase with price := 3 / 4 }] := by
  refine agree_everyState 0 _ ⟨?_, ?_, ?_, trivial⟩
  · exact ⟨⟨by decide +kernel, Side.noConfusion⟩, by decide +kernel,
      by decide +kernel⟩
  · exact ⟨⟨by decide +kernel, fun _ => by decide +kernel⟩, by decide +kernel,
      by decide +kernel⟩
  · exact ⟨⟨by decide +kernel, Side.noConfusion⟩, by decide +kernel,
      by decide +kernel⟩

/-- The ledger refuses a purchase with a rebate, and the books take it. -/
theorem rebate_not_agree :
    Trace.EveryStep step NothingOversold (start 0)
        [{ purchase with fee := -1 }] ∧
      ¬ Trace.EveryState step Agree (start 0) [{ purchase with fee := -1 }] := by
  constructor
  · exact ⟨⟨by decide +kernel, Side.noConfusion⟩, trivial⟩
  · intro every
    have quantity := every.2.quantity purchase.market .up
    exact absurd quantity (by decide +kernel)

end PositionModels

end Pmkit
