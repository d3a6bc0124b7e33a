import Mathlib.Algebra.BigOperators.Group.Finset.Basic
import Pmkit.Live.RiskCalls

/-!
# Marks and the daily profit

Every call that changes positions or marks ends with a pass over the positions
in some order of the markets.  The pass stops at the first position without a
mark; when every open position has one it reaches them all, so that the values
it stores are current whenever the daily profit is read.
-/

namespace Pmkit

/-! ## Totals over the positions -/

def PositionsByMarket.total (positions : PositionsByMarket)
    (value : MarketId → Position → Decimal) : Decimal :=
  ∑ market ∈ positions.keySet,
    (((positions.lookup market).getD []).map (value market)).sum

namespace PositionsByMarket

variable {positions left right : PositionsByMarket}
  {value other : MarketId → Position → Decimal}

theorem total_of_subset
    {markets : Finset MarketId} (inside : positions.keySet ⊆ markets) :
    positions.total value = ∑ market ∈ markets,
      (((positions.lookup market).getD []).map (value market)).sum := by
  apply Finset.sum_subset inside
  intro market _ absent
  have none : positions.lookup market = none := by
    rw [AList.lookup_eq_none, ← KeyedMap.mem_keySet]
    exact absent
  rw [none, Option.getD_none, List.map_nil, List.sum_nil]

theorem total_congr
    (same : ∀ market, (((left.lookup market).getD []).map (value market)).sum =
        (((right.lookup market).getD []).map (other market)).sum) :
    left.total value = right.total other := by
  have inLeft : left.keySet ⊆ left.keySet ∪ right.keySet :=
    Finset.subset_union_left
  have inRight : right.keySet ⊆ left.keySet ∪ right.keySet :=
    Finset.subset_union_right
  rw [total_of_subset inLeft, total_of_subset inRight]
  exact Finset.sum_congr rfl fun market _ => same market

/-- New positions of one market replace its share of a total. -/
theorem total_insert (positions : PositionsByMarket) (market : MarketId)
    (changed : List Position) (value : MarketId → Position → Decimal) :
    PositionsByMarket.total (AList.insert market changed positions) value =
      positions.total value -
          (((positions.lookup market).getD []).map (value market)).sum +
        (changed.map (value market)).sum := by
  have grown : positions.keySet ⊆ insert market positions.keySet :=
    Finset.subset_insert _ _
  have mem := Finset.mem_insert_self market positions.keySet
  rw [total, KeyedMap.keySet_insert, total_of_subset grown,
    ← Finset.add_sum_erase _ _ mem, ← Finset.add_sum_erase _ _ mem,
    KeyedMap.lookup_insert_eq, if_pos rfl, Option.getD_some]
  have others : ∀ other ∈ (insert market positions.keySet).erase market,
      ((((AList.insert market changed positions : PositionsByMarket).lookup
        other).getD []).map (value other)).sum =
          (((positions.lookup other).getD []).map (value other)).sum := by
    intro other inside
    rw [KeyedMap.lookup_insert_eq, if_neg (Finset.ne_of_mem_erase inside)]
  rw [Finset.sum_congr rfl others]
  ring

theorem total_add :
    positions.total (fun market position =>
        value market position + other market position) =
      positions.total value + positions.total other := by
  unfold total
  rw [← Finset.sum_add_distrib]
  apply Finset.sum_congr rfl
  intro market _
  exact List.sum_map_add

theorem total_eq_entries :
    positions.total value =
      (positions.entries.map fun entry =>
        (entry.2.map (value entry.1)).sum).sum := by
  have list : (positions.entries.map fun entry =>
      (entry.2.map (value entry.1)).sum) =
      positions.keys.map fun market =>
        (((positions.lookup market).getD []).map (value market)).sum := by
    rw [AList.keys, List.keys, List.map_map]
    apply List.map_congr_left
    intro entry mem
    have found := KeyedMap.lookup_iff_mem_entries.mpr mem
    rw [Function.comp_apply, found]
    rfl
  rw [list, total, KeyedMap.keySet, List.sum_toFinset _ positions.keys_nodup]

end PositionsByMarket

namespace LiveRiskState

/-- What closed positions do not add can be left out. -/
theorem sum_openPositions
    (state : LiveRiskState) {value : MarketId → Position → Decimal}
    (closed : ∀ market position, position.qty = 0 → value market position = 0) :
    (state.openPositions.map fun position =>
        value position.1 position.2).sum =
      state.positionsByMarket.total value := by
  have kept : ∀ positions : List (MarketId × Position),
      ((positions.filter fun position => position.2.qty ≠ 0).map
          fun position => value position.1 position.2).sum =
        (positions.map fun position => value position.1 position.2).sum := by
    intro positions
    induction positions with
    | nil =>
        rfl
    | cons position rest ih =>
        rw [List.filter_cons]
        split
        · rw [List.map_cons, List.map_cons, List.sum_cons, List.sum_cons, ih]
        · rename_i isClosed
          have zero : position.2.qty = 0 := by simpa using isClosed
          rw [ih, List.map_cons, List.sum_cons, closed _ _ zero, zero_add]
  rw [openPositions, kept, List.map_flatMap, List.flatMap_def,
    List.sum_flatten, List.map_map, PositionsByMarket.total_eq_entries]
  congr 1
  apply List.map_congr_left
  intro entry _
  rw [Function.comp_apply, List.map_map]
  rfl

theorem mem_openPositions
    {state : LiveRiskState} {market : MarketId} {position : Position} :
    (market, position) ∈ state.openPositions ↔
      position ∈ state.positions market ∧ position.qty ≠ 0 := by
  rw [openPositions, List.mem_filter, List.mem_flatMap, decide_eq_true_eq,
    positions]
  apply and_congr_left
  intro _
  constructor
  · rintro ⟨entry, mem, inside⟩
    obtain ⟨held, isHeld, same⟩ := List.mem_map.mp inside
    cases same
    rw [KeyedMap.lookup_iff_mem_entries.mpr mem]
    exact isHeld
  · intro inside
    cases found : state.positionsByMarket.lookup market with
    | none =>
        rw [found] at inside
        cases inside
    | some held =>
        rw [found] at inside
        exact ⟨⟨market, held⟩, KeyedMap.lookup_iff_mem_entries.mp found,
          List.mem_map_of_mem inside⟩

end LiveRiskState

/-! ## One pass over the positions -/

def gain (marks : Marks) (market : MarketId) (position : Position) : Decimal :=
  position.qty *
    ((marks.lookup (market, position.outcome)).getD 0 - position.avgEntry)

def MarketMarked (marks : Marks) (market : MarketId)
    (positions : List Position) : Prop :=
  ∀ position ∈ positions, position.qty ≠ 0 →
    (marks.lookup (market, position.outcome)).isSome = true

section Pass

variable {marks : Marks} {market : MarketId} {positions : List Position}

theorem markMarket_of_marked (marked : MarketMarked marks market positions) :
    (markMarket marks market positions).2 =
        some ((positions.map (gain marks market)).sum) ∧
      ∀ position ∈ (markMarket marks market positions).1, position.qty ≠ 0 →
        position.unrealizedPnl = gain marks market position := by
  induction positions with
  | nil =>
      exact ⟨rfl, fun position mem => absurd mem List.not_mem_nil⟩
  | cons position rest ih =>
      obtain ⟨total, current⟩ := ih fun other mem =>
        marked other (List.mem_cons_of_mem position mem)
      rw [markMarket]
      by_cases closed : position.qty = 0
      · rw [if_pos closed]
        constructor
        · rw [List.map_cons, List.sum_cons, gain, closed, zero_mul, zero_add]
          exact total
        · intro other mem isOpen
          rcases List.mem_cons.mp mem with rfl | later
          · exact absurd closed isOpen
          · exact current other later isOpen
      · obtain ⟨mark, found⟩ := Option.isSome_iff_exists.mp
          (marked position List.mem_cons_self closed)
        rw [if_neg closed, found]
        have own : gain marks market position =
            position.qty * (mark - position.avgEntry) := by
          rw [gain, found, Option.getD_some]
        constructor
        · simp only [total, Option.map_some, List.map_cons, List.sum_cons, own]
        · intro other mem isOpen
          rcases List.mem_cons.mp mem with rfl | later
          · exact own.symm
          · exact current other later isOpen

theorem markMarket_of_unmarked
    (unmarked : ¬ MarketMarked marks market positions) :
    (markMarket marks market positions).2 = none := by
  induction positions with
  | nil =>
      exact absurd (fun position mem => absurd mem List.not_mem_nil)
        unmarked
  | cons position rest ih =>
      rw [markMarket]
      by_cases closed : position.qty = 0
      · rw [if_pos closed]
        apply ih
        intro marked
        apply unmarked
        intro other mem isOpen
        rcases List.mem_cons.mp mem with rfl | later
        · exact absurd closed isOpen
        · exact marked other later isOpen
      · rw [if_neg closed]
        cases found : marks.lookup (market, position.outcome) with
        | none => rfl
        | some mark =>
            have none : (markMarket marks market rest).2 = none := by
              apply ih
              intro marked
              apply unmarked
              intro other mem isOpen
              rcases List.mem_cons.mp mem with rfl | later
              · rw [found]
                rfl
              · exact marked other later isOpen
            simp only [none, Option.map_none]

end Pass

variable {markets : List MarketId} {market : MarketId}

/-- The markets that are not visited keep their positions. -/
theorem markMarkets_unvisited (marks : Marks)
    (unvisited : market ∉ markets) (positions : PositionsByMarket) :
    (markMarkets marks markets positions).1.lookup market =
      positions.lookup market := by
  induction markets generalizing positions with
  | nil =>
      rfl
  | cons first rest ih =>
      rw [List.mem_cons, not_or] at unvisited
      rw [markMarkets]
      simp only
      split
      · rw [KeyedMap.lookup_insert_eq, if_neg unvisited.1]
      · rw [ih unvisited.2, KeyedMap.lookup_insert_eq, if_neg unvisited.1]

theorem markMarkets_of_marked
    {marks : Marks} {markets : List MarketId} (nodup : markets.Nodup)
    {positions : PositionsByMarket}
    (marked : ∀ market ∈ markets,
      MarketMarked marks market ((positions.lookup market).getD [])) :
    (markMarkets marks markets positions).2 =
        some ((markets.map fun market =>
          (((positions.lookup market).getD []).map (gain marks market)).sum).sum) ∧
      ∀ market ∈ markets, ∀ position ∈
          ((markMarkets marks markets positions).1.lookup market).getD [],
        position.qty ≠ 0 →
          position.unrealizedPnl = gain marks market position := by
  induction markets generalizing positions with
  | nil =>
      exact ⟨rfl, fun market mem => absurd mem List.not_mem_nil⟩
  | cons first rest ih =>
      obtain ⟨apart, later⟩ := List.nodup_cons.mp nodup
      obtain ⟨own, current⟩ := markMarket_of_marked
        (marked first List.mem_cons_self)
      have others : ∀ market ∈ rest,
          (AList.insert first (markMarket marks first
            ((positions.lookup first).getD [])).1
              positions : PositionsByMarket).lookup market =
            positions.lookup market := by
        intro market mem
        rw [KeyedMap.lookup_insert_eq, if_neg]
        rintro rfl
        exact apart mem
      obtain ⟨total, visited⟩ := @ih later
        (AList.insert first (markMarket marks first
          ((positions.lookup first).getD [])).1 positions) (by
        intro market mem
        rw [others market mem]
        exact marked market (List.mem_cons_of_mem first mem))
      rw [markMarkets]
      simp only [own]
      constructor
      · rw [total, Option.map_some, List.map_cons, List.sum_cons]
        congr 3
        apply List.map_congr_left
        intro market mem
        rw [others market mem]
      · intro market mem position inside isOpen
        rcases List.mem_cons.mp mem with rfl | isRest
        · rw [markMarkets_unvisited marks apart, KeyedMap.lookup_insert_eq,
            if_pos rfl] at inside
          exact current position inside isOpen
        · exact visited market isRest position inside isOpen

/-- A pass stops at a market that is not all marked. -/
theorem markMarkets_of_unmarked {marks : Marks} (nodup : markets.Nodup)
    {positions : PositionsByMarket}
    (mem : market ∈ markets)
    (unmarked : ¬ MarketMarked marks market
      ((positions.lookup market).getD [])) :
    (markMarkets marks markets positions).2 = none := by
  induction markets generalizing positions with
  | nil =>
      cases mem
  | cons first rest ih =>
      obtain ⟨apart, later⟩ := List.nodup_cons.mp nodup
      rw [markMarkets]
      simp only
      rcases List.mem_cons.mp mem with rfl | isRest
      · rw [markMarket_of_unmarked unmarked]
      · have ne : market ≠ first := by
          rintro rfl
          exact apart isRest
        have none := @ih later
          (AList.insert first (markMarket marks first
            ((positions.lookup first).getD [])).1 positions) isRest (by
          rw [KeyedMap.lookup_insert_eq, if_neg ne]
          exact unmarked)
        split
        · rfl
        · rw [none]
          rfl

/-- What is held decides what it has made. -/
theorem gains_congr
    (marks : Marks) (market : MarketId) {left right : List Position}
    (same : left.map Position.holding = right.map Position.holding) :
    left.map (gain marks market) = right.map (gain marks market) := by
  have split : ∀ positions : List Position,
      positions.map (gain marks market) =
        (positions.map Position.holding).map fun holding =>
          holding.2.1 *
            ((marks.lookup (market, holding.1)).getD 0 - holding.2.2) := by
    intro positions
    rw [List.map_map]
    rfl
  rw [split, split, same]

theorem marketMarked_congr {marks : Marks} {left right : List Position}
    (same : left.map Position.holding = right.map Position.holding)
    (marked : MarketMarked marks market left) :
    MarketMarked marks market right := by
  intro position mem isOpen
  have listed := List.mem_map_of_mem (f := Position.holding) mem
  rw [← same] at listed
  obtain ⟨other, inside, equal⟩ := List.mem_map.mp listed
  simp only [Position.holding, Prod.mk.injEq] at equal
  rw [← equal.1]
  apply marked other inside
  rw [equal.2.1]
  exact isOpen

/-! ## The daily profit -/

namespace LiveRiskState

def AllMarked (state : LiveRiskState) : Prop :=
  ∀ position ∈ state.openPositions,
    (state.marks.lookup (position.1, position.2.outcome)).isSome = true

/-- The realized profit without the fees, and what the open positions have made
at their marks. -/
def markedPnl (state : LiveRiskState) : Decimal :=
  state.realizedPnl - state.fees + (state.openPositions.map fun position =>
    gain state.marks position.1 position.2).sum

/-- The stored values of the positions are current when all have marks. -/
def Fresh (state : LiveRiskState) : Prop :=
  state.AllMarked → ∀ position ∈ state.openPositions,
    position.2.unrealizedPnl = gain state.marks position.1 position.2

variable {state : LiveRiskState}

theorem allMarked_iff :
    state.AllMarked ↔ ∀ market,
      MarketMarked state.marks market (state.positions market) := by
  constructor
  · intro marked market position mem isOpen
    exact marked (market, position) (mem_openPositions.mpr ⟨mem, isOpen⟩)
  · rintro marked ⟨market, position⟩ mem
    obtain ⟨inside, isOpen⟩ := mem_openPositions.mp mem
    exact marked market position inside isOpen

theorem markedPnl_eq (state : LiveRiskState) :
    state.markedPnl = state.realizedPnl - state.fees +
      state.positionsByMarket.total (gain state.marks) := by
  rw [markedPnl, state.sum_openPositions]
  intro market position closed
  rw [gain, closed, zero_mul]

theorem dailyPnl_of_marked (fresh : state.Fresh) (marked : state.AllMarked) :
    state.dailyPnl = some state.markedPnl := by
  have all : (state.openPositions.all fun position =>
      (state.marks.lookup (position.1, position.2.outcome)).isSome) = true :=
    List.all_eq_true.mpr marked
  rw [dailyPnl, if_pos all, markedPnl]
  congr 3
  apply List.map_congr_left
  exact fresh marked

theorem dailyPnl_of_unmarked (unmarked : ¬ state.AllMarked) :
    state.dailyPnl = none := by
  rw [dailyPnl, if_neg]
  intro all
  exact unmarked (List.all_eq_true.mp all)

section Refresh

variable (order : IterationOrder MarketId) (limits : RiskLimits)
  (state : LiveRiskState)

theorem refreshMarks_positions (market : MarketId) :
    ((state.refreshMarks order limits).1.positions market).map
        Position.holding =
      (state.positions market).map Position.holding :=
  markMarkets_holding _ _ _ market

theorem refreshMarks_allMarked :
    (state.refreshMarks order limits).1.AllMarked ↔ state.AllMarked := by
  rw [allMarked_iff, allMarked_iff]
  constructor
  · intro marked market
    exact marketMarked_congr (state.refreshMarks_positions order limits market)
      (marked market)
  · intro marked market
    exact marketMarked_congr
      (state.refreshMarks_positions order limits market).symm (marked market)

theorem refreshMarks_markedPnl :
    (state.refreshMarks order limits).1.markedPnl = state.markedPnl := by
  rw [markedPnl_eq, markedPnl_eq]
  congr 1
  apply PositionsByMarket.total_congr
  intro market
  exact congrArg List.sum (gains_congr state.marks market
    (state.refreshMarks_positions order limits market))

theorem arranged_nodup :
    (order.arrange state.positionsByMarket.keys).Nodup :=
  (order.perm _).nodup_iff.mpr state.positionsByMarket.keys_nodup

/-- A pass over positions that all have marks leaves the marked profit and
current values. -/
theorem refreshMarks_of_marked (marked : state.AllMarked) :
    (state.refreshMarks order limits).2 = some state.markedPnl ∧
      (state.refreshMarks order limits).1.Fresh := by
  obtain ⟨total, current⟩ := @markMarkets_of_marked state.marks _
    (state.arranged_nodup order) state.positionsByMarket
    (fun market _ => allMarked_iff.mp marked market)
  constructor
  · change Option.map _ (markMarkets state.marks _ _).2 = _
    rw [total, Option.map_some, markedPnl_eq]
    congr 2
    rw [PositionsByMarket.total, KeyedMap.keySet,
      List.sum_toFinset _ state.positionsByMarket.keys_nodup]
    exact ((order.perm _).map _).sum_eq
  · rintro _ ⟨market, position⟩ mem
    obtain ⟨inside, isOpen⟩ := mem_openPositions.mp mem
    by_cases stored : market ∈ order.arrange state.positionsByMarket.keys
    · exact current market stored position inside isOpen
    · have absent : state.positionsByMarket.lookup market = none := by
        rw [AList.lookup_eq_none, AList.mem_keys,
          ← (order.perm state.positionsByMarket.keys).mem_iff]
        exact stored
      have kept := markMarkets_unvisited state.marks stored
        state.positionsByMarket
      rw [absent] at kept
      change position ∈ ((markMarkets state.marks _
        state.positionsByMarket).1.lookup market).getD [] at inside
      rw [kept] at inside
      cases inside

theorem refreshMarks_of_unmarked (unmarked : ¬ state.AllMarked) :
    (state.refreshMarks order limits).2 = none := by
  rw [allMarked_iff, not_forall] at unmarked
  obtain ⟨market, unmarked⟩ := unmarked
  have stored : market ∈ order.arrange state.positionsByMarket.keys := by
    rw [(order.perm _).mem_iff, ← AList.mem_keys]
    by_contra absent
    apply unmarked
    rw [positions, AList.lookup_eq_none.mpr absent]
    exact fun position mem => absurd mem List.not_mem_nil
  change Option.map _ (markMarkets state.marks _ _).2 = none
  rw [markMarkets_of_unmarked (state.arranged_nodup order) stored unmarked]
  rfl

theorem refreshMarks_fresh : (state.refreshMarks order limits).1.Fresh := by
  by_cases marked : state.AllMarked
  · exact (state.refreshMarks_of_marked order limits marked).2
  · intro after
    exact absurd ((state.refreshMarks_allMarked order limits).mp after) marked

/-- A pass returns the daily profit of the state it leaves. -/
theorem refreshMarks_dailyPnl :
    (state.refreshMarks order limits).2 =
      (state.refreshMarks order limits).1.dailyPnl := by
  have same := state.refreshMarks_allMarked order limits
  by_cases marked : state.AllMarked
  · rw [dailyPnl_of_marked (state.refreshMarks_fresh order limits)
      (same.mpr marked), refreshMarks_markedPnl]
    exact (state.refreshMarks_of_marked order limits marked).1
  · rw [dailyPnl_of_unmarked (mt same.mp marked)]
    exact state.refreshMarks_of_unmarked order limits marked

end Refresh

/-- The daily profit is known just when every open position has a mark, it is
then the marked profit, and an update of a book returns it. -/
structure PnlCurrent (limits : RiskLimits) (state : LiveRiskState) :
    Prop where
  isSome : state.dailyPnl.isSome = true ↔ state.AllMarked
  value : ∀ pnl, state.dailyPnl = some pnl → pnl = state.markedPnl
  returned : ∀ order market outcome book,
    (state.updateBook order limits market outcome book).2 =
      (state.updateBook order limits market outcome book).1.dailyPnl

/-- A call that updates a book, or applies a new fill or settlement, leaves a
daily profit at or below the loss limit. -/
def Breaches (limits : RiskLimits) (state : LiveRiskState) (call : RiskCall) :
    Prop :=
  (∃ changed, Change state call.action changed) ∧
    ∃ pnl, (state.step limits call).dailyPnl = some pnl ∧
      pnl ≤ -limits.maxLoss

section Step

variable {limits : RiskLimits} {state : LiveRiskState}

theorem Fresh.pnlCurrent (fresh : state.Fresh) :
    state.PnlCurrent limits where
  isSome := by
    by_cases marked : state.AllMarked
    · simp [dailyPnl_of_marked fresh marked, marked]
    · simp [dailyPnl_of_unmarked marked, marked]
  value := by
    intro pnl known
    by_cases marked : state.AllMarked
    · rw [dailyPnl_of_marked fresh marked] at known
      exact (Option.some.inj known).symm
    · rw [dailyPnl_of_unmarked marked] at known
      cases known
  returned := fun order market outcome book =>
    refreshMarks_dailyPnl order limits (state.withBook market outcome book)

theorem Fresh.step (fresh : state.Fresh) (call : RiskCall) :
    (state.step limits call).Fresh := by
  rcases step_cases limits state call with ⟨changed, _, same⟩ | ⟨_, same⟩
  · rw [same]
    exact changed.refreshMarks_fresh call.order limits
  · rw [same]
    exact fresh

theorem change_lossBreached {action : RiskAction} {changed : LiveRiskState}
    (change : Change state action changed) :
    changed.lossBreached = state.lossBreached := by
  cases change <;> rfl

/-- The latch is set by the calls that leave too large a loss. -/
theorem step_lossBreached_iff (state : LiveRiskState) (call : RiskCall) :
    (state.step limits call).lossBreached = true ↔
      state.lossBreached = true ∨ state.Breaches limits call := by
  rcases step_cases limits state call with ⟨changed, change, same⟩ |
    ⟨unchanged, same⟩
  · have latch : (changed.refreshMarks call.order limits).1.lossBreached =
        (changed.lossBreached ||
          (changed.refreshMarks call.order limits).2.any fun pnl =>
            pnl ≤ -limits.maxLoss) := rfl
    rw [Breaches, same, latch, change_lossBreached change, Bool.or_eq_true,
      refreshMarks_dailyPnl]
    apply or_congr_right
    rw [Option.any_eq_true]
    constructor
    · rintro ⟨pnl, known, large⟩
      exact ⟨⟨changed, change⟩, pnl, known, by simpa using large⟩
    · rintro ⟨_, pnl, known, large⟩
      exact ⟨pnl, known, by simpa using large⟩
  · rw [same]
    constructor
    · exact .inl
    · rintro (breached | ⟨changes, _⟩)
      · exact breached
      · exact absurd changes unchanged

end Step

theorem default_fresh : default.Fresh := by
  intro _ position mem
  cases mem

/-- In every state of a run the daily profit is current, and the latch says
whether a call left too large a loss. -/
theorem pnlCurrent_everyState (limits : RiskLimits) (calls : List RiskCall) :
    Trace.EveryState (step limits) (PnlCurrent limits) default calls ∧
      ((Trace.run (step limits) default calls).lossBreached = true ↔
        ∃ before call after, calls = before ++ call :: after ∧
          (Trace.run (step limits) default before).Breaches limits call) := by
  constructor
  · have fresh : Trace.EveryState (step limits) Fresh default calls :=
      Trace.everyState_of_invariant (fun state call fresh => fresh.step call)
        default_fresh
    exact fresh.imp fun state fresh => fresh.pnlCurrent
  · have latched := @Trace.run_latch _ _ (step limits)
      (fun state => state.lossBreached = true) (Breaches limits)
      step_lossBreached_iff default calls
    refine latched.trans ?_
    simp [default]

end LiveRiskState

end Pmkit
