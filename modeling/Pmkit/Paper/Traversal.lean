import Pmkit.Paper.Clock
import Pmkit.Paper.Reachable

/-!
# A book update under two traversals

A book update loops over two hash maps: the resting orders of the simulator
make the maker fills, and the orders of the ledger are searched for delayed
ones that should have matured.  Each loop appends an entry for each order it
finds, so its order shows as soon as two of them succeed.
-/

namespace Pmkit

open MachineInt

/-! ## The two loops over the ledger -/

namespace PaperLedger

variable {ledger : PaperLedger} {fill : FillEvent Decimal}
  {fills later : List (FillEvent Decimal)} {error : PaperLedgerError}

theorem recordFills_cons_ok (recorded : (ledger.recordFill fill).2 = .ok ()) :
    ledger.recordFills (fill :: fills) =
      (ledger.recordFill fill).1.recordFills fills := by
  rw [recordFills]
  cases result : ledger.recordFill fill with
  | mk next answer =>
      rw [result] at recorded
      cases recorded
      rfl

theorem recordFills_cons_error
    (refused : (ledger.recordFill fill).2 = .error error) :
    ledger.recordFills (fill :: fills) = ledger.recordFill fill := by
  rw [recordFills]
  cases result : ledger.recordFill fill with
  | mk next answer =>
      rw [result] at refused
      cases refused
      rfl

theorem recordFills_alike {result : PaperLedger × Except PaperLedgerError Unit}
    (refused : result.2 = .error error) (nonempty : fills ≠ [])
    (alike : ∀ fill ∈ fills, ledger.recordFill fill = result) :
    ledger.recordFills fills = result := by
  cases fills with
  | nil => exact absurd rfl nonempty
  | cons fill rest =>
      have first := alike fill List.mem_cons_self
      rw [← first] at refused
      rw [recordFills_cons_error refused, first]

theorem recordFills_append_ok
    (recorded : (ledger.recordFills fills).2 = .ok ()) :
    ledger.recordFills (fills ++ later) =
      (ledger.recordFills fills).1.recordFills later := by
  induction fills generalizing ledger with
  | nil =>
      rfl
  | cons fill rest ih =>
      cases first : (ledger.recordFill fill).2 with
      | ok done =>
          rw [recordFills_cons_ok first] at recorded ⊢
          rw [List.cons_append, recordFills_cons_ok first]
          exact ih recorded
      | error error =>
          rw [recordFills_cons_error first, first] at recorded
          cases recorded

theorem recordFills_append_error
    (refused : (ledger.recordFills fills).2 = .error error) :
    ledger.recordFills (fills ++ later) = ledger.recordFills fills := by
  induction fills generalizing ledger with
  | nil =>
      cases refused
  | cons fill rest ih =>
      cases first : (ledger.recordFill fill).2 with
      | ok done =>
          rw [recordFills_cons_ok first] at refused ⊢
          rw [List.cons_append, recordFills_cons_ok first]
          exact ih refused
      | error error =>
          rw [List.cons_append, recordFills_cons_error first,
            recordFills_cons_error first]

theorem recordFill_entries (recorded : (ledger.recordFill fill).2 = .ok ()) :
    (ledger.recordFill fill).1.entries =
      ledger.entries ++
        [ledger.nextEntry fill.timestampMs (fillEventOf fill)] := by
  have step := recordFill_step ledger fill
  generalize ledger.recordFill fill = result at step recorded
  cases step with
  | recorded tracked found matched accepted => rfl
  | unmatched error unknown => cases recorded
  | refused tracked error found matched notAccepted => cases recorded

/-- A refused fill changes nothing but the fees. -/
theorem recordFill_error (refused : (ledger.recordFill fill).2 = .error error) :
    (ledger.recordFill fill).1 =
      { ledger with
        account :=
          { ledger.account with
            fees := (ledger.recordFill fill).1.account.fees } } := by
  have step := recordFill_step ledger fill
  generalize ledger.recordFill fill = result at step refused
  cases step with
  | recorded tracked found matched accepted => cases refused
  | unmatched error unknown => rfl
  | refused tracked error found matched notAccepted => rfl

theorem recordFills_prefix
    (ledger : PaperLedger) (fills : List (FillEvent Decimal)) :
    ledger.entries <+: (ledger.recordFills fills).1.entries := by
  refine @recordFills_related
    (fun before after => before.entries <+: after.entries)
    (fun _ => List.prefix_refl _) List.IsPrefix.trans fills ?_ ledger
  intro ledger fill _
  cases first : (ledger.recordFill fill).2 with
  | ok done =>
      rw [recordFill_entries first]
      exact List.prefix_append ledger.entries _
  | error error =>
      rw [recordFill_error first]

theorem cancelEach_prefix
    (timestampMs : I64) (ledger : PaperLedger) (orderIds : List String) :
    ledger.entries <+: (ledger.cancelEach timestampMs orderIds).1.entries := by
  obtain ⟨added, entries, _⟩ := cancelEach_addsAt timestampMs ledger orderIds
  rw [entries]
  exact List.prefix_append ledger.entries added

variable {orderId : String} {tracked : TrackedOrder}

theorem cancelEach_first
    (found : ledger.orders.lookup orderId = some tracked) (timestampMs : I64)
    (rest : List String) :
    ledger.entries ++
        [ledger.nextEntry timestampMs (.orderCancelled orderId)] <+:
      (ledger.cancelEach timestampMs (orderId :: rest)).1.entries := by
  have later := cancelEach_prefix timestampMs
    ({ ledger with
      orders := ledger.orders.erase orderId : PaperLedger }.record
        (ledger.nextEntry timestampMs (.orderCancelled orderId))) rest
  rw [cancelEach, cancel_tracked found]
  exact later

/-- A recorded fill takes a delayed order and leaves the others. -/
theorem recordFill_delayed (found : ledger.orders.lookup orderId = some tracked)
    (delayed : tracked.state = .delayed)
    (recorded : (ledger.recordFill fill).2 = .ok ()) :
    (ledger.recordFill fill).1.orders.lookup orderId =
      if fill.orderId = orderId then none else some tracked := by
  have step := recordFill_step ledger fill
  generalize ledger.recordFill fill = result at step recorded
  cases step with
  | recorded other known matched accepted =>
      rw [record_orders, ordersAfterFill_lookup]
      by_cases same : fill.orderId = orderId
      · subst same
        rw [found] at known
        cases known
        simp [afterFill, delayed]
      · rw [if_neg (Ne.symm same), if_neg same, found]
  | unmatched error unknown => cases recorded
  | refused other error known matched notAccepted => cases recorded

theorem recordFills_delayed
    (found : ledger.orders.lookup orderId = some tracked)
    (delayed : tracked.state = .delayed)
    (recorded : (ledger.recordFills fills).2 = .ok ()) :
    (ledger.recordFills fills).1.orders.lookup orderId =
      if orderId ∈ fills.map FillEvent.orderId then none
      else some tracked := by
  induction fills generalizing ledger with
  | nil =>
      exact found
  | cons fill rest ih =>
      cases first : (ledger.recordFill fill).2 with
      | error error =>
          rw [recordFills_cons_error first, first] at recorded
          cases recorded
      | ok done =>
          have next := recordFill_delayed found delayed first
          rw [recordFills_cons_ok first] at recorded ⊢
          by_cases same : fill.orderId = orderId
          · rw [if_pos same] at next
            rw [if_pos (by simp [same])]
            cases after : ((ledger.recordFill fill).1.recordFills
                rest).1.orders.lookup orderId with
            | none => rfl
            | some kept =>
                obtain ⟨before, stored, _⟩ :=
                  recordFills_shrink _ rest orderId kept after
                rw [next] at stored
                cases stored
          · rw [if_neg same] at next
            rw [ih next recorded]
            simp [Ne.symm same]

/-- Cancelling passes over the orders that are not tracked. -/
theorem cancelEach_filter
    (timestampMs : I64) {orderIds : List String} (nodup : orderIds.Nodup) :
    ledger.cancelEach timestampMs orderIds =
      ledger.cancelEach timestampMs (orderIds.filter fun orderId =>
        (ledger.orders.lookup orderId).isSome) := by
  induction orderIds generalizing ledger with
  | nil =>
      rfl
  | cons orderId rest ih =>
      rw [List.nodup_cons] at nodup
      cases found : ledger.orders.lookup orderId with
      | none =>
          rw [List.filter_cons_of_neg (by simp [found]), cancelEach,
            cancel_untracked found]
          exact ih nodup.2
      | some tracked =>
          rw [List.filter_cons_of_pos (by simp [found]), cancelEach,
            cancelEach, cancel_tracked found]
          simp only
          rw [ih nodup.2]
          congr 1
          apply List.filter_congr
          intro other mem
          have ne : other ≠ orderId := by
            rintro rfl
            exact nodup.1 mem
          rw [record_orders, KeyedMap.lookup_erase_eq, if_neg ne]

end PaperLedger

namespace SimEngine

/-- The fills of an update that no traversal touches: those that wait from
before, and those of the matured takers. -/
def takerFills (engine : SimEngine) (market : MarketId) (outcome : Outcome)
    (book : OrderBookL2) : List (FillEvent Decimal) :=
  engine.pendingFills ++
    (engine.withBook market outcome book).maturedFills market outcome
      book.timestampMs
      (engine.delayed.filter (survives market outcome book.timestampMs))

def makerFills (order : IterationOrder String) (engine : SimEngine)
    (market : MarketId) (outcome : Outcome) (book : OrderBookL2) :
    List (FillEvent Decimal) :=
  (engine.crossedIds order market outcome book).filterMap fun key =>
    ((engine.resting.lookup key).filter
      (survives market outcome book.timestampMs)).bind
      (engine.makerFill book)

section Fills

variable {engine : SimEngine} {market : MarketId} {outcome : Outcome}
  {book : OrderBookL2}

theorem updateBook_pendingFills
    (wellFormed : engine.WellFormed) (order : IterationOrder String)
    (market : MarketId) (outcome : Outcome) (book : OrderBookL2) :
    (engine.updateBook order market outcome book).pendingFills =
      engine.takerFills market outcome book ++
        engine.makerFills order market outcome book := by
  obtain ⟨_, _, _, _, _, _, _, pending⟩ :=
    updateBook_spec wellFormed order market outcome book
  rw [pending, takerFills, List.append_assoc]
  rfl

theorem makerFills_perm
    (left right : IterationOrder String) (engine : SimEngine)
    (market : MarketId) (outcome : Outcome) (book : OrderBookL2) :
    (engine.makerFills left market outcome book).Perm
      (engine.makerFills right market outcome book) := by
  apply List.Perm.filterMap
  apply List.Perm.map
  exact (KeyedMap.visit_perm left right _).filter _

theorem makerFills_nodup
    (wellFormed : engine.WellFormed) (order : IterationOrder String)
    (market : MarketId) (outcome : Outcome) (book : OrderBookL2) :
    ((engine.makerFills order market outcome book).map
      FillEvent.orderId).Nodup := by
  have nodup := bookFills_nodup wellFormed order market outcome book
  unfold bookFills at nodup
  rw [List.map_append] at nodup
  exact (List.nodup_append.mp nodup).2.1

theorem makerFills_first
    (wellFormed : engine.WellFormed) {order : IterationOrder String}
    {fill : FillEvent Decimal}
    (mem : fill ∈ engine.makerFills order market outcome book) :
    ∃ key rest, engine.makerFills (.first key) market outcome book =
      fill :: rest := by
  obtain ⟨key, crossed, made⟩ := List.mem_filterMap.mp mem
  obtain ⟨resting, stored, alive, fills⟩ :=
    (mem_crossedIds wellFormed).mp crossed
  have kept : (engine.resting.retain fun _ resting =>
      survives market outcome book.timestampMs resting).lookup key =
        some resting := by
    rw [KeyedMap.lookup_retain, stored, Option.filter_some, if_pos alive]
  obtain ⟨others, visited⟩ := KeyedMap.visit_first kept
  have arranged : ∃ ids, engine.crossedIds (.first key) market outcome book =
      key :: ids := by
    unfold crossedIds
    simp only [visited, List.filter_cons, fills, if_true, List.map_cons,
      wellFormed.restingKey stored]
    exact ⟨_, rfl⟩
  obtain ⟨ids, arranged⟩ := arranged
  refine ⟨key, ids.filterMap fun key =>
    ((engine.resting.lookup key).filter
      (survives market outcome book.timestampMs)).bind
      (engine.makerFill book), ?_⟩
  unfold makerFills
  rw [arranged, List.filterMap_cons, made]

end Fills

end SimEngine

/-! ## What an update reports -/

namespace ExecutorState

structure UpdateReport where
  account : PaperAccountState
  fillCount : Nat
  entries : List PaperLedgerEntry
  result : Except ExecError Unit

def updateReport (receiverOpen : Bool)
    (fillOrder cancelOrder : IterationOrder String) (state : ExecutorState)
    (market : MarketId) (outcome : Outcome) (book : OrderBookL2) :
    UpdateReport :=
  let (next, result) := state.updateBook receiverOpen fillOrder cancelOrder
    market outcome book
  { account := next.ledger.state
    fillCount := next.ledger.fillCount
    entries := next.ledger.entries
    result := result }

def TraversalFree (state : ExecutorState) (receiverOpen : Bool)
    (market : MarketId) (outcome : Outcome) (book : OrderBookL2) : Prop :=
  ∀ fillOrder cancelOrder otherFillOrder otherCancelOrder,
    state.updateReport receiverOpen fillOrder cancelOrder market outcome
        book =
      state.updateReport receiverOpen otherFillOrder otherCancelOrder market
        outcome book

def drainedFills (state : ExecutorState) (market : MarketId)
    (outcome : Outcome) (book : OrderBookL2) : List (FillEvent Decimal) :=
  state.engine.takerFills market outcome book ++
    state.engine.makerFills (.stored String) market outcome book

/-- A delayed order that the ledger expects to mature and that gets no
fill. -/
def LeftOver (state : ExecutorState) (market : MarketId) (outcome : Outcome)
    (book : OrderBookL2) (orderId : String) : Prop :=
  (∃ tracked, state.ledger.orders.lookup orderId = some tracked ∧
    PaperLedger.maturing market outcome book.timestampMs tracked = true) ∧
  orderId ∉ (state.drainedFills market outcome book).map FillEvent.orderId

end ExecutorState

def PaperLedger.RefusesAlike (ledger : PaperLedger)
    (first second : FillEvent Decimal) : Prop :=
  (∃ error, (ledger.recordFill first).2 = .error error) ∧
    ledger.recordFill first = ledger.recordFill second

namespace ExecutorState

/-- At most one maker fill, or fills that are all refused alike; and at most
one order left over.  A refused taker fill ends the update before either. -/
structure OneEach (state : ExecutorState) (market : MarketId)
    (outcome : Outcome) (book : OrderBookL2) : Prop where
  makers : (state.ledger.recordFills
      (state.engine.takerFills market outcome book)).2 = .ok () →
    ∀ first ∈ state.engine.makerFills (.stored String) market outcome book,
    ∀ second ∈ state.engine.makerFills (.stored String) market outcome book,
      first = second ∨
        (state.ledger.recordFills
          (state.engine.takerFills market outcome book)).1.RefusesAlike
            first second
  leftOver : (state.ledger.recordFills
      (state.drainedFills market outcome book)).2 = .ok () →
    ∀ first second, state.LeftOver market outcome book first →
      state.LeftOver market outcome book second → first = second

section Update

variable {state : ExecutorState} {receiverOpen : Bool}
  {fillOrder cancelOrder : IterationOrder String} {market : MarketId}
  {outcome : Outcome} {book : OrderBookL2} {error : PaperLedgerError}

def recordedUpdate (state : ExecutorState) (fillOrder : IterationOrder String)
    (market : MarketId) (outcome : Outcome) (book : OrderBookL2) :
    PaperLedger × Except PaperLedgerError Unit :=
  state.ledger.recordFills
    (state.engine.takerFills market outcome book ++
      state.engine.makerFills fillOrder market outcome book)

theorem updateReport_error (wellFormed : state.engine.WellFormed)
    (failed : (state.recordedUpdate fillOrder market outcome book).2 =
      .error error) :
    state.updateReport receiverOpen fillOrder cancelOrder market outcome
        book =
      { account :=
          (state.recordedUpdate fillOrder market outcome book).1.state
        fillCount :=
          (state.recordedUpdate fillOrder market outcome book).1.fillCount
        entries :=
          (state.recordedUpdate fillOrder market outcome book).1.entries
        result := .error (.ledger error) } := by
  unfold recordedUpdate at failed ⊢
  unfold updateReport updateBook
  simp only [SimEngine.drainFills, SimEngine.updateBook_pendingFills wellFormed]
  revert failed
  generalize state.ledger.recordFills _ = recorded
  obtain ⟨ledger, result⟩ := recorded
  rintro rfl
  rfl

theorem updateReport_ok (wellFormed : state.engine.WellFormed)
    (recorded : (state.recordedUpdate fillOrder market outcome book).2 =
      .ok ()) {ledger : PaperLedger}
    (cancelled : ((state.recordedUpdate fillOrder market outcome
      book).1.cancelEach book.timestampMs (state.ledger.maturingDelayed
        cancelOrder market outcome book.timestampMs)).1 = ledger) :
    state.updateReport receiverOpen fillOrder cancelOrder market outcome
        book =
      { account := ledger.state
        fillCount := ledger.fillCount
        entries := ledger.entries
        result := deliver receiverOpen
          (state.engine.takerFills market outcome book ++
            state.engine.makerFills fillOrder market outcome book) } := by
  have done := (PaperLedger.cancelEach_orders book.timestampMs
    (state.recordedUpdate fillOrder market outcome book).1
    (state.ledger.maturingDelayed cancelOrder market outcome
      book.timestampMs)).1
  unfold recordedUpdate at recorded cancelled done
  unfold updateReport updateBook
  simp only [SimEngine.drainFills, SimEngine.updateBook_pendingFills wellFormed]
  revert recorded cancelled done
  generalize state.ledger.recordFills _ = result
  obtain ⟨recordedLedger, answer⟩ := result
  rintro rfl cancelled done
  simp only at cancelled done ⊢
  revert cancelled done
  generalize recordedLedger.cancelEach _ _ = swept
  obtain ⟨last, answer⟩ := swept
  rintro rfl rfl
  rfl

theorem mem_maturingDelayed
    {ledger : PaperLedger} {timestampMs : I64} {orderId : String} :
    orderId ∈ ledger.maturingDelayed cancelOrder market outcome timestampMs ↔
      ∃ tracked, ledger.orders.lookup orderId = some tracked ∧
        PaperLedger.maturing market outcome timestampMs tracked = true := by
  unfold PaperLedger.maturingDelayed
  rw [List.mem_map]
  constructor
  · rintro ⟨⟨visited, tracked⟩, mem, rfl⟩
    obtain ⟨found, mature⟩ := List.mem_filter.mp mem
    exact ⟨tracked, KeyedMap.mem_visit.mp found, mature⟩
  · rintro ⟨tracked, found, mature⟩
    exact ⟨(orderId, tracked),
      List.mem_filter.mpr ⟨KeyedMap.mem_visit.mpr found, mature⟩, rfl⟩

theorem maturingDelayed_nodup
    (ledger : PaperLedger) (order : IterationOrder String) (market : MarketId)
    (outcome : Outcome) (timestampMs : I64) :
    (ledger.maturingDelayed order market outcome timestampMs).Nodup :=
  (KeyedMap.nodup_visit_keys order ledger.orders).sublist
    (List.filter_sublist.map Prod.fst)

/-! ## One report when at most one order is found in each map -/

theorem OneEach.recordedUpdate_eq (wellFormed : state.engine.WellFormed)
    (one : state.OneEach market outcome book)
    (fillOrder : IterationOrder String) :
    state.recordedUpdate fillOrder market outcome book =
        state.ledger.recordFills (state.drainedFills market outcome book) ∧
      ((state.recordedUpdate fillOrder market outcome book).2 = .ok () →
        state.engine.makerFills fillOrder market outcome book =
          state.engine.makerFills (.stored String) market outcome book) := by
  have perm := SimEngine.makerFills_perm (.stored String) fillOrder
    state.engine market outcome book
  have nodup := List.Nodup.of_map _
    (SimEngine.makerFills_nodup wellFormed (.stored String) market outcome book)
  have makers := one.makers
  unfold recordedUpdate drainedFills
  revert perm nodup makers
  generalize state.engine.makerFills (.stored String) market outcome book =
    stored
  generalize state.engine.makerFills fillOrder market outcome book = fills
  generalize state.engine.takerFills market outcome book = takers
  intro perm nodup makers
  cases earlier : (state.ledger.recordFills takers).2 with
  | error error =>
      rw [PaperLedger.recordFills_append_error earlier,
        PaperLedger.recordFills_append_error earlier, earlier]
      exact ⟨rfl, fun ok => nomatch ok⟩
  | ok done =>
      have alike := makers earlier
      rw [PaperLedger.recordFills_append_ok earlier,
        PaperLedger.recordFills_append_ok earlier]
      by_cases single : ∀ first ∈ stored, ∀ second ∈ stored, first = second
      · rw [perm.eq_of_subsingleton nodup single]
        exact ⟨rfl, fun _ => rfl⟩
      · simp only [not_forall] at single
        obtain ⟨first, firstMem, second, secondMem, ne⟩ := single
        obtain ⟨⟨error, refused⟩, _⟩ :=
          (alike first firstMem second secondMem).resolve_left ne
        have all : ∀ fill ∈ stored,
            (state.ledger.recordFills takers).1.recordFill fill =
              (state.ledger.recordFills takers).1.recordFill first := by
          intro fill mem
          rcases alike first firstMem fill mem with rfl | same
          · rfl
          · exact same.2.symm
        have left := PaperLedger.recordFills_alike refused
          (List.ne_nil_of_mem firstMem) all
        have right := PaperLedger.recordFills_alike refused
          (List.ne_nil_of_mem (perm.mem_iff.mp firstMem))
          fun fill mem => all fill (perm.mem_iff.mpr mem)
        rw [left, right, refused]
        exact ⟨rfl, fun ok => nomatch ok⟩

theorem OneEach.cancelEach_eq (one : state.OneEach market outcome book)
    (recorded : (state.ledger.recordFills
      (state.drainedFills market outcome book)).2 = .ok ())
    (left right : IterationOrder String) :
    (state.ledger.recordFills (state.drainedFills market outcome
        book)).1.cancelEach book.timestampMs
          (state.ledger.maturingDelayed left market outcome book.timestampMs) =
      (state.ledger.recordFills (state.drainedFills market outcome
        book)).1.cancelEach book.timestampMs
          (state.ledger.maturingDelayed right market outcome
            book.timestampMs) := by
  have nodup := maturingDelayed_nodup state.ledger left market outcome
    book.timestampMs
  have perm : (state.ledger.maturingDelayed left market outcome
      book.timestampMs).Perm (state.ledger.maturingDelayed right market
        outcome book.timestampMs) :=
    ((KeyedMap.visit_perm left right _).filter _).map Prod.fst
  rw [PaperLedger.cancelEach_filter _ nodup,
    PaperLedger.cancelEach_filter _ (perm.nodup_iff.mp nodup)]
  congr 1
  apply (perm.filter _).eq_of_subsingleton (nodup.filter _)
  have leftOver : ∀ orderId ∈ (state.ledger.maturingDelayed left market
      outcome book.timestampMs).filter fun orderId =>
        ((state.ledger.recordFills (state.drainedFills market outcome
          book)).1.orders.lookup orderId).isSome,
      state.LeftOver market outcome book orderId := by
    intro orderId mem
    obtain ⟨expected, tracked⟩ := List.mem_filter.mp mem
    obtain ⟨order, found, mature⟩ := mem_maturingDelayed.mp expected
    refine ⟨⟨order, found, mature⟩, ?_⟩
    intro filled
    have delayed : order.state = .delayed := by
      simp only [PaperLedger.maturing, Bool.and_eq_true,
        decide_eq_true_eq] at mature
      exact mature.1.1.1
    rw [PaperLedger.recordFills_delayed found delayed recorded,
      if_pos filled] at tracked
    cases tracked
  intro first firstMem second secondMem
  exact one.leftOver recorded first second (leftOver first firstMem)
    (leftOver second secondMem)

theorem OneEach.traversalFree (wellFormed : state.engine.WellFormed)
    (one : state.OneEach market outcome book) :
    state.TraversalFree receiverOpen market outcome book := by
  intro fillOrder cancelOrder otherFillOrder otherCancelOrder
  obtain ⟨left, leftFills⟩ := one.recordedUpdate_eq wellFormed fillOrder
  obtain ⟨right, rightFills⟩ := one.recordedUpdate_eq wellFormed otherFillOrder
  cases recorded : (state.ledger.recordFills
      (state.drainedFills market outcome book)).2 with
  | error error =>
      rw [updateReport_error wellFormed (by rw [left]; exact recorded),
        updateReport_error wellFormed (by rw [right]; exact recorded), left,
        right]
  | ok done =>
      rw [updateReport_ok wellFormed (by rw [left]; exact recorded) rfl,
        updateReport_ok wellFormed (by rw [right]; exact recorded) rfl, left,
        right, one.cancelEach_eq recorded cancelOrder otherCancelOrder,
        leftFills (by rw [left]; exact recorded),
        rightFills (by rw [right]; exact recorded)]

/-! ## Two orders show in two reports -/

theorem extension_unique {A : Type} {base entries : List A} {left right : A}
    (leftPrefix : base ++ [left] <+: entries)
    (rightPrefix : base ++ [right] <+: entries) : left = right := by
  have shorter := List.prefix_of_prefix_length_le leftPrefix rightPrefix
    (by simp)
  have same := shorter.eq_of_length (by simp)
  exact List.singleton_inj.mp (List.append_cancel_left same)

variable {fill : FillEvent Decimal} {rest : List (FillEvent Decimal)}

/-- The fill that a traversal puts first shows in the report. -/
theorem updateReport_first
    (receiverOpen : Bool) (cancelOrder : IterationOrder String)
    (wellFormed : state.engine.WellFormed)
    (earlier : (state.ledger.recordFills
      (state.engine.takerFills market outcome book)).2 = .ok ())
    (first : state.engine.makerFills fillOrder market outcome book =
      fill :: rest)
    {taken : PaperLedger}
    (taken_eq : (state.ledger.recordFills
      (state.engine.takerFills market outcome book)).1 = taken)
    (recorded : (taken.recordFill fill).2 = .ok ()) :
    taken.entries ++
        [taken.nextEntry fill.timestampMs (PaperLedger.fillEventOf fill)] <+:
      (state.updateReport receiverOpen fillOrder cancelOrder market outcome
        book).entries := by
  have added : taken.entries ++
      [taken.nextEntry fill.timestampMs (PaperLedger.fillEventOf fill)] <+:
        (state.recordedUpdate fillOrder market outcome book).1.entries := by
    unfold recordedUpdate
    rw [PaperLedger.recordFills_append_ok earlier, taken_eq, first,
      PaperLedger.recordFills_cons_ok recorded,
      ← PaperLedger.recordFill_entries recorded]
    exact PaperLedger.recordFills_prefix _ rest
  cases result : (state.recordedUpdate fillOrder market outcome book).2 with
  | error error =>
      rw [updateReport_error wellFormed result]
      exact added
  | ok done =>
      rw [updateReport_ok wellFormed result rfl]
      exact added.trans (PaperLedger.cancelEach_prefix _ _ _)

theorem updateReport_refused
    (receiverOpen : Bool) (cancelOrder : IterationOrder String)
    (wellFormed : state.engine.WellFormed)
    (earlier : (state.ledger.recordFills
      (state.engine.takerFills market outcome book)).2 = .ok ())
    (first : state.engine.makerFills fillOrder market outcome book =
      fill :: rest)
    {taken : PaperLedger}
    (taken_eq : (state.ledger.recordFills
      (state.engine.takerFills market outcome book)).1 = taken)
    (refused : (taken.recordFill fill).2 = .error error) :
    state.updateReport receiverOpen fillOrder cancelOrder market outcome
        book =
      { account := (taken.recordFill fill).1.state
        fillCount := (taken.recordFill fill).1.fillCount
        entries := taken.entries
        result := .error (.ledger error) } := by
  have whole : state.recordedUpdate fillOrder market outcome book =
      taken.recordFill fill := by
    unfold recordedUpdate
    rw [PaperLedger.recordFills_append_ok earlier, taken_eq, first,
      PaperLedger.recordFills_cons_error refused]
  have entries : (taken.recordFill fill).1.entries = taken.entries := by
    rw [PaperLedger.recordFill_error refused]
  rw [updateReport_error wellFormed (by rw [whole]; exact refused), whole,
    entries]

theorem TraversalFree.makers (wellFormed : state.engine.WellFormed)
    (free : state.TraversalFree receiverOpen market outcome book)
    (earlier : (state.ledger.recordFills
      (state.engine.takerFills market outcome book)).2 = .ok ())
    {first second : FillEvent Decimal}
    (firstMem : first ∈
      state.engine.makerFills (.stored String) market outcome book)
    (secondMem : second ∈
      state.engine.makerFills (.stored String) market outcome book) :
    first = second ∨
      (state.ledger.recordFills
        (state.engine.takerFills market outcome book)).1.RefusesAlike
          first second := by
  obtain ⟨firstKey, firstRest, firstOrder⟩ :=
    SimEngine.makerFills_first wellFormed firstMem
  obtain ⟨secondKey, secondRest, secondOrder⟩ :=
    SimEngine.makerFills_first wellFormed secondMem
  have same := free (.first firstKey) (.stored String) (.first secondKey)
    (.stored String)
  generalize taken_eq : (state.ledger.recordFills
    (state.engine.takerFills market outcome book)).1 = taken
  cases left : (taken.recordFill first).2 with
  | ok done =>
      have leftEntries := updateReport_first receiverOpen (.stored String)
        wellFormed earlier firstOrder taken_eq left
      cases right : (taken.recordFill second).2 with
      | ok done =>
          have rightEntries := updateReport_first receiverOpen
            (.stored String) wellFormed earlier secondOrder taken_eq right
          rw [← same] at rightEntries
          have event := congrArg PaperLedgerEntry.event
            (extension_unique leftEntries rightEntries)
          injection event with orderId
          exact .inl (List.inj_on_of_nodup_map
            (SimEngine.makerFills_nodup wellFormed _ market outcome book)
            firstMem secondMem orderId)
      | error error =>
          rw [same, updateReport_refused receiverOpen (.stored String)
            wellFormed earlier secondOrder taken_eq right] at leftEntries
          have longer := leftEntries.length_le
          simp at longer
  | error error =>
      cases right : (taken.recordFill second).2 with
      | ok done =>
          have rightEntries := updateReport_first receiverOpen
            (.stored String) wellFormed earlier secondOrder taken_eq right
          rw [← same, updateReport_refused receiverOpen (.stored String)
            wellFormed earlier firstOrder taken_eq left] at rightEntries
          have longer := rightEntries.length_le
          simp at longer
      | error other =>
          rw [updateReport_refused receiverOpen (.stored String) wellFormed
              earlier firstOrder taken_eq left,
            updateReport_refused receiverOpen (.stored String) wellFormed
              earlier secondOrder taken_eq right] at same
          injection same with account _ _ result
          injection result with result
          injection result with result
          subst result
          have fees := congrArg PaperAccountState.fees account
          refine Or.inr ⟨⟨error, left⟩, Prod.ext ?_ (left.trans right.symm)⟩
          rw [PaperLedger.recordFill_error left,
            PaperLedger.recordFill_error right]
          simp only [PaperLedger.state] at fees
          rw [fees]

/-- Two orders that are left over can each be cancelled first. -/
theorem TraversalFree.leftOver (wellFormed : state.engine.WellFormed)
    (free : state.TraversalFree receiverOpen market outcome book)
    (recorded : (state.ledger.recordFills
      (state.drainedFills market outcome book)).2 = .ok ())
    {first second : String}
    (firstLeft : state.LeftOver market outcome book first)
    (secondLeft : state.LeftOver market outcome book second) :
    first = second := by
  have shows : ∀ orderId, state.LeftOver market outcome book orderId →
      (state.recordedUpdate (.stored String) market outcome book).1.entries ++
        [(state.recordedUpdate (.stored String) market outcome
          book).1.nextEntry book.timestampMs (.orderCancelled orderId)] <+:
        (state.updateReport receiverOpen (.stored String) (.first orderId)
          market outcome book).entries := by
    rintro orderId ⟨⟨tracked, found, mature⟩, unfilled⟩
    have delayed : tracked.state = .delayed := by
      simp only [PaperLedger.maturing, Bool.and_eq_true,
        decide_eq_true_eq] at mature
      exact mature.1.1.1
    have still := PaperLedger.recordFills_delayed found delayed recorded
    rw [if_neg unfilled] at still
    obtain ⟨others, visited⟩ := KeyedMap.visit_first found
    have arranged : ∃ rest, state.ledger.maturingDelayed (.first orderId)
        market outcome book.timestampMs = orderId :: rest := by
      unfold PaperLedger.maturingDelayed
      simp only [visited, List.filter_cons, mature, if_true, List.map_cons]
      exact ⟨_, rfl⟩
    obtain ⟨rest, arranged⟩ := arranged
    rw [updateReport_ok wellFormed recorded rfl, arranged]
    exact PaperLedger.cancelEach_first still book.timestampMs rest
  have firstShows := shows first firstLeft
  rw [free (.stored String) (.first first) (.stored String) (.first second)]
    at firstShows
  have event := congrArg PaperLedgerEntry.event
    (extension_unique firstShows (shows second secondLeft))
  injection event

/-- One update reports the same under all traversals exactly when it finds at
most one order in each map. -/
theorem traversalFree_iff (wellFormed : state.engine.WellFormed) :
    state.TraversalFree receiverOpen market outcome book ↔
      state.OneEach market outcome book :=
  ⟨fun free =>
    ⟨fun earlier _ firstMem _ secondMem =>
        free.makers wellFormed earlier firstMem secondMem,
      fun recorded _ _ firstLeft secondLeft =>
        free.leftOver wellFormed recorded firstLeft secondLeft⟩,
    fun one => one.traversalFree wellFormed⟩

end Update

/-- In every state of an executor, a book update reports the same under all
traversals exactly when it finds at most one order in each map. -/
theorem Reachable.traversalFree_iff_oneEach
    {state : ExecutorState} (reachable : state.Reachable)
    (receiverOpen : Bool) (market : MarketId) (outcome : Outcome)
    (book : OrderBookL2) :
    state.TraversalFree receiverOpen market outcome book ↔
      state.OneEach market outcome book :=
  traversalFree_iff reachable.wellFormed

end ExecutorState

namespace Sample

/-- A maker buys above the price at which a maker sells: each rests in the
spread of the book. -/
def makerBuy : ExecutorCall :=
  .submit true (order .buy (455 / 1000) true .gtc) 100

def makerSell : ExecutorCall :=
  .submit true (order .sell (445 / 1000) true .gtc) 100

/-- A book whose sides have moved into the spread and cross both makers. -/
def narrowBook : OrderBookL2 where
  bids := [(448 / 1000, 50)]
  asks := [(452 / 1000, 50)]
  timestampMs := 200
  lastTradePrice := none

def account (calls : List ExecutorCall) : ExecutorState :=
  Trace.run ExecutorState.step
    (.withAccountFeeConfig "paper" (config 0 none) 100) calls

theorem account_reachable (calls : List ExecutorCall) :
    (account calls).Reachable := by
  unfold account
  generalize begun : ExecutorState.withAccountFeeConfig "paper"
    (config 0 none) 100 = state
  have reachable : state.Reachable := begun ▸ .created "paper" _ 100
  clear begun
  induction calls generalizing state with
  | nil =>
      exact reachable
  | cons call rest ih =>
      exact ih _ (.called state call reachable)

end Sample

namespace ExecutorState

/-- One crossed maker fills under every traversal alike. -/
theorem makerBuy_traversalFree :
    (Sample.account [Sample.update 0, Sample.makerBuy]).TraversalFree true
      Sample.market .up Sample.narrowBook := by
  refine ((Sample.account_reachable _).traversalFree_iff_oneEach true
    Sample.market .up Sample.narrowBook).mpr ⟨?_, ?_⟩
  · obtain ⟨fill, only⟩ := List.length_eq_one_iff.mp
      (show ((Sample.account [Sample.update 0,
        Sample.makerBuy]).engine.makerFills (.stored String) Sample.market .up
          Sample.narrowBook).length = 1 by decide +kernel)
    intro _ first firstMember second secondMember
    rw [only, List.mem_singleton] at firstMember secondMember
    exact Or.inl (firstMember.trans secondMember.symm)
  · rintro _ first second ⟨expected, _⟩ _
    have none : (Sample.account [Sample.update 0,
        Sample.makerBuy]).ledger.maturingDelayed (.stored String)
          Sample.market .up Sample.narrowBook.timestampMs = [] := by
      decide +kernel
    have member := (@mem_maturingDelayed (.stored String) _ _ _ _ _).mpr
      expected
    rw [none] at member
    cases member

/-- A sell that the buy of the same update covers is filled after it, and
refused before it. -/
theorem crossedPair_not_traversalFree :
    (Sample.account [Sample.update 0, Sample.makerBuy,
        Sample.makerSell]).Reachable ∧
      ((Sample.account [Sample.update 0, Sample.makerBuy,
        Sample.makerSell]).updateReport true (.reversed String)
          (.stored String) Sample.market .up Sample.narrowBook).result =
        .ok () ∧
      ((Sample.account [Sample.update 0, Sample.makerBuy,
        Sample.makerSell]).updateReport true (.stored String)
          (.stored String) Sample.market .up Sample.narrowBook).result =
        .error (.ledger (.accounting
          (.insufficientPosition Sample.market .up 10 0))) ∧
      ¬ (Sample.account [Sample.update 0, Sample.makerBuy,
        Sample.makerSell]).TraversalFree true Sample.market .up
          Sample.narrowBook := by
  have filled : ((Sample.account [Sample.update 0, Sample.makerBuy,
      Sample.makerSell]).updateReport true (.reversed String)
        (.stored String) Sample.market .up Sample.narrowBook).result =
      .ok () := by
    decide +kernel
  have refused : ((Sample.account [Sample.update 0, Sample.makerBuy,
      Sample.makerSell]).updateReport true (.stored String)
        (.stored String) Sample.market .up Sample.narrowBook).result =
      .error (.ledger (.accounting
        (.insufficientPosition Sample.market .up 10 0))) := by
    decide +kernel
  refine ⟨Sample.account_reachable _, filled, refused, ?_⟩
  intro free
  rw [free (.reversed String) (.stored String) (.stored String)
    (.stored String), refused] at filled
  cases filled

end ExecutorState

end Pmkit
