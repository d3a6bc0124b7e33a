import Pmkit.Paper.Executor

/-!
# Recorded entries replay to the live ledger

Whatever an executor did, replaying its recorded entries gives the live ledger
back, up to the fees: a sell that the account refuses is charged in the live
ledger and recorded nowhere.  `Recorded` is that statement as an invariant of
`append`, the only way a ledger changes.
-/

namespace Pmkit

open MachineInt

def PaperLedgerEvent.fee : PaperLedgerEvent → Money
  | .fill _ _ _ _ _ _ fee => fee
  | _ => 0

def recordedFees (entries : List PaperLedgerEntry) : Money :=
  (entries.map fun entry => entry.event.fee).sum

namespace PaperLedger

def reframe (ledger : PaperLedger) (entries pending : List PaperLedgerEntry)
    (fees : Money) : PaperLedger :=
  { ledger with
    entries := entries
    pending := pending
    account := { ledger.account with fees := fees } }

@[simp]
theorem reframe_self (ledger : PaperLedger) :
    ledger.reframe ledger.entries ledger.pending ledger.account.fees =
      ledger := rfl

/-- Applying an entry reads neither the entry lists nor the fees, and adds the
same fees from every total. -/
theorem apply_reframe
    (ledger : PaperLedger) (entries pending : List PaperLedgerEntry)
    (fees : Money) (entry : PaperLedgerEntry) :
    (ledger.reframe entries pending fees).apply entry =
      ((ledger.apply entry).1.reframe entries pending
          (fees + ((ledger.apply entry).1.account.fees - ledger.account.fees)),
        (ledger.apply entry).2) := by
  unfold apply
  cases entry.event with
  | cashMovement amount =>
      simp [reframe]
  | orderPlaced order =>
      simp only [applyPlacement, reframe]
      by_cases known : (ledger.placements.lookup entry.eventId).isSome
      · simp [known]
      · simp [known]
  | orderAck placementId orderId state activeAtMs =>
      simp only [applyAck, reframe]
      cases ledger.placements.lookup placementId with
      | none => simp
      | some placement =>
          by_cases answered : placement.terminal.isSome ∨
              placement.expectedOrderId ≠ orderId
          · simp [answered]
          · simp [answered]
  | orderRejected placementId orderId =>
      simp only [applyRejection, reframe]
      cases ledger.placements.lookup placementId with
      | none => simp
      | some placement =>
          by_cases answered : placement.terminal.isSome ∨
              placement.expectedOrderId ≠ orderId
          · simp [answered]
          · simp [answered]
  | orderCancelled orderId =>
      simp only [applyCancellation, reframe]
      cases ledger.orders.lookup orderId with
      | none => simp
      | some tracked => simp
  | fill orderId market outcome price size side fee =>
      simp only [applyFill, reframe]
      cases ledger.orders.lookup orderId with
      | none => simp
      | some tracked =>
          by_cases mismatch : fillMismatch tracked market outcome size side
          · simp [mismatch]
          · simp only [mismatch, PortfolioLedger.applyFill_withFees]
            cases result : (ledger.account.applyFill
                { market := market, outcome := outcome, side := side,
                  price := price, quantity := size, fee := fee }).2 with
            | error error => simp [PortfolioLedger.applyFill_fees]
            | ok done => simp [PortfolioLedger.applyFill_fees]
  | settlement market outcome settledSize proceeds =>
      simp only [applySettlement, reframe, PortfolioLedger.position_withFees]
      by_cases refused : settledSize ≤ 0 ∨ proceeds < 0 ∨
          (ledger.account.position market outcome).quantity ≠ settledSize
      · simp [refused]
      · simp only [refused, if_false, PortfolioLedger.settle_withFees]
        cases result : (ledger.account.settle
            { market := market, outcome := outcome,
              payoutPerShare := proceeds / settledSize }).2 with
        | error error => simp [PortfolioLedger.settle_fees]
        | ok done => simp [PortfolioLedger.settle_fees]

/-- The successful transitions of a ledger, one for each kind of event. -/
inductive Applied (ledger : PaperLedger) (eventId : String)
    (timestampMs : I64) : PaperLedgerEvent → PaperLedger → Prop
  | cashMovement (amount : Decimal) :
      Applied ledger eventId timestampMs (.cashMovement amount) ledger
  | orderPlaced (order : RecordedOrder)
      (fresh : ledger.placements.lookup eventId = none) :
      Applied ledger eventId timestampMs (.orderPlaced order)
        { ledger with
          placements := AList.insert eventId
            { order := order
              expectedOrderId := mintedId ledger.idPrefix ledger.nextOrderId
              terminal := none } ledger.placements
          nextOrderId := ledger.nextOrderId + 1 }
  | orderAck (placementId orderId : String) (state : OrderState)
      (activeAtMs : I64) (placement : Placement)
      (found : ledger.placements.lookup placementId = some placement)
      (unanswered : placement.terminal = none)
      (expected : placement.expectedOrderId = orderId) :
      Applied ledger eventId timestampMs
        (.orderAck placementId orderId state activeAtMs)
        { ledger with
          orders := AList.insert orderId
            { order := placement.order
              state := state
              submittedMs := timestampMs
              activeAtMs := activeAtMs } ledger.orders
          placements := AList.insert placementId
            { placement with terminal := some (.ack state) }
            ledger.placements }
  | orderRejected (placementId orderId : String) (placement : Placement)
      (found : ledger.placements.lookup placementId = some placement)
      (unanswered : placement.terminal = none)
      (expected : placement.expectedOrderId = orderId) :
      Applied ledger eventId timestampMs (.orderRejected placementId orderId)
        { ledger with
          placements := AList.insert placementId
            { placement with terminal := some .rejected } ledger.placements }
  | orderCancelled (orderId : String) (tracked : TrackedOrder)
      (found : ledger.orders.lookup orderId = some tracked) :
      Applied ledger eventId timestampMs (.orderCancelled orderId)
        { ledger with orders := ledger.orders.erase orderId }
  | fill (orderId : String) (market : MarketId) (outcome : Outcome)
      (price size : Decimal) (side : Side) (fee : Decimal)
      (tracked : TrackedOrder)
      (found : ledger.orders.lookup orderId = some tracked)
      (matched : fillMismatch tracked market outcome size side = false)
      (accepted : ledger.account.Accepts
        { market := market, outcome := outcome, side := side, price := price,
          quantity := size, fee := fee }) :
      Applied ledger eventId timestampMs
        (.fill orderId market outcome price size side fee)
        { ledger with
          account := (ledger.account.applyFill
            { market := market, outcome := outcome, side := side,
              price := price, quantity := size, fee := fee }).1
          orders := ordersAfterFill ledger.orders orderId tracked size
          fillCount := ledger.fillCount + 1 }
  | settlement (market : MarketId) (outcome : Outcome)
      (settledSize proceeds : Decimal)
      (positive : 0 < settledSize) (nonnegative : 0 ≤ proceeds)
      (exact : (ledger.account.position market outcome).quantity =
        settledSize) :
      Applied ledger eventId timestampMs
        (.settlement market outcome settledSize proceeds)
        { ledger with
          account := (ledger.account.settle
            { market := market, outcome := outcome,
              payoutPerShare := proceeds / settledSize }).1 }

theorem settle_accepts (ledger : PortfolioLedger) {settlement : Settlement}
    (nonnegative : 0 ≤ settlement.payoutPerShare) :
    (ledger.settle settlement).2 = .ok () := by
  simp [PortfolioLedger.settle, validateNonNegative, not_lt.mpr nonnegative]

variable {ledger : PaperLedger} {entry : PaperLedgerEntry} {eventId : String}
  {timestampMs : I64} {event : PaperLedgerEvent}
  {entries : List PaperLedgerEntry}

variable {next : PaperLedger}

theorem apply_of_applied
    (applied : Applied ledger entry.eventId entry.timestampMs entry.event next) :
    ledger.apply entry = (next, .ok ()) := by
  obtain ⟨eventId, sequence, timestampMs, event⟩ := entry
  simp only at applied
  unfold apply
  cases applied with
  | cashMovement amount =>
      rfl
  | orderPlaced order fresh =>
      simp [applyPlacement, fresh]
  | orderAck placementId orderId state activeAtMs placement found unanswered
      expected =>
      simp [applyAck, found, unanswered, expected]
  | orderRejected placementId orderId placement found unanswered expected =>
      simp [applyRejection, found, unanswered, expected]
  | orderCancelled orderId tracked found =>
      simp [applyCancellation, found]
  | fill orderId market outcome price size side fee tracked found matched
      accepted =>
      have result := PortfolioLedger.applyFill_result_iff.mpr accepted
      simp [applyFill, found, matched, result]
  | settlement market outcome settledSize proceeds positive nonnegative exact =>
      have payout : 0 ≤ ({ market := market
                           outcome := outcome
                           payoutPerShare := proceeds / settledSize } :
          Settlement).payoutPerShare :=
        div_nonneg nonnegative (le_of_lt positive)
      have accepted := settle_accepts ledger.account payout
      simp [applySettlement, not_le.mpr positive, not_lt.mpr nonnegative,
        exact, accepted]

/-- An entry succeeds, or fails and changes nothing but the fees, if its
identity is unused. -/
theorem apply_cases (ledger : PaperLedger) (entry : PaperLedgerEntry) :
    (∃ next, Applied ledger entry.eventId entry.timestampMs entry.event next) ∨
      (ledger.apply entry).2 ≠ .ok () ∧
        (ledger.placements.lookup entry.eventId = none →
          (ledger.apply entry).1 = ledger.reframe ledger.entries ledger.pending
              (ledger.apply entry).1.account.fees) := by
  obtain ⟨eventId, sequence, timestampMs, event⟩ := entry
  unfold apply
  cases event with
  | cashMovement amount =>
      exact .inl ⟨_, .cashMovement amount⟩
  | orderPlaced order =>
      cases known : ledger.placements.lookup eventId with
      | none => exact .inl ⟨_, .orderPlaced order known⟩
      | some placement =>
          exact .inr ⟨by simp [applyPlacement, known], by simp⟩
  | orderAck placementId orderId state activeAtMs =>
      simp only [applyAck]
      cases found : ledger.placements.lookup placementId with
      | none => exact .inr ⟨by simp, fun _ => rfl⟩
      | some placement =>
          by_cases answered : placement.terminal.isSome ∨
              placement.expectedOrderId ≠ orderId
          · exact .inr ⟨by simp [answered], by simp [answered, reframe]⟩
          · rw [not_or, Option.not_isSome_iff_eq_none, not_not] at answered
            exact .inl ⟨_, .orderAck placementId orderId state activeAtMs
              placement found answered.1 answered.2⟩
  | orderRejected placementId orderId =>
      simp only [applyRejection]
      cases found : ledger.placements.lookup placementId with
      | none => exact .inr ⟨by simp, fun _ => rfl⟩
      | some placement =>
          by_cases answered : placement.terminal.isSome ∨
              placement.expectedOrderId ≠ orderId
          · exact .inr ⟨by simp [answered], by simp [answered, reframe]⟩
          · rw [not_or, Option.not_isSome_iff_eq_none, not_not] at answered
            exact .inl ⟨_, .orderRejected placementId orderId placement
              found answered.1 answered.2⟩
  | orderCancelled orderId =>
      cases found : ledger.orders.lookup orderId with
      | none =>
          simp only [applyCancellation, found]
          exact .inr ⟨by simp, fun _ => rfl⟩
      | some tracked => exact .inl ⟨_, .orderCancelled orderId tracked found⟩
  | fill orderId market outcome price size side fee =>
      simp only [applyFill]
      cases found : ledger.orders.lookup orderId with
      | none => exact .inr ⟨by simp, fun _ => rfl⟩
      | some tracked =>
          cases matched : fillMismatch tracked market outcome size side with
          | true => exact .inr ⟨by simp [matched], by simp [matched, reframe]⟩
          | false =>
              by_cases accepted : ledger.account.Accepts
                  { market := market, outcome := outcome, side := side,
                    price := price, quantity := size, fee := fee }
              · exact .inl ⟨_, .fill orderId market outcome price size side
                  fee tracked found matched accepted⟩
              · have refused := accepted
                rw [← PortfolioLedger.applyFill_result_iff] at refused
                cases result : (ledger.account.applyFill
                    { market := market, outcome := outcome, side := side,
                      price := price, quantity := size, fee := fee }).2 with
                | error error =>
                    exact .inr ⟨by simp [matched], by
                      simp [matched, reframe,
                        PortfolioLedger.applyFill_refused accepted]⟩
                | ok done => exact absurd result refused
  | settlement market outcome settledSize proceeds =>
      by_cases refused : settledSize ≤ 0 ∨ proceeds < 0 ∨
          (ledger.account.position market outcome).quantity ≠ settledSize
      · simp only [applySettlement, if_pos refused]
        exact .inr ⟨by simp, fun _ => rfl⟩
      · rw [not_or, not_or, not_le, not_lt, not_not] at refused
        exact .inl ⟨_, .settlement market outcome settledSize proceeds
          refused.1 refused.2.1 refused.2.2⟩

theorem applied_of_apply (applies : (ledger.apply entry).2 = .ok ()) :
    Applied ledger entry.eventId entry.timestampMs entry.event
      (ledger.apply entry).1 := by
  rcases apply_cases ledger entry with ⟨next, applied⟩ | ⟨failed, _⟩
  · rw [apply_of_applied applied]
    exact applied
  · exact absurd applies failed

/-- What a successful entry never touches. -/
theorem Applied.frame
    (applied : Applied ledger eventId timestampMs event next) :
    next.entries = ledger.entries ∧ next.pending = ledger.pending ∧
      next.nextSequence = ledger.nextSequence ∧
      next.idPrefix = ledger.idPrefix ∧
      next.cashFunded = ledger.cashFunded := by
  cases applied <;> exact ⟨rfl, rfl, rfl, rfl, rfl⟩

/-- A successful entry charges exactly the fee it records. -/
theorem Applied.fees (applied : Applied ledger eventId timestampMs event next) :
    next.account.fees = ledger.account.fees + event.fee := by
  cases applied with
  | fill orderId market outcome price size side fee tracked found matched
      accepted =>
      have valid := PortfolioLedger.validateFill_eq_ok_iff.mpr
        ⟨accepted.1, accepted.2.1, accepted.2.2.1⟩
      simp [PortfolioLedger.applyFill_fees, PortfolioLedger.charged, valid,
        PaperLedgerEvent.fee]
  | settlement market outcome settledSize proceeds positive nonnegative exact =>
      simp [PortfolioLedger.settle_fees, PaperLedgerEvent.fee]
  | _ =>
      simp [PaperLedgerEvent.fee]

/-- Only a placement adds a key to the placements, its own event identity. -/
theorem Applied.placements_keys {key : String}
    (applied : Applied ledger eventId timestampMs event next)
    (known : (next.placements.lookup key).isSome) :
    key = eventId ∨ (ledger.placements.lookup key).isSome := by
  cases applied with
  | orderPlaced order fresh =>
      simp only [KeyedMap.lookup_insert_eq] at known
      by_cases same : key = eventId
      · exact .inl same
      · rw [if_neg same] at known
        exact .inr known
  | orderAck placementId orderId state activeAtMs placement found unanswered
      expected =>
      simp only [KeyedMap.lookup_insert_eq] at known
      by_cases same : key = placementId
      · subst same
        exact .inr (by rw [found]; rfl)
      · rw [if_neg same] at known
        exact .inr known
  | orderRejected placementId orderId placement found unanswered expected =>
      simp only [KeyedMap.lookup_insert_eq] at known
      by_cases same : key = placementId
      · subst same
        exact .inr (by rw [found]; rfl)
      · rw [if_neg same] at known
        exact .inr known
  | _ =>
      exact .inr known

theorem append_of_applied
    (applied : Applied ledger ledger.nextEventId timestampMs event next) :
    ledger.append timestampMs event =
      (next.record (ledger.nextEntry timestampMs event), .ok ()) := by
  have pair : ledger.apply (ledger.nextEntry timestampMs event) =
      (next, .ok ()) := apply_of_applied applied
  simp only [append, pair]

theorem append_cases
    (fresh : ledger.placements.lookup ledger.nextEventId = none)
    (timestampMs : I64) (event : PaperLedgerEvent) :
    (∃ next, Applied ledger ledger.nextEventId timestampMs event next ∧
      ledger.append timestampMs event =
        (next.record (ledger.nextEntry timestampMs event), .ok ())) ∨
    ∃ error fees, ledger.append timestampMs event =
      (ledger.reframe ledger.entries ledger.pending fees, .error error) := by
  rcases apply_cases ledger (ledger.nextEntry timestampMs event) with
    ⟨next, applied⟩ | ⟨failed, keeps⟩
  · exact .inl ⟨next, applied, append_of_applied applied⟩
  · cases result : (ledger.apply (ledger.nextEntry timestampMs event)).2 with
    | ok done => exact absurd result failed
    | error error =>
        obtain ⟨fees, same⟩ : ∃ fees,
            (ledger.apply (ledger.nextEntry timestampMs event)).1 =
              ledger.reframe ledger.entries ledger.pending fees :=
          ⟨_, keeps fresh⟩
        have pair : ledger.apply (ledger.nextEntry timestampMs event) =
            (ledger.reframe ledger.entries ledger.pending fees, .error error) :=
          Prod.ext same result
        exact .inr ⟨error, fees, by simp only [append, pair]⟩

/-- The entries of a ledger are numbered from zero, hold one cash movement and
replay to the ledger itself, with the recorded fees in place of the charged
ones. -/
structure Recorded (ledger : PaperLedger) : Prop where
  numbered : ledger.entries.map (fun entry => (entry.eventId, entry.sequence)) =
    (List.range ledger.nextSequence).map fun number =>
      (ledgerEventId number, number)
  replayed : replay (replayStart ledger.entries ledger.idPrefix) ledger.entries =
    .ok (ledger.reframe [] [] (recordedFees ledger.entries))
  fresh : ∀ key, (ledger.placements.lookup key).isSome →
    ∃ number < ledger.nextSequence, key = ledgerEventId number

theorem Recorded.nextFresh (recorded : ledger.Recorded) :
    ledger.placements.lookup ledger.nextEventId = none := by
  cases known : ledger.placements.lookup ledger.nextEventId with
  | none => rfl
  | some placement =>
      exfalso
      obtain ⟨number, before, same⟩ :=
        recorded.fresh ledger.nextEventId (by rw [known]; rfl)
      have numberEq : ledger.nextSequence = number := mintedId_inj.mp same
      omega

theorem new_recorded (initialCash : Money) (idPrefix : String) :
    (new initialCash idPrefix).Recorded where
  numbered := rfl
  replayed := by
    simp [new, openingEntry, replay, replayStart, cashOf, apply, empty,
      PortfolioLedger.new, recordedFees, PaperLedgerEvent.fee, reframe]
  fresh := by
    intro key known
    exact absurd known (by simp [new, empty])

theorem replay_append
    (ledger : PaperLedger) (first second : List PaperLedgerEntry) :
    replay ledger (first ++ second) =
      (replay ledger first).bind (replay · second) := by
  induction first generalizing ledger with
  | nil =>
      rfl
  | cons entry rest ih =>
      rw [List.cons_append, replay, replay]
      split
      · rfl
      · cases ledger.apply entry with
        | mk applied result =>
            cases result with
            | error error => rfl
            | ok done => exact ih _

theorem replayStart_append (noCash : cashOf entry = none) (idPrefix : String) :
    replayStart (entries ++ [entry]) idPrefix =
      replayStart entries idPrefix := by
  simp [replayStart, noCash]

theorem recordedFees_append
    (entries : List PaperLedgerEntry) (entry : PaperLedgerEntry) :
    recordedFees (entries ++ [entry]) =
      recordedFees entries + entry.event.fee := by
  simp [recordedFees]

/-- Appending keeps the entries a faithful account of the ledger, whether the
event was applied or refused. -/
theorem Recorded.append (recorded : ledger.Recorded) (timestampMs : I64)
    (noCash : ∀ amount, event ≠ .cashMovement amount) :
    (ledger.append timestampMs event).1.Recorded := by
  rcases append_cases recorded.nextFresh timestampMs event with
    ⟨next, applied, appended⟩ | ⟨error, fees, refused⟩
  · rw [appended]
    obtain ⟨entries, pending, nextSequence, idPrefix, cashFunded⟩ :=
      applied.frame
    have entryCash : cashOf (ledger.nextEntry timestampMs event) = none := by
      cases event with
      | cashMovement amount => exact absurd rfl (noCash amount)
      | _ => rfl
    refine ⟨?_, ?_, ?_⟩
    · simp only [record, entries, nextSequence, List.map_append,
        recorded.numbered, List.range_succ]
      rfl
    · simp only [record, entries, idPrefix]
      rw [replayStart_append entryCash, replay_append, recorded.replayed,
        recordedFees_append]
      have replayedEntry := apply_reframe ledger [] []
        (recordedFees ledger.entries) (ledger.nextEntry timestampMs event)
      have live : ledger.apply (ledger.nextEntry timestampMs event) =
          (next, .ok ()) :=
        apply_of_applied applied
      rw [live] at replayedEntry
      simp only [Except.bind, replay, replayedEntry]
      have sequence : (ledger.nextEntry timestampMs event).sequence =
          (ledger.reframe [] [] (recordedFees ledger.entries)).nextSequence :=
        rfl
      simp only [sequence, ne_eq, not_true_eq_false, if_false]
      rw [applied.fees]
      simp [reframe, nextSequence, nextEntry, idPrefix]
    · intro key known
      simp only [record] at known ⊢
      rw [nextSequence]
      rcases applied.placements_keys known with same | older
      · exact ⟨ledger.nextSequence, Nat.lt_succ_self _, same⟩
      · obtain ⟨number, before, same⟩ := recorded.fresh key older
        exact ⟨number, Nat.lt_succ_of_lt before, same⟩
  · rw [refused]
    exact ⟨recorded.numbered, recorded.replayed, recorded.fresh⟩

/-! ## Reconstruction -/

theorem deduplicate_of_nodup
    (nodup : (entries.map PaperLedgerEntry.eventId).Nodup)
    {seen : KeyedMap String PaperLedgerEntry}
    (unseen : ∀ entry ∈ entries, seen.lookup entry.eventId = none) :
    deduplicate seen entries = .ok entries := by
  induction entries generalizing seen with
  | nil =>
      rfl
  | cons entry rest ih =>
      rw [List.map_cons, List.nodup_cons] at nodup
      have unseenRest : ∀ later ∈ rest,
          (AList.insert entry.eventId entry seen).lookup later.eventId =
            none := by
        intro later mem
        have ne : later.eventId ≠ entry.eventId := by
          intro same
          exact nodup.1 (List.mem_map.mpr ⟨later, mem, same⟩)
        rw [KeyedMap.lookup_insert_eq, if_neg ne]
        exact unseen later (List.mem_cons_of_mem entry mem)
      rw [deduplicate, unseen entry List.mem_cons_self, ih nodup.2 unseenRest]
      rfl

theorem Recorded.nodup_eventIds (recorded : ledger.Recorded) :
    (ledger.entries.map PaperLedgerEntry.eventId).Nodup := by
  have ids : ledger.entries.map PaperLedgerEntry.eventId =
      (List.range ledger.nextSequence).map ledgerEventId := by
    have first := congrArg (List.map Prod.fst) recorded.numbered
    simpa [List.map_map, Function.comp_def] using first
  rw [ids]
  apply List.Nodup.map _ List.nodup_range
  intro left right same
  exact mintedId_inj.mp same

theorem Recorded.deduplicated (recorded : ledger.Recorded) :
    deduplicate ∅ ledger.entries = .ok ledger.entries :=
  deduplicate_of_nodup recorded.nodup_eventIds (by simp)

/-- No placement waits for an answer and no immediate order for its fill. -/
structure Closed (ledger : PaperLedger) : Prop where
  placements : ∀ key placement,
    ledger.placements.lookup key = some placement →
      placement.terminal ≠ none
  orders : ∀ orderId tracked,
    ledger.orders.lookup orderId = some tracked → tracked.state ≠ .immediate

theorem checkClosed_eq_ok_iff (order : IterationOrder String) :
    checkClosed order ledger = .ok () ↔ ledger.Closed := by
  unfold checkClosed
  cases openPlacement : (ledger.placements.visit order).find? fun entry =>
      entry.2.terminal.isNone with
  | some found =>
      obtain ⟨key, placement⟩ := found
      have mem := List.mem_of_find?_eq_some openPlacement
      have waiting : placement.terminal = none := by
        simpa using List.find?_some openPlacement
      constructor
      · intro no
        cases no
      · intro closed
        exact absurd waiting
          (closed.placements key placement (KeyedMap.mem_visit.mp mem))
  | none =>
      have answered : ∀ key placement,
          ledger.placements.lookup key = some placement →
            placement.terminal ≠ none := by
        intro key placement found waiting
        have absent := List.find?_eq_none.mp openPlacement (key, placement)
          (KeyedMap.mem_visit.mpr found)
        simp [waiting] at absent
      cases openOrder : (ledger.orders.visit order).find? fun entry =>
          entry.2.state = .immediate with
      | some found =>
          obtain ⟨orderId, tracked⟩ := found
          have mem := List.mem_of_find?_eq_some openOrder
          have waiting : tracked.state = .immediate := by
            simpa using List.find?_some openOrder
          constructor
          · intro no
            cases no
          · intro closed
            exact absurd waiting
              (closed.orders orderId tracked (KeyedMap.mem_visit.mp mem))
      | none =>
          refine ⟨fun _ => ⟨answered, ?_⟩, fun _ => rfl⟩
          intro orderId tracked found waiting
          have absent := List.find?_eq_none.mp openOrder (orderId, tracked)
            (KeyedMap.mem_visit.mpr found)
          simp [waiting] at absent

/-- What `reconstruct` returns on the entries of a live ledger: the ledger
with its recorded fees, when nothing is left open. -/
theorem Recorded.reconstruct_eq_ok_iff (recorded : ledger.Recorded)
    {order : IterationOrder String} {rebuilt : PaperLedger} :
    reconstruct order ledger.entries ledger.idPrefix = .ok rebuilt ↔
      ledger.Closed ∧
        rebuilt = ledger.reframe ledger.entries []
          (recordedFees ledger.entries) := by
  have sameClosed :
      (ledger.reframe [] [] (recordedFees ledger.entries)).Closed ↔
        ledger.Closed :=
    ⟨fun closed => ⟨closed.1, closed.2⟩, fun closed => ⟨closed.1, closed.2⟩⟩
  simp only [reconstruct, recorded.deduplicated, recorded.replayed, bind,
    Except.bind, pure, Except.pure]
  cases check : checkClosed order
      (ledger.reframe [] [] (recordedFees ledger.entries)) with
  | error error =>
      have openLedger : ¬ ledger.Closed := by
        rw [← sameClosed, ← checkClosed_eq_ok_iff order, check]
        simp
      simp [openLedger]
  | ok done =>
      have closed : ledger.Closed :=
        sameClosed.mp ((checkClosed_eq_ok_iff order).mp check)
      simp only [closed, true_and, Except.ok.injEq]
      exact eq_comm

end PaperLedger

namespace PaperLedger

/-- One ledger comes from another by appended events, none of them a cash
movement. -/
inductive Grows (ledger : PaperLedger) : PaperLedger → Prop
  | same : Grows ledger ledger
  | append {later : PaperLedger} (grows : Grows ledger later)
      (timestampMs : I64) (event : PaperLedgerEvent)
      (noCash : ∀ amount, event ≠ .cashMovement amount) :
      Grows ledger (later.append timestampMs event).1

theorem Grows.preserves
    {ledger later : PaperLedger} (grows : Grows ledger later)
    (invariant : PaperLedger → Prop)
    (preserved : ∀ before timestampMs event,
      (∀ amount, event ≠ .cashMovement amount) →
        invariant before → invariant (before.append timestampMs event).1)
    (holds : invariant ledger) : invariant later := by
  induction grows with
  | same =>
      exact holds
  | append grows timestampMs event noCash ih =>
      exact preserved _ timestampMs event noCash ih

theorem Grows.trans {ledger middle later : PaperLedger}
    (first : Grows ledger middle) (second : Grows middle later) :
    Grows ledger later := by
  induction second with
  | same =>
      exact first
  | append grows timestampMs event noCash ih =>
      exact ih.append timestampMs event noCash

theorem Grows.single
    (ledger : PaperLedger) (timestampMs : I64) (event : PaperLedgerEvent)
    (noCash : ∀ amount, event ≠ .cashMovement amount) :
    Grows ledger (ledger.append timestampMs event).1 :=
  .append .same timestampMs event noCash

theorem Grows.recorded {ledger later : PaperLedger} {idPrefix : String}
    (grows : ledger.Grows later)
    (recorded : ledger.Recorded) (ledgerPrefix : ledger.idPrefix = idPrefix) :
    later.Recorded ∧ later.idPrefix = idPrefix := by
  refine grows.preserves (fun ledger =>
    ledger.Recorded ∧ ledger.idPrefix = idPrefix) ?_ ⟨recorded, ledgerPrefix⟩
  rintro before timestampMs event noCash ⟨beforeRecorded, beforePrefix⟩
  refine ⟨beforeRecorded.append timestampMs noCash, ?_⟩
  rcases append_cases beforeRecorded.nextFresh timestampMs event
    with ⟨next, applied, appended⟩ | ⟨error, fees, refused⟩
  · rw [appended]
    exact applied.frame.2.2.2.1.trans beforePrefix
  · rw [refused]
    exact beforePrefix

theorem Recorded.grown {ledger later : PaperLedger} (recorded : ledger.Recorded)
    (grows : ledger.Grows later) : later.Recorded :=
  (grows.recorded recorded rfl).1

end PaperLedger

end Pmkit
