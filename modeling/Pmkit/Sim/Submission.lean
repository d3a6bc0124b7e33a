import Pmkit.Sim.BookUpdate

/-!
# Submissions and the invariant of the simulator

A submission is refused without an identity, refused with one, or accepted as
a resting maker, a delayed taker or an immediate fill.  `Submitted` lists the
five cases; `WellFormed` survives every call.
-/

namespace Pmkit

open MachineInt

namespace SimEngine

/-- Whether a submission mints an identity. -/
def Admits (engine : SimEngine) (order : PlaceOrder) (nowMs : I64) : Prop :=
  expired order nowMs = false ∧ engine.violatesMarketLimits order = false

/-- Whether a submission is answered with an identity. -/
def Accepts (engine : SimEngine) (order : PlaceOrder) (nowMs : I64) : Prop :=
  engine.Admits order nowMs ∧
    if order.postOnly then
      ∃ book, engine.books.lookup (order.market, order.outcome) = some book ∧
        crosses book order = false
    else if 0 < engine.config.activationLatencyMs then
      True
    else
      (engine.takerFill (mintedId engine.idPrefix engine.nextId) order nowMs
        nowMs).isSome

/-- The open order that an accepted maker or delayed taker becomes. -/
def workingOrder (engine : SimEngine) (order : PlaceOrder)
    (strategy : Option StrategyId) (nowMs : I64) : WorkingOrder where
  orderId := mintedId engine.idPrefix engine.nextId
  order := order
  submittedMs := nowMs
  activeAtMs := nowMs.saturatingAdd engine.config.activationLatencyMs
  strategy := strategy

/-- The results of a submission. -/
inductive Submitted (engine : SimEngine) (order : PlaceOrder)
    (strategy : Option StrategyId) (nowMs : I64) :
    SimEngine × Option String → Prop
  | refused (notAdmitted : ¬ engine.Admits order nowMs) :
      Submitted engine order strategy nowMs (engine, none)
  | unfilled (admitted : engine.Admits order nowMs)
      (notAccepted : ¬ engine.Accepts order nowMs) :
      Submitted engine order strategy nowMs
        ({ engine with nextId := engine.nextId + 1 }, none)
  | rests (accepted : engine.Accepts order nowMs)
      (postOnly : order.postOnly = true) :
      Submitted engine order strategy nowMs
        ({ engine with
            nextId := engine.nextId + 1
            resting := AList.insert (mintedId engine.idPrefix engine.nextId)
              (engine.workingOrder order strategy nowMs) engine.resting },
          some (mintedId engine.idPrefix engine.nextId))
  | waits (accepted : engine.Accepts order nowMs)
      (taker : order.postOnly = false)
      (latency : 0 < engine.config.activationLatencyMs) :
      Submitted engine order strategy nowMs
        ({ engine with
            nextId := engine.nextId + 1
            delayed := engine.delayed ++
              [engine.workingOrder order strategy nowMs] },
          some (mintedId engine.idPrefix engine.nextId))
  | takes (accepted : engine.Accepts order nowMs)
      (taker : order.postOnly = false)
      (immediate : ¬ 0 < engine.config.activationLatencyMs)
      (fill : FillEvent Decimal)
      (filled : engine.takerFill (mintedId engine.idPrefix engine.nextId)
        order nowMs nowMs = some fill) :
      Submitted engine order strategy nowMs
        ({ engine with
            nextId := engine.nextId + 1
            pendingFills := engine.pendingFills ++ [fill] },
          some (mintedId engine.idPrefix engine.nextId))

theorem submitWithStrategy_submitted
    (engine : SimEngine) (order : PlaceOrder) (strategy : Option StrategyId)
    (nowMs : I64) :
    Submitted engine order strategy nowMs
      (engine.submitWithStrategy order strategy nowMs) := by
  unfold submitWithStrategy
  by_cases admitted : engine.Admits order nowMs
  · have proceeds : (expired order nowMs ||
        engine.violatesMarketLimits order) = false := by
      simp [admitted.1, admitted.2]
    simp only [proceeds, Bool.false_eq_true, if_false]
    cases maker : order.postOnly with
    | true =>
        simp only [if_true, submitMaker]
        cases found : engine.books.lookup (order.market, order.outcome) with
        | none =>
            refine .unfilled admitted ?_
            rintro ⟨_, accepted⟩
            simp [maker, found] at accepted
        | some book =>
            cases crossed : crosses book order with
            | true =>
                simp only [crossed, if_true]
                refine .unfilled admitted ?_
                rintro ⟨_, accepted⟩
                simp [maker, found, crossed] at accepted
            | false =>
                simp only [crossed, Bool.false_eq_true, if_false]
                refine .rests ⟨admitted, ?_⟩ maker
                simp [maker, found, crossed]
    | false =>
        simp only [Bool.false_eq_true, if_false]
        by_cases latency : 0 < engine.config.activationLatencyMs
        · simp only [latency, if_true]
          refine .waits ⟨admitted, ?_⟩ maker latency
          simp [maker, latency]
        · simp only [latency, if_false, submitTaker]
          cases filled : engine.takerFill
              (mintedId engine.idPrefix engine.nextId) order nowMs nowMs with
          | none =>
              have unfilled : SimEngine.takerFill
                  { engine with nextId := engine.nextId + 1 }
                  (mintedId engine.idPrefix engine.nextId) order nowMs nowMs =
                none := filled
              rw [unfilled]
              refine .unfilled admitted ?_
              rintro ⟨_, accepted⟩
              simp [maker, latency, filled] at accepted
          | some fill =>
              have sameFill : SimEngine.takerFill
                  { engine with nextId := engine.nextId + 1 }
                  (mintedId engine.idPrefix engine.nextId) order nowMs nowMs =
                some fill := filled
              rw [sameFill]
              refine .takes ⟨admitted, ?_⟩ maker latency fill filled
              simp [maker, latency, filled]
  · have refused : (expired order nowMs ||
        engine.violatesMarketLimits order) = true := by
      rw [Admits, not_and_or] at admitted
      simpa using admitted
    simp only [refused, if_true]
    exact .refused admitted

variable {engine : SimEngine} {order : PlaceOrder}
  {strategy : Option StrategyId} {nowMs : I64}
  {result : SimEngine × Option String}

theorem Submitted.frame
    (submitted : Submitted engine order strategy nowMs result) :
    result.1.books = engine.books ∧ result.1.idPrefix = engine.idPrefix ∧
      result.1.feeModel = engine.feeModel ∧
      result.1.config = engine.config := by
  cases submitted <;> exact ⟨rfl, rfl, rfl, rfl⟩

theorem Submitted.answer
    (submitted : Submitted engine order strategy nowMs result) :
    (engine.Accepts order nowMs ∧
      result.2 = some (mintedId engine.idPrefix engine.nextId)) ∨
    (¬ engine.Accepts order nowMs ∧ result.2 = none ∧
      result.1.resting = engine.resting ∧ result.1.delayed = engine.delayed ∧
      result.1.pendingFills = engine.pendingFills) := by
  cases submitted with
  | refused notAdmitted =>
      exact .inr ⟨fun accepted => notAdmitted accepted.1, rfl, rfl, rfl, rfl⟩
  | unfilled admitted notAccepted =>
      exact .inr ⟨notAccepted, rfl, rfl, rfl, rfl⟩
  | rests accepted postOnly =>
      exact .inl ⟨accepted, rfl⟩
  | waits accepted taker latency =>
      exact .inl ⟨accepted, rfl⟩
  | takes accepted taker immediate fill filled =>
      exact .inl ⟨accepted, rfl⟩

/-! ## The invariant -/

theorem withFeeConfig_wellFormed
    (idPrefix : String) (startId : Nat) (config : SimulationConfig) :
    (withFeeConfig idPrefix startId config).WellFormed where
  restingKey := by
    intro key resting found
    simp [withFeeConfig] at found
  delayedNodup := by
    simp [withFeeConfig]
  disjoint := by
    intro delayed mem
    simp [withFeeConfig] at mem
  restingMinted := by
    intro key resting found
    simp [withFeeConfig] at found
  delayedMinted := by
    intro delayed mem
    simp [withFeeConfig] at mem

/-- The invariant reads the order collections and the counter only, and
survives dropping orders and raising the counter. -/
theorem WellFormed.shrink {smaller : SimEngine} (wellFormed : engine.WellFormed)
    (resting : ∀ key order, smaller.resting.lookup key = some order →
      ∃ before, engine.resting.lookup key = some before ∧
        order.orderId = before.orderId)
    (delayed : smaller.delayed.Sublist engine.delayed)
    (nextId : engine.nextId ≤ smaller.nextId)
    (idPrefix : smaller.idPrefix = engine.idPrefix) :
    smaller.WellFormed where
  restingKey := by
    intro key order found
    obtain ⟨before, foundBefore, same⟩ := resting key order found
    exact same.trans (wellFormed.restingKey foundBefore)
  delayedNodup :=
    wellFormed.delayedNodup.sublist (delayed.map WorkingOrder.orderId)
  disjoint := by
    intro order mem
    have absent := wellFormed.disjoint (delayed.subset mem)
    cases found : smaller.resting.lookup order.orderId with
    | none => rfl
    | some stored =>
        obtain ⟨before, foundBefore, _⟩ := resting order.orderId stored found
        rw [absent] at foundBefore
        cases foundBefore
  restingMinted := by
    intro key order found
    obtain ⟨before, foundBefore, _⟩ := resting key order found
    obtain ⟨number, bound, identity⟩ := wellFormed.restingMinted foundBefore
    exact ⟨number, lt_of_lt_of_le bound nextId, by rw [identity, idPrefix]⟩
  delayedMinted := by
    intro order mem
    obtain ⟨number, bound, identity⟩ :=
      wellFormed.delayedMinted (delayed.subset mem)
    exact ⟨number, lt_of_lt_of_le bound nextId, by rw [identity, idPrefix]⟩

/-- The next identity is in neither order collection. -/
theorem WellFormed.nextId_unused (wellFormed : engine.WellFormed) :
    engine.resting.lookup (mintedId engine.idPrefix engine.nextId) = none ∧
      ∀ delayed ∈ engine.delayed,
        delayed.orderId ≠ mintedId engine.idPrefix engine.nextId := by
  constructor
  · cases found :
        engine.resting.lookup (mintedId engine.idPrefix engine.nextId) with
    | none => rfl
    | some resting =>
        obtain ⟨number, bound, identity⟩ := wellFormed.restingMinted found
        rw [mintedId_inj] at identity
        omega
  · intro delayed mem same
    obtain ⟨number, bound, identity⟩ := wellFormed.delayedMinted mem
    rw [same, mintedId_inj] at identity
    omega

theorem Submitted.wellFormed (wellFormed : engine.WellFormed)
    (submitted : Submitted engine order strategy nowMs result) :
    result.1.WellFormed := by
  obtain ⟨unusedResting, unusedDelayed⟩ := wellFormed.nextId_unused
  cases submitted with
  | refused notAdmitted =>
      exact wellFormed
  | unfilled admitted notAccepted =>
      exact wellFormed.shrink (fun _ order found => ⟨order, found, rfl⟩)
        (List.Sublist.refl _) (Nat.le_succ _) rfl
  | rests accepted postOnly =>
      constructor
      · intro key resting found
        simp only [KeyedMap.lookup_insert_eq] at found
        split at found
        · rename_i same
          cases found
          exact same.symm
        · exact wellFormed.restingKey found
      · exact wellFormed.delayedNodup
      · intro delayed mem
        simp only [KeyedMap.lookup_insert_eq]
        rw [if_neg (unusedDelayed delayed mem)]
        exact wellFormed.disjoint mem
      · intro key resting found
        simp only [KeyedMap.lookup_insert_eq] at found
        split at found
        · rename_i same
          exact ⟨engine.nextId, Nat.lt_succ_self _, same⟩
        · obtain ⟨number, bound, identity⟩ := wellFormed.restingMinted found
          exact ⟨number, Nat.lt_succ_of_lt bound, identity⟩
      · intro delayed mem
        obtain ⟨number, bound, identity⟩ := wellFormed.delayedMinted mem
        exact ⟨number, Nat.lt_succ_of_lt bound, identity⟩
  | waits accepted taker latency =>
      constructor
      · exact wellFormed.restingKey
      · simp only [List.map_append, List.map_cons, List.map_nil]
        rw [List.nodup_append]
        refine ⟨wellFormed.delayedNodup, List.nodup_singleton _, ?_⟩
        intro identity mem added addedMem same
        obtain ⟨delayed, delayedMember, rfl⟩ := List.mem_map.mp mem
        rw [List.mem_singleton] at addedMem
        exact unusedDelayed delayed delayedMember (same.trans addedMem)
      · intro delayed mem
        rcases List.mem_append.mp mem with older | added
        · exact wellFormed.disjoint older
        · rw [List.mem_singleton] at added
          subst added
          exact unusedResting
      · intro key resting found
        obtain ⟨number, bound, identity⟩ := wellFormed.restingMinted found
        exact ⟨number, Nat.lt_succ_of_lt bound, identity⟩
      · intro delayed mem
        rcases List.mem_append.mp mem with older | added
        · obtain ⟨number, bound, identity⟩ := wellFormed.delayedMinted older
          exact ⟨number, Nat.lt_succ_of_lt bound, identity⟩
        · rw [List.mem_singleton] at added
          subst added
          exact ⟨engine.nextId, Nat.lt_succ_self _, rfl⟩
  | takes accepted taker immediate fill filled =>
      exact wellFormed.shrink (fun _ order found => ⟨order, found, rfl⟩)
        (List.Sublist.refl _) (Nat.le_succ _) rfl

theorem afterFill_orderId {book : OrderBookL2} {resting after : RestingOrder}
    (left : engine.afterFill book resting = some after) :
    after.orderId = resting.orderId := by
  unfold afterFill at left
  cases filled : engine.makerFill book resting with
  | none =>
      rw [filled] at left
      cases left
      rfl
  | some fill =>
      rw [filled] at left
      simp only at left
      split at left
      · cases left
      · cases left
        rfl

theorem updateBook_wellFormed (wellFormed : engine.WellFormed)
    (order : IterationOrder String) (market : MarketId) (outcome : Outcome)
    (book : OrderBookL2) :
    (engine.updateBook order market outcome book).WellFormed := by
  obtain ⟨resting, delayed, _, nextId, idPrefix, _, _, _⟩ :=
    updateBook_spec wellFormed order market outcome book
  apply wellFormed.shrink
  · intro key after found
    rw [resting key, Option.bind_eq_some_iff] at found
    obtain ⟨before, stored, left⟩ := found
    refine ⟨before, stored, ?_⟩
    unfold restingAfter at left
    split at left
    · cases left
    · split at left
      · exact afterFill_orderId left
      · cases left
        rfl
  · rw [delayed]
    exact List.filter_sublist.trans List.filter_sublist
  · exact le_of_eq nextId.symm
  · exact idPrefix

theorem cancel_wellFormed (wellFormed : engine.WellFormed)
    (orderId : String) : (engine.cancel orderId).1.WellFormed := by
  unfold cancel
  cases found : engine.resting.lookup orderId with
  | some resting =>
      apply wellFormed.shrink
      · intro key order stored
        simp only [KeyedMap.lookup_erase_eq] at stored
        split at stored
        · cases stored
        · exact ⟨order, stored, rfl⟩
      · exact List.Sublist.refl _
      · exact le_rfl
      · rfl
  | none =>
      cases waiting :
          engine.delayed.find? fun order => order.orderId = orderId with
      | none =>
          exact wellFormed
      | some delayed =>
          exact wellFormed.shrink (fun _ order stored => ⟨order, stored, rfl⟩)
            List.eraseP_sublist le_rfl rfl

@[simp]
theorem cancel_pendingFills (engine : SimEngine) (orderId : String) :
    (engine.cancel orderId).1.pendingFills = engine.pendingFills := by
  unfold cancel
  split
  · rfl
  · split
    · rfl
    · rfl

@[simp]
theorem cancel_nextId (engine : SimEngine) (orderId : String) :
    (engine.cancel orderId).1.nextId = engine.nextId := by
  unfold cancel
  split
  · rfl
  · split
    · rfl
    · rfl

theorem cancelAll_wellFormed (wellFormed : engine.WellFormed) :
    engine.cancelAll.1.WellFormed := by
  apply wellFormed.shrink
  · intro key order stored
    simp [cancelAll] at stored
  · exact List.nil_sublist _
  · exact le_rfl
  · rfl

theorem drainFills_wellFormed (wellFormed : engine.WellFormed) :
    engine.drainFills.1.WellFormed :=
  wellFormed.shrink (fun _ order stored => ⟨order, stored, rfl⟩)
    (List.Sublist.refl _) le_rfl rfl

end SimEngine

end Pmkit
