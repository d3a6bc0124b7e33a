import Mathlib.Data.List.ReduceOption
import Pmkit.Live.Correlation
import Pmkit.Live.Recorder
import Pmkit.Tape.EventJson

/-!
# Recorded decisions

The evaluation of one strategy for one fact, as it is stored: what became of
each action it asked for, and when.
-/

namespace Pmkit

open MachineInt JsonValue

inductive RiskVerdict where
  | accepted
  | rejected (reason : String)
  deriving DecidableEq

structure ActionRiskVerdict where
  actionIndex : UInt32
  verdict : RiskVerdict
  deriving DecidableEq

/-- The strategy result persisted with an event snapshot. -/
inductive DecisionKind where
  | noAction
  | strategyError (message : String)
  | actions (verdicts : List ActionRiskVerdict)
  deriving DecidableEq

/-- `risk_payload`. -/
def riskPayload (verdict : ActionRiskVerdict) : JsonValue :=
  object
    [("action_index", number verdict.actionIndex.toNat),
      ("verdict",
        match verdict.verdict with
        | .accepted => object [("kind", string "accepted")]
        | .rejected reason =>
            object [("kind", string "rejected"), ("reason", string reason)])]

/-- The decision of `decision_payload`. -/
def DecisionKind.json : DecisionKind → JsonValue
  | noAction => object [("kind", string "no_action")]
  | strategyError message =>
      object [("kind", string "strategy_error"), ("message", string message)]
  | actions verdicts =>
      object [("kind", string "actions"),
        ("risk", array (verdicts.map riskPayload))]

/-- `decision_payload`, whose observation and decision are of one time.  Of
the snapshot it has the times, which are what is read again. -/
def decisionPayload (timestampMs : I64) (decision : DecisionKind) :
    JsonValue :=
  object
    [("snapshot", object
        [("timing", object
          [("observation_ms", number timestampMs.1),
            ("decision_ms", number timestampMs.1)])]),
      ("decision", decision.json)]

def DecisionKind.verdicts : DecisionKind → List ActionRiskVerdict
  | noAction => []
  | strategyError _ => []
  | actions verdicts => verdicts

def DecisionKind.acceptedActions (decision : DecisionKind) : List UInt32 :=
  (decision.verdicts.filter fun verdict => verdict.verdict = .accepted).map
    ActionRiskVerdict.actionIndex

/-! ## Reading a decision again -/

/-- `corrupt_rate_history`. -/
def corruptRateHistory {A : Type} (message : String) :
    Except CausalStoreError A :=
  .error (.storage ("invalid durable order-rate history: " ++ message))

def historyText (value : JsonValue) (field message : String) :
    Except CausalStoreError String :=
  match (value.get field).bind JsonValue.asStr with
  | some text => .ok text
  | none => corruptRateHistory message

def acceptedAction (verdict : JsonValue) :
    Except CausalStoreError (Option UInt32) :=
  match (verdict.get "action_index").bind (asUnsigned 32) with
  | none => corruptRateHistory "action index is invalid"
  | some actionIndex => do
      match ← historyText ((verdict.get "verdict").getD null) "kind"
          "risk verdict kind is missing" with
      | "accepted" => return some (UInt32.ofNat actionIndex)
      | "rejected" => return none
      | other => corruptRateHistory ("unsupported risk verdict " ++ other)

def decisionRisk (payload : JsonValue) :
    Except CausalStoreError (Option (List JsonValue)) := do
  let decision := (payload.get "decision").getD null
  match ← historyText decision "kind" "decision kind is missing" with
  | "no_action" => return none
  | "strategy_error" => return none
  | "actions" =>
      match (decision.get "risk").bind JsonValue.asArray with
      | some risk => return some risk
      | none => corruptRateHistory "action risk list is missing"
  | other => corruptRateHistory ("unsupported decision kind " ++ other)

def decisionTime (payload : JsonValue) : Except CausalStoreError I64 :=
  match (payload.pointer ["snapshot", "timing", "decision_ms"]).bind
      asI64 with
  | some timestampMs => .ok (I64.clamp timestampMs)
  | none => corruptRateHistory "logical decision timestamp is missing"

/-- The loop over the verdicts of a decision: its accepted actions, each with
the time of the decision. -/
def decisionSubmissions (payload : JsonValue) :
    Except CausalStoreError (List (UInt32 × I64)) := do
  match ← decisionRisk payload with
  | none => return []
  | some risk =>
      let timestampMs ← decisionTime payload
      let actions ← risk.mapM acceptedAction
      return actions.reduceOption.map fun actionIndex =>
        (actionIndex, timestampMs)

theorem acceptedAction_of_index {verdict : JsonValue} {actionIndex : Nat}
    (found : (verdict.get "action_index").bind (asUnsigned 32) =
      some actionIndex) :
    acceptedAction verdict = (do
      match ← historyText ((verdict.get "verdict").getD null) "kind"
          "risk verdict kind is missing" with
      | "accepted" => return some (UInt32.ofNat actionIndex)
      | "rejected" => return none
      | other => corruptRateHistory ("unsupported risk verdict " ++ other)) := by
  rw [acceptedAction, found]

theorem historyText_riskPayload (verdict : ActionRiskVerdict) :
    historyText (((riskPayload verdict).get "verdict").getD null)
      "kind" "risk verdict kind is missing" =
        .ok (if verdict.verdict = .accepted then "accepted" else "rejected") := by
  cases found : verdict.verdict with
  | accepted =>
      simp only [riskPayload, found]
      rfl
  | rejected reason =>
      simp only [riskPayload, found]
      rfl

theorem acceptedAction_riskPayload (verdict : ActionRiskVerdict) :
    acceptedAction (riskPayload verdict) =
      .ok (if verdict.verdict = .accepted then
        some verdict.actionIndex else none) := by
  have index : (riskPayload verdict).get "action_index" =
      some (number verdict.actionIndex.toNat) := rfl
  have found : ((riskPayload verdict).get "action_index").bind
      (asUnsigned 32) = some verdict.actionIndex.toNat := by
    rw [index, Option.bind_some, asUnsigned_number verdict.actionIndex.toNat_lt]
  rw [acceptedAction_of_index found, historyText_riskPayload]
  by_cases passed : verdict.verdict = .accepted
  · rw [if_pos passed, if_pos passed]
    change Except.ok (some (UInt32.ofNat verdict.actionIndex.toNat)) = _
    rw [UInt32.ofNat_toNat]
  · rw [if_neg passed, if_neg passed]
    rfl

theorem acceptedActions_payload (verdicts : List ActionRiskVerdict) :
    (verdicts.map riskPayload).mapM acceptedAction =
      .ok (verdicts.map fun verdict =>
        if verdict.verdict = .accepted then
          some verdict.actionIndex else none) := by
  induction verdicts with
  | nil =>
      rfl
  | cons verdict rest ih =>
      rw [List.map_cons, List.mapM_cons, acceptedAction_riskPayload, ih]
      rfl

theorem acceptedActions_reduce (verdicts : List ActionRiskVerdict) :
    (verdicts.map fun verdict : ActionRiskVerdict =>
      if verdict.verdict = .accepted then
        some verdict.actionIndex else none).reduceOption =
      (DecisionKind.actions verdicts).acceptedActions := by
  induction verdicts with
  | nil =>
      rfl
  | cons verdict rest ih =>
      simp only [DecisionKind.acceptedActions, DecisionKind.verdicts]
        at ih ⊢
      by_cases passed : verdict.verdict = .accepted
      · rw [List.map_cons, if_pos passed, List.reduceOption_cons_of_some,
          ih, List.filter_cons_of_pos (by simpa using passed),
          List.map_cons]
      · rw [List.map_cons, if_neg passed, List.reduceOption_cons_of_none,
          ih, List.filter_cons_of_neg (by simpa using passed)]

theorem decisionSubmissions_payload
    (timestampMs : I64) (decision : DecisionKind) :
    decisionSubmissions (decisionPayload timestampMs decision) =
      .ok (decision.acceptedActions.map fun actionIndex =>
        (actionIndex, timestampMs)) := by
  cases decision with
  | noAction => rfl
  | strategyError message => rfl
  | actions verdicts =>
      have risk : decisionRisk (decisionPayload timestampMs
          (.actions verdicts)) = .ok (some (verdicts.map riskPayload)) := rfl
      have read : ((decisionPayload timestampMs (.actions verdicts)).pointer
          ["snapshot", "timing", "decision_ms"]).bind asI64 =
            some timestampMs.1 := asI64_val timestampMs
      have time : decisionTime (decisionPayload timestampMs
          (.actions verdicts)) = .ok timestampMs := by
        simp only [decisionTime, read, I64.clamp_val]
      simp only [decisionSubmissions, risk, time, acceptedActions_payload,
        acceptedActions_reduce, bind, Except.bind, pure, Except.pure]

end Pmkit
