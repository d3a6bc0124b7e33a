import Pmkit.Library.Faults
import Pmkit.Library.KeyedMap
import Pmkit.Library.Trace
import Pmkit.Store.Envelopes

/-!
# Cloud materializations

A materialized partition is published under a bundle id.  Its row is pending
until the publisher confirms a release or the partition turns out to have a
gap; the row is inserted if it is absent, compared with the identity of the
call, and updated only while it is pending.  A call may be cut off, or fail,
at each of its statements and at the publisher.
-/

namespace Pmkit

open Faults

inductive CloudMaterializationState where
  | pending
  | finalized
  | terminal
  deriving DecidableEq

structure MaterializationIdentity where
  manifestSha256 : String
  partitionId : String
  schemaVersion : UInt16
  artifactSha256 : String
  deriving DecidableEq

/-- The columns of a row beside its key.  The `CHECK` of the state column
admits the three states only. -/
structure MaterializationRow extends MaterializationIdentity where
  state : CloudMaterializationState
  releaseId : Option String
  terminalReason : Option String
  deriving DecidableEq

/-- `CloudMaterialization`. -/
structure CloudMaterialization extends MaterializationRow where
  bundleId : String
  deriving DecidableEq

/-- `pmkit_cloud_materializations`, by its primary key. -/
abbrev MaterializationTable := KeyedMap String MaterializationRow

namespace MaterializationTable

/-- `INSERT_CLOUD_MATERIALIZATION`: a pending row, unless there is one. -/
def insertPending (table : MaterializationTable)
    (materialization : CloudMaterialization) : MaterializationTable :=
  match table.lookup materialization.bundleId with
  | some _ => table
  | none =>
      AList.insert materialization.bundleId
        { materialization.toMaterializationIdentity with
          state := .pending
          releaseId := none
          terminalReason := none }
        table

/-- `READ_CLOUD_MATERIALIZATION`. -/
def read (table : MaterializationTable) (bundleId : String) :
    Option CloudMaterialization :=
  (table.lookup bundleId).map fun row => { row with bundleId := bundleId }

/-- `TRANSITION_CLOUD_MATERIALIZATION`: only a pending row is written. -/
def transition (table : MaterializationTable) (bundleId : String)
    (state : CloudMaterializationState) (releaseId reason : Option String) :
    MaterializationTable :=
  match table.lookup bundleId with
  | none => table
  | some row =>
      if row.state = .pending then
        AList.insert bundleId
          { row with
            state := state
            releaseId := releaseId
            terminalReason := reason }
          table
      else
        table

end MaterializationTable

/-- An invocation of the publisher, with the row of its bundle at the time. -/
structure Publication where
  bundleId : String
  row : Option MaterializationRow

/-- The table, and what the publisher was asked to do so far. -/
structure CloudWorld where
  materializations : MaterializationTable
  publications : List Publication

abbrev CloudProgram (A : Type) :=
  Program CloudWorld (Fault TapeStoreError) TapeStoreError A

def CloudWorld.write (update : MaterializationTable → MaterializationTable)
    (world : CloudWorld) : CloudWorld :=
  { world with materializations := update world.materializations }

/-- A statement that writes. -/
def execute (update : MaterializationTable → MaterializationTable) :
    CloudProgram Unit :=
  perform fun _ => { effects := [CloudWorld.write update], answer := .ok () }

/-- `read_cloud_materialization`. -/
def readCloudMaterialization (bundleId : String) :
    CloudProgram (Option CloudMaterialization) :=
  perform fun world =>
    { effects := [], answer := .ok (world.materializations.read bundleId) }

def publishBundle (publish : String → Except TapeStoreError String)
    (bundleId : String) : CloudProgram String :=
  perform fun _ =>
    { effects := [fun world => { world with
        publications := world.publications ++
          [⟨bundleId, world.materializations.lookup bundleId⟩] }]
      answer := publish bundleId }

/-- `store_cloud_materialization_pending`. -/
def storeCloudMaterializationPending (materialization : CloudMaterialization) :
    CloudProgram CloudMaterialization := do
  execute fun table => table.insertPending materialization
  match ← readCloudMaterialization materialization.bundleId with
  | none =>
      Program.answer (.error (.storage "cloud materialization was not stored"))
  | some stored =>
      if stored.toMaterializationIdentity ≠
          materialization.toMaterializationIdentity then
        Program.answer
          (.error (.storage "cloud materialization identity conflict"))
      else
        return stored

/-- `transition_cloud_materialization`. -/
def transitionCloudMaterialization (bundleId : String)
    (state : CloudMaterializationState) (releaseId reason : Option String) :
    CloudProgram CloudMaterialization := do
  execute fun table => table.transition bundleId state releaseId reason
  match ← readCloudMaterialization bundleId with
  | none =>
      Program.answer (.error (.storage "cloud materialization was not found"))
  | some stored => return stored

/-- `reconcile_materialization`. -/
def reconcileMaterialization (materialization : CloudMaterialization)
    (publish : String → Except TapeStoreError String) :
    CloudProgram CloudMaterialization := do
  let pending ← storeCloudMaterializationPending materialization
  if pending.state ≠ .pending then
    return pending
  else
    match ← (publishBundle publish pending.bundleId).attempt with
    | .ok releaseId =>
        transitionCloudMaterialization pending.bundleId .finalized
          (some releaseId) none
    | .error _ => return pending

/-- `terminalize_operational_gap`. -/
def terminalizeOperationalGap (materialization : CloudMaterialization) :
    CloudProgram CloudMaterialization := do
  let pending ← storeCloudMaterializationPending materialization
  if pending.state ≠ .pending then
    return pending
  else
    transitionCloudMaterialization pending.bundleId .terminal none
      (some "operational_gap")

inductive MaterializationCall where
  | reconcile (materialization : CloudMaterialization)
      (publish : String → Except TapeStoreError String)
  | terminalize (materialization : CloudMaterialization)

namespace MaterializationCall

def materialization : MaterializationCall → CloudMaterialization
  | .reconcile materialization _ => materialization
  | .terminalize materialization => materialization

def program : MaterializationCall → CloudProgram CloudMaterialization
  | .reconcile materialization publish =>
      reconcileMaterialization materialization publish
  | .terminalize materialization => terminalizeOperationalGap materialization

def step (world : CloudWorld)
    (call : MaterializationCall × List (Fault TapeStoreError)) : CloudWorld :=
  (call.1.program world call.2).state

end MaterializationCall

/-- What holds between a state and a later one: rows keep their identity, a
row that is no longer pending does not change, and what was published in
between was pending then. -/
structure Advances (before after : CloudWorld) : Prop where
  rows : ∀ bundleId row, before.materializations.lookup bundleId = some row →
    ∃ later, after.materializations.lookup bundleId = some later ∧
      later.toMaterializationIdentity = row.toMaterializationIdentity ∧
      (row.state ≠ .pending → later = row)
  publications : ∃ more,
    after.publications = before.publications ++ more ∧
      ∀ publication ∈ more, ∃ row,
        publication.row = some row ∧ row.state = .pending

namespace Advances

theorem refl (world : CloudWorld) : Advances world world where
  rows := fun _ row found => ⟨row, found, rfl, fun _ => rfl⟩
  publications :=
    ⟨[], (List.append_nil _).symm, fun _ mem => by cases mem⟩

theorem trans
    {before middle after : CloudWorld} (first : Advances before middle)
    (second : Advances middle after) : Advances before after where
  rows := by
    intro bundleId row found
    obtain ⟨next, isNext, identity, fixed⟩ := first.rows bundleId row found
    obtain ⟨last, isLast, sameIdentity, stays⟩ :=
      second.rows bundleId next isNext
    refine ⟨last, isLast, sameIdentity.trans identity, ?_⟩
    intro settled
    have same := fixed settled
    subst same
    exact stays settled
  publications := by
    obtain ⟨some, isSome, pending⟩ := first.publications
    obtain ⟨more, isMore, pendingToo⟩ := second.publications
    refine ⟨some ++ more, by rw [isMore, isSome, List.append_assoc], ?_⟩
    intro publication mem
    rcases List.mem_append.mp mem with early | late
    · exact pending publication early
    · exact pendingToo publication late

end Advances

theorem advances_insertPending
    (world : CloudWorld) (materialization : CloudMaterialization) :
    Advances world
      (world.write fun table => table.insertPending materialization) where
  rows := by
    intro bundleId row found
    refine ⟨row, ?_, rfl, fun _ => rfl⟩
    show (MaterializationTable.insertPending _ _).lookup bundleId = some row
    unfold MaterializationTable.insertPending
    cases present :
        world.materializations.lookup materialization.bundleId with
    | some _ => exact found
    | none =>
        have ne : bundleId ≠ materialization.bundleId := by
          rintro rfl
          rw [present] at found
          cases found
        exact (KeyedMap.lookup_insert_eq _ _ _ _).trans
          ((if_neg ne).trans found)
  publications := (Advances.refl world).publications

theorem advances_transition (world : CloudWorld) (bundleId : String)
    (state : CloudMaterializationState) (releaseId reason : Option String) :
    Advances world (world.write fun table =>
      table.transition bundleId state releaseId reason) where
  rows := by
    intro other row found
    show ∃ later, (MaterializationTable.transition _ _ _ _ _).lookup other =
      some later ∧ _
    unfold MaterializationTable.transition
    cases present : world.materializations.lookup bundleId with
    | none => exact ⟨row, found, rfl, fun _ => rfl⟩
    | some current =>
        by_cases pending : current.state = .pending
        · simp only [if_pos pending, KeyedMap.lookup_insert_eq]
          by_cases same : other = bundleId
          · subst same
            rw [present] at found
            cases found
            exact ⟨_, if_pos rfl, rfl, fun settled => absurd pending settled⟩
          · exact ⟨row, (if_neg same).trans found, rfl, fun _ => rfl⟩
        · simp only [if_neg pending]
          exact ⟨row, found, rfl, fun _ => rfl⟩
  publications := (Advances.refl world).publications

theorem advances_publication
    {world : CloudWorld} {bundleId : String} {row : MaterializationRow}
    (found : world.materializations.lookup bundleId = some row)
    (pending : row.state = .pending) :
    Advances world { world with publications := world.publications ++
      [⟨bundleId, world.materializations.lookup bundleId⟩] } where
  rows := (Advances.refl world).rows
  publications := by
    refine ⟨_, rfl, ?_⟩
    intro publication mem
    rw [List.mem_singleton.mp mem]
    exact ⟨row, found, pending⟩

/-! ## What programs keep -/

section Programs

variable {A B : Type} {allowed : Fault TapeStoreError → Prop}
  {world : CloudWorld}

def LeadsOn (allowed : Fault TapeStoreError → Prop) (program : CloudProgram A)
    (world : CloudWorld) : Prop :=
  Ensures allowed program world fun _ after => Advances world after

theorem leadsOn_answer (result : Except TapeStoreError A) :
    LeadsOn allowed (Program.answer result) world :=
  ensures_answer (Advances.refl world)

variable {program : CloudProgram A} {next : A → CloudProgram B}
  {row : MaterializationRow}

/-- A sequence leads on if its parts do, the second one from where the first
one returned. -/
theorem leadsOn_bind
    (first : Ensures allowed program world fun outcome middle =>
      Advances world middle ∧
        ∀ value, outcome = .returned (.ok value) →
          LeadsOn allowed (next value) middle) :
    LeadsOn allowed (program >>= next) world := by
  apply ensures_bind
  apply first.weaken
  rintro outcome middle ⟨advanced, rest⟩
  match outcome, rest with
  | .returned (.ok value), rest =>
      exact (rest value rfl).weaken fun _ _ further => advanced.trans further
  | .returned (.error _), _ => exact advanced
  | .crashed, _ => exact advanced

/-- A statement is done when it answers, and may be done when it does not. -/
theorem ensures_execute {update : MaterializationTable → MaterializationTable}
    {post : Faults.Outcome TapeStoreError Unit → CloudWorld → Prop}
    (done : ∀ outcome, (outcome = .crashed → ∃ count, allowed (.crash count)) →
      post outcome (world.write update))
    (skipped : ∀ outcome, outcome ≠ .returned (.ok ()) →
      (outcome = .crashed → ∃ count, allowed (.crash count)) →
      post outcome world) :
    Ensures allowed (execute update) world post := by
  apply ensures_perform
  · exact done _ (by intro crashed; cases crashed)
  · intro failure count _
    rcases applied_singleton count (CloudWorld.write update) world with
      kept | written
    · rw [kept]
      exact skipped _ (by intro same; cases same) (by intro same; cases same)
    · rw [written]
      exact done _ (by intro same; cases same)
  · intro count crash
    rcases applied_singleton count (CloudWorld.write update) world with
      kept | written
    · rw [kept]
      exact skipped _ (by intro same; cases same) fun _ => ⟨count, crash⟩
    · rw [written]
      exact done _ fun _ => ⟨count, crash⟩

theorem ensures_readCloudMaterialization {bundleId : String}
    {post : Faults.Outcome TapeStoreError (Option CloudMaterialization) →
      CloudWorld → Prop}
    (found : post (.returned (.ok (world.materializations.read bundleId)))
      world)
    (failed : ∀ failure, post (.returned (.error failure)) world)
    (crashed : (∃ count, allowed (.crash count)) → post .crashed world) :
    Ensures allowed (readCloudMaterialization bundleId) world post := by
  apply ensures_perform
  · exact found
  · intro failure count _
    rw [applied_nil]
    exact failed failure
  · intro count crash
    rw [applied_nil]
    exact crashed ⟨count, crash⟩

/-- The row that an insert leaves is the one of the call that returns. -/
theorem ensures_storeCloudMaterializationPending
    (materialization : CloudMaterialization) :
    Ensures allowed (storeCloudMaterializationPending materialization) world
      fun outcome after => Advances world after ∧
        ∀ stored, outcome = .returned (.ok stored) →
          after.materializations.lookup stored.bundleId =
            some stored.toMaterializationRow := by
  have inserted := advances_insertPending world materialization
  apply ensures_bind
  apply ensures_execute
  · intro outcome _
    match outcome with
    | .returned (.error _) => exact ⟨inserted, by intro stored same; cases same⟩
    | .crashed => exact ⟨inserted, by intro stored same; cases same⟩
    | .returned (.ok ()) =>
        apply ensures_bind
        apply ensures_readCloudMaterialization
        · dsimp only
          generalize isStored : MaterializationTable.read _ _ = read
          match read, isStored with
          | none, _ =>
              exact ensures_answer
                ⟨inserted, by intro stored same; cases same⟩
          | some stored, isStored =>
              dsimp only
              split
              · exact ensures_answer
                  ⟨inserted, by intro stored same; cases same⟩
              · apply ensures_answer
                refine ⟨inserted, ?_⟩
                rintro _ ⟨⟩
                obtain ⟨row, found, rfl⟩ := Option.map_eq_some_iff.mp isStored
                exact found
        · intro failure
          exact ⟨inserted, by intro stored same; cases same⟩
        · intro _
          exact ⟨inserted, by intro stored same; cases same⟩
  · intro outcome failed _
    match outcome, failed with
    | .returned (.error _), _ =>
        exact ⟨.refl world, by intro stored same; cases same⟩
    | .crashed, _ => exact ⟨.refl world, by intro stored same; cases same⟩
    | .returned (.ok ()), failed => exact absurd rfl failed

theorem leadsOn_transitionCloudMaterialization
    (bundleId : String) (state : CloudMaterializationState)
    (releaseId reason : Option String) :
    LeadsOn allowed
      (transitionCloudMaterialization bundleId state releaseId reason)
      world := by
  have updated := advances_transition world bundleId state releaseId reason
  apply leadsOn_bind
  apply ensures_execute
  · intro outcome _
    refine ⟨updated, fun _ _ => leadsOn_bind ?_⟩
    apply ensures_readCloudMaterialization
    · refine ⟨.refl _, ?_⟩
      intro found _
      cases found with
      | none => exact leadsOn_answer _
      | some stored => exact leadsOn_answer _
    · intro failure
      exact ⟨.refl _, by intro found same; cases same⟩
    · intro _
      exact ⟨.refl _, by intro found same; cases same⟩
  · intro outcome failed _
    exact ⟨.refl world, fun _ same => absurd same failed⟩

theorem leadsOn_publishBundle
    {publish : String → Except TapeStoreError String} {bundleId : String}
    (found : world.materializations.lookup bundleId = some row)
    (pending : row.state = .pending) :
    LeadsOn allowed (publishBundle publish bundleId) world := by
  have published := advances_publication found pending
  have some_or_none := fun count => applied_singleton count
    (fun world : CloudWorld => { world with
      publications := world.publications ++
        [⟨bundleId, world.materializations.lookup bundleId⟩] }) world
  apply ensures_perform
  · exact published
  · intro failure count _
    rcases some_or_none count with kept | asked
    · rw [kept]
      exact .refl world
    · rw [asked]
      exact published
  · intro count _
    rcases some_or_none count with kept | asked
    · rw [kept]
      exact .refl world
    · rw [asked]
      exact published

theorem leadsOn_attempt (leadsOn : LeadsOn allowed program world) :
    LeadsOn allowed
      (program.attempt : CloudProgram (Except TapeStoreError A)) world := by
  apply ensures_handle
  apply leadsOn.weaken
  intro outcome middle advanced
  match outcome with
  | .returned result => exact ensures_answer advanced
  | .crashed => exact advanced

theorem leadsOn_program (call : MaterializationCall) :
    LeadsOn allowed call.program world := by
  cases call with
  | reconcile materialization publish =>
      apply leadsOn_bind
      apply (ensures_storeCloudMaterializationPending materialization).weaken
      rintro outcome middle ⟨advanced, found⟩
      refine ⟨advanced, fun stored returned => ?_⟩
      split
      · exact leadsOn_answer _
      · have pending : stored.state = .pending := not_not.mp ‹_›
        apply leadsOn_bind
        apply (leadsOn_attempt
          (leadsOn_publishBundle (found stored returned) pending)).weaken
        intro _ _ published
        refine ⟨published, fun answer _ => ?_⟩
        cases answer with
        | ok releaseId => exact leadsOn_transitionCloudMaterialization _ _ _ _
        | error failure => exact leadsOn_answer _
  | terminalize materialization =>
      apply leadsOn_bind
      apply (ensures_storeCloudMaterializationPending materialization).weaken
      rintro outcome middle ⟨advanced, _⟩
      refine ⟨advanced, fun stored _ => ?_⟩
      split
      · exact leadsOn_answer _
      · exact leadsOn_transitionCloudMaterialization _ _ _ _

/-! ## Bundle ids in use -/

/-- A call that names the bundle of a row with another identity. -/
def MaterializationCall.Reuses (call : MaterializationCall)
    (world : CloudWorld) : Prop :=
  ∃ row, world.materializations.lookup call.materialization.bundleId =
      some row ∧
    row.toMaterializationIdentity ≠
      call.materialization.toMaterializationIdentity

/-- The call returns an error, unless a crash cuts it off. -/
def Refused (allowed : Fault TapeStoreError → Prop)
    (outcome : Faults.Outcome TapeStoreError A) : Prop :=
  (∃ failure, outcome = .returned (.error failure)) ∨
    outcome = .crashed ∧ ∃ count, allowed (.crash count)

/-- What follows a refusal is not reached. -/
theorem ensures_bind_refused {state : CloudWorld}
    (refused : Ensures allowed program world fun outcome after =>
      after = state ∧ Refused allowed outcome) :
    Ensures allowed (program >>= next) world fun outcome after =>
      after = state ∧ Refused allowed outcome := by
  apply ensures_bind
  apply refused.weaken
  rintro outcome after ⟨same, ⟨failure, rfl⟩ | ⟨rfl, crash⟩⟩
  · exact ⟨same, Or.inl ⟨failure, rfl⟩⟩
  · exact ⟨same, Or.inr ⟨rfl, crash⟩⟩

theorem ensures_storeCloudMaterializationPending_refused
    {materialization : CloudMaterialization}
    (found : world.materializations.lookup materialization.bundleId = some row)
    (differs : row.toMaterializationIdentity ≠
      materialization.toMaterializationIdentity) :
    Ensures allowed (storeCloudMaterializationPending materialization) world
      fun outcome after => after = world ∧ Refused allowed outcome := by
  have kept : world.write (fun table =>
      MaterializationTable.insertPending table materialization) = world := by
    simp only [CloudWorld.write, MaterializationTable.insertPending, found]
  have read : world.materializations.read materialization.bundleId =
      some { row with bundleId := materialization.bundleId } := by
    rw [MaterializationTable.read, found]
    rfl
  apply ensures_bind
  apply ensures_execute
  · intro outcome crash
    rw [kept]
    match outcome, crash with
    | .returned (.error failure), _ =>
        exact ⟨rfl, Or.inl ⟨failure, rfl⟩⟩
    | .crashed, crash => exact ⟨rfl, Or.inr ⟨rfl, crash rfl⟩⟩
    | .returned (.ok ()), _ =>
        apply ensures_bind
        apply ensures_readCloudMaterialization
        · rw [read]
          dsimp only
          rw [if_pos differs]
          exact ensures_answer ⟨rfl, Or.inl ⟨_, rfl⟩⟩
        · intro failure
          exact ⟨rfl, Or.inl ⟨failure, rfl⟩⟩
        · intro crash
          exact ⟨rfl, Or.inr ⟨rfl, crash⟩⟩
  · intro outcome failed crash
    match outcome, failed, crash with
    | .returned (.error failure), _, _ =>
        exact ⟨rfl, Or.inl ⟨failure, rfl⟩⟩
    | .crashed, _, crash => exact ⟨rfl, Or.inr ⟨rfl, crash rfl⟩⟩
    | .returned (.ok ()), failed, _ => exact absurd rfl failed

/-- A bundle id in use under another identity ends the call before the
publisher. -/
theorem ensures_program_refused
    {call : MaterializationCall} (reuses : call.Reuses world) :
    Ensures allowed call.program world fun outcome after =>
      after = world ∧ Refused allowed outcome := by
  obtain ⟨row, found, differs⟩ := reuses
  cases call with
  | reconcile materialization publish =>
      exact ensures_bind_refused
        (ensures_storeCloudMaterializationPending_refused found differs)
  | terminalize materialization =>
      exact ensures_bind_refused
        (ensures_storeCloudMaterializationPending_refused found differs)

end Programs

theorem advances_run (world : CloudWorld)
    (calls : List (MaterializationCall × List (Fault TapeStoreError))) :
    Advances world (Trace.run MaterializationCall.step world calls) := by
  induction calls generalizing world with
  | nil =>
      exact .refl world
  | cons call rest ih =>
      have first : Advances world (MaterializationCall.step world call) :=
        Ensures.at (leadsOn_program call.1) call.2
      exact first.trans (ih _)

/-- Materialization goes one way.  From any state, whatever calls are made and
whatever fails or is cut off in them: rows keep their identity and settled
rows do not change, the publisher is asked about pending rows only, and a call
that reuses a bundle id leaves the state and returns an error. -/
theorem materializations_oneWay
    (world : CloudWorld)
    (calls : List (MaterializationCall × List (Fault TapeStoreError))) :
    Advances world (Trace.run MaterializationCall.step world calls) ∧
      ∀ (call : MaterializationCall) (faults : List (Fault TapeStoreError)),
        call.Reuses (Trace.run MaterializationCall.step world calls) →
        let reached := Trace.run MaterializationCall.step world calls
        (call.program reached faults).state = reached ∧
          Refused (· ∈ faults) (call.program reached faults).outcome := by
  refine ⟨advances_run world calls, ?_⟩
  intro call faults reuses
  exact (ensures_program_refused reuses faults fun _ member => member).1

end Pmkit
