import Pmkit.Library.Repeats
import Pmkit.Paper.Entries

/-!
# Damaged histories

A history that is read back with copies of its entries gives the same ledger.
One that contradicts itself under one identity is refused as such, and one that
lost an entry before its last, or has two neighbours in the other order, breaks
the count of the sequences.
-/

namespace Pmkit

namespace PaperLedger

/-! ## Copies and contradictions -/

section Deduplicate

variable {seen : KeyedMap String PaperLedgerEntry}
  {entries unique : List PaperLedgerEntry}

/-- Copies of what was read are dropped. -/
theorem deduplicate_repeats {read repeated : List PaperLedgerEntry}
    (repeats : Repeats Eq Eq read entries repeated)
    (known : ∀ entry ∈ read, seen.lookup entry.eventId = some entry) :
    deduplicate seen repeated = deduplicate seen entries := by
  induction repeats generalizing seen with
  | nil read =>
      rfl
  | keep isSame later ih =>
      rename_i read entries repeated entry kept
      subst isSame
      rw [deduplicate, deduplicate]
      cases found : seen.lookup entry.eventId with
      | some prev =>
          by_cases differs : prev ≠ entry
          · simp only [if_pos differs]
          · simp only [if_neg differs]
            rw [not_not] at differs
            subst differs
            apply ih
            intro other mem
            rcases List.mem_cons.mp mem with rfl | before
            · exact found
            · exact known other before
      | none =>
          simp only
          rw [ih]
          intro other mem
          rw [KeyedMap.lookup_insert_eq]
          rcases List.mem_cons.mp mem with rfl | before
          · exact if_pos rfl
          · rw [if_neg, known other before]
            intro same
            rw [← same, known other before] at found
            cases found
  | copy isSeen isCopy later ih =>
      subst isCopy
      rw [deduplicate, known _ isSeen]
      simp only [ne_eq, not_true_eq_false, if_false]
      exact ih known

def ReadAs (seen : KeyedMap String PaperLedgerEntry)
    (entries : List PaperLedgerEntry) (eventId : String)
    (entry : PaperLedgerEntry) : Prop :=
  seen.lookup eventId = some entry ∨
    entry ∈ entries ∧ entry.eventId = eventId

/-- One entry is refused, or it is known afterwards and the rest is read. -/
theorem deduplicate_cons
    (seen : KeyedMap String PaperLedgerEntry) (entry : PaperLedgerEntry)
    (rest : List PaperLedgerEntry) :
    (∃ prev, prev ≠ entry ∧ seen.lookup entry.eventId = some prev ∧
        deduplicate seen (entry :: rest) =
          .error (.conflictingDuplicate entry.eventId)) ∨
      ∃ next : KeyedMap String PaperLedgerEntry,
        next.lookup entry.eventId = some entry ∧
        (∀ eventId other, ReadAs next rest eventId other ↔
          ReadAs seen (entry :: rest) eventId other) ∧
        ∃ keep : List PaperLedgerEntry → List PaperLedgerEntry,
          deduplicate seen (entry :: rest) =
            (deduplicate next rest).map keep := by
  rw [deduplicate]
  cases found : seen.lookup entry.eventId with
  | some prev =>
      by_cases same : prev = entry
      · subst same
        refine Or.inr ⟨seen, found, ?_, id, ?_⟩
        · intro eventId other
          unfold ReadAs
          rw [List.mem_cons]
          constructor
          · exact Or.imp_right (And.imp_left Or.inr)
          · rintro (known | ⟨rfl | later, sameId⟩)
            · exact .inl known
            · exact .inl (sameId ▸ found)
            · exact .inr ⟨later, sameId⟩
        · simp only [ne_eq, not_true_eq_false, if_false]
          cases deduplicate seen rest <;> rfl
      · refine Or.inl ⟨prev, same, rfl, ?_⟩
        simp only [if_pos same]
  | none =>
      refine Or.inr ⟨AList.insert entry.eventId entry seen,
        AList.lookup_insert seen, ?_, (entry :: ·), rfl⟩
      intro eventId other
      unfold ReadAs
      rw [KeyedMap.lookup_insert_eq, List.mem_cons]
      by_cases own : eventId = entry.eventId
      · subst own
        rw [if_pos rfl, found, Option.some.injEq]
        constructor
        · rintro (rfl | ⟨later, sameId⟩)
          · exact .inr ⟨Or.inl rfl, rfl⟩
          · exact .inr ⟨Or.inr later, sameId⟩
        · rintro (absent | ⟨rfl | later, sameId⟩)
          · cases absent
          · exact .inl rfl
          · exact .inr ⟨later, sameId⟩
      · rw [if_neg own]
        constructor
        · exact Or.imp_right (And.imp_left Or.inr)
        · rintro (known | ⟨rfl | later, sameId⟩)
          · exact .inl known
          · exact absurd sameId.symm own
          · exact .inr ⟨later, sameId⟩

theorem deduplicate_ok (accepted : deduplicate seen entries = .ok unique) :
    ∀ entry ∈ entries, ∀ prev,
      ReadAs seen entries entry.eventId prev → prev = entry := by
  induction entries generalizing seen unique with
  | nil =>
      intro entry mem
      cases mem
  | cons first rest ih =>
      rcases deduplicate_cons seen first rest with
        ⟨_, _, _, refused⟩ | ⟨next, known, reads, keep, same⟩
      · rw [refused] at accepted
        cases accepted
      · rw [same] at accepted
        cases later : deduplicate next rest with
        | error failure =>
            rw [later] at accepted
            cases accepted
        | ok kept =>
            have unambiguous := ih later
            intro entry mem prev read
            rw [← reads] at read
            rcases List.mem_cons.mp mem with rfl | inRest
            · rcases read with found | ⟨inRest, sameId⟩
              · rw [known] at found
                exact (Option.some.inj found).symm
              · exact (unambiguous prev inRest entry
                  (Or.inl (sameId ▸ known))).symm
            · exact unambiguous entry inRest prev read

/-- A refusal names an identity under which two entries differ. -/
theorem deduplicate_error {failure : PaperLedgerError}
    (refused : deduplicate seen entries = .error failure) :
    ∃ entry ∈ entries, failure = .conflictingDuplicate entry.eventId ∧
      ∃ prev, prev ≠ entry ∧
        ReadAs seen entries entry.eventId prev := by
  induction entries generalizing seen with
  | nil =>
      cases refused
  | cons first rest ih =>
      rcases deduplicate_cons seen first rest with
        ⟨prev, differs, found, conflict⟩ |
          ⟨next, _, reads, keep, same⟩
      · rw [conflict] at refused
        cases refused
        exact ⟨first, List.mem_cons_self, rfl, prev, differs, Or.inl found⟩
      · rw [same] at refused
        cases later : deduplicate next rest with
        | ok kept =>
            rw [later] at refused
            cases refused
        | error reason =>
            rw [later] at refused
            cases refused
            obtain ⟨entry, mem, named, prev, differs, read⟩ :=
              ih later
            exact ⟨entry, List.mem_cons_of_mem _ mem, named, prev,
              differs, (reads _ _).mp read⟩

end Deduplicate

/-- A history in which each identity has one content. -/
theorem eventIds_nodup
    {entries unique : List PaperLedgerEntry} (nodup : entries.Nodup)
    (accepted : deduplicate ∅ entries = .ok unique) :
    (entries.map PaperLedgerEntry.eventId).Nodup := by
  apply List.Nodup.map_on _ nodup
  intro left inLeft right inRight same
  exact deduplicate_ok accepted right inRight left (Or.inr ⟨inLeft, same⟩)

@[simp]
theorem replayStart_nextSequence
    (unique : List PaperLedgerEntry) (idPrefix : String) :
    (replayStart unique idPrefix).nextSequence = 0 := rfl

/-- An entry of an accepted history has the number of its place. -/
theorem sequence_of_replay
    {ledger next : PaperLedger} {before after : List PaperLedgerEntry}
    {entry : PaperLedgerEntry}
    (accepted : replay ledger (before ++ entry :: after) = .ok next) :
    entry.sequence = ledger.nextSequence + before.length := by
  induction before generalizing ledger with
  | nil =>
      rw [List.nil_append, replay] at accepted
      by_cases gap : entry.sequence ≠ ledger.nextSequence
      · rw [if_pos gap] at accepted
        cases accepted
      · exact not_not.mp gap
  | cons first rest ih =>
      rw [List.cons_append, replay] at accepted
      by_cases gap : first.sequence ≠ ledger.nextSequence
      · rw [if_pos gap] at accepted
        cases accepted
      · rw [if_neg gap] at accepted
        cases result : (ledger.apply first).2 with
        | error failure =>
            rw [← Prod.eta (ledger.apply first), result] at accepted
            cases accepted
        | ok done =>
            have frame := (applied_of_apply result).frame
            rw [← Prod.eta (ledger.apply first), result] at accepted
            have later := ih accepted
            rw [later, List.length_cons]
            simp only [frame.2.2.1]
            omega

/-! ## Reconstruction -/

section Reconstruct

variable {order : IterationOrder String} {idPrefix : String}
  {entries : List PaperLedgerEntry} {ledger : PaperLedger}

/-- The passes of a reconstruction that is accepted. -/
theorem reconstruct_eq_ok_iff :
    reconstruct order entries idPrefix = .ok ledger ↔
      ∃ unique replayed, deduplicate ∅ entries = .ok unique ∧
        replay (replayStart unique idPrefix) unique = .ok replayed ∧
          replayed.Closed ∧ ledger = { replayed with entries := unique } := by
  unfold reconstruct
  cases read : deduplicate ∅ entries with
  | error failure =>
      constructor
      · intro accepted
        cases accepted
      · rintro ⟨unique, replayed, no, _⟩
        cases no
  | ok unique =>
      simp only [bind, Except.bind]
      cases run : replay (replayStart unique idPrefix) unique with
      | error failure =>
          constructor
          · intro accepted
            cases accepted
          · rintro ⟨other, replayed, same, no, _⟩
            cases same
            rw [run] at no
            cases no
      | ok replayed =>
          simp only
          constructor
          · intro accepted
            cases closed : checkClosed order replayed with
            | error failure =>
                rw [closed] at accepted
                cases accepted
            | ok done =>
                rw [closed] at accepted
                cases accepted
                exact ⟨unique, replayed, rfl, run,
                  (checkClosed_eq_ok_iff order).mp closed, rfl⟩
          · rintro ⟨other, same, unchanged, ran, closed, rfl⟩
            cases unchanged
            rw [run] at ran
            cases ran
            rw [(checkClosed_eq_ok_iff order).mpr closed]
            rfl

theorem reconstruct_refused {damaged : List PaperLedgerEntry}
    (nodup : (damaged.map PaperLedgerEntry.eventId).Nodup)
    (broken : ∀ ledger, replay (replayStart damaged idPrefix) damaged ≠
      .ok ledger) (order : IterationOrder String) :
    ∃ failure, reconstruct order damaged idPrefix = .error failure := by
  cases result : reconstruct order damaged idPrefix with
  | error failure => exact ⟨failure, rfl⟩
  | ok ledger =>
      obtain ⟨unique, replayed, read, ran, _⟩ :=
        reconstruct_eq_ok_iff.mp result
      rw [deduplicate_of_nodup nodup (by simp)] at read
      cases read
      exact absurd ran (broken replayed)

/-- Another content under a known identity is a conflict, wherever it is. -/
theorem deduplicate_conflicting {before after : List PaperLedgerEntry}
    {entry conflicting : PaperLedgerEntry}
    (distinct : ((before ++ after).map PaperLedgerEntry.eventId).Nodup)
    (mem : entry ∈ before ++ after)
    (sameId : conflicting.eventId = entry.eventId)
    (differs : conflicting ≠ entry) :
    deduplicate ∅ (before ++ conflicting :: after) =
      .error (.conflictingDuplicate entry.eventId) := by
  have among : ∀ other, other ∈ before ++ conflicting :: after ↔
      other = conflicting ∨ other ∈ before ++ after := by
    intro other
    rw [List.mem_append, List.mem_cons, List.mem_append]
    tauto
  cases result : deduplicate ∅ (before ++ conflicting :: after) with
  | ok unique =>
      have same := deduplicate_ok result entry ((among entry).mpr (Or.inr mem))
        conflicting (Or.inr ⟨(among conflicting).mpr (Or.inl rfl), sameId⟩)
      exact absurd same differs
  | error failure =>
      obtain ⟨named, inDamaged, rfl, prev, apart, read⟩ :=
        deduplicate_error result
      rcases read with no | ⟨previousIn, previousId⟩
      · rw [AList.lookup_empty] at no
        cases no
      · have isNamed : named.eventId = entry.eventId := by
          rcases (among named).mp inDamaged with rfl | namedIn
          · exact sameId
          · rcases (among prev).mp previousIn with rfl | previousIn
            · exact previousId.symm.trans sameId
            · exact absurd (List.inj_on_of_nodup_map distinct previousIn
                namedIn previousId) apart
        rw [isNamed]

/-- Of an accepted history, copies give the same ledger, another content under
a known identity is a conflict, and the loss of an entry before the last or an
exchange of two neighbours is refused. -/
theorem reconstruct_damaged
    (nodup : entries.Nodup)
    (accepted : reconstruct order entries idPrefix = .ok ledger)
    (other : IterationOrder String) :
    (∀ repeated, Repeats Eq Eq [] entries repeated →
      reconstruct other repeated idPrefix = .ok ledger) ∧
    (∀ before after entry conflicting, entries = before ++ after →
      entry ∈ entries → conflicting.eventId = entry.eventId →
        conflicting ≠ entry →
          reconstruct other (before ++ conflicting :: after) idPrefix =
            .error (.conflictingDuplicate entry.eventId)) ∧
    (∀ before lost after, entries = before ++ lost :: after → after ≠ [] →
      ∃ failure, reconstruct other (before ++ after) idPrefix =
        .error failure) ∧
    ∀ before first second after,
      entries = before ++ first :: second :: after →
        ∃ failure, reconstruct other (before ++ second :: first :: after)
          idPrefix = .error failure := by
  obtain ⟨unique, replayed, read, ran, closed, rfl⟩ :=
    reconstruct_eq_ok_iff.mp accepted
  have distinct := eventIds_nodup nodup read
  have all : unique = entries := by
    rw [deduplicate_of_nodup distinct (by simp)] at read
    exact (Except.ok.inj read).symm
  subst all
  refine ⟨?_, ?_, ?_, ?_⟩
  · intro repeated repeats
    refine reconstruct_eq_ok_iff.mpr
      ⟨unique, replayed, ?_, ran, closed, rfl⟩
    rw [deduplicate_repeats repeats, read]
    intro entry member
    cases member
  · rintro before after entry conflicting rfl member sameId differs
    unfold reconstruct
    rw [deduplicate_conflicting distinct member sameId differs]
    rfl
  · rintro before lost after rfl notLast
    cases after with
    | nil =>
        exact absurd rfl notLast
    | cons next rest =>
        apply reconstruct_refused
        · refine List.Nodup.sublist (List.Sublist.map _ ?_) distinct
          exact (List.sublist_cons_self lost _).append_left before
        · intro ledger damaged
          rw [← List.singleton_append, ← List.append_assoc] at ran
          have counted := sequence_of_replay ran
          have recounted := sequence_of_replay damaged
          rw [List.length_append, List.length_singleton] at counted
          simp only [replayStart_nextSequence] at counted recounted
          omega
  · rintro before first second after rfl
    apply reconstruct_refused
    · apply distinct.perm
      apply List.Perm.map
      exact (List.Perm.swap second first after).append_left before
    · intro ledger damaged
      rw [← List.singleton_append, ← List.append_assoc] at ran
      have counted := sequence_of_replay ran
      have recounted := sequence_of_replay damaged
      rw [List.length_append, List.length_singleton] at counted
      simp only [replayStart_nextSequence] at counted recounted
      omega

end Reconstruct

def deposits : List PaperLedgerEntry :=
  [openingEntry 10,
    { eventId := ledgerEventId 1
      sequence := 1
      timestampMs := 0
      event := .cashMovement 5 }]

theorem reconstruct_deposits :
    reconstruct (.stored String) deposits "main" = .ok
      { replayStart deposits "main" with
        nextSequence := 2
        entries := deposits } := by
  rfl

theorem reconstruct_damaged_deposits :
    ∃ failure, reconstruct (.stored String) deposits.reverse "main" =
      .error failure :=
  (reconstruct_damaged (by decide +kernel) reconstruct_deposits
    (.stored String)).2.2.2 [] _ _ [] rfl

end PaperLedger

end Pmkit
