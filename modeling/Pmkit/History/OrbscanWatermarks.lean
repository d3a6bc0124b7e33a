import Pmkit.Feed.Interleaving

/-!
# Watermarks between data

A source that puts a watermark before whatever it goes on with keeps the
promises of a merge, once the last watermark covers the window.
-/

namespace Pmkit

open MachineInt

def sentData {D : Type} (signals : List (SourceSignal D)) :
    List (SourceEnvelope D) :=
  signals.filterMap fun
    | .data envelope => some envelope
    | _ => none

def sentWatermarks {D : Type} (signals : List (SourceSignal D)) : List I64 :=
  signals.filterMap fun
    | .watermark watermark => some watermark
    | _ => none

/-! ## A watermark before what follows -/

section Watermarks

variable {D : Type}

/-- A watermark stands right before the first of some data, or at the end. -/
def StandsBefore (toMs : I64) (rest : List (SourceEnvelope D))
    (watermark : I64) : Prop :=
  match rest with
  | [] => watermark = toMs
  | next :: _ => watermark.1 = next.canonicalKey.timestampMs.1 - 1

/-- Data with watermarks between them, behind a last watermark. -/
inductive Announced (toMs : I64) : Option I64 → List (SourceEnvelope D) →
    List (SourceSignal D) → Prop
  | covered : Announced toMs (some toMs) [] []
  | ended {last : Option I64} (below : ∀ previous, last = some previous →
      previous < toMs) : Announced toMs last [] [.watermark toMs]
  | silent {watermark : I64} {envelope : SourceEnvelope D}
      {rest : List (SourceEnvelope D)} {signals : List (SourceSignal D)}
      (stands : StandsBefore toMs rest watermark)
      (later : Announced toMs (some watermark) rest signals) :
      Announced toMs (some watermark) (envelope :: rest)
        (.data envelope :: signals)
  | marked {last : Option I64} {watermark : I64} {envelope : SourceEnvelope D}
      {rest : List (SourceEnvelope D)} {signals : List (SourceSignal D)}
      (stands : StandsBefore toMs rest watermark)
      (rises : ∀ previous, last = some previous → previous < watermark)
      (later : Announced toMs (some watermark) rest signals) :
      Announced toMs last (envelope :: rest)
        (.data envelope :: .watermark watermark :: signals)

variable {toMs : I64} {last : Option I64} {data : List (SourceEnvelope D)}
  {signals : List (SourceSignal D)}

theorem Announced.data_eq (announced : Announced toMs last data signals) :
    sentData signals = data := by
  induction announced with
  | covered => rfl
  | ended below => rfl
  | silent stands later ih =>
      exact congrArg _ ih
  | marked stands rises later ih =>
      exact congrArg _ ih

/-- Watermarks rise strictly above the last one, up to the end. -/
theorem Announced.rising (announced : Announced toMs last data signals) :
    (sentWatermarks signals).Pairwise (· < ·) ∧
      ∀ watermark ∈ sentWatermarks signals, ∀ prev,
        last = some prev → prev < watermark := by
  induction announced with
  | covered => exact ⟨.nil, fun watermark mem => by cases mem⟩
  | ended below =>
      refine ⟨List.pairwise_singleton _ _, fun watermark mem => ?_⟩
      rw [List.mem_singleton.mp mem]
      exact below
  | silent stands later ih => exact ih
  | marked stands rises later ih =>
      obtain ⟨sorted, above⟩ := ih
      refine ⟨List.pairwise_cons.mpr
        ⟨fun other mem => above other mem _ rfl, sorted⟩, ?_⟩
      intro other mem prev same
      rcases List.mem_cons.mp mem with rfl | behind
      · exact rises prev same
      · exact (rises prev same).trans (above other behind _ rfl)

theorem Announced.ends (announced : Announced toMs last data signals)
    (within : ∀ envelope ∈ data, envelope.canonicalKey.timestampMs < toMs)
    (below : ∀ prev, last = some prev → prev < toMs) :
    ∃ earlier, signals = earlier ++ [.watermark toMs] := by
  have before : ∀ {next : SourceEnvelope D} {rest : List (SourceEnvelope D)}
      {watermark : I64}, StandsBefore toMs (next :: rest) watermark →
        next.canonicalKey.timestampMs < toMs → watermark < toMs := by
    intro next rest watermark stands inside
    change watermark.1 = _ at stands
    change (_ : Int) < _ at inside ⊢
    omega
  induction announced with
  | covered => exact absurd (below toMs rfl) (lt_irrefl toMs)
  | ended below => exact ⟨[], rfl⟩
  | @silent watermark envelope rest signals stands later ih =>
      obtain ⟨_, others⟩ := List.forall_mem_cons.mp within
      cases rest with
      | nil => exact absurd (stands ▸ below watermark rfl) (lt_irrefl toMs)
      | cons next rest =>
          obtain ⟨earlier, rfl⟩ := ih others below
          exact ⟨.data envelope :: earlier, rfl⟩
  | @marked last watermark envelope rest signals stands rises later
      ih =>
      obtain ⟨_, others⟩ := List.forall_mem_cons.mp within
      cases rest with
      | nil =>
          obtain rfl : watermark = toMs := stands
          cases later with
          | covered => exact ⟨[.data envelope], rfl⟩
          | ended below => exact absurd (below watermark rfl) (lt_irrefl _)
      | cons next rest =>
          have early := before stands (List.forall_mem_cons.mp others).1
          obtain ⟨earlier, rfl⟩ := ih others (by
            intro prev same
            cases same
            exact early)
          exact ⟨.data envelope :: .watermark watermark :: earlier, rfl⟩

theorem Announced.above (announced : Announced toMs last data signals)
    (sorted : data.Pairwise fun earlier later =>
      earlier.canonicalKey.timestampMs ≤ later.canonicalKey.timestampMs)
    {earlier later : List (SourceSignal D)} {watermark : I64}
    (split : signals = earlier ++ .watermark watermark :: later) :
    ∀ envelope ∈ sentData later,
      watermark < envelope.canonicalKey.timestampMs := by
  induction announced generalizing earlier with
  | covered => simp at split
  | ended below =>
      cases earlier with
      | nil =>
          cases split
          intro envelope mem
          cases mem
      | cons signal others =>
          have lengths := congrArg List.length split
          simp at lengths
  | silent stands announced ih =>
      cases earlier with
      | nil => cases split
      | cons signal others =>
          exact ih (List.pairwise_cons.mp sorted).2
            (List.cons.inj split).2
  | @marked last mark envelope rest signals stands rises announced
      ih =>
      have restSorted := (List.pairwise_cons.mp sorted).2
      cases earlier with
      | nil => cases split
      | cons signal others =>
          have split := (List.cons.inj split).2
          cases others with
          | nil =>
              obtain ⟨same, rfl⟩ := List.cons.inj split
              cases same
              rw [announced.data_eq]
              cases rest with
              | nil =>
                  intro other mem
                  cases mem
              | cons next rest =>
                  change watermark.1 = _ at stands
                  have first : watermark < next.canonicalKey.timestampMs := by
                    change (_ : Int) < _
                    omega
                  exact List.forall_mem_cons.mpr ⟨first, fun other mem =>
                    first.trans_le
                      ((List.pairwise_cons.mp restSorted).1 other mem)⟩
          | cons second others =>
              exact ih restSorted (List.cons.inj split).2

theorem split_of_lastWatermark {watermark : I64}
    (last : lastWatermark signals = some watermark) :
    ∃ earlier later, signals = earlier ++ .watermark watermark :: later := by
  induction signals with
  | nil => cases last
  | cons signal rest ih =>
      cases signal with
      | watermark first =>
          simp only [lastWatermark, Option.some.injEq] at last
          cases found : lastWatermark rest with
          | none =>
              rw [found] at last
              exact ⟨[], rest, by rw [← last]; rfl⟩
          | some other =>
              rw [found] at last
              obtain rfl : other = watermark := last
              obtain ⟨earlier, later, rfl⟩ := ih found
              exact ⟨.watermark first :: earlier, later, rfl⟩
      | data envelope =>
          obtain ⟨earlier, later, rfl⟩ := ih last
          exact ⟨.data envelope :: earlier, later, rfl⟩
      | eof =>
          obtain ⟨earlier, later, rfl⟩ := ih last
          exact ⟨.eof :: earlier, later, rfl⟩

/-- One source keeps its promises when its data lie above the watermarks before
them, its watermarks rise, and the last one covers its data and the end. -/
theorem legal_of_signals {feed : MergedFeed D} {name : String} {last : I64}
    (above : ∀ earlier watermark later,
      signals = earlier ++ .watermark watermark :: later →
        ∀ envelope ∈ sentData later,
          watermark < envelope.canonicalKey.timestampMs)
    (rising : (sentWatermarks signals).Pairwise (· < ·))
    (ends : ∃ earlier, signals = earlier ++ [.watermark last, .eof])
    (within : ∀ envelope ∈ sentData signals,
      envelope.canonicalKey.timestampMs ≤ last)
    (replayed : ∀ replayEnd, feed.replayEndMs = some replayEnd →
      replayEnd ≤ last) :
    feed.Legal [⟨name, signals⟩] := by
  constructor
  · exact List.nodup_singleton _
  · intro definition mem earlier envelope later split watermark marked
    rw [List.mem_singleton.mp mem] at split
    obtain ⟨first, second, rfl⟩ := split_of_lastWatermark marked
    have whole : signals = (first ++ .watermark watermark :: second) ++
        .data envelope :: later := split
    refine above first watermark (second ++ .data envelope :: later)
      (by rw [whole, List.append_assoc]; rfl) envelope ?_
    rw [sentData, List.filterMap_append]
    exact List.mem_append_right _ List.mem_cons_self
  · intro definition mem earlier watermark later split prev marked
    rw [List.mem_singleton.mp mem] at split
    obtain ⟨first, second, rfl⟩ := split_of_lastWatermark marked
    have whole : signals = first ++ .watermark prev :: second ++
        .watermark watermark :: later := split
    rw [whole, sentWatermarks, List.filterMap_append] at rising
    exact ((List.pairwise_append.mp rising).2.2 prev (by simp) watermark
      List.mem_cons_self).le
  · intro definition mem
    rw [List.mem_singleton.mp mem]
    refine ⟨last, ?_, ?_, fun _ => replayed⟩
    · obtain ⟨earlier, rfl⟩ := ends
      rw [lastWatermark_append]
      rfl
    · intro other otherMem fact isFact
      rw [List.mem_singleton.mp otherMem] at isFact
      unfold SourceDefinition.facts SourceDefinition.inputs at isFact
      obtain ⟨input, inputMem, found⟩ := List.mem_filterMap.mp isFact
      rcases List.mem_append.mp inputMem with signal | joined
      · obtain ⟨sent, inside, rfl⟩ := List.mem_map.mp signal
        cases sent with
        | data envelope =>
            cases found
            exact within envelope (List.mem_filterMap.mpr ⟨_, inside, rfl⟩)
        | watermark watermark => cases found
        | eof => cases found
      · rw [List.mem_singleton.mp joined] at found
        cases found
  · intro definition mem
    obtain ⟨earlier, rfl⟩ := ends
    rw [List.mem_singleton.mp mem]
    simp

end Watermarks

end Pmkit
