import Pmkit.Discovery.Paging
import Pmkit.Library.Instants
import Pmkit.Live.Trades

/-!
# Discovery against Gamma

The live client converts the records of Gamma itself and runs the same loop,
without the validation of each page.  Where the two disagree, the live client
has published a market that the other one refuses, or has refused a page size
that the other one takes.
-/

namespace Pmkit

open MachineInt

namespace Gamma

structure Series where
  id : String

structure Event where
  series : Option (List Series)

structure Market where
  id : String
  conditionId : Option B256
  startDate : Option DateTime
  endDate : Option DateTime
  active : Option Bool
  closed : Option Bool
  events : Option (List Event)
  outcomes : Option (List String)
  clobTokenIds : Option (List U256)

structure MarketsRequest where
  closed : Bool
  limit : Nat
  offset : Nat

/-- What the client is answered by each call; nothing when it fails. -/
abbrev Client : Type := Nat → MarketsRequest → Option (List Market)

def conditionText (condition : B256) : String :=
  "0x" ++ String.ofList
    (List.leftpad 64 '0' (Nat.toDigits 16 condition.toNat))

/-- `outcomes`. -/
def outcomes (outcomes : Option (List String)) (tokens : Option (List U256)) :
    Except DiscoveryError (List GammaOutcome) :=
  match outcomes, tokens with
  | none, _ => .error (.malformedPage "market lacks outcomes")
  | some _, none => .error (.malformedPage "market lacks outcome tokens")
  | some outcomes, some tokens =>
      if outcomes.length ≠ tokens.length then
        .error (.malformedPage "outcomes and tokens differ in length")
      else
        .ok ((outcomes.zip tokens).map fun (outcome, token) =>
          { outcomeId := outcome, tokenId := Nat.repr token.toNat })

def needed {A : Type} (reason : String) (field : Option A) :
    Except DiscoveryError A :=
  field.elim (.error (.malformedPage reason)) .ok

def Market.series (market : Market) : Option Series := do
  let event ← (← market.events).head?
  (← event.series).head?

/-- `gamma_market`. -/
def gammaMarket (families : String → Option RecurringFamily)
    (market : Market) : Except DiscoveryError GammaMarket := do
  let conditionId ← needed "market lacks condition id" market.conditionId
  let startDate ← needed "market lacks start time" market.startDate
  let endDate ← needed "market lacks end time" market.endDate
  let active ← needed "market lacks activity status" market.active
  let closed ← needed "market lacks closed status" market.closed
  let outcomes ← outcomes market.outcomes market.clobTokenIds
  .ok {
    marketId := market.id
    conditionId := conditionText conditionId
    openTimeMs := startDate.timestampMillis
    closeTimeMs := endDate.timestampMillis
    active := active && !closed
    family := market.series.map fun series =>
      (families series.id).getD
        { seriesId := series.id, asset := none, duration := none }
    outcomes }

/-- `i32::MAX`. -/
def i32Max : Nat := 2147483647

/-- A page of `GammaDiscovery::snapshot`: fetched and converted. -/
def receiveMarkets (client : Client) (limit : Nat)
    (families : String → Option RecurringFamily) : Receive :=
  fun call offset =>
    if i32Max < offset then
      .error (.offsetOverflow offset)
    else
      match client call { closed := false, limit, offset } with
      | none =>
          .error
            (if offset = 0 then .unavailable else .incompletePagination offset)
      | some page => page.mapM (gammaMarket families)

/-- `GammaDiscovery::snapshot`, followed for a number of requests. -/
def snapshot (text : DigestText) (client : Client) (pageSize shardSize : Nat)
    (families : String → Option RecurringFamily) (requests : Nat) :
    Option (Except DiscoveryError DiscoverySnapshot) :=
  if pageSize = 0 ∨ shardSize = 0 then
    some (.error (.malformedPage "page and shard sizes must be positive"))
  else if i32Max < pageSize then
    some (.error (.malformedPage "page size exceeds Gamma range"))
  else
    (pagingAfter text pageSize (receiveMarkets client pageSize families)
      requests).publish text shardSize

def converted (client : Client) (families : String → Option RecurringFamily) :
    Fetch :=
  fun call request =>
    match client call
        { closed := false, limit := request.limit, offset := request.offset }
      with
    | none => .error .unavailable
    | some page => page.mapM (gammaMarket families)

/-! ## Agreement -/

/-- Both discoveries return, and with the same snapshot or with an error
each. -/
def Agree (text : DigestText) (client : Client) (pageSize shardSize : Nat)
    (families : String → Option RecurringFamily) : Prop :=
  ∃ requests live fixture,
    snapshot text client pageSize shardSize families requests = some live ∧
    discoverSubscriptionSnapshot text pageSize shardSize
      (converted client families) requests = some fixture ∧
    ((∃ published, live = .ok published ∧ fixture = .ok published) ∨
      (live.isOk = false ∧ fixture.isOk = false))

def served (client : Client) (pageSize : Nat)
    (families : String → Option RecurringFamily) : Receive :=
  fun call offset =>
    converted client families call { limit := pageSize, offset }

/-- Pages that could be published, were they valid. -/
structure Publishable (text : DigestText) (client : Client) (pageSize : Nat)
    (families : String → Option RecurringFamily)
    (pages : List (List GammaMarket)) (last : List GammaMarket) : Prop where
  served : Received (served client pageSize families) (pages ++ [last])
  continues : Continues text pageSize pages
  short : last.length < pageSize
  normal : Normal (pages ++ [last]).flatten

section Agreement

variable {text : DigestText} {client : Client} {pageSize shardSize : Nat}
  {families : String → Option RecurringFamily}
  {pages others : List (List GammaMarket)} {page last other : List GammaMarket}
  {requests : Nat} {published : DiscoverySnapshot}

theorem receiveMarkets_eq_ok {call offset : Nat} :
    receiveMarkets client pageSize families call offset = .ok page ↔
      offset ≤ i32Max ∧ served client pageSize families call offset =
        .ok page := by
  unfold receiveMarkets served converted
  by_cases large : i32Max < offset
  · rw [if_pos large]
    simp [Nat.not_le.mpr large]
  · rw [if_neg large]
    cases client call { closed := false, limit := pageSize, offset } with
    | none => simp
    | some page => simp [Nat.not_lt.mp large]

/-- Every list of pages that lets the loop go on leaves an offset below
2^31. -/
def SmallOffsets (text : DigestText) (client : Client) (pageSize : Nat)
    (families : String → Option RecurringFamily) : Prop :=
  ∀ pages, Received (served client pageSize families) pages →
    Continues text pageSize pages → pages.flatten.length < 2147483648

/-- No full page comes where a short one does. -/
theorem Publishable.length_le
    (first : Publishable text client pageSize families pages last)
    (second : Publishable text client pageSize families others other) :
    others.length ≤ pages.length := by
  by_contra longer
  have inside : pages.length < others.length := by omega
  have split : others = others.take pages.length ++
      others[pages.length] :: others.drop (pages.length + 1) := by
    rw [List.getElem_cons_drop, List.take_append_drop]
  have received := second.served
  rw [split, List.append_assoc, List.cons_append] at received
  obtain ⟨before, found⟩ := received.split
  obtain ⟨earlier, lastFound⟩ := first.served.split
  have same := before.unique earlier (by
    rw [List.length_take]
    omega)
  rw [same, lastFound] at found
  cases found
  have full := second.continues.full _ (List.getElem_mem inside)
  have short := first.short
  omega

/-- Pages that are followed by a short one are determined. -/
theorem Publishable.unique
    (first : Publishable text client pageSize families pages last)
    (second : Publishable text client pageSize families others other) :
    pages = others ∧ last = other := by
  have count : pages.length = others.length :=
    Nat.le_antisymm (second.length_le first) (first.length_le second)
  have same := first.served.unique second.served (by simp [count])
  obtain ⟨before, rest⟩ := List.append_inj' same rfl
  cases rest
  exact ⟨before, rfl⟩

/-- The live discovery publishes the pages that can be published, whether or
not they are valid. -/
theorem snapshot_eq_ok (small : SmallOffsets text client pageSize families)
    (positive : ¬(pageSize = 0 ∨ shardSize = 0)) :
    snapshot text client pageSize shardSize families requests =
        some (.ok published) ↔
      pageSize ≤ i32Max ∧ ∃ pages last, pages.length < requests ∧
        Publishable text client pageSize families pages last ∧
        published = snapshotOf text (pages ++ [last]).flatten shardSize := by
  unfold snapshot
  rw [if_neg positive]
  by_cases large : i32Max < pageSize
  · rw [if_pos large]
    simp [Nat.not_le.mpr large]
  rw [if_neg large, publish_eq_some_ok, and_iff_right (Nat.not_lt.mp large)]
  constructor
  · rintro ⟨_, returned, normalized⟩
    obtain ⟨pages, last, count, received, continues, short, rfl⟩ :=
      pagingAfter_eq_ok.mp returned
    obtain ⟨normal, rfl⟩ := normalizeSnapshot_eq_ok.mp normalized
    refine ⟨pages, last, count, ⟨?_, continues, short, normal⟩, rfl⟩
    exact received.mono fun _ _ _ _ found => (receiveMarkets_eq_ok.mp found).2
  · rintro ⟨pages, last, count, ⟨received, continues, short, normal⟩, rfl⟩
    refine ⟨_, pagingAfter_eq_ok.mpr
      ⟨pages, last, count, ?_, continues, short, rfl⟩,
      normalizeSnapshot_eq_ok.mpr ⟨normal, rfl⟩⟩
    apply received.mono
    intro before page after whole found
    refine receiveMarkets_eq_ok.mpr ⟨?_, found⟩
    -- the pages before another one let the loop go on
    have offset : Received (served client pageSize families) before ∧
        Continues text pageSize before := by
      rcases List.eq_nil_or_concat after with rfl | ⟨rest, final, rfl⟩
      · obtain ⟨rfl, _⟩ := List.append_inj' whole rfl
        exact ⟨received.split.1, continues⟩
      · rw [List.concat_eq_append, ← List.cons_append, ← List.append_assoc]
          at whole
        obtain ⟨rfl, _⟩ := List.append_inj' whole rfl
        exact ⟨received.split.1.split.1, continues.of_prefix⟩
    have bound := small before offset.1 offset.2
    unfold i32Max
    omega

theorem discoverSubscriptionSnapshot_eq_ok
    (positive : ¬(pageSize = 0 ∨ shardSize = 0)) :
    discoverSubscriptionSnapshot text pageSize shardSize
        (converted client families) requests = some (.ok published) ↔
      ∃ pages last, pages.length < requests ∧
        (Publishable text client pageSize families pages last ∧
          ∀ page ∈ pages ++ [last], validatePage page = .ok ()) ∧
        published = snapshotOf text (pages ++ [last]).flatten shardSize := by
  unfold discoverSubscriptionSnapshot
  rw [if_neg positive, publish_eq_some_ok]
  constructor
  · rintro ⟨_, returned, normalized⟩
    obtain ⟨pages, last, count, received, continues, short, rfl⟩ :=
      pagingAfter_eq_ok.mp returned
    obtain ⟨normal, rfl⟩ := normalizeSnapshot_eq_ok.mp normalized
    refine ⟨pages, last, count, ⟨⟨?_, continues, short, normal⟩, ?_⟩, rfl⟩
    · exact received.mono fun _ _ _ _ found => (receivePage_eq_ok.mp found).1
    · intro page mem
      obtain ⟨before, after, whole⟩ := List.append_of_mem mem
      rw [whole] at received
      exact (receivePage_eq_ok.mp received.split.2).2
  · rintro ⟨pages, last, count, ⟨⟨received, continues, short, normal⟩, valid⟩,
      rfl⟩
    refine ⟨_, pagingAfter_eq_ok.mpr
      ⟨pages, last, count, ?_, continues, short, rfl⟩,
      normalizeSnapshot_eq_ok.mpr ⟨normal, rfl⟩⟩
    apply received.mono
    intro before page after whole found
    refine receivePage_eq_ok.mpr ⟨found, valid page ?_⟩
    rw [whole]
    exact List.mem_append_right _ List.mem_cons_self

/-- A loop over full pages ends before its offset reaches 2^31. -/
theorem returns_of_smallOffsets {receive : Receive} (shardSize : Nat)
    (small : SmallOffsets text client pageSize families)
    (positive : 0 < pageSize)
    (part : ∀ call offset page, receive call offset = .ok page →
      served client pageSize families call offset = .ok page) :
    ∃ result, (pagingAfter text pageSize receive 2147483648).publish text
      shardSize = some result := by
  cases turn : pagingAfter text pageSize receive 2147483648 with
  | returns result =>
      cases result with
      | error error => exact ⟨_, rfl⟩
      | ok markets => exact ⟨_, rfl⟩
  | goesOn state =>
      obtain ⟨pages, count, received, continues, _⟩ :=
        pagingAfter_eq_goesOn.mp turn
      have bound := small pages
        (received.mono fun _ _ _ _ found => part _ _ _ found) continues
      have full := continues.length_mul_le
      have grows : pages.length * 1 ≤ pages.length * pageSize :=
        Nat.mul_le_mul_left _ positive
      omega

variable {result : Except DiscoveryError DiscoverySnapshot}

theorem snapshot_stays {later : Nat} (after : requests ≤ later)
    (returned : snapshot text client pageSize shardSize families requests =
      some result) :
    snapshot text client pageSize shardSize families later = some result := by
  unfold snapshot at returned ⊢
  split at returned
  · rw [if_pos ‹_›]
    exact returned
  · rw [if_neg ‹_›]
    split at returned
    · rw [if_pos ‹_›]
      exact returned
    · rw [if_neg ‹_›]
      exact publish_stays returned after

theorem discoverSubscriptionSnapshot_stays {fetch : Fetch} {later : Nat}
    (after : requests ≤ later)
    (returned : discoverSubscriptionSnapshot text pageSize shardSize fetch
      requests = some result) :
    discoverSubscriptionSnapshot text pageSize shardSize fetch later =
      some result := by
  unfold discoverSubscriptionSnapshot at returned ⊢
  split at returned
  · rw [if_pos ‹_›]
    exact returned
  · rw [if_neg ‹_›]
    exact publish_stays returned after

theorem both_return (small : SmallOffsets text client pageSize families)
    (positive : ¬(pageSize = 0 ∨ shardSize = 0)) :
    ∃ live fixture,
      snapshot text client pageSize shardSize families 2147483648 =
        some live ∧
      discoverSubscriptionSnapshot text pageSize shardSize
        (converted client families) 2147483648 = some fixture := by
  have size : 0 < pageSize := by omega
  obtain ⟨fixture, fixtureReturns⟩ := returns_of_smallOffsets shardSize small
    size fun _ _ _ found => (receivePage_eq_ok.mp found).1
  unfold snapshot discoverSubscriptionSnapshot
  simp only [if_neg positive]
  by_cases large : i32Max < pageSize
  · exact ⟨_, fixture, if_pos large, fixtureReturns⟩
  · obtain ⟨live, liveReturns⟩ := returns_of_smallOffsets shardSize small
      size fun _ _ _ found => (receiveMarkets_eq_ok.mp found).2
    rw [if_neg large]
    exact ⟨live, fixture, liveReturns, fixtureReturns⟩

/-- Both discoveries agree just when the pages that could be published are
valid and of a size that Gamma takes, or neither. -/
theorem agree_iff (text : DigestText) (client : Client)
    (pageSize shardSize : Nat) (families : String → Option RecurringFamily)
    (small : SmallOffsets text client pageSize families) :
    Agree text client pageSize shardSize families ↔
      pageSize = 0 ∨ shardSize = 0 ∨
      ∀ pages last, Publishable text client pageSize families pages last →
        (pageSize < 2147483648 ↔
          ∀ page ∈ pages ++ [last], validatePage page = .ok ()) := by
  rw [← or_assoc]
  by_cases zero : pageSize = 0 ∨ shardSize = 0
  · refine ⟨fun _ => .inl zero, fun _ => ?_⟩
    exact ⟨0, _, _, if_pos zero, if_pos zero, .inr ⟨rfl, rfl⟩⟩
  rw [or_iff_right zero]
  constructor
  · rintro ⟨requests, live, fixture, liveReturns, fixtureReturns, same⟩
    intro pages last publishable
    have liveLater := snapshot_stays
      (Nat.le_max_left requests (pages.length + 1)) liveReturns
    have fixtureLater := discoverSubscriptionSnapshot_stays
      (Nat.le_max_left requests (pages.length + 1)) fixtureReturns
    have enough : pages.length < max requests (pages.length + 1) := by omega
    constructor
    · intro size
      have published := (snapshot_eq_ok small zero).mpr
        ⟨by unfold i32Max; omega, pages, last, enough, publishable, rfl⟩
      rw [liveLater] at published
      cases published
      rcases same with ⟨published, isLive, rfl⟩ | ⟨failed, _⟩
      · obtain ⟨others, other, _, ⟨otherPublishable, valid⟩, _⟩ :=
          (discoverSubscriptionSnapshot_eq_ok zero).mp fixtureLater
        obtain ⟨rfl, rfl⟩ := publishable.unique otherPublishable
        exact valid
      · cases failed
    · intro valid
      have published := (discoverSubscriptionSnapshot_eq_ok zero).mpr
        ⟨pages, last, enough, ⟨publishable, valid⟩, rfl⟩
      rw [fixtureLater] at published
      cases published
      rcases same with ⟨published, rfl, isFixture⟩ | ⟨_, failed⟩
      · have size := ((snapshot_eq_ok small zero).mp liveLater).1
        unfold i32Max at size
        omega
      · cases failed
  · intro both
    obtain ⟨live, fixture, liveReturns, fixtureReturns⟩ :=
      both_return small zero
    refine ⟨_, live, fixture, liveReturns, fixtureReturns, ?_⟩
    cases live with
    | ok published =>
        obtain ⟨size, pages, last, count, publishable, rfl⟩ :=
          (snapshot_eq_ok small zero).mp liveReturns
        have valid := (both pages last publishable).mp (by
          unfold i32Max at size
          omega)
        have alike := (discoverSubscriptionSnapshot_eq_ok zero).mpr
          ⟨pages, last, count, ⟨publishable, valid⟩, rfl⟩
        rw [fixtureReturns] at alike
        cases alike
        exact .inl ⟨_, rfl, rfl⟩
    | error error =>
        cases fixture with
        | error other => exact .inr ⟨rfl, rfl⟩
        | ok published =>
            obtain ⟨pages, last, count, ⟨publishable, valid⟩, rfl⟩ :=
              (discoverSubscriptionSnapshot_eq_ok zero).mp fixtureReturns
            have size := (both pages last publishable).mpr valid
            have alike := (snapshot_eq_ok small zero).mpr
              ⟨by unfold i32Max; omega, pages, last, count, publishable, rfl⟩
            rw [liveReturns] at alike
            cases alike

end Agreement

namespace GammaSample

def market (outcomes : List (String × U256)) : Market where
  id := "m0"
  conditionId := some 1
  startDate := some
    { seconds := 0, nanosecond := 0, year := by decide, leap := by decide }
  endDate := some
    { seconds := 300, nanosecond := 0, year := by decide, leap := by decide }
  active := some true
  closed := some false
  events := some [{ series := some [{ id := "btc" }] }]
  outcomes := some (outcomes.map Prod.fst)
  clobTokenIds := some (outcomes.map Prod.snd)

def expected (outcomes : List GammaOutcome) : GammaMarket where
  marketId := "m0"
  conditionId := conditionText 1
  openTimeMs := I64.clamp 0
  closeTimeMs := I64.clamp 300000
  active := true
  family := some { seriesId := "btc", asset := none, duration := none }
  outcomes

/-- A client that is answered with the one market by every call. -/
def client (outcomes : List (String × U256)) : Client :=
  fun _ _ => some [market outcomes]

def noFamilies : String → Option RecurringFamily :=
  fun _ => none

/-- The hashes of the two snapshots below. -/
def text : DigestText where
  toVec := DiscoverySample.toVec
  sha256Hex bytes :=
    if bytes = DiscoverySample.toVec (.array [(expected []).json]) then
      "cf277912cba0bc665612ab4ad0e2e03eb8cf7ad2c8da205b0b0f239226003432"
    else if bytes = DiscoverySample.toVec
        (.array [(expected [⟨"Up", "7"⟩]).json]) then
      "73c45faf653eb7f93534195914416fa591cc917f2528e8a7e3192cd953ac6bd1"
    else
      ""

theorem served_client (outcomes : List (String × U256)) (call offset : Nat)
    {page : List GammaMarket}
    (found : served (client outcomes) 2 noFamilies call offset = .ok page) :
    page.length = 1 := by
  have read := Fallible.forall₂_of_mapM (show [market outcomes].mapM
    (gammaMarket noFamilies) = .ok page from found)
  exact read.length_eq.symm

theorem client_small (outcomes : List (String × U256)) :
    SmallOffsets text (client outcomes) 2 noFamilies := by
  intro pages received continues
  cases received with
  | nil => decide
  | snoc before found =>
      have full := continues.full _ (List.mem_append_right _ List.mem_cons_self)
      have single := served_client outcomes _ _ found
      omega

end GammaSample

open GammaSample

/-- A market with an outcome is published by both. -/
theorem agree_iff_up : Agree text (client [("Up", 7)]) 2 1 noFamilies := by
  refine (agree_iff text (client [("Up", 7)]) 2 1 noFamilies
    (client_small _)).mpr (.inr (.inr ?_))
  intro pages last publishable
  refine ⟨fun _ => ?_, fun _ => by decide⟩
  intro page member
  obtain ⟨before, after, whole⟩ := List.append_of_mem member
  have received := publishable.served
  rw [whole] at received
  have found := received.split.2
  have expectedPage : served (client [("Up", 7)]) 2 noFamilies before.length
      before.flatten.length = .ok [expected [⟨"Up", "7"⟩]] := by
    rfl
  rw [expectedPage] at found
  cases found
  rfl

/-- A market without outcomes is published by the live discovery only. -/
theorem not_agree_noOutcomes : ¬Agree text (client []) 2 1 noFamilies := by
  have live : snapshot text (client []) 2 1 noFamilies 1 =
      some (.ok (snapshotOf text [expected []] 1)) := by
    rfl
  have fixture : discoverSubscriptionSnapshot text 2 1
      (converted (client []) noFamilies) 1 = some (.error (.malformedPage
        "market identity or window is invalid")) := by
    rfl
  rintro ⟨requests, _, _, liveReturns, fixtureReturns, same⟩
  have liveLater := snapshot_stays (Nat.le_max_left 1 requests) live
  rw [snapshot_stays (Nat.le_max_right 1 requests) liveReturns] at liveLater
  have fixtureLater := discoverSubscriptionSnapshot_stays
    (Nat.le_max_left 1 requests) fixture
  rw [discoverSubscriptionSnapshot_stays (Nat.le_max_right 1 requests)
    fixtureReturns] at fixtureLater
  cases liveLater
  cases fixtureLater
  rcases same with ⟨_, _, impossible⟩ | ⟨impossible, _⟩
  · cases impossible
  · cases impossible

end Gamma

end Pmkit
