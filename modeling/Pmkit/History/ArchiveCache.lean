import Mathlib.Data.List.MinMax
import Pmkit.Event
import Pmkit.Library.Fallible
import Pmkit.Library.KeyedMap
import Pmkit.Library.Trace

/-!
# The archive cache

Archives of one day are downloaded, verified and kept under a byte quota.  The
quota is kept in memory and is rebuilt from the directory at every install,
but what was rebuilt is cleared again before the new archive is entered.
-/

namespace Pmkit

/-- An archive: its asset, and its day as a count of days since the epoch. -/
structure ArchiveKey where
  asset : Asset
  date : Int
  deriving DecidableEq

structure CacheEntry where
  bytes : Nat
  used : Nat

structure QuotaState where
  totalBytes : Nat
  nextUse : Nat
  entries : KeyedMap ArchiveKey CacheEntry

namespace QuotaState

def empty : QuotaState where
  totalBytes := 0
  nextUse := 0
  entries := ∅

def remove (quota : QuotaState) (path : ArchiveKey) : QuotaState :=
  match quota.entries.lookup path with
  | none => quota
  | some entry =>
      { quota with
        totalBytes := quota.totalBytes - entry.bytes
        entries := quota.entries.erase path }

def insert (quota : QuotaState) (path : ArchiveKey) (bytes : Nat) :
    QuotaState :=
  let quota := quota.remove path
  { totalBytes := quota.totalBytes + bytes
    nextUse := quota.nextUse + 1
    entries :=
      AList.insert path { bytes, used := quota.nextUse + 1 } quota.entries }

def touch (quota : QuotaState) (path : ArchiveKey) : QuotaState :=
  match quota.entries.lookup path with
  | none => { quota with nextUse := quota.nextUse + 1 }
  | some entry =>
      { quota with
        nextUse := quota.nextUse + 1
        entries := AList.insert path
          { entry with used := quota.nextUse + 1 } quota.entries }

/-- `oldest_except`: the other archive whose last use lies furthest back. -/
def oldestExcept (order : IterationOrder ArchiveKey) (quota : QuotaState)
    (kept : ArchiveKey) : Option ArchiveKey :=
  (((KeyedMap.visit order quota.entries).filter fun entry =>
    entry.1 ≠ kept).argmin fun entry => entry.2.used).map Prod.fst

def clear (_ : QuotaState) : QuotaState := empty

end QuotaState

inductive CachePolicy where
  | bounded (maxBytes : Nat)

def CachePolicy.maxBytes : CachePolicy → Nat
  | .bounded maxBytes => maxBytes

structure BinanceArchiveLimits where
  transferBytes : Nat
  zipBytes : Nat
  csvBytes : Nat

/-- `BinanceArchiveLimits::default`. -/
def BinanceArchiveLimits.default : BinanceArchiveLimits where
  transferBytes := 256 * 1024 * 1024
  zipBytes := 512 * 1024 * 1024
  csvBytes := 512 * 1024 * 1024

/-! ## Files -/

/-- The archives and their checksum files, by what they are named after. -/
structure ArchiveFiles where
  zips : KeyedMap ArchiveKey (List UInt8)
  checksums : KeyedMap ArchiveKey (List UInt8)

def sizeOfAll (zips : KeyedMap ArchiveKey (List UInt8)) : Nat :=
  (zips.values.map List.length).foldr (· + ·) 0

def ArchiveFiles.totalBytes (files : ArchiveFiles) : Nat :=
  sizeOfAll files.zips

/-- What archives are read with: the hash, the ZIP and row parsers, and the
text of an encoding error. -/
structure VisionText (D : Type) where
  sha256Hex : List UInt8 → String
  parseArchive : List UInt8 → Asset → BinanceArchiveLimits →
    Except DataSourceError (List (CexReferenceEvent D))
  utf8Error : List UInt8 → String

structure VerifiedBinanceArchiveCache where
  policy : CachePolicy
  limits : BinanceArchiveLimits
  quota : QuotaState
  files : ArchiveFiles

/-- A call of `replay`, with what the server answers it and the order in which
the directory and the quota are visited. -/
structure ReplayCall where
  key : ArchiveKey
  checksum : Except String (List UInt8)
  archive : Except String (List UInt8)
  order : IterationOrder ArchiveKey

/-- `gap`. -/
def gap (message : String) : DataSourceError :=
  .replayGap message

def isAsciiHexdigit (character : Char) : Bool :=
  character.isDigit || ('a' ≤ character && character ≤ 'f') ||
    ('A' ≤ character && character ≤ 'F')

variable {D : Type}

/-- `parse_checksum`. -/
def parseChecksum (text : VisionText D) (bytes : List UInt8) :
    Except DataSourceError String :=
  match String.fromUTF8? ⟨bytes.toArray⟩ with
  | none => .error (gap (text.utf8Error bytes))
  | some decoded =>
      let value := (decoded.toList.dropWhile isWhitespace).takeWhile
        fun character => !isWhitespace character
      if value.isEmpty then
        .error (gap "missing archive checksum")
      else if value.length ≠ 64 || !value.all isAsciiHexdigit then
        .error (gap "invalid archive checksum")
      else
        .ok (String.ofList (value.map Char.toLower))

namespace VerifiedBinanceArchiveCache

/-- `read_verified`. -/
def readVerified (text : VisionText D) (cache : VerifiedBinanceArchiveCache)
    (key : ArchiveKey) :
    Except DataSourceError (Option (List (CexReferenceEvent D))) :=
  match cache.files.checksums.lookup key with
  | none => .ok none
  | some bytes =>
      (parseChecksum text bytes).bind fun checksum =>
        match cache.files.zips.lookup key with
        | none => .ok none
        | some content =>
            if cache.limits.transferBytes < content.length then
              .ok none
            else if text.sha256Hex content ≠ checksum then
              .ok none
            else
              (text.parseArchive content key.asset cache.limits).map some

/-- `fetch_checksum`. -/
def fetchChecksum (text : VisionText D) (call : ReplayCall) :
    Except DataSourceError String :=
  match call.checksum with
  | .error message => .error (gap message)
  | .ok bytes =>
      if 4 * 1024 < bytes.length then
        .error (gap "response exceeds configured limit")
      else
        parseChecksum text bytes

/-- `download_verified`, for the content of the temporary file. -/
def downloadVerified (text : VisionText D)
    (cache : VerifiedBinanceArchiveCache) (call : ReplayCall)
    (expected : String) : Except DataSourceError (List UInt8) :=
  match call.archive with
  | .error message => .error (gap message)
  | .ok content =>
      if cache.limits.transferBytes < content.length then
        .error (gap "archive transfer exceeds configured limit")
      else if text.sha256Hex content ≠ expected then
        .error (gap "archive SHA-256 mismatch")
      else
        .ok content

/-- `load_quota`. -/
def loadQuota (order : IterationOrder ArchiveKey)
    (cache : VerifiedBinanceArchiveCache) : VerifiedBinanceArchiveCache :=
  { cache with
    quota := (KeyedMap.visit order cache.files.zips).foldl
      (fun quota file => quota.insert file.1 file.2.length)
      cache.quota.clear }

/-- The eviction loop of `install`.  Each round removes an entry, so that there
are no more rounds than entries. -/
def evict (order : IterationOrder ArchiveKey) (kept : ArchiveKey) :
    Nat → VerifiedBinanceArchiveCache →
      VerifiedBinanceArchiveCache × Except DataSourceError Unit
  | 0, cache => (cache, .ok ())
  | rounds + 1, cache =>
      if cache.quota.totalBytes > cache.policy.maxBytes then
        match cache.quota.oldestExcept order kept with
        | none => (cache, .error (gap "cache quota cannot retain archive"))
        | some victim =>
            evict order kept rounds
              { cache with
                files :=
                  { zips := cache.files.zips.erase victim
                    checksums := cache.files.checksums.erase victim }
                quota := cache.quota.remove victim }
      else
        (cache, .ok ())

/-- `install`. -/
def install (cache : VerifiedBinanceArchiveCache) (call : ReplayCall)
    (content : List UInt8) (checksum : String) :
    VerifiedBinanceArchiveCache × Except DataSourceError Unit :=
  if content.length > cache.policy.maxBytes then
    (cache, .error (gap "archive exceeds cache quota"))
  else
    let cache :=
      { cache with
        files :=
          { zips := AList.insert call.key content cache.files.zips
            checksums := AList.insert call.key checksum.toUTF8.data.toList
              cache.files.checksums } }
    let cache := cache.loadQuota call.order
    let cache :=
      { cache with
        quota := cache.quota.clear.insert call.key content.length }
    cache.evict call.order call.key (cache.quota.entries.entries.length + 1)

/-- What `replay_key` downloads when the cache does not have it: the checksum,
the archive and its records. -/
def download (text : VisionText D) (cache : VerifiedBinanceArchiveCache)
    (call : ReplayCall) :
    Except DataSourceError
      (String × List UInt8 × List (CexReferenceEvent D)) := do
  let checksum ← fetchChecksum text call
  let content ← cache.downloadVerified text call checksum
  let records ← text.parseArchive content call.key.asset cache.limits
  .ok (checksum, content, records)

/-- `replay_key`. -/
def replayKey (text : VisionText D) (cache : VerifiedBinanceArchiveCache)
    (call : ReplayCall) :
    VerifiedBinanceArchiveCache ×
      Except DataSourceError (List (CexReferenceEvent D)) :=
  match cache.readVerified text call.key with
  | .error error => (cache, .error error)
  | .ok (some records) =>
      ({ cache with quota := cache.quota.touch call.key }, .ok records)
  | .ok none =>
      match cache.download text call with
      | .error error => (cache, .error error)
      | .ok (checksum, content, records) =>
          match cache.install call content checksum with
          | (cache, .error error) => (cache, .error error)
          | (cache, .ok _) => (cache, .ok records)

def installs (text : VisionText D) (cache : VerifiedBinanceArchiveCache)
    (call : ReplayCall) : Option (List UInt8) :=
  match cache.readVerified text call.key, cache.download text call with
  | .ok none, .ok (_, content, _) =>
      if content.length > cache.policy.maxBytes then none else some content
  | _, _ => none

end VerifiedBinanceArchiveCache

/-- A run of calls: the cache, and the archives returned so far. -/
structure CacheRun where
  cache : VerifiedBinanceArchiveCache
  uses : List ArchiveKey

def lastUse (uses : List ArchiveKey) (key : ArchiveKey) : Nat :=
  uses.length - uses.reverse.idxOf key

namespace CacheRun

def replay (text : VisionText D) (run : CacheRun) (call : ReplayCall) :
    CacheRun :=
  let replayed := run.cache.replayKey text call
  { cache := replayed.1
    uses := if replayed.2.isOk then run.uses ++ [call.key] else run.uses }

/-- The archives on disk are within the policy. -/
def Bounded (run : CacheRun) : Prop :=
  run.cache.files.totalBytes ≤ run.cache.policy.maxBytes

/-- A call that returns an archive has kept the quota: the archives on disk are
within the policy, the one returned is among them, and those that were removed
are not in later use than those that stay. -/
def Respects (text : VisionText D) (run : CacheRun) (call : ReplayCall) :
    Prop :=
  (run.cache.replayKey text call).2.isOk = true →
    (run.replay text call).Bounded ∧
    call.key ∈ (run.replay text call).cache.files.zips ∧
    ∀ removed ∈ run.cache.files.zips,
      removed ∉ (run.replay text call).cache.files.zips →
      ∀ kept ∈ (run.replay text call).cache.files.zips, kept ≠ call.key →
        lastUse run.uses removed ≤ lastUse run.uses kept

/-- An archive that is installed fits beside the others. -/
def Fits (text : VisionText D) (run : CacheRun) (call : ReplayCall) : Prop :=
  ∀ content, run.cache.installs text call = some content →
    content.length + sizeOfAll (run.cache.files.zips.erase call.key) ≤
      run.cache.policy.maxBytes

end CacheRun

/-! ## What a call does to the archives -/

namespace QuotaState

/-- An archive that is entered into a quota without others is all of it. -/
theorem totalBytes_insert_clear (quota : QuotaState) (path : ArchiveKey)
    (bytes : Nat) : (quota.clear.insert path bytes).totalBytes = bytes := by
  have absent : (empty.entries.lookup path) = none := by
    exact AList.lookup_empty path
  simp only [clear, insert, remove, absent]
  exact Nat.zero_add bytes

end QuotaState

namespace VerifiedBinanceArchiveCache

variable {text : VisionText D} {cache : VerifiedBinanceArchiveCache}
  {call : ReplayCall} {content : List UInt8}

theorem evict_of_le (order : IterationOrder ArchiveKey) (kept : ArchiveKey)
    (rounds : Nat)
    (within : cache.quota.totalBytes ≤ cache.policy.maxBytes) :
    cache.evict order kept rounds = (cache, .ok ()) := by
  cases rounds with
  | zero => rfl
  | succ rounds => exact if_neg (Nat.not_lt.mpr within)

/-- An install adds its archive and removes none. -/
theorem install_files (checksum : String)
    (small : content.length ≤ cache.policy.maxBytes) :
    (cache.install call content checksum).2 = .ok () ∧
      (cache.install call content checksum).1.policy = cache.policy ∧
      (cache.install call content checksum).1.files.zips =
        AList.insert call.key content cache.files.zips := by
  unfold install
  rw [if_neg (Nat.not_lt.mpr small)]
  dsimp only
  rw [evict_of_le]
  · exact ⟨rfl, rfl, rfl⟩
  · rw [QuotaState.totalBytes_insert_clear]
    exact small

theorem mem_zips_of_readVerified {records : List (CexReferenceEvent D)}
    (read : cache.readVerified text call.key = .ok (some records)) :
    call.key ∈ cache.files.zips := by
  unfold readVerified at read
  split at read
  · cases read
  · obtain ⟨checksum, _, rest⟩ := Fallible.bind_eq_ok.mp read
    cases found : cache.files.zips.lookup call.key with
    | none =>
        rw [found] at rest
        cases rest
    | some content => exact AList.lookup_isSome.mp (by rw [found]; rfl)

/-- Without an install a call leaves the archives as they are, and returns one
of them. -/
theorem replayKey_of_installs_none (none : cache.installs text call = none) :
    (cache.replayKey text call).1.policy = cache.policy ∧
      (cache.replayKey text call).1.files.zips = cache.files.zips ∧
      ((cache.replayKey text call).2.isOk = true →
        call.key ∈ cache.files.zips) := by
  unfold replayKey
  cases read : cache.readVerified text call.key with
  | error error =>
      refine ⟨rfl, rfl, fun no => ?_⟩
      cases no
  | ok found =>
      cases found with
      | some records =>
          exact ⟨rfl, rfl, fun _ => mem_zips_of_readVerified read⟩
      | none =>
          cases loaded : cache.download text call with
          | error error =>
              refine ⟨rfl, rfl, fun no => ?_⟩
              cases no
          | ok all =>
              obtain ⟨checksum, content, records⟩ := all
              have large : content.length > cache.policy.maxBytes := by
                unfold installs at none
                simp only [read, loaded] at none
                by_contra small
                rw [if_neg small] at none
                cases none
              have refused : cache.install call content checksum =
                  (cache, .error (gap "archive exceeds cache quota")) :=
                if_pos large
              simp only [refused]
              refine ⟨trivial, trivial, fun no => ?_⟩
              cases no

/-- A call that installs an archive returns it. -/
theorem replayKey_of_installs_some
    (some : cache.installs text call = some content) :
    (cache.replayKey text call).1.policy = cache.policy ∧
      (cache.replayKey text call).1.files.zips =
        AList.insert call.key content cache.files.zips ∧
      (cache.replayKey text call).2.isOk = true := by
  unfold installs at some
  split at some
  · rename_i checksum loaded records read download
    split at some
    · cases some
    · rename_i small
      cases some
      obtain ⟨installed, policy, zips⟩ :
          (cache.install call _ checksum).2 = .ok () ∧ _ ∧ _ :=
        install_files checksum (Nat.not_lt.mp small)
      unfold replayKey
      simp only [read, download]
      generalize cache.install call _ checksum = result at installed policy zips
      obtain ⟨after, outcome⟩ := result
      cases installed
      exact ⟨policy, zips, rfl⟩
  · cases some

end VerifiedBinanceArchiveCache

theorem sizeOfAll_insert (zips : KeyedMap ArchiveKey (List UInt8))
    (key : ArchiveKey) (content : List UInt8) :
    sizeOfAll (AList.insert key content zips) =
      content.length + sizeOfAll (zips.erase key) := by
  unfold sizeOfAll
  rw [KeyedMap.values_insert]
  rfl

namespace CacheRun

variable {text : VisionText D} {run : CacheRun} {call : ReplayCall}

/-- An archive that fits leaves the quota kept. -/
theorem bounded_of_fits (bounded : run.Bounded) (fits : run.Fits text call) :
    (run.replay text call).Bounded ∧ run.Respects text call := by
  cases installed : run.cache.installs text call with
  | none =>
      obtain ⟨policy, zips, present⟩ :=
        VerifiedBinanceArchiveCache.replayKey_of_installs_none installed
      have same : (run.replay text call).Bounded := by
        unfold Bounded ArchiveFiles.totalBytes replay
        rw [policy, zips]
        exact bounded
      refine ⟨same, fun returned => ⟨same, ?_, ?_⟩⟩
      · unfold replay
        rw [zips]
        exact present returned
      · intro removed before after
        unfold replay at after
        rw [zips] at after
        exact absurd before after
  | some content =>
      obtain ⟨policy, zips, _⟩ :=
        VerifiedBinanceArchiveCache.replayKey_of_installs_some installed
      have within : (run.replay text call).Bounded := by
        unfold Bounded ArchiveFiles.totalBytes replay
        rw [policy, zips, sizeOfAll_insert]
        exact fits content installed
      refine ⟨within, fun _ => ⟨within, ?_, ?_⟩⟩
      · unfold replay
        rw [zips]
        exact (AList.mem_insert _).mpr (.inl rfl)
      · intro removed before after
        unfold replay at after
        rw [zips] at after
        exact absurd ((AList.mem_insert _).mpr (.inr before)) after

/-- A kept quota leaves room for what was installed. -/
theorem fits_of_respects (bounded : run.Bounded)
    (respects : run.Respects text call) :
    (run.replay text call).Bounded ∧ run.Fits text call := by
  have fits : run.Fits text call := by
    intro content installed
    obtain ⟨policy, zips, returned⟩ :=
      VerifiedBinanceArchiveCache.replayKey_of_installs_some installed
    have within := (respects returned).1
    unfold Bounded ArchiveFiles.totalBytes replay at within
    rw [policy, zips, sizeOfAll_insert] at within
    exact within
  exact ⟨(bounded_of_fits bounded fits).1, fits⟩

end CacheRun

/-- The quota is kept over a run just when every archive that is installed fits
beside the others. -/
theorem replays_respect_quota_iff (text : VisionText D)
    (cache : VerifiedBinanceArchiveCache) (calls : List ReplayCall)
    (bounded : cache.files.totalBytes ≤ cache.policy.maxBytes) :
    Trace.EveryStep (CacheRun.replay text) (CacheRun.Respects text)
        { cache, uses := [] } calls ↔
      Trace.EveryStep (CacheRun.replay text) (CacheRun.Fits text)
        { cache, uses := [] } calls := by
  have start : CacheRun.Bounded { cache, uses := [] } := bounded
  constructor
  · exact Trace.everyStep_of_everyStep
      (fun _ _ => CacheRun.fits_of_respects) start
  · exact Trace.everyStep_of_everyStep
      (fun _ _ => CacheRun.bounded_of_fits) start

namespace CacheSample

def emptyArchive : List UInt8 :=
  [80, 75, 3, 4, 20, 0, 0, 0, 0, 0, 0, 0, 33, 0, 0, 0, 0, 0, 0, 0, 0, 0, 0,
    0, 0, 0, 1, 0, 0, 0, 97, 80, 75, 1, 2, 20, 3, 20, 0, 0, 0, 0, 0, 0, 0,
    33, 0, 0, 0, 0, 0, 0, 0, 0, 0, 0, 0, 0, 0, 1, 0, 0, 0, 0, 0, 0, 0, 0, 0,
    0, 0, 128, 1, 0, 0, 0, 0, 97, 80, 75, 5, 6, 0, 0, 0, 0, 1, 0, 1, 0, 47,
    0, 0, 0, 31, 0, 0, 0, 0, 0]

def text : VisionText Decimal where
  sha256Hex bytes :=
    if bytes = emptyArchive then
      "3adefa950c8f56a669de2a67d59b62ed2b51e8719a64a480935fa66cc04baff0"
    else
      ""
  parseArchive bytes _ _ :=
    if bytes = emptyArchive then
      .ok []
    else
      .error (gap "invalid Zip archive")
  utf8Error _ := "invalid utf-8 sequence"

def call (date : Int) : ReplayCall where
  key := { asset := .btc, date }
  checksum := .ok
    "3adefa950c8f56a669de2a67d59b62ed2b51e8719a64a480935fa66cc04baff0\n".toUTF8.data.toList
  archive := .ok emptyArchive
  order := .stored _

def cache : VerifiedBinanceArchiveCache where
  policy := .bounded 150
  limits := .default
  quota := .empty
  files := { zips := ∅, checksums := ∅ }

end CacheSample

open CacheSample

/-- The same archive twice: a download and a hit. -/
theorem replays_respect_quota_hit :
    Trace.EveryStep (CacheRun.replay text) (CacheRun.Respects text)
      { cache, uses := [] } [call 19723, call 19723] := by
  refine (replays_respect_quota_iff text cache _ (by decide)).mpr
    ⟨?_, ?_, trivial⟩
  · intro content installed
    have expected : cache.installs text (call 19723) = some emptyArchive := by
      decide +kernel
    cases expected.symm.trans installed
    decide +kernel
  · intro content installed
    have expected : (CacheRun.replay text { cache, uses := [] }
        (call 19723)).cache.installs text (call 19723) = none := by
      decide +kernel
    cases expected.symm.trans installed

/-- Two days of archives exceed the quota, and neither is removed. -/
theorem replays_not_respect_quota :
    ¬Trace.EveryStep (CacheRun.replay text) (CacheRun.Respects text)
      { cache, uses := [] } [call 19723, call 19724] := by
  rintro ⟨_, second, _⟩
  have within := (second (by decide +kernel)).1
  revert within
  unfold CacheRun.Bounded
  decide +kernel

end Pmkit
