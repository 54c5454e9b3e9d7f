import Advance.Utils.FileLock
import Advance.Storage.SummaryPublication

/-! # Reading the summary of a change
-/

namespace Advance.Storage

open Advance.JavaScript
open Advance.Utils

/-! ## The current shard -/

inductive SummaryReadResult where
  | ok (shard pointer : JsVal) (snapshotRevision : JsNumber)
  | notFound
  | degraded (reason : String)

/-- `target.startsWith(base + "/")`. -/
def isPathUnder (base target : String) : Bool :=
  let normalizedBase := if "/".toList <:+ base.toList then base else base ++ "/"
  decide (normalizedBase.toList <+: target.toList)

/-- The reads of one call that the operating system fails. -/
structure SummaryReadFaults where
  snapshot : Option ReadFault
  pointer : Option ReadFault
  shard : Option ReadFault

def SummaryReadFaults.none : SummaryReadFaults := ⟨.none, .none, .none⟩

/-- How far a pointer is from the snapshot it was published for. -/
def pointerFreshness (pointer snapshot : JsVal) : Option String :=
  let snapshotStateRev := stateRevisionOf snapshot
  let snapshotProjRev := revisionOf snapshot
  let pointerStateRev := (pointer.get "state_revision").numberD 0
  let pointerProjRev := (pointer.get "projection_revision").numberD 0
  if snapshotStateRev < pointerStateRev then
    some "summary pointer ahead of full snapshot state_revision"
  else if snapshotProjRev < pointerProjRev then
    some "summary pointer ahead of full snapshot projection_revision"
  else if pointerStateRev < snapshotStateRev ∨ pointerProjRev < snapshotProjRev then
    some "summary pointer stale (behind full snapshot)"
  else none

def shardConsistency (changeId : String) (shard pointer : JsVal) : Option String :=
  if shard.get "id" ≠ .str changeId then some "shard change id mismatch"
  else if shard.get "state_revision" ≠ pointer.get "state_revision" then
    some "shard/pointer state_revision mismatch"
  else if shard.get "projection_revision" ≠ pointer.get "projection_revision" then
    some "shard/pointer projection_revision mismatch"
  else if shard.get "operation_id" ≠ pointer.get "operation_id" then
    some "shard/pointer operation_id mismatch"
  else none

/-- What is left to decide once the pointer is accepted. -/
def readReferencedShard (runtime : Runtime) (changeId : String) (pointer : JsVal)
    (snapshot : Option JsVal) (snapshotError : Option String) (files : Files)
    (fault : Option ReadFault) : SummaryReadResult :=
  match readBoundedSummaryJson runtime ChangeSummaryShardSchema "summary shard" changeId
      (files ((pointer.get "shard_path").textD "")) fault with
  | .notFound => .degraded "missing summary shard referenced by pointer"
  | .degraded reason => .degraded reason
  | .ok shard =>
    match shardConsistency changeId shard pointer with
    | some reason => .degraded reason
    | none =>
      match snapshot with
      | none =>
        match snapshotError with
        | some error => .degraded s!"full snapshot unavailable: {error}"
        | none => .degraded "missing full snapshot for summary verification"
      | some snapshot =>
        if stateRevisionOf snapshot < (shard.get "state_revision").numberD 0 then
          .degraded "summary shard ahead of full snapshot"
        else .ok shard pointer (revisionOf snapshot)

/-- The snapshot as `loadChange` returns it, and the error where it fails. -/
def snapshotOf : LoadResult → Option JsVal × Option String
  | .success data => (data, none)
  | .failure error _ => (none, some error)

/-- One read of the current shard, with nobody else at the change meanwhile. -/
def readCurrentSummaryShard (runtime : Runtime) (paths : SummaryIndexPaths) (changeId : String)
    (disk : Disk Files) (faults : SummaryReadFaults) : Except String SummaryReadResult := do
  assertSafeChangeId changeId
  let summary ← summaryPaths paths changeId
  let (snapshot, snapshotError) :=
    snapshotOf (loadChange runtime paths.changesDir changeId disk.change faults.snapshot)
  match readBoundedSummaryJson runtime ChangeSummaryPointerSchema "summary pointer" changeId
      (disk.aux summary.pointerPath) faults.pointer with
  | .notFound =>
    .ok (if snapshot.isSome then .degraded "missing current summary pointer" else .notFound)
  | .degraded reason => .ok (.degraded reason)
  | .ok pointer =>
    if pointer.get "change_id" ≠ .str changeId then .ok (.degraded "pointer change_id mismatch")
    else if pointer.get "snapshot_path" ≠ .str summary.snapshotPath then
      .ok (.degraded "pointer snapshot_path mismatch")
    else if !isPathUnder (join [paths.summariesDir, changeId, "revisions"]) ((pointer.get "shard_path").textD "") then
      .ok (.degraded "pointer shard_path escapes allowed directory")
    else
      match snapshot.bind (pointerFreshness pointer) with
      | some reason => .ok (.degraded reason)
      | none =>
        .ok (readReferencedShard runtime changeId pointer snapshot snapshotError disk.aux faults.shard)

/-! ## Obsolete shards -/

inductive ReaddirOutcome where
  | names (files : List String)
  | noEntry
  | failed (error : String)

structure ObsoleteShards where
  obsolete : List String
  safe : Bool
  reason : Option String
  deriving DecidableEq

def unsafeToCollect (reason : String) : ObsoleteShards := ⟨[], false, some reason⟩

def shardFileRevision (file : String) : Option Int :=
  if ".json".toList <:+ file.toList then
    parseInt (file.toList.take (file.length - ".json".length))
  else none

/-- The files of the listing that are older than both state revisions. -/
def obsoleteFiles (revDir : String) (pointerStateRev snapshotStateRev : JsNumber) (files : List String) :
    List String :=
  (files.filter fun file =>
    match shardFileRevision file with
    | some rev => (rev : JsNumber) < pointerStateRev && (rev : JsNumber) < snapshotStateRev
    | none => false).map fun file => join [revDir, file]

/-- One collection, with nobody else at the change meanwhile. -/
def collectObsoleteSummaryShards (runtime : Runtime) (paths : SummaryIndexPaths) (changeId : String)
    (disk : Disk Files) (listing : ReaddirOutcome) (faults : SummaryReadFaults) :
    Except String ObsoleteShards := do
  assertSafeChangeId changeId
  let summary ← summaryPaths paths changeId
  match snapshotOf (loadChange runtime paths.changesDir changeId disk.change faults.snapshot) with
  | (none, _) => .ok (unsafeToCollect "snapshot missing or unreadable")
  | (some snapshot, _) =>
    match readBoundedSummaryJson runtime ChangeSummaryPointerSchema "summary pointer" changeId
        (disk.aux summary.pointerPath) faults.pointer with
    | .notFound => .ok (unsafeToCollect "pointer missing")
    | .degraded reason => .ok (unsafeToCollect reason)
    | .ok pointer =>
      let pointerStateRev := (pointer.get "state_revision").numberD 0
      if pointer.get "snapshot_path" ≠ .str summary.snapshotPath then
        .ok (unsafeToCollect "pointer snapshot_path mismatch")
      else if pointerStateRev ≠ stateRevisionOf snapshot ∨
          (pointer.get "projection_revision").numberD 0 ≠ revisionOf snapshot then
        .ok (unsafeToCollect "pointer revision does not match snapshot")
      else
        match listing with
        | .noEntry => .ok ⟨[], true, some "no revisions"⟩
        | .failed error => .ok (unsafeToCollect s!"revisions directory unreadable: {error}")
        | .names files =>
          .ok ⟨obsoleteFiles summary.revDir pointerStateRev (stateRevisionOf snapshot) files, true, none⟩

/-! ## What a file holds -/

/-- The file is small enough and holds what the schema parses to `data`. -/
def Holds (schema : Schema) (file : FileState) (data : JsVal) : Prop :=
  ∃ content parsed, file = .text content ∧ content.bytes ≤ PROJECTION_DOCUMENT_BYTE_LIMIT ∧
    content.json = .ok parsed ∧ schema parsed = .ok data

theorem Holds.unique {schema : Schema} {file : FileState} {left right : JsVal}
    (leftHolds : Holds schema file left) (rightHolds : Holds schema file right) : left = right := by
  obtain ⟨content, parsed, rfl, _, json, checked⟩ := leftHolds
  obtain ⟨_, _, same, _, rightJson, rightChecked⟩ := rightHolds
  cases same
  cases json.symm.trans rightJson
  exact Except.ok.inj (checked.symm.trans rightChecked)

theorem Holds.of_stringify {runtime : Runtime} {schema : Schema} {value data : JsVal}
    (holds : Holds schema (.text (runtime.stringify value)) data) : schema value.toJson = .ok data := by
  obtain ⟨_, _, same, _, json, checked⟩ := holds
  cases same
  cases json
  exact checked

section

variable {runtime : Runtime} {schema : Schema} {type id : String} {file : FileState}
  {fault : Option ReadFault} {data : JsVal}

theorem readSummary_holds (read : readBoundedSummaryJson runtime schema type id file fault = .ok data) :
    Holds schema file data := by
  cases fault with
  | some fault => cases fault <;> simp [readBoundedSummaryJson, readBoundedProjectionDocument] at read
  | none =>
    cases file with
    | absent => simp [readBoundedSummaryJson, readBoundedProjectionDocument] at read
    | unreadable error => simp [readBoundedSummaryJson, readBoundedProjectionDocument] at read
    | text content =>
      by_cases oversized : PROJECTION_DOCUMENT_BYTE_LIMIT < content.bytes
      · simp [readBoundedSummaryJson, readBoundedProjectionDocument, oversized] at read
      · obtain ⟨parsed, json, checked⟩ := readSummary_ok read
        exact ⟨content, parsed, rfl, not_lt.mp oversized, json, checked⟩

end

/-! ## What is behind a shard that is returned -/

/-- Snapshot, pointer and shard are there and name the same change and revisions. -/
structure Consistent (runtime : Runtime) (summary : SummaryPaths) (changeId : String) (disk : Disk Files)
    (snapshot pointer shard : JsVal) : Prop where
  loads : Loads runtime disk.change snapshot
  pointerHeld : Holds ChangeSummaryPointerSchema (disk.aux summary.pointerPath) pointer
  shardHeld : Holds ChangeSummaryShardSchema (disk.aux ((pointer.get "shard_path").textD "")) shard
  ownPointer : pointer.get "change_id" = .str changeId
  ownShard : shard.get "id" = .str changeId
  pointerState : (pointer.get "state_revision").numberD 0 = stateRevisionOf snapshot
  pointerRevision : (pointer.get "projection_revision").numberD 0 = revisionOf snapshot
  shardState : shard.get "state_revision" = pointer.get "state_revision"
  shardRevision : shard.get "projection_revision" = pointer.get "projection_revision"

section

variable {runtime : Runtime} {paths : SummaryIndexPaths} {changeId : String} {summary : SummaryPaths}
  {disk : Disk Files} {faults : SummaryReadFaults}

theorem pointerFreshness_none {pointer snapshot : JsVal} (fresh : pointerFreshness pointer snapshot = none) :
    (pointer.get "state_revision").numberD 0 = stateRevisionOf snapshot ∧
      (pointer.get "projection_revision").numberD 0 = revisionOf snapshot := by
  simp only [pointerFreshness] at fresh
  split at fresh
  · cases fresh
  next stateNotAhead =>
    split at fresh
    · cases fresh
    next revisionNotAhead =>
      split at fresh
      · cases fresh
      next notBehind =>
        obtain ⟨stateNotBehind, revisionNotBehind⟩ := not_or.mp notBehind
        exact ⟨le_antisymm (not_lt.mp stateNotAhead) (not_lt.mp stateNotBehind),
          le_antisymm (not_lt.mp revisionNotAhead) (not_lt.mp revisionNotBehind)⟩

theorem shardConsistency_none {shard pointer : JsVal} (consistent : shardConsistency changeId shard pointer = none) :
    shard.get "id" = .str changeId ∧ shard.get "state_revision" = pointer.get "state_revision" ∧
      shard.get "projection_revision" = pointer.get "projection_revision" := by
  simp only [shardConsistency] at consistent
  split at consistent
  · cases consistent
  next own =>
    split at consistent
    · cases consistent
    next state =>
      split at consistent
      · cases consistent
      next revision => exact ⟨not_not.mp own, not_not.mp state, not_not.mp revision⟩

theorem assertSafe_of_paths (resolved : summaryPaths paths changeId = .ok summary) :
    assertSafeChangeId changeId = .ok () := by
  unfold summaryPaths at resolved
  cases safe : assertSafeChangeId changeId with
  | error error => rw [safe] at resolved; cases resolved
  | ok _ => rfl

theorem snapshotOf_loads {snapshot : JsVal} {error : Option String} {fault : Option ReadFault}
    (loaded : snapshotOf (loadChange runtime paths.changesDir changeId disk.change fault) =
      (some snapshot, error)) : Loads runtime disk.change snapshot := by
  cases result : loadChange runtime paths.changesDir changeId disk.change fault with
  | failure error type => rw [result] at loaded; cases loaded
  | success data =>
    rw [result] at loaded
    cases loaded
    exact (loadChange_ok result).2

theorem referenced_ok {pointer shard returned : JsVal} {snapshot : Option JsVal} {error : Option String}
    {files : Files} {fault : Option ReadFault} {revision : JsNumber}
    (read : readReferencedShard runtime changeId pointer snapshot error files fault =
      .ok shard returned revision) : returned = pointer ∧ (∃ change, snapshot = some change) ∧
      Holds ChangeSummaryShardSchema (files ((pointer.get "shard_path").textD "")) shard ∧
      shardConsistency changeId shard pointer = none := by
  unfold readReferencedShard at read
  split at read
  · cases read
  · cases read
  next found shardRead =>
    split at read
    · cases read
    next consistent =>
      split at read
      · split at read <;> cases read
      next change =>
        split at read
        · cases read
        · cases read
          exact ⟨rfl, ⟨change, rfl⟩, readSummary_holds shardRead, consistent⟩

theorem readCurrent_ok {shard pointer : JsVal} {revision : JsNumber}
    (resolved : summaryPaths paths changeId = .ok summary)
    (read : readCurrentSummaryShard runtime paths changeId disk faults = .ok (.ok shard pointer revision)) :
    ∃ snapshot, Consistent runtime summary changeId disk snapshot pointer shard := by
  simp only [readCurrentSummaryShard, assertSafe_of_paths resolved, resolved, bind, Except.bind] at read
  split at read
  · split at read <;> cases read
  · cases read
  next found pointerRead =>
    split at read
    · cases read
    next ownPointer =>
      split at read
      · cases read
      split at read
      · cases read
      split at read
      · cases read
      next fresh =>
        obtain ⟨same, ⟨snapshot, isSnapshot⟩, shardHeld, consistent⟩ :=
          referenced_ok (Except.ok.inj read)
        subst same
        have loaded : snapshotOf (loadChange runtime paths.changesDir changeId disk.change
            faults.snapshot) = (some snapshot, _) := Prod.ext isSnapshot rfl
        rw [isSnapshot] at fresh
        obtain ⟨state, projection⟩ := pointerFreshness_none fresh
        obtain ⟨ownShard, shardState, shardRevision⟩ := shardConsistency_none consistent
        exact ⟨snapshot, snapshotOf_loads loaded, readSummary_holds pointerRead, shardHeld,
          not_not.mp ownPointer, ownShard, state, projection, shardState, shardRevision⟩

section

variable {snapshot : JsVal} (resolved : summaryPaths paths changeId = .ok summary)
  (loads : Loads runtime disk.change snapshot) (unfaulted : faults.snapshot = none)
include snapshot resolved loads unfaulted

theorem readCurrent_found : ∃ result, readCurrentSummaryShard runtime paths changeId disk faults = .ok result ∧
      result ≠ .notFound := by
  have loaded := loadChange_of_loads loads paths.changesDir changeId
  simp only [readCurrentSummaryShard, assertSafe_of_paths resolved, resolved, bind, Except.bind,
    unfaulted, loaded, snapshotOf]
  split
  · exact ⟨_, rfl, nofun⟩
  · exact ⟨_, rfl, nofun⟩
  · split
    · exact ⟨_, rfl, nofun⟩
    split
    · exact ⟨_, rfl, nofun⟩
    split
    · exact ⟨_, rfl, nofun⟩
    split
    · exact ⟨_, rfl, nofun⟩
    · refine ⟨_, rfl, ?_⟩
      unfold readReferencedShard
      split
      · exact nofun
      · exact nofun
      · split
        · exact nofun
        · simp only
          split <;> exact nofun

theorem readCurrent_degraded
    (inconsistent : ∀ pointer shard, ¬Consistent runtime summary changeId disk snapshot pointer shard) :
    ∃ reason, readCurrentSummaryShard runtime paths changeId disk faults = .ok (.degraded reason) := by
  obtain ⟨result, read, found⟩ := readCurrent_found resolved loads unfaulted
  cases result with
  | notFound => exact absurd rfl found
  | degraded reason => exact ⟨reason, read⟩
  | ok shard pointer revision =>
    obtain ⟨other, consistent⟩ := readCurrent_ok resolved read
    cases consistent.loads.unique loads
    exact absurd consistent (inconsistent pointer shard)

end

end

end Advance.Storage
