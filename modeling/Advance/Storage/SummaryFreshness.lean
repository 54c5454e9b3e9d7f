import Advance.Storage.SnapshotWrites
import Advance.Storage.SummaryAgreement
import Advance.Storage.SummaryReader

/-! # A summary is current or degraded

A run is any sequence of commits and store writes on one change, each of which may be
broken off between any two of its file accesses.
-/

namespace Advance.Storage

open Advance.JavaScript Advance.JavaScript.JsVal Advance.Types
open Advance.Foundation

section

variable {runtime : Runtime} {paths : SummaryIndexPaths} {changeId : String} {summary : SummaryPaths}

/-! ## The invariant -/

/-- Both changes make the same shard, as a reader of its file gets it. -/
def SameSummary (left right : JsVal) : Prop :=
  ∀ operationId, ChangeSummaryShardSchema (publishedShard left operationId).toJson =
    ChangeSummaryShardSchema (publishedShard right operationId).toJson

/-- The shard is one derived from the snapshot, as a reader of its file gets it. -/
def DerivedFrom (snapshot shard : JsVal) : Prop :=
  ∃ operationId, ChangeSummaryShardSchema (publishedShard snapshot operationId).toJson = .ok shard

def NamesRevisions (pointer change : JsVal) : Prop :=
  (pointer.get "projection_revision").numberD 0 = revisionOf change ∧
    (pointer.get "state_revision").numberD 0 = stateRevisionOf change

def PointerHeld (summary : SummaryPaths) (disk : Disk Files) (pointer : JsVal) : Prop :=
  Holds ChangeSummaryPointerSchema (disk.aux summary.pointerPath) pointer

structure IndexInvariant (runtime : Runtime) (summary : SummaryPaths) (disk : Disk Files) : Prop where
  place : ∀ pointer, PointerHeld summary disk pointer → pointer.get "shard_path" =
    .str (shardPathOf runtime summary ((pointer.get "projection_revision").numberD 0))
  behind : ∀ pointer, PointerHeld summary disk pointer →
    (pointer.get "projection_revision").numberD 0 ≤ revisionOf (storedDocument disk.change)
  level : ∀ pointer snapshot shard, PointerHeld summary disk pointer →
    Loads runtime disk.change snapshot → NamesRevisions pointer snapshot →
    Holds ChangeSummaryShardSchema (disk.aux (shardPathFor runtime summary snapshot)) shard →
    DerivedFrom snapshot shard

theorem IndexInvariant.unpublished {disk : Disk Files}
    (absent : disk.aux summary.pointerPath = .absent) : IndexInvariant runtime summary disk := by
  have noPointer : ∀ pointer, ¬PointerHeld summary disk pointer := by
    rintro pointer ⟨content, parsed, present, _⟩
    rw [absent] at present
    cases present
  exact ⟨fun pointer held => absurd held (noPointer pointer),
    fun pointer held => absurd held (noPointer pointer),
    fun pointer _ _ held => absurd held (noPointer pointer)⟩

theorem IndexInvariant.frame {disk : Disk Files} (invariant : IndexInvariant runtime summary disk)
    {files : Files} (samePointer : files summary.pointerPath = disk.aux summary.pointerPath)
    (sameShards : ∀ revision, files (shardPathOf runtime summary revision) =
      disk.aux (shardPathOf runtime summary revision)) : IndexInvariant runtime summary ⟨disk.change, files⟩ := by
  have held : ∀ pointer, PointerHeld summary ⟨disk.change, files⟩ pointer → PointerHeld summary disk pointer := by
    intro pointer holds
    unfold PointerHeld at holds ⊢
    rwa [← samePointer]
  constructor
  · exact fun pointer holds => invariant.place pointer (held pointer holds)
  · exact fun pointer holds => invariant.behind pointer (held pointer holds)
  · intro pointer snapshot shard holds loads names shardHolds
    refine invariant.level pointer snapshot shard (held pointer holds) loads names ?_
    have same := sameShards (revisionOf snapshot)
    rw [shardPathFor, ← same]
    exact shardHolds

section Write

variable {disk : Disk Files} {saved published : JsVal} {operationId publishedAt : String}

theorem IndexInvariant.snapshot (invariant : IndexInvariant runtime summary disk)
    (behind : ∀ pointer, PointerHeld summary disk pointer →
      (pointer.get "projection_revision").numberD 0 ≤ revisionOf saved.toJson)
    (unchanged : ∀ pointer loaded, PointerHeld summary disk pointer →
      Loads runtime (.text (runtime.stringify saved)) loaded → NamesRevisions pointer loaded →
      ∃ stored, Loads runtime disk.change stored ∧ NamesRevisions pointer stored ∧
        SameSummary stored loaded) : IndexInvariant runtime summary ⟨.text (runtime.stringify saved), disk.aux⟩ := by
  refine ⟨invariant.place, behind, ?_⟩
  intro pointer snapshot shard held loads names shardHeld
  obtain ⟨stored, storedLoads, storedNames, same⟩ := unchanged pointer snapshot held loads names
  have samePath : shardPathFor runtime summary stored = shardPathFor runtime summary snapshot := by
    rw [shardPathFor, ← storedNames.1, names.1, shardPathFor]
  obtain ⟨operationId, derived⟩ := invariant.level pointer stored shard held storedLoads storedNames
    (by rw [samePath]; exact shardHeld)
  exact ⟨operationId, (same operationId).symm.trans derived⟩

theorem shard_level {files : Files} {snapshot shard : JsVal}
    (sameRevision : revisionOf snapshot = revisionOf published) (sameSummary : SameSummary snapshot published)
    (written : files (shardPathFor runtime summary published) =
      .text (runtime.stringify (publishedShard published operationId)))
    (held : Holds ChangeSummaryShardSchema (files (shardPathFor runtime summary snapshot)) shard) :
    DerivedFrom snapshot shard := by
  rw [shardPathFor, sameRevision, ← shardPathFor, written] at held
  exact ⟨operationId, (sameSummary operationId).trans held.of_stringify⟩

theorem IndexInvariant.shard (invariant : IndexInvariant runtime summary disk)
    (resolved : summaryPaths paths changeId = .ok summary) (behind : ∀ pointer, PointerHeld summary disk pointer →
      (pointer.get "projection_revision").numberD 0 ≤ revisionOf saved.toJson)
    (sameRevision : revisionOf published = revisionOf saved.toJson)
    (readsBack : ∀ loaded, Loads runtime (.text (runtime.stringify saved)) loaded →
      SameSummary loaded published) : IndexInvariant runtime summary
      ⟨.text (runtime.stringify saved), withShard runtime summary published operationId disk.aux⟩ := by
  have apart : summary.pointerPath ≠ shardPathFor runtime summary published :=
    (shardPath_ne_pointerPath runtime resolved _).symm
  have held : ∀ pointer, PointerHeld summary
      ⟨.text (runtime.stringify saved), withShard runtime summary published operationId disk.aux⟩ pointer →
      PointerHeld summary disk pointer := by
    intro pointer holds
    simpa [PointerHeld, withShard, writtenTo, apart] using holds
  constructor
  · exact fun pointer holds => invariant.place pointer (held pointer holds)
  · exact fun pointer holds => behind pointer (held pointer holds)
  · intro pointer snapshot shard _ loads _ shardHeld
    have written : withShard runtime summary published operationId disk.aux (shardPathFor runtime summary published) =
          .text (runtime.stringify (publishedShard published operationId)) := by
      simp [withShard, writtenTo]
    exact shard_level ((load_revision loads).trans sameRevision.symm) (readsBack snapshot loads) written shardHeld

theorem IndexInvariant.pointer (resolved : summaryPaths paths changeId = .ok summary)
    (sameRevision : revisionOf published = revisionOf saved.toJson)
    (readsBack : ∀ loaded, Loads runtime (.text (runtime.stringify saved)) loaded →
      SameSummary loaded published) : IndexInvariant runtime summary
      ⟨.text (runtime.stringify saved), withPointer runtime summary published operationId publishedAt disk.aux⟩ := by
  have fields : ∀ pointer, PointerHeld summary ⟨.text (runtime.stringify saved),
        withPointer runtime summary published operationId publishedAt disk.aux⟩ pointer →
      ∀ key, pointer.get key = (publishedPointer runtime summary published operationId publishedAt).get key := by
    intro pointer holds
    simp only [PointerHeld, withPointer, writtenTo, Function.update_self] at holds
    exact pointer_parsed holds.of_stringify
  constructor
  · intro pointer holds
    simp [fields pointer holds, publishedPointer, summaryPointer, lookup, numberD]
  · intro pointer holds
    simp [fields pointer holds, publishedPointer, summaryPointer, lookup, numberD, sameRevision]
    rfl
  · intro pointer snapshot shard _ loads _ shardHeld
    exact shard_level ((load_revision loads).trans sameRevision.symm) (readsBack snapshot loads)
      (written_shard resolved _ disk.aux) shardHeld

end Write

end

/-! ## The condition on a write -/

/-- What a store write of the change must keep when it gets as far as `progress`. -/
structure PersistCall.KeepsIndex (runtime : Runtime) (summary : SummaryPaths) (call : PersistCall)
    (progress : Progress) (before : Disk Files) : Prop where
  /-- The document reads back with the summary the change was saved with. -/
  readsBack : progress ≠ .nothing → ∀ loaded,
    Loads runtime (.text (runtime.stringify call.change)) loaded → SameSummary loaded call.change
  /-- Broken off before its shard, it replaces a snapshot with the same summary, unless the
      pointer names other revisions anyway. -/
  unpublished : progress = .snapshot → ∀ pointer, PointerHeld summary before pointer →
    NamesRevisions pointer call.change →
    ∃ stored, Loads runtime before.change stored ∧ NamesRevisions pointer stored ∧ SameSummary stored call.change
  /-- Broken off before its pointer, it does not fall behind the pointer that is there. -/
  unpointed : progress = .snapshot ∨ progress = .shard → ∀ pointer, PointerHeld summary before pointer →
    (pointer.get "projection_revision").numberD 0 ≤ revisionOf call.change

/-- No repair of an unreadable document takes its revision back. -/
def SummaryCall.KeepsRevision (call : SummaryCall) : Prop :=
  ∀ normalize raw normalized, call.options.normalizeLatestProjection = some normalize →
    normalize raw = .ok normalized → revisionOf raw ≤ revisionOf normalized

def CutWrite.Keeps (runtime : Runtime) (summary : SummaryPaths) (cut : CutWrite) (before : Disk Files) : Prop :=
  match cut.write with
  | .commit call => call.KeepsRevision
  | .persist call =>
    call.change.get "id" = .str call.changeId → call.KeepsIndex runtime summary (call.progress cut.accesses) before

/-! ## Steps -/

section

variable {runtime : Runtime} {paths : SummaryIndexPaths} {changeId : String} {summary : SummaryPaths}
  {disk : Disk Files}

theorem SameSummary.symm {left right : JsVal} (same : SameSummary left right) : SameSummary right left :=
  fun operationId => (same operationId).symm

theorem SameSummary.trans {left middle right : JsVal} (first : SameSummary left middle)
    (second : SameSummary middle right) : SameSummary left right :=
  fun operationId => (first operationId).trans (second operationId)

theorem persist_keeps {call : PersistCall} (invariant : IndexInvariant runtime summary disk)
    (resolved : summaryPaths paths changeId = .ok summary) (samePaths : call.paths = paths)
    (sameChange : call.changeId = changeId) (textual : ∃ id, call.change.get "id" = .str id) (accesses : Nat)
    (keeps : call.change.get "id" = .str call.changeId →
      call.KeepsIndex runtime summary (call.progress accesses) disk) :
    IndexInvariant runtime summary ((persistChangeProjection runtime call).interrupted accesses disk) := by
  subst samePaths sameChange
  by_cases own : call.change.get "id" = .str call.changeId
  · rw [persist_interrupted own resolved]
    have index := keeps own
    have sameRevision : revisionOf call.change = revisionOf call.change.toJson :=
      (revisionOf_toJson _).symm
    cases progress : call.progress accesses with
    | nothing => exact invariant
    | snapshot =>
      rw [progress] at index
      apply invariant.snapshot
      · rw [← sameRevision]
        exact index.unpointed (.inl rfl)
      · intro pointer loaded held loads names
        have readsBack := index.readsBack nofun loaded loads
        -- the document names the revisions of the change it was written from
        have named : NamesRevisions pointer call.change := by
          have state := (load_state loads).trans (stateRevisionOf_toJson call.change)
          exact ⟨names.1.trans ((load_revision loads).trans sameRevision.symm), names.2.trans state⟩
        obtain ⟨stored, storedLoads, storedNames, same⟩ := index.unpublished rfl pointer held named
        exact ⟨stored, storedLoads, storedNames, same.trans readsBack.symm⟩
    | shard =>
      rw [progress] at index
      apply invariant.shard resolved _ sameRevision (index.readsBack nofun)
      rw [← sameRevision]
      exact index.unpointed (.inr rfl)
    | pointer =>
      rw [progress] at index
      exact .pointer resolved sameRevision (index.readsBack nofun)
  · obtain ⟨unchanged, published, files⟩ := persist_interrupted_other own accesses disk
    have publishing : Publishing runtime call.paths call.change
        (call.operationId.getD (lastOperationId call.change)) call.summary.publishedAt disk.aux
        ((persistChangeProjection runtime call).interrupted accesses disk).aux := by
      rw [files]
      exact publish_publishing call.change call.operationId call.summary published disk.aux
    have untouched := publishing_elsewhere resolved own textual publishing
    have framed := invariant.frame (untouched _ (pointerPath_inside resolved))
      fun revision => untouched _ (shardPath_inside resolved revision)
    rwa [← unchanged] at framed

theorem commit_keeps {call : SummaryCall} (invariant : IndexInvariant runtime summary disk)
    (resolved : summaryPaths paths changeId = .ok summary) (samePaths : call.options.paths = paths)
    (kept : call.KeepsRevision) (accesses : Nat) :
    IndexInvariant runtime summary (commitInterrupted runtime summary call accesses disk) := by
  subst samePaths
  rcases commit_interrupted runtime summary call accesses disk with
    same | ⟨plan, written, replaced, published⟩
  · rw [same]
    exact invariant
  obtain ⟨_, _, lockedWritten⟩ := writtenPlan_some.mp written
  obtain ⟨latest, mutated, read, prepared⟩ := lockedWrite_prepared lockedWritten
  have notBack : revisionOf (storedDocument disk.change) ≤ revisionOf latest := by
    rcases readLatest_ok read with loads | ⟨normalize, normalized, parser, repaired, checked⟩
    · exact (load_revision loads).ge
    · exact (kept normalize _ normalized parser repaired).trans (parsed_revision checked).ge
  have ahead : ∀ pointer, PointerHeld summary disk pointer →
      (pointer.get "projection_revision").numberD 0 < revisionOf plan.value.toJson := by
    intro pointer held
    rw [write_revision prepared]
    exact lt_of_le_of_lt ((invariant.behind pointer held).trans notBack) (lt_add_one _)
  have snapshotOnly : IndexInvariant runtime summary ⟨.text (runtime.stringify plan.value), disk.aux⟩ := by
    apply invariant.snapshot (fun pointer held => (ahead pointer held).le)
    intro pointer loaded held loads names
    have level : (pointer.get "projection_revision").numberD 0 = revisionOf plan.value.toJson :=
      names.1.trans (load_revision loads)
    exact absurd level (ahead pointer held).ne
  generalize commitInterrupted runtime summary call accesses disk = after at replaced published ⊢
  obtain ⟨change, files⟩ := after
  simp only at replaced published
  subst replaced
  rcases published with rfl | ⟨readback, loads, publishing⟩
  · exact snapshotOnly
  have sameRevision : revisionOf readback = revisionOf plan.value.toJson := load_revision loads
  have readsBack : ∀ loaded, Loads runtime (.text (runtime.stringify plan.value)) loaded →
      SameSummary loaded readback := by
    intro loaded other
    rw [other.unique loads]
    exact fun _ => rfl
  by_cases own : readback.get "id" = .str changeId
  · rcases publishing with rfl | ⟨ownSummary, ownResolved, written⟩
    · exact snapshotOnly
    rw [own] at ownResolved
    cases resolved.symm.trans ownResolved
    rcases written with rfl | rfl
    · exact invariant.shard resolved (fun pointer held => (ahead pointer held).le) sameRevision readsBack
    · exact .pointer resolved sameRevision readsBack
  · -- the mutation gave the change another id, and the other change's summary is published
    have untouched := publishing_elsewhere resolved own (load_id loads).2 publishing
    exact snapshotOnly.frame (untouched _ (pointerPath_inside resolved))
      fun revision => untouched _ (shardPath_inside resolved revision)

end

/-! ## Runs -/

def NeverStale (runtime : Runtime) (paths : SummaryIndexPaths) (changeId : String) (disk : Disk Files) : Prop :=
  ∀ faults shard pointer revision,
    readCurrentSummaryShard runtime paths changeId disk faults = .ok (.ok shard pointer revision) →
    ∃ snapshot operationId, Loads runtime disk.change snapshot ∧
      ∀ key, shard.get key = (deriveSummaryShard snapshot operationId (revisionOf snapshot)).get key

/-- A change whose pointer or shard is missing or of other revisions is degraded. -/
def DegradedUnlessCurrent (runtime : Runtime) (paths : SummaryIndexPaths) (summary : SummaryPaths)
    (changeId : String) (disk : Disk Files) : Prop :=
  ∀ faults snapshot, Loads runtime disk.change snapshot → faults.snapshot = none →
    (∀ pointer shard, ¬Consistent runtime summary changeId disk snapshot pointer shard) →
    ∃ reason, readCurrentSummaryShard runtime paths changeId disk faults = .ok (.degraded reason)

theorem IndexInvariant.never_stale {runtime : Runtime} {paths : SummaryIndexPaths} {changeId : String}
    {summary : SummaryPaths} {disk : Disk Files} (invariant : IndexInvariant runtime summary disk)
    (resolved : summaryPaths paths changeId = .ok summary) : NeverStale runtime paths changeId disk := by
  intro faults shard pointer revision read
  obtain ⟨snapshot, consistent⟩ := readCurrent_ok resolved read
  have place := invariant.place pointer consistent.pointerHeld
  have shardHeld := consistent.shardHeld
  rw [place, consistent.pointerRevision] at shardHeld
  obtain ⟨operationId, derived⟩ := invariant.level pointer snapshot shard consistent.pointerHeld
    consistent.loads ⟨consistent.pointerRevision, consistent.pointerState⟩ shardHeld
  exact ⟨snapshot, operationId, consistent.loads, shard_parsed consistent.loads.source derived⟩

/-- Wherever the writes of a run are broken off, a summary is current or degraded, as long as
    every store write gets as far as it must. -/
theorem summary_never_stale {runtime : Runtime} {paths : SummaryIndexPaths} {changeId : String}
    {summary : SummaryPaths} {writes : List CutWrite} {start : Disk Files}
    (resolved : summaryPaths paths changeId = .ok summary) (unpublished : start.aux summary.pointerPath = .absent)
    (onChange : ∀ cut ∈ writes, cut.write.On paths changeId)
    (kept : ∀ step ∈ trace (serveWrite runtime summary) writes start,
      step.request.Keeps runtime summary step.before) :
    let final := stateAfter (serveWrite runtime summary) writes start
    NeverStale runtime paths changeId final ∧ DegradedUnlessCurrent runtime paths summary changeId final := by
  have good : ∀ step ∈ trace (serveWrite runtime summary) writes start,
      step.request.write.On paths changeId ∧ step.request.Keeps runtime summary step.before := by
    intro step member
    exact ⟨onChange _ (request_mem member), kept step member⟩
  have invariant := (trace_guarded (P := IndexInvariant runtime summary) (by
    rintro ⟨write, accesses⟩ disk ⟨on, keeps⟩ invariant
    cases write with
    | commit call => exact commit_keeps invariant resolved on.1 keeps accesses
    | persist call => exact persist_keeps invariant resolved on.1 on.2.1 on.2.2 accesses keeps)
    good (.unpublished unpublished)).2
  exact ⟨invariant.never_stale resolved, fun faults snapshot loads unfaulted =>
    readCurrent_degraded resolved loads unfaulted⟩

/-! ## Fixed runs -/

def freshIndexPaths : SummaryIndexPaths := ⟨"changes", "summaries"⟩

def createdChange : JsVal :=
  .obj [("id", .str "addSearch"), ("title", .str "Add search"), ("status", .str "draft"),
    ("created_at", .str "2026-01-01T00:00:00.000Z"), ("tasks", .arr []), ("deltas", .obj []),
    ("same_project_dependencies", .arr [])]

def savingCreated : PersistCall where
  paths := freshIndexPaths
  changeId := "addSearch"
  change := createdChange
  operationId := some "create:addSearch"
  write := .replaced
  summary := .undisturbed "2026-01-01T00:00:01.000Z"

def savingTask : PersistCall where
  paths := freshIndexPaths
  changeId := "addSearch"
  change := createdChange.set "tasks"
    (.arr [newTask ⟨"2026-01-02T00:00:00.000Z", 0, 0⟩ "Index pages" ⟨none, none, .undefined, none⟩])
  operationId := none
  write := .replaced
  summary := .undisturbed "2026-01-02T00:00:01.000Z"

def emptySummaryDisk : Disk Files := ⟨.absent, fun _ => .absent⟩

def readTaskCount (disk : Disk Files) : Option JsVal :=
  match readCurrentSummaryShard .permissive freshIndexPaths "addSearch" disk .none with
  | .ok (.ok shard _ _) => some (shard.get "task_count")
  | _ => none

/-- A task is saved, and the process ends before the summary is published. -/
theorem cut_save_leaves_stale_summary : ¬NeverStale .permissive freshIndexPaths "addSearch"
      (stateAfter (serveWrite .permissive freshSummaryPaths)
        [⟨.persist savingCreated, 3⟩, ⟨.persist savingTask, 1⟩] emptySummaryDisk) := by
  intro fresh
  have count : readTaskCount (stateAfter (serveWrite .permissive freshSummaryPaths)
      [⟨.persist savingCreated, 3⟩, ⟨.persist savingTask, 1⟩] emptySummaryDisk) = some (.num 0) := by
    rfl
  have stored : (ChangeSchema Runtime.permissive.fields (normalizeProjectionDocument (storedDocument
      (stateAfter (serveWrite .permissive freshSummaryPaths)
        [⟨.persist savingCreated, 3⟩, ⟨.persist savingTask, 1⟩] emptySummaryDisk).change))).toOption.map
      (fun change => (change.get "tasks").elements.length) = some 1 := by rfl
  unfold readTaskCount at count
  split at count
  next shard pointer revision read =>
    obtain ⟨snapshot, operationId, loads, same⟩ := fresh _ shard pointer revision read
    have held := Option.some.inj count
    rw [same "task_count"] at held
    rw [loads.source] at stored
    simp only [Except.toOption, Option.map_some, Option.some.injEq] at stored
    simp [deriveSummaryShard, lookup, stored] at held
  · cases count

/-- The created change is published whole, and the commit that retitles it is broken off
    after its snapshot. -/
theorem summary_never_stale_cut_commit : NeverStale .permissive freshIndexPaths "addSearch"
      (stateAfter (serveWrite .permissive freshSummaryPaths)
        [⟨.persist savingCreated, 3⟩, ⟨.commit (retitleCall "a" "Search"), 2⟩] emptySummaryDisk) := by
  refine (@summary_never_stale _ _ _ freshSummaryPaths _ _ rfl rfl ?_ ?_).1
  · intro cut member
    rcases List.mem_pair.mp member with rfl | rfl
    · exact ⟨rfl, rfl, "addSearch", rfl⟩
    · exact ⟨rfl, rfl⟩
  · intro step member
    rcases List.mem_pair.mp member with rfl | rfl
    · intro _
      have whole : savingCreated.progress 3 = .pointer := by rfl
      have read : (ChangeSchema Runtime.permissive.fields
          (normalizeProjectionDocument createdChange.toJson)).toOption = some createdChange := by
        rfl
      refine ⟨fun _ loaded loads => ?_, ?_, ?_⟩
      · have source : ChangeSchema Runtime.permissive.fields
            (normalizeProjectionDocument createdChange.toJson) = .ok loaded := loads.source
        rw [source] at read
        rw [Option.some.inj read]
        exact fun _ => rfl
      · intro progress
        exact absurd (whole.symm.trans progress) (by decide)
      · rintro (progress | progress)
        · exact absurd (whole.symm.trans progress) (by decide)
        · exact absurd (whole.symm.trans progress) (by decide)
    · exact fun _ _ _ none => nomatch none

end Advance.Storage
