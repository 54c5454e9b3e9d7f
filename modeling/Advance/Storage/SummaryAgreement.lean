import Advance.Storage.SummaryPublication

/-! # Agreement of snapshot, shard and pointer over a run

A run is the transactions of summary calls on one change, in the order in which they
held the lock.  The caller of each reads the pointer and then the shard once it has
let go of the lock, at moments between the file actions of later calls.
-/

namespace Advance.Storage

open Advance.JavaScript Advance.JavaScript.JsVal Advance.Types
open Advance.Foundation

/-! ## Runs of summary calls -/

abbrev SummaryStep := Record (Disk Files) SummaryCall CallResult

def serveSummary (runtime : Runtime) (summary : SummaryPaths) (call : SummaryCall) (disk : Disk Files) :
    CallResult × Disk Files :=
  commitChangeProjection runtime (call.commitCall runtime summary) disk

def summaryHistory (runtime : Runtime) (summary : SummaryPaths) (calls : List SummaryCall)
    (start : Disk Files) : List SummaryStep := trace (serveSummary runtime summary) calls start

/-- The disks a call passes through while it holds the lock. -/
def passes (runtime : Runtime) (summary : SummaryPaths) (step : SummaryStep) : List (Disk Files) :=
  let call := step.request.commitCall runtime summary
  if (earlyCheck call step.before).isNone && call.events.lockAcquired then
    (lockedProgram runtime call).visited step.before
  else []

def disksAfter (runtime : Runtime) (summary : SummaryPaths) (step : SummaryStep)
    (back : List SummaryStep) : List (Disk Files) :=
  step.after :: back.flatMap (passes runtime summary)

/-- The pointer is read at one moment, the shard at the same or a later one. -/
def ReadsAt (disks : List (Disk Files)) (atPointerRead atShardRead : Disk Files) : Prop :=
  ∃ i j : Nat, i ≤ j ∧ disks[i]? = some atPointerRead ∧ disks[j]? = some atShardRead

/-- What the caller of a step may return. -/
def Reports (runtime : Runtime) (summary : SummaryPaths) (step : SummaryStep)
    (atPointerRead atShardRead : Disk Files) (report : CommitChangeSummaryOutcome) : Prop :=
  ∃ outcome, step.response = .ok outcome ∧
    report = reportSummary runtime step.request summary outcome atPointerRead.aux atShardRead.aux

/-! ## Agreement -/

structure Agrees (operationId : String) (snapshot pointer shard : JsVal) : Prop where
  pointerOperation : pointer.get "operation_id" = .str operationId
  pointerRevision : pointer.get "projection_revision" = .num (revisionOf snapshot)
  pointerState : pointer.get "state_revision" = .num (stateRevisionOf snapshot)
  shardOperation : shard.get "operation_id" = .str operationId
  shardRevision : shard.get "projection_revision" = .num (revisionOf snapshot)
  shardState : shard.get "state_revision" = .num (stateRevisionOf snapshot)
  shardDerived : ∀ key, shard.get key = (deriveSummaryShard snapshot operationId (revisionOf snapshot)).get key

structure WroteOperation (runtime : Runtime) (summary : SummaryPaths) (writer : SummaryStep)
    (operationId : String) (snapshot : JsVal) : Prop where
  operation : writer.request.options.operationId = operationId
  wrote : (writtenPlan runtime (writer.request.commitCall runtime summary) writer.before).isSome
  left : Loads runtime writer.after.change snapshot

/-- Every report of a commit, first run or replay, agrees with the snapshot that its
    operation was written with, in this step or an earlier one. -/
def SummariesAgree (runtime : Runtime) (summary : SummaryPaths) (calls : List SummaryCall)
    (start : Disk Files) : Prop :=
  ∀ front step back atPointerRead atShardRead report,
    summaryHistory runtime summary calls start = front ++ step :: back →
    ReadsAt (disksAfter runtime summary step back) atPointerRead atShardRead →
    Reports runtime summary step atPointerRead atShardRead report →
    (report.kind = .committed ∨ report.kind = .idempotent) →
    ∃ writer ∈ front ++ [step], ∃ snapshot pointer shard,
      WroteOperation runtime summary writer step.request.options.operationId snapshot ∧
        report.pointer = some pointer ∧ report.shard = some shard ∧
        Agrees step.request.options.operationId snapshot pointer shard

/-- Nobody has replaced the writer's pointer by the time it is read, nor its shard. -/
def Undisturbed (runtime : Runtime) (summary : SummaryPaths) (writer : SummaryStep) (snapshot : JsVal)
    (atPointerRead atShardRead : Disk Files) : Prop :=
  atPointerRead.aux summary.pointerPath = writer.after.aux summary.pointerPath ∧
    atShardRead.aux (shardPathFor runtime summary snapshot) = writer.after.aux (shardPathFor runtime summary snapshot)

/-- A first run is read undisturbed; the operation of a replay was published by an
    earlier step, whose publication is read undisturbed. -/
structure ReadsPublication (runtime : Runtime) (summary : SummaryPaths) (front : List SummaryStep)
    (step : SummaryStep) (atPointerRead atShardRead : Disk Files) : Prop where
  firstRun : ∀ value revision snapshot audit, step.response = .ok (.committed value revision snapshot audit false) →
    Undisturbed runtime summary step snapshot atPointerRead atShardRead
  replay : ∀ value revision readback audit, step.response = .ok (.committed value revision readback audit true) →
    ∃ writer ∈ front, ∃ snapshot, writer.request.options.operationId = step.request.options.operationId ∧
        Published runtime summary writer.request writer.before snapshot ∧
        Undisturbed runtime summary writer snapshot atPointerRead atShardRead

/-- Every reading of the run is one of the step's own publication. -/
def PublicationsStay (runtime : Runtime) (summary : SummaryPaths) (calls : List SummaryCall)
    (start : Disk Files) : Prop :=
  ∀ front step back atPointerRead atShardRead, summaryHistory runtime summary calls start = front ++ step :: back →
    ReadsAt (disksAfter runtime summary step back) atPointerRead atShardRead →
    ReadsPublication runtime summary front step atPointerRead atShardRead

section

variable {runtime : Runtime} {summary : SummaryPaths}

variable {outcome : ProjectionCommitOutcome}

theorem report_ok {call : SummaryCall} {atPointerRead atShardRead : Files}
    (committed : (reportSummary runtime call summary outcome atPointerRead atShardRead).kind = .committed ∨
      (reportSummary runtime call summary outcome atPointerRead atShardRead).kind = .idempotent) :
    (∃ value revision readback audit idempotent, outcome = .committed value revision readback audit idempotent) ∧
      ∃ pointer shard, (reportSummary runtime call summary outcome atPointerRead atShardRead).pointer = some pointer ∧
        (reportSummary runtime call summary outcome atPointerRead atShardRead).shard = some shard ∧
        readBoundedSummaryJson runtime ChangeSummaryPointerSchema "summary pointer" call.options.changeId
          (atPointerRead summary.pointerPath) call.summaryEvents.pointerFault = .ok pointer ∧
        readBoundedSummaryJson runtime ChangeSummaryShardSchema "summary shard" call.options.changeId
          (atShardRead ((pointer.get "shard_path").textD "")) call.summaryEvents.shardFault = .ok shard := by
  cases outcome with
  | committed value revision readback audit idempotent =>
    refine ⟨⟨_, _, _, _, _, rfl⟩, ?_⟩
    simp only [reportSummary] at committed ⊢
    split at committed
    · simp [summaryError] at committed
    · simp [summaryError] at committed
    next pointer pointerRead =>
      split at committed
      · simp [summaryError] at committed
      · simp [summaryError] at committed
      next shard shardRead => exact ⟨pointer, shard, rfl, rfl, pointerRead, shardRead⟩
  | _ => simp [reportSummary, summaryError, summaryConflict] at committed

theorem derived_state {fields : FieldSchemas} {source snapshot : JsVal}
    (valid : ChangeSchema fields source = .ok snapshot) (operationId : String) :
    (publishedShard snapshot operationId).get "state_revision" = .num (stateRevisionOf snapshot) := by
  have derived : (publishedShard snapshot operationId).get "state_revision" =
      (snapshot.get "state_revision").orElse (.num 0) := by
    obtain ⟨kept, absent | ⟨value, present, _⟩⟩ := revision_kept valid (state_revision_member fields)
    · simp [publishedShard, deriveSummaryShard, lookup, kept, absent, orElse, isNullish]
    · simp [publishedShard, deriveSummaryShard, lookup, kept, present, orElse, isNullish]
  rw [derived, stateRevisionOf]
  obtain ⟨kept, absent | ⟨value, present, _⟩⟩ := revision_kept valid (state_revision_member fields)
  · simp [kept, absent, orElse, isNullish, numberD]
  · simp [kept, present, orElse, isNullish, numberD]

theorem agrees_of_read {fields : FieldSchemas} {source snapshot pointer shard : JsVal}
    (valid : ChangeSchema fields source = .ok snapshot) {operationId publishedAt : String}
    (pointerParsed : ChangeSummaryPointerSchema
      (publishedPointer runtime summary snapshot operationId publishedAt).toJson = .ok pointer)
    (shardParsed : ChangeSummaryShardSchema (publishedShard snapshot operationId).toJson = .ok shard) :
    Agrees operationId snapshot pointer shard := by
  have pointerIs := pointer_parsed pointerParsed
  have shardIs := shard_parsed valid shardParsed
  have state := derived_state valid operationId
  exact
    { pointerOperation := by rw [pointerIs]; simp [summaryPointer, lookup]
      pointerRevision := by rw [pointerIs]; simp [summaryPointer, lookup]
      pointerState := by rw [pointerIs, ← state]; simp [summaryPointer, lookup, state]
      shardOperation := by rw [shardIs]; simp [deriveSummaryShard, lookup]
      shardRevision := by rw [shardIs]; simp [deriveSummaryShard, lookup]
      shardState := by rw [shardIs]; exact state
      shardDerived := shardIs }

theorem report_agrees {writer step : SummaryStep} {snapshot : JsVal}
    {atPointerRead atShardRead : Disk Files}
    (served : writer.after = (serveSummary runtime summary writer.request writer.before).2)
    (resolved : summaryPaths writer.request.options.paths writer.request.options.changeId = .ok summary)
    (same : writer.request.options.operationId = step.request.options.operationId)
    (published : Published runtime summary writer.request writer.before snapshot)
    (undisturbed : Undisturbed runtime summary writer snapshot atPointerRead atShardRead) (committed :
      (reportSummary runtime step.request summary outcome atPointerRead.aux atShardRead.aux).kind = .committed ∨
        (reportSummary runtime step.request summary outcome atPointerRead.aux atShardRead.aux).kind =
          .idempotent) : ∃ snapshot pointer shard,
      WroteOperation runtime summary writer step.request.options.operationId snapshot ∧
        (reportSummary runtime step.request summary outcome atPointerRead.aux atShardRead.aux).pointer =
          some pointer ∧
        (reportSummary runtime step.request summary outcome atPointerRead.aux atShardRead.aux).shard = some shard ∧
        Agrees step.request.options.operationId snapshot pointer shard := by
  obtain ⟨_, pointer, shard, hasPointer, hasShard, pointerRead, shardRead⟩ := report_ok committed
  obtain ⟨loads, pointerFile, shardFile⟩ := published.leaves resolved
  obtain ⟨_, _, _, _, _, valid⟩ := id loads
  obtain ⟨plan, reaches⟩ := published.reached
  rw [undisturbed.1, served, serveSummary, pointerFile] at pointerRead
  have pointerParsed := readSummary_stringify pointerRead
  -- the pointer names the shard of its own publication
  have shardPath : (pointer.get "shard_path").textD "" = shardPathFor runtime summary snapshot := by
    rw [pointer_parsed pointerParsed]
    simp [summaryPointer, lookup, textD, shardPathFor]
  rw [shardPath, undisturbed.2, served, serveSummary, shardFile] at shardRead
  refine ⟨snapshot, pointer, shard, ⟨same, ?_, ?_⟩, hasPointer, hasShard, ?_⟩
  · rw [reaches.written]
    rfl
  · rw [served]
    exact loads
  · rw [← same]
    exact agrees_of_read valid pointerParsed (readSummary_stringify shardRead)

theorem passes_refused {step : SummaryStep}
    (unplanned : (plannedWrite runtime (step.request.commitCall runtime summary)
      step.before.change).toOption.isNone = true) : ∀ disk ∈ passes runtime summary step, disk = step.before := by
  intro disk member
  simp only [passes] at member
  split at member
  · cases planned : plannedWrite runtime (step.request.commitCall runtime summary) step.before.change with
    | ok plan => rw [planned] at unplanned; cases unplanned
    | error result => exact lockedProgram_visited planned disk member
  · cases member

end

def retitleCall (operationId title : String) : SummaryCall where
  options := CommitChangeSummaryOptions.applying operationId (settingField "title" (.str title))
  events := .undisturbed "2026-01-01T00:00:00.000Z"
  summaryEvents := .undisturbed "2026-01-01T00:00:01.000Z"

def stepAfter (calls : List SummaryCall) (call : SummaryCall) : SummaryStep :=
  recordOf (serveSummary .permissive freshSummaryPaths) call
    (stateAfter (serveSummary .permissive freshSummaryPaths) calls freshSummaryDisk)

def reportAfter (calls : List SummaryCall) (call : SummaryCall) : CommitChangeSummaryOutcome :=
  let step := stepAfter calls call
  match step.response with
  | .ok outcome => reportSummary .permissive call freshSummaryPaths outcome step.after.aux step.after.aux
  | .error error => summaryError error

def committedAs : CallResult → Option Bool
  | .ok (.committed _ _ _ _ idempotent) => some idempotent
  | _ => none

theorem committedAs_some {result : CallResult} {idempotent : Bool}
    (committed : committedAs result = some idempotent) : ∃ value revision readback audit,
      result = .ok (.committed value revision readback audit idempotent) := by
  unfold committedAs at committed
  split at committed
  · cases committed
    exact ⟨_, _, _, _, rfl⟩
  · cases committed

theorem reportAfter_reports {calls : List SummaryCall} {call : SummaryCall}
    (committed : (reportAfter calls call).kind = .committed ∨ (reportAfter calls call).kind = .idempotent) :
    Reports .permissive freshSummaryPaths (stepAfter calls call) (stepAfter calls call).after
      (stepAfter calls call).after (reportAfter calls call) := by
  unfold reportAfter at committed ⊢
  cases response : (stepAfter calls call).response with
  | error error => simp [response, summaryError] at committed
  | ok outcome =>
    refine ⟨outcome, response, ?_⟩
    simp only [response]
    rfl

end Advance.Storage
