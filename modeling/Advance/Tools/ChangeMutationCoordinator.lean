import Advance.Storage.ProjectionFailureAtomicity
import Advance.Storage.StoreResidueScan

/-! # Coordinating a change mutation

`coordinateChangeMutation` runs a mutation through the summary commit and maps its outcome.
Other commits may come before the lock is held and after it is released.
-/

namespace Advance.Tools

open Advance.JavaScript Advance.Storage Advance.Foundation

/-! ## Calls -/

inductive AuthorizationKind where
  | mutation
  | recovery

structure DiskMutationAuthorization where
  kind : Option AuthorizationKind
  reason : String
  evidence : String

def DiskMutationAuthorization.authority (authorization : DiskMutationAuthorization) : ProjectionCommitAuthority :=
  match authorization.kind.getD .mutation with
  | .mutation => .mutation authorization.reason authorization.evidence
  | .recovery => .recovery authorization.reason authorization.evidence

structure MutationIntent where
  changeId : String
  mutationKind : String
  mutateLatestProjection : JsVal → Except String Mutated
  verifyProjection : JsVal → Except String ProjectionCommitVerifyResult
  normalizeLatestProjection : Option (JsVal → Except String JsVal)

structure CoordinateOptions where
  authority : DiskMutationAuthorization
  intent : MutationIntent
  changesDir : Option String
  expectedRevision : Option JsNumber

inductive MutationOutcome where
  | verified (value : JsVal) (revision : JsNumber) (audit : JsVal)
  | unverified (reason : String) (audit : JsVal)
  | staleRevision (expected actual : JsNumber)
  | operatorRequired (reason : String)

/-- A call, with the random id and the hash it takes from its surroundings. -/
structure CoordinateCall where
  options : CoordinateOptions
  uuid : String
  sha256 : String → String
  events : CallEvents
  summaryEvents : SummaryEvents

/-- The files when the call looks for the change, when it holds the lock, and when it reads the summary
    after it has released it. -/
structure Surroundings where
  early : Disk Files
  locked : Disk Files
  atPointerRead : Files
  atShardRead : Files

/-! ## The mapping -/

def CoordinateCall.operationId (call : CoordinateCall) : String :=
  let intent := call.options.intent
  s!"mutation:{intent.mutationKind}:{intent.changeId}:{call.uuid}"

def CoordinateCall.summaryCall (call : CoordinateCall) (changesDir : String) : SummaryCall where
  options :=
    { paths := ⟨changesDir, join [dirname changesDir, "summaries"]⟩
      changeId := call.options.intent.changeId
      expectedRevision := call.options.expectedRevision
      operationId := call.operationId
      payloadHash :=
        let authority := call.options.authority
        call.sha256 s!"{call.operationId}:{authority.reason}:{authority.evidence}"
      stateRevision := none
      authority := call.options.authority.authority
      mutationKind := call.options.intent.mutationKind
      mutateLatest := call.options.intent.mutateLatestProjection
      normalizeLatestProjection := call.options.intent.normalizeLatestProjection
      verify := fun context => call.options.intent.verifyProjection context.readback
      allowEmptiedCollections := []
      lockTimeoutMs := none
      payload := none }
  events := call.events
  summaryEvents := call.summaryEvents

/-- What the coordinator makes of a summary commit; the launcher refresh after a verified one
    swallows its errors. -/
def mutationOutcome (commit : CommitChangeSummaryOutcome) : MutationOutcome :=
  match commit.kind, commit.value, commit.audit, commit.revision with
  | .committed, some value, some audit, some revision | .idempotent, some value, some audit, some revision =>
    .verified value revision audit
  | .error, some _, some audit, _ =>
    .unverified (commit.error.getD "Summary projection publication failed.") audit
  | .conflict, _, _, _ => .operatorRequired (commit.error.getD "Projection summary commit conflicted.")
  | _, _, _, _ => .operatorRequired (commit.error.getD "Projection summary commit failed.")

section

variable (runtime : Runtime)

/-- The transaction, with other commits between the look for the change and the lock. -/
def commitAmong (call : CommitCall Files) (surroundings : Surroundings) : CallResult × Disk Files :=
  match earlyCheck call surroundings.early with
  | some result => (result, surroundings.locked)
  | none =>
    if call.events.lockAcquired then (lockedProgram runtime call).run surroundings.locked
    else (lockTimeoutResult call, surroundings.locked)

def summaryCommitAmong (call : SummaryCall) (surroundings : Surroundings) :
    Except String CommitChangeSummaryOutcome × Disk Files :=
  match summaryPaths call.options.paths call.options.changeId with
  | .error error => (.error error, surroundings.locked)
  | .ok summary =>
    match commitAmong runtime (call.commitCall runtime summary) surroundings with
    | (.error error, disk) => (.error error, disk)
    | (.ok outcome, disk) =>
      (.ok (reportSummary runtime call summary outcome surroundings.atPointerRead surroundings.atShardRead), disk)

/-- A whole call: what it returns, and the files when it releases the lock. -/
def coordinateChangeMutation (call : CoordinateCall) (surroundings : Surroundings) :
    Except String MutationOutcome × Disk Files :=
  let changeId := call.options.intent.changeId
  match call.options.changesDir.filter (· ≠ "") with
  | none =>
    (.ok (.operatorRequired s!"Disk mutation for {changeId} requires a changesDir, but none was supplied."),
      surroundings.locked)
  | some changesDir =>
    let (result, disk) := summaryCommitAmong runtime (call.summaryCall changesDir) surroundings
    (result.map mutationOutcome, disk)

end

/-! ## What a call did -/

section

variable (runtime : Runtime) (call : CoordinateCall) (surroundings : Surroundings)

/-- The directory of a call and the places of its summary. -/
def Located (changesDir : String) (summary : SummaryPaths) : Prop :=
  call.options.changesDir.filter (· ≠ "") = some changesDir ∧
    summaryPaths (call.summaryCall changesDir).options.paths call.options.intent.changeId = .ok summary

/-- The transaction under a directory. -/
def CoordinateCall.commit (changesDir : String) (summary : SummaryPaths) : CommitCall Files :=
  (call.summaryCall changesDir).commitCall runtime summary

def writtenAmong (commit : CommitCall Files) : Option WritePlan :=
  if (earlyCheck commit surroundings.early).isNone && commit.events.lockAcquired then
    lockedWrite runtime commit surroundings.locked.change
  else none

def Wrote (plan : WritePlan) : Prop :=
  ∃ changesDir summary, Located call changesDir summary ∧
    writtenAmong runtime surroundings (call.commit runtime changesDir summary) = some plan

/-- The pointer and the shard it names are readable after the lock is released. -/
def SummaryReadable (summary : SummaryPaths) : Prop :=
  ∃ pointer shard,
    readBoundedSummaryJson runtime ChangeSummaryPointerSchema "summary pointer" call.options.intent.changeId
        (surroundings.atPointerRead summary.pointerPath) call.summaryEvents.pointerFault = .ok pointer ∧
      readBoundedSummaryJson runtime ChangeSummaryShardSchema "summary shard" call.options.intent.changeId
        (surroundings.atShardRead ((pointer.get "shard_path").textD "")) call.summaryEvents.shardFault = .ok shard

/-- Every step after the write has succeeded: the write itself to its end, the readback, the
    verification, the publication with its proof, and the reads of the summary. -/
def LaterSteps (plan : WritePlan) : Prop :=
  ∃ changesDir summary, Located call changesDir summary ∧ call.events.write = .replaced ∧
    SummaryReadable runtime call surroundings summary ∧
    ∃ readback, Confirmed runtime (call.commit runtime changesDir summary) plan
      ⟨.text (runtime.stringify plan.value), surroundings.locked.aux⟩ readback

def RefusedForRevision (expected actual : JsNumber) : Prop :=
  ∃ changesDir summary latest, Located call changesDir summary ∧
    earlyCheck (call.commit runtime changesDir summary) surroundings.early = none ∧
    call.events.lockAcquired = true ∧
    readLatest runtime (call.commit runtime changesDir summary) surroundings.locked.change = .ok latest ∧
    call.options.expectedRevision = some expected ∧ (latest.get "projection_revision").numberD 0 = actual ∧
    actual ≠ expected

def NeedsOperator : Prop :=
  (∃ error, (coordinateChangeMutation runtime call surroundings).1 = .error error) ∨
    ∃ reason, (coordinateChangeMutation runtime call surroundings).1 = .ok (.operatorRequired reason)

/-- What a call returns is what has become of the change. -/
structure Truthful : Prop where
  verified : ∀ value revision audit,
    (coordinateChangeMutation runtime call surroundings).1 = .ok (.verified value revision audit) →
    ∃ plan, Wrote runtime call surroundings plan ∧ LaterSteps runtime call surroundings plan ∧
      value = plan.value ∧ revision = plan.newRevision
  unverified : (∃ reason audit,
      (coordinateChangeMutation runtime call surroundings).1 = .ok (.unverified reason audit)) ↔
    ∃ plan, Wrote runtime call surroundings plan ∧ ¬ LaterSteps runtime call surroundings plan
  stale : ∀ expected actual,
    (coordinateChangeMutation runtime call surroundings).1 = .ok (.staleRevision expected actual) ↔
      RefusedForRevision runtime call surroundings expected actual
  others : (∀ value revision audit,
      (coordinateChangeMutation runtime call surroundings).1 ≠ .ok (.verified value revision audit)) →
    (∀ reason audit, (coordinateChangeMutation runtime call surroundings).1 ≠ .ok (.unverified reason audit)) →
    (coordinateChangeMutation runtime call surroundings).2.change = surroundings.locked.change

/-- A step that fails after the write is one that leaves an unverified commit: the write does not fail
    once it has replaced the file, what was written loads, and neither the verification nor the
    publication throws; what is confirmed under the lock is readable after it. -/
def ReportsFailure (changesDir : String) (summary : SummaryPaths) (plan : WritePlan) : Prop :=
  call.events.write = .replaced ∧ call.events.readbackFault = none ∧
    ∃ readback, Loads runtime (.text (runtime.stringify plan.value)) readback ∧
      CallbacksReturn (call.commit runtime changesDir summary) plan readback surroundings.locked.aux ∧
      (Confirmed runtime (call.commit runtime changesDir summary) plan
          ⟨.text (runtime.stringify plan.value), surroundings.locked.aux⟩ readback →
        SummaryReadable runtime call surroundings summary)

end

/-! ## The transaction among other commits -/

section

variable {runtime : Runtime} {commit : CommitCall Files} {surroundings : Surroundings}

section

variable (early : earlyCheck commit surroundings.early = none) (locked : earlyCheck commit surroundings.locked = none)
include early locked

theorem commitAmong_eq :
    commitAmong runtime commit surroundings = commitChangeProjection runtime commit surroundings.locked := by
  simp only [commitAmong, commitChangeProjection, early, locked]

theorem writtenAmong_eq :
    writtenAmong runtime surroundings commit = writtenPlan runtime commit surroundings.locked := by
  simp only [writtenAmong, writtenPlan, early, locked]

end

theorem readLatest_absent {file : FileState} (absent : file.isAbsent = true) (latest : JsVal) :
    readLatest runtime commit file ≠ .ok latest := by
  cases file with
  | text content => cases absent
  | unreadable error => cases absent
  | absent =>
    intro read
    obtain ⟨source, loaded, _⟩ := Stage.bind_ok.mp read
    cases fault : commit.events.loadFault with
    | none => simp [loadLatest, loadChange, readBoundedProjectionDocument, returns, fault] at loaded
    | some fault' =>
      cases fault' <;> simp [loadLatest, loadChange, readBoundedProjectionDocument, returns, fault] at loaded

theorem earlyCheck_ends {disk : Disk Files} {result : CallResult} (refused : earlyCheck commit disk = some result) :
    endsCommitted result = false := by
  simp only [earlyCheck] at refused
  split at refused
  · cases refused
    rfl
  · split at refused <;> cases refused
    rfl

theorem removed_of_refused (early : earlyCheck commit surroundings.early = none)
    (locked : earlyCheck commit surroundings.locked ≠ none) : surroundings.locked.change.isAbsent = true := by
  simp only [earlyCheck] at early locked
  split at early
  · cases early
  next proper =>
    rw [if_neg proper] at locked
    split at early
    · cases early
    next found =>
      push Not at found
      by_contra present
      rw [if_neg] at locked
      · exact locked rfl
      · push Not
        exact ⟨present, found.2⟩

theorem commitAmong_unfound (runtime : Runtime) {commit : CommitCall Files} {surroundings : Surroundings}
    (unfound : ¬ (earlyCheck commit surroundings.early = none ∧ earlyCheck commit surroundings.locked = none)) :
    (commitAmong runtime commit surroundings).2 = surroundings.locked ∧
      endsCommitted (commitAmong runtime commit surroundings).1 = false ∧
      writtenAmong runtime surroundings commit = none := by
  unfold commitAmong writtenAmong
  cases early : earlyCheck commit surroundings.early with
  | some result => exact ⟨rfl, earlyCheck_ends early, rfl⟩
  | none =>
    have absent := removed_of_refused early fun locked => unfound ⟨early, locked⟩
    cases commit.events.lockAcquired with
    | false => exact ⟨rfl, rfl, rfl⟩
    | true =>
      -- under the lock there is nothing to read, so nothing is planned
      have unplanned : ∀ plan, plannedWrite runtime commit surroundings.locked.change ≠ .ok plan := by
        intro plan planned
        obtain ⟨latest, read, _⟩ := Stage.bind_ok.mp planned
        exact readLatest_absent absent latest read
      simp only [if_true, lockedProgram_run, lockedWrite]
      cases planned : plannedWrite runtime commit surroundings.locked.change with
      | ok plan => exact absurd planned (unplanned plan)
      | error result =>
        refine ⟨rfl, ?_, by cases commit.events.write.replaces <;> rfl⟩
        cases ends : endsCommitted result with
        | false => rfl
        | true =>
          obtain ⟨latest, read, _⟩ := plannedWrite_error planned ends
          exact absurd read (readLatest_absent absent latest)

theorem commitAmong_change : (commitAmong runtime commit surroundings).2.change =
      match writtenAmong runtime surroundings commit with
      | some plan => .text (runtime.stringify plan.value)
      | none => surroundings.locked.change := by
  by_cases found : earlyCheck commit surroundings.early = none ∧ earlyCheck commit surroundings.locked = none
  · rw [commitAmong_eq found.1 found.2, writtenAmong_eq found.1 found.2]
    exact commit_change ..
  · obtain ⟨same, _, unwritten⟩ := commitAmong_unfound runtime found
    rw [same, unwritten]

def FreshOperation (runtime : Runtime) (commit : CommitCall Files) (surroundings : Surroundings) : Prop :=
  ∀ latest, readLatest runtime commit surroundings.locked.change = .ok latest →
    ∀ operationId, commit.options.operationKey = some operationId →
      ∀ entry ∈ auditEntries latest, entry.get "operation_id" ≠ .str operationId

theorem unwritten_ends (fresh : FreshOperation runtime commit surroundings)
    (unwritten : writtenAmong runtime surroundings commit = none) :
    endsCommitted (commitAmong runtime commit surroundings).1 = false := by
  unfold writtenAmong at unwritten
  unfold commitAmong
  cases early : earlyCheck commit surroundings.early with
  | some result => exact earlyCheck_ends early
  | none =>
    cases locked : commit.events.lockAcquired with
    | false => rfl
    | true =>
      simp only [early, locked, Option.isNone_none, Bool.and_self, if_true] at unwritten
      simp only [if_true, lockedProgram_run]
      cases planned : plannedWrite runtime commit surroundings.locked.change with
      | error result =>
        cases ends : endsCommitted result with
        | false => rfl
        | true =>
          obtain ⟨latest, read, answered⟩ := plannedWrite_error planned ends
          obtain ⟨entry, member, ⟨⟨operationId, key, named⟩, _, _⟩, _⟩ := checkOperation_replay answered ends
          exact absurd named (fresh latest read operationId key entry member)
      | ok plan =>
        cases event : commit.events.write with
        | failed error => simp only [writeProgram, Program.run_act, event]; rfl
        | replaced =>
          have written := lockedWrite_some.mpr ⟨planned, by rw [event]; rfl⟩
          rw [written] at unwritten
          cases unwritten
        | replacedThenFailed error =>
          have written := lockedWrite_some.mpr ⟨planned, by rw [event]; rfl⟩
          rw [written] at unwritten
          cases unwritten

variable {plan : WritePlan}

section

variable (written : writtenAmong runtime surroundings commit = some plan)
include written

theorem found_of_written :
    earlyCheck commit surroundings.early = none ∧ earlyCheck commit surroundings.locked = none := by
  by_contra unfound
  obtain ⟨_, _, unwritten⟩ := commitAmong_unfound runtime unfound
  rw [written] at unwritten
  cases unwritten

theorem written_ends : endsCommitted (commitAmong runtime commit surroundings).1 = true ↔
      commit.events.write = .replaced ∧ commit.events.readbackFault = none ∧
        ∃ readback, Loads runtime (.text (runtime.stringify plan.value)) readback ∧
          CallbacksReturn commit plan readback surroundings.locked.aux := by
  obtain ⟨early, locked⟩ := found_of_written written
  rw [writtenAmong_eq early locked] at written
  rw [commitAmong_eq early locked]
  cases event : commit.events.write with
  | replaced =>
    rw [commit_ends event written]
    simp
  | failed error =>
    obtain ⟨_, _, lockedWritten⟩ := writtenPlan_some.mp written
    have replaces := (lockedWrite_some.mp lockedWritten).2
    rw [event] at replaces
    cases replaces
  | replacedThenFailed error =>
    obtain ⟨admitted, acquired, _⟩ := writtenPlan_some.mp written
    rw [commit_locked admitted acquired, lockedProgram_run, planned_of_written written]
    simp [writeProgram, event, endsCommitted]

theorem written_commits {afterCommit : ProjectionCommitAfterCommitContext →
      Program Files (Except String ProjectionCommitAfterCommitResult)}
    (hook : commit.options.afterCommit = some afterCommit) :
    isCommitted (commitAmong runtime commit surroundings).1 = true ↔
      commit.events.write = .replaced ∧ ∃ readback, Confirmed runtime commit plan
        ⟨.text (runtime.stringify plan.value), surroundings.locked.aux⟩ readback := by
  obtain ⟨early, locked⟩ := found_of_written written
  rw [writtenAmong_eq early locked] at written
  rw [commitAmong_eq early locked]
  constructor
  · intro committed
    refine ⟨committed_replaced written committed, ?_⟩
    obtain ⟨value, revision, readback, audit, idempotent, result⟩ := isCommitted_shape committed
    rcases commit_committed result with ⟨_, plan', written', _, _, _, confirmed⟩ | ⟨_, unwritten, _⟩
    · cases written.symm.trans written'
      exact ⟨readback, confirmed⟩
    · rw [written] at unwritten
      cases unwritten
  · rintro ⟨replaced, readback, confirmed⟩
    have verified : checkPostcondition commit.options plan readback = .ok () := by
      obtain ⟨result, returned, ok⟩ := confirmed.verified
      simp only [checkPostcondition, returned]
      cases result <;> simp only [ProjectionCommitVerifyResult.ok] at ok <;> rw [ok]
    have reaches : ReachesHook runtime commit surroundings.locked plan readback :=
      ⟨written, replaced, confirmed.faultless, confirmed.readable, confirmed.proven, verified⟩
    rw [commit_reached reaches hook]
    rcases confirmed.followedUp afterCommit hook with nothing | ok
    · simp only [nothing]
      rfl
    · simp only [ok]
      rfl

theorem committed_plan {value readback audit : JsVal} {revision : JsNumber} {idempotent : Bool}
    (result : (commitAmong runtime commit surroundings).1 =
      .ok (.committed value revision readback audit idempotent)) :
    value = plan.value ∧ revision = plan.newRevision := by
  obtain ⟨early, locked⟩ := found_of_written written
  rw [writtenAmong_eq early locked] at written
  rw [commitAmong_eq early locked] at result
  rcases commit_committed result with ⟨_, plan', written', sameValue, sameRevision, _⟩ | ⟨_, unwritten, _⟩
  · cases written.symm.trans written'
    exact ⟨sameValue, sameRevision⟩
  · rw [written] at unwritten
    cases unwritten

end

end

/-! ## The outcome of a call -/

section

variable {runtime : Runtime} {call : CoordinateCall} {surroundings : Surroundings} {changesDir : String}
  {summary : SummaryPaths}

theorem coordinate_located (located : Located call changesDir summary) :
    coordinateChangeMutation runtime call surroundings =
      ((commitAmong runtime (call.commit runtime changesDir summary) surroundings).1.map fun outcome =>
          mutationOutcome (reportSummary runtime (call.summaryCall changesDir) summary outcome
            surroundings.atPointerRead surroundings.atShardRead),
        (commitAmong runtime (call.commit runtime changesDir summary) surroundings).2) := by
  obtain ⟨given, places⟩ := located
  simp only [coordinateChangeMutation, given, summaryCommitAmong]
  rw [show summaryPaths (call.summaryCall changesDir).options.paths (call.summaryCall changesDir).options.changeId =
    .ok summary from places]
  simp only [CoordinateCall.commit]
  cases commitAmong runtime ((call.summaryCall changesDir).commitCall runtime summary) surroundings with
  | mk result disk => cases result <;> rfl

theorem Located.unique (located : Located call changesDir summary) {changesDir' : String} {summary' : SummaryPaths}
    (located' : Located call changesDir' summary') : changesDir' = changesDir ∧ summary' = summary := by
  have sameDirectory : changesDir' = changesDir := Option.some.inj (located'.1.symm.trans located.1)
  refine ⟨sameDirectory, ?_⟩
  rw [sameDirectory] at located'
  exact Except.ok.inj (located'.2.symm.trans located.2)

theorem coordinate_unlocated (runtime : Runtime) (surroundings : Surroundings) {call : CoordinateCall}
    (nowhere : ∀ changesDir summary, ¬ Located call changesDir summary) :
    (coordinateChangeMutation runtime call surroundings).2 = surroundings.locked ∧
      NeedsOperator runtime call surroundings := by
  unfold NeedsOperator
  cases given : call.options.changesDir.filter (· ≠ "") with
  | none =>
    simp only [coordinateChangeMutation, given]
    exact ⟨True.intro, .inr ⟨_, rfl⟩⟩
  | some changesDir =>
    cases places : summaryPaths (call.summaryCall changesDir).options.paths call.options.intent.changeId with
    | ok summary => exact absurd ⟨given, places⟩ (nowhere changesDir summary)
    | error error =>
      have thrown : coordinateChangeMutation runtime call surroundings = (.error error, surroundings.locked) := by
        simp only [coordinateChangeMutation, given, summaryCommitAmong]
        rw [show summaryPaths (call.summaryCall changesDir).options.paths
          (call.summaryCall changesDir).options.changeId = .error error from places]
        rfl
      rw [thrown]
      exact ⟨rfl, .inl ⟨error, rfl⟩⟩

theorem report_committed {value readback audit : JsVal} {revision : JsNumber} {idempotent : Bool}
    (readable : SummaryReadable runtime call surroundings summary) :
    mutationOutcome (reportSummary runtime (call.summaryCall changesDir) summary
      (.committed value revision readback audit idempotent) surroundings.atPointerRead surroundings.atShardRead) =
      .verified value revision audit := by
  obtain ⟨pointer, shard, pointerRead, shardRead⟩ := readable
  simp only [reportSummary]
  rw [show readBoundedSummaryJson runtime ChangeSummaryPointerSchema "summary pointer"
    (call.summaryCall changesDir).options.changeId (surroundings.atPointerRead summary.pointerPath)
    (call.summaryCall changesDir).summaryEvents.pointerFault = .ok pointer from pointerRead]
  simp only
  rw [show readBoundedSummaryJson runtime ChangeSummaryShardSchema "summary shard"
    (call.summaryCall changesDir).options.changeId (surroundings.atShardRead ((pointer.get "shard_path").textD ""))
    (call.summaryCall changesDir).summaryEvents.shardFault = .ok shard from shardRead]
  cases idempotent <;> rfl

theorem report_unreadable (changesDir : String) (value readback audit : JsVal) (revision : JsNumber) (idempotent : Bool)
    (unreadable : ¬ SummaryReadable runtime call surroundings summary) :
    ∃ reason, mutationOutcome (reportSummary runtime (call.summaryCall changesDir) summary
      (.committed value revision readback audit idempotent) surroundings.atPointerRead surroundings.atShardRead) =
      .operatorRequired reason := by
  simp only [reportSummary]
  cases pointerRead : readBoundedSummaryJson runtime ChangeSummaryPointerSchema "summary pointer"
      (call.summaryCall changesDir).options.changeId (surroundings.atPointerRead summary.pointerPath)
      (call.summaryCall changesDir).summaryEvents.pointerFault with
  | notFound => exact ⟨_, rfl⟩
  | degraded reason => exact ⟨_, rfl⟩
  | ok pointer =>
    simp only
    cases shardRead : readBoundedSummaryJson runtime ChangeSummaryShardSchema "summary shard"
        (call.summaryCall changesDir).options.changeId
        (surroundings.atShardRead ((pointer.get "shard_path").textD ""))
        (call.summaryCall changesDir).summaryEvents.shardFault with
    | notFound => exact ⟨_, rfl⟩
    | degraded reason => exact ⟨_, rfl⟩
    | ok shard => exact absurd ⟨pointer, shard, pointerRead, shardRead⟩ unreadable

theorem report_refused (runtime : Runtime) (call : CoordinateCall) (surroundings : Surroundings)
    (changesDir : String) (summary : SummaryPaths) {outcome : ProjectionCommitOutcome}
    (refused : endsCommitted (.ok outcome) = false) :
    ∃ reason, mutationOutcome (reportSummary runtime (call.summaryCall changesDir) summary outcome
      surroundings.atPointerRead surroundings.atShardRead) = .operatorRequired reason := by
  cases outcome with
  | committed value revision readback audit idempotent => cases refused
  | committedUnverified value revision readback audit postconditionError => cases refused
  | _ => exact ⟨_, rfl⟩

theorem uncommitted_outcome (located : Located call changesDir summary) (uncommitted : endsCommitted
      (commitAmong runtime (call.commit runtime changesDir summary) surroundings).1 = false) :
    NeedsOperator runtime call surroundings := by
  unfold NeedsOperator
  rw [coordinate_located located]
  cases outcome : (commitAmong runtime (call.commit runtime changesDir summary) surroundings).1 with
  | error error => exact .inl ⟨error, rfl⟩
  | ok outcome' =>
    rw [outcome] at uncommitted
    obtain ⟨reason, refused⟩ := report_refused runtime call surroundings changesDir summary uncommitted
    exact .inr ⟨reason, congrArg Except.ok refused⟩

theorem unwritten_outcome (located : Located call changesDir summary)
    (fresh : FreshOperation runtime (call.commit runtime changesDir summary) surroundings)
    (unwritten : writtenAmong runtime surroundings (call.commit runtime changesDir summary) = none) :
    NeedsOperator runtime call surroundings ∧
      (coordinateChangeMutation runtime call surroundings).2.change = surroundings.locked.change := by
  refine ⟨uncommitted_outcome located (unwritten_ends fresh unwritten), ?_⟩
  rw [coordinate_located located, commitAmong_change, unwritten]

theorem written_outcome {plan : WritePlan} (located : Located call changesDir summary)
    (written : writtenAmong runtime surroundings (call.commit runtime changesDir summary) = some plan) :
    (LaterSteps runtime call surroundings plan → ∃ audit, (coordinateChangeMutation runtime call surroundings).1 =
          .ok (.verified plan.value plan.newRevision audit)) ∧
      (¬ LaterSteps runtime call surroundings plan →
        ReportsFailure runtime call surroundings changesDir summary plan →
        ∃ reason audit, (coordinateChangeMutation runtime call surroundings).1 = .ok (.unverified reason audit)) ∧
      (¬ ReportsFailure runtime call surroundings changesDir summary plan →
        NeedsOperator runtime call surroundings) := by
  have committed := written_commits written rfl
  have ends := written_ends written
  unfold NeedsOperator
  rw [coordinate_located located]
  refine ⟨?_, ?_, ?_⟩
  · rintro ⟨changesDir', summary', located', replaced, readable, readback, confirmed⟩
    obtain ⟨rfl, rfl⟩ := located.unique located'
    obtain ⟨value, revision, readback', audit, idempotent, result⟩ :=
      isCommitted_shape (committed.mpr ⟨replaced, readback, confirmed⟩)
    obtain ⟨sameValue, sameRevision⟩ := committed_plan written result
    rw [result]
    subst sameValue sameRevision
    exact ⟨audit, congrArg Except.ok (report_committed readable)⟩
  · rintro failed ⟨replaced, faultless, readback, loads, returns, readable⟩
    have ended := ends.mpr ⟨replaced, faultless, readback, loads, returns⟩
    cases result : (commitAmong runtime (call.commit runtime changesDir summary) surroundings).1 with
    | error error =>
      rw [result] at ended
      cases ended
    | ok outcome =>
      rw [result] at ended committed
      cases outcome with
      | committedUnverified value revision readback' audit postconditionError => exact ⟨_, audit, rfl⟩
      | committed value revision readback' audit idempotent =>
        obtain ⟨_, other, confirmed⟩ := committed.mp rfl
        obtain rfl : other = readback := confirmed.readable.unique loads
        exact absurd ⟨changesDir, summary, located, replaced, readable confirmed, other, confirmed⟩ failed
      | _ => cases ended
  · intro unreported
    cases ended : endsCommitted (commitAmong runtime (call.commit runtime changesDir summary) surroundings).1 with
    | false =>
      have outcome := uncommitted_outcome located ended
      unfold NeedsOperator at outcome
      rwa [coordinate_located located] at outcome
    | true =>
      obtain ⟨replaced, faultless, readback, loads, returns⟩ := ends.mp ended
      -- so it is the summary that cannot be read after a confirmed commit
      have lost : ¬ (Confirmed runtime (call.commit runtime changesDir summary) plan
          ⟨.text (runtime.stringify plan.value), surroundings.locked.aux⟩ readback →
        SummaryReadable runtime call surroundings summary) :=
        fun readable => unreported ⟨replaced, faultless, readback, loads, returns, readable⟩
      push Not at lost
      obtain ⟨confirmed, unreadable⟩ := lost
      obtain ⟨value, revision, readback', audit, idempotent, result⟩ :=
        isCommitted_shape (committed.mpr ⟨replaced, readback, confirmed⟩)
      rw [result]
      obtain ⟨reason, reported⟩ :=
        report_unreadable changesDir value readback' audit revision idempotent unreadable
      exact .inr ⟨reason, congrArg Except.ok reported⟩

theorem mutationOutcome_not_stale (commit : CommitChangeSummaryOutcome) (expected actual : JsNumber) :
    mutationOutcome commit ≠ .staleRevision expected actual := by
  unfold mutationOutcome
  split <;> nofun

end

variable {surroundings : Surroundings} {call : CoordinateCall} {runtime : Runtime}

theorem NeedsOperator.not_verified
    (needed : NeedsOperator runtime call surroundings) (value : JsVal) (revision : JsNumber) (audit : JsVal) :
    (coordinateChangeMutation runtime call surroundings).1 ≠ .ok (.verified value revision audit) := by
  rcases needed with ⟨error, thrown⟩ | ⟨reason, refused⟩
  · rw [thrown]
    nofun
  · rw [refused]
    nofun

theorem NeedsOperator.not_unverified
    (needed : NeedsOperator runtime call surroundings) (reason : String) (audit : JsVal) :
    (coordinateChangeMutation runtime call surroundings).1 ≠ .ok (.unverified reason audit) := by
  rcases needed with ⟨error, thrown⟩ | ⟨reason', refused⟩
  · rw [thrown]
    nofun
  · rw [refused]
    nofun

theorem coordinate_not_stale (runtime : Runtime) (call : CoordinateCall) (surroundings : Surroundings)
    (expected actual : JsNumber) :
    (coordinateChangeMutation runtime call surroundings).1 ≠ .ok (.staleRevision expected actual) := by
  by_cases somewhere : ∃ changesDir summary, Located call changesDir summary
  · obtain ⟨changesDir, summary, located⟩ := somewhere
    rw [coordinate_located located]
    cases (commitAmong runtime (call.commit runtime changesDir summary) surroundings).1 with
    | error error => nofun
    | ok outcome => exact fun stale => mutationOutcome_not_stale _ expected actual (Except.ok.inj stale)
  · push Not at somewhere
    rcases (coordinate_unlocated runtime surroundings somewhere).2 with
      ⟨error, thrown⟩ | ⟨reason, refused⟩
    · rw [thrown]
      nofun
    · rw [refused]
      nofun

theorem stale_iff (current : ∀ expected actual, ¬ RefusedForRevision runtime call surroundings expected actual)
    (expected actual : JsNumber) :
    (coordinateChangeMutation runtime call surroundings).1 = .ok (.staleRevision expected actual) ↔
      RefusedForRevision runtime call surroundings expected actual :=
  ⟨fun stale => absurd stale (coordinate_not_stale runtime call surroundings expected actual),
    fun refused => absurd refused (current expected actual)⟩

theorem wrote_iff {changesDir : String}
    {summary : SummaryPaths} (located : Located call changesDir summary) (plan : WritePlan) :
    Wrote runtime call surroundings plan ↔
      writtenAmong runtime surroundings (call.commit runtime changesDir summary) = some plan := by
  constructor
  · rintro ⟨changesDir', summary', located', written⟩
    obtain ⟨rfl, rfl⟩ := located.unique located'
    exact written
  · exact fun written => ⟨changesDir, summary, located, written⟩

theorem truthful_of_idle (needed : NeedsOperator runtime call surroundings)
    (unchanged : (coordinateChangeMutation runtime call surroundings).2.change = surroundings.locked.change)
    (unwritten : ∀ plan, ¬ Wrote runtime call surroundings plan)
    (current : ∀ expected actual, ¬ RefusedForRevision runtime call surroundings expected actual) :
    Truthful runtime call surroundings where
  verified value revision audit result := absurd result (needed.not_verified value revision audit)
  unverified := by
    constructor
    · rintro ⟨reason, audit, result⟩
      exact absurd result (needed.not_unverified reason audit)
    · rintro ⟨plan, wrote, _⟩
      exact absurd wrote (unwritten plan)
  stale := stale_iff current
  others _ _ := unchanged

/-- The outcome is truthful exactly for a call that is not refused for its revision and whose write, if it
    makes one, is followed by nothing that loses it.  The operation id is one of its own. -/
theorem truthful_iff (runtime : Runtime) (call : CoordinateCall) (surroundings : Surroundings)
    (fresh : ∀ changesDir summary, Located call changesDir summary →
      FreshOperation runtime (call.commit runtime changesDir summary) surroundings) :
    Truthful runtime call surroundings ↔
      (∀ expected actual, ¬ RefusedForRevision runtime call surroundings expected actual) ∧
        ∀ changesDir summary plan, Located call changesDir summary →
          writtenAmong runtime surroundings (call.commit runtime changesDir summary) = some plan →
            ReportsFailure runtime call surroundings changesDir summary plan := by
  constructor
  · intro truthful
    refine ⟨fun expected actual refused => ?_, fun changesDir summary plan located written => ?_⟩
    · exact coordinate_not_stale runtime call surroundings expected actual
        ((truthful.stale expected actual).mpr refused)
    · by_contra unreported
      obtain ⟨verified, _, needed⟩ := written_outcome located written
      by_cases later : LaterSteps runtime call surroundings plan
      · obtain ⟨audit, result⟩ := verified later
        exact (needed unreported).not_verified _ _ _ result
      · obtain ⟨reason, audit, result⟩ :=
          truthful.unverified.mpr ⟨plan, (wrote_iff located plan).mpr written, later⟩
        exact (needed unreported).not_unverified _ _ result
  · rintro ⟨current, reports⟩
    by_cases somewhere : ∃ changesDir summary, Located call changesDir summary
    · obtain ⟨changesDir, summary, located⟩ := somewhere
      cases written : writtenAmong runtime surroundings (call.commit runtime changesDir summary) with
      | none =>
        obtain ⟨needed, unchanged⟩ := unwritten_outcome located (fresh changesDir summary located) written
        refine truthful_of_idle needed unchanged (fun plan wrote => ?_) current
        rw [wrote_iff located, written] at wrote
        cases wrote
      | some plan =>
        obtain ⟨verified, unverified, _⟩ := written_outcome located written
        have reported := reports changesDir summary plan located written
        have wrote := (wrote_iff located plan).mpr written
        have only : ∀ {other}, Wrote runtime call surroundings other → other = plan := by
          intro other wrote'
          rw [wrote_iff located, written] at wrote'
          exact (Option.some.inj wrote').symm
        by_cases later : LaterSteps runtime call surroundings plan
        · obtain ⟨audit, result⟩ := verified later
          refine ⟨?_, ?_, ?_, ?_⟩
          · intro value revision audit' result'
            rw [result] at result'
            cases result'
            exact ⟨plan, wrote, later, rfl, rfl⟩
          · constructor
            · rintro ⟨reason, audit', result'⟩
              rw [result] at result'
              cases result'
            · rintro ⟨other, wrote', failed⟩
              rw [only wrote'] at failed
              exact absurd later failed
          · exact stale_iff current
          · exact fun unverified' => absurd result (unverified' _ _ _)
        · obtain ⟨reason, audit, result⟩ := unverified later reported
          refine ⟨?_, ?_, ?_, ?_⟩
          · intro value revision audit' result'
            rw [result] at result'
            cases result'
          · exact ⟨fun _ => ⟨plan, wrote, later⟩, fun _ => ⟨reason, audit, result⟩⟩
          · exact stale_iff current
          · exact fun _ unverified' => absurd result (unverified' _ _)
    · push Not at somewhere
      obtain ⟨same, needed⟩ := coordinate_unlocated runtime surroundings somewhere
      refine truthful_of_idle needed (by rw [same]) (fun plan wrote => ?_) current
      obtain ⟨changesDir, summary, located, _⟩ := wrote
      exact somewhere changesDir summary located

/-! ## The fate of a mutation -/

/-- What becomes of a coordinated mutation: nothing is written; it is written and the call fails; it is
    written and verified. -/
inductive MutationFate where
  | untouched
  | unreported
  | verified
  deriving DecidableEq

/-- A fate at the value found under the lock, with whether the caller is told of the write. -/
def MutationFate.commit {Value : Type*} (fate : MutationFate) (mutateLatest : Value → Option Value)
    (verify : Value → Bool) (latest : Value) : Value × Bool :=
  match fate, mutateLatest latest with
  | .verified, some next => (next, verify next)
  | .unreported, some next => (next, false)
  | _, _ => (latest, false)

theorem MutationFate.commit_cases {Value : Type*} (fate : MutationFate) (mutateLatest : Value → Option Value)
    (verify : Value → Bool) (latest : Value) : fate.commit mutateLatest verify latest = (latest, false) ∨
      ∃ next told, mutateLatest latest = some next ∧ fate ≠ .untouched ∧
        fate.commit mutateLatest verify latest = (next, told) ∧
        (told = true → fate = .verified ∧ verify next = true) := by
  unfold MutationFate.commit
  cases mutated : mutateLatest latest with
  | none => cases fate <;> exact .inl rfl
  | some next =>
    cases fate with
    | untouched => exact .inl rfl
    | unreported => exact .inr ⟨next, false, rfl, nofun, rfl, nofun⟩
    | verified => exact .inr ⟨next, verify next, rfl, nofun, rfl, fun told => ⟨rfl, told⟩⟩

def Befalls (runtime : Runtime) (call : CoordinateCall) (surroundings : Surroundings) (fate : MutationFate) : Prop :=
  let (result, disk) := coordinateChangeMutation runtime call surroundings
  match fate with
  | .untouched =>
    disk.change = surroundings.locked.change ∧ ∀ value revision audit, result ≠ .ok (.verified value revision audit)
  | .unreported =>
    (∃ plan, Wrote runtime call surroundings plan ∧ disk.change = .text (runtime.stringify plan.value)) ∧
      ∀ value revision audit, result ≠ .ok (.verified value revision audit)
  | .verified =>
    ∃ plan audit, Wrote runtime call surroundings plan ∧ disk.change = .text (runtime.stringify plan.value) ∧
      result = .ok (.verified plan.value plan.newRevision audit)

theorem befalls_some (runtime : Runtime) (call : CoordinateCall) (surroundings : Surroundings)
    (fresh : ∀ changesDir summary, Located call changesDir summary →
      FreshOperation runtime (call.commit runtime changesDir summary) surroundings) :
    ∃ fate, Befalls runtime call surroundings fate := by
  by_cases somewhere : ∃ changesDir summary, Located call changesDir summary
  · obtain ⟨changesDir, summary, located⟩ := somewhere
    cases written : writtenAmong runtime surroundings (call.commit runtime changesDir summary) with
    | none =>
      obtain ⟨needed, unchanged⟩ := unwritten_outcome located (fresh changesDir summary located) written
      exact ⟨.untouched, unchanged, needed.not_verified⟩
    | some plan =>
      have wrote := (wrote_iff located plan).mpr written
      have changed : (coordinateChangeMutation runtime call surroundings).2.change =
          .text (runtime.stringify plan.value) := by
        rw [coordinate_located located, commitAmong_change, written]
      obtain ⟨verified, unverified, needed⟩ := written_outcome located written
      by_cases later : LaterSteps runtime call surroundings plan
      · obtain ⟨audit, result⟩ := verified later
        exact ⟨.verified, plan, audit, wrote, changed, result⟩
      · refine ⟨.unreported, ⟨plan, wrote, changed⟩, ?_⟩
        by_cases reported : ReportsFailure runtime call surroundings changesDir summary plan
        · obtain ⟨reason, audit, result⟩ := unverified later reported
          intro value revision audit' result'
          cases result.symm.trans result'
        · exact (needed reported).not_verified
  · push Not at somewhere
    obtain ⟨same, needed⟩ := coordinate_unlocated runtime surroundings somewhere
    exact ⟨.untouched, congrArg Disk.change same, needed.not_verified⟩

/-! ## Fixed runs -/

def retitleMutation (expectedRevision : Option JsNumber) : CoordinateCall where
  options :=
    { authority := ⟨none, "reason", "evidence"⟩
      intent :=
        { changeId := "addSearch"
          mutationKind := "retitle"
          mutateLatestProjection := settingField "title" (.str "Find things")
          verifyProjection := fun _ => .ok (.boolean true)
          normalizeLatestProjection := none }
      changesDir := some "changes"
      expectedRevision := expectedRevision }
  uuid := "0d6c"
  sha256 := id
  events := .undisturbed "2026-01-01T00:00:00.000Z"
  summaryEvents := .undisturbed "2026-01-01T00:00:01.000Z"

def retitleSummary : SummaryPaths where
  changeDir := "./summaries/addSearch"
  revDir := "./summaries/addSearch/revisions"
  pointerPath := "./summaries/addSearch/current.json"
  snapshotPath := "changes/addSearch/change.json"

theorem retitle_located (expectedRevision : Option JsNumber) :
    Located (retitleMutation expectedRevision) "changes" retitleSummary := by
  have given : (some "changes").filter (· ≠ "") = some "changes" := by rfl
  have places : summaryPaths ⟨"changes", join [dirname "changes", "summaries"]⟩ "addSearch" =
      .ok retitleSummary := by rfl
  exact ⟨given, places⟩

def aloneAt (call : CoordinateCall) (disk : Disk Files) : Surroundings :=
  let published := (coordinateChangeMutation .permissive call ⟨disk, disk, disk.aux, disk.aux⟩).2.aux
  ⟨disk, disk, published, published⟩

def isVerified : Except String MutationOutcome → Bool
  | .ok (.verified _ _ _) => true
  | _ => false

theorem retitle_finds {expectedRevision : Option JsNumber} {latest : JsVal}
    (read : readLatest .permissive ((retitleMutation expectedRevision).commit .permissive "changes" retitleSummary)
      freshSummaryDisk.change = .ok latest) :
    (latest.get "projection_revision").numberD 0 = 0 ∧ auditEntries latest = [] := by
  have found : ((readLatest .permissive ((retitleMutation none).commit .permissive "changes" retitleSummary)
      freshSummaryDisk.change).toOption.map fun found =>
        ((found.get "projection_revision").numberD 0, auditEntries found)) = some (0, []) := by rfl
  have same : readLatest .permissive ((retitleMutation expectedRevision).commit .permissive "changes" retitleSummary)
      freshSummaryDisk.change =
    readLatest .permissive ((retitleMutation none).commit .permissive "changes" retitleSummary)
      freshSummaryDisk.change := rfl
  rw [← same, read] at found
  exact Prod.mk.inj (Option.some.inj found)

/-- A call for another revision is refused, and its outcome does not say so. -/
theorem mismatch_needs_operator :
    ¬ Truthful .permissive (retitleMutation (some 4)) (aloneAt (retitleMutation (some 4)) freshSummaryDisk) := by
  intro truthful
  cases read : readLatest .permissive ((retitleMutation (some 4)).commit .permissive "changes" retitleSummary)
      freshSummaryDisk.change with
  | ok latest =>
    exact coordinate_not_stale .permissive _ _ 4 0 ((truthful.stale 4 0).mpr
      ⟨"changes", retitleSummary, latest, retitle_located (some 4), by rfl, rfl, read, rfl,
        (retitle_finds read).1, by decide⟩)
  | error result =>
    have readable : (readLatest .permissive
        ((retitleMutation (some 4)).commit .permissive "changes" retitleSummary)
        freshSummaryDisk.change).toOption.isSome = true := by rfl
    rw [read] at readable
    cases readable

theorem truthful_retitle :
    Truthful .permissive (retitleMutation (some 0)) (aloneAt (retitleMutation (some 0)) freshSummaryDisk) := by
  have located := retitle_located (some 0)
  refine (truthful_iff .permissive (retitleMutation (some 0)) _ ?_).mpr ⟨?_, ?_⟩
  · intro changesDir summary located' latest read operationId _ entry member
    obtain ⟨rfl, rfl⟩ := located.unique located'
    rw [(retitle_finds read).2] at member
    cases member
  · rintro expected actual ⟨changesDir, summary, latest, located', _, _, read, given, revision, differs⟩
    obtain ⟨rfl, rfl⟩ := located.unique located'
    cases given
    exact differs (revision.symm.trans (retitle_finds read).1)
  · intro changesDir summary plan located' written
    obtain ⟨rfl, rfl⟩ := located.unique located'
    by_contra unreported
    have verified : isVerified (coordinateChangeMutation .permissive (retitleMutation (some 0))
        (aloneAt (retitleMutation (some 0)) freshSummaryDisk)).1 = true := by decide +kernel
    rcases (written_outcome located written).2.2 unreported with ⟨error, thrown⟩ | ⟨reason, refused⟩
    · rw [thrown] at verified
      cases verified
    · rw [refused] at verified
      cases verified

theorem befalls_retitle : ∃ fate,
    Befalls .permissive (retitleMutation none) (aloneAt (retitleMutation none) freshSummaryDisk) fate := by
  refine befalls_some _ _ _ fun changesDir summary located latest read _ _ entry member => ?_
  obtain ⟨rfl, rfl⟩ := (retitle_located none).unique located
  rw [(retitle_finds read).2] at member
  cases member

end Advance.Tools
