import Advance.Storage.StoredProjection

/-! # Closing a change

`adv_change_close` commits the closed status under the lock of the change.  It then copies the
committed value to `closed/`, proves the copy readable and removes the directory of the change,
all of it without the lock.
-/

namespace Advance.Storage

open Advance.JavaScript Advance.JavaScript.JsVal

variable {Aux : Type}

/-! ## Retirement -/

/-- The record under `changes/` with everything beside it, and the one under `closed/`. -/
structure RecordFiles (Aux : Type) where
  disk : Disk Aux
  closed : FileState

inductive RetireClosedChangeResult where
  | ok (cleanupWarning : Option String)
  | failed (error : String)
  deriving DecidableEq

inductive RemovalEvent where
  | removed
  | failed (error : String) (recordGone : Bool)
  deriving DecidableEq

structure RetireEvents where
  write : WriteEvent
  readbackFault : Option ReadFault
  removal : RemovalEvent

def RetireEvents.undisturbed : RetireEvents := ⟨.replaced, none, .removed⟩

def fieldText (change : JsVal) (key : String) : String := (change.get key).textD "undefined"

def refuseToRetire (change : JsVal) : Option RetireClosedChangeResult :=
  if change.get "status" ≠ .str "closed" then
    let changeId := fieldText change "id"
    let status := fieldText change "status"
    some (.failed s!"refusing to retire {changeId}: status is \"{status}\", expected \"closed\"")
  else none

def writeClosed (runtime : Runtime) (change : JsVal) (event : WriteEvent) (closed : FileState) : FileState :=
  match event with
  | .failed _ => closed
  | .replaced | .replacedThenFailed _ => .text (runtime.stringify change)

def closedWriteFailure (change : JsVal) : WriteEvent → Option RetireClosedChangeResult
  | .replaced => none
  | .failed error | .replacedThenFailed error =>
    let changeId := fieldText change "id"
    some (.failed s!"failed to write closed bundle for {changeId}: {error}")

def unprovenCopy (runtime : Runtime) (closedPath : String) (change : JsVal) (closed : FileState)
    (fault : Option ReadFault) : Option RetireClosedChangeResult :=
  let changeId := fieldText change "id"
  match loadChange runtime closedPath changeId closed fault with
  | .failure error _ =>
    some (.failed s!"closed bundle for {changeId} is not readable after write: {error}")
  | .success none =>
    some (.failed s!"closed bundle for {changeId} is not readable after write: no record returned")
  | .success (some readback) =>
    if readback.get "id" ≠ change.get "id" ∨ readback.get "status" ≠ .str "closed" then
      let id := fieldText readback "id"
      let status := fieldText readback "status"
      some (.failed s!"closed bundle for {changeId} read back as id=\"{id}\" status=\"{status}\"")
    else none

def removeChangeDir (event : RemovalEvent) (disk : Disk Aux) : Disk Aux :=
  match event with
  | .removed | .failed _ true => { disk with change := .absent }
  | .failed _ false => disk

def removalResult (change : JsVal) : RemovalEvent → RetireClosedChangeResult
  | .removed => .ok none
  | .failed error _ =>
    let changeId := fieldText change "id"
    .ok (some (s!"closed record for {changeId} is durable, but removing " ++ s!"changes/{changeId} failed: {error}"))

/-- A whole retirement of the record of this change, with nobody else at it meanwhile. -/
def retireClosedChange (runtime : Runtime) (closedPath : String) (change : JsVal) (events : RetireEvents)
    (files : RecordFiles Aux) : RetireClosedChangeResult × RecordFiles Aux :=
  match refuseToRetire change with
  | some refused => (refused, files)
  | none =>
    let written := { files with closed := writeClosed runtime change events.write files.closed }
    match closedWriteFailure change events.write with
    | some failed => (failed, written)
    | none =>
      match unprovenCopy runtime closedPath change written.closed events.readbackFault with
      | some failed => (failed, written)
      | none =>
        (removalResult change events.removal, { written with disk := removeChangeDir events.removal written.disk })

/-! ## The commit of a close -/

inductive CloseReason where
  | cancelled
  | superseded
  | notPlanned
  deriving DecidableEq

def CloseReason.name : CloseReason → String
  | cancelled => "cancelled"
  | superseded => "superseded"
  | notPlanned => "not_planned"

structure CloseInput where
  reason : CloseReason
  approvalEvidence : String
  supersededBy : Option String
  cancelledAt : String

/-- The `mutateLatestProjection` of a close. -/
def closeLatest (input : CloseInput) (latest : JsVal) : Except String Mutated :=
  let closure := .obj [("reason", .str input.reason.name), ("approved_by_user", .bool true),
      ("approval_evidence", .str input.approvalEvidence), ("approved_at", .str input.cancelledAt),
      ("superseded_by", ofStr input.supersededBy)]
  .ok (.returning latest
    (((latest.set "status" (.str "closed")).set "lifecycleState" (.str "closed")).set "closure" closure))

def closeVerified (context : ProjectionCommitVerifyContext) : Except String ProjectionCommitVerifyResult :=
  .ok (.boolean
    (context.readback.get "status" = .str "closed" && context.readback.get "lifecycleState" = .str "closed"))

def closeOptions (input : CloseInput) (coordinated : CommitChangeProjectionOptions Aux) :
    CommitChangeProjectionOptions Aux :=
  let reason := input.reason.name
  { coordinated with
    authority := .mutation s!"close change as {reason}" input.approvalEvidence
    mutationKind := "status_transition"
    expectedRevision := none
    mutateLatest := closeLatest input
    normalizeLatestProjection := none
    verify := closeVerified }

inductive ChangeCall (Aux : Type) where
  | mutation (call : CommitCall Aux)
  | close (input : CloseInput) (coordinated : CommitCall Aux)

def ChangeCall.commitCall : ChangeCall Aux → CommitCall Aux
  | mutation call => call
  | close input coordinated => ⟨closeOptions input coordinated.options, coordinated.events⟩

def ChangeCall.closes : ChangeCall Aux → Bool
  | mutation _ => false
  | close _ _ => true

/-- The value a close goes on to retire: the one its commit returned, where the coordinator
    reports it verified. -/
def valueToRetire (call : ChangeCall Aux) (verified : Bool) (result : CallResult) : Option JsVal :=
  match result with
  | .ok (.committed value _ _ _ _) =>
    if call.closes && verified && (refuseToRetire value).isNone then some value else none
  | _ => none

/-- A whole close, with nobody else at the change meanwhile. -/
def advChangeClose (runtime : Runtime) (closedPath : String) (input : CloseInput) (coordinated : CommitCall Aux)
    (verified : Bool) (events : RetireEvents) (files : RecordFiles Aux) :
    Option RetireClosedChangeResult × RecordFiles Aux :=
  let call := ChangeCall.close input coordinated
  let (result, disk) := commitChangeProjection runtime call.commitCall files.disk
  match result with
  | .ok (.committed value _ _ _ _) =>
    if verified then
      let (retirement, files) := retireClosedChange runtime closedPath value events { files with disk := disk }
      (some retirement, files)
    else (none, { files with disk := disk })
  | _ => (none, { files with disk := disk })

/-! ## What a close commits -/

variable {runtime : Runtime}

variable {coordinated : CommitCall Aux} {input : CloseInput}

theorem close_planned {file : FileState} {plan : WritePlan}
    (planned : plannedWrite runtime (ChangeCall.close input coordinated).commitCall file = .ok plan) :
    ∃ latest, Loads runtime file latest ∧ plan.value.get "id" = latest.get "id" ∧
      plan.value.get "status" = .str "closed" := by
  obtain ⟨latest, read, prepares⟩ := Stage.bind_ok.mp planned
  obtain ⟨mutated, prepared⟩ := prepareCommit_ok prepares
  rcases readLatest_ok read with loads | ⟨_, _, parser, _⟩
  · obtain ⟨_, commits, _, value⟩ := buildValue_ok prepared.built
    have applied : closeLatest input latest = .ok mutated := prepared.mutation
    obtain rfl := Except.ok.inj applied
    refine ⟨latest, loads, ?_, ?_⟩
    · obtain ⟨_, id, named⟩ := load_id loads
      have kept : lookup "id" latest.spread = latest.get "id" := lookup_spread_of_get (by simp [named])
      rw [value, overlay_other _ _ _ _ (by decide) (by decide) (by decide), ← kept]
      simp [Mutated.returning]
    · rw [value, overlay_other _ _ _ _ (by decide) (by decide) (by decide)]
      simp [Mutated.returning]
  · cases parser

theorem close_proven {plan : WritePlan} {disk : Disk Aux} {readback value : JsVal} {id : String} (closedPath : String)
    (confirmed : Confirmed runtime (ChangeCall.close input coordinated).commitCall plan disk readback)
    (written : disk.change = .text (runtime.stringify value)) (named : value.get "id" = .str id) :
    unprovenCopy runtime closedPath value (.text (runtime.stringify value)) none = none := by
  have loads := confirmed.readable
  rw [written] at loads
  obtain ⟨result, verified, ok⟩ := confirmed.verified
  obtain rfl := Except.ok.inj verified
  have status : readback.get "status" = .str "closed" := by
    simp only [ProjectionCommitVerifyResult.ok, Bool.and_eq_true, decide_eq_true_eq] at ok
    exact ok.1
  have same : readback.get "id" = value.get "id" := by
    rw [(load_id loads).1, stored_stringify, get_toJson, named]
    rfl
  rw [unprovenCopy]
  simp only [loadChange_of_loads loads, same, status, ne_eq, not_true_eq_false, or_self, if_false]

theorem retire_alone {closedPath : String} {change : JsVal} {files : RecordFiles Aux}
    (closed : change.get "status" = .str "closed")
    (proven : unprovenCopy runtime closedPath change (.text (runtime.stringify change)) none = none) :
    retireClosedChange runtime closedPath change .undisturbed files =
      (.ok none, ⟨{ files.disk with change := .absent }, .text (runtime.stringify change)⟩) := by
  simp only [retireClosedChange, refuseToRetire, closed, ne_eq, not_true_eq_false, if_false,
    RetireEvents.undisturbed, closedWriteFailure, writeClosed, proven, removalResult, removeChangeDir]

/-- No commit the record holds has the operation of this call. -/
def ChangeCall.Fresh (runtime : Runtime) (call : ChangeCall Aux) (file : FileState) : Prop :=
  ∀ latest, readLatest runtime call.commitCall file = .ok latest →
    ∀ entry ∈ auditEntries latest, ¬Replays call.commitCall.options entry

/-- A committed close that goes on undisturbed leaves the value it committed, under `closed/` only. -/
theorem close_alone {closedPath : String}
    {files : RecordFiles Aux} {value readback audit : JsVal} {revision : JsNumber} {idempotent : Bool}
    (fresh : (ChangeCall.close input coordinated).Fresh runtime files.disk.change)
    (committed : (commitChangeProjection runtime (ChangeCall.close input coordinated).commitCall files.disk).1 =
      .ok (.committed value revision readback audit idempotent)) :
    (∃ plan, plannedWrite runtime (ChangeCall.close input coordinated).commitCall files.disk.change = .ok plan ∧
      value = plan.value) ∧ ∃ aux, advChangeClose runtime closedPath input coordinated true .undisturbed files =
      (some (.ok none), ⟨⟨.absent, aux⟩, .text (runtime.stringify value)⟩) := by
  have inside : earlyCheck (ChangeCall.close input coordinated).commitCall files.disk = none ∧
      (ChangeCall.close input coordinated).commitCall.events.lockAcquired = true := by
    by_contra outside
    have refused : endsCommitted (commitChangeProjection runtime _ files.disk).1 = false := commit_outside outside
    rw [committed] at refused
    cases refused
  have locked : commitChangeProjection runtime (ChangeCall.close input coordinated).commitCall files.disk = _ :=
    commit_locked inside.1 inside.2
  rw [locked] at committed
  rcases locked_committed committed with ⟨-, -, plan, planned, rfl, -, -, -, confirmed⟩ | ⟨-, -, -, latest, read, member, replays, -⟩
  · obtain ⟨latest, loads, kept, status⟩ := close_planned planned
    obtain ⟨_, id, named⟩ := load_id loads
    have proven := close_proven closedPath confirmed rfl (kept.trans named)
    refine ⟨⟨plan, planned, rfl⟩,
      ((lockedProgram runtime (ChangeCall.close input coordinated).commitCall).run files.disk).2.aux, ?_⟩
    simp only [advChangeClose, locked, committed, if_true, retire_alone status proven]
  · exact absurd replays (fresh latest read _ member)

end Advance.Storage
