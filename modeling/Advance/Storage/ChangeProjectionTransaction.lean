import Mathlib.Data.List.DropRight
import Advance.Foundation.CriticalSection
import Advance.Storage.ChangeProjectionReader
import Advance.Utils.ToolBudgets

/-! # The conditional change-projection transaction

`commitChangeProjection` as a program under the per-change lock.  Everything the
environment decides during a call (faults, clock, lock) is in its `CallEvents`;
everything the caller supplies is in its options.
-/

namespace Advance.Storage

open Advance.JavaScript Advance.JavaScript.JsVal Advance.Types
open Advance.Utils Advance.Foundation

def PROJECTION_COMMIT_MAX_AUDIT_ENTRIES : Nat := 50

/-! ## Protected collections -/

inductive ProtectedCollectionField where
  | tasks
  | deltas
  | gates
  | documents
  deriving DecidableEq

def ProtectedCollectionField.name : ProtectedCollectionField → String
  | tasks => "tasks"
  | deltas => "deltas"
  | gates => "gates"
  | documents => "documents"

def PROTECTED_COLLECTION_FIELDS : List ProtectedCollectionField :=
  [.tasks, .deltas, .gates, .documents]

def collectionSize : JsVal → Option Nat
  | .arr elements => some elements.length
  | .obj entries => some entries.length
  | _ => none

/-- The error of reading a property of `undefined` or `null`. -/
def cannotRead (v : JsVal) (key : String) : String :=
  let shown := if v = .null then "null" else "undefined"
  s!"Cannot read properties of {shown} (reading '{key}')"

/-- The first protected field whose populated collection the candidate drops,
    with the number of entries it held.  Reading a field of a candidate that is
    `undefined` or `null` throws. -/
def findCollectionWipe (latest candidate : JsVal) (allowEmptied : List ProtectedCollectionField) :
    List ProtectedCollectionField → Except String (Option (ProtectedCollectionField × Nat))
  | [] => .ok none
  | field :: rest =>
    let before := (collectionSize (latest.get field.name)).getD 0
    if field ∈ allowEmptied ∨ before = 0 then
      findCollectionWipe latest candidate allowEmptied rest
    else if candidate.isNullish then .error (cannotRead candidate field.name)
    else if (collectionSize (candidate.get field.name)).getD 0 = 0 then .ok (some (field, before))
    else findCollectionWipe latest candidate allowEmptied rest

/-! ## Options and outcomes -/

inductive ProjectionCommitAuthority where
  | mutation (reason evidence : String)
  | recovery (reason evidence : String)

namespace ProjectionCommitAuthority

def kind : ProjectionCommitAuthority → String
  | mutation _ _ => "mutation"
  | recovery _ _ => "recovery"

def reason : ProjectionCommitAuthority → String
  | mutation reason _ | recovery reason _ => reason

def evidence : ProjectionCommitAuthority → String
  | mutation _ evidence | recovery _ evidence => evidence

end ProjectionCommitAuthority

/-- What `mutateLatest` leaves behind: the entries of the `latest` object it was
    given, which it may have written to, and the value it returns. -/
structure Mutated where
  latestEntries : List (String × JsVal)
  candidate : JsVal

def Mutated.latest (mutated : Mutated) : JsVal := .obj mutated.latestEntries

/-- A mutation that only reads `latest`. -/
def Mutated.returning (latest candidate : JsVal) : Mutated := ⟨latest.spread, candidate⟩

structure ProjectionCommitVerifyContext where
  latest : JsVal
  readback : JsVal
  priorRevision : JsNumber
  newRevision : JsNumber

inductive ProjectionCommitVerifyResult where
  | boolean (ok : Bool)
  | object (ok : Bool) (error : Option String)

def ProjectionCommitVerifyResult.ok : ProjectionCommitVerifyResult → Bool
  | boolean ok | object ok _ => ok

structure ProjectionCommitAfterCommitContext where
  latest : JsVal
  value : JsVal
  readback : JsVal
  audit : JsVal
  priorRevision : JsNumber
  newRevision : JsNumber

inductive ProjectionCommitAfterCommitResult where
  | nothing
  | ok
  | failed (error : Option String)

/-- The options of a commit.  Callbacks may throw; `afterCommit` is a program of its
    own on the files beside the projection, whose state is `Aux`. -/
structure CommitChangeProjectionOptions (Aux : Type) where
  changesDir : String
  changeId : String
  expectedRevision : Option JsNumber
  operationId : Option String
  payloadHash : Option String
  stateRevision : Option JsNumber
  authority : ProjectionCommitAuthority
  mutationKind : String
  mutateLatest : JsVal → Except String Mutated
  normalizeLatestProjection : Option (JsVal → Except String JsVal)
  verify : ProjectionCommitVerifyContext → Except String ProjectionCommitVerifyResult
  allowEmptiedCollections : List ProtectedCollectionField
  afterCommit : Option (ProjectionCommitAfterCommitContext →
    Program Aux (Except String ProjectionCommitAfterCommitResult))
  lockTimeoutMs : Option JsNumber
  payload : Option (List (String × JsVal))

/-- Options with a mutation and nothing else the caller may leave out. -/
def CommitChangeProjectionOptions.applying {Aux : Type} (mutateLatest : JsVal → Except String Mutated) :
    CommitChangeProjectionOptions Aux where
  changesDir := "changes"
  changeId := "addSearch"
  expectedRevision := none
  operationId := none
  payloadHash := none
  stateRevision := none
  authority := .mutation "reason" "evidence"
  mutationKind := "kind"
  mutateLatest := mutateLatest
  normalizeLatestProjection := none
  verify := fun _ => .ok (.boolean true)
  allowEmptiedCollections := []
  afterCommit := none
  lockTimeoutMs := none
  payload := none

def settingField (key : String) (value latest : JsVal) : Except String Mutated :=
  .ok (.returning latest (latest.set key value))

inductive ProjectionCommitOutcome where
  | committed (value : JsVal) (revision : JsNumber) (readback audit : JsVal) (idempotent : Bool)
  | committedUnverified (value : JsVal) (revision : JsNumber) (readback audit : JsVal) (postconditionError : String)
  | staleRevision (expected actual : JsNumber)
  | stateRegression (expected actual : JsNumber)
  | stateRevisionConflict (stateRevision : JsNumber) (reason : String)
  | operationConflict (operationId expectedPayloadHash actualPayloadHash : String)
  | lockTimeout (lockPath : String) (timeoutMs : JsNumber)
  | schemaError (error : String)
  | writeError (error : String)
  | operatorRequired (reason : String)
  deriving DecidableEq

/-- How a call ends: the outcome it returns, or the error its promise rejects with. -/
abbrev CallResult := Except String ProjectionCommitOutcome

/-- A part of a call that may end it. -/
abbrev Stage (α : Type) := Except CallResult α

def returns {α : Type} (outcome : ProjectionCommitOutcome) : Stage α := .error (.ok outcome)

def rejects {α : Type} (error : String) : Stage α := .error (.error error)

/-! ## What the environment decides -/

/-- An atomic write replaces the file, fails before the rename, or fails after it
    (when the directory cannot be synced). -/
inductive WriteEvent where
  | replaced
  | failed (error : String)
  | replacedThenFailed (error : String)
  deriving DecidableEq

structure CallEvents where
  accessible : Bool
  remainingToolBudgetMs : Option JsNumber
  lockAcquired : Bool
  loadFault : Option ReadFault
  rawReadFault : Option ReadFault
  committedAt : String
  write : WriteEvent
  readbackFault : Option ReadFault

def CallEvents.undisturbed (committedAt : String) : CallEvents :=
  { accessible := true, remainingToolBudgetMs := none, lockAcquired := true, loadFault := none,
    rawReadFault := none, committedAt := committedAt, write := .replaced, readbackFault := none }

structure CommitCall (Aux : Type) where
  options : CommitChangeProjectionOptions Aux
  events : CallEvents

/-- The projection file and everything beside it. -/
structure Disk (Aux : Type) where
  change : FileState
  aux : Aux

def Disk.beside {Aux : Type} : Component (Disk Aux) Aux where
  get := Disk.aux
  put aux disk := { disk with aux := aux }
  get_put _ _ := rfl
  put_get _ := rfl
  put_put _ _ _ := rfl

/-- A change that was never committed, and nothing beside it. -/
def freshDisk : Disk Unit := ⟨.ofJson (bareChange "addSearch"), ()⟩

/-! ## Reading the latest projection -/

section

variable {Aux : Type}

inductive LatestRead where
  | latest (change : JsVal)
  | normalize (normalizeLatestProjection : JsVal → Except String JsVal)

def loadLatest (runtime : Runtime) (options : CommitChangeProjectionOptions Aux) (file : FileState)
    (fault : Option ReadFault) : Stage LatestRead :=
  match loadChange runtime options.changesDir options.changeId file fault with
  | .success (some latest) => .ok (.latest latest)
  | .success none =>
    returns (.operatorRequired s!"Cannot commit projection for {options.changeId}: change not found.")
  | .failure error type =>
    if type = .schemaError then
      match options.normalizeLatestProjection with
      | some normalize => .ok (.normalize normalize)
      | none => returns (.schemaError error)
    else
      returns (.operatorRequired s!"Cannot commit projection for {options.changeId}: {error}")

/-- Re-read the document and repair it with the caller's parser; whatever throws
    on the way is a schema error. -/
def normalizeLatest (runtime : Runtime) (options : CommitChangeProjectionOptions Aux)
    (normalize : JsVal → Except String JsVal) (file : FileState) (fault : Option ReadFault) :
    Stage JsVal :=
  match readBoundedProjectionDocument file fault with
  | .ok content =>
    let parsed : Except String JsVal := do
      let normalized ← normalize (← content.json)
      (ChangeSchema runtime.fields normalized).mapError runtime.zodErrorMessage
    match parsed with
    | .ok latest => .ok latest
    | .error error => returns (.schemaError
        s!"Normalized projection for {options.changeId} failed ChangeSchema validation: {error}")
  | refused =>
    let kind := refused.kind
    returns (.schemaError s!"Cannot normalize projection for {options.changeId}: {kind}")

/-! ## Decisions before the write -/

def auditEntries (change : JsVal) : List JsVal := (change.get "projection_commits").elements

/-- The identity that takes part in replay detection; an empty one counts as none. -/
def CommitChangeProjectionOptions.operationKey (options : CommitChangeProjectionOptions Aux) :
    Option String := options.operationId.filter (· ≠ "")

/-- Idempotent replay of an operation the audit trail already holds, or a conflict
    with it. -/
def checkOperation (options : CommitChangeProjectionOptions Aux) (latest : JsVal) : Stage Unit :=
  match options.operationKey with
  | none => .ok ()
  | some operationId =>
    match (auditEntries latest).find? fun entry => entry.get "operation_id" = .str operationId with
    | none => .ok ()
    | some existingAudit =>
      if ofStr options.payloadHash = existingAudit.get "payload_hash" ∧
          ofNum options.stateRevision = existingAudit.get "state_revision" then
        returns (.committed latest ((existingAudit.get "new_revision").numberD 0) latest existingAudit true)
      else
        returns (.operationConflict operationId ((existingAudit.get "payload_hash").textD "")
          (options.payloadHash.getD ""))

def checkExpectedRevision (options : CommitChangeProjectionOptions Aux) (priorRevision : JsNumber) : Stage Unit :=
  match options.expectedRevision with
  | none => .ok ()
  | some expected =>
    if priorRevision ≠ expected then returns (.staleRevision expected priorRevision) else .ok ()

def stateRevisionConflict (options : CommitChangeProjectionOptions Aux) (latest : JsVal)
    (operationId : String) (stateRevision : JsNumber) : Option JsVal :=
  match (auditEntries latest).find? fun entry => entry.get "state_revision" = .num stateRevision with
  | none => none
  | some conflictingAudit =>
    if conflictingAudit.get "operation_id" ≠ .str operationId ∨ (options.payloadHash ≠ none ∧
          conflictingAudit.get "payload_hash" ≠ ofStr options.payloadHash) then
      some conflictingAudit
    else none

/-- The monotonic state revision and its equal-state fence. -/
def checkStateRevision (runtime : Runtime) (options : CommitChangeProjectionOptions Aux)
    (latest : JsVal) : Stage Unit :=
  let storedStateRevision := (latest.get "state_revision").numberD 0
  match options.stateRevision with
  | none => .ok ()
  | some stateRevision =>
    if stateRevision < storedStateRevision then
      returns (.stateRegression storedStateRevision stateRevision)
    else
      match options.operationKey with
      | none => .ok ()
      | some operationId =>
        if stateRevision = storedStateRevision then
          match stateRevisionConflict options latest operationId stateRevision with
          | none => .ok ()
          | some conflictingAudit =>
            let shown := runtime.numberText stateRevision
            let operation := (conflictingAudit.get "operation_id").textD "<unknown>"
            let payload := (conflictingAudit.get "payload_hash").textD "<unknown>"
            returns (.stateRevisionConflict stateRevision
              s!"State revision {shown} was already projected by operation {operation} with payload hash {payload}.")
        else .ok ()

def applyMutation (options : CommitChangeProjectionOptions Aux) (latest : JsVal) : Stage Mutated :=
  match options.mutateLatest latest with
  | .ok mutated => .ok mutated
  | .error error => returns (.operatorRequired s!"Mutation failed for {options.changeId}: {error}")

def checkWipe (options : CommitChangeProjectionOptions Aux) (mutated : Mutated) : Stage Unit :=
  match findCollectionWipe mutated.latest mutated.candidate options.allowEmptiedCollections
      PROTECTED_COLLECTION_FIELDS with
  | .error error => rejects error
  | .ok none => .ok ()
  | .ok (some (field, before)) =>
    let name := field.name
    let noun := if before = 1 then "entry" else "entries"
    returns (.operatorRequired <|
      s!"Refusing to commit {options.mutationKind} for {options.changeId}: it would empty \"{name}\", " ++
        s!"which held {before} {noun}. If clearing it is intended, " ++
        "declare it via allowEmptiedCollections.")

def auditEntry (options : CommitChangeProjectionOptions Aux) (priorRevision : JsNumber)
    (committedAt : String) : JsVal :=
  .obj <|
    [("mutation_kind", .str options.mutationKind),
     ("authority_kind", .str options.authority.kind),
     ("authority_reason", .str options.authority.reason),
     ("authority_evidence", .str options.authority.evidence),
     ("operation_id", ofStr options.operationId),
     ("payload_hash", ofStr options.payloadHash),
     ("state_revision", ofNum options.stateRevision),
     ("prior_revision", .num priorRevision),
     ("new_revision", .num (priorRevision + 1)),
     ("committed_at", .str committedAt)] ++
    (match options.payload with
     | none => []
     | some payload => [("payload", .obj payload)])

/-- The candidate with the new revision, the bounded audit trail and the state
    revision laid over it. -/
def buildValue (options : CommitChangeProjectionOptions Aux) (mutated : Mutated)
    (newRevision : JsNumber) (audit : JsVal) : Stage JsVal :=
  if mutated.candidate.isNullish then rejects (cannotRead mutated.candidate "projection_commits")
  else
    match ((mutated.candidate.get "projection_commits").orElse (.arr [])).iterate with
    | none => rejects "priorCommits is not iterable"
    | some priorCommits =>
      .ok (((mutated.candidate.set "projection_revision" (.num newRevision)).set "projection_commits"
          (.arr ((priorCommits ++ [audit]).rtake PROJECTION_COMMIT_MAX_AUDIT_ENTRIES))).set
        "state_revision" ((ofNum options.stateRevision).orElse (mutated.latest.get "state_revision")))

def checkValueId (value : JsVal) : Stage Unit :=
  match value.get "id" with
  | .str id =>
    if isSyntheticValidationDraftPattern id then
      returns (.operatorRequired s!"Refusing to write change with synthetic-validation-draft ID \"{id}\".")
    else .ok ()
  | .undefined => rejects (cannotRead .undefined "trim")
  | .null => rejects (cannotRead .null "trim")
  | _ => rejects "input.trim is not a function"

/-- What a call is about to write, and the context of its callbacks. -/
structure WritePlan where
  latest : JsVal
  value : JsVal
  audit : JsVal
  priorRevision : JsNumber
  newRevision : JsNumber

def prepareCommit (runtime : Runtime) (options : CommitChangeProjectionOptions Aux)
    (committedAt : String) (latest : JsVal) : Stage WritePlan := do
  let priorRevision := (latest.get "projection_revision").numberD 0
  checkOperation options latest
  checkExpectedRevision options priorRevision
  checkStateRevision runtime options latest
  let newRevision := priorRevision + 1
  let mutated ← applyMutation options latest
  let audit := auditEntry options priorRevision committedAt
  checkWipe options mutated
  let value ← buildValue options mutated newRevision audit
  checkValueId value
  .ok ⟨mutated.latest, value, audit, priorRevision, newRevision⟩

/-! ## Write, readback and postconditions -/

def writeChange (runtime : Runtime) (value : JsVal) (event : WriteEvent) (disk : Disk Aux) : Disk Aux :=
  match event with
  | .failed _ => disk
  | .replaced | .replacedThenFailed _ => { disk with change := .text (runtime.stringify value) }

def unverified {α : Type} (plan : WritePlan) (readback : JsVal) (postconditionError : String) : Stage α :=
  returns (.committedUnverified plan.value plan.newRevision readback plan.audit postconditionError)

def readBack (runtime : Runtime) (options : CommitChangeProjectionOptions Aux) (file : FileState)
    (fault : Option ReadFault) : Stage JsVal :=
  match loadChange runtime options.changesDir options.changeId file fault with
  | .success (some readback) => .ok readback
  | .success none =>
    returns (.operatorRequired s!"Readback returned no data after commit for {options.changeId}.")
  | .failure error type =>
    if type = .schemaError then returns (.schemaError error)
    else returns (.operatorRequired s!"Readback failed after commit for {options.changeId}: {error}")

/-- The readback must carry the revision, operation identity and state revision
    that were committed. -/
def checkReadback (runtime : Runtime) (options : CommitChangeProjectionOptions Aux) (plan : WritePlan)
    (readback : JsVal) : Stage Unit :=
  let readRevision := (readback.get "projection_revision").numberD 0
  let lastEntry := (auditEntries readback).getLast?.getD .undefined
  let readStateRevision := (readback.get "state_revision").numberD 0
  let revisionText := runtime.numberText plan.newRevision
  if readRevision ≠ plan.newRevision then
    let shown := runtime.numberText readRevision
    unverified plan readback s!"Readback revision {shown} does not match committed revision {revisionText}."
  else if options.operationKey ≠ none ∧ (lastEntry.get "operation_id" ≠ ofStr options.operationId ∨
        (options.payloadHash ≠ none ∧ lastEntry.get "payload_hash" ≠ ofStr options.payloadHash) ∨
        (options.stateRevision ≠ none ∧ lastEntry.get "state_revision" ≠ ofNum options.stateRevision)) then
    let operation := options.operationId.getD "undefined"
    let payload := options.payloadHash.getD "undefined"
    let state := (options.stateRevision.map runtime.numberText).getD "undefined"
    unverified plan readback <|
      "Readback audit entry does not prove committed operation identity " ++
        s!"(operationId={operation}, payloadHash={payload}, stateRevision={state})."
  else
    match options.stateRevision with
    | none => .ok ()
    | some stateRevision =>
      if readStateRevision ≠ stateRevision then
        let shown := runtime.numberText readStateRevision
        let expected := runtime.numberText stateRevision
        unverified plan readback
          s!"Readback state_revision {shown} does not match committed state_revision {expected}."
      else .ok ()

def checkPostcondition (options : CommitChangeProjectionOptions Aux) (plan : WritePlan)
    (readback : JsVal) : Stage Unit :=
  match options.verify ⟨plan.latest, readback, plan.priorRevision, plan.newRevision⟩ with
  | .error error => rejects error
  | .ok (.boolean true) | .ok (.object true _) => .ok ()
  | .ok (.boolean false) => unverified plan readback "Mutation-specific postcondition failed."
  | .ok (.object false error) =>
    unverified plan readback (error.getD "Mutation-specific postcondition failed.")

def afterCommitContext (plan : WritePlan) (readback : JsVal) : ProjectionCommitAfterCommitContext :=
  ⟨plan.latest, plan.value, readback, plan.audit, plan.priorRevision, plan.newRevision⟩

def committedResult (plan : WritePlan) (readback : JsVal) : CallResult :=
  .ok (.committed plan.value plan.newRevision readback plan.audit false)

def afterCommitResult (plan : WritePlan) (readback : JsVal)
    (result : Except String ProjectionCommitAfterCommitResult) : CallResult :=
  match result with
  | .error error => .error error
  | .ok .nothing | .ok .ok => committedResult plan readback
  | .ok (.failed error) =>
    .ok (.committedUnverified plan.value plan.newRevision readback plan.audit
      (error.getD "afterCommit failed after committed snapshot."))

/-! ## The program under the lock -/

def Stage.thenRun {α : Type} (stage : Stage α) (next : α → Program (Disk Aux) CallResult) :
    Program (Disk Aux) CallResult :=
  match stage with
  | .error result => .finish result
  | .ok value => next value

/-- The follow-up hook, still under the lock. -/
def afterCommitProgram (call : CommitCall Aux) (plan : WritePlan) (readback : JsVal) :
    Program (Disk Aux) CallResult :=
  match call.options.afterCommit with
  | none => .finish (committedResult plan readback)
  | some afterCommit =>
    ((afterCommit (afterCommitContext plan readback)).within Disk.beside).andThen fun result =>
      .finish (afterCommitResult plan readback result)

def confirmProgram (runtime : Runtime) (call : CommitCall Aux) (plan : WritePlan) : Program (Disk Aux) CallResult :=
  .look fun disk =>
    Stage.thenRun (readBack runtime call.options disk.change call.events.readbackFault) fun readback =>
      Stage.thenRun (checkReadback runtime call.options plan readback) fun _ =>
        Stage.thenRun (checkPostcondition call.options plan readback) fun _ =>
          afterCommitProgram call plan readback

def writeProgram (runtime : Runtime) (call : CommitCall Aux) (plan : WritePlan) : Program (Disk Aux) CallResult :=
  .act (writeChange runtime plan.value call.events.write) fun _ =>
    match call.events.write with
    | .replaced => confirmProgram runtime call plan
    | .failed error | .replacedThenFailed error =>
      let path := changePath call.options.changesDir call.options.changeId
      .finish (.ok (.writeError s!"Failed to write {path}: {error}"))

def commitProgram (runtime : Runtime) (call : CommitCall Aux) (latest : JsVal) : Program (Disk Aux) CallResult :=
  Stage.thenRun (prepareCommit runtime call.options call.events.committedAt latest) (writeProgram runtime call)

def lockedProgram (runtime : Runtime) (call : CommitCall Aux) : Program (Disk Aux) CallResult :=
  .look fun disk =>
    Stage.thenRun (loadLatest runtime call.options disk.change call.events.loadFault) fun
      | .latest latest => commitProgram runtime call latest
      | .normalize normalize => .look fun disk =>
        Stage.thenRun
          (normalizeLatest runtime call.options normalize disk.change call.events.rawReadFault)
          (commitProgram runtime call)

/-! ## A whole call -/

def FileState.isAbsent : FileState → Bool
  | .absent => true
  | _ => false

/-- The checks before the lock is asked for. -/
def earlyCheck (call : CommitCall Aux) (disk : Disk Aux) : Option CallResult :=
  let changeId := call.options.changeId
  if isSyntheticValidationDraftPattern changeId then
    some (.ok (.operatorRequired
      s!"Refusing to commit projection for synthetic-validation-draft changeId \"{changeId}\"."))
  else if disk.change.isAbsent ∨ ¬call.events.accessible then
    some (.ok (.operatorRequired s!"Cannot commit projection for {changeId}: change not found."))
  else none

def lockPath (options : CommitChangeProjectionOptions Aux) : String :=
  changePath options.changesDir options.changeId ++ ".lock"

def lockTimeoutResult (call : CommitCall Aux) : CallResult :=
  .ok (.lockTimeout (lockPath call.options)
    (deriveLockBudgetMs call.options.lockTimeoutMs call.events.remainingToolBudgetMs))

def commitChangeProjection (runtime : Runtime) (call : CommitCall Aux) (disk : Disk Aux) : CallResult × Disk Aux :=
  match earlyCheck call disk with
  | some result => (result, disk)
  | none =>
    if call.events.lockAcquired then (lockedProgram runtime call).run disk
    else (lockTimeoutResult call, disk)

/-- The same call as one of many clients of the per-change lock. -/
def lockClient (runtime : Runtime) (call : CommitCall Aux) : LockClient (Disk Aux) CallResult :=
  ⟨earlyCheck call, lockTimeoutResult call, lockedProgram runtime call⟩

end

end Advance.Storage
