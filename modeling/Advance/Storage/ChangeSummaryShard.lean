import Mathlib.Data.List.Infix
import Advance.Storage.ChangeProjectionTransaction

/-! # Summary shards of a change

A summary commit writes the change projection through `commitChangeProjection`, with
a follow-up hook that publishes an immutable shard and the current pointer under the
same lock.  After the transaction it reads pointer and shard again, without the lock,
and returns what it finds.
-/

namespace Advance.Storage

open Advance.JavaScript Advance.JavaScript.Schema Advance.Types
open Advance.Foundation

/-! ## Schemas -/

def ChangeSummaryShardSchema : Schema :=
  object .strip [("schema_version", literalNum 1), ("id", string), ("title", string),
     ("status", enum ["draft", "archived", "closed"]),
     ("phase", string),
     ("created_at", string),
     ("last_activity_at", string),
     ("task_count", intNonnegative),
     ("completed_tasks", intNonnegative),
     ("state_revision", intNonnegative),
     ("operation_id", string),
     ("projection_revision", intNonnegative),
     ("capabilities", withDefault (.arr []) (array string)),
     ("fast_follow_of", optional FastFollowOfSchema),
     ("epic_membership", optional EpicMembershipSchema)]

def ChangeSummaryPointerSchema : Schema :=
  object .strip [("schema_version", literalNum 1), ("change_id", string), ("state_revision", intNonnegative),
     ("projection_revision", intNonnegative),
     ("operation_id", string),
     ("shard_path", string),
     ("snapshot_path", string),
     ("committed_at", string)]

/-! ## Files -/

/-- The files beside the projection, by path. -/
abbrev Files := String → FileState

def writtenTo (runtime : Runtime) (path : String) (value : JsVal) (files : Files) : Files :=
  Function.update files path (.text (runtime.stringify value))

/-- `atomicWriteFile(path, JSON.stringify(value, null, 2))`. -/
def writeJson (runtime : Runtime) (path : String) (value : JsVal) : WriteEvent → Program Files (Except String Unit)
  | .replaced => .act (writtenTo runtime path value) fun _ => .finish (.ok ())
  | .replacedThenFailed error => .act (writtenTo runtime path value) fun _ => .finish (.error error)
  | .failed error => .finish (.error error)

inductive SummaryJsonRead where
  | ok (data : JsVal)
  | notFound
  | degraded (reason : String)

def ProjectionDocumentReadOutcome.errorText : ProjectionDocumentReadOutcome → String
  | .corrupt error | .unreadable error => error
  | _ => ""

def readBoundedSummaryJson (runtime : Runtime) (schema : Schema) (type id : String) (file : FileState)
    (fault : Option ReadFault) : SummaryJsonRead :=
  match readBoundedProjectionDocument file fault with
  | .ok content =>
    match content.json with
    | .error error => .degraded s!"{type} JSON parse failed for {id}: {error}"
    | .ok parsed =>
      match schema parsed with
      | .ok data => .ok data
      | .error issues =>
        let message := runtime.zodErrorMessage issues
        .degraded s!"{type} schema invalid for {id}: {message}"
  | .notFound => .notFound
  | outcome =>
    let kind := outcome.kind
    let text := outcome.errorText
    .degraded s!"{type} {kind} for {id}: {text}"

/-! ## Paths -/

structure SummaryIndexPaths where
  changesDir : String
  summariesDir : String

/-- `text.includes(part)`. -/
def includes (text part : String) : Bool := decide (part.toList <:+: text.toList)

def assertSafeChangeId (changeId : String) : Except String Unit :=
  if includes changeId "/" || includes changeId "\\" || changeId = ".." ||
      includes changeId "/../" || includes changeId "\\.." then
    .error s!"Unsafe changeId for summary shard paths: {changeId}"
  else .ok ()

structure SummaryPaths where
  changeDir : String
  revDir : String
  pointerPath : String
  snapshotPath : String

def summaryPaths (paths : SummaryIndexPaths) (changeId : String) : Except String SummaryPaths := do
  assertSafeChangeId changeId
  .ok { changeDir := join [paths.summariesDir, changeId]
        revDir := join [paths.summariesDir, changeId, "revisions"]
        pointerPath := join [paths.summariesDir, changeId, "current.json"]
        snapshotPath := changePath paths.changesDir changeId }

def shardPathOf (runtime : Runtime) (summary : SummaryPaths) (projectionRevision : JsNumber) : String :=
  join [summary.revDir, runtime.numberText projectionRevision ++ ".json"]

/-! ## The shard of a change -/

def derivePhase (gates : JsVal) : String :=
  match GATE_ORDER.find? fun gateId => (gates.get gateId).get "status" ≠ .str "done" with
  | some gateId => gateId
  | none => "release"

def countDoneTasks (tasks : List JsVal) : Nat := tasks.countP fun task => task.get "status" = .str "done"

def deriveSummaryShard (change : JsVal) (operationId : String) (projectionRevision : JsNumber) : JsVal :=
  let tasks := (change.get "tasks").elements
  .obj <|
    [("schema_version", .num 1),
     ("id", change.get "id"),
     ("title", change.get "title"),
     ("status", change.get "status"),
     ("phase", .str (derivePhase (change.get "gates"))),
     ("created_at", change.get "created_at"),
     ("last_activity_at", (change.get "lastSignalAt").orElse (change.get "created_at")),
     ("task_count", .num tasks.length),
     ("completed_tasks", .num (countDoneTasks tasks)),
     ("state_revision", (change.get "state_revision").orElse (.num 0)),
     ("operation_id", .str operationId),
     ("projection_revision", .num projectionRevision),
     ("capabilities", .arr ((change.get "deltas").keys.map .str))] ++
    (if (change.get "epic_membership").isTruthy then
      [("epic_membership", change.get "epic_membership")] else []) ++
    (if (change.get "fast_follow_of").isTruthy then
      [("fast_follow_of", change.get "fast_follow_of")] else [])

/-! ## Publication -/

/-- What the environment decides during the summary part of a call. -/
structure SummaryEvents where
  publishedAt : String
  shardWrite : WriteEvent
  pointerWrite : WriteEvent
  pointerReadbackFault : Option ReadFault
  shardReadbackFault : Option ReadFault
  pointerFault : Option ReadFault
  shardFault : Option ReadFault

def SummaryEvents.undisturbed (publishedAt : String) : SummaryEvents :=
  { publishedAt := publishedAt, shardWrite := .replaced, pointerWrite := .replaced,
    pointerReadbackFault := none, shardReadbackFault := none, pointerFault := none, shardFault := none }

def summaryPointer (runtime : Runtime) (summary : SummaryPaths) (shard : JsVal) (changeId : JsVal)
    (projectionRevision : JsNumber) (operationId committedAt : String) : JsVal :=
  .obj [("schema_version", .num 1), ("change_id", changeId), ("state_revision", shard.get "state_revision"),
     ("projection_revision", .num projectionRevision),
     ("operation_id", .str operationId),
     ("shard_path", .str (shardPathOf runtime summary projectionRevision)),
     ("snapshot_path", .str summary.snapshotPath),
     ("committed_at", .str committedAt)]

/-- The last recorded operation of a change, for publications without one. -/
def lastOperationId (change : JsVal) : String :=
  match (change.get "projection_commits").elements.getLast? with
  | some entry => (entry.get "operation_id").textD "rebuild"
  | none => "rebuild"

def publishSummaryForChange (runtime : Runtime) (paths : SummaryIndexPaths) (change : JsVal)
    (operationId : Option String) (events : SummaryEvents) :
    Program Files (Except String (JsVal × JsVal)) :=
  match summaryPaths paths ((change.get "id").textD "") with
  | .error error => .finish (.error error)
  | .ok summary =>
    let projectionRevision := (change.get "projection_revision").numberD 0
    let resolvedOperationId := operationId.getD (lastOperationId change)
    let shard := deriveSummaryShard change resolvedOperationId projectionRevision
    let pointer := summaryPointer runtime summary shard (change.get "id") projectionRevision
      resolvedOperationId events.publishedAt
    (writeJson runtime (shardPathOf runtime summary projectionRevision) shard events.shardWrite).andThen fun
      | .error error => .finish (.error error)
      | .ok () =>
        (writeJson runtime summary.pointerPath pointer events.pointerWrite).andThen fun
          | .error error => .finish (.error error)
          | .ok () => .finish (.ok (shard, pointer))

/-! ## The wrapper -/

structure CommitChangeSummaryOptions where
  paths : SummaryIndexPaths
  changeId : String
  expectedRevision : Option JsNumber
  operationId : String
  payloadHash : String
  stateRevision : Option JsNumber
  authority : ProjectionCommitAuthority
  mutationKind : String
  mutateLatest : JsVal → Except String Mutated
  normalizeLatestProjection : Option (JsVal → Except String JsVal)
  verify : ProjectionCommitVerifyContext → Except String ProjectionCommitVerifyResult
  allowEmptiedCollections : List ProtectedCollectionField
  lockTimeoutMs : Option JsNumber
  payload : Option (List (String × JsVal))

/-- Options with an operation, a mutation and nothing else the caller may leave out. -/
def CommitChangeSummaryOptions.applying (operationId : String)
    (mutateLatest : JsVal → Except String Mutated) : CommitChangeSummaryOptions where
  paths := ⟨"changes", "summaries"⟩
  changeId := "addSearch"
  expectedRevision := none
  operationId := operationId
  payloadHash := "hash"
  stateRevision := none
  authority := .mutation "reason" "evidence"
  mutationKind := "kind"
  mutateLatest := mutateLatest
  normalizeLatestProjection := none
  verify := fun _ => .ok (.boolean true)
  allowEmptiedCollections := []
  lockTimeoutMs := none
  payload := none

/-- A change that was never committed, and no summary of it. -/
def freshSummaryDisk : Disk Files := ⟨.ofJson (bareChange "addSearch"), fun _ => .absent⟩

def freshSummaryPaths : SummaryPaths where
  changeDir := "summaries/addSearch"
  revDir := "summaries/addSearch/revisions"
  pointerPath := "summaries/addSearch/current.json"
  snapshotPath := "changes/addSearch/change.json"

structure SummaryCall where
  options : CommitChangeSummaryOptions
  events : CallEvents
  summaryEvents : SummaryEvents

/-- The readback of the pointer proves this publication. -/
def pointerMatches (summary : SummaryPaths) (operationId : String) (projectionRevision : JsNumber)
    (shard pointer readbackPointer : JsVal) : Bool :=
  readbackPointer.get "state_revision" = shard.get "state_revision" ∧
    readbackPointer.get "projection_revision" = .num projectionRevision ∧
    readbackPointer.get "operation_id" = .str operationId ∧
    readbackPointer.get "shard_path" = pointer.get "shard_path" ∧
    readbackPointer.get "snapshot_path" = .str summary.snapshotPath

/-- The readback of the shard proves this publication. -/
def shardMatches (changeId operationId : String) (projectionRevision : JsNumber)
    (shard readbackShard : JsVal) : Bool :=
  readbackShard.get "state_revision" = shard.get "state_revision" ∧
    readbackShard.get "projection_revision" = .num projectionRevision ∧
    readbackShard.get "operation_id" = .str operationId ∧
    readbackShard.get "id" = .str changeId

/-- Read the published pointer and shard back and compare them with the publication. -/
def provePublication (runtime : Runtime) (call : SummaryCall) (summary : SummaryPaths)
    (projectionRevision : JsNumber) (shard pointer : JsVal) :
    Program Files (Except String ProjectionCommitAfterCommitResult) :=
  let operationId := call.options.operationId
  let failed := fun error => .finish (.ok (.failed (some error)))
  .look fun files =>
    match readBoundedSummaryJson runtime ChangeSummaryPointerSchema "summary pointer readback"
        call.options.changeId (files summary.pointerPath) call.summaryEvents.pointerReadbackFault with
    | .notFound => failed "pointer readback missing after commit"
    | .degraded reason => failed s!"pointer readback failed: {reason}"
    | .ok readbackPointer =>
      if !pointerMatches summary operationId projectionRevision shard pointer readbackPointer then
        failed "pointer readback does not match commit"
      else
        .look fun files =>
          match readBoundedSummaryJson runtime ChangeSummaryShardSchema "summary shard readback"
              call.options.changeId (files ((pointer.get "shard_path").textD ""))
              call.summaryEvents.shardReadbackFault with
          | .notFound => failed "shard readback missing after commit"
          | .degraded reason => failed s!"shard readback failed: {reason}"
          | .ok readbackShard =>
            if !shardMatches call.options.changeId operationId projectionRevision shard readbackShard then
              failed "shard readback does not match commit"
            else .finish (.ok .ok)

def summaryAfterCommit (runtime : Runtime) (call : SummaryCall) (summary : SummaryPaths)
    (context : ProjectionCommitAfterCommitContext) :
    Program Files (Except String ProjectionCommitAfterCommitResult) :=
  let projectionRevision := (context.readback.get "projection_revision").numberD 0
  (publishSummaryForChange runtime call.options.paths context.readback (some call.options.operationId)
      call.summaryEvents).andThen fun
    | .error error => .finish (.error error)
    | .ok (shard, pointer) => provePublication runtime call summary projectionRevision shard pointer

/-- The option record the wrapper builds for the transaction. -/
def SummaryCall.baseOptions (runtime : Runtime) (call : SummaryCall) (summary : SummaryPaths) :
    CommitChangeProjectionOptions Files where
  changesDir := call.options.paths.changesDir
  changeId := call.options.changeId
  expectedRevision := call.options.expectedRevision
  operationId := some call.options.operationId
  payloadHash := some call.options.payloadHash
  stateRevision := call.options.stateRevision
  authority := call.options.authority
  mutationKind := call.options.mutationKind
  mutateLatest := call.options.mutateLatest
  normalizeLatestProjection := call.options.normalizeLatestProjection
  verify := call.options.verify
  -- the source's record has neither of the next two keys, nor `payload`
  allowEmptiedCollections := []
  afterCommit := some (summaryAfterCommit runtime call summary)
  lockTimeoutMs := call.options.lockTimeoutMs
  payload := none

def SummaryCall.commitCall (runtime : Runtime) (call : SummaryCall) (summary : SummaryPaths) : CommitCall Files :=
  ⟨call.baseOptions runtime summary, call.events⟩

inductive SummaryOutcomeKind where
  | committed
  | idempotent
  | conflict
  | error
  deriving DecidableEq

structure CommitChangeSummaryOutcome where
  kind : SummaryOutcomeKind
  snapshotRevision : Option JsNumber := none
  value : Option JsVal := none
  revision : Option JsNumber := none
  audit : Option JsVal := none
  shard : Option JsVal := none
  pointer : Option JsVal := none
  error : Option String := none

/-- The refusals of a transaction as the objects they are. -/
def refusalJson : ProjectionCommitOutcome → JsVal
  | .staleRevision expected actual =>
    .obj [("kind", .str "stale_revision"), ("expected", .num expected), ("actual", .num actual)]
  | .stateRegression expected actual =>
    .obj [("kind", .str "state_regression"), ("expected", .num expected), ("actual", .num actual)]
  | .stateRevisionConflict stateRevision reason =>
    .obj [("kind", .str "state_revision_conflict"), ("stateRevision", .num stateRevision), ("reason", .str reason)]
  | .operationConflict operationId expectedPayloadHash actualPayloadHash =>
    .obj [("kind", .str "operation_conflict"), ("operationId", .str operationId),
      ("expectedPayloadHash", .str expectedPayloadHash), ("actualPayloadHash", .str actualPayloadHash)]
  | .lockTimeout lockPath timeoutMs =>
    .obj [("kind", .str "lock_timeout"), ("lockPath", .str lockPath), ("timeoutMs", .num timeoutMs)]
  | .schemaError error => .obj [("kind", .str "schema_error"), ("error", .str error)]
  | .writeError error => .obj [("kind", .str "write_error"), ("error", .str error)]
  | .operatorRequired reason => .obj [("kind", .str "operator_required"), ("reason", .str reason)]
  | .committed _ _ _ _ _ | .committedUnverified _ _ _ _ _ => .undefined

def summaryError (error : String) : CommitChangeSummaryOutcome := { kind := .error, error := some error }

def summaryConflict (runtime : Runtime) (outcome : ProjectionCommitOutcome) : CommitChangeSummaryOutcome :=
  let kind := ((refusalJson outcome).get "kind").textD ""
  let text := runtime.jsonText (refusalJson outcome)
  { kind := .conflict, error := some s!"{kind}: {text}" }

/-- What the wrapper returns for an outcome of its transaction.  It reads pointer and
    shard without the lock, so each as the files are when it gets to it. -/
def reportSummary (runtime : Runtime) (call : SummaryCall) (summary : SummaryPaths)
    (outcome : ProjectionCommitOutcome) (atPointerRead atShardRead : Files) :
    CommitChangeSummaryOutcome :=
  let changeId := call.options.changeId
  match outcome with
  | .committed value revision _ audit idempotent =>
    match readBoundedSummaryJson runtime ChangeSummaryPointerSchema "summary pointer" changeId
        (atPointerRead summary.pointerPath) call.summaryEvents.pointerFault with
    | .notFound => summaryError "Snapshot committed but summary pointer is missing"
    | .degraded reason => summaryError s!"Snapshot committed but summary pointer unreadable: {reason}"
    | .ok pointer =>
      match readBoundedSummaryJson runtime ChangeSummaryShardSchema "summary shard" changeId
          (atShardRead ((pointer.get "shard_path").textD "")) call.summaryEvents.shardFault with
      | .notFound => summaryError "Snapshot committed but summary shard is missing"
      | .degraded reason => summaryError s!"Snapshot committed but summary shard unreadable: {reason}"
      | .ok shard =>
        { kind := if idempotent then .idempotent else .committed
          snapshotRevision := some revision
          value := some value
          revision := some revision
          audit := some audit
          shard := some shard
          pointer := some pointer }
  | .committedUnverified value revision _ audit postconditionError =>
    { kind := .error
      value := some value
      revision := some revision
      audit := some audit
      error := some s!"Snapshot committed but summary shard/pointer unverified: {postconditionError}" }
  | .staleRevision _ _ | .stateRegression _ _ | .stateRevisionConflict _ _ | .operationConflict _ _ _ =>
    summaryConflict runtime outcome
  | .lockTimeout _ _ | .schemaError _ | .writeError _ | .operatorRequired _ =>
    summaryError (runtime.jsonText (refusalJson outcome))

/-- One summary commit, with nobody else at the change meanwhile. -/
def commitChangeProjectionWithSummary (runtime : Runtime) (call : SummaryCall) (disk : Disk Files) :
    Except String CommitChangeSummaryOutcome × Disk Files :=
  match summaryPaths call.options.paths call.options.changeId with
  | .error error => (.error error, disk)
  | .ok summary =>
    match commitChangeProjection runtime (call.commitCall runtime summary) disk with
    | (.error error, disk) => (.error error, disk)
    | (.ok outcome, disk) => (.ok (reportSummary runtime call summary outcome disk.aux disk.aux), disk)

end Advance.Storage
