import Advance.JavaScript.Place
import Advance.Storage.ChangeSummaryShard

/-! # The mutators of the disk store

Every mutator loads the change, decides on a new document and hands it to
`persistChangeProjection`, without the per-change lock and without a new revision.
-/

namespace Advance.Storage

open Advance.JavaScript Advance.JavaScript.JsVal Advance.Types
open Advance.Utils Advance.Foundation

/-! ## Outcomes -/

structure StoreError where
  message : String
  code : Option String
  deriving DecidableEq

def plainError (message : String) : StoreError := ⟨message, none⟩

inductive MutatorOutcome where
  | throws (error : StoreError)
  | returns (result : JsVal)
  | saves (change result : JsVal)

/-- `new Date()` and the state of the id counter at a call. -/
structure Clock where
  isoNow : String
  millis : Nat
  sequence : Nat

def monotonicId (kind : String) (clock : Clock) : String :=
  let millis := clock.millis
  let sequence := clock.sequence
  s!"{kind}-{millis}-{sequence}"

def changeNotFound (changeId : String) : StoreError := plainError s!"Change not found: {changeId}"

def setWhen (condition : Bool) (key : String) (value v : JsVal) : JsVal :=
  if condition then v.set key value else v

/-! ## Tasks -/

structure TaskOptions where
  type : Option String
  sectionName : Option String
  metadata : JsVal
  blockedBy : Option (List String)

def newTask (clock : Clock) (content : String) (options : TaskOptions) : JsVal :=
  .obj <|
    [("id", .str (monotonicId "tk" clock)), ("title", .str content),
     ("type", .str (options.type.getD "code")), ("status", .str "pending"), ("priority", .num 0),
     ("created_at", .str clock.isoNow)] ++
    (match options.sectionName with
     | some name => if name = "" then [] else [("section", .str name)]
     | none => []) ++
    (if options.metadata.isTruthy then [("metadata", options.metadata)] else []) ++
    (match options.blockedBy with
     | some targets =>
       [("deps", .arr (targets.map fun target =>
         .obj [("type", .str "blocked_by"), ("target", .str target)]))]
     | none => [])

def tasksAdd (clock : Clock) (changeId content : String) (options : TaskOptions) : Option JsVal → MutatorOutcome
  | none => .throws (changeNotFound changeId)
  | some change =>
    let task := newTask clock content options
    .saves (change.set "tasks" (.arr ((change.get "tasks").elements ++ [task]))) task

def mutateTask (taskId : String) (mutate : JsVal → JsVal) : Option JsVal → MutatorOutcome
  | none => .returns .null
  | some change =>
    let tasks := (change.get "tasks").elements
    match entryById taskId tasks with
    | none => .returns .null
    | some task => .saves (change.set "tasks" (.arr (updateEntry taskId mutate tasks))) (mutate task)

structure TaskUpdate where
  status : String
  notes : Option String
  implementationSummary : JsVal
  errorRecovery : JsVal
  touchedFiles : JsVal

def TaskUpdate.finishes (update : TaskUpdate) : Bool :=
  update.status = "done" || update.status = "cancelled"

def updatedTask (clock : Clock) (update : TaskUpdate) (task : JsVal) : JsVal :=
  let task := task.set "status" (.str update.status)
  let task := setWhen (update.status = "in_progress" && !(task.get "started_at").isTruthy)
    "started_at" (.str clock.isoNow) task
  let task := setWhen update.finishes "completed_at" (.str clock.isoNow) task
  let task := setWhen (update.finishes && (ofStr update.notes).isTruthy) "completed_by" (ofStr update.notes) task
  let task := setWhen (update.implementationSummary ≠ .undefined)
    "implementation_summary" update.implementationSummary task
  let task := setWhen (update.errorRecovery ≠ .undefined) "error_recovery" update.errorRecovery task
  setWhen (update.touchedFiles ≠ .undefined) "touched_files" update.touchedFiles task

def tasksUpdate (clock : Clock) (taskId : String) (update : TaskUpdate) : Option JsVal → MutatorOutcome :=
  mutateTask taskId (updatedTask clock update)

def cancelledTask (clock : Clock) (cancellation task : JsVal) : JsVal :=
  ((task.set "status" (.str "cancelled")).set "cancellation" cancellation).set "completed_at"
    (.str clock.isoNow)

def tasksCancel (clock : Clock) (taskId : String) (cancellation : JsVal) : Option JsVal → MutatorOutcome :=
  mutateTask taskId (cancelledTask clock cancellation)

/-! ## Wisdom -/

structure WisdomInput where
  type : String
  content : String
  sourceTask : Option String
  origin : List (String × JsVal)

def newWisdom (clock : Clock) (input : WisdomInput) : JsVal :=
  input.origin.foldl (fun entry field => entry.set field.1 field.2) <|
    .obj [("id", .str (monotonicId "ws" clock)), ("type", .str input.type),
      ("content", .str input.content), ("source_task", ofStr input.sourceTask),
      ("recorded_at", .str clock.isoNow)]

def wisdomAdd (runtime : Runtime) (clock : Clock) (changeId : String) (input : WisdomInput) :
    Option JsVal → MutatorOutcome
  | none => .throws (changeNotFound changeId)
  | some change =>
    match runtime.fields.wisdomEntry (newWisdom clock input) with
    | .error issues => .throws (plainError (runtime.zodErrorMessage issues))
    | .ok entry =>
      .saves (change.set "wisdom" (.arr (((change.get "wisdom").orElse (.arr [])).elements ++ [entry]))) entry

/-! ## Spec deltas -/

/-- `/^[a-z][a-z0-9]*(?:-[a-z0-9]+)*$/` -/
def isCapabilityKey (text : String) : Bool :=
  let segments := text.toList.splitOn '-'
  let isLower := fun c : Char => 'a' ≤ c && c ≤ 'z'
  (segments.head?.bind List.head?).any isLower &&
    segments.all fun segment => !segment.isEmpty && segment.all fun c => isLower c || c.isDigit

/-- The first conflict of an entry under any capability. -/
def findDeltaConflict (deltas : JsVal) (conflict : String → JsVal → Option String) : Option String :=
  deltas.spread.findSome? fun (capability, entries) => entries.elements.findSome? (conflict capability)

def deltaId (delta : JsVal) : String := (delta.get "id").textD ""

def duplicateDelta (delta : JsVal) (capability : String) : String :=
  let id := deltaId delta
  s!"Duplicate spec delta id {id} under capability {capability}"

def appendDelta (runtime : Runtime) (changeId capability : String) (delta : JsVal)
    (conflict : String → JsVal → Option String) (loaded : Option JsVal) : MutatorOutcome :=
  if !isCapabilityKey capability then
    let shown := runtime.jsonText (.str capability)
    .throws (plainError s!"Malformed capability key: {shown}")
  else
    match loaded with
    | none => .throws (changeNotFound changeId)
    | some change =>
      let deltas := (change.get "deltas").orElse (.obj [])
      match findDeltaConflict deltas conflict with
      | some message => .throws (plainError message)
      | none =>
        let entries := ((deltas.get capability).orElse (.arr [])).elements
        .saves (change.set "deltas" (deltas.set capability (.arr (entries ++ [delta])))) delta

def specDeltasAdd (runtime : Runtime) (changeId capability : String) (delta : JsVal) :
    Option JsVal → MutatorOutcome :=
  appendDelta runtime changeId capability delta fun existingCapability entry =>
    if entry.get "id" = delta.get "id" then some (duplicateDelta delta existingCapability)
    else if entry.get "operation" = .str "add" then
      if (entry.get "requirement").isNullish then some (cannotRead (entry.get "requirement") "id")
      else if (entry.get "requirement").get "id" = (delta.get "requirement").get "id" then
        let id := ((delta.get "requirement").get "id").textD ""
        some s!"Duplicate requirement id {id} under capability {existingCapability}"
      else none
    else none

def specDeltasRemove (runtime : Runtime) (changeId capability : String) (delta : JsVal) :
    Option JsVal → MutatorOutcome :=
  appendDelta runtime changeId capability delta fun existingCapability entry =>
    if entry.get "id" = delta.get "id" then some (duplicateDelta delta existingCapability)
    else if existingCapability = capability ∧ entry.get "operation" = .str "remove" ∧
        entry.get "target_id" = delta.get "target_id" then
      let target := (delta.get "target_id").textD ""
      some s!"Conflicting remove delta target {target} under capability {capability}"
    else none

/-! ## Gates -/

def completedGate (clock : Clock) (notes : Option String) (gate : JsVal) : JsVal :=
  let done := ((gate.orElse (.obj [("status", .str "pending")])).set "status" (.str "done")).set
    "completed_at" (.str clock.isoNow)
  setWhen (ofStr notes).isTruthy "notes" (ofStr notes) done

def gatesComplete (clock : Clock) (gateId : String) (notes : Option String) : Option JsVal → MutatorOutcome
  | none => .returns .undefined
  | some change =>
    let gates := (change.get "gates").orElse (.obj [])
    .saves (change.set "gates" (gates.set gateId (completedGate clock notes (gates.get gateId)))) .undefined

structure Reopening where
  fromGate : String
  reason : String
  scopeDelta : Option String
  reopenedBy : Option String
  approvalEvidence : Option String

/-- The gate and everything after it. -/
def downstreamGates (gate : String) : List String := GATE_ORDER.dropWhile (· ≠ gate)

def resetGates (names : List String) (gates : JsVal) : JsVal :=
  names.foldl (fun gates name => gates.set name (.obj [("status", .str "pending")])) gates

def reentryEntry (clock : Clock) (reopening : Reopening) : JsVal :=
  .obj [("from_gate", .str reopening.fromGate), ("reason", .str reopening.reason),
    ("scope_delta", ofStr reopening.scopeDelta),
    ("reopened_by", .str (reopening.reopenedBy.getD "agent")),
    ("approval_evidence", ofStr reopening.approvalEvidence), ("reopened_at", .str clock.isoNow),
    ("gates_reset", .arr ((downstreamGates reopening.fromGate).map .str))]

def gatesReopenFrom (clock : Clock) (reopening : Reopening) : Option JsVal → MutatorOutcome
  | none => .returns .undefined
  | some change =>
    let gates := (change.get "gates").orElse (.obj [])
    let targetGate := gates.get reopening.fromGate
    if !targetGate.isTruthy ∨ targetGate.get "status" ≠ .str "done" then
      let gate := reopening.fromGate
      let status := (targetGate.get "status").textD "unset"
      .throws (plainError (s!"Cannot reopen from gate \"{gate}\" — target gate is not completed " ++
        s!"(current status: {status})."))
    else
      let reset := change.set "gates" (resetGates (downstreamGates reopening.fromGate) gates)
      .saves (reset.set "reentry_history"
        (.arr (((change.get "reentry_history").orElse (.arr [])).elements ++ [reentryEntry clock reopening])))
        .undefined

/-! ## Closing and Epic membership -/

def changesClose (changeId : String) (closure : JsVal) : Option JsVal → MutatorOutcome
  | none => .returns .null
  | some change =>
    if change.get "status" = .str "archived" then
      .throws (plainError s!"Cannot close archived change: {changeId}")
    else
      let closed := (change.set "status" (.str "closed")).set "closure" closure
      .saves closed closed

structure EntryRef where
  epicId : String
  entryId : String

structure MembershipInput where
  membership : JsVal
  expectedCurrent : Option EntryRef
  setAt : Option String

def utf16Units (text : String) : List Nat :=
  text.toList.flatMap fun c =>
    if c.toNat < 0x10000 then [c.toNat]
    else [0xD800 + (c.toNat - 0x10000) / 0x400, 0xDC00 + (c.toNat - 0x10000) % 0x400]

/-- `left < right` for strings. -/
def textBefore (left right : String) : Bool := utf16Units left < utf16Units right

def epicMembershipError (message code : String) : StoreError := ⟨message, some code⟩

/-- Another projection than the expected one is there. -/
def membershipConflict (changeId : String) (input : MembershipInput) (current : JsVal) : Option StoreError :=
  match input.expectedCurrent with
  | none => none
  | some expected =>
    if current.isTruthy ∧
        (current.get "epic_id" ≠ .str expected.epicId ∨ current.get "entry_id" ≠ .str expected.entryId) then
      let epic := (current.get "epic_id").textD ""
      let entry := (current.get "entry_id").textD ""
      let expectedEpic := expected.epicId
      let expectedEntry := expected.entryId
      some (epicMembershipError
        (s!"Cannot set Epic membership on {changeId}: current projection is Epic {epic} entry {entry}, " ++
          s!"expected Epic {expectedEpic} entry {expectedEntry}")
        "epic_membership_conflict")
    else none

def membershipStale (changeId : String) (input : MembershipInput) (current : JsVal) : Option StoreError :=
  match input.setAt, current.get "linked_at" with
  | some setAt, .str linkedAt =>
    if setAt ≠ "" ∧ linkedAt ≠ "" ∧ textBefore setAt linkedAt then
      some (epicMembershipError
        (s!"Cannot set Epic membership on {changeId}: write at {setAt} is older than the current " ++
          s!"projection at {linkedAt}")
        "epic_membership_stale_write")
    else none
  | _, _ => none

def setEpicMembership (changeId : String) (input : MembershipInput) : Option JsVal → MutatorOutcome
  | none => .returns .null
  | some change =>
    let current := change.get "epic_membership"
    match (membershipConflict changeId input current).or (membershipStale changeId input current) with
    | some error => .throws error
    | none =>
      let linked := change.set "epic_membership" input.membership
      .saves linked linked

/-! ## A call -/

inductive StoreMutation where
  | tasksAdd (content : String) (options : TaskOptions)
  | tasksUpdate (taskId : String) (update : TaskUpdate)
  | tasksCancel (taskId : String) (cancellation : JsVal)
  | wisdomAdd (input : WisdomInput)
  | specDeltasAdd (capability : String) (delta : JsVal)
  | specDeltasRemove (capability : String) (delta : JsVal)
  | gatesComplete (gateId : String) (notes : Option String)
  | gatesReopenFrom (reopening : Reopening)
  | changesClose (closure : JsVal)
  | setEpicMembership (input : MembershipInput)

def StoreMutation.apply (runtime : Runtime) (clock : Clock) (changeId : String) :
    StoreMutation → Option JsVal → MutatorOutcome
  | tasksAdd content options => Storage.tasksAdd clock changeId content options
  | tasksUpdate taskId update => Storage.tasksUpdate clock taskId update
  | tasksCancel taskId cancellation => Storage.tasksCancel clock taskId cancellation
  | wisdomAdd input => Storage.wisdomAdd runtime clock changeId input
  | specDeltasAdd capability delta => Storage.specDeltasAdd runtime changeId capability delta
  | specDeltasRemove capability delta => Storage.specDeltasRemove runtime changeId capability delta
  | gatesComplete gateId notes => Storage.gatesComplete clock gateId notes
  | gatesReopenFrom reopening => Storage.gatesReopenFrom clock reopening
  | changesClose closure => Storage.changesClose changeId closure
  | setEpicMembership input => Storage.setEpicMembership changeId input

/-- What the environment decides during a call. -/
structure StoreEvents where
  clock : Clock
  loadFault : Option ReadFault
  write : WriteEvent
  summary : SummaryEvents

structure StoreCall where
  paths : SummaryIndexPaths
  changeId : String
  mutation : StoreMutation
  events : StoreEvents

/-- The loaded change, `none` where `!result.success || !result.data`. -/
def StoreCall.load (runtime : Runtime) (call : StoreCall) (file : FileState) : Option JsVal :=
  match loadChange runtime call.paths.changesDir call.changeId file call.events.loadFault with
  | .success data => data
  | .failure _ _ => none

def StoreCall.decide (runtime : Runtime) (call : StoreCall) (file : FileState) : MutatorOutcome :=
  call.mutation.apply runtime call.events.clock call.changeId (call.load runtime file)

/-- Save `change`, when the files that are looked at are those of `changeId`. -/
structure PersistCall where
  paths : SummaryIndexPaths
  changeId : String
  change : JsVal
  operationId : Option String
  write : WriteEvent
  summary : SummaryEvents

def StoreCall.persist (call : StoreCall) (change : JsVal) : PersistCall :=
  ⟨call.paths, call.changeId, change, none, call.events.write, call.events.summary⟩

/-- The write goes to the directory the document names, which is another file when that
    is not the directory it was loaded from. -/
def saveWrite {Aux : Type} (runtime : Runtime) (changeId : String) (change : JsVal) (write : WriteEvent)
    (disk : Disk Aux) : Disk Aux :=
  if change.get "id" = .str changeId then writeChange runtime change write disk else disk

def syntheticIdError (id : String) : StoreError :=
  plainError (s!"Refusing to write change with synthetic-validation-draft ID \"{id}\": " ++
    "matches reserved pattern (changeRoundtrip*, gateParity*, parityLegacy*, " ++
    "latencyLegacy*, etc). These IDs are reserved for ADV's own validation/parity/" ++
    "latency/roundtrip workflows which must use isolated temp storage, not live ADV " ++
    "state. Spec: rq-synthstate01.")

def saveChange (runtime : Runtime) (call : PersistCall) : Program (Disk Files) (Except StoreError Unit) :=
  let id := (call.change.get "id").textD ""
  if isSyntheticValidationDraftPattern id then .finish (.error (syntheticIdError id))
  else
    .act (saveWrite runtime call.changeId call.change call.write) fun _ =>
      match call.write with
      | .replaced => .finish (.ok ())
      | .failed error | .replacedThenFailed error => .finish (.error (plainError error))

def persistChangeProjection (runtime : Runtime) (call : PersistCall) :
    Program (Disk Files) (Except StoreError Unit) :=
  (saveChange runtime call).andThen fun
    | .error error => .finish (.error error)
    | .ok () =>
      ((publishSummaryForChange runtime call.paths call.change call.operationId call.summary).within
        Disk.beside).andThen fun
        | .error error => .finish (.error (plainError error))
        | .ok _ => .finish (.ok ())

def storeProgram (runtime : Runtime) (call : StoreCall) : Program (Disk Files) (Except StoreError JsVal) :=
  .look fun disk =>
    match call.decide runtime disk.change with
    | .throws error => .finish (.error error)
    | .returns result => .finish (.ok result)
    | .saves change result =>
      (persistChangeProjection runtime (call.persist change)).andThen fun
        | .error error => .finish (.error error)
        | .ok () => .finish (.ok result)

end Advance.Storage
