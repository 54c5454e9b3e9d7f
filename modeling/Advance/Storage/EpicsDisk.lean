import Mathlib.Data.List.Sort
import Advance.Foundation.Run
import Advance.JavaScript.Collections
import Advance.Types.Epics

/-! # Epic mutations on disk

Every mutation locks the Epic, reads its stored projection, applies a domain
transition to a copy, checks the schema, writes the copy and reads it back.
-/

namespace Advance.Storage

open Advance.JavaScript Advance.Types

/-! ## Failures -/

inductive EpicErrorCode where
  | epicNotFound
  | staleVersion
  | entryNotFound
  | shellNotFound
  | alreadyPromoted
  | entryAlreadyExists
  | epicNotActive
  | epicIncomplete
  | retargetSourceMismatch
  | retargetDuplicateTarget
  deriving DecidableEq

/-- Why a call threw: a typed error, a `ZodError`, or an error of the disk. -/
inductive EpicFailure where
  | epicError (message : String) (code : EpicErrorCode)
  | schema
  | disk (message : String)
  deriving DecidableEq

/-! ## Entries and progress -/

def entryChangeId : EpicEntry → Option String
  | .change entry => entry.change_id.or (entry.change_ref.map EpicChangeRef.change_id)
  | .shell _ => none

def nextAvailableOrder (entries : List EpicEntry) : JsNumber :=
  if entries.length = 0 then 0 else (entries.map EpicEntry.order).foldl max (-1) + 1

def orderBefore (left right : EpicEntry) : Prop := left.order ≤ right.order

instance : DecidableRel orderBefore :=
  fun left right => inferInstanceAs (Decidable (left.order ≤ right.order))

/-- The entries by id; of two with one id the later counts. -/
def entriesById (entries : List EpicEntry) (entryId : String) : Option EpicEntry :=
  mapGet (fromEntries (entries.map fun entry => (entry.entry_id, entry))) entryId

def shellBlocked (entries : List EpicEntry) (shell : EpicShellEntry) : Bool :=
  shell.blocked_by.any fun prerequisite =>
    match prerequisite with
    | .change _ _ => true
    | .epicEntry _ entryId => !(entriesById entries entryId).any EpicEntry.terminal

def localNextEntryId (entries : List EpicEntry) : Option String :=
  let next := (entries.insertionSort orderBefore).find? fun entry =>
    match entry with
    | .change change => change.terminal_summary.isNone
    | .shell shell => !shellBlocked entries shell
  next.map EpicEntry.entry_id

/-- The times `new Date().toISOString()` gives in the course of a call. -/
structure Stamps where
  entry : String
  version : String
  progress : String

def recomputeProgress (stamps : Stamps) (epic : Epic) : Epic :=
  let completed := (epic.entries.filter EpicEntry.terminal).length
  let active := (epic.entries.filter EpicEntry.inFlight).length
  let isMerged := epic.merged_into.isSome ∨ epic.progress.status = .merged
  let isArchived := epic.progress.status = .archived
  { epic with
    progress :=
      { status :=
          if isMerged then .merged
          else if isArchived then .archived
          else if completed = epic.entries.length ∧ 0 < epic.entries.length then .completed
          else .active
        total_entries := epic.entries.length
        completed_entries := completed
        active_entries := active
        next_entry_id := if isMerged ∨ isArchived then none else localNextEntryId epic.entries
        updated_at := stamps.progress } }

def bumpVersion (stamps : Stamps) (epic : Epic) : Epic :=
  recomputeProgress stamps { epic with version := epic.version + 1, updated_at := stamps.version }

def assertOpenForMutation (epic : Epic) : Except EpicFailure Unit :=
  if epic.progress.status = .archived ∨ epic.progress.status = .merged ∨ epic.merged_into.isSome then
    .error (.epicError ("Epic is not active: " ++ epic.id) .epicNotActive)
  else .ok ()

def entryOrThrow (epic : Epic) (entryId : String) : Except EpicFailure (EpicEntry × Nat) :=
  match epic.entries.zipIdx.find? fun entry => entry.1.entry_id = entryId with
  | some found => .ok found
  | none => .error (.epicError ("Entry not found: " ++ entryId) .entryNotFound)

/-! ## Operations -/

structure AddShellInput where
  entryId : Option String
  title : String
  successHint : String
  order : Option JsNumber
  importedFrom : Option BacklogImport
  blockedBy : Option (List WorkNodeRef)
  context_packet : Option FutureWorkContextPacket

structure LinkChangeInput where
  entryId : Option String
  changeId : String
  title : String
  order : Option JsNumber
  linkedAt : Option String
  membershipStatus : Option EpicMembershipStatus
  terminalSummary : Option TerminalSummary
  linkedBy : Option String
  linkEvidence : Option String
  changeProjectId : Option String
  repoId : Option String
  targetPath : Option String

structure RetargetChangeInput where
  entryId : String
  fromChangeId : String
  toChangeId : String
  title : Option String
  changeRef : Option EpicChangeRef
  membershipStatus : Option EpicMembershipStatus
  retargetedBy : Option String
  retargetEvidence : Option String

inductive EpicRequest where
  | update (title narrative : Option String) (expectedVersion : Option JsNumber)
  | updateScope (epicScope : Option EpicScope) (expectedVersion : Option JsNumber)
  | markMerged (mergedInto : EpicMergedInto) (expectedVersion : Option JsNumber)
  | addShell (input : AddShellInput)
  | promoteShell (entryId changeId promotedBy : String)
  | linkChange (input : LinkChangeInput)
  | retargetChange (input : RetargetChangeInput)
  | unlinkChange (entryId : String)
  | setEntryMembershipStatus (entryId : String) (membershipStatus : EpicMembershipStatus)
  | setEntryTerminalSummary (entryId : String) (summary : TerminalSummary)
  | reorder (entryIds : List String) (expectedVersion : Option JsNumber)

def EpicRequest.expectedVersion : EpicRequest → Option JsNumber
  | .update _ _ expectedVersion | .updateScope _ expectedVersion | .markMerged _ expectedVersion
  | .reorder _ expectedVersion => expectedVersion
  | _ => none

/-- What a call returns. -/
inductive EpicValue where
  | epic (epic : Epic)
  | entry (entry : EpicEntry)
  | promotion (entryId changeId : String)
  | undefined

/-- A transition leaves the copy to be written, or says that nothing changed. -/
inductive MutationResult where
  | changed (value : EpicValue) (candidate : Epic)
  | unchanged (value : EpicValue)

/-- What an operation takes from its surroundings: the times, and the random end of a new id. -/
structure EpicRuntime where
  stamps : Stamps
  idSuffix : String

def nextEntryId (runtime : EpicRuntime) (kind : String) : String := kind ++ "-" ++ runtime.idSuffix

namespace EpicDiskOps

section

variable (runtime : EpicRuntime) (epic : Epic)

def update (title narrative : Option String) : Except EpicFailure MutationResult :=
  let next := bumpVersion runtime.stamps
    { epic with title := title.getD epic.title, narrative := narrative.getD epic.narrative }
  .ok (.changed (.epic next) next)

def updateScope (epicScope : Option EpicScope) : Except EpicFailure MutationResult :=
  let next := bumpVersion runtime.stamps { epic with epic_scope := epicScope }
  .ok (.changed (.epic next) next)

def markMerged (mergedInto : EpicMergedInto) : Except EpicFailure MutationResult :=
  if epic.progress.status = .completed then
    .error (.epicError "Completed Epics cannot be merged as active sources" .epicNotActive)
  else
    let next := bumpVersion runtime.stamps { epic with merged_into := some mergedInto }
    .ok (.changed (.epic next) next)

def addShell (input : AddShellInput) : Except EpicFailure MutationResult :=
  let entryId := input.entryId.getD (nextEntryId runtime "shell")
  if epic.entries.any fun entry => entry.entry_id = entryId then
    .error (.epicError ("Entry already exists: " ++ entryId) .entryAlreadyExists)
  else
    let entry := EpicEntry.shell
      { entry_id := entryId
        order := input.order.getD (nextAvailableOrder epic.entries)
        title := input.title
        success_hint := input.successHint
        blocked_by := input.blockedBy.getD []
        imported_from := input.importedFrom
        context_packet := input.context_packet }
    .ok (.changed (.entry entry) (bumpVersion runtime.stamps { epic with entries := epic.entries ++ [entry] }))

def promotedEntry (shell : EpicShellEntry) (changeId promotedBy : String) : EpicChangeEntry where
  entry_id := shell.entry_id
  order := shell.order
  change_id := some changeId
  change_ref := none
  title := none
  membership_status := none
  linked_at := none
  linked_by := none
  link_evidence := none
  promotion := some
    { shell_entry_id := shell.entry_id
      shell_title := shell.title
      shell_success_hint := shell.success_hint
      promoted_at := runtime.stamps.entry
      promoted_by := promotedBy
      change_id := changeId }
  terminal_summary := none
  retargeted_from_change_id := none
  retargeted_at := none
  retargeted_by := none
  retarget_evidence := none

def promotedFrom (entryId changeId : String) : EpicEntry → Bool
  | .change entry => entry.promotion.any (fun promotion => promotion.shell_entry_id = entryId) &&
      entryChangeId (.change entry) = some changeId
  | .shell _ => false

def promoteShell (entryId changeId promotedBy : String) : Except EpicFailure MutationResult :=
  match epic.entries.zipIdx.find? fun entry => entry.1.entry_id = entryId with
  | none =>
    if epic.entries.any (promotedFrom entryId changeId) then
      .ok (.unchanged (.promotion entryId changeId))
    else .error (.epicError ("Shell entry not found: " ++ entryId) .shellNotFound)
  | some (.change existing, _) =>
    if entryChangeId (.change existing) = some changeId then
      .ok (.unchanged (.promotion entryId changeId))
    else .error (.epicError ("Entry is not a shell: " ++ entryId) .alreadyPromoted)
  | some (.shell existing, index) =>
    let promoted := EpicEntry.change (promotedEntry runtime existing changeId promotedBy)
    .ok (.changed (.promotion entryId changeId)
      (bumpVersion runtime.stamps { epic with entries := epic.entries.set index promoted }))

/-- The project-aware reference of a linked change, for a project that is given. -/
def linkedRef (input : LinkChangeInput) : Option EpicChangeRef :=
  (input.changeProjectId.filter (· ≠ "")).map fun projectId =>
    { change_id := input.changeId
      project_id := projectId
      repo_id := input.repoId.filter (· ≠ "")
      target_path := input.targetPath.filter (· ≠ "") }

def linkedEntry (input : LinkChangeInput) (entryId : String) (entries : List EpicEntry) : EpicChangeEntry where
  entry_id := entryId
  order := input.order.getD (nextAvailableOrder entries)
  change_id := if (linkedRef input).isSome then none else some input.changeId
  change_ref := linkedRef input
  title := some input.title
  membership_status := some (input.membershipStatus.getD
    (if input.terminalSummary.isSome then .terminal else .projectionPending))
  linked_at := some (input.linkedAt.getD runtime.stamps.entry)
  linked_by := some (input.linkedBy.getD "agent")
  link_evidence := input.linkEvidence.filter (· ≠ "")
  promotion := none
  terminal_summary := input.terminalSummary
  retargeted_from_change_id := none
  retargeted_at := none
  retargeted_by := none
  retarget_evidence := none

def linkChange (input : LinkChangeInput) : Except EpicFailure MutationResult :=
  let entryId := input.entryId.getD (nextEntryId runtime "change")
  if epic.entries.any fun entry =>
      entry.entry_id = entryId ∨ entryChangeId entry = some input.changeId then
    .error (.epicError ("Change already linked to Epic: " ++ input.changeId) .entryAlreadyExists)
  else
    let entry := EpicEntry.change (linkedEntry runtime input entryId epic.entries)
    .ok (.changed (.entry entry) (bumpVersion runtime.stamps { epic with entries := epic.entries ++ [entry] }))

/-- The change's new reference: the given one, the entry's own with the new id, or the plain id. -/
def retargetedIds (input : RetargetChangeInput) (entry : EpicChangeEntry) : EpicChangeEntry :=
  match input.changeRef, entry.change_ref with
  | some given, _ =>
    { entry with change_ref := some { given with change_id := input.toChangeId }, change_id := none }
  | none, some held =>
    { entry with change_ref := some { held with change_id := input.toChangeId } }
  | none, none => { entry with change_id := some input.toChangeId }

def retargetedEntry (input : RetargetChangeInput) (entry : EpicChangeEntry) : EpicChangeEntry :=
  let stamped :=
    { retargetedIds input entry with
      title := input.title.or entry.title
      membership_status := input.membershipStatus.or entry.membership_status
      retargeted_from_change_id := some input.fromChangeId
      retargeted_at := some runtime.stamps.entry
      retargeted_by := some (input.retargetedBy.getD "agent")
      retarget_evidence := some (input.retargetEvidence.getD "") }
  if stamped.change_ref.isSome then
    { stamped with
      linked_at := stamped.linked_at.or stamped.retargeted_at
      linked_by := stamped.linked_by.or stamped.retargeted_by
      link_evidence := stamped.link_evidence.or stamped.retarget_evidence
      title := stamped.title.or (some (input.title.getD input.toChangeId))
      membership_status := stamped.membership_status.or (some .projectionPending) }
  else stamped

def retargetChange (input : RetargetChangeInput) : Except EpicFailure MutationResult :=
  match entryOrThrow epic input.entryId with
  | .error failure => .error failure
  | .ok (.shell _, _) =>
    .error (.epicError ("Entry is not a linked change: " ++ input.entryId) .entryNotFound)
  | .ok (.change entry, index) =>
    let currentChangeId := entryChangeId (.change entry)
    if currentChangeId = some input.toChangeId then .ok (.unchanged (.entry (.change entry)))
    else if currentChangeId ≠ some input.fromChangeId then
      .error (.epicError ("Retarget source mismatch: entry " ++ input.entryId ++ " is " ++
        currentChangeId.getD "undefined" ++ ", expected " ++ input.fromChangeId)
        .retargetSourceMismatch)
    else if epic.entries.any fun candidate => candidate.entry_id ≠ input.entryId ∧
        entryChangeId candidate = some input.toChangeId then
      .error (.epicError ("Target change already linked to Epic: " ++ input.toChangeId) .retargetDuplicateTarget)
    else
      let updated := EpicEntry.change (retargetedEntry runtime input entry)
      .ok (.changed (.entry updated)
        (bumpVersion runtime.stamps { epic with entries := epic.entries.set index updated }))

def unlinkChange (entryId : String) : Except EpicFailure MutationResult :=
  match epic.entries.findIdx? fun entry => entry.entry_id = entryId with
  | none => .ok (.unchanged .undefined)
  | some index =>
    .ok (.changed .undefined (bumpVersion runtime.stamps { epic with entries := epic.entries.eraseIdx index }))

def setEntryMembershipStatus (entryId : String) (membershipStatus : EpicMembershipStatus) :
    Except EpicFailure MutationResult :=
  match entryOrThrow epic entryId with
  | .error failure => .error failure
  | .ok (.shell _, _) =>
    .error (.epicError ("Entry is not a change entry: " ++ entryId) .entryNotFound)
  | .ok (.change entry, index) =>
    let updated := EpicEntry.change { entry with membership_status := some membershipStatus }
    .ok (.changed (.entry updated)
      (bumpVersion runtime.stamps { epic with entries := epic.entries.set index updated }))

def setEntryTerminalSummary (entryId : String) (summary : TerminalSummary) : Except EpicFailure MutationResult :=
  match entryOrThrow epic entryId with
  | .error failure => .error failure
  | .ok (.shell _, _) =>
    .error (.epicError ("Entry is not a linked change: " ++ entryId) .entryNotFound)
  | .ok (.change entry, index) =>
    let updated := EpicEntry.change
      { entry with membership_status := some .terminal, terminal_summary := some summary }
    .ok (.changed (.entry updated)
      (bumpVersion runtime.stamps { epic with entries := epic.entries.set index updated }))

/-- `entryIds.map((id, order) => ({ ...byId.get(id), order }))` -/
def reordered (entries : List EpicEntry) (entryIds : List String) : List EpicEntry :=
  entryIds.zipIdx.filterMap fun (id, order) =>
    (entriesById entries id).map (EpicEntry.withOrder order)

def reorder (entryIds : List String) : Except EpicFailure MutationResult :=
  let current := distinctOf (epic.entries.map EpicEntry.entry_id)
  let mismatch := EpicFailure.epicError "Reordered entry IDs do not match current entries" .entryNotFound
  if entryIds.length ≠ epic.entries.length then .error mismatch
  else if current.length ≠ (distinctOf entryIds).length ∨ ¬ ∀ id ∈ entryIds, id ∈ current then
    .error mismatch
  else
    let next := bumpVersion runtime.stamps { epic with entries := reordered epic.entries entryIds }
    .ok (.changed (.epic next) next)

/-- The domain transition a request asks for. -/
def transition : EpicRequest → Except EpicFailure MutationResult
  | .update title narrative _ => update runtime epic title narrative
  | .updateScope epicScope _ => updateScope runtime epic epicScope
  | .markMerged mergedInto _ => markMerged runtime epic mergedInto
  | .addShell input => addShell runtime epic input
  | .promoteShell entryId changeId promotedBy =>
    promoteShell runtime epic entryId changeId promotedBy
  | .linkChange input => linkChange runtime epic input
  | .retargetChange input => retargetChange runtime epic input
  | .unlinkChange entryId => unlinkChange runtime epic entryId
  | .setEntryMembershipStatus entryId membershipStatus =>
    setEntryMembershipStatus runtime epic entryId membershipStatus
  | .setEntryTerminalSummary entryId summary => setEntryTerminalSummary runtime epic entryId summary
  | .reorder entryIds _ => reorder runtime epic entryIds

end

end EpicDiskOps

open EpicDiskOps

/-! ## A call -/

/-- The errors the disk raises in the course of a call: before the Epic was read under its lock,
    while its copy is written, once it is written, and when the lock is released.  A readback that
    is too large to read is one. -/
structure DiskFaults where
  load : Option String
  save : Option String
  readback : Option String
  release : Option String

def noDiskFaults : DiskFaults := ⟨none, none, none, none⟩

structure EpicCall where
  request : EpicRequest
  runtime : EpicRuntime
  numberText : JsNumber → String
  faults : DiskFaults

inductive EpicOutcome where
  | failed (failure : EpicFailure)
  | unchanged (value : EpicValue)
  | changed (value : EpicValue)

def EpicOutcome.isChanged : EpicOutcome → Bool
  | .changed _ => true
  | .failed _ | .unchanged _ => false

/-- `mutateEpic` under the lock: the outcome and the stored Epic afterwards. -/
def mutateLocked (call : EpicCall) (latest : Epic) : EpicOutcome × Epic :=
  if (call.request.expectedVersion.any fun expected => (latest.version : JsNumber) ≠ expected) then
    (.failed (.epicError ("Expected Epic version " ++
      (call.request.expectedVersion.map call.numberText).getD "undefined" ++ ", found " ++
        call.numberText latest.version) .staleVersion), latest)
  else
    match assertOpenForMutation latest with
    | .error failure => (.failed failure, latest)
    | .ok _ =>
      match transition call.runtime latest call.request with
      | .error failure => (.failed failure, latest)
      | .ok (.unchanged value) => (.unchanged value, latest)
      | .ok (.changed value candidate) =>
        if candidate.valid = false then (.failed .schema, latest)
        else
          match call.faults.save with
          | some error => (.failed (.disk error), latest)
          | none =>
            match call.faults.readback with
            | some error => (.failed (.disk error), candidate)
            | none => (.changed value, candidate)

/-- A whole call; the lock is released whatever happened, and an error then replaces the outcome. -/
def mutateEpic (call : EpicCall) (latest : Epic) : EpicOutcome × Epic :=
  match call.faults.load with
  | some error => (.failed (.disk error), latest)
  | none =>
    let served := mutateLocked call latest
    match call.faults.release with
    | some error => (.failed (.disk error), served.2)
    | none => served

/-- The Epic `create` stores. -/
def createdEpic (epicId title narrative : String) (epicScope : Option EpicScope) (now : String) : Epic where
  id := epicId
  title := title
  narrative := narrative
  epic_scope := epicScope
  merged_into := none
  entries := []
  progress :=
    { status := .active
      total_entries := 0
      completed_entries := 0
      active_entries := 0
      next_entry_id := none
      updated_at := now }
  created_at := now
  updated_at := now
  version := 0

end Advance.Storage
