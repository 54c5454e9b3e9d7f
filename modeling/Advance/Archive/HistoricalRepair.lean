import Advance.Archive.ProjectionRetry
import Advance.Archive.ArchiveSpecs

/-! # Repairing historical archives

The deltas of old archives are planned again, oldest archive first, each against
the specs the archives before it led to.  An archive that is blocked on one
capability is left out as a whole.
-/

namespace Advance.Archive

open Foundation
open Types

inductive HistoricalArchiveDisposition where
  | complete
  | repaired
  | conflict
  | unreadable
  deriving DecidableEq

structure HistoricalConflictDisposition where
  changeId : String
  deltaId : String
  currentRequirementSha256 : SHA256Digest
  rejectedPostimageSha256 : SHA256Digest
  evidence : String
  deriving DecidableEq

structure HistoricalConflictBinding where
  changeId : String
  deltaId : String
  operation : DeltaOperation
  currentRequirementSha256 : Option SHA256Digest
  rejectedPostimageSha256 : Option SHA256Digest
  deriving DecidableEq

structure HistoricalArchiveRepairRow where
  changeId : String
  archivePath : String
  disposition : HistoricalArchiveDisposition
  details : List String
  conflictBindings : List HistoricalConflictBinding
  appliedConflictDispositions : List HistoricalConflictDisposition
  deriving DecidableEq

structure HistoricalArchiveChange where
  id : String
  created_at : String
  /-- Of `phase9_status`. -/
  completedAt : Option String
  changeTipSha : Option String
  deltas : ChangeDeltas

/-- A directory of the archive, with its change or why it cannot be read. -/
structure LoadedArchive where
  path : String
  archivedAt : String
  changeId : String
  change : Except String HistoricalArchiveChange

structure AffectedCapability where
  capability : String
  version : String
  specSha256 : SHA256Digest
  deriving DecidableEq

structure HistoricalArchiveRepairResult where
  rows : List HistoricalArchiveRepairRow
  affectedCapabilities : List AffectedCapability
  /-- The specs of the worktree once the affected ones are saved. -/
  specs : SpecMap

/-- What the run takes from elsewhere: `gitShow` is the spec of a capability at a ref, where there is one that
    parses. -/
structure RepairSources where
  platform : Platform
  gitShow : String → String → Option Spec

/-- What the checks of the pinned seed throw, before the loop and before the specs are saved. -/
structure SeedChecks where
  atStart : Option String
  beforeWrite : Option String

def dispositionKey (changeId deltaId : String) : String := changeId ++ "\x00" ++ deltaId

def HistoricalConflictDisposition.key (row : HistoricalConflictDisposition) : String :=
  dispositionKey row.changeId row.deltaId

/-- Nonempty text is truthy. -/
def baselineRefs (change : HistoricalArchiveChange) : List String :=
  ((change.changeTipSha.filter (· ≠ "")).toList.flatMap fun tip => [tip ++ "^", tip]) ++
    ["change/" ++ change.id ++ "^", "change/" ++ change.id]

section

variable (sources : RepairSources) (dispositions : List HistoricalConflictDisposition)

def loadBaselineSpec (change : HistoricalArchiveChange) (capability : String) : Option Spec :=
  (baselineRefs change).findSome? fun ref => sources.gitShow ref capability

def projectedAt (change : HistoricalArchiveChange) : String := change.completedAt.getD change.created_at

/-! ## One capability -/

def absentSpec (capability archivedAt : String) : Spec where
  schemaUrl := none
  name := capability
  title := capability
  purpose := "Requirements for " ++ capability
  version := "0.0.0"
  updated_at := archivedAt
  requirements := []
  extension := .empty

def historicalPlan (change : HistoricalArchiveChange) (capability : String) (current : Spec) (deltas : List Delta) :
    SpecProjectionPlan :=
  planSpecProjection sources.platform current deltas (.historical (loadBaselineSpec sources change capability))
    (projectedAt change)

/-- The requirement that stands where an add wants its own, and the one of the add. -/
def conflictingPair (current : Spec) (deltas : List Delta) (deltaId : String) : Option (Requirement × Requirement) :=
  match deltas.find? fun delta => delta.id = deltaId with
  | some (.add delta) => (findRow current.requirements delta.requirement.id).map fun row => (row, delta.requirement)
  | _ => none

def conflictBinding (change : HistoricalArchiveChange) (current : Spec) (deltas : List Delta) (deltaId : String) :
    HistoricalConflictBinding where
  changeId := change.id
  deltaId
  operation := ((deltas.find? fun delta => delta.id = deltaId).map Delta.operation).getD .add
  currentRequirementSha256 :=
    (conflictingPair current deltas deltaId).map fun pair => requirementSha256 sources.platform pair.1
  rejectedPostimageSha256 :=
    (conflictingPair current deltas deltaId).map fun pair => requirementSha256 sources.platform pair.2

/-- The disposition that keeps the current requirement against the add, if it names both exactly. -/
def boundDisposition (change : HistoricalArchiveChange) (current : Spec) (deltas : List Delta) (deltaId : String) :
    Option HistoricalConflictDisposition :=
  let binding := conflictBinding sources change current deltas deltaId
  (dispositions.find? fun row => row.key = dispositionKey change.id deltaId).filter fun row =>
    binding.currentRequirementSha256 = some row.currentRequirementSha256 &&
      binding.rejectedPostimageSha256 = some row.rejectedPostimageSha256

def conflictIds (plan : SpecProjectionPlan) : List String :=
  (plan.dispositions.filter fun row => row.status = .conflicting).map DeltaProjectionDisposition.deltaId

def onlyConflicts (plan : SpecProjectionPlan) : Bool :=
  plan.status = .blocked && conflictIds plan ≠ [] && !plan.dispositions.any fun row => row.status = .unverified

structure CapabilityPlan where
  plan : SpecProjectionPlan
  conflictBindings : List HistoricalConflictBinding
  applied : List HistoricalConflictDisposition

/-- The plan without the adds that are kept out. -/
def remainingPlan (change : HistoricalArchiveChange) (capability : String) (current : Spec) (deltas : List Delta)
    (excludedDeltaIds : List String) : SpecProjectionPlan :=
  let remainingDeltas := deltas.filter fun delta => delta.id ∉ excludedDeltaIds
  if remainingDeltas.length = 0 then
    { status := .safe, capability, baseVersion := current.version, targetVersion := current.version
      dispositions := [], targetSpec := some current }
  else historicalPlan sources change capability current remainingDeltas

def capabilityPlan (change : HistoricalArchiveChange) (capability : String) (current : Spec) (deltas : List Delta) :
    CapabilityPlan :=
  let plan := historicalPlan sources change capability current deltas
  if onlyConflicts plan then
    let ids := conflictIds plan
    { plan :=
        -- One conflict without its disposition, and the plan stays as it is.
        if ids.all fun deltaId => (boundDisposition sources dispositions change current deltas deltaId).isSome then
          remainingPlan sources change capability current deltas ids
        else plan
      conflictBindings := ids.map (conflictBinding sources change current deltas)
      applied := ids.filterMap (boundDisposition sources dispositions change current deltas) }
  else { plan, conflictBindings := [], applied := [] }

/-! ## One archive -/

/-- What the loop over capabilities has come to. -/
structure RepairDraft where
  proposed : SpecMap
  details : List String
  missing : Bool
  archiveAffected : List String
  conflictBindings : List HistoricalConflictBinding
  validatedConflictDispositions : List HistoricalConflictDisposition

def RepairDraft.start (cumulative : SpecMap) : RepairDraft := ⟨cumulative, [], false, [], [], []⟩

def dispositionText (row : DeltaProjectionDisposition) : String :=
  row.deltaId ++ (match row.targetId.filter (· ≠ "") with
    | some targetId => "[" ++ targetId ++ "]"
    | none => "") ++ "=" ++ row.status.text ++
    match row.reason.filter (· ≠ "") with
    | some reason => " (" ++ reason ++ ")"
    | none => ""

def capabilityDetails (capability : String) (planned : CapabilityPlan) : String :=
  capability ++ ": " ++ ", ".intercalate (planned.applied.map (fun row => row.deltaId ++ "=preserved_current") ++
    planned.plan.dispositions.map dispositionText)

def anyMissing (plan : SpecProjectionPlan) : Bool := plan.dispositions.any fun row => row.status = .missing

/-- A capability that is new starts at version 1.0.0. -/
def startVersion (existing : Option Spec) (target : Spec) : Spec :=
  if existing.isNone then { target with version := "1.0.0" } else target

def RepairDraft.record (draft : RepairDraft) (capability : String) (planned : CapabilityPlan) : RepairDraft :=
  { draft with
    details := draft.details ++ [capabilityDetails capability planned]
    conflictBindings := draft.conflictBindings ++ planned.conflictBindings
    validatedConflictDispositions := draft.validatedConflictDispositions ++ planned.applied }

def RepairDraft.accept (draft : RepairDraft) (capability : String) (plan : SpecProjectionPlan) (target : Spec) :
    RepairDraft :=
  { draft with
    proposed := draft.proposed.set target
    missing := draft.missing || anyMissing plan
    archiveAffected := if anyMissing plan then draft.archiveAffected ++ [capability] else draft.archiveAffected }

def repairCapability (archivedAt : String) (change : HistoricalArchiveChange) (entry : String × List Delta)
    (draft : RepairDraft) : Option HistoricalArchiveDisposition × RepairDraft :=
  let existing := draft.proposed.get entry.1
  if existing.isNone && !entry.2.all fun delta => delta.operation = .add then
    (some .unreadable, { draft with details := draft.details ++ [entry.1 ++ ": current spec is absent"] })
  else
    let current := existing.getD (absentSpec entry.1 archivedAt)
    let planned := capabilityPlan sources dispositions change entry.1 current entry.2
    let recorded := draft.record entry.1 planned
    match planned.plan.status, planned.plan.targetSpec with
    | .safe, some target => (none, recorded.accept entry.1 planned.plan (startVersion existing target))
    | _, _ =>
      (some (if planned.plan.dispositions.any fun row => row.status = .conflicting then .conflict else .unreadable),
        recorded)

def repairEntries (archivedAt : String) (change : HistoricalArchiveChange) :
    List (String × List Delta) → RepairDraft → Option HistoricalArchiveDisposition × RepairDraft
  | [], draft => (none, draft)
  | entry :: rest, draft =>
    if entry.2.length = 0 then repairEntries archivedAt change rest draft
    else
      match repairCapability sources dispositions archivedAt change entry draft with
      | (some blocked, draft) => (some blocked, draft)
      | (none, draft) => repairEntries archivedAt change rest draft

/-! ## The run -/

structure RepairState where
  cumulative : SpecMap
  affected : List String
  /-- Keys of the dispositions that some conflict was bound to. -/
  usedDispositions : List String

def RepairState.start (specs : SpecMap) : RepairState := ⟨specs, [], []⟩

def unreadableRow (archive : LoadedArchive) (error : String) : HistoricalArchiveRepairRow where
  changeId := archive.changeId
  archivePath := archive.path
  disposition := .unreadable
  details := ["change.json is unreadable or schema-invalid: " ++ error]
  conflictBindings := []
  appliedConflictDispositions := []

def draftRow (archive : LoadedArchive) (change : HistoricalArchiveChange)
    (blocked : Option HistoricalArchiveDisposition) (draft : RepairDraft) : HistoricalArchiveRepairRow where
  changeId := change.id
  archivePath := archive.path
  disposition := blocked.getD (if draft.missing then .repaired else .complete)
  details := draft.details
  conflictBindings := draft.conflictBindings
  -- Of a blocked archive none is reported as applied.
  appliedConflictDispositions := if blocked.isSome then [] else draft.validatedConflictDispositions

/-- `set.add` of each. -/
def addAll (keys more : List String) : List String :=
  more.foldl (fun keys key => if key ∈ keys then keys else keys ++ [key]) keys

def repairArchive (archive : LoadedArchive) (state : RepairState) : HistoricalArchiveRepairRow × RepairState :=
  match archive.change with
  | .error error => (unreadableRow archive error, state)
  | .ok change =>
    let (blocked, draft) :=
      repairEntries sources dispositions archive.archivedAt change change.deltas.entries (.start state.cumulative)
    let used := addAll state.usedDispositions
      (draft.validatedConflictDispositions.map HistoricalConflictDisposition.key)
    (draftRow archive change blocked draft,
      if blocked.isSome then { state with usedDispositions := used }
      else ⟨draft.proposed, addAll state.affected draft.archiveAffected, used⟩)

def earlier (left right : LoadedArchive) : Prop :=
  (sources.platform.localeCompare left.archivedAt right.archivedAt).then
    (sources.platform.localeCompare left.changeId right.changeId) ≠ .gt

instance : DecidableRel (earlier sources) := fun left right =>
  inferInstanceAs (Decidable ((sources.platform.localeCompare left.archivedAt right.archivedAt).then
    (sources.platform.localeCompare left.changeId right.changeId) ≠ .gt))

def sortArchives (archives : List LoadedArchive) : List LoadedArchive := archives.insertionSort (earlier sources)

def nameBefore (left right : String) : Prop := sources.platform.localeCompare left right ≠ .gt

instance : DecidableRel (nameBefore sources) :=
  fun left right => inferInstanceAs (Decidable (sources.platform.localeCompare left right ≠ .gt))

def saveAffected (cumulative specs : SpecMap) (affected : List String) : SpecMap :=
  (affected.filterMap cumulative.get).foldl SpecMap.set specs

def repairResult (specs : SpecMap) (rows : List HistoricalArchiveRepairRow) (state : RepairState) :
    HistoricalArchiveRepairResult where
  rows
  affectedCapabilities := (state.affected.insertionSort (nameBefore sources)).filterMap fun capability =>
    (state.cumulative.get capability).map fun spec =>
      ⟨capability, spec.version, specSha256 sources.platform spec⟩
  specs := saveAffected state.cumulative specs (state.affected.insertionSort (nameBefore sources))

def unusedError (unused : List HistoricalConflictDisposition) : String :=
  "Historical conflict disposition did not bind an exact conflicting add: " ++
    ", ".intercalate (unused.map fun row => row.changeId ++ "/" ++ row.deltaId)

def unusedDispositions (state : RepairState) : List HistoricalConflictDisposition :=
  dispositions.filter fun row => row.key ∉ state.usedDispositions

def reconcileHistoricalArchiveDeltas (checks : SeedChecks) (archives : List LoadedArchive) (specs : SpecMap) :
    Except String HistoricalArchiveRepairResult :=
  let steps := trace (repairArchive sources dispositions) (sortArchives sources archives) (.start specs)
  let final := stateAfter (repairArchive sources dispositions) (sortArchives sources archives) (.start specs)
  match checks.atStart, checks.beforeWrite with
  | some error, _ => .error error
  | none, beforeWrite =>
    if ¬ (dispositions.map HistoricalConflictDisposition.key).Nodup then
      .error "Historical repair received duplicate conflict disposition for the same change and delta"
    else if 0 < (unusedDispositions dispositions final).length then
      .error (unusedError (unusedDispositions dispositions final))
    else
      match beforeWrite with
      | some error => .error error
      | none => .ok (repairResult sources specs (steps.map Record.response) final)

end

end Advance.Archive
