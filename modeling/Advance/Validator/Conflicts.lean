import Advance.JavaScript.Collections
import Advance.Types.Specs

/-! # Conflict detection

The checks a change's deltas pass against the existing specs before it may
proceed.  An issue of severity `error` refuses the change; the others are
warnings.
-/

namespace Advance.Validator

open JavaScript
open Types

/-! ## Issues -/

inductive ValidationSeverity where
  | error
  | warning
  deriving DecidableEq

/-- The codes conflict detection gives. -/
inductive ValidationCode where
  | duplicateRequirementId
  | modifyingMustToMay
  | removingReferencedRequirement
  | orphanedDeltaTarget
  | specNotFound
  | intraDeltaConflict
  | renameTargetNotFound
  | overlappingCapability
  | conflictInventoryBlocked
  | conflictInventoryDegraded
  | conflictInventoryWarning
  deriving DecidableEq

def ValidationCode.text : ValidationCode → String
  | .duplicateRequirementId => "DUPLICATE_REQUIREMENT_ID"
  | .modifyingMustToMay => "MODIFYING_MUST_TO_MAY"
  | .removingReferencedRequirement => "REMOVING_REFERENCED_REQUIREMENT"
  | .orphanedDeltaTarget => "ORPHANED_DELTA_TARGET"
  | .specNotFound => "SPEC_NOT_FOUND"
  | .intraDeltaConflict => "INTRA_DELTA_CONFLICT"
  | .renameTargetNotFound => "RENAME_TARGET_NOT_FOUND"
  | .overlappingCapability => "OVERLAPPING_CAPABILITY"
  | .conflictInventoryBlocked => "CONFLICT_INVENTORY_BLOCKED"
  | .conflictInventoryDegraded => "CONFLICT_INVENTORY_DEGRADED"
  | .conflictInventoryWarning => "CONFLICT_INVENTORY_WARNING"

structure ValidationIssue where
  code : ValidationCode
  severity : ValidationSeverity
  message : String
  path : String
  details : List (String × JsVal)
  deriving DecidableEq

/-! ## Context -/

structure ExistingRequirement where
  id : String
  title : String
  priority : String

structure ExistingSpec where
  name : String
  requirements : List ExistingRequirement

structure ActiveChange where
  id : String
  title : String
  capabilities : List String

structure EpicContext where
  id : String
  title : String
  entry_id : String

structure ConflictInventoryEntry where
  id : String
  title : String
  status : String
  capabilities : Option (List String)
  epic : Option EpicContext
  isArchived : Bool
  isOwnChange : Bool

inductive ConflictInventoryCompleteness where
  | complete
  | degraded
  | blocked
  | nonConclusive
  deriving DecidableEq

def ConflictInventoryCompleteness.text : ConflictInventoryCompleteness → String
  | .complete => "complete"
  | .degraded => "degraded"
  | .blocked => "blocked"
  | .nonConclusive => "non-conclusive"

structure ConflictInventory where
  entries : List ConflictInventoryEntry
  completeness : ConflictInventoryCompleteness
  warnings : List String
  source : String
  canConcludeClean : Option Bool

/-- The maps are lists of their entries in insertion order. -/
structure ValidationContext where
  existingSpecs : List (String × ExistingSpec)
  existingRequirementIds : List String
  requirementReferences : List (String × List String)
  activeChanges : Option (List ActiveChange)
  conflictInventory : Option ConflictInventory

/-- What the checks read of a change. -/
structure Change where
  id : String
  deltas : ChangeDeltas

/-! ### References in a requirement's text -/

/-- How much of `/rq-[a-zA-Z0-9]+/` the text before a character matches. -/
inductive ReferenceScan where
  | idle
  | r
  | rq
  | dash
  | inside (digits : List Char)

def startReference (c : Char) : ReferenceScan := if c = 'r' then .r else .idle

/-- The scan and the matches found, one character on. -/
def scanReference (state : ReferenceScan × List String) (c : Char) : ReferenceScan × List String :=
  match state.1 with
  | .idle => (startReference c, state.2)
  | .r => (if c = 'q' then .rq else startReference c, state.2)
  | .rq => (if c = '-' then .dash else startReference c, state.2)
  | .dash => (if c.isAlphanum then .inside [c] else .idle, state.2)
  | .inside digits =>
    if c.isAlphanum then (.inside (digits ++ [c]), state.2)
    else (.idle, state.2 ++ ["rq-" ++ String.ofList digits])

def extractReferences (text : String) : List String :=
  let (last, found) := text.toList.foldl scanReference (.idle, [])
  let references := match last with
    | .inside digits => found ++ ["rq-" ++ String.ofList digits]
    | .idle | .r | .rq | .dash => found
  distinctOf references

def existingSpecOf (spec : Spec) : ExistingSpec where
  name := spec.name
  requirements := spec.requirements.map fun row => ⟨row.id, row.title, row.priority.text⟩

def buildValidationContext (specs : List Spec) (activeChanges : Option (List ActiveChange))
    (conflictInventory : Option ConflictInventory) : ValidationContext where
  existingSpecs := specs.foldl (fun entries spec => mapSet entries spec.name (existingSpecOf spec)) []
  existingRequirementIds :=
    distinctOf (specs.flatMap fun spec => spec.requirements.map Requirement.id)
  requirementReferences := (specs.flatMap Spec.requirements).foldl (fun entries row =>
    match extractReferences row.body with
    | [] => entries
    | refs => mapSet entries row.id refs) []
  activeChanges := activeChanges
  conflictInventory := conflictInventory

/-! ## Requirement ids -/

def capabilityPath (capability : String) : String := "deltas." ++ capability

def deltaPath (capability : String) (delta : Delta) : String :=
  "deltas." ++ capability ++ "." ++ delta.id

/-- The deltas of a change with their capabilities, in the order the checks walk them. -/
def Change.walk (change : Change) : List (String × Delta) :=
  change.deltas.entries.flatMap fun entry => entry.2.map fun delta => (entry.1, delta)

def findExistingRequirement (context : ValidationContext) (reqId : String) : Option ExistingRequirement :=
  context.existingSpecs.findSome? fun entry => entry.2.requirements.find? fun row => row.id = reqId

def checkAddExists (context : ValidationContext) (capability : String) (delta : DeltaAdd) : List ValidationIssue :=
  let reqId := delta.requirement.id
  if reqId ∈ context.existingRequirementIds then
    let sameIdentity := (findExistingRequirement context reqId).any fun existing =>
      existing.title = delta.requirement.title ∧ existing.priority = delta.requirement.priority.text
    if sameIdentity then []
    else
      [{ code := .duplicateRequirementId, severity := .error
         message := "Requirement ID \"" ++ reqId ++ "\" already exists in specs"
         path := deltaPath capability (.add delta)
         details := [("requirementId", .str reqId)] }]
  else []

def checkAddSeen (seenIds : List String) (capability : String) (delta : DeltaAdd) : List ValidationIssue :=
  let reqId := delta.requirement.id
  if reqId ∈ seenIds then
    [{ code := .duplicateRequirementId, severity := .error
       message := "Requirement ID \"" ++ reqId ++ "\" is used multiple times in this change"
       path := deltaPath capability (.add delta)
       details := [("requirementId", .str reqId)] }]
  else []

def checkRenameExists (context : ValidationContext) (capability : String) (delta : DeltaRename)
    (newId : String) : List ValidationIssue :=
  if newId ≠ delta.target_id ∧ newId ∈ context.existingRequirementIds then
    [{ code := .duplicateRequirementId, severity := .error
       message := "Rename new_id \"" ++ newId ++ "\" already exists in specs"
       path := deltaPath capability (.rename delta)
       details := [("requirementId", .str newId), ("operation", .str "rename")] }]
  else []

def checkRenameSeen (seenIds : List String) (capability : String) (delta : DeltaRename)
    (newId : String) : List ValidationIssue :=
  if newId ∈ seenIds then
    [{ code := .duplicateRequirementId, severity := .error
       message := "Rename new_id \"" ++ newId ++ "\" is used multiple times in this change"
       path := deltaPath capability (.rename delta)
       details := [("requirementId", .str newId), ("operation", .str "rename")] }]
  else []

/-- `delta.new_id` where it counts as true: an empty one does not. -/
def DeltaRename.newId (delta : DeltaRename) : Option String := delta.new_id.filter (· ≠ "")

def checkDuplicateRequirementIdsFrom (context : ValidationContext) :
    List (String × Delta) → List String → List ValidationIssue
  | [], _ => []
  | (capability, .add delta) :: rest, seenIds =>
    checkAddExists context capability delta ++ checkAddSeen seenIds capability delta ++
      checkDuplicateRequirementIdsFrom context rest (delta.requirement.id :: seenIds)
  | (capability, .rename delta) :: rest, seenIds =>
    match DeltaRename.newId delta with
    | some newId =>
      checkRenameExists context capability delta newId ++ checkRenameSeen seenIds capability delta newId ++
        checkDuplicateRequirementIdsFrom context rest (newId :: seenIds)
    | none => checkDuplicateRequirementIdsFrom context rest seenIds
  | (_, .modify _) :: rest, seenIds | (_, .remove _) :: rest, seenIds =>
    checkDuplicateRequirementIdsFrom context rest seenIds

def checkDuplicateRequirementIds (change : Change) (context : ValidationContext) : List ValidationIssue :=
  checkDuplicateRequirementIdsFrom context change.walk []

/-! ## Targets -/

def checkDeltaTarget (context : ValidationContext) (capability : String) (delta : Delta) : List ValidationIssue :=
  match delta.targetId with
  | none => []
  | some targetId =>
    if targetId ∈ context.existingRequirementIds then []
    else
      let details := [("targetId", .str targetId), ("operation", .str delta.operation.text)]
      if delta.operation = .rename then
        [{ code := .renameTargetNotFound, severity := .error
           message := "Rename delta targets non-existent requirement \"" ++ targetId ++ "\""
           path := deltaPath capability delta
           details }]
      else
        [{ code := .orphanedDeltaTarget, severity := .error
           message := "Delta targets non-existent requirement \"" ++ targetId ++ "\""
           path := deltaPath capability delta
           details }]

def checkDeltaTargetsExist (change : Change) (context : ValidationContext) : List ValidationIssue :=
  change.walk.flatMap fun entry => checkDeltaTarget context entry.1 entry.2

def priorityRank (priority : String) : Nat :=
  if priority = "must" then 3 else if priority = "should" then 2 else if priority = "may" then 1
  else 0

def checkPriorityDowngrade (context : ValidationContext) (capability : String) : Delta → List ValidationIssue
  | .modify delta =>
    match delta.changes.priority, mapGet context.existingSpecs capability with
    | some newPriority, some spec =>
      match spec.requirements.find? fun row => row.id = delta.target_id with
      | some existing =>
        if priorityRank newPriority.text < priorityRank existing.priority then
          [{ code := .modifyingMustToMay, severity := .warning
             message := "Downgrading priority of \"" ++ delta.target_id ++ "\" from \"" ++
               existing.priority ++ "\" to \"" ++ newPriority.text ++ "\""
             path := deltaPath capability (.modify delta)
             details := [("targetId", .str delta.target_id), ("oldPriority", .str existing.priority),
               ("newPriority", .str newPriority.text)] }]
        else []
      | none => []
    | _, _ => []
  | .add _ | .remove _ | .rename _ => []

def checkPriorityDowngrades (change : Change) (context : ValidationContext) : List ValidationIssue :=
  change.walk.flatMap fun entry => checkPriorityDowngrade context entry.1 entry.2

def checkRemovalReference (context : ValidationContext) (capability : String) : Delta → List ValidationIssue
  | .remove delta =>
    (context.requirementReferences.filter fun entry => delta.target_id ∈ entry.2).map fun entry =>
      { code := .removingReferencedRequirement, severity := .warning
        message := "Removing requirement \"" ++ delta.target_id ++ "\" which is referenced by \"" ++
          entry.1 ++ "\""
        path := deltaPath capability (.remove delta)
        details := [("targetId", .str delta.target_id), ("referencedBy", .str entry.1)] }
  | .add _ | .modify _ | .rename _ => []

def checkRemovalReferences (change : Change) (context : ValidationContext) : List ValidationIssue :=
  change.walk.flatMap fun entry => checkRemovalReference context entry.1 entry.2

def checkSpecExists (context : ValidationContext) (entry : String × List Delta) : List ValidationIssue :=
  let allAddDeltas := entry.2.all fun delta => delta.operation = .add
  if ¬ allAddDeltas ∧ (mapGet context.existingSpecs entry.1).isNone then
    [{ code := .specNotFound, severity := .error
       message := "Spec \"" ++ entry.1 ++ "\" not found - cannot modify or remove requirements"
       path := capabilityPath entry.1
       details := [("capability", .str entry.1)] }]
  else []

def checkSpecsExist (change : Change) (context : ValidationContext) : List ValidationIssue :=
  change.deltas.entries.flatMap (checkSpecExists context)

/-! ## Other changes -/

def ofStrings (texts : List String) : JsVal := .arr (texts.map .str)

/-- The capabilities of another change this one touches too. -/
def overlap (change : Change) (capabilities : List String) : List String :=
  capabilities.filter fun capability => capability ∈ change.deltas.entries.map Prod.fst

def overlapMessage (title id : String) (overlapping : List String) : String :=
  "Change \"" ++ title ++ "\" (" ++ id ++ ") also modifies: " ++ ", ".intercalate overlapping

def checkActiveChange (change : Change) (other : ActiveChange) : List ValidationIssue :=
  let overlapping := overlap change other.capabilities
  if other.id = change.id ∨ overlapping.length = 0 then []
  else
    [{ code := .overlappingCapability, severity := .warning
       message := overlapMessage other.title other.id overlapping
       path := "deltas"
       details := [("otherChangeId", .str other.id), ("otherChangeTitle", .str other.title),
         ("overlappingCapabilities", ofStrings overlapping)] }]

def checkInventoryEntry (change : Change) (inventory : ConflictInventory)
    (entry : ConflictInventoryEntry) : List ValidationIssue :=
  if entry.isOwnChange ∨ entry.id = change.id ∨ entry.isArchived then []
  else
    match entry.capabilities with
    | none => []
    | some capabilities =>
      let overlapping := overlap change capabilities
      if overlapping.length = 0 then []
      else
        let epic := match entry.epic with
          | some epic => [("epicId", .str epic.id), ("epicTitle", .str epic.title),
              ("epicEntryId", .str epic.entry_id)]
          | none => []
        [{ code := .overlappingCapability, severity := .warning
           message := overlapMessage entry.title entry.id overlapping
           path := "deltas"
           details := [("otherChangeId", .str entry.id), ("otherChangeTitle", .str entry.title),
             ("otherChangeStatus", .str entry.status),
             ("overlappingCapabilities", ofStrings overlapping),
             ("source", .str inventory.source)] ++ epic }]

def inventoryDetails (inventory : ConflictInventory) : List (String × JsVal) :=
  [("completeness", .str inventory.completeness.text), ("source", .str inventory.source),
    ("warnings", ofStrings inventory.warnings)]

/-- What an incomplete inventory says for itself. -/
def checkCompleteness (inventory : ConflictInventory) : List ValidationIssue :=
  let issue (code : ValidationCode) (severity : ValidationSeverity) (reasons otherwise : String)
      (details : List (String × JsVal)) (lead : String) : ValidationIssue :=
    { code, severity, path := "deltas", details := inventoryDetails inventory ++ details
      message := lead ++ (if 0 < inventory.warnings.length then
        reasons ++ "; ".intercalate inventory.warnings else otherwise) }
  match inventory.completeness with
  | .complete => []
  | .blocked => [issue .conflictInventoryBlocked .error "Reasons: "
      "Inventory source unreachable or failed." []
      "Conflict inventory is blocked — no reliable conflict detection possible. "]
  | .degraded => [issue .conflictInventoryDegraded .warning "Reasons: " "Partial data only." []
      "Conflict inventory is degraded — some changes could not be fully hydrated. "]
  | .nonConclusive => [issue .conflictInventoryDegraded .warning "Reasons: "
      "Insufficient data to conclude."
      [("canConcludeClean", .bool (inventory.canConcludeClean.getD false))]
      ("Conflict inventory is non-conclusive — peer capabilities could not be fully established " ++
        "(deadline or truncation). ")]

def checkChangeConflictsFromInventory (change : Change) (inventory : ConflictInventory) : List ValidationIssue :=
  checkCompleteness inventory ++ inventory.warnings.map (fun warning =>
      { code := .conflictInventoryWarning, severity := .warning
        message := "Conflict inventory warning: " ++ warning
        path := "deltas"
        details := [("source", .str inventory.source), ("warning", .str warning)] }) ++
    inventory.entries.flatMap (checkInventoryEntry change inventory)

def checkChangeConflicts (change : Change) (context : ValidationContext) : List ValidationIssue :=
  match context.conflictInventory with
  | some inventory => checkChangeConflictsFromInventory change inventory
  | none => (context.activeChanges.getD []).flatMap (checkActiveChange change)

/-! ## Deltas of one capability -/

structure TargetOp where
  deltaId : String
  operation : DeltaOperation
  deriving DecidableEq

/-- The operations that target a requirement, in author order. -/
def opsOn (deltas : List Delta) (targetId : String) : List TargetOp :=
  (deltas.filter fun delta => delta.targetId = some targetId).map fun delta =>
    ⟨delta.id, delta.operation⟩

/-- The map from each targeted requirement to its operations. -/
def targetOps (deltas : List Delta) : List (String × List TargetOp) :=
  (distinctOf (deltas.filterMap Delta.targetId)).map fun targetId => (targetId, opsOn deltas targetId)

def describeOp (op : TargetOp) : String := op.operation.text ++ " (" ++ op.deltaId ++ ")"

def opDetails (ops : List TargetOp) : JsVal :=
  .arr (ops.map fun op => .obj [("deltaId", .str op.deltaId), ("operation", .str op.operation.text)])

def checkTargetOps (capability : String) (entry : String × List TargetOp) : List ValidationIssue :=
  let renames := entry.2.filter fun op => op.operation = .rename
  let hasRename := entry.2.any fun op => op.operation = .rename
  let hasOther := entry.2.any fun op => op.operation ≠ .rename
  (if hasRename ∧ hasOther then
    [{ code := .intraDeltaConflict, severity := .error
       message := "Conflicting operations on \"" ++ entry.1 ++ "\": " ++
         ", ".intercalate (entry.2.map describeOp)
       path := capabilityPath capability
       details := [("targetId", .str entry.1), ("operations", opDetails entry.2)] }]
  else []) ++
  (if 1 < renames.length then
    [{ code := .intraDeltaConflict, severity := .error
       message := "Multiple renames targeting \"" ++ entry.1 ++ "\": " ++
         ", ".intercalate (renames.map TargetOp.deltaId)
       path := capabilityPath capability
       details := [("targetId", .str entry.1), ("operations", opDetails renames)] }]
  else [])

def renameNewIds (deltas : List Delta) : List (String × String) :=
  deltas.foldl (fun entries delta =>
    match delta with
    | .rename delta =>
      match DeltaRename.newId delta with
      | some newId => mapSet entries newId delta.id
      | none => entries
    | .add _ | .modify _ | .remove _ => entries) []

def addedIds (deltas : List Delta) : List String :=
  deltas.filterMap fun delta =>
    match delta with
    | .add delta => some delta.requirement.id
    | .modify _ | .remove _ | .rename _ => none

def checkNewIds (capability : String) (deltas : List Delta) : List ValidationIssue :=
  ((renameNewIds deltas).filter fun entry => entry.1 ∈ addedIds deltas).map fun entry =>
    { code := .intraDeltaConflict, severity := .error
      message := "Rename delta \"" ++ entry.2 ++ "\" new_id \"" ++ entry.1 ++
        "\" collides with an add delta in the same change"
      path := capabilityPath capability
      details := [("renameDeltaId", .str entry.2), ("collidingId", .str entry.1)] }

def checkIntraDeltaConflicts (change : Change) : List ValidationIssue :=
  change.deltas.entries.flatMap fun entry =>
    (targetOps entry.2).flatMap (checkTargetOps entry.1) ++ checkNewIds entry.1 entry.2

/-! ## All checks -/

def runConflictChecks (change : Change) (context : ValidationContext) : List ValidationIssue :=
  checkDuplicateRequirementIds change context ++ checkDeltaTargetsExist change context ++
    checkIntraDeltaConflicts change ++ checkPriorityDowngrades change context ++
    checkRemovalReferences change context ++ checkSpecsExist change context ++
    checkChangeConflicts change context

/-- No issue refuses the change. -/
def Accepted (issues : List ValidationIssue) : Prop :=
  ∀ issue ∈ issues, issue.severity ≠ .error

instance (issues : List ValidationIssue) : Decidable (Accepted issues) :=
  inferInstanceAs (Decidable (∀ issue ∈ issues, issue.severity ≠ .error))

end Advance.Validator
