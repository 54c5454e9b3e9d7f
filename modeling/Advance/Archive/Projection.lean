import Advance.Foundation.Run
import Advance.JavaScript.Canonical
import Advance.Types.Specs

/-! # Projecting deltas onto a spec

The plan an archive makes for one capability: the deltas, sorted by operation,
are applied to a copy of the spec, and each is reported as missing (applied
now), identical (there already), conflicting or unverified.
-/

namespace Advance.Archive

open Foundation
open JavaScript
open Types

/-- `Number(text)`, its `NaN` test, its successor and how it prints. -/
structure Numerals where
  Value : Type
  number : String → Value
  isNaN : Value → Bool
  plusOne : Value → Value
  text : Value → String

/-- What the archive takes from the language and from the hash library; `isoDay` is the day
    `new Date(text).toISOString()` starts with, nothing for an invalid date. -/
structure Platform where
  localeCompare : String → String → Ordering
  sha256 : JsVal → SHA256Digest
  numerals : Numerals
  toUpperCase : String → String
  isoDay : String → Option String

inductive DispositionStatus where
  | missing
  | identical
  | conflicting
  | unverified
  deriving DecidableEq

def DispositionStatus.text : DispositionStatus → String
  | .missing => "missing"
  | .identical => "identical"
  | .conflicting => "conflicting"
  | .unverified => "unverified"

/-- How the projection disposed of one delta. -/
structure DeltaProjectionDisposition where
  deltaId : String
  operation : DeltaOperation
  status : DispositionStatus
  targetId : Option String
  reason : Option String
  deriving DecidableEq

def DeltaProjectionDisposition.blocked (row : DeltaProjectionDisposition) : Bool :=
  row.status = .conflicting ∨ row.status = .unverified

/-- Whose word the planner takes for a requirement's state before the change. -/
inductive ProjectionAuthority where
  | current
  | historical (baselineSpec : Option Spec)

inductive PlanStatus where
  | safe
  | blocked
  deriving DecidableEq

structure SpecProjectionPlan where
  status : PlanStatus
  capability : String
  baseVersion : String
  targetVersion : String
  dispositions : List DeltaProjectionDisposition
  targetSpec : Option Spec

section

variable (platform : Platform)

def canonicalSha256 (value : JsVal) : SHA256Digest :=
  platform.sha256 (canonicalBytes platform.localeCompare value)

def requirementSha256 (requirement : Requirement) : SHA256Digest :=
  canonicalSha256 platform requirement.toJs

def specSha256 (spec : Spec) : SHA256Digest := canonicalSha256 platform spec.toJs

/-! ## Sorting -/

def deltaOrder : DeltaOperation → Nat
  | .rename => 0
  | .remove => 1
  | .modify => 2
  | .add => 3

def ordered (left right : Delta) : Prop := deltaOrder left.operation ≤ deltaOrder right.operation

instance : DecidableRel ordered :=
  fun left right => inferInstanceAs (Decidable (deltaOrder left.operation ≤ deltaOrder right.operation))

def sortDeltas (deltas : List Delta) : List Delta := deltas.insertionSort ordered

/-! ## Comparing -/

def sameValue (left right : JsVal) : Bool :=
  canonicalBytes platform.localeCompare left = canonicalBytes platform.localeCompare right

def changedFieldsMatch (requirement : Requirement) (changes : DeltaModifyChanges) : Bool :=
  changes.entries.all fun entry => sameValue platform (requirement.field entry.1) entry.2

def baselineRequirement (authority : ProjectionAuthority) (targetId : String) : Option Requirement :=
  match authority with
  | .current => none
  | .historical baselineSpec =>
    baselineSpec.bind fun spec => spec.requirements.find? fun row => row.id = targetId

def hasPreimageAuthority (authority : ProjectionAuthority)
    (precondition : Option DeltaPrecondition) (targetId : String) (current : Requirement) : Bool :=
  match authority with
  | .current => true
  | .historical _ =>
    let expectedDigest := (precondition.map DeltaPrecondition.target_requirement_sha256).or
      ((baselineRequirement authority targetId).map (requirementSha256 platform))
    expectedDigest = some (requirementSha256 platform current)

def blockedStatus (authorityPresent : Bool) : DispositionStatus :=
  if authorityPresent then .conflicting else .unverified

def hasAuthoritySource (authority : ProjectionAuthority)
    (precondition : Option DeltaPrecondition) (targetId : String) : Bool :=
  match authority with
  | .current => true
  | .historical _ => precondition.isSome || (baselineRequirement authority targetId).isSome

def bumpProjectionVersion (version : String) (missing : List DeltaProjectionDisposition) : String :=
  if missing.length = 0 then version
  else
    match (version.splitOn ".").map platform.numerals.number with
    | [major, minor, patch] =>
      if [major, minor, patch].any platform.numerals.isNaN then version ++ "-updated"
      else if missing.any fun row => row.operation = .add then
        platform.numerals.text major ++ "." ++ platform.numerals.text (platform.numerals.plusOne minor) ++ ".0"
      else
        platform.numerals.text major ++ "." ++ platform.numerals.text minor ++ "." ++
          platform.numerals.text (platform.numerals.plusOne patch)
    | _ => version ++ "-updated"

/-! ## The loop body -/

def findRow (rows : List Requirement) (id : String) : Option Requirement :=
  rows.find? fun row => row.id = id

/-- Assign to the requirement `find` returned: the first with the id. -/
def updateRow (id : String) (assign : Requirement → Requirement) : List Requirement → List Requirement
  | [] => []
  | row :: rest => if row.id = id then assign row :: rest else row :: updateRow id assign rest

def DeltaRename.resultId (delta : DeltaRename) : String := delta.new_id.getD delta.target_id

def renameRow (delta : DeltaRename) (row : Requirement) : Requirement :=
  { row with title := delta.new_title, id := DeltaRename.resultId delta }

def planAdd (delta : DeltaAdd) (rows : List Requirement) : DeltaProjectionDisposition × List Requirement :=
  let targetId := some delta.requirement.id
  match findRow rows delta.requirement.id with
  | some existing =>
    if sameValue platform existing.toJs delta.requirement.toJs then
      (⟨delta.id, .add, .identical, targetId, none⟩, rows)
    else
      (⟨delta.id, .add, .conflicting, targetId,
        some "same requirement id has different normalized content"⟩, rows)
  | none => (⟨delta.id, .add, .missing, targetId, none⟩, rows ++ [delta.requirement])

def planModify (authority : ProjectionAuthority) (delta : DeltaModify) (rows : List Requirement) :
    DeltaProjectionDisposition × List Requirement :=
  let targetId := some delta.target_id
  match findRow rows delta.target_id with
  | none => (⟨delta.id, .modify, .conflicting, targetId, some "modify target is absent"⟩, rows)
  | some current =>
    if changedFieldsMatch platform current delta.changes then
      (⟨delta.id, .modify, .identical, targetId, none⟩, rows)
    else if hasPreimageAuthority platform authority delta.precondition delta.target_id current then
      (⟨delta.id, .modify, .missing, targetId, none⟩,
        updateRow delta.target_id (·.assign delta.changes) rows)
    else
      (⟨delta.id, .modify,
        blockedStatus (hasAuthoritySource authority delta.precondition delta.target_id), targetId,
        some "current requirement does not match an authoritative preimage"⟩, rows)

def planRemove (authority : ProjectionAuthority) (delta : DeltaRemove) (rows : List Requirement) :
    DeltaProjectionDisposition × List Requirement :=
  let targetId := some delta.target_id
  match findRow rows delta.target_id with
  | none => (⟨delta.id, .remove, .identical, targetId, none⟩, rows)
  | some current =>
    if hasPreimageAuthority platform authority delta.precondition delta.target_id current then
      (⟨delta.id, .remove, .missing, targetId, none⟩,
        rows.filter fun row => row.id ≠ delta.target_id)
    else
      (⟨delta.id, .remove,
        blockedStatus (hasAuthoritySource authority delta.precondition delta.target_id), targetId,
        some "remove target does not match an authoritative preimage"⟩, rows)

def planRename (authority : ProjectionAuthority) (delta : DeltaRename) (rows : List Requirement) :
    DeltaProjectionDisposition × List Requirement :=
  let resultId := DeltaRename.resultId delta
  let targetId := some delta.target_id
  match findRow rows delta.target_id with
  | none =>
    if (findRow rows resultId).map Requirement.title = some delta.new_title then
      (⟨delta.id, .rename, .identical, targetId, none⟩, rows)
    else
      (⟨delta.id, .rename, .conflicting, targetId,
        some "rename source is absent and expected postimage is missing"⟩, rows)
  | some current =>
    if resultId = delta.target_id ∧ current.title = delta.new_title then
      (⟨delta.id, .rename, .identical, targetId, none⟩, rows)
    else if resultId ≠ delta.target_id ∧ (rows.any fun row => row.id = resultId) then
      (⟨delta.id, .rename, .conflicting, targetId,
        some "rename destination id already exists"⟩, rows)
    else if hasPreimageAuthority platform authority delta.precondition delta.target_id current then
      (⟨delta.id, .rename, .missing, targetId, none⟩,
        updateRow delta.target_id (renameRow delta) rows)
    else
      (⟨delta.id, .rename,
        blockedStatus (hasAuthoritySource authority delta.precondition delta.target_id), targetId,
        some "rename target does not match an authoritative preimage"⟩, rows)

def planDelta (authority : ProjectionAuthority) :
    Delta → List Requirement → DeltaProjectionDisposition × List Requirement
  | .add delta => planAdd platform delta
  | .modify delta => planModify platform authority delta
  | .remove delta => planRemove platform authority delta
  | .rename delta => planRename platform authority delta

/-! ## The plan -/

def planSpecProjection (spec : Spec) (deltas : List Delta) (authority : ProjectionAuthority)
    (projectedAt : String) : SpecProjectionPlan :=
  let steps := trace (planDelta platform authority) (sortDeltas deltas) spec.requirements
  let working := { spec with
    requirements := stateAfter (planDelta platform authority) (sortDeltas deltas) spec.requirements }
  let dispositions := steps.map Record.response
  let missing := dispositions.filter fun row => row.status = .missing
  let targetVersion := bumpProjectionVersion platform spec.version missing
  if dispositions.any DeltaProjectionDisposition.blocked then
    { status := .blocked, capability := spec.name, baseVersion := spec.version,
      targetVersion := spec.version, dispositions, targetSpec := none }
  else
    { status := .safe, capability := spec.name, baseVersion := spec.version, targetVersion,
      dispositions,
      targetSpec := some (
        if 0 < missing.length then
          { working with version := targetVersion, updated_at := projectedAt }
        else working) }

end

end Advance.Archive
