import Advance.Archive.ContentEquality

/-! # Applying deltas to a spec

The older of the two appliers: it changes the spec in place, one delta after
another in the same order as the planner (renames, removes, modifies, adds), stops
at the first delta that fails, and raises the version when none did.
-/

namespace Advance.Archive

open Types

section

variable (platform : Platform)

/-! ## One delta -/

/-- Leave out the requirement `findIndex` returned: the first with the id. -/
def spliceRow (id : String) : List Requirement → List Requirement
  | [] => []
  | row :: rest => if row.id = id then rest else row :: spliceRow id rest

def requirementNotFound (id : String) : String := "Requirement \"" ++ id ++ "\" not found in spec"

def applyAddDelta (delta : DeltaAdd) (rows : List Requirement) : DeltaApplicationResult × List Requirement :=
  let applied : DeltaApplicationResult := ⟨true, delta.id, .add, none, some delta.requirement.id, none⟩
  match findRow rows delta.requirement.id with
  | some existing =>
    if requirementsContentEqual platform.localeCompare existing delta.requirement then (applied, rows)
    else
      (⟨false, delta.id, .add, none, none,
        some ("Requirement \"" ++ delta.requirement.id ++ "\" already exists in spec")⟩, rows)
  | none => (applied, rows ++ [delta.requirement])

def applyModifyDelta (delta : DeltaModify) (rows : List Requirement) : DeltaApplicationResult × List Requirement :=
  let target := some delta.target_id
  match findRow rows delta.target_id with
  | none => (⟨false, delta.id, .modify, target, none, some (requirementNotFound delta.target_id)⟩, rows)
  | some _ =>
    (⟨true, delta.id, .modify, target, none, none⟩, updateRow delta.target_id (·.assign delta.changes) rows)

def applyRemoveDelta (delta : DeltaRemove) (rows : List Requirement) : DeltaApplicationResult × List Requirement :=
  let target := some delta.target_id
  match findRow rows delta.target_id with
  | none => (⟨false, delta.id, .remove, target, none, some (requirementNotFound delta.target_id)⟩, rows)
  | some _ => (⟨true, delta.id, .remove, target, none, none⟩, spliceRow delta.target_id rows)

/-- `new_id` where it is truthy. -/
def DeltaRename.truthyId (delta : DeltaRename) : Option String := delta.new_id.filter fun id => id ≠ ""

/-- `{ ...requirement, title: new_title, ...(new_id ? { id: new_id } : {}) }` -/
def retitled (delta : DeltaRename) (row : Requirement) : Requirement :=
  { row with title := delta.new_title, id := (DeltaRename.truthyId delta).getD row.id }

def applyRenameDelta (delta : DeltaRename) (rows : List Requirement) : DeltaApplicationResult × List Requirement :=
  let target := some delta.target_id
  match findRow rows delta.target_id with
  | none => (⟨false, delta.id, .rename, target, none, some (requirementNotFound delta.target_id)⟩, rows)
  | some _ =>
    match DeltaRename.truthyId delta with
    | some newId =>
      if newId ≠ delta.target_id ∧ (findRow rows newId).isSome then
        (⟨false, delta.id, .rename, target, none,
          some ("Requirement ID \"" ++ newId ++ "\" already exists in spec")⟩, rows)
      else
        (⟨true, delta.id, .rename, target, some newId, none⟩, updateRow delta.target_id (retitled delta) rows)
    | none => (⟨true, delta.id, .rename, target, none, none⟩, updateRow delta.target_id (retitled delta) rows)

def applyDelta : Delta → List Requirement → DeltaApplicationResult × List Requirement
  | .add delta => applyAddDelta platform delta
  | .modify delta => applyModifyDelta delta
  | .remove delta => applyRemoveDelta delta
  | .rename delta => applyRenameDelta delta

/-! ## A list of deltas -/

structure ApplyState where
  deltaResults : List DeltaApplicationResult
  hasAdd : Bool
  hasModify : Bool
  hasRenameOrRemove : Bool
  rows : List Requirement

def ApplyState.start (rows : List Requirement) : ApplyState := ⟨[], false, false, false, rows⟩

/-- The loop, which breaks at the first delta that fails. -/
def applyLoop : List Delta → ApplyState → ApplyState
  | [], state => state
  | delta :: rest, state =>
    let (result, rows) := applyDelta platform delta state.rows
    let tried := { state with deltaResults := state.deltaResults ++ [result], rows }
    if !result.success then tried
    else
      applyLoop rest
        { tried with
          hasAdd := state.hasAdd || delta.operation = .add
          hasModify := state.hasModify || delta.operation = .modify
          hasRenameOrRemove := state.hasRenameOrRemove || delta.operation = .rename || delta.operation = .remove }

def bumpVersion (version : String) (hasAdd hasPatchChange : Bool) : String :=
  let raisePatch (major minor patch : platform.numerals.Value) : String :=
    platform.numerals.text major ++ "." ++ platform.numerals.text minor ++ "." ++
      platform.numerals.text (platform.numerals.plusOne patch)
  match (version.splitOn ".").map platform.numerals.number with
  | [major, minor, patch] =>
    if [major, minor, patch].any platform.numerals.isNaN then version ++ "-updated"
    else if hasAdd then
      platform.numerals.text major ++ "." ++ platform.numerals.text (platform.numerals.plusOne minor) ++ ".0"
    else if hasPatchChange then raisePatch major minor patch
    else raisePatch major minor patch
  | _ => version ++ "-updated"

/-- The result, and the spec as the call leaves it. -/
def applyDeltasToSpec (spec : Spec) (deltas : List Delta) (currentVersion now : String) : SpecUpdateResult × Spec :=
  let final := applyLoop platform (sortDeltas deltas) (.start spec.requirements)
  let allSucceeded := final.deltaResults.all DeltaApplicationResult.success
  let newVersion :=
    if allSucceeded then bumpVersion platform currentVersion final.hasAdd (final.hasModify || final.hasRenameOrRemove)
    else currentVersion
  let mutated := { spec with requirements := final.rows }
  let left := if allSucceeded then { mutated with version := newVersion, updated_at := now } else mutated
  (⟨spec.name, currentVersion, newVersion, final.deltaResults, if allSucceeded then some left else none⟩, left)

end

end Advance.Archive
