import Advance.Archive.Projection

/-! # The specs an archive writes

`archiveChange` plans every capability of the change first, and writes the
target specs one after another only when no plan is blocked.  The specs are a
map keyed by their names, as `loadAllSpecs` builds it.
-/

namespace Advance.Archive

open Types

/-- `Map<string, Spec>` keyed by spec name. -/
structure SpecMap where
  get : String → Option Spec
  named : ∀ capability spec, get capability = some spec → spec.name = capability

/-- Write the spec under its own name. -/
def SpecMap.set (specs : SpecMap) (spec : Spec) : SpecMap where
  get := fun capability => if capability = spec.name then some spec else specs.get capability
  named := by
    intro capability found held
    split at held
    next same => rw [← Option.some.inj held, same]
    next => exact specs.named capability found held

/-! ## Results -/

structure DeltaApplicationResult where
  success : Bool
  deltaId : String
  operation : DeltaOperation
  targetId : Option String
  newId : Option String
  error : Option String
  deriving DecidableEq

structure SpecUpdateResult where
  capability : String
  originalVersion : String
  newVersion : String
  deltaResults : List DeltaApplicationResult
  updatedSpec : Option Spec

structure PlannedProjection where
  capability : String
  targetSpec : Spec
  result : SpecUpdateResult
  dispositions : List DeltaProjectionDisposition

/-- What the planning loop makes of one capability. -/
structure CapabilityOutcome where
  result : SpecUpdateResult
  planned : Option PlannedProjection
  error : Option String

def specSchemaUrl : String :=
  "https://raw.githubusercontent.com/Sharper-Flow/Advance/trunk/plugin/schemas/spec.schema.json"

section

variable (platform : Platform)

/-- `part.charAt(0).toUpperCase() + part.slice(1)` -/
def capitalize (part : String) : String :=
  match part.toList with
  | [] => platform.toUpperCase ""
  | first :: rest => platform.toUpperCase (String.singleton first) ++ String.ofList rest

def emptySpecForProjection (capability projectedAt : String) : Spec :=
  let title := " ".intercalate ((capability.splitOn "-").map (capitalize platform))
  { schemaUrl := some specSchemaUrl
    name := capability
    title
    purpose := "Capability: " ++ title
    version := "0.0.0"
    updated_at := projectedAt
    requirements := []
    extension := .empty }

def projectionUpdateResult (capability originalVersion newVersion : String)
    (dispositions : List DeltaProjectionDisposition) (updatedSpec : Option Spec) :
    SpecUpdateResult :=
  { capability, originalVersion, newVersion, updatedSpec
    deltaResults := dispositions.map fun row =>
      { success := row.status = .missing ∨ row.status = .identical
        deltaId := row.deltaId
        operation := row.operation
        targetId := row.targetId
        newId := if row.operation = .add then row.targetId.filter (· ≠ "") else none
        error :=
          if row.blocked then
            some (row.status.text ++ ": " ++ row.reason.getD "projection proof failed")
          else none } }

/-- The spec a capability's deltas are planned against. -/
def baseSpec (specs : SpecMap) (archivedAt capability : String) : Spec :=
  (specs.get capability).getD (emptySpecForProjection platform capability archivedAt)

def planCapability (specs : SpecMap) (archivedAt capability : String) (deltas : List Delta) : SpecProjectionPlan :=
  let plan := planSpecProjection platform (baseSpec platform specs archivedAt capability) deltas .current archivedAt
  if (specs.get capability).isNone ∧ plan.status = .safe ∧ plan.targetSpec.isSome then
    { plan with
      targetVersion := "1.0.0"
      targetSpec := plan.targetSpec.map fun spec => { spec with version := "1.0.0" } }
  else plan

def blockedRow (row : DeltaProjectionDisposition) : String :=
  row.deltaId ++ "=" ++ row.status.text ++
    match row.reason with
    | some reason => if reason = "" then "" else " (" ++ reason ++ ")"
    | none => ""

def capabilityOutcome (specs : SpecMap) (archivedAt : String) (entry : String × List Delta) : CapabilityOutcome :=
  let plan := planCapability platform specs archivedAt entry.1 entry.2
  let result := projectionUpdateResult entry.1
    (baseSpec platform specs archivedAt entry.1).version plan.targetVersion plan.dispositions
    plan.targetSpec
  match plan.status, plan.targetSpec with
  | .safe, some targetSpec =>
    { result, planned := some ⟨entry.1, targetSpec, result, plan.dispositions⟩, error := none }
  | _, _ =>
    let blockedRows := (plan.dispositions.filter DeltaProjectionDisposition.blocked).map blockedRow
    { result, planned := none,
      error := some ("Failed to reconcile deltas for " ++ entry.1 ++ ": " ++
        ", ".intercalate blockedRows) }

def archiveOutcomes (specs : SpecMap) (deltas : ChangeDeltas) (archivedAt : String) : List CapabilityOutcome :=
  deltas.affected.map (capabilityOutcome platform specs archivedAt)

def archiveErrors (specs : SpecMap) (deltas : ChangeDeltas) (archivedAt : String) : List String :=
  (archiveOutcomes platform specs deltas archivedAt).filterMap CapabilityOutcome.error

def plannedProjections (specs : SpecMap) (deltas : ChangeDeltas) (archivedAt : String) : List PlannedProjection :=
  (archiveOutcomes platform specs deltas archivedAt).filterMap CapabilityOutcome.planned

def writeSpecs (planned : List PlannedProjection) (specs : SpecMap) : SpecMap :=
  planned.foldl (fun specs projection => specs.set projection.targetSpec) specs

/-- No spec is written until every affected capability has a safe target. -/
def archiveSpecs (specs : SpecMap) (deltas : ChangeDeltas) (archivedAt : String) : Option SpecMap :=
  if archiveErrors platform specs deltas archivedAt = [] then
    some (writeSpecs (plannedProjections platform specs deltas archivedAt) specs)
  else none

variable {platform} {specs : SpecMap} {deltas : ChangeDeltas} {archivedAt capability : String}

/-! ## Planning keeps a capability's name -/

variable {list : List Delta}

variable {authority : ProjectionAuthority}

theorem plan_name {spec target : Spec} {projectedAt : String}
    (planned : (planSpecProjection platform spec list authority projectedAt).targetSpec =
      some target) : target.name = spec.name := by
  simp only [planSpecProjection] at planned
  split at planned
  · cases planned
  · simp only [Option.some.injEq] at planned
    rw [← planned]
    split <;> rfl

theorem baseSpec_name : (baseSpec platform specs archivedAt capability).name = capability := by
  cases found : specs.get capability with
  | none => simp [baseSpec, found, emptySpecForProjection]
  | some spec => simpa [baseSpec, found] using specs.named capability spec found

theorem plan_status {spec : Spec} {projectedAt : String} :
    (planSpecProjection platform spec list authority projectedAt).status = .safe ↔
      ∃ target, (planSpecProjection platform spec list authority projectedAt).targetSpec = some target := by
  simp only [planSpecProjection]
  split <;> simp

theorem planCapability_target : (planCapability platform specs archivedAt capability list).targetSpec =
      let target := (planSpecProjection platform (baseSpec platform specs archivedAt capability) list
        .current archivedAt).targetSpec
      if (specs.get capability).isNone then target.map fun spec => { spec with version := "1.0.0" }
      else target := by
  simp only [planCapability]
  split
  next new => simp [new.1]
  next old =>
    split
    next new =>
      cases found : (planSpecProjection platform (baseSpec platform specs archivedAt capability) list
        .current archivedAt).targetSpec with
      | none => rfl
      | some target => exact absurd ⟨new, plan_status.mpr ⟨target, found⟩, by simp [found]⟩ old
    next => rfl

theorem planCapability_name {target : Spec}
    (planned : (planCapability platform specs archivedAt capability list).targetSpec =
      some target) : target.name = capability := by
  rw [planCapability_target] at planned
  simp only at planned
  split at planned
  · obtain ⟨spec, held, rfl⟩ := Option.map_eq_some_iff.mp planned
    exact (plan_name held).trans baseSpec_name
  · exact (plan_name planned).trans baseSpec_name

theorem planCapability_status : (planCapability platform specs archivedAt capability list).status = .safe ↔
      ∃ target, (planCapability platform specs archivedAt capability list).targetSpec = some target := by
  simp only [planCapability]
  split
  next new => simp [new.2.1, Option.isSome_iff_exists.mp new.2.2]
  next => exact plan_status

/-! ## The specs after an archive -/

variable (platform) in
theorem capabilityOutcome_cases (specs : SpecMap) (archivedAt : String) (entry : String × List Delta) :
    (∃ projection, (capabilityOutcome platform specs archivedAt entry).planned = some projection ∧
      projection.capability = entry.1 ∧
      (planCapability platform specs archivedAt entry.1 entry.2).targetSpec = some projection.targetSpec ∧
      (capabilityOutcome platform specs archivedAt entry).error = none) ∨
    ((planCapability platform specs archivedAt entry.1 entry.2).targetSpec = none ∧
      (capabilityOutcome platform specs archivedAt entry).planned = none ∧
      (capabilityOutcome platform specs archivedAt entry).error ≠ none) := by
  cases found : (planCapability platform specs archivedAt entry.1 entry.2).targetSpec with
  | none => exact .inr ⟨rfl, by simp [capabilityOutcome, found], by simp [capabilityOutcome, found]⟩
  | some target =>
    have safe := planCapability_status.mpr ⟨target, found⟩
    simp only [capabilityOutcome, found, safe]
    exact .inl ⟨_, rfl, rfl, rfl, trivial⟩

theorem archiveErrors_nil : archiveErrors platform specs deltas archivedAt = [] ↔ ∀ entry ∈ deltas.affected,
        ∃ target, (planCapability platform specs archivedAt entry.1 entry.2).targetSpec = some target := by
  simp only [archiveErrors, archiveOutcomes, List.filterMap_map, List.filterMap_eq_nil_iff, Function.comp_apply]
  refine forall₂_congr fun entry _ => ?_
  rcases capabilityOutcome_cases platform specs archivedAt entry with
    ⟨projection, _, _, found, noError⟩ | ⟨noTarget, _, failed⟩
  · exact ⟨fun _ => ⟨projection.targetSpec, found⟩, fun _ => noError⟩
  · refine ⟨fun noError => absurd noError failed, fun ⟨target, found⟩ => ?_⟩
    rw [noTarget] at found
    cases found

variable {projection : PlannedProjection}

theorem mem_plannedProjections (member : projection ∈ plannedProjections platform specs deltas archivedAt) :
    ∃ entry ∈ deltas.affected, projection.capability = entry.1 ∧
      (planCapability platform specs archivedAt entry.1 entry.2).targetSpec = some projection.targetSpec := by
  simp only [plannedProjections, archiveOutcomes, List.filterMap_map, List.mem_filterMap,
    Function.comp_apply] at member
  obtain ⟨entry, held, planned⟩ := member
  rcases capabilityOutcome_cases platform specs archivedAt entry with
    ⟨found, same, capability, target, _⟩ | ⟨_, unplanned, _⟩
  · obtain rfl := Option.some.inj (same.symm.trans planned)
    exact ⟨entry, held, capability, target⟩
  · rw [unplanned] at planned
    cases planned

theorem planned_of_target {entry : String × List Delta} {target : Spec} (affected : entry ∈ deltas.affected)
    (found : (planCapability platform specs archivedAt entry.1 entry.2).targetSpec = some target) :
    ∃ projection ∈ plannedProjections platform specs deltas archivedAt,
      projection.capability = entry.1 ∧ projection.targetSpec = target := by
  rcases capabilityOutcome_cases platform specs archivedAt entry with
    ⟨projection, same, capability, held, _⟩ | ⟨noTarget, _, _⟩
  · refine ⟨projection, ?_, capability, Option.some.inj (held.symm.trans found)⟩
    simp only [plannedProjections, archiveOutcomes, List.filterMap_map, List.mem_filterMap, Function.comp_apply]
    exact ⟨entry, affected, same⟩
  · rw [noTarget] at found
    cases found

theorem planned_name (member : projection ∈ plannedProjections platform specs deltas archivedAt) :
    projection.targetSpec.name = projection.capability := by
  obtain ⟨entry, _, same, target⟩ := mem_plannedProjections member
  exact (planCapability_name target).trans same.symm

theorem planned_distinct : ((plannedProjections platform specs deltas archivedAt).map
      PlannedProjection.capability).Nodup := by
  have keys : ∀ entries : List (String × List Delta), List.Sublist
      (((entries.map (capabilityOutcome platform specs archivedAt)).filterMap
        CapabilityOutcome.planned).map PlannedProjection.capability) (entries.map Prod.fst) := by
    intro entries
    induction entries with
    | nil => exact List.Sublist.slnil
    | cons entry entries ih =>
      rcases capabilityOutcome_cases platform specs archivedAt entry with
        ⟨projection, same, capability, _⟩ | ⟨_, unplanned, _⟩
      · simpa [same, capability] using ih
      · simp only [List.map_cons, List.filterMap_cons, unplanned]
        exact ih.cons _
  exact affected_distinct.sublist (keys deltas.affected)

/-! ### The specs after writing -/

variable {planned : List PlannedProjection}

theorem writeSpecs_outside
    (outside : ∀ projection ∈ planned, projection.targetSpec.name ≠ capability) :
    (writeSpecs planned specs).get capability = specs.get capability := by
  induction planned generalizing specs with
  | nil => rfl
  | cons projection planned ih =>
    rw [show writeSpecs (projection :: planned) specs = writeSpecs planned (specs.set projection.targetSpec) from rfl]
    rw [ih fun later member => outside later (by simp [member])]
    exact if_neg fun same => outside projection (by simp) same.symm

theorem writeSpecs_written
    (named : ∀ projection ∈ planned, projection.targetSpec.name = projection.capability)
    (distinct : (planned.map PlannedProjection.capability).Nodup) (member : projection ∈ planned) :
    (writeSpecs planned specs).get projection.capability = some projection.targetSpec := by
  induction planned generalizing specs with
  | nil => cases member
  | cons first planned ih =>
    obtain ⟨notLater, distinctRest⟩ := List.nodup_cons.mp distinct
    rw [show writeSpecs (first :: planned) specs = writeSpecs planned (specs.set first.targetSpec) from rfl]
    rcases List.mem_cons.mp member with rfl | member
    · rw [writeSpecs_outside]
      · exact if_pos (named projection (by simp)).symm
      · intro later held same
        refine notLater ?_
        rw [← same, named later (by simp [held])]
        exact List.mem_map_of_mem held
    · exact ih (fun later held => named later (by simp [held])) distinctRest member

theorem archived_get {archived : SpecMap} (done : archiveSpecs platform specs deltas archivedAt = some archived) :
    (∀ entry ∈ deltas.affected, ∃ target, archived.get entry.1 = some target ∧
      (planCapability platform specs archivedAt entry.1 entry.2).targetSpec = some target) ∧
    (∀ capability, (∀ entry ∈ deltas.affected, entry.1 ≠ capability) →
      archived.get capability = specs.get capability) := by
  simp only [archiveSpecs] at done
  split at done
  next noErrors =>
    obtain rfl := Option.some.inj done
    constructor
    · intro entry affected
      obtain ⟨target, found⟩ := archiveErrors_nil.mp noErrors entry affected
      obtain ⟨projection, member, same, held⟩ := planned_of_target affected found
      refine ⟨target, ?_, found⟩
      rw [← same, ← held]
      exact writeSpecs_written (fun _ => planned_name) planned_distinct member
    · intro capability outside
      refine writeSpecs_outside fun projection member same => ?_
      obtain ⟨entry, affected, asked, _⟩ := mem_plannedProjections member
      exact outside entry affected (asked.symm.trans ((planned_name member).symm.trans same))
  · cases done

end

end Advance.Archive
