import Advance.Archive.PlanSafety
import Advance.Archive.ProjectionProof
import Advance.Foundation.StableSort

/-! # The manifest and its proof

The archive hashes what it holds in memory, the proof what it reads back; the
archive disposes of deltas in the order of their operations, the proof lists them
as the change does.
-/

namespace Advance.Archive

open Foundation
open JavaScript
open Types

section

variable (platform : Platform) (faults : WriteFaults)

/-! ## A successful run -/

def manifestOf (projection : PlannedProjection) : CapabilityProjectionManifest :=
  capabilityManifest platform projection (generateSpecDoc platform projection.targetSpec)

def writtenTree (tree : ProjectionTree) (projection : PlannedProjection) : ProjectionTree :=
  (tree.writeSpec projection.targetSpec.name (specText projection.targetSpec)).writeDocument
    projection.targetSpec.name (generateSpecDoc platform projection.targetSpec)

variable {platform faults}

variable {projection : PlannedProjection}

theorem writeSpecChecked_ok {tree written : ProjectionTree}
    (done : writeSpecChecked platform faults projection tree = .ok written) :
    written = tree.writeSpec projection.targetSpec.name (specText projection.targetSpec) := by
  unfold writeSpecChecked at done
  split at done
  · cases done
  · simp only at done
    split at done
    · cases done
    · split at done
      · cases done
      · split at done
        · cases done
        · exact (Except.ok.inj done).symm

theorem writeDocumentChecked_ok {tree written : ProjectionTree} {content : String}
    (done : writeDocumentChecked platform faults projection tree = .ok (content, written)) :
    content = generateSpecDoc platform projection.targetSpec ∧
      written = tree.writeDocument projection.targetSpec.name content := by
  unfold writeDocumentChecked at done
  split at done
  · cases done
  · simp only at done
    split at done
    · cases done
    · split at done
      · cases done
      · obtain ⟨rfl, rfl⟩ := Prod.mk.inj (Except.ok.inj done)
        exact ⟨rfl, rfl⟩

variable {state : WriteState}

theorem writeProjection_ok (done : (writeProjection platform faults state projection).errors = []) :
    writeProjection platform faults state projection = ⟨writtenTree platform state.tree projection, [],
        state.manifests ++ [manifestOf platform projection]⟩ ∧ state.errors = [] := by
  unfold writeProjection at done ⊢
  split at done
  · simp at done
  next written first =>
    split at done
    · simp at done
    next content documented second =>
      obtain ⟨rfl, rfl⟩ := writeDocumentChecked_ok second
      obtain rfl := writeSpecChecked_ok first
      have noError : state.errors = [] := done
      rw [noError]
      exact ⟨rfl, rfl⟩

variable {planned : List PlannedProjection}

theorem writeLoop_ok
    (done : (planned.foldl (writeProjection platform faults) state).errors = []) :
    state.errors = [] ∧ planned.foldl (writeProjection platform faults) state =
      ⟨planned.foldl (writtenTree platform) state.tree, [],
        state.manifests ++ planned.map (manifestOf platform)⟩ := by
  induction planned generalizing state with
  | nil =>
    cases state
    simpa using done
  | cons projection planned ih =>
    rw [List.foldl_cons] at done ⊢
    obtain ⟨noError, rest⟩ := ih done
    obtain ⟨step, started⟩ := writeProjection_ok noError
    rw [rest, step]
    simp [started]

/-- What a run that archived has made of its change. -/
structure Archived (platform : Platform) (specs : SpecMap) (changeId : String)
    (deltas : ChangeDeltas) (archivedAt : String) (start : ProjectionTree)
    (manifest : SpecProjectionManifest) (tree : ProjectionTree) : Prop where
  planned : archiveErrors platform specs deltas archivedAt = []
  manifest_eq : manifest =
    { change_id := changeId
      delta_set_sha256 := canonicalSha256 platform deltas.toJs
      capabilities :=
        (plannedProjections platform specs deltas archivedAt).map (manifestOf platform) }
  tree_eq : tree = (plannedProjections platform specs deltas archivedAt).foldl (writtenTree platform) start

theorem archived_of_ok {specs : SpecMap} {changeId : String} {deltas : ChangeDeltas}
    {archivedAt : String} {start : ProjectionTree} {manifest : SpecProjectionManifest} {tree : ProjectionTree}
    (done : archiveProjection platform faults specs changeId deltas archivedAt start =
      .ok (manifest, tree)) : Archived platform specs changeId deltas archivedAt start manifest tree := by
  unfold archiveProjection at done
  simp only at done
  split at done
  · cases done
  next planned =>
    split at done
    · cases done
    next written =>
      obtain ⟨_, final⟩ := writeLoop_ok (not_not.mp written)
      rw [final] at done
      obtain ⟨rfl, rfl⟩ := Prod.mk.inj (Except.ok.inj done)
      exact ⟨not_not.mp planned, by simp, rfl⟩

theorem writeProjection_spared (named : projection.targetSpec.name = projection.capability)
    (specSpared : faults.spec projection.capability = none)
    (documentSpared : faults.document projection.capability = none) :
    (writeProjection platform faults state projection).errors = state.errors := by
  have wrote : writeSpecChecked platform faults projection state.tree =
      .ok (state.tree.writeSpec projection.targetSpec.name (specText projection.targetSpec)) := by
    have back : (state.tree.writeSpec projection.targetSpec.name
        (specText projection.targetSpec)).spec projection.capability =
          .ok (specText projection.targetSpec) := if_pos named.symm
    have parsed : (specText projection.targetSpec).bind Spec.parse = some projection.targetSpec := by
      rw [specText, Option.bind_some, Spec.toJs_json, Spec.parse_toJs]
    simp only [writeSpecChecked, specSpared, back, parsed, ne_eq, not_true_eq_false, if_false]
  have documented : ∀ tree, ∃ written, writeDocumentChecked platform faults projection tree = .ok written := by
    intro tree
    have back : (tree.writeDocument projection.targetSpec.name
        (generateSpecDoc platform projection.targetSpec)).document projection.targetSpec.name =
          .ok (generateSpecDoc platform projection.targetSpec) := if_pos rfl
    simp [writeDocumentChecked, documentSpared, back]
  obtain ⟨⟨content, written⟩, done⟩ :=
    documented (state.tree.writeSpec projection.targetSpec.name (specText projection.targetSpec))
  simp only [writeProjection, wrote, done]

/-! ### The tree -/

variable (platform) in
theorem writtenTree_other (tree : ProjectionTree) {projection : PlannedProjection}
    {capability : String} (other : capability ≠ projection.targetSpec.name) :
    (writtenTree platform tree projection).spec capability = tree.spec capability ∧
      (writtenTree platform tree projection).document capability = tree.document capability :=
  ⟨if_neg other, if_neg other⟩

variable (platform) in
theorem writtenTree_same (tree : ProjectionTree) (projection : PlannedProjection) :
    (writtenTree platform tree projection).spec projection.targetSpec.name = .ok (specText projection.targetSpec) ∧
      (writtenTree platform tree projection).document projection.targetSpec.name =
        .ok (generateSpecDoc platform projection.targetSpec) :=
  ⟨if_pos rfl, if_pos rfl⟩

variable (platform) in
theorem tree_outside (start : ProjectionTree) {capability : String}
    (outside : ∀ projection ∈ planned, capability ≠ projection.targetSpec.name) :
    (planned.foldl (writtenTree platform) start).spec capability = start.spec capability ∧
      (planned.foldl (writtenTree platform) start).document capability = start.document capability := by
  induction planned generalizing start with
  | nil => exact ⟨rfl, rfl⟩
  | cons projection planned ih =>
    obtain ⟨spec, document⟩ := writtenTree_other platform start (outside projection (by simp))
    obtain ⟨specLater, documentLater⟩ := ih (writtenTree platform start projection)
      fun later member => outside later (by simp [member])
    exact ⟨specLater.trans spec, documentLater.trans document⟩

variable (platform) in
theorem tree_written (start : ProjectionTree)
    (named : ∀ projection ∈ planned, projection.targetSpec.name = projection.capability)
    (distinct : (planned.map PlannedProjection.capability).Nodup) {projection : PlannedProjection}
    (member : projection ∈ planned) : (planned.foldl (writtenTree platform) start).spec projection.capability =
        .ok (specText projection.targetSpec) ∧
      (planned.foldl (writtenTree platform) start).document projection.capability =
        .ok (generateSpecDoc platform projection.targetSpec) := by
  induction planned generalizing start with
  | nil => cases member
  | cons first planned ih =>
    obtain ⟨notLater, distinctRest⟩ := List.nodup_cons.mp distinct
    rw [List.foldl_cons]
    rcases List.mem_cons.mp member with rfl | member
    · have name := named projection (by simp)
      have untouched : ∀ later ∈ planned, projection.capability ≠ later.targetSpec.name := by
        intro later held same
        refine notLater ?_
        rw [same, named later (by simp [held])]
        exact List.mem_map_of_mem held
      obtain ⟨spec, document⟩ :=
        tree_outside platform (writtenTree platform start projection) untouched
      obtain ⟨specHere, documentHere⟩ := writtenTree_same platform start projection
      rw [name] at specHere documentHere
      exact ⟨spec.trans specHere, document.trans documentHere⟩
    · exact ih _ (fun later held => named later (by simp [held])) distinctRest member

/-! ## The plan behind a manifest -/

variable {authority : ProjectionAuthority} {specs : SpecMap} {deltas : ChangeDeltas} {archivedAt : String}

theorem planDelta_deltaId (delta : Delta) (rows : List Requirement) :
    (planDelta platform authority delta rows).1.deltaId = delta.id := by
  cases delta with
  | add delta =>
    simp only [planDelta, planAdd]
    repeat' split
    all_goals rfl
  | modify delta =>
    simp only [planDelta, planModify]
    repeat' split
    all_goals rfl
  | remove delta =>
    simp only [planDelta, planRemove]
    repeat' split
    all_goals rfl
  | rename delta =>
    simp only [planDelta, planRename]
    repeat' split
    all_goals rfl

theorem plan_deltaIds (spec : Spec) (list : List Delta) (projectedAt : String) :
    (planSpecProjection platform spec list authority projectedAt).dispositions.map
        DeltaProjectionDisposition.deltaId = (sortDeltas list).map Delta.id := by
  have steps : ∀ (list : List Delta) (rows : List Requirement),
      ((trace (planDelta platform authority) list rows).map Record.response).map
        DeltaProjectionDisposition.deltaId = list.map Delta.id := by
    intro list
    induction list with
    | nil => exact fun _ => rfl
    | cons delta list ih =>
      intro rows
      simp only [trace, recordOf, List.map_cons, planDelta_deltaId, ih]
  simp only [planSpecProjection]
  split <;> exact steps _ _

variable {list : List Delta}

theorem plan_version {spec target : Spec} {projectedAt : String}
    (planned : (planSpecProjection platform spec list authority projectedAt).targetSpec =
      some target) : (planSpecProjection platform spec list authority projectedAt).targetVersion =
      target.version := by
  simp only [planSpecProjection] at planned ⊢
  split at planned
  · cases planned
  next unblocked =>
    obtain rfl := Option.some.inj planned
    simp only [unblocked, Bool.false_eq_true, if_false]
    split
    · rfl
    next nothing =>
      have none : ∀ rows : List DeltaProjectionDisposition, ¬ 0 < rows.length →
          bumpProjectionVersion platform spec.version rows = spec.version := by
        intro rows empty
        simp [bumpProjectionVersion, show rows = [] by simpa using empty]
      exact none _ nothing

variable {capability : String}

theorem planCapability_dispositions : (planCapability platform specs archivedAt capability list).dispositions.map
        DeltaProjectionDisposition.deltaId = (sortDeltas list).map Delta.id := by
  simp only [planCapability]
  split <;> exact plan_deltaIds _ _ _

theorem planCapability_version {target : Spec}
    (planned : (planCapability platform specs archivedAt capability list).targetSpec =
      some target) : (planCapability platform specs archivedAt capability list).targetVersion = target.version := by
  simp only [planCapability] at planned ⊢
  split at planned
  next new =>
    obtain ⟨spec, _, rfl⟩ := Option.map_eq_some_iff.mp planned
    rw [if_pos new]
  next old =>
    rw [if_neg old]
    exact plan_version planned

theorem planCapability_distinct {target : Spec} (distinct : specs.Distinct)
    (planned : (planCapability platform specs archivedAt capability list).targetSpec =
      some target) : Distinct target.requirements := by
  have reached : ∀ {target : Spec}, (planSpecProjection platform
      (baseSpec platform specs archivedAt capability) list .current archivedAt).targetSpec =
        some target → Distinct target.requirements := by
    intro target found
    rw [(plan_target found).2]
    exact distinct_run platform .current _ (baseSpec_distinct distinct capability)
  rw [planCapability_target] at planned
  simp only at planned
  split at planned
  · obtain ⟨spec, found, rfl⟩ := Option.map_eq_some_iff.mp planned
    have kept : Distinct spec.requirements := reached found
    exact kept
  · exact reached planned

/-- What the manifest of a planned capability is made of. -/
structure Planned (projection : PlannedProjection) (entry : String × List Delta) : Prop where
  capability : projection.capability = entry.1
  dispositions : projection.dispositions.map DeltaProjectionDisposition.deltaId = (sortDeltas entry.2).map Delta.id
  version : projection.result.newVersion = projection.targetSpec.version
  distinct : Distinct projection.targetSpec.requirements

theorem planned_details (distinct : specs.Distinct) {entry : String × List Delta}
    (planned : (capabilityOutcome platform specs archivedAt entry).planned = some projection) :
    Planned projection entry := by
  simp only [capabilityOutcome] at planned
  split at planned
  next target _ found =>
    obtain rfl := Option.some.inj planned
    exact ⟨rfl, planCapability_dispositions, planCapability_version found, planCapability_distinct distinct found⟩
  · cases planned

theorem planned_each (distinct : specs.Distinct) (noErrors : archiveErrors platform specs deltas archivedAt = []) :
    List.Forall₂ Planned (plannedProjections platform specs deltas archivedAt) deltas.affected := by
  have each : ∀ entries : List (String × List Delta), (∀ entry ∈ entries, ∃ target,
        (planCapability platform specs archivedAt entry.1 entry.2).targetSpec = some target) →
      List.Forall₂ Planned ((entries.map (capabilityOutcome platform specs archivedAt)).filterMap
        CapabilityOutcome.planned) entries := by
    intro entries
    induction entries with
    | nil => exact fun _ => .nil
    | cons entry entries ih =>
      intro targets
      rcases capabilityOutcome_cases platform specs archivedAt entry with
        ⟨projection, planned, _⟩ | ⟨noTarget, _⟩
      · simp only [List.map_cons, List.filterMap_cons, planned]
        exact .cons (planned_details distinct planned) (ih fun later member => targets later (by simp [member]))
      · obtain ⟨target, found⟩ := targets entry (by simp)
        rw [noTarget] at found
        cases found
  exact each deltas.affected (archiveErrors_nil.mp noErrors)

/-! ## Listing the capabilities -/

variable (platform) in
theorem manifestCapabilities_names (manifest : SpecProjectionManifest) :
    (manifestCapabilities platform manifest).map CapabilityProjectionManifest.capability =
      (manifest.capabilities.map CapabilityProjectionManifest.capability).insertionSort
        (localeBefore platform.localeCompare) :=
  List.map_insertionSort _ _ _ _ fun _ _ _ _ => Iff.rfl

variable (platform) in
theorem expectedCapabilities_names (expectedIds : List (String × List String)) :
    (expectedCapabilities platform expectedIds).map Prod.fst =
      ((expectedIds.filter fun entry => 0 < entry.2.length).map Prod.fst).insertionSort
        (localeBefore platform.localeCompare) :=
  List.map_insertionSort _ _ _ _ fun _ _ _ _ => Iff.rfl

theorem ids_affected (deltas : ChangeDeltas) :
    ((deltaIdsByCapability deltas).filter fun entry => 0 < entry.2.length) =
      deltas.affected.map fun entry => (entry.1, entry.2.map Delta.id) := by
  unfold deltaIdsByCapability ChangeDeltas.affected
  rw [List.filter_map]
  congr 1
  refine List.filter_congr fun entry _ => ?_
  simp [Nat.pos_iff_ne_zero]

theorem mem_expectedCapabilities {entry : String × List String} :
    entry ∈ expectedCapabilities platform (deltaIdsByCapability deltas) ↔
      ∃ affected ∈ deltas.affected, (affected.1, affected.2.map Delta.id) = entry := by
  rw [expectedCapabilities, List.mem_insertionSort, ids_affected, List.mem_map]

theorem related_left {α β : Type} {relation : α → β → Prop} {left : List α} {right : List β}
    (each : List.Forall₂ relation left right) {x : α} (member : x ∈ left) : ∃ y ∈ right, relation x y := by
  induction each with
  | nil => cases member
  | cons holds _ ih =>
    rcases List.mem_cons.mp member with rfl | member
    · exact ⟨_, List.mem_cons_self, holds⟩
    · obtain ⟨y, held, related⟩ := ih member
      exact ⟨y, List.mem_cons_of_mem _ held, related⟩

variable {changeId : String} {start tree : ProjectionTree} {manifest : SpecProjectionManifest}

namespace Archived

section

variable (distinct : specs.Distinct) (run : Archived platform specs changeId deltas archivedAt start manifest tree)
include distinct run

theorem capability_names : manifest.capabilities.map CapabilityProjectionManifest.capability =
      deltas.affected.map Prod.fst := by
  rw [run.manifest_eq, List.map_map]
  have names : ∀ (planned : List PlannedProjection) (entries : List (String × List Delta)),
      List.Forall₂ Planned planned entries →
      planned.map (CapabilityProjectionManifest.capability ∘ manifestOf platform) = entries.map Prod.fst := by
    intro planned entries each
    induction each with
    | nil => rfl
    | cons head _ ih => rw [List.map_cons, List.map_cons, ih, ← head.capability]; rfl
  exact names _ _ (planned_each distinct run.planned)

theorem disposed {entry : String × List Delta} (affected : entry ∈ deltas.affected) :
    disposedIds platform manifest entry.1 = (sortDeltas entry.2).map Delta.id := by
  obtain ⟨projection, member, planned⟩ := related_left (planned_each distinct run.planned).flip affected
  have listed : manifestOf platform projection ∈ manifestCapabilities platform manifest := by
    rw [manifestCapabilities, List.mem_insertionSort, run.manifest_eq]
    exact List.mem_map_of_mem member
  have names : ((manifestCapabilities platform manifest).map CapabilityProjectionManifest.capability).Nodup := by
    rw [manifestCapabilities_names, (List.perm_insertionSort _ _).nodup_iff, run.capability_names distinct]
    exact affected_distinct
  have found := find_of_distinct names listed
  rw [show (manifestOf platform projection).capability = entry.1 from planned.capability] at found
  simp only [disposedIds, found]
  exact planned.dispositions

theorem released {entry : CapabilityProjectionManifest} (listed : entry ∈ manifest.capabilities) :
    ∃ projection ∈ plannedProjections platform specs deltas archivedAt, entry = manifestOf platform projection ∧
      Released platform tree entry projection.targetSpec (generateSpecDoc platform projection.targetSpec) := by
  rw [run.manifest_eq] at listed
  obtain ⟨projection, member, rfl⟩ := List.mem_map.mp listed
  obtain ⟨_, _, planned⟩ := related_left (planned_each distinct run.planned) member
  have held := tree_written platform start (fun _ => planned_name) planned_distinct member
  rw [← run.tree_eq] at held
  refine ⟨projection, member, rfl, ?_, planned.version.symm, rfl, ?_, held.2, rfl⟩
  · exact ⟨_, held.1, by rw [Spec.toJs_json, Spec.parse_toJs]⟩
  · intro expected digested
    obtain ⟨row, inTarget, rfl⟩ := List.mem_map.mp (mem_fromEntries digested)
    have found : findRow projection.targetSpec.requirements row.id = some row :=
      find_of_distinct planned.distinct inTarget
    simp [found]

end

end Archived

/-! ## What the proof accepts -/

variable (platform)

def AcceptsOwnRun (manifest : SpecProjectionManifest) (tree : ProjectionTree) (changeId : String)
    (deltas : ChangeDeltas) : Prop :=
  ∀ commitSha now, isFullCommitSha commitSha = true → ∃ receipt, verifyProjection platform manifest commitSha changeId
      (canonicalSha256 platform deltas.toJs) (deltaIdsByCapability deltas) tree now = some (.verified receipt)

def digestedValues (tree : ProjectionTree) (deltas : ChangeDeltas) : Set JsVal :=
  { value | value = deltas.toJs ∨
    (∃ capability document, tree.document capability = .ok document ∧ value = .str document) ∨
    ∃ capability specInput spec, tree.spec capability = .ok (some specInput) ∧
      Spec.parse specInput = some spec ∧ value = spec.toJs }

/-- `sha256` gives the texts of these values different digests. -/
def DigestsTellApart (values : Set JsVal) : Prop :=
  Set.InjOn platform.sha256 (canonicalBytes platform.localeCompare '' values)

structure SameCapability (written released : ProjectionTree) (capability : String) : Prop where
  spec : ∃ writtenInput writtenSpec releasedInput releasedSpec, written.spec capability = .ok (some writtenInput) ∧
    Spec.parse writtenInput = some writtenSpec ∧
    released.spec capability = .ok (some releasedInput) ∧
    Spec.parse releasedInput = some releasedSpec ∧
    SameUpToKeyOrder writtenSpec.toJs releasedSpec.toJs
  document : ∃ document, written.document capability = .ok document ∧ released.document capability = .ok document

/-- Whatever the proof accepts for the manifest is what the run wrote and the change's deltas. -/
def RejectsOthers (manifest : SpecProjectionManifest) (tree : ProjectionTree) (deltas : ChangeDeltas) : Prop :=
  ∀ released others commitSha changeId expectedIds now receipt,
    DigestsTellApart platform (digestedValues tree deltas ∪ digestedValues released others) →
    verifyProjection platform manifest commitSha changeId (canonicalSha256 platform others.toJs)
      expectedIds released now = some (.verified receipt) →
    SameUpToKeyOrder deltas.toJs others.toJs ∧
      ∀ entry ∈ manifest.capabilities, SameCapability tree released entry.capability

/-- Delta ids that the locale ties stand in author order as they do by operation. -/
def TiesKept (list : List Delta) : Prop :=
  SameTies (localeBefore platform.localeCompare) (distinctOf ((sortDeltas list).map Delta.id))
    (distinctOf (list.map Delta.id))

variable {platform}

theorem verified_iff {manifest : SpecProjectionManifest} {commitSha changeId now : String}
    {deltaSet : SHA256Digest} {expectedIds : List (String × List String)} {reader : ProjectionTree} :
    (∃ receipt, verifyProjection platform manifest commitSha changeId deltaSet expectedIds reader
        now = some (.verified receipt)) ↔
      projectionFailure platform manifest changeId deltaSet expectedIds reader = none ∧
        manifest.change_id ≠ "" ∧ isFullCommitSha commitSha = true := by
  unfold verifyProjection
  split
  next failed => simp [failed]
  next passed =>
    simp only [passed, receiptOf, true_and]
    split
    next valid => simp [valid]
    next invalid => simpa using invalid

theorem sortedIds_eq_iff [Std.TransCmp platform.localeCompare] :
    sortedIds platform ((sortDeltas list).map Delta.id) = sortedIds platform (list.map Delta.id) ↔
      TiesKept platform list := by
  have total : Std.Total (localeBefore platform.localeCompare) := localeBefore_total
  have trans : IsTrans String (localeBefore platform.localeCompare) := localeBefore_trans
  exact insertionSort_eq_iff (nodup_distinctOf _)
    (distinctOf_perm ((List.perm_insertionSort ordered list).map Delta.id))

namespace Archived

theorem bound (run : Archived platform specs changeId deltas archivedAt start manifest tree) :
    manifest.change_id = changeId ∧ manifest.delta_set_sha256 = canonicalSha256 platform deltas.toJs := by
  rw [run.manifest_eq]
  exact ⟨rfl, rfl⟩

theorem listed (distinct : specs.Distinct)
    (run : Archived platform specs changeId deltas archivedAt start manifest tree) :
    (manifestCapabilities platform manifest).map CapabilityProjectionManifest.capability =
      (expectedCapabilities platform (deltaIdsByCapability deltas)).map Prod.fst := by
  rw [manifestCapabilities_names, expectedCapabilities_names, run.capability_names distinct,
    ids_affected, List.map_map]
  rfl

section

variable [Std.TransCmp platform.localeCompare] (distinct : specs.Distinct)
  (run : Archived platform specs changeId deltas archivedAt start manifest tree)
include distinct run

theorem passes_iff : projectionFailure platform manifest changeId (canonicalSha256 platform deltas.toJs)
        (deltaIdsByCapability deltas) tree = none ↔
      ∀ entry ∈ deltas.affected, TiesKept platform entry.2 := by
  have describes : ∀ entry ∈ manifest.capabilities, ∃ spec document, Released platform tree entry spec document := by
    intro entry member
    obtain ⟨_, _, _, released⟩ := run.released distinct member
    exact ⟨_, _, released⟩
  rw [projectionFailure_none]
  constructor
  · rintro ⟨_, _, accounted, _⟩ entry affected
    have same := accounted _ (mem_expectedCapabilities.mpr ⟨entry, affected, rfl⟩)
    rw [run.disposed distinct affected] at same
    exact sortedIds_eq_iff.mp same
  · intro kept
    refine ⟨run.bound, run.listed distinct, fun expected member => ?_, describes⟩
    obtain ⟨entry, affected, rfl⟩ := mem_expectedCapabilities.mp member
    rw [run.disposed distinct affected]
    exact sortedIds_eq_iff.mpr (kept entry affected)

theorem acceptsOwnRun_iff : AcceptsOwnRun platform manifest tree changeId deltas ↔
      changeId ≠ "" ∧ ∀ entry ∈ deltas.affected, TiesKept platform entry.2 := by
  unfold AcceptsOwnRun
  simp only [verified_iff, run.passes_iff distinct, run.bound.1]
  constructor
  · intro accepts
    obtain ⟨kept, named, _⟩ := accepts "0000000000000000000000000000000000000000" "" (by rfl)
    exact ⟨named, kept⟩
  · rintro ⟨named, kept⟩ commitSha _ full
    exact ⟨kept, named, full⟩

end

theorem rejectsOthers (distinct : specs.Distinct)
    (run : Archived platform specs changeId deltas archivedAt start manifest tree) :
    RejectsOthers platform manifest tree deltas := by
  intro released others commitSha otherId expectedIds now receipt tellApart verified
  obtain ⟨passed, _, _⟩ := verified_iff.mp ⟨receipt, verified⟩
  obtain ⟨⟨_, sameSet⟩, _, _, describes⟩ := projectionFailure_none.mp passed
  -- Equal digests of compared values are equal texts.
  have texts : ∀ left ∈ digestedValues tree deltas, ∀ right ∈ digestedValues released others,
      canonicalSha256 platform left = canonicalSha256 platform right →
      canonicalBytes platform.localeCompare left = canonicalBytes platform.localeCompare right :=
    fun left inLeft right inRight same =>
      tellApart ⟨left, .inl inLeft, rfl⟩ ⟨right, .inr inRight, rfl⟩ same
  constructor
  · have digests : canonicalSha256 platform deltas.toJs = canonicalSha256 platform others.toJs := by
      rw [run.manifest_eq] at sameSet
      exact sameSet
    exact same_of_canonicalBytes (ChangeDeltas.toJs_json deltas)
      (ChangeDeltas.toJs_json others) (texts _ (.inl rfl) _ (.inl rfl) digests)
  · intro entry listed
    obtain ⟨projection, _, _, own⟩ := run.released distinct listed
    obtain ⟨spec, document, foreign⟩ := describes entry listed
    obtain ⟨writtenInput, wrote, writtenSpec⟩ := own.specRead
    obtain ⟨releasedInput, read, releasedSpec⟩ := foreign.specRead
    constructor
    · have sameText : canonicalBytes platform.localeCompare projection.targetSpec.toJs =
          canonicalBytes platform.localeCompare spec.toJs :=
        texts _ (.inr (.inr ⟨_, _, _, wrote, writtenSpec, rfl⟩)) _
          (.inr (.inr ⟨_, _, _, read, releasedSpec, rfl⟩))
          (own.specDigest.trans foreign.specDigest.symm)
      exact ⟨writtenInput, _, releasedInput, spec, wrote, writtenSpec, read, releasedSpec,
        same_of_canonicalBytes (Spec.toJs_json _) (Spec.toJs_json _) sameText⟩
    · have same := texts _ (.inr (.inl ⟨_, _, own.documentRead, rfl⟩)) _
        (.inr (.inl ⟨_, _, foreign.documentRead, rfl⟩))
        (own.documentDigest.trans foreign.documentDigest.symm)
      rw [canonicalBytes_str, canonicalBytes_str, JsVal.str.injEq] at same
      exact ⟨document, same ▸ own.documentRead, foreign.documentRead⟩

end Archived

/-- The manifest of an archive agrees with its proof, both ways, exactly when the change has an id
    and no two delta ids that the locale ties change places under the operation order. -/
theorem manifest_agreement_iff [Std.TransCmp platform.localeCompare] {faults : WriteFaults}
    (distinct : specs.Distinct) (archived : archiveProjection platform faults specs changeId deltas archivedAt start =
      .ok (manifest, tree)) : (AcceptsOwnRun platform manifest tree changeId deltas ∧
      RejectsOthers platform manifest tree deltas) ↔
      (changeId ≠ "" ∧ ∀ entry ∈ deltas.affected, TiesKept platform entry.2) := by
  have run := archived_of_ok archived
  rw [run.acceptsOwnRun_iff distinct]
  exact ⟨And.left, fun accepted => ⟨accepted, run.rejectsOthers distinct⟩⟩

end

/-! ## Fixed runs -/

def hexDigits : List Char :=
  ['0', '1', '2', '3', '4', '5', '6', '7', '8', '9', 'a', 'b', 'c', 'd', 'e', 'f']

def digestOf (code : Nat) : SHA256Digest :=
  ⟨String.ofList ((List.range 64).map fun place => hexDigits.getD (code / 16 ^ place % 16) '0'), by
    have digit : ∀ value < 16, (('a' ≤ hexDigits.getD value '0' && hexDigits.getD value '0' ≤ 'f') ||
        ('0' ≤ hexDigits.getD value '0' && hexDigits.getD value '0' ≤ '9')) = true := by
      decide_cbv
    have each : ∀ c ∈ (List.range 64).map fun place => hexDigits.getD (code / 16 ^ place % 16) '0',
        (('a' ≤ c && c ≤ 'f') || ('0' ≤ c && c ≤ '9')) = true := by
      intro c member
      obtain ⟨place, _, rfl⟩ := List.mem_map.mp member
      exact digit _ (Nat.mod_lt _ (by omega))
    simp only [isSha256Digest, String.toList_ofList, String.length_ofList, List.length_map,
      List.length_range, decide_true, Bool.true_and, List.all_eq_true]
    exact each⟩

def textCode (text : String) (start : Nat) : Nat :=
  text.toList.foldl (fun code c => (code * 257 + c.toNat + 1) % (2 ^ 255 - 19)) start

mutual
def valueCode : JsVal → Nat → Nat
  | .undefined, code | .null, code => code * 257 + 1
  | .bool value, code => code * 257 + if value then 2 else 3
  | .num value, code => (code * 257 + value.num.natAbs + 4) % (2 ^ 255 - 19)
  | .str value, code => textCode value (code * 257 + 5)
  | .arr values, code => elementsCode values (code * 257 + 6)
  | .obj entries, code => membersCode entries (code * 257 + 7)

def elementsCode : List JsVal → Nat → Nat
  | [], code => code * 257 + 8
  | value :: rest, code => elementsCode rest (valueCode value code)

def membersCode : List (String × JsVal) → Nat → Nat
  | [], code => code * 257 + 9
  | (key, value) :: rest, code => membersCode rest (valueCode value (textCode key code))
end

def codeDigest (value : JsVal) : SHA256Digest := digestOf (valueCode value 1)

def decomposed (text : String) : String :=
  String.ofList (text.toList.flatMap fun c => if c = '\u00e9' then ['e', '\u0301'] else [c])

def localePlatform : Platform :=
  { plainPlatform codeDigest with
    localeCompare := fun left right => compare (decomposed left) (decomposed right)
    isoDay := fun text => some (String.ofList (text.toList.take 10)) }

def newRequirement : Requirement :=
  { replacedRequirement "Search by date" with id := "rq-search02" }

def accentedDeltas (addId modifyId : String) : ChangeDeltas where
  entries := [("search", [.add ⟨addId, newRequirement⟩,
      .modify { id := modifyId, target_id := "rq-search01", precondition := none
                changes := ⟨none, some "Search by tag", none, none, none⟩
                nonempty := body_nonempty "Search by tag"
                parented := body_parented "rq-search01" "Search by tag" }])]
  distinct := List.nodup_singleton _

def noFaults : WriteFaults := ⟨fun _ => none, fun _ => none⟩

def emptyTree : ProjectionTree :=
  ⟨fun _ => .error "Error: not found", fun _ => .error "Error: not found"⟩

theorem archived_without_faults {platform : Platform} {specs : SpecMap} {deltas : ChangeDeltas}
    {archivedAt : String} (noErrors : archiveErrors platform specs deltas archivedAt = [])
    (changeId : String) (start : ProjectionTree) :
    ∃ manifest tree, archiveProjection platform noFaults specs changeId deltas archivedAt start =
      .ok (manifest, tree) := by
  have wrote : ∀ (planned : List PlannedProjection) (state : WriteState),
      (∀ projection ∈ planned, projection.targetSpec.name = projection.capability) →
      (planned.foldl (writeProjection platform noFaults) state).errors = state.errors := by
    intro planned
    induction planned with
    | nil => exact fun _ _ => rfl
    | cons projection planned ih =>
      intro state named
      rw [List.foldl_cons, ih _ fun later member => named later (by simp [member])]
      exact writeProjection_spared (named projection (by simp)) rfl rfl
  have done := wrote (plannedProjections platform specs deltas archivedAt) ⟨start, [], []⟩
    fun _ => planned_name
  unfold archiveProjection
  simp only [noErrors, ne_eq, not_true_eq_false, if_false, done]
  exact ⟨_, _, rfl⟩

theorem localePlatform_trans : Std.TransCmp localePlatform.localeCompare := by
  have onDecomposed : Std.TransCmp (compareOn decomposed) := inferInstance
  exact onDecomposed

/-- The archive of a valid change is not verified when two delta ids are canonically equivalent
    and the operation order turns them round. -/
theorem accented_ids_rejected : searchSpecs.Distinct ∧ ∃ manifest tree,
    archiveProjection localePlatform noFaults searchSpecs "addSearch"
      (accentedDeltas "dl-\u00e9" "dl-e\u0301") "2026-02-01T00:00:00.000Z" emptyTree = .ok (manifest, tree) ∧
    verifyProjection localePlatform manifest "0000000000000000000000000000000000000000" "addSearch"
      (canonicalSha256 localePlatform (accentedDeltas "dl-\u00e9" "dl-e\u0301").toJs)
      (deltaIdsByCapability (accentedDeltas "dl-\u00e9" "dl-e\u0301")) tree
      "2026-02-02T00:00:00.000Z" = some (.failed ⟨.manifestMismatch, some "search",
          "Projection manifest does not account for every accepted delta"⟩) := by
  have noErrors : archiveErrors localePlatform searchSpecs
      (accentedDeltas "dl-\u00e9" "dl-e\u0301") "2026-02-01T00:00:00.000Z" = [] := by
    rfl
  obtain ⟨manifest, tree, archived⟩ := archived_without_faults noErrors "addSearch" emptyTree
  refine ⟨searchSpecs_distinct, manifest, tree, archived, ?_⟩
  have run := archived_of_ok archived
  have boundTo : bindingFailure manifest "addSearch" (canonicalSha256 localePlatform
      (accentedDeltas "dl-\u00e9" "dl-e\u0301").toJs) = none := by
    simp [bindingFailure, run.bound]
  have lists : capabilitySetFailure localePlatform manifest
      (deltaIdsByCapability (accentedDeltas "dl-\u00e9" "dl-e\u0301")) = none := by
    simp [capabilitySetFailure, run.listed searchSpecs_distinct]
  have one : expectedCapabilities localePlatform (deltaIdsByCapability (accentedDeltas "dl-\u00e9" "dl-e\u0301")) =
        [("search", ["dl-\u00e9", "dl-e\u0301"])] := by rfl
  have disposed : disposedIds localePlatform manifest "search" = ["dl-e\u0301", "dl-\u00e9"] :=
    run.disposed searchSpecs_distinct List.mem_cons_self
  have unaccounted : accountFailure localePlatform manifest
      ("search", ["dl-\u00e9", "dl-e\u0301"]) = some ⟨.manifestMismatch, some "search",
        "Projection manifest does not account for every accepted delta"⟩ := by
    rw [accountFailure, disposed]
    rfl
  simp only [verifyProjection, projectionFailure, boundTo, lists, one, List.findSome?_cons,
    unaccounted, Option.none_or, Option.some_or]

/-- Ids the locale tells apart: the archive is verified, and only what it wrote is. -/
theorem plain_ids_verified : ∃ manifest tree, archiveProjection localePlatform noFaults searchSpecs "addSearch"
      (accentedDeltas "dl-add" "dl-modify") "2026-02-01T00:00:00.000Z" emptyTree = .ok (manifest, tree) ∧
    AcceptsOwnRun localePlatform manifest tree "addSearch" (accentedDeltas "dl-add" "dl-modify") ∧
    RejectsOthers localePlatform manifest tree (accentedDeltas "dl-add" "dl-modify") := by
  have consistent := localePlatform_trans
  have noErrors : archiveErrors localePlatform searchSpecs (accentedDeltas "dl-add" "dl-modify")
      "2026-02-01T00:00:00.000Z" = [] := by rfl
  obtain ⟨manifest, tree, archived⟩ := archived_without_faults noErrors "addSearch" emptyTree
  refine ⟨manifest, tree, archived, (manifest_agreement_iff searchSpecs_distinct archived).mpr ?_⟩
  refine ⟨by decide, fun entry affected => ?_⟩
  obtain rfl := List.mem_singleton.mp affected
  exact sortedIds_eq_iff.mp (by rfl)

end Advance.Archive
