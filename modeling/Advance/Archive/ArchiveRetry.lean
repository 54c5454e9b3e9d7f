import Advance.Archive.ArchiveSpecs
import Advance.Archive.ProjectionRetry
import Advance.Validator.Conflicts

/-! # Retrying an archive

An archive may stop after writing some of its specs and be run again on what it
left.
-/

namespace Advance.Archive

open JavaScript
open Types

section

variable (platform : Platform) (specs : SpecMap) (deltas : ChangeDeltas) (archivedAt : String)

/-- A spec apart from the time of its last change. -/
def unstamped (spec : Spec) : Spec := { spec with updated_at := "" }

/-- Planning an affected capability again against its target finds nothing to do. -/
def FixedPoint : Prop :=
  ∀ entry ∈ deltas.affected, ∀ target,
    (planCapability platform specs archivedAt entry.1 entry.2).targetSpec = some target →
    RetrySafe platform target entry.2

/-- The specs an archive leaves when it stops after its first `written` spec writes. -/
def crashedSpecs (written : Nat) : SpecMap :=
  writeSpecs ((plannedProjections platform specs deltas archivedAt).take written) specs

/-- Wherever the archive stops and whenever it is retried, the retry succeeds and leaves the specs
    of the uninterrupted archive: those written before with their stamp, the others with its own. -/
def CrashSafe (archived : SpecMap) : Prop :=
  ∀ written retriedAt, ∃ retried,
    archiveSpecs platform (crashedSpecs platform specs deltas archivedAt written) deltas retriedAt = some retried ∧
    (∀ capability, (retried.get capability).map unstamped = (archived.get capability).map unstamped) ∧
    (∀ projection ∈ (plannedProjections platform specs deltas archivedAt).take written,
      retried.get projection.capability = some projection.targetSpec) ∧
    (retriedAt = archivedAt → ∀ capability, retried.get capability = archived.get capability)

variable {platform specs deltas archivedAt}

/-! ## The stamp -/

variable {list : List Delta}

theorem plan_unstamped {spec other : Spec} {authority : ProjectionAuthority}
    {projectedAt replannedAt : String} (same : unstamped spec = unstamped other) :
    (planSpecProjection platform spec list authority projectedAt).status =
        (planSpecProjection platform other list authority replannedAt).status ∧
      (planSpecProjection platform spec list authority projectedAt).targetSpec.map unstamped =
        (planSpecProjection platform other list authority replannedAt).targetSpec.map unstamped := by
  obtain ⟨schemaUrl, name, title, purpose, version, updated, requirements, extension⟩ := spec
  obtain ⟨schemaUrl', name', title', purpose', version', updated', requirements', extension'⟩ := other
  simp only [unstamped, Spec.mk.injEq, true_and] at same
  obtain ⟨rfl, rfl, rfl, rfl, rfl, rfl, rfl⟩ := same
  simp only [planSpecProjection]
  split
  · exact ⟨rfl, rfl⟩
  · refine ⟨rfl, ?_⟩
    simp only [Option.map_some, Option.some.injEq]
    split <;> rfl

theorem planCapability_unstamped {other : SpecMap} {capability retriedAt : String}
    (same : specs.get capability = other.get capability) :
    (planCapability platform specs archivedAt capability list).targetSpec.map unstamped =
      (planCapability platform other retriedAt capability list).targetSpec.map unstamped := by
  have bases : unstamped (baseSpec platform specs archivedAt capability) =
      unstamped (baseSpec platform other retriedAt capability) := by
    simp only [baseSpec, same]
    cases other.get capability <;> rfl
  have targets : (planSpecProjection platform (baseSpec platform specs archivedAt capability) list
        .current archivedAt).targetSpec.map unstamped =
      (planSpecProjection platform (baseSpec platform other retriedAt capability) list
        .current retriedAt).targetSpec.map unstamped := (plan_unstamped bases).2
  simp only [planCapability_target, same]
  split
  · -- The version override commutes with forgetting the stamp.
    have commutes : ∀ target : Option Spec, (target.map fun spec => { spec with version := "1.0.0" }).map unstamped =
          (target.map unstamped).map fun spec => { spec with version := "1.0.0" } := by
      intro target
      cases target <;> rfl
    rw [commutes, commutes, targets]
  · exact targets

variable {capability : String}

theorem planCapability_congr {other : SpecMap} (same : specs.get capability = other.get capability) :
    (planCapability platform specs archivedAt capability list).targetSpec =
      (planCapability platform other archivedAt capability list).targetSpec := by
  simp only [planCapability_target, baseSpec, same]

theorem planCapability_existing {spec : Spec} (existing : specs.get capability = some spec) :
    (planCapability platform specs archivedAt capability list).targetSpec =
      (planSpecProjection platform spec list .current archivedAt).targetSpec := by
  rw [planCapability_target]
  simp [existing, baseSpec]

/-! ## After a crash -/

def Reached (platform : Platform) (specs : SpecMap) (deltas : ChangeDeltas)
    (archivedAt capability : String) (written : Nat) : Prop :=
  ∃ projection ∈ (plannedProjections platform specs deltas archivedAt).take written,
    projection.capability = capability

variable {entry : String × List Delta}

theorem crashed_written {written : Nat} (affected : entry ∈ deltas.affected)
    (reached : Reached platform specs deltas archivedAt entry.1 written) :
    (crashedSpecs platform specs deltas archivedAt written).get entry.1 =
      (planCapability platform specs archivedAt entry.1 entry.2).targetSpec := by
  obtain ⟨projection, member, same⟩ := reached
  have planned := List.mem_of_mem_take member
  obtain ⟨found, held, asked, target⟩ := mem_plannedProjections planned
  -- The keys of the change are distinct, so the entry is the projection's own.
  obtain rfl := List.inj_on_of_nodup_map affected_distinct held affected (asked.symm.trans same)
  rw [target, ← same]
  exact writeSpecs_written (fun projection member => planned_name (List.mem_of_mem_take member))
    (planned_distinct.sublist ((List.take_sublist ..).map _)) member

theorem crashed_unwritten {written : Nat}
    (unreached : ¬ Reached platform specs deltas archivedAt capability written) :
    (crashedSpecs platform specs deltas archivedAt written).get capability = specs.get capability := by
  refine writeSpecs_outside fun projection member same => unreached ⟨projection, member, ?_⟩
  exact (planned_name (List.mem_of_mem_take member)).symm.trans same

/-! ## The retry -/

def SpecMap.Distinct (specs : SpecMap) : Prop :=
  ∀ capability spec, specs.get capability = some spec → Archive.Distinct spec.requirements

theorem baseSpec_distinct (distinct : specs.Distinct) (capability : String) :
    Distinct (baseSpec platform specs archivedAt capability).requirements := by
  cases found : specs.get capability with
  | none => simp [baseSpec, found, emptySpecForProjection, Distinct]
  | some spec => simpa [baseSpec, found] using distinct capability spec found

theorem target_retrySafe (distinct : specs.Distinct) {target : Spec}
    (planned : (planCapability platform specs archivedAt entry.1 entry.2).targetSpec = some target) :
    RetrySafe platform target entry.2 ↔ AllCompatible platform entry.2 := by
  rw [planCapability_target] at planned
  simp only at planned
  split at planned
  · obtain ⟨spec, held, rfl⟩ := Option.map_eq_some_iff.mp planned
    exact replan_iff (baseSpec_distinct distinct entry.1) held rfl
  · exact replan_iff (baseSpec_distinct distinct entry.1) planned rfl

theorem replanned_target (distinct : specs.Distinct)
    (affected : entry ∈ deltas.affected) (compatible : AllCompatible platform entry.2) {target : Spec}
    (planned : (planCapability platform specs archivedAt entry.1 entry.2).targetSpec = some target)
    (written : Nat) (retriedAt : String) :
    ∃ again, (planCapability platform (crashedSpecs platform specs deltas archivedAt written)
        retriedAt entry.1 entry.2).targetSpec = some again ∧ unstamped again = unstamped target ∧
      (Reached platform specs deltas archivedAt entry.1 written → again = target) ∧
      (retriedAt = archivedAt → again = target) := by
  by_cases reached : Reached platform specs deltas archivedAt entry.1 written
  · have found := (crashed_written affected reached).trans planned
    have safe := (target_retrySafe distinct planned).mpr compatible
    refine ⟨target, ?_, rfl, fun _ => rfl, fun _ => rfl⟩
    rw [planCapability_existing found]
    exact (safe .current retriedAt).2.2
  · have unchanged := crashed_unwritten reached
    have stamped : (planCapability platform
          (crashedSpecs platform specs deltas archivedAt written) retriedAt entry.1
          entry.2).targetSpec.map unstamped =
        (planCapability platform specs archivedAt entry.1 entry.2).targetSpec.map unstamped :=
      planCapability_unstamped unchanged
    rw [planned, Option.map_some] at stamped
    obtain ⟨again, found, same⟩ := Option.map_eq_some_iff.mp stamped
    refine ⟨again, found, same, fun written => absurd written reached, ?_⟩
    rintro rfl
    rw [planCapability_congr unchanged, planned] at found
    exact (Option.some.inj found).symm

theorem crash_safe {archived : SpecMap} (distinct : specs.Distinct)
    (done : archiveSpecs platform specs deltas archivedAt = some archived)
    (compatible : ∀ entry ∈ deltas.affected, AllCompatible platform entry.2) :
    CrashSafe platform specs deltas archivedAt archived := by
  intro written retriedAt
  obtain ⟨targets, outside⟩ := archived_get done
  have noErrors : archiveErrors platform (crashedSpecs platform specs deltas archivedAt written)
      deltas retriedAt = [] := by
    refine archiveErrors_nil.mpr fun entry affected => ?_
    obtain ⟨_, _, planned⟩ := targets entry affected
    obtain ⟨again, found, _⟩ :=
      replanned_target distinct affected (compatible entry affected) planned written retriedAt
    exact ⟨again, found⟩
  obtain ⟨retried, redone⟩ : ∃ retried, archiveSpecs platform
      (crashedSpecs platform specs deltas archivedAt written) deltas retriedAt = some retried :=
    ⟨_, if_pos noErrors⟩
  obtain ⟨retargets, reoutside⟩ := archived_get redone
  -- An affected capability ends with its replanned target, any other with what it had.
  have ends : ∀ entry ∈ deltas.affected, ∃ target again, archived.get entry.1 = some target ∧
      retried.get entry.1 = some again ∧ unstamped again = unstamped target ∧
      (Reached platform specs deltas archivedAt entry.1 written → again = target) ∧
      (retriedAt = archivedAt → again = target) := by
    intro entry affected
    obtain ⟨target, held, planned⟩ := targets entry affected
    obtain ⟨again, found, same, reached, timely⟩ :=
      replanned_target distinct affected (compatible entry affected) planned written retriedAt
    obtain ⟨final, heldAgain, foundAgain⟩ := retargets entry affected
    obtain rfl := Option.some.inj (foundAgain.symm.trans found)
    exact ⟨target, final, held, heldAgain, same, reached, timely⟩
  have others : ∀ capability, (∀ entry ∈ deltas.affected, entry.1 ≠ capability) →
      retried.get capability = archived.get capability := by
    intro capability unaffected
    rw [reoutside capability unaffected, outside capability unaffected]
    refine crashed_unwritten ?_
    rintro ⟨projection, member, same⟩
    obtain ⟨entry, affected, asked, _⟩ := mem_plannedProjections (List.mem_of_mem_take member)
    exact unaffected entry affected (asked.symm.trans same)
  refine ⟨retried, redone, ?_, ?_, ?_⟩
  · intro capability
    by_cases affected : ∃ entry ∈ deltas.affected, entry.1 = capability
    · obtain ⟨entry, member, rfl⟩ := affected
      obtain ⟨target, again, held, heldAgain, same, _⟩ := ends entry member
      rw [held, heldAgain, Option.map_some, Option.map_some, same]
    · rw [others capability fun entry member same => affected ⟨entry, member, same⟩]
  · intro projection member
    obtain ⟨entry, affected, asked, planned⟩ :=
      mem_plannedProjections (List.mem_of_mem_take member)
    obtain ⟨target, again, held, heldAgain, _, reached, _⟩ := ends entry affected
    obtain ⟨found, heldFound, plannedFound⟩ := targets entry affected
    rw [asked, heldAgain, reached ⟨projection, member, asked⟩]
    exact (held.symm.trans heldFound).trans (plannedFound.symm.trans planned)
  · intro timely capability
    by_cases affected : ∃ entry ∈ deltas.affected, entry.1 = capability
    · obtain ⟨entry, member, rfl⟩ := affected
      obtain ⟨target, again, held, heldAgain, _, _, same⟩ := ends entry member
      rw [held, heldAgain, same timely]
    · exact others capability fun entry member same => affected ⟨entry, member, same⟩

/-- An archive that planned every capability is a fixed point of its own retry, from every crash
    point, exactly when the deltas of each capability are compatible. -/
theorem archive_retry_iff {archived : SpecMap} (distinct : specs.Distinct)
    (done : archiveSpecs platform specs deltas archivedAt = some archived) :
    (FixedPoint platform specs deltas archivedAt ∧ CrashSafe platform specs deltas archivedAt archived) ↔
      ∀ entry ∈ deltas.entries, AllCompatible platform entry.2 := by
  constructor
  · rintro ⟨fixed, _⟩ entry member
    by_cases empty : entry.2.length = 0
    · rw [List.length_eq_zero_iff.mp empty]
      exact fun _ none => nomatch none
    · have affected : entry ∈ deltas.affected := List.mem_filter.mpr ⟨member, by simpa using empty⟩
      obtain ⟨target, _, planned⟩ := (archived_get done).1 entry affected
      exact (target_retrySafe distinct planned).mp (fixed entry affected target planned)
  · intro compatible
    have ofAffected : ∀ entry ∈ deltas.affected, AllCompatible platform entry.2 :=
      fun entry affected => compatible entry (List.mem_of_mem_filter affected)
    refine ⟨fun entry affected target planned => ?_, crash_safe distinct done ofAffected⟩
    exact (target_retrySafe distinct planned).mpr (ofAffected entry affected)

end

/-! ## Fixed runs -/

def plainPlatform (sha256 : JsVal → SHA256Digest) : Platform where
  localeCompare := fun left right => compare left right
  sha256 := sha256
  numerals :=
    { Value := Option Nat, number := String.toNat?, isNaN := Option.isNone
      plusOne := Option.map (· + 1), text := fun value => (value.map toString).getD "NaN" }
  toUpperCase := String.toUpper
  isoDay := fun text => some (text.take 10).toString

def noDigest : SHA256Digest :=
  ⟨"0000000000000000000000000000000000000000000000000000000000000000", by decide_cbv⟩

def replacedRequirement (body : String) : Requirement where
  id := "rq-search01"
  title := "Search"
  body := body
  priority := .must
  tags := none
  scenarios := none
  metadata := none
  extension := .empty

def searchSpec (body : String) : Spec where
  schemaUrl := none
  name := "search"
  title := "Search"
  purpose := "Find things"
  version := "1.2.3"
  updated_at := "2026-01-01T00:00:00.000Z"
  requirements := [replacedRequirement body]
  extension := .empty

def replacement : List Delta :=
  [.remove ⟨"dl-old", "rq-search01", "superseded", none⟩,
    .add ⟨"dl-new", replacedRequirement "Search by name and tag"⟩]

def replacingDeltas : ChangeDeltas := ⟨[("search", replacement)], List.nodup_singleton _⟩

theorem body_nonempty (body : String) : (DeltaModifyChanges.mk none (some body) none none none).entries ≠ [] := by
  simp [DeltaModifyChanges.entries, DeltaModifyChanges.expected, modifyFields]

theorem body_parented (target body : String) :
    ∀ scenarios ∈ (DeltaModifyChanges.mk none (some body) none none none).scenarios, ∀ scenario ∈ scenarios,
      (target ++ ".").toList <+: scenario.id.toList := by
  intro scenarios absent
  cases absent

def modifyingDeltas : ChangeDeltas where
  entries := [("search",
    [.modify { id := "dl-title", target_id := "rq-search01", precondition := none
               changes := ⟨some "Search", none, none, none, none⟩
               nonempty := by decide, parented := fun _ none => nomatch none },
      .modify { id := "dl-body", target_id := "rq-search01", precondition := none
                changes := ⟨none, some "Search by tag", none, none, none⟩
                nonempty := by decide, parented := fun _ none => nomatch none }])]
  distinct := by decide

def searchSpecs : SpecMap where
  get := fun capability => if capability = "search" then some (searchSpec "Search by name") else none
  named := by
    intro capability spec held
    split at held
    next same => rw [← Option.some.inj held, same]; rfl
    next => cases held

theorem searchSpecs_distinct : searchSpecs.Distinct := by
  intro capability spec held
  simp only [searchSpecs] at held
  split at held
  · rw [← Option.some.inj held]
    exact List.nodup_singleton _
  · cases held

/-- The validator lets a change replace a requirement by removing and adding it, and the archive
    applies it; planned again, both deltas are applied once more. -/
theorem replaced_requirement_not_fixed :
    Validator.Accepted (Validator.runConflictChecks ⟨"replaceSearch", replacingDeltas⟩
      (Validator.buildValidationContext [searchSpec "Search by name"] none none)) ∧ searchSpecs.Distinct ∧
    archiveErrors (plainPlatform fun _ => noDigest) searchSpecs replacingDeltas
      "2026-02-01T00:00:00.000Z" = [] ∧ ¬ FixedPoint (plainPlatform fun _ => noDigest) searchSpecs replacingDeltas
      "2026-02-01T00:00:00.000Z" := by
  refine ⟨by decide, searchSpecs_distinct, by rfl, fun fixed => ?_⟩
  have replayed : ((planCapability (plainPlatform fun _ => noDigest) searchSpecs
      "2026-02-01T00:00:00.000Z" "search" replacement).targetSpec.map fun target =>
      (planSpecProjection (plainPlatform fun _ => noDigest) target replacement .current
        "2026-03-01T00:00:00.000Z").dispositions.map DeltaProjectionDisposition.status) =
      some [.missing, .missing] := by rfl
  obtain ⟨target, planned, statuses⟩ := Option.map_eq_some_iff.mp replayed
  obtain ⟨_, unneeded, _⟩ := fixed ("search", replacement) List.mem_cons_self target planned .current
    "2026-03-01T00:00:00.000Z"
  have first : DispositionStatus.missing ∈ (planSpecProjection (plainPlatform fun _ => noDigest)
      target replacement .current "2026-03-01T00:00:00.000Z").dispositions.map DeltaProjectionDisposition.status := by
    rw [statuses]
    exact List.mem_cons_self
  obtain ⟨row, member, missing⟩ := List.mem_map.mp first
  have found : row.status = .identical := unneeded row member
  rw [missing] at found
  cases found

/-- Two deltas that set different fields of one requirement. -/
theorem modified_requirement_fixed :
    ∃ archived, archiveSpecs (plainPlatform fun _ => noDigest) searchSpecs modifyingDeltas
        "2026-02-01T00:00:00.000Z" = some archived ∧
      FixedPoint (plainPlatform fun _ => noDigest) searchSpecs modifyingDeltas "2026-02-01T00:00:00.000Z" ∧
      CrashSafe (plainPlatform fun _ => noDigest) searchSpecs modifyingDeltas
        "2026-02-01T00:00:00.000Z" archived := by
  have noErrors : archiveErrors (plainPlatform fun _ => noDigest) searchSpecs modifyingDeltas
      "2026-02-01T00:00:00.000Z" = [] := by rfl
  refine ⟨_, if_pos noErrors, ?_⟩
  exact (archive_retry_iff searchSpecs_distinct (if_pos noErrors)).mpr (by decide)

end Advance.Archive
