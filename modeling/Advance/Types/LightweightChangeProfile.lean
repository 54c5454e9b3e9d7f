import Mathlib.Data.List.Basic

/-! # The lightweight profile of a change

Six criteria over a snapshot of evidence, and the evaluation that is made of them.  A snapshot has the
types of its schema, so the checks for malformed evidence never apply to it.
-/

namespace Advance.Types

/-! ## Evidence -/

inductive LightweightProfileCriterionId where
  | implementation_task_count
  | changed_file_count
  | spec_delta
  | dependency_change
  | api_compatibility
  | repository_scope
  deriving DecidableEq

inductive LightweightProfileCriterionStatus where
  | satisfied
  | failed
  | unknown
  deriving DecidableEq

structure TaskCount where
  total : Nat
  implementation : Nat
  deriving DecidableEq

inductive RangeStatus where
  | complete
  | incomplete_rev_parse
  | incomplete_diff
  | incomplete_status
  deriving DecidableEq

def RangeStatus.text : RangeStatus → String
  | complete => "complete"
  | incomplete_rev_parse => "incomplete_rev_parse"
  | incomplete_diff => "incomplete_diff"
  | incomplete_status => "incomplete_status"

structure ChangedPathsEvidence where
  count : Nat
  paths : List (List Char)
  renames : Nat
  deletions : Nat
  untrackedCount : Nat
  rangeStatus : RangeStatus
  deriving DecidableEq

structure SpecDeltaEvidence where
  hasDelta : Bool
  capabilities : List String
  deriving DecidableEq

structure DependencyChangeEvidence where
  hasDependencyChange : Bool
  manifests : List (List Char)
  deriving DecidableEq

inductive PublicSurface where
  | provenPrivate
  | publicImpact
  | unknown
  | graphFailure
  | policyAbsent
  deriving DecidableEq

structure ApiCompatibility where
  publicSurface : PublicSurface
  publicRoots : List (List Char)
  deriving DecidableEq

structure RepoScope where
  currentProjectOnly : Bool
  scopeRepos : Nat
  deriving DecidableEq

structure LightweightProfileEvidenceSnapshot where
  projectId : String
  baselineRevision : String
  observedRevision : String
  fingerprint : String
  taskCount : TaskCount
  changedPaths : ChangedPathsEvidence
  specDelta : SpecDeltaEvidence
  dependencyChange : DependencyChangeEvidence
  apiCompatibility : ApiCompatibility
  repoScope : RepoScope
  deriving DecidableEq

/-! ## Records -/

structure LightweightProfileCriterionRecord where
  criterion : LightweightProfileCriterionId
  status : LightweightProfileCriterionStatus
  reason : String
  deriving DecidableEq

inductive LightweightProfileResult where
  | qualified
  | ineligible
  | downgraded
  deriving DecidableEq

inductive LightweightProfilePhase where
  | initial
  | execution_boundary
  | acceptance_boundary
  deriving DecidableEq

def LightweightProfilePhase.text : LightweightProfilePhase → String
  | initial => "initial"
  | execution_boundary => "execution_boundary"
  | acceptance_boundary => "acceptance_boundary"

structure LightweightProfileEvaluation where
  evaluationKey : String
  phase : LightweightProfilePhase
  result : LightweightProfileResult
  criteria : List LightweightProfileCriterionRecord
  evidenceFingerprint : String
  observedRevision : String
  evaluatedAt : String
  downgradeReason : Option String
  deriving DecidableEq

structure LightweightProfileRequest where
  requestId : String
  baselineRevision : String
  deriving DecidableEq

structure LightweightChangeProfile where
  request : LightweightProfileRequest
  evaluations : List LightweightProfileEvaluation
  deriving DecidableEq

def buildLightweightProfileEvaluationKey (requestId : String) (phase : LightweightProfilePhase)
    (fingerprint : String) : String :=
  s!"{requestId}:{phase.text}:{fingerprint}"

def CRITERION_ORDER : List LightweightProfileCriterionId :=
  [.implementation_task_count, .changed_file_count, .spec_delta, .dependency_change, .api_compatibility,
    .repository_scope]

/-! ## The criteria -/

/-- `texts.join(", ") || otherwise` -/
def joinedOr (texts : List String) (otherwise : String) : String :=
  if ", ".intercalate texts = "" then otherwise else ", ".intercalate texts

def evaluateTaskCount (taskCount : TaskCount) : LightweightProfileCriterionRecord :=
  if taskCount.implementation = 1 ∧ taskCount.total ≤ 2 then
    ⟨.implementation_task_count, .satisfied, s!"Exactly one implementation task ({taskCount.total} total)"⟩
  else
    ⟨.implementation_task_count, .failed, s!"Expected one implementation task and at most two total, got " ++
      s!"{taskCount.implementation} implementation / {taskCount.total} total"⟩

def evaluateChangedPaths (changedPaths : ChangedPathsEvidence) : LightweightProfileCriterionRecord :=
  if changedPaths.rangeStatus ≠ .complete then
    ⟨.changed_file_count, .failed, s!"Changed-path evidence is incomplete ({changedPaths.rangeStatus.text}); " ++
      "complete range cannot be trusted"⟩
  else if 0 < changedPaths.untrackedCount then
    ⟨.changed_file_count, .failed, s!"Untracked paths present ({changedPaths.untrackedCount}); " ++
      "complete range cannot be trusted"⟩
  else
    let effectiveCount := changedPaths.count + changedPaths.renames + changedPaths.deletions
    if 2 < effectiveCount then
      ⟨.changed_file_count, .failed, s!"More than two changed paths including renames/deletions ({effectiveCount})"⟩
    else
      ⟨.changed_file_count, .satisfied,
        s!"At most two changed paths across complete range ({effectiveCount} effective)"⟩

def evaluateSpecDelta (specDelta : SpecDeltaEvidence) : LightweightProfileCriterionRecord :=
  if specDelta.hasDelta then
    ⟨.spec_delta, .failed, "Spec delta present under " ++ joinedOr specDelta.capabilities "unknown capability"⟩
  else ⟨.spec_delta, .satisfied, "No spec delta present"⟩

def evaluateDependencyChange (dependencyChange : DependencyChangeEvidence) : LightweightProfileCriterionRecord :=
  if dependencyChange.hasDependencyChange then
    ⟨.dependency_change, .failed, "Dependency manifest/lockfile changes present (" ++
      joinedOr (dependencyChange.manifests.map String.ofList) "unknown" ++ ")"⟩
  else ⟨.dependency_change, .satisfied, "No dependency manifest or lockfile changes"⟩

def evaluateApiCompatibility (apiCompatibility : ApiCompatibility) : LightweightProfileCriterionRecord :=
  match apiCompatibility.publicSurface with
  | .provenPrivate =>
    ⟨.api_compatibility, .satisfied, "Changed paths are proven private by public-root reachability policy"⟩
  | .publicImpact => ⟨.api_compatibility, .failed, "Changed paths reach or alter a public interface"⟩
  | .graphFailure =>
    ⟨.api_compatibility, .failed, "Public-surface reachability graph could not be evaluated"⟩
  | .policyAbsent => ⟨.api_compatibility, .failed, "No public-root reachability policy is configured"⟩
  | .unknown => ⟨.api_compatibility, .unknown, "Public-surface impact is unknown"⟩

def evaluateRepoScope (repoScope : RepoScope) : LightweightProfileCriterionRecord :=
  if repoScope.currentProjectOnly ∧ repoScope.scopeRepos ≤ 1 then
    ⟨.repository_scope, .satisfied, "Current project only"⟩
  else
    ⟨.repository_scope, .failed, s!"Scope spans {repoScope.scopeRepos} repo(s); cross-repo scope is not eligible"⟩

def evaluateCriterion (id : LightweightProfileCriterionId) (snapshot : LightweightProfileEvidenceSnapshot) :
    LightweightProfileCriterionRecord :=
  match id with
  | .implementation_task_count => evaluateTaskCount snapshot.taskCount
  | .changed_file_count => evaluateChangedPaths snapshot.changedPaths
  | .spec_delta => evaluateSpecDelta snapshot.specDelta
  | .dependency_change => evaluateDependencyChange snapshot.dependencyChange
  | .api_compatibility => evaluateApiCompatibility snapshot.apiCompatibility
  | .repository_scope => evaluateRepoScope snapshot.repoScope

/-! ## The evaluation -/

def evaluateCriteria (snapshot : LightweightProfileEvidenceSnapshot) : List LightweightProfileCriterionRecord :=
  CRITERION_ORDER.map fun id => evaluateCriterion id snapshot

def allSatisfied (snapshot : LightweightProfileEvidenceSnapshot) : Bool :=
  (evaluateCriteria snapshot).all fun record => record.status = .satisfied

structure EvaluateLightweightProfileInput where
  snapshot : LightweightProfileEvidenceSnapshot
  requestId : String
  phase : LightweightProfilePhase
  evaluatedAt : String
  previousResult : Option LightweightProfileResult
  evaluationKey : Option String

def evaluateLightweightProfile (input : EvaluateLightweightProfileInput) : LightweightProfileEvaluation :=
  let downgraded := input.previousResult = some .qualified ∧ ¬ allSatisfied input.snapshot
  { evaluationKey := input.evaluationKey.getD
      (buildLightweightProfileEvaluationKey input.requestId input.phase input.snapshot.fingerprint)
    phase := input.phase
    result := if downgraded then .downgraded else if allSatisfied input.snapshot then .qualified else .ineligible
    criteria := evaluateCriteria input.snapshot
    evidenceFingerprint := input.snapshot.fingerprint
    observedRevision := input.snapshot.observedRevision
    evaluatedAt := input.evaluatedAt
    downgradeReason :=
      if downgraded then some s!"Revalidation at {input.phase.text} failed after previous qualification" else none }

/-! ## What it takes to qualify -/

section

variable {snapshot : LightweightProfileEvidenceSnapshot}

theorem evaluateTaskCount_satisfied {taskCount : TaskCount} :
    (evaluateTaskCount taskCount).status = .satisfied ↔ taskCount.implementation = 1 ∧ taskCount.total ≤ 2 := by
  unfold evaluateTaskCount
  split
  next within => exact iff_of_true rfl within
  next exceeds => exact iff_of_false nofun exceeds

theorem evaluateChangedPaths_satisfied {changedPaths : ChangedPathsEvidence} :
    (evaluateChangedPaths changedPaths).status = .satisfied ↔
      changedPaths.rangeStatus = .complete ∧ changedPaths.untrackedCount = 0 ∧
        changedPaths.count + changedPaths.renames + changedPaths.deletions ≤ 2 := by
  unfold evaluateChangedPaths
  split
  next incomplete => exact iff_of_false nofun fun satisfied => incomplete satisfied.1
  next complete =>
    have complete : changedPaths.rangeStatus = .complete := not_not.mp complete
    split
    next untracked => exact iff_of_false nofun fun satisfied => by omega
    next tracked =>
      dsimp only
      split
      next exceeds => exact iff_of_false nofun fun satisfied => by omega
      next within => exact iff_of_true rfl ⟨complete, by omega, by omega⟩

theorem evaluateApiCompatibility_satisfied {apiCompatibility : ApiCompatibility} :
    (evaluateApiCompatibility apiCompatibility).status = .satisfied ↔
      apiCompatibility.publicSurface = .provenPrivate := by
  unfold evaluateApiCompatibility
  cases apiCompatibility.publicSurface <;> simp

theorem evaluateRepoScope_satisfied {repoScope : RepoScope} : (evaluateRepoScope repoScope).status = .satisfied ↔
      repoScope.currentProjectOnly = true ∧ repoScope.scopeRepos ≤ 1 := by
  unfold evaluateRepoScope
  split
  next within => exact iff_of_true rfl within
  next exceeds => exact iff_of_false nofun exceeds

/-- All criteria hold: one implementation task of at most two, at most two paths in a complete range without
    untracked ones, no delta, no dependency change, a proven private surface and a single repository. -/
theorem allSatisfied_iff : allSatisfied snapshot = true ↔
    (snapshot.taskCount.implementation = 1 ∧ snapshot.taskCount.total ≤ 2) ∧
      (snapshot.changedPaths.rangeStatus = .complete ∧ snapshot.changedPaths.untrackedCount = 0 ∧
        snapshot.changedPaths.count + snapshot.changedPaths.renames + snapshot.changedPaths.deletions ≤ 2) ∧
      snapshot.specDelta.hasDelta = false ∧ snapshot.dependencyChange.hasDependencyChange = false ∧
      snapshot.apiCompatibility.publicSurface = .provenPrivate ∧
      (snapshot.repoScope.currentProjectOnly = true ∧ snapshot.repoScope.scopeRepos ≤ 1) := by
  have noDelta : (evaluateSpecDelta snapshot.specDelta).status = .satisfied ↔
      snapshot.specDelta.hasDelta = false := by
    unfold evaluateSpecDelta
    cases snapshot.specDelta.hasDelta <;> simp
  have noChange : (evaluateDependencyChange snapshot.dependencyChange).status = .satisfied ↔
      snapshot.dependencyChange.hasDependencyChange = false := by
    unfold evaluateDependencyChange
    cases snapshot.dependencyChange.hasDependencyChange <;> simp
  rw [← evaluateTaskCount_satisfied, ← evaluateChangedPaths_satisfied, ← evaluateApiCompatibility_satisfied,
    ← evaluateRepoScope_satisfied, ← noDelta, ← noChange]
  simp [allSatisfied, evaluateCriteria, CRITERION_ORDER, evaluateCriterion]

theorem evaluateLightweightProfile_qualified {input : EvaluateLightweightProfileInput} :
    (evaluateLightweightProfile input).result = .qualified ↔ allSatisfied input.snapshot = true := by
  unfold evaluateLightweightProfile
  cases allSatisfied input.snapshot
  · by_cases previous : input.previousResult = some .qualified <;> simp [previous]
  · simp

end

end Advance.Types
