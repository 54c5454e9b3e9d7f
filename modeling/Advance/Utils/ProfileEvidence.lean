import Advance.Foundation.JsonText
import Advance.JavaScript.CodeUnits
import Advance.Types.ChangeState
import Advance.Utils.ImportGraph

/-! # Evidence for a lightweight profile

What is collected from git, from the files and from the change to make a snapshot.
-/

namespace Advance.Utils

open Advance.Foundation Advance.JavaScript Advance.Types

/-! ## What is read -/

/-- The answers of git to its commands, and the files they are about. -/
structure Workspace where
  tree : RepoTree
  git : List String → Except String (List Char)

/-- The parts of a change the evidence is taken from. -/
structure ChangeFacts where
  /-- The `type` of each task. -/
  tasks : List (Option TaskType)
  /-- The number of deltas under each capability. -/
  deltas : List (String × Nat)
  scope_repos : Option (List String)
  deriving DecidableEq

/-! ## Changed paths in git -/

structure GitDiffEntry where
  status : List Char
  path : List Char
  originalPath : Option (List Char)
  score : Option (List Char)
  deriving DecidableEq

structure GitStatusEntry where
  code : List Char
  path : List Char
  originalPath : Option (List Char)
  deriving DecidableEq

def isRenameOrCopy (text : List Char) : Bool := text.head? = some 'R' || text.head? = some 'C'

def parseGitDiffNameStatus (stdout : List Char) : List GitDiffEntry :=
  (stdout.splitOn '\n').filterMap fun line =>
    let trimmed := trim line
    if trimmed.isEmpty then none
    else
      match isRenameOrCopy trimmed, trimmed.splitOn '\t' with
      | true, status :: original :: path :: _ => some ⟨status, path, some original, some status.tail⟩
      | true, _ => none
      | false, status :: path :: _ => some ⟨status, path, none, none⟩
      | false, _ => none

/-- `" -> "` -/
def arrow : List Char := " -> ".toList

def aroundArrow (text : List Char) : Option (List Char × List Char) :=
  match (Pattern.word (fun own other => own = other) arrow).cut text with
  | before :: after :: _ => some (before, after)
  | _ => none

def parseGitStatusPorcelain (stdout : List Char) : List GitStatusEntry :=
  (stdout.splitOn '\n').filterMap fun line =>
    if line.isEmpty then none
    else
      match aroundArrow (line.drop 3) with
      | some (originalPath, newPath) => some ⟨line.take 2, newPath, some originalPath⟩
      | none => some ⟨line.take 2, line.drop 3, none⟩

structure GitEvidence where
  observedRevision : Option (List Char)
  diffEntries : List GitDiffEntry
  statusEntries : List GitStatusEntry
  rangeStatus : RangeStatus

def collectGitEvidence (workspace : Workspace) (baselineRevision : String) : GitEvidence :=
  let observedRevision := (workspace.git ["rev-parse", "HEAD"]).toOption.bind fun stdout =>
    if (trim stdout).isEmpty then none else some (trim stdout)
  let diff := (workspace.git ["diff", "--name-status", "--find-renames", s!"{baselineRevision}..HEAD"]).toOption
  let status := (workspace.git ["status", "--porcelain"]).toOption
  { observedRevision := observedRevision
    diffEntries := (diff.map parseGitDiffNameStatus).getD []
    statusEntries := (status.map parseGitStatusPorcelain).getD []
    rangeStatus :=
      if observedRevision.isNone then .incomplete_rev_parse
      else if diff.isNone then .incomplete_diff
      else if status.isNone then .incomplete_status
      else .complete }

/-! ## Merging -/

structure MergedPaths where
  paths : List (List Char)
  renames : Nat
  deletions : Nat
  untrackedCount : Nat

def mergeDiffEntry (merged : MergedPaths) (entry : GitDiffEntry) : MergedPaths :=
  if isRenameOrCopy entry.status then
    { merged with
      paths := merged.paths ++ entry.path :: (entry.originalPath.filter fun path => !path.isEmpty).toList
      renames := merged.renames + 1 }
  else if entry.status = ['D'] then
    { merged with paths := merged.paths ++ [entry.path], deletions := merged.deletions + 1 }
  else { merged with paths := merged.paths ++ [entry.path] }

/-- A letter in one of the two columns. -/
def GitStatusEntry.hasLetter (entry : GitStatusEntry) (letter : Char) : Bool :=
  entry.code[0]? = some letter || entry.code[1]? = some letter

def mergeStatusEntry (diffEntries : List GitDiffEntry) (merged : MergedPaths) (entry : GitStatusEntry) :
    MergedPaths :=
  let known := diffEntries.any fun diff => diff.path = entry.path
  let added := merged.paths ++ [entry.path]
  if entry.code = ['?', '?'] then
    { merged with paths := added, untrackedCount := merged.untrackedCount + 1 }
  else if entry.hasLetter 'R' then
    { merged with paths := added, renames := if known then merged.renames else merged.renames + 1 }
  else if entry.hasLetter 'D' then
    { merged with paths := added, deletions := if known then merged.deletions else merged.deletions + 1 }
  else if entry.hasLetter 'M' || entry.hasLetter 'A' then { merged with paths := added }
  else merged

def mergeGitEvidenceIntoChangedPaths (diffEntries : List GitDiffEntry) (statusEntries : List GitStatusEntry)
    (rangeStatus : RangeStatus) : ChangedPathsEvidence :=
  let merged := statusEntries.foldl (mergeStatusEntry diffEntries) (diffEntries.foldl mergeDiffEntry ⟨[], 0, 0, 0⟩)
  let paths := distinctOf merged.paths
  { count := paths.length
    paths := paths.insertionSort unitsBefore
    renames := merged.renames
    deletions := merged.deletions
    untrackedCount := merged.untrackedCount
    rangeStatus := rangeStatus }

/-! ## Facts -/

def DEPENDENCY_MANIFEST_BASENAMES : List String :=
  ["package.json", "pnpm-lock.yaml", "pnpm-workspace.yaml", "package-lock.json", "yarn.lock", "bun.lock",
    "bun.lockb", "Cargo.toml", "Cargo.lock", "go.mod", "go.sum", "pyproject.toml", "poetry.lock",
    "requirements.txt", "Pipfile", "Pipfile.lock", "Gemfile", "Gemfile.lock", "composer.json", "composer.lock",
    "mix.exs", "mix.lock", "pom.xml", "build.gradle", "build.gradle.kts", "settings.gradle",
    "settings.gradle.kts", "gradle.lockfile"]

/-- `basename(path)`: the last name, slashes at the end ignored. -/
def basenameOf (path : List Char) : List Char := ((pathNames path).filter fun name => !name.isEmpty).getLastD []

def isDependencyManifest (path : List Char) : Bool :=
  DEPENDENCY_MANIFEST_BASENAMES.any fun name => name.toList = basenameOf path

def isSpecLawPath (path : List Char) : Bool := ".adv/specs/".toList.isPrefixOf path

def dependencyChangeOf (paths : List (List Char)) : DependencyChangeEvidence :=
  ⟨paths.any isDependencyManifest, paths.filter isDependencyManifest⟩

def specDeltaOf (paths : List (List Char)) : SpecDeltaEvidence :=
  { hasDelta := paths.any isSpecLawPath
    capabilities := distinctOf ((paths.filter isSpecLawPath).map fun path =>
      ((path.splitOn '/')[2]?.map String.ofList).getD "unknown") }

def extractTaskFacts (change : Option ChangeFacts) : TaskCount :=
  match change with
  | none => ⟨0, 0⟩
  | some change =>
    ⟨change.tasks.length, change.tasks.countP fun type => type = some .code || type = some .verification⟩

def extractDeltaFacts (change : Option ChangeFacts) : SpecDeltaEvidence :=
  match change with
  | none => ⟨false, []⟩
  | some change =>
    let capabilities := (change.deltas.filter fun entry => 0 < entry.2).map Prod.fst
    ⟨!capabilities.isEmpty, capabilities⟩

def extractScopeFacts (change : Option ChangeFacts) : RepoScope :=
  match (change.bind ChangeFacts.scope_repos).getD [] with
  | [] => ⟨true, 1⟩
  | repos => ⟨repos.length ≤ 1, repos.length⟩

/-! ## The snapshot -/

section

variable (sha256 : List Char → String)

/-- The text that the hash is updated with. -/
def fingerprintText (tree : RepoTree) (observedRevision : Option (List Char)) (baselineRevision : String)
    (changedPaths : ChangedPathsEvidence) : List Char :=
  observedRevision.getD "unknown".toList ++ baselineRevision.toList ++
    (Json.list (changedPaths.paths.map fun path => .text (String.ofList path))).print ++
    (toString changedPaths.renames).toList ++ (toString changedPaths.deletions).toList ++
    (toString changedPaths.untrackedCount).toList ++ changedPaths.rangeStatus.text.toList ++
    changedPaths.paths.flatMap fun path => path ++ (tree.readFile (joinFrom tree.workdir path)).getD []

def computeFingerprint (tree : RepoTree) (observedRevision : Option (List Char)) (baselineRevision : String)
    (changedPaths : ChangedPathsEvidence) : String :=
  sha256 (fingerprintText tree observedRevision baselineRevision changedPaths)

structure CollectLightweightProfileEvidenceInput where
  projectId : String
  baselineRevision : String
  apiCompatibilityPolicy : Option PublicRootPolicy

def collectLightweightProfileEvidence (input : CollectLightweightProfileEvidenceInput) (workspace : Workspace)
    (loaded : Option ChangeFacts) : LightweightProfileEvidenceSnapshot :=
  let gitEvidence := collectGitEvidence workspace input.baselineRevision
  let changedPaths := mergeGitEvidenceIntoChangedPaths gitEvidence.diffEntries gitEvidence.statusEntries
    gitEvidence.rangeStatus
  let specDelta := specDeltaOf changedPaths.paths
  { projectId := input.projectId
    baselineRevision := input.baselineRevision
    observedRevision := String.ofList (gitEvidence.observedRevision.getD "unknown".toList)
    fingerprint := computeFingerprint sha256 workspace.tree gitEvidence.observedRevision input.baselineRevision
      changedPaths
    taskCount := extractTaskFacts loaded
    changedPaths := changedPaths
    -- changed spec files in git override the deltas of the change
    specDelta := if specDelta.hasDelta then specDelta else extractDeltaFacts loaded
    dependencyChange := dependencyChangeOf changedPaths.paths
    apiCompatibility := evaluateApiCompatibility workspace.tree changedPaths.paths input.apiCompatibilityPolicy
    repoScope := extractScopeFacts loaded }

end

end Advance.Utils
