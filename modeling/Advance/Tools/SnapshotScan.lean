import Advance.JavaScript.Value
import Advance.Utils.SyntheticFixtureDetector
import Mathlib.Data.List.Basic

/-! # Snapshot repair

`scanSnapshotHealth` finds what is broken in the snapshot repositories, and `executeRepair` deletes it later on.
-/

namespace Advance.Tools

open Advance.JavaScript Advance.Utils

def STALE_LOCK_THRESHOLD_MS : JsNumber := 300000

def OVERSIZED_THRESHOLD_BYTES : Nat := 100 * 1024 * 1024

def FSCK_SKIP_THRESHOLD_BYTES : Nat := 500 * 1024 * 1024

def MAX_FSCK_ERRORS_PER_REPO : Nat := 10

inductive SnapshotFindingPattern where
  | staleLock
  | zeroByteObject
  | fsckError
  | orphanBareRepo
  | oversizedDir
  | legacyLayout
  | noSnapshotDirs

inductive RepairAction where
  | deleteStaleLocks
  | deleteZeroByteObjects
  | deleteOrphanBareRepos
  | deleteFsckCorruptRepos
  deriving DecidableEq

/-- A finding, with the members of its metadata that a repair reads. -/
structure SnapshotFinding where
  pattern : SnapshotFindingPattern
  project_id : String
  bare_repo_path : String
  remediation : Option RepairAction
  lock_path : String
  object_path : String

inductive LsofAnswer where
  | holder (pid : String)
  | nobody
  | unknownNoLsof

/-- The store at a moment, and what lsof, git and the record of a project answer about it.  `access` fails for what is
    not there, and may fail for what is. -/
structure SnapshotMoment where
  now : JsNumber
  mtime : String → Option JsNumber
  held : String → Bool
  lsof : String → LsofAnswer
  size : String → Option Nat
  worktree : String → Option String
  recordReadable : String → Bool
  present : String → Bool
  accessFails : String → Bool
  fsckOutput : String → Option (List Char)
  corrupt : String → Bool

/-! ## What is asked about the store -/

/-- `toLowerCase`, as far as it decides which ASCII words are in a text: of the other letters the Kelvin sign alone
    becomes one of them. -/
def lowered (c : Char) : Char := if c.toNat = 0x212A then 'k' else c.toLower

def isFsckError (line : List Char) : Bool :=
  !line.isEmpty && !"notice:".toList.isPrefixOf line &&
    ["error:", "fatal:", "missing", "corrupt", "broken"].any fun word =>
      (line.map lowered).tails.any fun rest => word.toList.isPrefixOf rest

namespace SnapshotMoment

variable (moment : SnapshotMoment)

/-- Git that cannot be started prints nothing. -/
def runFsck (repoPath : String) : List (List Char) :=
  match moment.fsckOutput repoPath with
  | none => []
  | some output => (((output.splitOn '\n').map trim).filter isFsckError).take MAX_FSCK_ERRORS_PER_REPO

def resolveWorktreePath (projectId : String) : Option String :=
  if moment.recordReadable projectId then moment.worktree projectId else none

def pathExists (path : String) : Bool := moment.present path && !moment.accessFails path

end SnapshotMoment

/-! ## The scan -/

/-- A repository: its files in the order of the walk, and the files under each directory of `objects`. -/
structure RepoDir where
  path : String
  files : List String
  objects : List (String × List String)
  size : Nat

/-- A directory of the snapshot root, which is a repository itself or holds some. -/
structure ProjectDir where
  id : String
  path : String
  legacy : Option RepoDir
  repos : List RepoDir

section

variable (moment : SnapshotMoment) (projectId : String) (repo : RepoDir)

def staleLocks : List SnapshotFinding :=
  (repo.files.filter fun file => ".lock".toList.isSuffixOf file.toList).filterMap fun lockPath =>
    match moment.mtime lockPath with
    | none => none
    | some mtime =>
      if STALE_LOCK_THRESHOLD_MS < moment.now - mtime then
        match moment.lsof lockPath with
        | .holder _ => none
        | .nobody | .unknownNoLsof =>
          some ⟨.staleLock, projectId, repo.path, some .deleteStaleLocks, lockPath, ""⟩
      else none

def isObjectName (name : String) : Bool :=
  38 ≤ name.length && name.toList.all fun c => c.isDigit || ('a' ≤ c && c ≤ 'f')

def zeroByteObjects : List SnapshotFinding :=
  (repo.objects.filter fun shard => shard.1.length = 2).flatMap fun shard =>
    (shard.2.filter isObjectName).filterMap fun name =>
      let objectPath := repo.path ++ "/objects/" ++ shard.1 ++ "/" ++ name
      if moment.size objectPath = some 0 then
        some ⟨.zeroByteObject, projectId, repo.path, some .deleteZeroByteObjects, "", objectPath⟩
      else none

def fsckErrors : List SnapshotFinding :=
  if repo.size ≤ FSCK_SKIP_THRESHOLD_BYTES then
    (moment.runFsck repo.path).map fun _ =>
      ⟨.fsckError, projectId, repo.path, some .deleteFsckCorruptRepos, "", ""⟩
  else []

def orphanBareRepo : List SnapshotFinding :=
  match moment.resolveWorktreePath projectId with
  | none => []
  | some worktreePath =>
    if worktreePath ≠ "" ∧ moment.pathExists worktreePath = false then
      [⟨.orphanBareRepo, projectId, repo.path, some .deleteOrphanBareRepos, "", ""⟩]
    else []

def scanBareRepo : List SnapshotFinding :=
  staleLocks moment projectId repo ++ zeroByteObjects moment projectId repo ++
    (if OVERSIZED_THRESHOLD_BYTES < repo.size then [⟨.oversizedDir, projectId, repo.path, none, "", ""⟩] else []) ++
    fsckErrors moment projectId repo ++ orphanBareRepo moment projectId repo

def scanProject (project : ProjectDir) : List SnapshotFinding :=
  match project.legacy with
  | some repo =>
    ⟨.legacyLayout, project.id, project.path, some .deleteOrphanBareRepos, "", ""⟩ ::
      scanBareRepo moment project.id repo
  | none =>
    if project.repos.isEmpty then [⟨.noSnapshotDirs, project.id, project.path, none, "", ""⟩]
    else project.repos.flatMap (scanBareRepo moment project.id)

/-- The scope is one project, or all there are. -/
def scanSnapshotHealth (scope : Option String) (projects : List ProjectDir) : List SnapshotFinding :=
  (projects.filter fun project => scope.all (project.id = ·)).flatMap (scanProject moment)

end

/-! ## The repair -/

structure RepairOptions where
  repairActions : List RepairAction
  dryRun : Bool

inductive RepairStatus where
  | success
  | skipped
  | failed

structure RepairActionRecord where
  action : RepairAction
  target_path : String
  status : RepairStatus
  reason : String

/-- A removal that fails may have removed a part. -/
inductive Removal where
  | done
  | failed (error : String) (partly : Bool)

inductive Deletion where
  | lock (path : String)
  | object (path : String)
  | repo (path projectId : String)

def Deletion.path : Deletion → String
  | .lock path | .object path | .repo path _ => path

/-- The moment a finding's turn comes, and how a removal ends then. -/
structure RepairTurn extends SnapshotMoment where
  removal : Removal

def RepairTurn.removes (turn : RepairTurn) : Bool :=
  match turn.removal with
  | .done | .failed _ true => true
  | .failed _ false => false

abbrev Repaired := (RepairStatus × String) × Option Deletion

section

variable (options : RepairOptions) (finding : SnapshotFinding) (turn : RepairTurn)

def remove (reason : String) (target : Deletion) : Repaired :=
  let deleted := if turn.removes && turn.present target.path then some target else none
  match turn.removal with
  | .done => ((.success, reason), deleted)
  | .failed error _ => ((.failed, error), deleted)

def removeUnlessDryRun (target : Deletion) : Repaired :=
  if options.dryRun then ((.success, "dryRun"), none) else remove turn "" target

def SnapshotFinding.lockPath : String := if finding.lock_path = "" then finding.bare_repo_path else finding.lock_path

def SnapshotFinding.objectPath : String :=
  if finding.object_path = "" then finding.bare_repo_path else finding.object_path

def RepairTurn.worktreeThere : Bool :=
  match turn.resolveWorktreePath finding.project_id with
  | none => false
  | some worktreePath => decide (worktreePath ≠ "") && turn.pathExists worktreePath

def repairBy : RepairAction → Repaired
  | .deleteStaleLocks =>
    match turn.lsof finding.lockPath with
    | .holder pid => ((.skipped, s!"holder reappeared: pid {pid}"), none)
    | .nobody | .unknownNoLsof => removeUnlessDryRun options turn (.lock finding.lockPath)
  | .deleteZeroByteObjects => removeUnlessDryRun options turn (.object finding.objectPath)
  | .deleteOrphanBareRepos =>
    if turn.worktreeThere finding then ((.skipped, "worktree reappeared"), none)
    else removeUnlessDryRun options turn (.repo finding.bare_repo_path finding.project_id)
  | .deleteFsckCorruptRepos =>
    if options.dryRun then ((.success, "dryRun"), none)
    else
      let liveErrors := turn.runFsck finding.bare_repo_path
      if liveErrors.isEmpty then ((.skipped, "fsck now clean"), none)
      else
        let count := liveErrors.length
        remove turn s!"removed {count} fsck error(s) worth of corruption"
          (.repo finding.bare_repo_path finding.project_id)

/-- A finding that is acted on: the record that is reported, and what is deleted. -/
structure ServedFinding where
  turn : RepairTurn
  record : RepairActionRecord
  deleted : Option Deletion

/-- One turn of the loop, nothing for a finding that is passed over. -/
def repairOne : Option ServedFinding :=
  match finding.remediation with
  | none => none
  | some action =>
    if options.repairActions.contains action then
      let repaired := repairBy options finding turn action
      some ⟨turn, ⟨action, finding.bare_repo_path, repaired.1.1, repaired.1.2⟩, repaired.2⟩
    else none

end

def executeRepair (options : RepairOptions) (findings : List SnapshotFinding) (later : Nat → RepairTurn) :
    List ServedFinding :=
  findings.zipIdx.filterMap fun entry => repairOne options entry.1 (later entry.2)

/-! ## What may be deleted -/

section

variable (options : RepairOptions) (finding : SnapshotFinding) (turn : RepairTurn)

/-- A lock is stale and nobody has it open, an object is empty, and a repository is one of a recorded worktree that is
    gone, or one whose objects are corrupt. -/
def StillBroken (moment : SnapshotMoment) : Deletion → Prop
  | .lock path => (∃ mtime, moment.mtime path = some mtime ∧ STALE_LOCK_THRESHOLD_MS < moment.now - mtime) ∧
      moment.held path = false
  | .object path => moment.size path = some 0
  | .repo path projectId => (∃ worktreePath, moment.worktree projectId = some worktreePath ∧ worktreePath ≠ "" ∧
      moment.present worktreePath = false) ∨ moment.corrupt path = true

/-- What an action is about, and whether anything that it asks at its turn speaks against it. -/
def RepairAction.target : RepairAction → Deletion
  | .deleteStaleLocks => .lock finding.lockPath
  | .deleteZeroByteObjects => .object finding.objectPath
  | .deleteOrphanBareRepos | .deleteFsckCorruptRepos => .repo finding.bare_repo_path finding.project_id

def RepairAction.Unopposed : RepairAction → Prop
  | .deleteStaleLocks => ∀ pid, turn.lsof finding.lockPath ≠ .holder pid
  | .deleteZeroByteObjects => True
  | .deleteOrphanBareRepos => turn.worktreeThere finding = false
  | .deleteFsckCorruptRepos => turn.runFsck finding.bare_repo_path ≠ []

/-- A finding that is acted on while nothing speaks against it is of something that is broken then. -/
def GoodTurn : Prop := ∀ action ∈ options.repairActions, finding.remediation = some action → options.dryRun = false →
  turn.removes = true → turn.present (action.target finding).path = true → action.Unopposed finding turn →
  StillBroken turn.toSnapshotMoment (action.target finding)

def DeletesBroken (served : List ServedFinding) : Prop := ∀ one ∈ served, ∀ deletion, one.deleted = some deletion →
  StillBroken one.turn.toSnapshotMoment deletion

variable {options finding turn} {target deletion : Deletion}

theorem remove_deletes {reason : String} : (remove turn reason target).2 = some deletion ↔
      turn.removes = true ∧ turn.present target.path = true ∧ target = deletion := by
  unfold remove
  cases turn.removal <;> simp only [Option.ite_none_right_eq_some, Option.some.injEq, Bool.and_eq_true, and_assoc]

theorem removeUnlessDryRun_deletes :
    (removeUnlessDryRun options turn target).2 = some deletion ↔ options.dryRun = false ∧
      turn.removes = true ∧ turn.present target.path = true ∧ target = deletion := by
  unfold removeUnlessDryRun
  cases options.dryRun with
  | true => simp
  | false => simpa using remove_deletes

/-- What an action deletes, of which every further fact is derived. -/
theorem repairBy_deletes (action : RepairAction) :
    (repairBy options finding turn action).2 = some deletion ↔ action.Unopposed finding turn ∧
      options.dryRun = false ∧ turn.removes = true ∧ turn.present (action.target finding).path = true ∧
      action.target finding = deletion := by
  cases action with
  | deleteStaleLocks =>
    simp only [repairBy, RepairAction.Unopposed, RepairAction.target]
    cases turn.lsof finding.lockPath with
    | holder pid => simp
    | nobody | unknownNoLsof => simpa using removeUnlessDryRun_deletes
  | deleteZeroByteObjects =>
    simp only [repairBy, RepairAction.Unopposed, RepairAction.target]
    simpa using removeUnlessDryRun_deletes
  | deleteOrphanBareRepos =>
    simp only [repairBy, RepairAction.Unopposed, RepairAction.target]
    cases turn.worktreeThere finding with
    | true => simp
    | false => simpa using removeUnlessDryRun_deletes
  | deleteFsckCorruptRepos =>
    simp only [repairBy, RepairAction.Unopposed, RepairAction.target]
    cases dry : options.dryRun with
    | true => simp
    | false =>
      cases turn.runFsck finding.bare_repo_path with
      | nil => simp
      | cons line lines => simpa using remove_deletes

theorem repairOne_deletes {action : RepairAction} (remedy : finding.remediation = some action) :
    (∃ one, repairOne options finding turn = some one ∧ one.turn = turn ∧ one.deleted = some deletion) ↔
      action ∈ options.repairActions ∧ (repairBy options finding turn action).2 = some deletion := by
  by_cases asked : action ∈ options.repairActions <;> simp [repairOne, remedy, asked]

theorem repairOne_broken_iff : (∀ one, repairOne options finding turn = some one → ∀ deletion,
    one.deleted = some deletion → StillBroken one.turn.toSnapshotMoment deletion) ↔
      GoodTurn options finding turn := by
  cases remedy : finding.remediation with
  | none => simp [GoodTurn, repairOne, remedy]
  | some action =>
    constructor
    · intro broken other asked same real removes there unopposed
      cases remedy.symm.trans same
      have deletes := (repairBy_deletes action).mpr ⟨unopposed, real, removes, there, rfl⟩
      obtain ⟨one, served, rfl, deleted⟩ := (repairOne_deletes remedy).mpr ⟨asked, deletes⟩
      exact broken one served _ deleted
    · intro good one served deletion deleted
      have same : one.turn = turn := by
        simp only [repairOne, remedy] at served
        split at served <;> cases served
        rfl
      obtain ⟨asked, deletes⟩ := (repairOne_deletes remedy).mp ⟨one, served, same, deleted⟩
      obtain ⟨unopposed, real, removes, there, rfl⟩ := (repairBy_deletes action).mp deletes
      rw [same]
      exact good action asked remedy real removes there unopposed

end

def healthyMoment : SnapshotMoment where
  now := 0
  mtime _ := none
  held _ := false
  lsof _ := .nobody
  size _ := none
  worktree _ := some "/work"
  recordReadable _ := false
  present _ := true
  accessFails _ := false
  fsckOutput _ := some []
  corrupt _ := false

def legacyProject : ProjectDir := ⟨"p1", "/snapshot/p1", some ⟨"/snapshot/p1", [], [], 0⟩, []⟩

end Advance.Tools
