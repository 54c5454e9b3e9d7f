import Advance.Foundation.Dialogue
import Advance.JavaScript.Collections
import Advance.Tools.Worktree.Census
import Advance.Utils.SyntheticFixtureDetector

/-! # Executing a deletion plan

`WorktreeDeletionExecutor.execute`: everything it asks git, the file system, the clock and
its adapters is a question, and an environment gives the answers.
-/

namespace Advance.Tools.Worktree

open Advance.Foundation Advance.JavaScript

/-! ## Failures -/

inductive DeletionFailureStatus where
  | refused
  | busy
  | indeterminate
  | repair_required
  | unsupported
  | drifted
  | deadline_exceeded
  | already_absent
  deriving DecidableEq

structure DeletionFailure where
  status : DeletionFailureStatus
  reason : String
  stage : Option String
  warning : Option String
  deriving DecidableEq

def failure (status : DeletionFailureStatus) (reason : String) (stage : Option String) : DeletionFailure :=
  ⟨status, reason, stage, none⟩

inductive ThrownError where
  | deadline (stage : String)
  | integrationDeadline (message : String)
  | flockUnsupported (message : String)
  | flockQuiescence (message : String)
  | legacyLock (failure message : String)
  | leaseResolution (message : String)
  | other (message : String)
  deriving DecidableEq

/-- What an awaited call throws, and what the operation is like then. -/
structure Thrown where
  error : ThrownError
  terminationError : Bool
  /-- Aborted, or no time left. -/
  late : Bool
  deriving DecidableEq

def ThrownError.message : ThrownError → String
  | deadline stage => stage ++ " exceeded the deletion operation budget"
  | integrationDeadline message | flockUnsupported message | flockQuiescence message
  | legacyLock _ message | leaseResolution message | other message => message

def endsLine (c : Char) : Bool :=
  c = '\n' || c = '\r' || c = '\u2028' || c = '\u2029'

/-- `/unsupported.*platform/i` -/
def saysUnsupportedPlatform (message : String) : Bool :=
  let lower := message.toList.map Char.toLower
  lower.tails.any fun rest => "unsupported".toList.isPrefixOf rest &&
    ((rest.drop 11).takeWhile fun c => !endsLine c).tails.any fun more =>
      "platform".toList.isPrefixOf more

/-- The `catch` around the whole execution. -/
def caught (currentStage : Option String) (thrown : Thrown) : DeletionFailure :=
  let message := thrown.error.message
  if thrown.terminationError then failure .indeterminate "operation_quiescence_failed" currentStage
  else
    match thrown.error with
    | .deadline stage => failure .deadline_exceeded message (some stage)
    | error =>
      if thrown.late then failure .deadline_exceeded "deadline_exceeded" currentStage
      else
        match error with
        | .integrationDeadline _ => failure .deadline_exceeded message currentStage
        | .flockUnsupported _ | .flockQuiescence _ => failure .unsupported message currentStage
        | error =>
          if saysUnsupportedPlatform message then failure .unsupported message currentStage
          else
            match error with
            | .legacyLock reason _ =>
              ⟨.repair_required, "legacy_lock_" ++ reason, some "lease", some message⟩
            | .leaseResolution _ =>
              ⟨.repair_required, "git_common_dir_unavailable", some "lease", some message⟩
            | _ => failure .indeterminate message currentStage

/-! ## Questions -/

/-- An output of git, parsed. -/
inductive Parsed (α : Type) where
  | failed
  | malformed
  | entries (entries : List α)

/-- What an adapter says of the integration of a branch. -/
inductive IntegrationAnswer where
  | proof (proof : WorktreeDeletionIntegrationProof)
  | repair (message : String)
  | refusal (reason message : String)

/-- The questions of an evaluation. -/
inductive CheckOp where
  | clock
  | timeLeft
  | identity (path : String)
  | census (repository defaultBranch : String)
  | onDisk (path : String)
  | inUse (path : String)
  | git (arguments : List String)
  | gitStatus (worktree : String)
  | gitDiff (base head : String)
  | readFile (directory path : String)
  | integrationProof (branch head defaultBranch repository : String)
  | localProof (branch head defaultBranch repository : String)
  | terminalProof (changeId repository : String)

@[reducible] def CheckOp.Answer : CheckOp → Type
  | clock => Nat
  | timeLeft => Bool
  | identity _ => String
  | census _ _ => Except Thrown Census
  | onDisk _ => Except Thrown Bool
  | inUse _ => Except Thrown Bool
  -- The trimmed output; none where git fails.
  | git _ => Except Thrown (Option String)
  | gitStatus _ => Except Thrown (Parsed String)
  | gitDiff _ _ => Except Thrown (Parsed WorktreeDeletionArchivePath)
  | readFile _ _ => Option (List UInt8)
  | integrationProof _ _ _ _ => Except Thrown (Option IntegrationAnswer)
  | localProof _ _ _ _ => Except Thrown (Option WorktreeDeletionIntegrationProof)
  | terminalProof _ _ => Except Thrown (Option WorktreeDeletionTerminalProof)

inductive ProcessOutcome where
  | timedOut
  | failed
  | exited
  deriving DecidableEq

inductive BeforeRemoveResult where
  | ok (warning : Option String)
  | refused (busy : Bool) (reason : String)

/-- The other questions of an execution. -/
inductive ActOp where
  | leaseDir (repository : String)
  | acquire (leaseDir : String)
  | migrateLegacyLock (repository : String)
  | beforeRemove
  | hook (command : String)
  | remove (force : Bool) (worktree : String)
  | reconcile
  | abort (reason : String)
  | settleLease (leaseDir : String)
  deriving DecidableEq

@[reducible] def ActOp.Answer : ActOp → Type
  | leaseDir _ => Except Thrown String
  -- Whether the lease is owned.
  | acquire _ => Except Thrown Bool
  | migrateLegacyLock _ => Except Thrown Unit
  | beforeRemove => Except Thrown BeforeRemoveResult
  | hook _ | remove _ _ => Except Thrown ProcessOutcome
  | reconcile => Except Thrown Unit
  | abort _ | settleLease _ => Unit

abbrev Check := Attempt CheckOp.Answer DeletionFailure

abbrev Deletion := Attempt (Sum.elim CheckOp.Answer ActOp.Answer) DeletionFailure

section

variable {Op : Type} {Answer : Op → Type} {Value : Type}

def expect (currentStage : Option String) (reply : Except Thrown Value) : Attempt Answer DeletionFailure Value :=
  match reply with
  | .ok value => pure value
  | .error thrown => Attempt.fail (caught currentStage thrown)

end

def ask (op : CheckOp) : Check op.Answer := Attempt.question op

def act (op : ActOp) : Deletion op.Answer :=
  Attempt.question (Sum.inr op : CheckOp ⊕ ActOp)

def check {Value : Type} (attempt : Check Value) : Deletion Value := Dialogue.left attempt

/-! ## Settings -/

/-- What the caller and the adapters of an execution fix. -/
structure DeletionSetting where
  codec : TokenCodec
  sha256 : List UInt8 → String
  /-- The hash of the bundle's id and files in canonical order. -/
  canonicalIdentity : String → List WorktreeDeletionCanonicalFile → String
  /-- Owner and name of a remote url; it rests on the platform's parser of urls. -/
  parseGitRemoteUrl : String → Option String
  linux : Bool
  repository : Option String
  repositoryLeaseDir : Option String
  cwd : Option String
  processCwd : String
  hooks : List String
  now : Option Nat
  ownsOperation : Bool
  /-- Of the operation, at the start. -/
  currentStage : Option String
  hasIntegrationProof : Bool
  hasTerminalProof : Bool
  /-- A stage, and whether it is of the accepted kind. -/
  beforeRemove : Option Bool
  reconcileAfterDeletion : Option Bool

section

variable (setting : DeletionSetting) (plan : WorktreeDeletionPlan)

def DeletionSetting.callerCwd : String :=
  (setting.cwd.or plan.facts.cwd).getD setting.processCwd

def DeletionSetting.targetRepository : String := setting.repository.getD plan.repository

def WorktreeDeletionPlan.defaultBranch : String :=
  (plan.integration.map (·.defaultBranch)).getD "HEAD"

/-! ## One evaluation -/

def currentWorktree (census : GitWorkspaceFacts) : Option GitWorktreeFact :=
  census.worktrees.find? fun item =>
    samePath setting.processCwd item.path plan.facts.worktree || item.branch.isSome && item.branch = plan.facts.branch

def factsFromCensus (census : GitWorkspaceFacts) (candidate : GitWorktreeFact) (repository cwd : String)
    (isInUse : Bool) : WorktreeDeletionFacts where
  repository := repository
  worktree := candidate.path
  branch := candidate.branch
  head := candidate.headSha
  detached := candidate.detached
  bare := candidate.bare
  locked := candidate.locked
  prunable := candidate.prunable
  dirty := candidate.dirty
  mainWorktree := some (samePath setting.processCwd candidate.path repository ||
    census.worktrees.head?.any fun first => samePath setting.processCwd first.path candidate.path)
  cwd := some cwd
  cwdInsideWorktree := some (cwdInside setting.processCwd cwd candidate.path)
  inUse := some isInUse
  gitCorrupt := some (candidate.corrupt = some true)

def safeToRemove (facts : WorktreeDeletionFacts) (allowDirty : Bool) : Bool :=
  facts.mainWorktree ≠ some true && !facts.detached && !facts.bare && !facts.locked &&
    !facts.prunable && (!facts.dirty || allowDirty) && facts.cwdInsideWorktree = some false &&
    facts.inUse = some false && facts.gitCorrupt ≠ some true

def expiryDecision (stage : String) : Check Unit := do
  let now ← ask .clock
  Attempt.demand (now < plan.expiresAt) (failure .drifted "plan_expired_during_apply" stage)

def runGit (arguments : List String) : Check (Option String) := do
  expect none (← ask (.git arguments))

def gitOutput (arguments : List String) (failed : DeletionFailure) : Check String := do
  match ← runGit arguments with
  | none => Attempt.fail failed
  | some stdout => pure stdout

def boundText (text : Option String) : Bool := text.any fun text => Utils.trim text.toList ≠ []

def prFactsBound (integration : WorktreeDeletionIntegrationProof) : Bool :=
  integration.prNumber.any (0 < ·) && boundText integration.prHeadOid &&
    boundText integration.mergeCommitOid && boundText integration.headRepository &&
    boundText integration.baseRepository && isValidGitBranchRef integration.defaultBranch &&
    isValidGitBranchRef integration.branch && boundText (some integration.head)

def stripOrigin (ref : String) : String :=
  if "origin/".toList.isPrefixOf ref.toList then String.ofList (ref.toList.drop 7) else ref

def revalidatePrMerged (integration : WorktreeDeletionIntegrationProof) (actual : WorktreeDeletionFacts)
    (stage : String) : Check Unit := do
  let drifted := fun reason => failure .drifted reason stage
  let gitFailure := failure .repair_required "pr_revalidation_git_failed" stage
  let prNumber := toString (integration.prNumber.getD 0)
  let prHeadOid := integration.prHeadOid.getD ""
  let mergeCommitOid := integration.mergeCommitOid.getD ""
  let remoteDefault := "refs/remotes/origin/" ++ integration.defaultBranch
  Attempt.demand (prFactsBound integration) (failure .repair_required "pr_revalidation_missing_bound_fact" stage)
  let localHead ← gitOutput
    ["rev-parse", "--verify", "refs/heads/" ++ integration.branch ++ "^\x7bcommit\x7d"] gitFailure
  Attempt.demand (localHead = actual.head ∧ localHead = integration.head)
    (drifted "pr_revalidation_local_head_drifted")
  let _ ← gitOutput (["merge-base", "--is-ancestor"] ++
      if plan.archiveMode then [prHeadOid, localHead] else [localHead, prHeadOid])
    (drifted (if plan.archiveMode then "pr_revalidation_pr_head_not_ancestor_of_local_head"
      else "pr_revalidation_local_head_not_in_pr"))
  let origin ← gitOutput ["config", "--get", "remote.origin.url"] gitFailure
  let currentRepository := setting.parseGitRemoteUrl origin
  Attempt.demand (currentRepository.isSome ∧ currentRepository = integration.headRepository ∧
      currentRepository = integration.baseRepository)
    (drifted "pr_revalidation_repository_drifted")
  let currentDefault ← gitOutput
    ["symbolic-ref", "--quiet", "--short", "refs/remotes/origin/HEAD"] gitFailure
  Attempt.demand (stripOrigin currentDefault = integration.defaultBranch)
    (drifted "pr_revalidation_default_branch_drifted")
  let _ ← gitOutput ["fetch", "--no-tags", "origin", "refs/pull/" ++ prNumber ++ "/head"] gitFailure
  let fetchedPrHead ← gitOutput ["rev-parse", "--verify", "FETCH_HEAD^\x7bcommit\x7d"] gitFailure
  Attempt.demand (fetchedPrHead = prHeadOid) (drifted "pr_revalidation_pr_head_drifted")
  let _ ← gitOutput ["fetch", "--no-tags", "origin",
    "refs/heads/" ++ integration.defaultBranch ++ ":" ++ remoteDefault] gitFailure
  let fetchedDefault ← gitOutput ["rev-parse", "--verify", remoteDefault ++ "^\x7bcommit\x7d"] gitFailure
  Attempt.demand (plan.archiveMode → plan.archiveRecovery.map (·.defaultBranchSha) = some fetchedDefault)
    (drifted "archive_recovery_default_head_drifted")
  let _ ← gitOutput ["merge-base", "--is-ancestor", mergeCommitOid, remoteDefault]
    (drifted "pr_revalidation_merge_commit_unreachable")
  expiryDecision plan stage

/-! ### Archive recovery -/

/-- `path.split(/[\\/]/).pop()` -/
def lastPart (path : String) : List Char :=
  (path.toList.reverse.takeWhile fun c => c ≠ '/' && c ≠ '\\').reverse

def archiveRoot (bundleId : String) : String := ".adv/archive/" ++ bundleId

/-- `resolve(directory, path)` -/
def resolveIn (directory path : String) : String :=
  resolve (resolve setting.processCwd directory) path

def archivePathInside (worktree allowedRoot filePath : String) : Bool :=
  let root := resolveIn setting worktree allowedRoot
  let absolute := resolveIn setting worktree filePath
  absolute = root || (root.toList ++ ['/']).isPrefixOf absolute.toList

def archiveFactsHold (recovery : WorktreeDeletionArchiveRecovery) (actual : WorktreeDeletionFacts) : Bool :=
  let bound := fun field : WorktreeDeletionIntegrationProof → Option String =>
    plan.integration.bind field
  recovery.repository = plan.repository && recovery.worktree = actual.worktree &&
    some recovery.branch = actual.branch && recovery.localHead = actual.head &&
    recovery.localHead = plan.facts.head && some recovery.cwd = actual.cwd &&
    some recovery.cwdInsideWorktree = actual.cwdInsideWorktree && recovery.locked = actual.locked &&
    some recovery.inUse = actual.inUse && recovery.clean = !actual.dirty &&
    some recovery.prNumber = plan.integration.bind (·.prNumber) &&
    some recovery.prHeadOid = bound (·.prHeadOid) &&
    some recovery.mergeCommitOid = bound (·.mergeCommitOid) &&
    some recovery.prRepository = bound (·.headRepository) &&
    some recovery.prRepository = bound (·.baseRepository) &&
    recovery.branch = "change/" ++ recovery.changeId

def revalidateCanonicalFile (recovery : WorktreeDeletionArchiveRecovery) (stage : String)
    (file : WorktreeDeletionCanonicalFile) : Check Unit := do
  let drifted := fun reason => failure .drifted reason stage
  Attempt.demand ((recovery.allowedRoot.toList ++ ['/']).isPrefixOf file.path.toList)
    (drifted "archive_recovery_path_outside_root")
  match ← ask (.readFile recovery.canonicalBundlePath
      (String.ofList (file.path.toList.drop (recovery.allowedRoot.length + 1)))) with
  | none => Attempt.fail (drifted "archive_recovery_canonical_unreadable")
  | some content =>
    Attempt.demand (setting.sha256 content = file.sha256) (drifted "archive_recovery_canonical_hash_mismatch")

def revalidateChangedFile (recovery : WorktreeDeletionArchiveRecovery)
    (allowed : List (String × String)) (stage : String) (entry : WorktreeDeletionArchivePath) :
    Check Unit := do
  match ← ask (.readFile recovery.worktree entry.path) with
  | none => Attempt.fail (failure .drifted "archive_recovery_file_unreadable" stage)
  | some content =>
    Attempt.demand (some (setting.sha256 content) = mapGet allowed entry.path)
      (failure .drifted "archive_recovery_hash_mismatch" stage)

/-- The entries of an output of git, or the failure given for what is wrong with it. -/
def parsedEntries {α : Type} (parsed : Parsed α) (malformed stage : String) : Check (List α) :=
  match parsed with
  | .failed => Attempt.fail (failure .repair_required "archive_recovery_git_failed" stage)
  | .malformed => Attempt.fail (failure .drifted malformed stage)
  | .entries entries => pure entries

def revalidateArchiveOwned (actual : WorktreeDeletionFacts) (stage : String) : Check Unit := do
  let drifted := fun reason => failure .drifted reason stage
  match plan.archiveRecovery with
  | none => Attempt.fail (failure .refused "archive_recovery_proof_missing" stage)
  | some recovery =>
    Attempt.demand (plan.archiveMode ∧ recovery.accepted) (failure .refused "archive_recovery_proof_missing" stage)
    Attempt.demand (plan.force ≠ some true ∧ plan.integration.map (·.kind) = some .pr_merged ∧
        plan.terminal = some recovery.terminal)
      (failure .refused "archive_recovery_terminal_proof_missing" stage)
    Attempt.demand (archiveFactsHold plan recovery actual) (drifted "archive_recovery_fact_changed")
    let allowed := fromEntries (recovery.canonicalFiles.map fun file => (file.path, file.sha256))
    Attempt.demand (recovery.allowedRoot = archiveRoot recovery.bundleId ∧
        lastPart recovery.canonicalBundlePath = recovery.bundleId.toList)
      (drifted "archive_recovery_bundle_identity")
    Attempt.demand
      (setting.canonicalIdentity recovery.bundleId recovery.canonicalFiles = recovery.canonicalIdentity)
      (drifted "archive_recovery_canonical_identity")
    recovery.canonicalFiles.forM (revalidateCanonicalFile setting recovery stage)
    let expected := fromEntries (recovery.changedPaths.map fun entry => (entry.path, entry.status))
    let status ← expect none (← ask (.gitStatus recovery.worktree))
    let statusEntries ← parsedEntries status "archive_recovery_status_malformed" stage
    Attempt.demand (statusEntries = []) (drifted "archive_recovery_worktree_dirty")
    let diff ← expect none (← ask (.gitDiff recovery.prHeadOid recovery.localHead))
    let diffEntries ← parsedEntries diff "archive_recovery_diff_malformed" stage
    Attempt.demand (diffEntries.length = expected.length ∧ ∀ entry ∈ diffEntries,
        (entry.status = .A ∨ entry.status = .M) ∧ mapGet expected entry.path = some entry.status ∧
          (mapGet allowed entry.path).isSome ∧
          archivePathInside setting recovery.worktree recovery.allowedRoot entry.path)
      (drifted "archive_recovery_commit_paths")
    diffEntries.forM (revalidateChangedFile setting recovery allowed stage)

/-! ### The evaluation -/

def revalidateIntegration (branchFact : GitBranchFact) (integration : WorktreeDeletionIntegrationProof)
    (actual : WorktreeDeletionFacts) (stage : String) : Check Unit := do
  let changed := failure .drifted "integration_proof_changed" stage
  let branch := plan.facts.branch.getD ""
  if integration.kind = .pr_merged then revalidatePrMerged setting plan integration actual stage
  else if setting.hasIntegrationProof then
    match ← expect none (← ask (.integrationProof branch actual.head integration.defaultBranch plan.repository)) with
    | some (.proof proof) => Attempt.demand (integration = proof) changed
    | _ => Attempt.fail changed
  else if branchFact.merged then Attempt.demand (integration.kind = .merged_to_default) changed
  else
    let proof ← expect none (← ask (.localProof branch actual.head integration.defaultBranch plan.repository))
    Attempt.demand (some integration = proof) changed

def revalidateTerminal (stage : String) : Check Unit :=
  match plan.terminal with
  | none => pure ()
  | some terminal => do
    Attempt.demand (setting.hasTerminalProof = true)
      (failure .repair_required "terminal_proof_recheck_unavailable" stage)
    let proof ← expect none (← ask (.terminalProof terminal.changeId plan.repository))
    Attempt.demand (some terminal = proof) (failure .drifted "terminal_proof_changed" stage)

def evaluate (current : GitWorkspaceFacts) (stage : String) : Check Unit := do
  let candidate := currentWorktree setting plan current
  let onDisk ← expect none (← ask (.onDisk plan.facts.worktree))
  match candidate with
  | none =>
    Attempt.fail (if onDisk then failure .repair_required "git_and_filesystem_disagree" stage
      else failure .already_absent "git_and_filesystem_absent" stage)
  | some candidate =>
    Attempt.demand (onDisk = true) (failure .repair_required "git_and_filesystem_disagree" stage)
    let isInUse ← expect none (← ask (.inUse candidate.path))
    let actual := factsFromCensus setting current candidate plan.repository (setting.callerCwd plan) isInUse
    Attempt.demand (plan.facts = actual) (failure .drifted "bound_safety_fact_changed" stage)
    Attempt.demand (safeToRemove actual (!plan.archiveMode && plan.force = some true))
      (failure .refused "unsafe_worktree_state" stage)
    match current.branches.find? fun item => some item.branch = plan.facts.branch, plan.integration with
    | some branchFact, some integration =>
      Attempt.demand (branchFact.headSha = integration.head) (failure .drifted "integration_fact_changed" stage)
      revalidateIntegration setting plan branchFact integration actual stage
      (if plan.archiveMode then revalidateArchiveOwned setting plan actual stage else pure ())
      revalidateTerminal setting plan stage
      expiryDecision plan stage
    | _, _ => Attempt.fail (failure .drifted "integration_fact_changed" stage)

/-- The failure of a census or a look at the disk: as given if it is a deadline. -/
def deadlineOr (failed : DeletionFailure) (thrown : Thrown) : DeletionFailure :=
  match thrown.error, thrown.terminationError with
  | .deadline _, false => failed
  | _, _ => caught none thrown

/-- A census; what its adapter throws counts as a deadline. -/
def runCensus (stage : String) : Check GitWorkspaceFacts := do
  let late := failure .deadline_exceeded (stage ++ "_deadline_exceeded") stage
  let timeLeft ← ask .timeLeft
  Attempt.demand (timeLeft = true) late
  match ← ask (.census plan.repository plan.defaultBranch) with
  | .ok census => pure census.facts
  | .error thrown =>
    Attempt.fail (match thrown.error, thrown.terminationError with
      | .deadline _, _ | _, true => caught none thrown
      | _, false => late)

/-- An evaluation on a census of its own, as before the hooks and after them. -/
def revalidate (stage : String) : Check Unit := do
  expiryDecision plan stage
  let current ← runCensus plan stage
  evaluate setting plan current stage

/-! ## Execution -/

structure Deleted where
  repository : String
  worktree : String
  warning : Option String
  deriving DecidableEq

/-- The operation is aborted first. -/
def abandon {Value : Type} (failed : DeletionFailure) : Deletion Value := do
  act (.abort "deadline")
  Attempt.fail failed

def demandTime (failed : DeletionFailure) : Deletion Unit := do
  let timeLeft ← check (ask .timeLeft)
  if timeLeft then pure () else abandon failed

def demandSettled (outcome : ProcessOutcome) (late : DeletionFailure) : Deletion Unit :=
  if outcome = .timedOut then abandon late else demandTime late

def validatePlan : Check Unit := do
  Attempt.demand (plan.accepted setting.codec = true) (failure .refused "invalid_plan" none)
  let now ←
    match setting.now with
    | some now => pure now
    | none => ask .clock
  match setting.codec.decode plan.token with
  | none => Attempt.fail (failure .refused "malformed_wdp1_token" none)
  | some payload =>
    Attempt.demand (now < plan.expiresAt ∧ now < payload.expiresAt)
      (failure .refused "expired_plan" "token_validation")
    Attempt.demand (setting.linux = true) (failure .unsupported "destructive_worktree_delete_requires_linux" none)
    let target ← ask (.identity (setting.targetRepository plan))
    let planned ← ask (.identity plan.repository)
    Attempt.demand (target = planned) (failure .drifted "repository_identity_changed" "target_validation")

/-- The `catch` around the acquisition of the lease. -/
def caughtAtLease (thrown : Thrown) : DeletionFailure :=
  match thrown.error with
  | .flockUnsupported _ => failure .unsupported "kernel_flock_unavailable" "lease"
  | _ =>
    if thrown.terminationError then failure .indeterminate "operation_quiescence_failed" "lease"
    else if thrown.late then failure .deadline_exceeded "deadline_exceeded" "lease"
    else failure .repair_required "repository_lease_unavailable" "lease"

def resolveLeaseDir : Deletion String :=
  match setting.repositoryLeaseDir.filter (· ≠ "") with
  | some leaseDir => pure leaseDir
  | none => do expect setting.currentStage (← act (.leaseDir plan.repository))

def acquireLease : Deletion (String × Bool) := do
  let leaseDir ← resolveLeaseDir setting plan
  Attempt.demand (leaseDir ≠ "") (failure .repair_required "git_common_dir_unavailable" "lease")
  check (expiryDecision plan "lease")
  let timeLeft ← check (ask .timeLeft)
  Attempt.demand (timeLeft = true) (failure .deadline_exceeded "deadline_exceeded" "lease")
  match ← act (.acquire leaseDir) with
  | .ok owned => pure (leaseDir, owned)
  | .error thrown => Attempt.fail (caughtAtLease thrown)

def runBeforeRemove : Deletion (Option String) :=
  match setting.beforeRemove with
  | none => pure none
  | some cooperative => do
    Attempt.demand (cooperative = true) (failure .repair_required "uncooperative_before_remove" "before_remove")
    match ← expect none (← act .beforeRemove) with
    | .ok warning => pure warning
    | .refused busy reason =>
      Attempt.fail (failure (if busy then .busy else .repair_required) reason "before_remove")

def runHook (command : String) : Deletion Unit := do
  let stage := "preDelete_hook"
  check (expiryDecision plan stage)
  demandTime (failure .deadline_exceeded "deadline_exceeded" stage)
  let outcome ← expect (some stage) (← act (.hook command))
  demandSettled outcome (failure .deadline_exceeded "preDelete_hook_deadline_exceeded" stage)
  Attempt.demand (outcome = .exited) (failure .refused "preDelete_hook_failed" stage)

def WorktreeDeletionPlan.removesByForce : Bool := !plan.archiveMode && plan.force = some true

def removeWorktree : Deletion Unit := do
  let stage := "remove"
  check (expiryDecision plan stage)
  demandTime (failure .deadline_exceeded "deadline_exceeded" stage)
  let outcome ← expect (some stage) (← act (.remove plan.removesByForce plan.facts.worktree))
  demandSettled outcome (failure .deadline_exceeded "remove_deadline_exceeded" stage)
  Attempt.demand (outcome = .exited) (failure .indeterminate "git_worktree_remove_failed" stage)

/-- The worktree is gone from git's list and from the disk. -/
def confirmRemoval : Check Unit := do
  let stage := "post_delete_census"
  let late := failure .indeterminate "post_delete_census_deadline_exceeded" stage
  match ← ask (.census plan.repository plan.defaultBranch) with
  | .error thrown => Attempt.fail (deadlineOr late thrown)
  | .ok after =>
    match ← ask (.onDisk plan.facts.worktree) with
    | .error thrown => Attempt.fail (deadlineOr late thrown)
    | .ok stillOnDisk =>
      Attempt.demand (currentWorktree setting plan after.facts = none ∧ stillOnDisk = false)
        (failure .indeterminate "git_removal_not_confirmed" stage)

def reconcile : Deletion (Option String) :=
  match setting.reconcileAfterDeletion with
  | none => pure none
  | some cooperative => do
    Attempt.demand (cooperative = true) (failure .indeterminate "uncooperative_reconciliation" "reconcile")
    match ← act .reconcile with
    | .ok () => pure none
    | .error thrown =>
      if thrown.terminationError then
        Attempt.fail (failure .indeterminate "operation_quiescence_failed" "reconcile")
      else
        match thrown.error with
        | .deadline _ => pure (some "reconciliation deadline exceeded after confirmed Git removal")
        | error => pure (some ("reconciliation failed after confirmed removal: " ++ error.message))

/-- `[beforeRemoveWarning, warning].filter(Boolean).join("; ")`, if there is any. -/
def joinWarnings (warnings : List (Option String)) : Option String :=
  match (warnings.filterMap id).filter (· ≠ "") with
  | [] => none
  | texts => some (String.intercalate "; " texts)

/-- A lease that comes too late is given back at once. -/
def demandLeaseInTime (leaseDir : String) (owned : Bool) : Deletion Unit := do
  let timeLeft ← check (ask .timeLeft)
  let late := failure .deadline_exceeded "deadline_exceeded" "lease"
  if timeLeft then pure ()
  else if owned then do
    act (.settleLease leaseDir)
    abandon late
  else abandon late

/-- What is done once the lease has been asked for. -/
def underLease (leaseDir : String) (owned : Bool) : Deletion Deleted := do
  demandLeaseInTime leaseDir owned
  Attempt.demand (owned = true) (failure .busy "repository_lease_held" "lease")
  expect (some "lease") (← act (.migrateLegacyLock plan.repository))
  check (revalidate setting plan "census")
  let beforeRemoveWarning ← runBeforeRemove setting
  setting.hooks.forM (runHook plan)
  check (revalidate setting plan "post_hook_census")
  removeWorktree plan
  check (confirmRemoval setting plan)
  let warning ← reconcile setting
  pure ⟨plan.repository, plan.facts.worktree, joinWarnings [beforeRemoveWarning, warning]⟩

/-- A last act, where there is one. -/
def lastly (op : Option ActOp) : Dialogue (Sum.elim CheckOp.Answer ActOp.Answer) Unit :=
  match op with
  | none => .finish ()
  | some op => .ask (.inr op) fun _ => .finish ()

/-- The `finally` around the whole execution. -/
def conclude (lease : Option String) : Dialogue (Sum.elim CheckOp.Answer ActOp.Answer) Unit :=
  (lastly (if setting.ownsOperation then some (.abort "operation_complete") else none)).andThen fun _ =>
    lastly (lease.map .settleLease)

def execute : Deletion Deleted := do
  check (validatePlan setting plan)
  let (leaseDir, owned) ← Attempt.onFailure (conclude setting none) (acquireLease setting plan)
  Attempt.ensure (conclude setting (if owned then some leaseDir else none)) (underLease setting plan leaseDir owned)

end

end Advance.Tools.Worktree
