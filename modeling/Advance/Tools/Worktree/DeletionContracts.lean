import Mathlib.Data.List.Basic

/-! # Deletion plans

What a plan to delete a worktree binds, and when the schema accepts it.  A text that the
source compares by `stableStringify` is compared as the value it spells.
-/

namespace Advance.Tools.Worktree

/-! ## Fields -/

/-- `NonEmptyTextSchema` -/
def nonEmptyText (text : String) : Bool := text ≠ "" && !text.toList.contains '\x00'

def isHexDigit (c : Char) : Bool :=
  '0' ≤ c && c ≤ '9' || 'a' ≤ c && c ≤ 'f' || 'A' ≤ c && c ≤ 'F'

/-- `HEX_SHA_RE` -/
def isHexSha (text : String) : Bool :=
  4 ≤ text.length && text.length ≤ 64 && text.toList.all isHexDigit

/-- `Sha256Schema` -/
def isSha256 (text : String) : Bool := text.length = 64 && text.toList.all isHexDigit

structure WorktreeDeletionFacts where
  repository : String
  worktree : String
  branch : Option String
  head : String
  detached : Bool
  bare : Bool
  locked : Bool
  prunable : Bool
  dirty : Bool
  mainWorktree : Option Bool
  cwd : Option String
  cwdInsideWorktree : Option Bool
  inUse : Option Bool
  gitCorrupt : Option Bool
  deriving DecidableEq

inductive IntegrationKind where
  | merged_to_default
  | patch_equivalent
  | pr_merged
  deriving DecidableEq

structure WorktreeDeletionIntegrationProof where
  kind : IntegrationKind
  branch : String
  defaultBranch : String
  head : String
  evidence : String
  prNumber : Option Nat
  prHeadOid : Option String
  mergeCommitOid : Option String
  headRepository : Option String
  baseRepository : Option String
  deriving DecidableEq

inductive TerminalStatus where
  | archived
  | closed
  deriving DecidableEq

structure WorktreeDeletionTerminalProof where
  changeId : String
  status : TerminalStatus
  evidence : String
  deriving DecidableEq

inductive ArchivePathStatus where
  | A
  | M
  | D
  | R
  | C
  | U
  | untracked
  deriving DecidableEq

structure WorktreeDeletionArchivePath where
  path : String
  status : ArchivePathStatus
  deriving DecidableEq

structure WorktreeDeletionCanonicalFile where
  path : String
  sha256 : String
  deriving DecidableEq

structure WorktreeDeletionArchiveRecovery where
  changeId : String
  repository : String
  branch : String
  worktree : String
  localHead : String
  prNumber : Nat
  prRepository : String
  prHeadOid : String
  mergeCommitOid : String
  defaultBranch : String
  defaultBranchSha : String
  bundleId : String
  canonicalBundlePath : String
  changedPaths : List WorktreeDeletionArchivePath
  canonicalFiles : List WorktreeDeletionCanonicalFile
  canonicalIdentity : String
  allowedRoot : String
  clean : Bool
  locked : Bool
  cwd : String
  cwdInsideWorktree : Bool
  inUse : Bool
  terminal : WorktreeDeletionTerminalProof
  deriving DecidableEq

inductive RemovalMode where
  | normal
  | archive_owned_projection
  deriving DecidableEq

structure WorktreeDeletionTokenPayload where
  facts : WorktreeDeletionFacts
  force : Option Bool
  expiresAt : Nat
  integration : Option WorktreeDeletionIntegrationProof
  terminal : Option WorktreeDeletionTerminalProof
  removalMode : Option RemovalMode
  archiveRecovery : Option WorktreeDeletionArchiveRecovery
  deriving DecidableEq

structure WorktreeDeletionPlan where
  repository : String
  facts : WorktreeDeletionFacts
  force : Option Bool
  expiresAt : Nat
  token : String
  integration : Option WorktreeDeletionIntegrationProof
  terminal : Option WorktreeDeletionTerminalProof
  removalMode : Option RemovalMode
  archiveRecovery : Option WorktreeDeletionArchiveRecovery
  deriving DecidableEq

/-! ## Schemas -/

def WorktreeDeletionFacts.accepted (facts : WorktreeDeletionFacts) : Bool :=
  nonEmptyText facts.repository && nonEmptyText facts.worktree && facts.branch.all nonEmptyText &&
    isHexSha facts.head && facts.cwd.all nonEmptyText

def WorktreeDeletionIntegrationProof.accepted (proof : WorktreeDeletionIntegrationProof) : Bool :=
  nonEmptyText proof.branch && nonEmptyText proof.defaultBranch && isHexSha proof.head &&
    nonEmptyText proof.evidence && proof.prNumber.all (0 < ·) && proof.prHeadOid.all nonEmptyText &&
    proof.mergeCommitOid.all nonEmptyText && proof.headRepository.all nonEmptyText &&
    proof.baseRepository.all nonEmptyText

def WorktreeDeletionTerminalProof.accepted (proof : WorktreeDeletionTerminalProof) : Bool :=
  nonEmptyText proof.changeId && nonEmptyText proof.evidence

/-- `WorktreeDeletionArchiveRecoverySchema` -/
def WorktreeDeletionArchiveRecovery.accepted (recovery : WorktreeDeletionArchiveRecovery) : Bool :=
  nonEmptyText recovery.changeId && nonEmptyText recovery.repository && nonEmptyText recovery.branch &&
    nonEmptyText recovery.worktree && isHexSha recovery.localHead && 0 < recovery.prNumber &&
    nonEmptyText recovery.prRepository && isHexSha recovery.prHeadOid &&
    isHexSha recovery.mergeCommitOid && nonEmptyText recovery.defaultBranch &&
    isHexSha recovery.defaultBranchSha && nonEmptyText recovery.bundleId &&
    nonEmptyText recovery.canonicalBundlePath &&
    (recovery.changedPaths.all fun entry => nonEmptyText entry.path) &&
    (recovery.canonicalFiles.all fun file => nonEmptyText file.path && isSha256 file.sha256) &&
    nonEmptyText recovery.canonicalIdentity && nonEmptyText recovery.allowedRoot &&
    nonEmptyText recovery.cwd && recovery.terminal.accepted

/-- The token of a payload, and the hash of facts: base64url and SHA-256 are not embedded. -/
structure TokenCodec where
  encode : WorktreeDeletionTokenPayload → String
  decode : String → Option WorktreeDeletionTokenPayload
  hashFacts : WorktreeDeletionFacts → String

def WorktreeDeletionPlan.archiveMode (plan : WorktreeDeletionPlan) : Bool :=
  plan.removalMode = some .archive_owned_projection

def WorktreeDeletionPlan.boundBy (codec : TokenCodec) (plan : WorktreeDeletionPlan) : Bool :=
  match codec.decode plan.token with
  | none => false
  | some payload =>
    payload.expiresAt = plan.expiresAt && codec.hashFacts payload.facts = codec.hashFacts plan.facts &&
      payload.integration = plan.integration && payload.force = plan.force &&
      payload.terminal = plan.terminal && payload.removalMode = plan.removalMode &&
      payload.archiveRecovery = plan.archiveRecovery

/-- `WorktreeDeletionPlanSchema` -/
def WorktreeDeletionPlan.accepted (codec : TokenCodec) (plan : WorktreeDeletionPlan) : Bool :=
  nonEmptyText plan.repository && plan.facts.accepted && 0 < plan.expiresAt &&
    nonEmptyText plan.token && plan.integration.all (·.accepted) && plan.terminal.all (·.accepted) &&
    plan.archiveRecovery.all (·.accepted) &&
    plan.repository = plan.facts.repository && plan.boundBy codec &&
    plan.archiveMode = plan.archiveRecovery.isSome &&
    !(plan.removalMode = some .normal && plan.archiveRecovery.isSome) &&
    (!plan.archiveMode || (plan.integration.map (·.kind)) = some .pr_merged && plan.terminal.isSome &&
        plan.terminal = plan.archiveRecovery.map (·.terminal)) &&
    !(plan.archiveMode && plan.force = some true)

end Advance.Tools.Worktree
