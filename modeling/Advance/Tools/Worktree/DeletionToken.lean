import Advance.Foundation.Base64
import Advance.Tools.Worktree.DeletionContracts
import Advance.Utils.Digest

/-! # Deletion tokens

A token is `wdp1`, the stable text of a payload in base64url, and the hash of that.
-/

namespace Advance.Tools.Worktree

open Advance.Foundation Advance.Types Advance.Utils

/-! ## Documents -/

/-- The greatest number of `z.number().int()`. -/
def MAX_SAFE_INTEGER : Nat := 9007199254740991

def readBool : Json → Option Bool
  | .bool value => some value
  | _ => none

def readOneOf {α : Type} (values : List α) (spelled : α → String) : Json → Option α
  | .text text => values.find? fun value => spelled value = text
  | _ => none

/-- `z.literal(text)` -/
def readLiteral (text : String) : Json → Option Unit
  | .text other => if other = text then some () else none
  | _ => none

def nullable (text : Option String) : Json := text.elim .null .text

def readNullable : Json → Option (Option String)
  | .null => some none
  | .text text => some (some text)
  | _ => none

/-! ## Facts -/

def WorktreeDeletionFacts.fields (facts : WorktreeDeletionFacts) : List (String × Option Json) :=
  [("repository", some (.text facts.repository)), ("worktree", some (.text facts.worktree)),
    ("branch", some (nullable facts.branch)), ("head", some (.text facts.head)),
    ("detached", some (.bool facts.detached)), ("bare", some (.bool facts.bare)),
    ("locked", some (.bool facts.locked)), ("prunable", some (.bool facts.prunable)),
    ("dirty", some (.bool facts.dirty)), ("mainWorktree", facts.mainWorktree.map .bool),
    ("cwd", facts.cwd.map .text), ("cwdInsideWorktree", facts.cwdInsideWorktree.map .bool),
    ("inUse", facts.inUse.map .bool), ("gitCorrupt", facts.gitCorrupt.map .bool)]

def WorktreeDeletionFacts.shape (value : Json) : Option WorktreeDeletionFacts :=
  if hasOnly ["repository", "worktree", "branch", "head", "detached", "bare", "locked", "prunable", "dirty",
      "mainWorktree", "cwd", "cwdInsideWorktree", "inUse", "gitCorrupt"] value then do
    let repository ← required readText "repository" value
    let worktree ← required readText "worktree" value
    let branch ← required readNullable "branch" value
    let head ← required readText "head" value
    let detached ← required readBool "detached" value
    let bare ← required readBool "bare" value
    let locked ← required readBool "locked" value
    let prunable ← required readBool "prunable" value
    let dirty ← required readBool "dirty" value
    let mainWorktree ← Types.optional readBool "mainWorktree" value
    let cwd ← Types.optional readText "cwd" value
    let cwdInsideWorktree ← Types.optional readBool "cwdInsideWorktree" value
    let inUse ← Types.optional readBool "inUse" value
    let gitCorrupt ← Types.optional readBool "gitCorrupt" value
    pure { repository, worktree, branch, head, detached, bare, locked, prunable, dirty, mainWorktree, cwd,
           cwdInsideWorktree, inUse, gitCorrupt }
  else none

/-- The fields that `canonicalFacts` names. -/
def WorktreeDeletionFacts.canonicalFields (facts : WorktreeDeletionFacts) : List (String × Option Json) :=
  [("bare", some (.bool facts.bare)), ("branch", some (nullable facts.branch)),
    ("detached", some (.bool facts.detached)), ("dirty", some (.bool facts.dirty)),
    ("head", some (.text facts.head)), ("locked", some (.bool facts.locked)),
    ("prunable", some (.bool facts.prunable)), ("repository", some (.text facts.repository)),
    ("worktree", some (.text facts.worktree)), ("mainWorktree", facts.mainWorktree.map .bool),
    ("cwd", facts.cwd.map .text), ("cwdInsideWorktree", facts.cwdInsideWorktree.map .bool),
    ("inUse", facts.inUse.map .bool), ("gitCorrupt", facts.gitCorrupt.map .bool)]

def canonicalFacts (facts : WorktreeDeletionFacts) : List Char := stableStringify (.record facts.canonicalFields)

/-! ## Proofs of integration and of a terminal status -/

def IntegrationKind.text : IntegrationKind → String
  | merged_to_default => "merged_to_default"
  | patch_equivalent => "patch_equivalent"
  | pr_merged => "pr_merged"

def IntegrationKind.all : List IntegrationKind := [merged_to_default, patch_equivalent, pr_merged]

def WorktreeDeletionIntegrationProof.fields (proof : WorktreeDeletionIntegrationProof) :
    List (String × Option Json) :=
  [("kind", some (.text proof.kind.text)), ("branch", some (.text proof.branch)),
    ("defaultBranch", some (.text proof.defaultBranch)), ("head", some (.text proof.head)),
    ("evidence", some (.text proof.evidence)), ("prNumber", proof.prNumber.map .nat),
    ("prHeadOid", proof.prHeadOid.map .text), ("mergeCommitOid", proof.mergeCommitOid.map .text),
    ("headRepository", proof.headRepository.map .text), ("baseRepository", proof.baseRepository.map .text)]

def WorktreeDeletionIntegrationProof.shape (value : Json) : Option WorktreeDeletionIntegrationProof :=
  if hasOnly ["kind", "branch", "defaultBranch", "head", "evidence", "prNumber", "prHeadOid", "mergeCommitOid",
      "headRepository", "baseRepository"] value then do
    let kind ← required (readOneOf IntegrationKind.all IntegrationKind.text) "kind" value
    let branch ← required readText "branch" value
    let defaultBranch ← required readText "defaultBranch" value
    let head ← required readText "head" value
    let evidence ← required readText "evidence" value
    let prNumber ← Types.optional readNat "prNumber" value
    let prHeadOid ← Types.optional readText "prHeadOid" value
    let mergeCommitOid ← Types.optional readText "mergeCommitOid" value
    let headRepository ← Types.optional readText "headRepository" value
    let baseRepository ← Types.optional readText "baseRepository" value
    pure { kind, branch, defaultBranch, head, evidence, prNumber, prHeadOid, mergeCommitOid, headRepository,
           baseRepository }
  else none

def TerminalStatus.text : TerminalStatus → String
  | archived => "archived"
  | closed => "closed"

def WorktreeDeletionTerminalProof.fields (proof : WorktreeDeletionTerminalProof) : List (String × Option Json) :=
  [("changeId", some (.text proof.changeId)), ("status", some (.text proof.status.text)),
    ("evidence", some (.text proof.evidence))]

def WorktreeDeletionTerminalProof.shape (value : Json) : Option WorktreeDeletionTerminalProof :=
  if hasOnly ["changeId", "status", "evidence"] value then do
    let changeId ← required readText "changeId" value
    let status ← required (readOneOf [.archived, .closed] TerminalStatus.text) "status" value
    let evidence ← required readText "evidence" value
    pure { changeId, status, evidence }
  else none

/-! ## Archive recovery -/

def ArchivePathStatus.text : ArchivePathStatus → String
  | A => "A"
  | M => "M"
  | D => "D"
  | R => "R"
  | C => "C"
  | U => "U"
  | untracked => "?"

def ArchivePathStatus.all : List ArchivePathStatus := [A, M, D, R, C, U, untracked]

def WorktreeDeletionArchivePath.fields (entry : WorktreeDeletionArchivePath) : List (String × Option Json) :=
  [("path", some (.text entry.path)), ("status", some (.text entry.status.text))]

def WorktreeDeletionArchivePath.shape (value : Json) : Option WorktreeDeletionArchivePath :=
  if hasOnly ["path", "status"] value then do
    let path ← required readText "path" value
    let status ← required (readOneOf ArchivePathStatus.all ArchivePathStatus.text) "status" value
    pure { path, status }
  else none

def WorktreeDeletionCanonicalFile.fields (file : WorktreeDeletionCanonicalFile) : List (String × Option Json) :=
  [("path", some (.text file.path)), ("sha256", some (.text file.sha256))]

def WorktreeDeletionCanonicalFile.shape (value : Json) : Option WorktreeDeletionCanonicalFile :=
  if hasOnly ["path", "sha256"] value then do
    let path ← required readText "path" value
    let sha256 ← required readText "sha256" value
    pure { path, sha256 }
  else none

/-- The only value of `ancestry`. -/
def ANCESTRY : String := "pr_head_ancestor_of_local_head"

def WorktreeDeletionArchiveRecovery.fields (recovery : WorktreeDeletionArchiveRecovery) :
    List (String × Option Json) :=
  [("changeId", some (.text recovery.changeId)), ("repository", some (.text recovery.repository)),
    ("branch", some (.text recovery.branch)), ("worktree", some (.text recovery.worktree)),
    ("localHead", some (.text recovery.localHead)), ("prNumber", some (.nat recovery.prNumber)),
    ("prRepository", some (.text recovery.prRepository)), ("prHeadOid", some (.text recovery.prHeadOid)),
    ("mergeCommitOid", some (.text recovery.mergeCommitOid)),
    ("defaultBranch", some (.text recovery.defaultBranch)),
    ("defaultBranchSha", some (.text recovery.defaultBranchSha)), ("ancestry", some (.text ANCESTRY)),
    ("bundleId", some (.text recovery.bundleId)),
    ("canonicalBundlePath", some (.text recovery.canonicalBundlePath)),
    ("changedPaths", some (.list (recovery.changedPaths.map fun entry => .record entry.fields))),
    ("canonicalFiles", some (.list (recovery.canonicalFiles.map fun file => .record file.fields))),
    ("canonicalIdentity", some (.text recovery.canonicalIdentity)),
    ("allowedRoot", some (.text recovery.allowedRoot)), ("clean", some (.bool recovery.clean)),
    ("locked", some (.bool recovery.locked)), ("cwd", some (.text recovery.cwd)),
    ("cwdInsideWorktree", some (.bool recovery.cwdInsideWorktree)), ("inUse", some (.bool recovery.inUse)),
    ("terminal", some (.record recovery.terminal.fields))]

def WorktreeDeletionArchiveRecovery.shape (value : Json) : Option WorktreeDeletionArchiveRecovery :=
  if hasOnly ["changeId", "repository", "branch", "worktree", "localHead", "prNumber", "prRepository", "prHeadOid",
      "mergeCommitOid", "defaultBranch", "defaultBranchSha", "ancestry", "bundleId", "canonicalBundlePath",
      "changedPaths", "canonicalFiles", "canonicalIdentity", "allowedRoot", "clean", "locked", "cwd",
      "cwdInsideWorktree", "inUse", "terminal"] value then do
    let changeId ← required readText "changeId" value
    let repository ← required readText "repository" value
    let branch ← required readText "branch" value
    let worktree ← required readText "worktree" value
    let localHead ← required readText "localHead" value
    let prNumber ← required readNat "prNumber" value
    let prRepository ← required readText "prRepository" value
    let prHeadOid ← required readText "prHeadOid" value
    let mergeCommitOid ← required readText "mergeCommitOid" value
    let defaultBranch ← required readText "defaultBranch" value
    let defaultBranchSha ← required readText "defaultBranchSha" value
    let _ ← required (readLiteral ANCESTRY) "ancestry" value
    let bundleId ← required readText "bundleId" value
    let canonicalBundlePath ← required readText "canonicalBundlePath" value
    let changedPaths ← required (readList WorktreeDeletionArchivePath.shape) "changedPaths" value
    let canonicalFiles ← required (readList WorktreeDeletionCanonicalFile.shape) "canonicalFiles" value
    let canonicalIdentity ← required readText "canonicalIdentity" value
    let allowedRoot ← required readText "allowedRoot" value
    let clean ← required readBool "clean" value
    let locked ← required readBool "locked" value
    let cwd ← required readText "cwd" value
    let cwdInsideWorktree ← required readBool "cwdInsideWorktree" value
    let inUse ← required readBool "inUse" value
    let terminal ← required WorktreeDeletionTerminalProof.shape "terminal" value
    pure { changeId, repository, branch, worktree, localHead, prNumber, prRepository, prHeadOid, mergeCommitOid,
           defaultBranch, defaultBranchSha, bundleId, canonicalBundlePath, changedPaths, canonicalFiles,
           canonicalIdentity, allowedRoot, clean, locked, cwd, cwdInsideWorktree, inUse, terminal }
  else none

/-! ## Payloads -/

def RemovalMode.text : RemovalMode → String
  | normal => "normal"
  | archive_owned_projection => "archive_owned_projection"

def WorktreeDeletionTokenPayload.fields (payload : WorktreeDeletionTokenPayload) : List (String × Option Json) :=
  [("version", some (.text "wdp1")), ("facts", some (.record payload.facts.fields)),
    ("force", payload.force.map .bool), ("expiresAt", some (.nat payload.expiresAt)),
    ("integration", payload.integration.map fun proof => .record proof.fields),
    ("terminal", payload.terminal.map fun proof => .record proof.fields),
    ("removalMode", payload.removalMode.map fun mode => .text mode.text),
    ("archiveRecovery", payload.archiveRecovery.map fun recovery => .record recovery.fields)]

def WorktreeDeletionTokenPayload.shape (value : Json) : Option WorktreeDeletionTokenPayload :=
  if hasOnly ["version", "facts", "force", "expiresAt", "integration", "terminal", "removalMode", "archiveRecovery"]
      value then do
    let _ ← required (readLiteral "wdp1") "version" value
    let facts ← required WorktreeDeletionFacts.shape "facts" value
    let force ← Types.optional readBool "force" value
    let expiresAt ← required readNat "expiresAt" value
    let integration ← Types.optional WorktreeDeletionIntegrationProof.shape "integration" value
    let terminal ← Types.optional WorktreeDeletionTerminalProof.shape "terminal" value
    let removalMode ←
      Types.optional (readOneOf [.normal, .archive_owned_projection] RemovalMode.text) "removalMode" value
    let archiveRecovery ← Types.optional WorktreeDeletionArchiveRecovery.shape "archiveRecovery" value
    pure { facts, force, expiresAt, integration, terminal, removalMode, archiveRecovery }
  else none

/-- A payload is valid for its schema. -/
def WorktreeDeletionTokenPayload.accepted (payload : WorktreeDeletionTokenPayload) : Bool :=
  payload.facts.accepted && 0 < payload.expiresAt && payload.expiresAt ≤ MAX_SAFE_INTEGER &&
    payload.integration.all (fun proof => proof.accepted && proof.prNumber.all (· ≤ MAX_SAFE_INTEGER)) &&
    payload.terminal.all (·.accepted) &&
    payload.archiveRecovery.all fun recovery => recovery.accepted && recovery.prNumber ≤ MAX_SAFE_INTEGER

/-- `WorktreeDeletionTokenPayloadSchema.parse` -/
def WorktreeDeletionTokenPayload.parse (value : Json) : Option WorktreeDeletionTokenPayload :=
  (shape value).filter WorktreeDeletionTokenPayload.accepted

/-! ## Tokens -/

def isTokenHash (text : String) : Bool :=
  text.length = 64 && text.toList.all fun c => '0' ≤ c && c ≤ '9' || 'a' ≤ c && c ≤ 'f'

/-- The hash of bytes in lower-case hexadecimal, and the text that bytes make which are not UTF-8. -/
structure TokenPlatform where
  sha256 : List UInt8 → String
  hexadecimal : ∀ bytes, isTokenHash (sha256 bytes) = true
  replaced : List UInt8 → String

/-- `Buffer.from(text, "utf8")` -/
def utf8 (text : List Char) : List UInt8 := (String.ofList text).toByteArray.data.toList

/-- `BASE64URL_RE` -/
def isBase64Url (text : List Char) : Bool := !text.isEmpty && text.all Base64.isDigit

def encodePayload (payload : WorktreeDeletionTokenPayload) : List Char :=
  Base64.encode (utf8 (stableStringify (.record payload.fields)))

section

variable (platform : TokenPlatform)

/-- `bytes.toString("utf8")` -/
def TokenPlatform.textOf (bytes : List UInt8) : List Char :=
  ((String.fromUTF8? ⟨bytes.toArray⟩).getD (platform.replaced bytes)).toList

def decodePayload (encoded : List Char) : Option WorktreeDeletionTokenPayload :=
  let bytes := Base64.decode encoded
  if !isBase64Url encoded || bytes.isEmpty || Base64.encode bytes ≠ encoded then none
  else do
    let parsed ← Json.parse (platform.textOf bytes)
    let payload ← WorktreeDeletionTokenPayload.parse parsed
    if encodePayload payload = encoded then some payload else none

/-- The parts of a token, with dots between them. -/
def tokenText (encoded hash : List Char) : List Char := "wdp1.".toList ++ encoded ++ '.' :: hash

def encodeWorktreeDeletionToken (payload : WorktreeDeletionTokenPayload) : Option String :=
  if payload.accepted then
    some (String.ofList (tokenText (encodePayload payload) (platform.sha256 (utf8 (encodePayload payload))).toList))
  else none

def decodeWorktreeDeletionToken (token : String) : Option WorktreeDeletionTokenPayload :=
  match token.toList.splitOn '.' with
  | [version, encoded, hash] =>
    if version ≠ "wdp1".toList || !isBase64Url encoded || !isTokenHash (String.ofList hash) ||
        String.ofList hash ≠ platform.sha256 (utf8 encoded) then none
    else decodePayload platform encoded
  | _ => none

def hashWorktreeDeletionFacts (facts : WorktreeDeletionFacts) : String := platform.sha256 (utf8 (canonicalFacts facts))

/-- The codec that the schema of a plan uses. -/
def TokenPlatform.codec : TokenCodec where
  encode payload := (encodeWorktreeDeletionToken platform payload).getD ""
  decode := decodeWorktreeDeletionToken platform
  hashFacts := hashWorktreeDeletionFacts platform

end

/-! ## Documents are read back -/

theorem readText_stable (text : String) : readText (stableJson (.text text)) = some text := rfl

variable {fields : List (String × Option Json)}

theorem text_stable (distinct : (fields.map Prod.fst).Nodup)
    {key text : String} (held : (key, some (.text text)) ∈ fields) :
    required readText key (stableJson (.record fields)) = some text :=
  required_stable distinct held (readText_stable text)

theorem readBool_stable (value : Bool) : readBool (stableJson (.bool value)) = some value := rfl

theorem readNullable_stable (text : Option String) : readNullable (stableJson (nullable text)) = some text := by
  cases text <;> rfl

theorem readLiteral_stable (text : String) : readLiteral text (stableJson (.text text)) = some () := by
  simp [stableJson, readLiteral]

theorem readNat_stable (n : Nat) : readNat (stableJson (.nat n)) = some n := rfl

theorem readOneOf_kind (kind : IntegrationKind) :
    readOneOf IntegrationKind.all IntegrationKind.text (stableJson (.text kind.text)) = some kind := by
  cases kind <;> rfl

theorem readOneOf_terminal (status : TerminalStatus) :
    readOneOf [.archived, .closed] TerminalStatus.text (stableJson (.text status.text)) = some status := by
  cases status <;> rfl

theorem readOneOf_path (status : ArchivePathStatus) :
    readOneOf ArchivePathStatus.all ArchivePathStatus.text (stableJson (.text status.text)) = some status := by
  cases status <;> rfl

theorem readOneOf_mode (mode : RemovalMode) :
    readOneOf [.normal, .archive_owned_projection] RemovalMode.text (stableJson (.text mode.text)) = some mode := by
  cases mode <;> rfl

theorem WorktreeDeletionFacts.shape_record {facts : WorktreeDeletionFacts}
    (distinct : (fields.map Prod.fst).Nodup) (stands : ∀ field ∈ facts.fields, field ∈ fields)
    (known : ∀ field ∈ fields, field.1 ∈ facts.fields.map Prod.fst) :
    shape (stableJson (.record fields)) = some facts := by
  simp only [WorktreeDeletionFacts.fields, List.forall_mem_cons, List.not_mem_nil, false_imp_iff, implies_true,
    and_true] at stands
  obtain ⟨repository, worktree, branch, head, detached, bare, locked, prunable, dirty, mainWorktree, cwd,
    cwdInsideWorktree, inUse, gitCorrupt⟩ := stands
  unfold shape
  have keys := hasOnly_stable known
  simp only [WorktreeDeletionFacts.fields, List.map_cons, List.map_nil] at keys
  rw [if_pos keys, text_stable distinct repository,
    text_stable distinct worktree, required_stable distinct branch (readNullable_stable _),
    text_stable distinct head, required_stable distinct detached (readBool_stable _),
    required_stable distinct bare (readBool_stable _), required_stable distinct locked (readBool_stable _),
    required_stable distinct prunable (readBool_stable _), required_stable distinct dirty (readBool_stable _),
    optional_stable distinct mainWorktree fun held _ => readBool_stable held,
    optional_stable distinct cwd fun held _ => readText_stable held,
    optional_stable distinct cwdInsideWorktree fun held _ => readBool_stable held,
    optional_stable distinct inUse fun held _ => readBool_stable held,
    optional_stable distinct gitCorrupt fun held _ => readBool_stable held]
  rfl

theorem WorktreeDeletionIntegrationProof.shape_record (proof : WorktreeDeletionIntegrationProof) :
    shape (stableJson (.record proof.fields)) = some proof := by
  have distinct : (proof.fields.map Prod.fst).Nodup := by simp [fields]
  have stands : ∀ field ∈ proof.fields, field ∈ proof.fields := fun _ => id
  nth_rewrite 1 [fields] at stands
  simp only [List.forall_mem_cons, List.not_mem_nil, false_imp_iff, implies_true, and_true] at stands
  obtain ⟨kind, branch, defaultBranch, head, evidence, prNumber, prHeadOid, mergeCommitOid, headRepository,
    baseRepository⟩ := stands
  unfold shape
  rw [if_pos (hasOnly_stable (by simp [fields])), required_stable distinct kind (readOneOf_kind _),
    text_stable distinct branch, text_stable distinct defaultBranch,
    text_stable distinct head, text_stable distinct evidence,
    optional_stable distinct prNumber fun held _ => readNat_stable held,
    optional_stable distinct prHeadOid fun held _ => readText_stable held,
    optional_stable distinct mergeCommitOid fun held _ => readText_stable held,
    optional_stable distinct headRepository fun held _ => readText_stable held,
    optional_stable distinct baseRepository fun held _ => readText_stable held]
  rfl

theorem WorktreeDeletionTerminalProof.shape_record (proof : WorktreeDeletionTerminalProof) :
    shape (stableJson (.record proof.fields)) = some proof := by
  have distinct : (proof.fields.map Prod.fst).Nodup := by simp [fields]
  unfold shape
  rw [if_pos (hasOnly_stable (by simp [fields])),
    required_stable distinct (by simp [fields]) (readText_stable proof.changeId),
    required_stable distinct (by simp [fields]) (readOneOf_terminal proof.status),
    required_stable distinct (by simp [fields]) (readText_stable proof.evidence)]
  rfl

theorem WorktreeDeletionArchivePath.shape_record (entry : WorktreeDeletionArchivePath) :
    shape (stableJson (.record entry.fields)) = some entry := by
  have distinct : (entry.fields.map Prod.fst).Nodup := by simp [fields]
  unfold shape
  rw [if_pos (hasOnly_stable (by simp [fields])),
    required_stable distinct (by simp [fields]) (readText_stable entry.path),
    required_stable distinct (by simp [fields]) (readOneOf_path entry.status)]
  rfl

theorem WorktreeDeletionCanonicalFile.shape_record (file : WorktreeDeletionCanonicalFile) :
    shape (stableJson (.record file.fields)) = some file := by
  have distinct : (file.fields.map Prod.fst).Nodup := by simp [fields]
  unfold shape
  rw [if_pos (hasOnly_stable (by simp [fields])),
    required_stable distinct (by simp [fields]) (readText_stable file.path),
    required_stable distinct (by simp [fields]) (readText_stable file.sha256)]
  rfl

theorem WorktreeDeletionArchiveRecovery.shape_record (recovery : WorktreeDeletionArchiveRecovery) :
    shape (stableJson (.record recovery.fields)) = some recovery := by
  have distinct : (recovery.fields.map Prod.fst).Nodup := by simp [fields]
  have stands : ∀ field ∈ recovery.fields, field ∈ recovery.fields := fun _ => id
  nth_rewrite 1 [fields] at stands
  simp only [List.forall_mem_cons, List.not_mem_nil, false_imp_iff, implies_true, and_true] at stands
  obtain ⟨changeId, repository, branch, worktree, localHead, prNumber, prRepository, prHeadOid, mergeCommitOid,
    defaultBranch, defaultBranchSha, ancestry, bundleId, canonicalBundlePath, changedPaths, canonicalFiles,
    canonicalIdentity, allowedRoot, clean, locked, cwd, cwdInsideWorktree, inUse, terminal⟩ := stands
  have paths : readList WorktreeDeletionArchivePath.shape (stableJson (.list (recovery.changedPaths.map fun entry =>
      .record entry.fields))) = some recovery.changedPaths :=
    readList_stable fun entry _ => WorktreeDeletionArchivePath.shape_record entry
  have files : readList WorktreeDeletionCanonicalFile.shape (stableJson (.list (recovery.canonicalFiles.map fun file =>
      .record file.fields))) = some recovery.canonicalFiles :=
    readList_stable fun file _ => WorktreeDeletionCanonicalFile.shape_record file
  unfold shape
  rw [if_pos (hasOnly_stable (by simp [fields])), text_stable distinct changeId,
    text_stable distinct repository, text_stable distinct branch,
    text_stable distinct worktree, text_stable distinct localHead,
    required_stable distinct prNumber (readNat_stable _), text_stable distinct prRepository,
    text_stable distinct prHeadOid,
    text_stable distinct mergeCommitOid,
    text_stable distinct defaultBranch,
    text_stable distinct defaultBranchSha,
    required_stable distinct ancestry (readLiteral_stable _), text_stable distinct bundleId,
    text_stable distinct canonicalBundlePath, required_stable distinct changedPaths paths,
    required_stable distinct canonicalFiles files, text_stable distinct canonicalIdentity,
    text_stable distinct allowedRoot, required_stable distinct clean (readBool_stable _),
    required_stable distinct locked (readBool_stable _), text_stable distinct cwd,
    required_stable distinct cwdInsideWorktree (readBool_stable _),
    required_stable distinct inUse (readBool_stable _),
    required_stable distinct terminal (WorktreeDeletionTerminalProof.shape_record _)]
  rfl

theorem WorktreeDeletionTokenPayload.shape_record (payload : WorktreeDeletionTokenPayload) :
    shape (stableJson (.record payload.fields)) = some payload := by
  have distinct : (payload.fields.map Prod.fst).Nodup := by simp [fields]
  have stands : ∀ field ∈ payload.fields, field ∈ payload.fields := fun _ => id
  nth_rewrite 1 [fields] at stands
  simp only [List.forall_mem_cons, List.not_mem_nil, false_imp_iff, implies_true, and_true] at stands
  obtain ⟨version, facts, force, expiresAt, integration, terminal, removalMode, archiveRecovery⟩ := stands
  unfold shape
  rw [if_pos (hasOnly_stable (by simp [fields])), required_stable distinct version (readLiteral_stable _),
    required_stable distinct facts (WorktreeDeletionFacts.shape_record (by simp [WorktreeDeletionFacts.fields])
      (fun _ => id) fun _ => List.mem_map_of_mem),
    optional_stable distinct force fun held _ => readBool_stable held,
    required_stable distinct expiresAt (readNat_stable _),
    optional_stable distinct integration fun held _ => WorktreeDeletionIntegrationProof.shape_record held,
    optional_stable distinct terminal fun held _ => WorktreeDeletionTerminalProof.shape_record held,
    optional_stable distinct removalMode fun held _ => readOneOf_mode held,
    optional_stable distinct archiveRecovery fun held _ => WorktreeDeletionArchiveRecovery.shape_record held]
  rfl

theorem WorktreeDeletionTokenPayload.parse_record {payload : WorktreeDeletionTokenPayload}
    (accepted : payload.accepted = true) : parse (stableJson (.record payload.fields)) = some payload := by
  rw [parse, shape_record]
  exact Option.filter_some_pos accepted

/-- The text that is hashed leaves out no fact. -/
theorem canonicalFacts_inj {facts others : WorktreeDeletionFacts}
    (same : canonicalFacts facts = canonicalFacts others) : facts = others := by
  have read : ∀ facts : WorktreeDeletionFacts,
      WorktreeDeletionFacts.shape (stableJson (.record facts.canonicalFields)) = some facts := fun facts =>
    WorktreeDeletionFacts.shape_record (by simp [WorktreeDeletionFacts.canonicalFields])
      (by simp [WorktreeDeletionFacts.canonicalFields, WorktreeDeletionFacts.fields])
      (by simp [WorktreeDeletionFacts.canonicalFields, WorktreeDeletionFacts.fields])
  have stable := congrArg WorktreeDeletionFacts.shape (stableStringify_inj same)
  rw [read, read] at stable
  exact Option.some.inj stable

/-! ## Tokens are read back -/

theorem textOf_utf8 (platform : TokenPlatform) (text : List Char) : platform.textOf (utf8 text) = text := by
  have bytes : (⟨(utf8 text).toArray⟩ : ByteArray) = (String.ofList text).toByteArray := by simp [utf8]
  have valid : String.fromUTF8? (String.ofList text).toByteArray = some (String.ofList text) :=
    dif_pos (String.ofList text).isValidUTF8
  rw [TokenPlatform.textOf, bytes, valid]
  exact String.toList_ofList

theorem utf8_ne_nil {text : List Char} (filled : text ≠ []) : utf8 text ≠ [] := by
  intro empty
  have bytes : (String.ofList text).toByteArray = ("" : String).toByteArray := by
    have none : (String.ofList text).toByteArray.data = #[] := by simpa [utf8] using empty
    exact ByteArray.ext none
  have same := congrArg String.toList (String.toByteArray_inj.mp bytes)
  exact filled (by simpa using same)

theorem stableStringify_ne_nil (value : Json) : stableStringify value ≠ [] := by
  obtain ⟨c, rest, written, _⟩ := Json.print_starts (stableJson value) []
  rw [List.append_nil] at written
  simp [stableStringify, written]

theorem encodePayload_alphabet (payload : WorktreeDeletionTokenPayload) :
    isBase64Url (encodePayload payload) = true := by
  have filled := utf8_ne_nil (stableStringify_ne_nil (.record payload.fields))
  have digits := List.all_eq_true.mpr (Base64.encode_alphabet (utf8 (stableStringify (.record payload.fields))))
  have written := Base64.encode_ne_nil filled
  simp [isBase64Url, encodePayload, written, digits]

theorem decodePayload_encode (platform : TokenPlatform) {payload : WorktreeDeletionTokenPayload}
    (accepted : payload.accepted = true) : decodePayload platform (encodePayload payload) = some payload := by
  have alphabet := encodePayload_alphabet payload
  have bytes : Base64.decode (encodePayload payload) = utf8 (stableStringify (.record payload.fields)) :=
    Base64.decode_encode _
  have filled : (utf8 (stableStringify (.record payload.fields))).isEmpty = false := by
    simpa using utf8_ne_nil (stableStringify_ne_nil (.record payload.fields))
  have again : Base64.encode (utf8 (stableStringify (.record payload.fields))) = encodePayload payload := rfl
  unfold decodePayload
  simp only [bytes, alphabet, filled, again, textOf_utf8]
  simp [stableStringify, Json.parse_print, WorktreeDeletionTokenPayload.parse_record accepted]

theorem encodePayload_of_decode {platform : TokenPlatform} {encoded : List Char}
    {payload : WorktreeDeletionTokenPayload} (decoded : decodePayload platform encoded = some payload) :
    payload.accepted = true ∧ encodePayload payload = encoded := by
  unfold decodePayload at decoded
  dsimp only at decoded
  split at decoded
  next => cases decoded
  next =>
    obtain ⟨parsed, _, read⟩ := Option.bind_eq_some_iff.mp decoded
    obtain ⟨found, accepted, same⟩ := Option.bind_eq_some_iff.mp read
    split at same
    next canonical =>
      obtain rfl := Option.some.inj same
      exact ⟨(Option.filter_eq_some_iff.mp accepted).2, canonical⟩
    next => cases same

/-! ## Tokens and payloads -/

section

variable {platform : TokenPlatform} {payload : WorktreeDeletionTokenPayload} {token : String}

theorem dot_not_mem_hash (bytes : List UInt8) : '.' ∉ (platform.sha256 bytes).toList := by
  intro member
  have hexadecimal := platform.hexadecimal bytes
  simp only [isTokenHash, Bool.and_eq_true, List.all_eq_true] at hexadecimal
  exact absurd (hexadecimal.2 '.' member) (by decide)

theorem dot_not_mem_digits {encoded : List Char} (alphabet : isBase64Url encoded = true) : '.' ∉ encoded := by
  intro member
  simp only [isBase64Url, Bool.and_eq_true, List.all_eq_true] at alphabet
  exact absurd (alphabet.2 '.' member) (by decide)

theorem splitOn_token {encoded hash : List Char} (alphabet : isBase64Url encoded = true) (plain : '.' ∉ hash) :
    (tokenText encoded hash).splitOn '.' = ["wdp1".toList, encoded, hash] := by
  have whole : tokenText encoded hash = "wdp1".toList ++ '.' :: (encoded ++ '.' :: hash) := by simp [tokenText]
  rw [whole, List.splitOn_append_cons_self_of_not_mem (by decide),
    List.splitOn_append_cons_self_of_not_mem (dot_not_mem_digits alphabet), List.splitOn_eq_singleton plain]

theorem encode_accepted (accepted : payload.accepted = true) :
    ∃ token, encodeWorktreeDeletionToken platform payload = some token :=
  ⟨_, if_pos accepted⟩

theorem decode_encode (encoded : encodeWorktreeDeletionToken platform payload = some token) :
    decodeWorktreeDeletionToken platform token = some payload := by
  unfold encodeWorktreeDeletionToken at encoded
  split at encoded
  next accepted =>
    obtain rfl := Option.some.inj encoded
    have alphabet := encodePayload_alphabet payload
    have hash := platform.hexadecimal (utf8 (encodePayload payload))
    rw [decodeWorktreeDeletionToken, String.toList_ofList, splitOn_token alphabet (dot_not_mem_hash _)]
    simp only [String.ofList_toList, alphabet, hash, decodePayload_encode platform accepted]
    simp
  next => cases encoded

theorem encode_of_decode (decoded : decodeWorktreeDeletionToken platform token = some payload) :
    encodeWorktreeDeletionToken platform payload = some token := by
  unfold decodeWorktreeDeletionToken at decoded
  split at decoded
  next version encoded hash parts =>
    split at decoded
    next => cases decoded
    next checked =>
      simp only [Bool.or_eq_true, Bool.not_eq_true', decide_eq_true_eq, not_or, not_not] at checked
      obtain ⟨⟨⟨rfl, alphabet⟩, _⟩, hashed⟩ := checked
      obtain ⟨accepted, rfl⟩ := encodePayload_of_decode decoded
      have joined : token.toList = tokenText (encodePayload payload) hash := by
        have whole : ['.'].intercalate (token.toList.splitOn '.') = token.toList := List.intercalate_splitOn '.'
        rw [← whole, parts]
        simp [List.intercalate, tokenText]
      unfold encodeWorktreeDeletionToken
      rw [if_pos accepted, ← hashed, String.toList_ofList, ← joined, String.ofList_toList]
  next => cases decoded

end

/-! ## What a plan binds -/

/-- What a plan says besides its repository and its token. -/
def WorktreeDeletionPlan.payload (plan : WorktreeDeletionPlan) : WorktreeDeletionTokenPayload :=
  ⟨plan.facts, plan.force, plan.expiresAt, plan.integration, plan.terminal, plan.removalMode, plan.archiveRecovery⟩

section

variable (platform : TokenPlatform) (plan : WorktreeDeletionPlan)

def WorktreeDeletionPlan.CollisionFree : Prop :=
  ∀ payload, decodeWorktreeDeletionToken platform plan.token = some payload →
    hashWorktreeDeletionFacts platform payload.facts = hashWorktreeDeletionFacts platform plan.facts →
      canonicalFacts payload.facts = canonicalFacts plan.facts

variable {platform plan}

theorem tokenBinds_iff (collisionFree : plan.CollisionFree platform) :
    plan.boundBy platform.codec = true ↔ decodeWorktreeDeletionToken platform plan.token = some plan.payload := by
  unfold WorktreeDeletionPlan.boundBy TokenPlatform.codec
  dsimp only
  cases decoded : decodeWorktreeDeletionToken platform plan.token with
  | none => simp
  | some payload =>
    have facts : hashWorktreeDeletionFacts platform payload.facts = hashWorktreeDeletionFacts platform plan.facts ↔
        payload.facts = plan.facts :=
      ⟨fun same => canonicalFacts_inj (collisionFree payload decoded same), fun same => same ▸ rfl⟩
    simp only [facts, Bool.and_eq_true, decide_eq_true_eq, Option.some.injEq]
    obtain ⟨facts, force, expiresAt, integration, terminal, removalMode, archiveRecovery⟩ := payload
    simp only [WorktreeDeletionPlan.payload, WorktreeDeletionTokenPayload.mk.injEq]
    constructor
    · rintro ⟨⟨⟨⟨⟨⟨expires, sameFacts⟩, proof⟩, forced⟩, final⟩, mode⟩, recovery⟩
      exact ⟨sameFacts, forced, expires, proof, final, mode, recovery⟩
    · rintro ⟨sameFacts, forced, expires, proof, final, mode, recovery⟩
      exact ⟨⟨⟨⟨⟨⟨expires, sameFacts⟩, proof⟩, forced⟩, final⟩, mode⟩, recovery⟩

def WorktreeDeletionPlan.FieldsValid (plan : WorktreeDeletionPlan) : Prop :=
  nonEmptyText plan.repository = true ∧ plan.facts.accepted = true ∧ 0 < plan.expiresAt ∧
    nonEmptyText plan.token = true ∧ plan.integration.all (·.accepted) = true ∧
    plan.terminal.all (·.accepted) = true ∧ plan.archiveRecovery.all (·.accepted) = true

/-- Recovery data come with their removal mode only, and then with a merged request, their own terminal proof and
    no force. -/
def WorktreeDeletionPlan.ArchiveConsistent (plan : WorktreeDeletionPlan) : Prop :=
  (plan.removalMode = some .archive_owned_projection ↔ plan.archiveRecovery.isSome = true) ∧
    (plan.removalMode = some .archive_owned_projection →
      plan.integration.map (·.kind) = some .pr_merged ∧ plan.terminal.isSome = true ∧
        plan.terminal = plan.archiveRecovery.map (·.terminal) ∧ plan.force ≠ some true)

theorem plan_accepted_iff (collisionFree : plan.CollisionFree platform) :
    plan.accepted platform.codec = true ↔ plan.FieldsValid ∧ plan.repository = plan.facts.repository ∧
      decodeWorktreeDeletionToken platform plan.token = some plan.payload ∧ plan.ArchiveConsistent := by
  rw [← tokenBinds_iff collisionFree]
  unfold WorktreeDeletionPlan.accepted WorktreeDeletionPlan.FieldsValid WorktreeDeletionPlan.ArchiveConsistent
    WorktreeDeletionPlan.archiveMode
  -- the checks of the mode and of the recovery data, for each mode
  have modes : ((decide (plan.removalMode = some .archive_owned_projection) = plan.archiveRecovery.isSome) ∧
      (!(plan.removalMode = some .normal && plan.archiveRecovery.isSome)) = true) ↔
        (plan.removalMode = some .archive_owned_projection ↔ plan.archiveRecovery.isSome = true) := by
    rcases plan.removalMode with _ | _ | _ <;> cases plan.archiveRecovery <;> simp
  have proofs : ((!decide (plan.removalMode = some .archive_owned_projection) ||
      (plan.integration.map (·.kind)) = some .pr_merged && plan.terminal.isSome &&
        plan.terminal = plan.archiveRecovery.map (·.terminal)) = true ∧
      (!(decide (plan.removalMode = some .archive_owned_projection) && plan.force = some true)) = true) ↔
        (plan.removalMode = some .archive_owned_projection →
          plan.integration.map (·.kind) = some .pr_merged ∧ plan.terminal.isSome = true ∧
            plan.terminal = plan.archiveRecovery.map (·.terminal) ∧ plan.force ≠ some true) := by
    by_cases archive : plan.removalMode = some .archive_owned_projection <;> simp [archive, and_assoc]
  rw [← modes, ← proofs]
  simp only [Bool.and_eq_true, decide_eq_true_eq, and_assoc]

theorem nonEmptyText_token {token : String} {payload : WorktreeDeletionTokenPayload}
    (decoded : decodeWorktreeDeletionToken platform token = some payload) : nonEmptyText token = true := by
  have encoded := encode_of_decode decoded
  unfold encodeWorktreeDeletionToken at encoded
  split at encoded
  next =>
    obtain rfl := Option.some.inj encoded
    have digits := encodePayload_alphabet payload
    have hash := platform.hexadecimal (utf8 (encodePayload payload))
    simp only [isBase64Url, Bool.and_eq_true, List.all_eq_true] at digits
    simp only [isTokenHash, Bool.and_eq_true, List.all_eq_true] at hash
    have unnamed : '\x00' ∉ tokenText (encodePayload payload)
        (platform.sha256 (utf8 (encodePayload payload))).toList := by
      intro member
      simp only [tokenText, List.mem_append, List.mem_cons] at member
      obtain (version | digit) | dot | hex := member
      · revert version
        decide
      · exact absurd (digits.2 _ digit) (by decide)
      · exact absurd dot (by decide)
      · exact absurd (hash.2 _ hex) (by decide)
    have filled : tokenText (encodePayload payload)
        (platform.sha256 (utf8 (encodePayload payload))).toList ≠ [] := by simp [tokenText]
    simp only [nonEmptyText, String.toList_ofList]
    simp [filled, unnamed]
  next => cases encoded

end

/-- A token decodes to what it encodes, no other text decodes, and the plan that a token binds is accepted when its
    fields are valid and its recovery data consistent. -/
theorem tokens_bind (platform : TokenPlatform) :
    (∀ payload, WorktreeDeletionTokenPayload.accepted payload = true → ∃ token,
      encodeWorktreeDeletionToken platform payload = some token ∧
        decodeWorktreeDeletionToken platform token = some payload) ∧
    (∀ token payload, decodeWorktreeDeletionToken platform token = some payload →
      encodeWorktreeDeletionToken platform payload = some token) ∧
    (∀ token, (∀ payload, encodeWorktreeDeletionToken platform payload ≠ some token) →
      decodeWorktreeDeletionToken platform token = none) ∧
    (∀ plan : WorktreeDeletionPlan, plan.CollisionFree platform →
      (plan.accepted platform.codec = true ↔ plan.FieldsValid ∧ plan.repository = plan.facts.repository ∧
        decodeWorktreeDeletionToken platform plan.token = some plan.payload ∧ plan.ArchiveConsistent)) := by
  refine ⟨fun payload accepted => ?_, fun _ _ => encode_of_decode, fun token unknown => ?_,
    fun _ => plan_accepted_iff⟩
  · obtain ⟨token, encoded⟩ := @encode_accepted platform payload accepted
    exact ⟨token, encoded, decode_encode encoded⟩
  · cases decoded : decodeWorktreeDeletionToken platform token with
    | none => rfl
    | some payload => exact absurd (encode_of_decode decoded) (unknown payload)

/-! ## Fixed runs -/

def sampleFacts : WorktreeDeletionFacts where
  repository := "/repo with spaces"
  worktree := "/tmp/worktree with spaces"
  branch := some "release/v1"
  head := "0123456789abcdef0123456789abcdef01234567"
  detached := false
  bare := false
  locked := false
  prunable := false
  dirty := false
  mainWorktree := none
  cwd := none
  cwdInsideWorktree := none
  inUse := none
  gitCorrupt := none

def samplePayload : WorktreeDeletionTokenPayload := ⟨sampleFacts, none, 1800000000000, none, none, none, none⟩

def unprovedPayload : WorktreeDeletionTokenPayload :=
  { samplePayload with removalMode := some .archive_owned_projection }

def sampleHash (bytes : List UInt8) : String :=
  if bytes = utf8 (encodePayload samplePayload) then
    "410fa9884fec7d125c95698f9b980cc59b950b3163befd93d86d63a5d20b576a"
  else if bytes = utf8 (encodePayload unprovedPayload) then
    "7536f7c21b2ae0818fe5c8e11c6c470f282c1b1cf50a4c815a15a44ee2115364"
  else if bytes = utf8 (canonicalFacts sampleFacts) then
    "b59edfa852ba475e9496d4b1af772d4dff3773271548283f88442498cc8e1b2c"
  else "e3b0c44298fc1c149afbf4c8996fb92427ae41e4649b934ca495991b7852b855"

def samplePlatform : TokenPlatform where
  sha256 := sampleHash
  hexadecimal bytes := by
    unfold sampleHash
    split_ifs <;> rfl
  replaced _ := ""

def WorktreeDeletionTokenPayload.plan (payload : WorktreeDeletionTokenPayload) : WorktreeDeletionPlan where
  repository := payload.facts.repository
  facts := payload.facts
  force := payload.force
  expiresAt := payload.expiresAt
  token := (encodeWorktreeDeletionToken samplePlatform payload).getD ""
  integration := payload.integration
  terminal := payload.terminal
  removalMode := payload.removalMode
  archiveRecovery := payload.archiveRecovery

theorem decode_plan {payload : WorktreeDeletionTokenPayload} (accepted : payload.accepted = true) :
    decodeWorktreeDeletionToken samplePlatform payload.plan.token = some payload := by
  obtain ⟨token, encoded⟩ := @encode_accepted samplePlatform payload accepted
  have held : payload.plan.token = token := by simp [WorktreeDeletionTokenPayload.plan, encoded]
  exact held ▸ decode_encode encoded

theorem all_left {α : Type} {part : Option α} {first second : α → Bool}
    (both : part.all (fun held => first held && second held) = true) : part.all first = true := by
  cases part with
  | none => rfl
  | some held =>
    rw [Option.all_some, Bool.and_eq_true] at both
    exact both.1

theorem fieldsValid_plan {payload : WorktreeDeletionTokenPayload} (accepted : payload.accepted = true) :
    payload.plan.FieldsValid := by
  have token := nonEmptyText_token (decode_plan accepted)
  simp only [WorktreeDeletionTokenPayload.accepted, Bool.and_eq_true, decide_eq_true_eq] at accepted
  obtain ⟨⟨⟨⟨⟨facts, expires⟩, _⟩, proof⟩, final⟩, recovery⟩ := accepted
  have repository := facts
  simp only [WorktreeDeletionFacts.accepted, Bool.and_eq_true] at repository
  exact ⟨repository.1.1.1.1, facts, expires, token, all_left proof, final, all_left recovery⟩

theorem collisionFree_plan {payload : WorktreeDeletionTokenPayload} (accepted : payload.accepted = true) :
    payload.plan.CollisionFree samplePlatform := by
  intro other decoded _
  rw [decode_plan accepted] at decoded
  exact Option.some.inj decoded ▸ rfl

/-- The plan of the sample is accepted. -/
theorem sample_bound : decodeWorktreeDeletionToken samplePlatform samplePayload.plan.token = some samplePayload ∧
      samplePayload.plan.accepted samplePlatform.codec = true := by
  obtain ⟨encodes, _, _, accepts⟩ := tokens_bind samplePlatform
  obtain ⟨token, encoded, decoded⟩ := encodes samplePayload (by rfl)
  have held : samplePayload.plan.token = token := by simp [WorktreeDeletionTokenPayload.plan, encoded]
  have accepted : samplePayload.accepted = true := by rfl
  rw [held]
  exact ⟨decoded, (accepts _ (collisionFree_plan accepted)).mpr
    ⟨fieldsValid_plan accepted, rfl, held ▸ decoded, by decide, by decide⟩⟩

/-- A token binds the plan of an archive mode that has no recovery data, and the plan is not accepted. -/
theorem unproved_refused : unprovedPayload.plan.FieldsValid ∧ unprovedPayload.plan.CollisionFree samplePlatform ∧
      unprovedPayload.plan.repository = unprovedPayload.plan.facts.repository ∧
      decodeWorktreeDeletionToken samplePlatform unprovedPayload.plan.token = some unprovedPayload.plan.payload ∧
      unprovedPayload.plan.accepted samplePlatform.codec = false := by
  have accepted : unprovedPayload.accepted = true := by rfl
  have decoded := decode_plan accepted
  refine ⟨fieldsValid_plan accepted, collisionFree_plan accepted, rfl, decoded, ?_⟩
  rw [Bool.eq_false_iff]
  intro taken
  obtain ⟨_, _, _, consistent, _⟩ := (plan_accepted_iff (collisionFree_plan accepted)).mp taken
  exact absurd consistent (by decide)

end Advance.Tools.Worktree
