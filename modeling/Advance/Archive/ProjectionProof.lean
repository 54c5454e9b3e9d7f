import Advance.Archive.ArchiveManifest

/-! # The projection proof

A released archive is checked against the manifest its run recorded: the
manifest is of this change and accounts for each of its deltas, and the released
specs and documents have the digests it states.
-/

namespace Advance.Archive

open JavaScript
open Types

inductive ProjectionProofFailureCode where
  | manifestAbsent
  | manifestInvalid
  | manifestMismatch
  | specUnreadable
  | specMismatch
  | versionMismatch
  | requirementMismatch
  | documentUnreadable
  | documentMismatch
  | repoError
  deriving DecidableEq

structure ProjectionProofFailure where
  code : ProjectionProofFailureCode
  capability : Option String
  message : String
  deriving DecidableEq

structure ArchiveProjectionProofReceipt where
  change_id : String
  manifest_sha256 : SHA256Digest
  released_commit_sha : String
  verified_at : String
  deriving DecidableEq

inductive ProjectionProofResult where
  | verified (receipt : ArchiveProjectionProofReceipt)
  | failed (failure : ProjectionProofFailure)
  deriving DecidableEq

/-- `/^(?:[a-f0-9]{40}|[a-f0-9]{64})$/` -/
def isFullCommitSha (text : String) : Bool :=
  (text.length = 40 || text.length = 64) && text.toList.all fun c => ('a' ≤ c && c ≤ 'f') || ('0' ≤ c && c ≤ '9')

/-- `ArchiveProjectionProofReceiptSchema.parse`, nothing where it throws. -/
def receiptOf (changeId : String) (manifestDigest : SHA256Digest) (commitSha verifiedAt : String) :
    Option ArchiveProjectionProofReceipt :=
  if changeId ≠ "" ∧ isFullCommitSha commitSha = true then
    some ⟨changeId, manifestDigest, commitSha, verifiedAt⟩
  else none

/-- The order `sort((left, right) => left.localeCompare(right))` sorts by. -/
def localeBefore (localeCompare : String → String → Ordering) (left right : String) : Prop :=
  (localeCompare left right).isLE = true

instance (localeCompare : String → String → Ordering) : DecidableRel (localeBefore localeCompare) :=
  fun left right => inferInstanceAs (Decidable ((localeCompare left right).isLE = true))

section

variable {localeCompare : String → String → Ordering} [Std.TransCmp localeCompare]
include localeCompare

theorem localeBefore_total :
    Std.Total (localeBefore localeCompare) where
  total := fun _ _ => or_iff_not_imp_left.mpr fun later =>
    Ordering.isLE_of_eq_lt (Std.OrientedCmp.lt_of_not_isLE later)

theorem localeBefore_trans :
    IsTrans String (localeBefore localeCompare) where
  trans := fun _ _ _ first second => Std.TransCmp.isLE_trans first second

end

def deltaIdsByCapability (deltas : ChangeDeltas) : List (String × List String) :=
  deltas.entries.map fun entry => (entry.1, entry.2.map Delta.id)

section

variable (platform : Platform)

/-! ## The checks -/

/-- `[...new Set(ids)].sort((left, right) => left.localeCompare(right))` -/
def sortedIds (ids : List String) : List String :=
  (distinctOf ids).insertionSort (localeBefore platform.localeCompare)

def capabilityBefore (left right : CapabilityProjectionManifest) : Prop :=
  localeBefore platform.localeCompare left.capability right.capability

instance : DecidableRel (capabilityBefore platform) := fun left right =>
  inferInstanceAs (Decidable (localeBefore platform.localeCompare left.capability right.capability))

def expectedCapabilities (expectedIds : List (String × List String)) : List (String × List String) :=
  (expectedIds.filter fun entry => 0 < entry.2.length).insertionSort
    fun left right => localeBefore platform.localeCompare left.1 right.1

def manifestCapabilities (manifest : SpecProjectionManifest) : List CapabilityProjectionManifest :=
  manifest.capabilities.insertionSort (capabilityBefore platform)

def bindingFailure (manifest : SpecProjectionManifest) (changeId : String)
    (deltaSet : SHA256Digest) : Option ProjectionProofFailure :=
  if manifest.change_id ≠ changeId ∨ manifest.delta_set_sha256 ≠ deltaSet then
    some ⟨.manifestMismatch, none, "Projection manifest is not bound to the archived change deltas"⟩
  else none

def capabilitySetFailure (manifest : SpecProjectionManifest)
    (expectedIds : List (String × List String)) : Option ProjectionProofFailure :=
  if (manifestCapabilities platform manifest).map CapabilityProjectionManifest.capability ≠
      (expectedCapabilities platform expectedIds).map Prod.fst then
    some ⟨.manifestMismatch, none, "Projection manifest capability set does not match accepted deltas"⟩
  else none

def disposedIds (manifest : SpecProjectionManifest) (capability : String) : List String :=
  match (manifestCapabilities platform manifest).find? fun entry => entry.capability = capability with
  | some entry => entry.dispositions.map DeltaProjectionDisposition.deltaId
  | none => []

def accountFailure (manifest : SpecProjectionManifest) (expected : String × List String) :
    Option ProjectionProofFailure :=
  if sortedIds platform (disposedIds platform manifest expected.1) ≠ sortedIds platform expected.2 then
    some ⟨.manifestMismatch, some expected.1, "Projection manifest does not account for every accepted delta"⟩
  else none

def requirementFailure (manifest : CapabilityProjectionManifest) (spec : Spec)
    (expected : String × SHA256Digest) : Option ProjectionProofFailure :=
  if (findRow spec.requirements expected.1).map (requirementSha256 platform) ≠ some expected.2 then
    some ⟨.requirementMismatch, some manifest.capability,
      "Requirement " ++ expected.1 ++ " differs from projection manifest"⟩
  else none

def documentFailure (manifest : CapabilityProjectionManifest) (reader : ProjectionTree) :
    Option ProjectionProofFailure :=
  match reader.document manifest.capability with
  | .error message => some ⟨.documentUnreadable, some manifest.capability, message⟩
  | .ok document =>
    if canonicalSha256 platform (.str document) ≠ manifest.document_sha256 then
      some ⟨.documentMismatch, some manifest.capability,
        "Released documentation digest differs from projection manifest"⟩
    else none

/-- The checks of a spec that was read and parsed. -/
def specFailure (manifest : CapabilityProjectionManifest) (spec : Spec) : Option ProjectionProofFailure :=
  if spec.version ≠ manifest.target_version then
    some ⟨.versionMismatch, some manifest.capability, spec.version ++ " != " ++ manifest.target_version⟩
  else if specSha256 platform spec ≠ manifest.spec_sha256 then
    some ⟨.specMismatch, some manifest.capability, "Released spec digest differs from projection manifest"⟩
  else manifest.requirement_sha256.findSome? (requirementFailure platform manifest spec)

def capabilityFailure (reader : ProjectionTree) (manifest : CapabilityProjectionManifest) :
    Option ProjectionProofFailure :=
  match reader.spec manifest.capability with
  | .error message => some ⟨.specUnreadable, some manifest.capability, message⟩
  | .ok none => some ⟨.specUnreadable, some manifest.capability, "Released spec is not valid JSON"⟩
  | .ok (some specInput) =>
    match Spec.parse specInput with
    | none =>
      some ⟨.specUnreadable, some manifest.capability, "Released spec failed schema validation"⟩
    | some spec => (specFailure platform manifest spec).or (documentFailure platform manifest reader)

/-- The first check a manifest fails; its own schema is its type. -/
def projectionFailure (manifest : SpecProjectionManifest) (changeId : String)
    (deltaSet : SHA256Digest) (expectedIds : List (String × List String)) (reader : ProjectionTree) :
    Option ProjectionProofFailure :=
  (bindingFailure manifest changeId deltaSet).or ((capabilitySetFailure platform manifest expectedIds).or
      (((expectedCapabilities platform expectedIds).findSome? (accountFailure platform manifest)).or
        (manifest.capabilities.findSome? (capabilityFailure platform reader))))

/-- The proof's result, nothing where the receipt does not parse. -/
def verifyProjection (manifest : SpecProjectionManifest) (commitSha changeId : String)
    (deltaSet : SHA256Digest) (expectedIds : List (String × List String)) (reader : ProjectionTree)
    (now : String) : Option ProjectionProofResult :=
  match projectionFailure platform manifest changeId deltaSet expectedIds reader with
  | some failure => some (.failed failure)
  | none =>
    (receiptOf manifest.change_id (canonicalSha256 platform manifest.toJs) commitSha now).map
      ProjectionProofResult.verified

/-! ## Passing the checks -/

/-- What the proof establishes of one released capability. -/
structure Released (reader : ProjectionTree) (manifest : CapabilityProjectionManifest)
    (spec : Spec) (document : String) : Prop where
  specRead : ∃ specInput, reader.spec manifest.capability = .ok (some specInput) ∧ Spec.parse specInput = some spec
  version : spec.version = manifest.target_version
  specDigest : specSha256 platform spec = manifest.spec_sha256
  requirements : ∀ entry ∈ manifest.requirement_sha256,
    (findRow spec.requirements entry.1).map (requirementSha256 platform) = some entry.2
  documentRead : reader.document manifest.capability = .ok document
  documentDigest : canonicalSha256 platform (.str document) = manifest.document_sha256

variable {platform} {manifest : SpecProjectionManifest} {changeId : String}
  {deltaSet : SHA256Digest} {expectedIds : List (String × List String)} {reader : ProjectionTree}

variable {entry : CapabilityProjectionManifest}

theorem specFailure_none {spec : Spec} :
    specFailure platform entry spec = none ↔
      spec.version = entry.target_version ∧ specSha256 platform spec = entry.spec_sha256 ∧
        ∀ expected ∈ entry.requirement_sha256,
          (findRow spec.requirements expected.1).map (requirementSha256 platform) = some expected.2 := by
  by_cases version : spec.version = entry.target_version
  · by_cases digest : specSha256 platform spec = entry.spec_sha256
    · simp [specFailure, version, digest, List.findSome?_eq_none_iff, requirementFailure]
    · simp [specFailure, version, digest]
  · simp [specFailure, version]

theorem capabilityFailure_none :
    capabilityFailure platform reader entry = none ↔
      ∃ spec document, Released platform reader entry spec document := by
  constructor
  · intro passed
    unfold capabilityFailure at passed
    split at passed
    · cases passed
    · cases passed
    next specInput read =>
      split at passed
      · cases passed
      next spec parsed =>
        obtain ⟨spared, documented⟩ := Option.or_eq_none_iff.mp passed
        obtain ⟨version, digest, requirements⟩ := specFailure_none.mp spared
        unfold documentFailure at documented
        split at documented
        · cases documented
        next document readDocument =>
          split at documented
          · cases documented
          next same =>
            exact ⟨spec, document, ⟨specInput, read, parsed⟩, version, digest, requirements,
              readDocument, not_not.mp same⟩
  · rintro ⟨spec, document, released⟩
    obtain ⟨specInput, read, parsed⟩ := released.specRead
    have spared := specFailure_none.mpr ⟨released.version, released.specDigest, released.requirements⟩
    simp [capabilityFailure, read, parsed, spared, documentFailure, released.documentRead, released.documentDigest]

/-- A manifest passes when it is bound to the change, lists its capabilities, accounts for the
    deltas of each, and describes what was released. -/
theorem projectionFailure_none : projectionFailure platform manifest changeId deltaSet expectedIds reader = none ↔
      (manifest.change_id = changeId ∧ manifest.delta_set_sha256 = deltaSet) ∧
      (manifestCapabilities platform manifest).map CapabilityProjectionManifest.capability =
        (expectedCapabilities platform expectedIds).map Prod.fst ∧
      (∀ entry ∈ expectedCapabilities platform expectedIds,
        sortedIds platform (disposedIds platform manifest entry.1) = sortedIds platform entry.2) ∧
      ∀ entry ∈ manifest.capabilities, ∃ spec document, Released platform reader entry spec document := by
  have bound : bindingFailure manifest changeId deltaSet = none ↔
      manifest.change_id = changeId ∧ manifest.delta_set_sha256 = deltaSet := by
    simp [bindingFailure]
  have listed : capabilitySetFailure platform manifest expectedIds = none ↔
      (manifestCapabilities platform manifest).map CapabilityProjectionManifest.capability =
        (expectedCapabilities platform expectedIds).map Prod.fst := by
    simp [capabilitySetFailure]
  have accounted : ∀ entry, accountFailure platform manifest entry = none ↔
      sortedIds platform (disposedIds platform manifest entry.1) = sortedIds platform entry.2 := by
    simp [accountFailure]
  simp only [projectionFailure, Option.or_eq_none_iff, bound, listed, List.findSome?_eq_none_iff,
    accounted, capabilityFailure_none]

end

end Advance.Archive
