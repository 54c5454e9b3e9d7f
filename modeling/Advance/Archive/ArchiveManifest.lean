import Advance.Archive.ArchiveSpecs
import Advance.Archive.Docs
import Advance.JavaScript.Collections
import Advance.Types.SpecDocuments

/-! # The projection manifest

After planning, an archive writes each target spec and its document, reads both
back, and records their digests; the manifest of all capabilities is what the
release is checked against later.
-/

namespace Advance.Archive

open JavaScript
open Types

/-- The text of a JSON file: the value it spells, nothing where it is not JSON. -/
abbrev JsonText := Option JsVal

/-- What reading a capability's `spec.json` and document gives: the text, or an error. -/
structure ProjectionTree where
  spec : String → Except String JsonText
  document : String → Except String String

def ProjectionTree.writeSpec (tree : ProjectionTree) (name : String) (text : JsonText) : ProjectionTree :=
  { tree with spec := fun capability => if capability = name then .ok text else tree.spec capability }

def ProjectionTree.writeDocument (tree : ProjectionTree) (name text : String) : ProjectionTree :=
  { tree with document :=
      fun capability => if capability = name then .ok text else tree.document capability }

/-- The errors the disk raises while a capability's spec or document is written and read back. -/
structure WriteFaults where
  spec : String → Option String
  document : String → Option String

structure CapabilityProjectionManifest where
  capability : String
  base_version : String
  target_version : String
  spec_sha256 : SHA256Digest
  document_sha256 : SHA256Digest
  requirement_sha256 : List (String × SHA256Digest)
  dispositions : List DeltaProjectionDisposition
  deriving DecidableEq

structure SpecProjectionManifest where
  change_id : String
  delta_set_sha256 : SHA256Digest
  capabilities : List CapabilityProjectionManifest
  deriving DecidableEq

/-! ## The manifest as a value -/

def DeltaProjectionDisposition.toJs (row : DeltaProjectionDisposition) : JsVal :=
  .obj ([("deltaId", .str row.deltaId), ("operation", .str row.operation.text), ("status", .str row.status.text)] ++
    member "targetId" .str row.targetId ++ member "reason" .str row.reason)

def CapabilityProjectionManifest.toJs (manifest : CapabilityProjectionManifest) : JsVal :=
  .obj [("capability", .str manifest.capability), ("base_version", .str manifest.base_version),
    ("target_version", .str manifest.target_version),
    ("spec_sha256", .str manifest.spec_sha256.val),
    ("document_sha256", .str manifest.document_sha256.val),
    ("requirement_sha256", .obj (manifest.requirement_sha256.map fun entry =>
      (entry.1, .str entry.2.val))),
    ("dispositions", .arr (manifest.dispositions.map DeltaProjectionDisposition.toJs))]

def SpecProjectionManifest.toJs (manifest : SpecProjectionManifest) : JsVal :=
  .obj [("schema_version", .num 1), ("change_id", .str manifest.change_id),
    ("delta_set_sha256", .str manifest.delta_set_sha256.val),
    ("capabilities", .arr (manifest.capabilities.map CapabilityProjectionManifest.toJs))]

/-! ## Writing -/

section

variable (platform : Platform) (faults : WriteFaults)

/-- The text `JSON.stringify(spec, null, 2)` writes. -/
def specText (spec : Spec) : JsonText := some spec.toJs.toJson

def capabilityManifest (projection : PlannedProjection) (docContent : String) : CapabilityProjectionManifest where
  capability := projection.capability
  base_version := projection.result.originalVersion
  target_version := projection.result.newVersion
  spec_sha256 := specSha256 platform projection.targetSpec
  document_sha256 := canonicalSha256 platform (.str docContent)
  requirement_sha256 := fromEntries (projection.targetSpec.requirements.map fun row =>
    (row.id, requirementSha256 platform row))
  dispositions := projection.dispositions

/-- Write a capability's spec, which goes by the spec's own name, and read it back. -/
def writeSpecChecked (projection : PlannedProjection) (tree : ProjectionTree) : Except String ProjectionTree :=
  match faults.spec projection.capability with
  | some error => .error error
  | none =>
    let written := tree.writeSpec projection.targetSpec.name (specText projection.targetSpec)
    match written.spec projection.capability with
    | .error kind => .error ("Error: spec readback failed: " ++ kind)
    | .ok text =>
      match text.bind Spec.parse with
      | none => .error "ZodError"
      | some readback =>
        if specSha256 platform readback ≠ specSha256 platform projection.targetSpec then
          .error "Error: spec readback digest mismatch"
        else .ok written

/-- Write a capability's document and read it back. -/
def writeDocumentChecked (projection : PlannedProjection) (tree : ProjectionTree) :
    Except String (String × ProjectionTree) :=
  match faults.document projection.capability with
  | some error => .error error
  | none =>
    let content := generateSpecDoc platform projection.targetSpec
    let written := tree.writeDocument projection.targetSpec.name content
    match written.document projection.targetSpec.name with
    | .error kind => .error ("Error: generated doc readback failed: " ++ kind)
    | .ok text =>
      if canonicalSha256 platform (.str text) ≠ canonicalSha256 platform (.str content) then
        .error "Error: generated doc readback digest mismatch"
      else .ok (content, written)

/-- What the write loop carries: the tree, the errors so far and the manifests so far. -/
structure WriteState where
  tree : ProjectionTree
  errors : List String
  manifests : List CapabilityProjectionManifest

/-- The write loop's body. -/
def writeProjection (state : WriteState) (projection : PlannedProjection) : WriteState :=
  match writeSpecChecked platform faults projection state.tree with
  | .error error =>
    { state with errors := state.errors ++
        ["Failed to write spec " ++ projection.capability ++ ": " ++ error] }
  | .ok written =>
    match writeDocumentChecked platform faults projection written with
    | .error error =>
      { state with
        tree := written
        errors := state.errors ++
          ["Failed to generate docs for " ++ projection.capability ++ ": " ++ error] }
    | .ok (content, documented) =>
      { tree := documented
        errors := state.errors
        manifests := state.manifests ++ [capabilityManifest platform projection content] }

/-- The projection part of `archiveChangeUnderLock`: a blocked plan or a failed write gives its
    errors, a successful run the manifest and the tree it wrote. -/
def archiveProjection (specs : SpecMap) (changeId : String) (deltas : ChangeDeltas)
    (archivedAt : String) (tree : ProjectionTree) :
    Except (List String) (SpecProjectionManifest × ProjectionTree) :=
  let errors := archiveErrors platform specs deltas archivedAt
  if errors ≠ [] then .error errors
  else
    let final := (plannedProjections platform specs deltas archivedAt).foldl
      (writeProjection platform faults) ⟨tree, [], []⟩
    if final.errors ≠ [] then .error final.errors
    else
      .ok ({ change_id := changeId
             delta_set_sha256 := canonicalSha256 platform deltas.toJs
             capabilities := final.manifests }, final.tree)

end

end Advance.Archive
