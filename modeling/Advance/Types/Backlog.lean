import Advance.Foundation.JsonText
import Advance.Types.Epics

/-! # Backlog items

The records of the backlog and the documents they are written as.
-/

namespace Advance.Types

open Advance.Foundation

def CURRENT_SCHEMA_VERSION : Nat := 1

inductive BacklogItemStatus where
  | active
  | archived
  deriving DecidableEq

inductive BacklogPromotionKind where
  | change
  | epicShell
  deriving DecidableEq

structure BacklogPromotionTarget where
  kind : BacklogPromotionKind
  id : String
  promoted_at : String
  deriving DecidableEq

structure BacklogItem where
  id : String
  title : String
  success_hint : String
  status : BacklogItemStatus
  created_at : String
  updated_at : String
  archived_at : Option String
  promoted_to : Option BacklogPromotionTarget
  context_packet : Option FutureWorkContextPacket
  deriving DecidableEq

structure BacklogHeader where
  schemaVersion : Nat
  deriving DecidableEq

def BacklogPromotionTarget.valid (target : BacklogPromotionTarget) : Bool :=
  target.id ≠ "" && target.promoted_at ≠ ""

def BacklogItem.valid (item : BacklogItem) : Bool :=
  item.id ≠ "" && item.title ≠ "" && item.success_hint ≠ "" && item.created_at ≠ "" &&
    item.updated_at ≠ "" && item.archived_at.all (· ≠ "") &&
    item.promoted_to.all BacklogPromotionTarget.valid &&
    item.context_packet.all FutureWorkContextPacket.valid

/-! ## Fields of a document -/

section

variable {α : Type}

def readText : Json → Option String
  | .text value => some value
  | _ => none

def readList (read : Json → Option α) : Json → Option (List α)
  | .list values => values.mapM read
  | _ => none

def required (read : Json → Option α) (key : String) (value : Json) : Option α :=
  (value.member key).bind read

/-- A field that may be missing, but not there with another type. -/
def optional (read : Json → Option α) (key : String) (value : Json) : Option (Option α) :=
  match value.member key with
  | none => some none
  | some content => (read content).map some

def isObject : Json → Bool
  | .object _ => true
  | _ => false

variable {read : Json → Option α} {write : α → Json} {fields : List (String × Option Json)} {key : String}

section

variable (inverse : ∀ value, read (write value) = some value)
include inverse

theorem readList_map (values : List α) :
    readList read (.list (values.map write)) = some values := by
  unfold readList
  induction values with
  | nil => rfl
  | cons value values ih =>
    simp only [List.map_cons, List.mapM_cons, inverse, Option.bind_eq_bind, Option.bind_some, ih, Option.pure_def]

theorem required_record
    (distinct : (fields.map Prod.fst).Nodup) (value : α) (stands : (key, some (write value)) ∈ fields) :
    required read key (Json.record fields) = some value := by
  rw [required, Json.member_record distinct stands]
  exact inverse value

theorem optional_record
    (distinct : (fields.map Prod.fst).Nodup) (value : Option α) (stands : (key, value.map write) ∈ fields) :
    optional read key (Json.record fields) = some value := by
  rw [optional, Json.member_record distinct stands]
  cases value with
  | none => rfl
  | some value => exact congrArg (Option.map some) (inverse value)

end

theorem readText_text (value : String) : readText (.text value) = some value := rfl

theorem isObject_record (fields : List (String × Option Json)) : isObject (.record fields) = true := rfl

end

/-! ## Context packets -/

def FutureWorkReference.fields (reference : FutureWorkReference) : List (String × Option Json) :=
  [("label", some (.text reference.label)), ("locator", some (.text reference.locator))]

def FutureWorkReference.toJson (reference : FutureWorkReference) : Json := .record reference.fields

def FutureWorkReference.ofJson (value : Json) : Option FutureWorkReference := do
  let label ← required readText "label" value
  let locator ← required readText "locator" value
  pure { label, locator }

def CrossProjectTarget.fields (target : CrossProjectTarget) : List (String × Option Json) :=
  [("project_hint", target.project_hint.map .text), ("target_path", target.target_path.map .text),
    ("repo_url", target.repo_url.map .text)]

def CrossProjectTarget.toJson (target : CrossProjectTarget) : Json := .record target.fields

def CrossProjectTarget.ofJson (value : Json) : Option CrossProjectTarget :=
  if isObject value then do
    let project_hint ← optional readText "project_hint" value
    let target_path ← optional readText "target_path" value
    let repo_url ← optional readText "repo_url" value
    pure { project_hint, target_path, repo_url }
  else none

def textList (values : List String) : Json := .list (values.map .text)

def referenceList (references : List FutureWorkReference) : Json :=
  .list (references.map FutureWorkReference.toJson)

def FutureWorkContextPacket.fields (packet : FutureWorkContextPacket) : List (String × Option Json) :=
  [("background", packet.background.map .text), ("references", packet.references.map referenceList),
    ("constraints", packet.constraints.map textList), ("avoidances", packet.avoidances.map textList),
    ("design_seed", packet.design_seed.map .text),
    ("cross_project_target", packet.cross_project_target.map CrossProjectTarget.toJson)]

def FutureWorkContextPacket.toJson (packet : FutureWorkContextPacket) : Json := .record packet.fields

def FutureWorkContextPacket.ofJson (value : Json) : Option FutureWorkContextPacket :=
  if isObject value then do
    let background ← optional readText "background" value
    let references ← optional (readList FutureWorkReference.ofJson) "references" value
    let constraints ← optional (readList readText) "constraints" value
    let avoidances ← optional (readList readText) "avoidances" value
    let design_seed ← optional readText "design_seed" value
    let cross_project_target ← optional CrossProjectTarget.ofJson "cross_project_target" value
    pure { background, references, constraints, avoidances, design_seed, cross_project_target }
  else none

theorem FutureWorkReference.ofJson_toJson (reference : FutureWorkReference) :
    ofJson reference.toJson = some reference := by
  have distinct : (reference.fields.map Prod.fst).Nodup := by simp [fields]
  unfold ofJson toJson
  rw [required_record readText_text distinct reference.label (by simp [fields]),
    required_record readText_text distinct reference.locator (by simp [fields])]
  rfl

theorem CrossProjectTarget.ofJson_toJson (target : CrossProjectTarget) : ofJson target.toJson = some target := by
  have distinct : (target.fields.map Prod.fst).Nodup := by simp [fields]
  unfold ofJson toJson
  rw [if_pos (isObject_record _), optional_record readText_text distinct target.project_hint (by simp [fields]),
    optional_record readText_text distinct target.target_path (by simp [fields]),
    optional_record readText_text distinct target.repo_url (by simp [fields])]
  rfl

theorem FutureWorkContextPacket.ofJson_toJson (packet : FutureWorkContextPacket) :
    ofJson packet.toJson = some packet := by
  have distinct : (packet.fields.map Prod.fst).Nodup := by simp [fields]
  have texts : ∀ values, readList readText (textList values) = some values := readList_map readText_text
  have references : ∀ values, readList FutureWorkReference.ofJson (referenceList values) = some values :=
    readList_map FutureWorkReference.ofJson_toJson
  unfold ofJson toJson
  rw [if_pos (isObject_record _), optional_record readText_text distinct packet.background (by simp [fields]),
    optional_record references distinct packet.references (by simp [fields]),
    optional_record texts distinct packet.constraints (by simp [fields]),
    optional_record texts distinct packet.avoidances (by simp [fields]),
    optional_record readText_text distinct packet.design_seed (by simp [fields]),
    optional_record CrossProjectTarget.ofJson_toJson distinct packet.cross_project_target (by simp [fields])]
  rfl

/-! ## Items -/

def BacklogItemStatus.toJson : BacklogItemStatus → Json
  | active => .text "active"
  | archived => .text "archived"

def BacklogItemStatus.ofJson : Json → Option BacklogItemStatus
  | .text "active" => some active
  | .text "archived" => some archived
  | _ => none

def BacklogPromotionKind.toJson : BacklogPromotionKind → Json
  | change => .text "change"
  | epicShell => .text "epic_shell"

def BacklogPromotionKind.ofJson : Json → Option BacklogPromotionKind
  | .text "change" => some change
  | .text "epic_shell" => some epicShell
  | _ => none

def BacklogPromotionTarget.fields (target : BacklogPromotionTarget) : List (String × Option Json) :=
  [("kind", some target.kind.toJson), ("id", some (.text target.id)),
    ("promoted_at", some (.text target.promoted_at))]

def BacklogPromotionTarget.toJson (target : BacklogPromotionTarget) : Json := .record target.fields

def BacklogPromotionTarget.ofJson (value : Json) : Option BacklogPromotionTarget := do
  let kind ← required BacklogPromotionKind.ofJson "kind" value
  let id ← required readText "id" value
  let promoted_at ← required readText "promoted_at" value
  pure { kind, id, promoted_at }

def BacklogItem.fields (item : BacklogItem) : List (String × Option Json) :=
  [("id", some (.text item.id)), ("title", some (.text item.title)),
    ("success_hint", some (.text item.success_hint)), ("status", some item.status.toJson),
    ("created_at", some (.text item.created_at)), ("updated_at", some (.text item.updated_at)),
    ("archived_at", item.archived_at.map .text),
    ("promoted_to", item.promoted_to.map BacklogPromotionTarget.toJson),
    ("context_packet", item.context_packet.map FutureWorkContextPacket.toJson)]

/-- `JSON.stringify` leaves out the fields that are undefined. -/
def BacklogItem.toJson (item : BacklogItem) : Json := .record item.fields

def BacklogItem.shape (value : Json) : Option BacklogItem := do
  let id ← required readText "id" value
  let title ← required readText "title" value
  let success_hint ← required readText "success_hint" value
  let status ← required BacklogItemStatus.ofJson "status" value
  let created_at ← required readText "created_at" value
  let updated_at ← required readText "updated_at" value
  let archived_at ← optional readText "archived_at" value
  let promoted_to ← optional BacklogPromotionTarget.ofJson "promoted_to" value
  let context_packet ← optional FutureWorkContextPacket.ofJson "context_packet" value
  pure { id, title, success_hint, status, created_at, updated_at, archived_at, promoted_to, context_packet }

/-- `BacklogItemSchema.safeParse`, which leaves out what it does not name. -/
def BacklogItem.ofJson (value : Json) : Option BacklogItem := (BacklogItem.shape value).filter BacklogItem.valid

def BacklogHeader.toJson (header : BacklogHeader) : Json :=
  .record [("schemaVersion", some (.nat header.schemaVersion))]

def readNat : Json → Option Nat
  | .nat value => some value
  | _ => none

def BacklogHeader.ofJson (value : Json) : Option BacklogHeader := do
  let schemaVersion ← required readNat "schemaVersion" value
  pure { schemaVersion }

theorem BacklogItemStatus.ofJson_toJson (status : BacklogItemStatus) : ofJson status.toJson = some status := by
  cases status <;> rfl

theorem BacklogPromotionKind.ofJson_toJson (kind : BacklogPromotionKind) : ofJson kind.toJson = some kind := by
  cases kind <;> rfl

theorem BacklogPromotionTarget.ofJson_toJson (target : BacklogPromotionTarget) :
    ofJson target.toJson = some target := by
  have distinct : (target.fields.map Prod.fst).Nodup := by simp [fields]
  unfold ofJson toJson
  rw [required_record BacklogPromotionKind.ofJson_toJson distinct target.kind (by simp [fields]),
    required_record readText_text distinct target.id (by simp [fields]),
    required_record readText_text distinct target.promoted_at (by simp [fields])]
  rfl

theorem BacklogItem.shape_toJson (item : BacklogItem) : shape item.toJson = some item := by
  have distinct : (item.fields.map Prod.fst).Nodup := by simp [fields]
  unfold shape toJson
  rw [required_record readText_text distinct item.id (by simp [fields]),
    required_record readText_text distinct item.title (by simp [fields]),
    required_record readText_text distinct item.success_hint (by simp [fields]),
    required_record BacklogItemStatus.ofJson_toJson distinct item.status (by simp [fields]),
    required_record readText_text distinct item.created_at (by simp [fields]),
    required_record readText_text distinct item.updated_at (by simp [fields]),
    optional_record readText_text distinct item.archived_at (by simp [fields]),
    optional_record BacklogPromotionTarget.ofJson_toJson distinct item.promoted_to (by simp [fields]),
    optional_record FutureWorkContextPacket.ofJson_toJson distinct item.context_packet (by simp [fields])]
  rfl

/-- A valid item is read back from its document. -/
theorem BacklogItem.ofJson_toJson {item : BacklogItem} (valid : item.valid = true) :
    ofJson item.toJson = some item := by
  rw [ofJson, shape_toJson]
  exact Option.filter_some_pos valid

theorem BacklogHeader.ofJson_toJson (header : BacklogHeader) : ofJson header.toJson = some header := rfl

end Advance.Types
