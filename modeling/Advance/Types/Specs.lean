import Advance.JavaScript.Value

/-! # Specs and deltas

The values the spec and delta schemas accept: a requirement is the law a
capability's spec states, a delta one change to it.  Objects whose schema passes
unknown keys through carry them as an `Extension`.
-/

namespace Advance.Types

open JavaScript

/-- The members a `.passthrough()` object keeps besides the declared ones. -/
structure Extension (shape : List String) where
  entries : List (String × JsVal)
  undeclared : ∀ entry ∈ entries, entry.1 ∉ shape
  distinct : (entries.map Prod.fst).Nodup
  json : ∀ entry ∈ entries, entry.2.toJson = entry.2
  deriving DecidableEq

def Extension.empty {shape : List String} : Extension shape where
  entries := []
  undeclared := fun _ member => nomatch member
  distinct := List.nodup_nil
  json := fun _ member => nomatch member

/-! ## Requirements -/

inductive Priority where
  | must
  | should
  | may
  deriving DecidableEq

def Priority.text : Priority → String
  | .must => "must"
  | .should => "should"
  | .may => "may"

def scenarioShape : List String := ["id", "title", "given", "when", "then"]

structure Scenario where
  id : String
  title : String
  given : List String
  whenText : String
  thenTexts : List String
  extension : Extension scenarioShape
  deriving DecidableEq

def ofTexts (texts : List String) : JsVal := .arr (texts.map .str)

def Scenario.toJs (scenario : Scenario) : JsVal :=
  .obj ([("id", .str scenario.id), ("title", .str scenario.title),
    ("given", ofTexts scenario.given), ("when", .str scenario.whenText),
    ("then", ofTexts scenario.thenTexts)] ++ scenario.extension.entries)

def requirementShape : List String :=
  ["id", "title", "body", "priority", "tags", "scenarios", "meta"]

/-- Audit-trail metadata of a moved or merged requirement. -/
structure RequirementMeta where
  merged_from : String
  deriving DecidableEq

structure Requirement where
  id : String
  title : String
  body : String
  priority : Priority
  tags : Option (List String)
  scenarios : Option (List Scenario)
  metadata : Option RequirementMeta
  extension : Extension requirementShape
  deriving DecidableEq

def member {α : Type} (key : String) (toJs : α → JsVal) : Option α → List (String × JsVal)
  | some value => [(key, toJs value)]
  | none => []

def ofScenarios (scenarios : List Scenario) : JsVal := .arr (scenarios.map Scenario.toJs)

def RequirementMeta.toJs (metadata : RequirementMeta) : JsVal :=
  .obj [("merged_from", .str metadata.merged_from)]

def Requirement.toJs (requirement : Requirement) : JsVal :=
  .obj ([("id", .str requirement.id), ("title", .str requirement.title),
      ("body", .str requirement.body), ("priority", .str requirement.priority.text)] ++
    member "tags" ofTexts requirement.tags ++
    member "scenarios" ofScenarios requirement.scenarios ++
    member "meta" RequirementMeta.toJs requirement.metadata ++ requirement.extension.entries)

/-! ## Specs -/

def specShape : List String :=
  ["$schema", "name", "title", "purpose", "version", "updated_at", "requirements"]

/-- The law of one capability; `name` is the capability's key. -/
structure Spec where
  schemaUrl : Option String
  name : String
  title : String
  purpose : String
  version : String
  updated_at : String
  requirements : List Requirement
  extension : Extension specShape
  deriving DecidableEq

def Spec.toJs (spec : Spec) : JsVal :=
  .obj (member "$schema" .str spec.schemaUrl ++
    [("name", .str spec.name), ("title", .str spec.title), ("purpose", .str spec.purpose),
      ("version", .str spec.version), ("updated_at", .str spec.updated_at),
      ("requirements", .arr (spec.requirements.map Requirement.toJs))] ++ spec.extension.entries)

/-! ## Deltas -/

/-- `/^[a-f0-9]{64}$/` -/
def isSha256Digest (text : String) : Bool :=
  text.length = 64 && text.toList.all fun c => ('a' ≤ c && c ≤ 'f') || ('0' ≤ c && c ≤ '9')

abbrev SHA256Digest := { text : String // isSha256Digest text = true }

/-- Structural authority captured when a mutating delta is recorded. -/
structure DeltaPrecondition where
  target_requirement_sha256 : SHA256Digest
  new_id_absent : Option Bool
  deriving DecidableEq

/-- The requirement fields a modify delta may set. -/
inductive ModifyField where
  | title
  | body
  | priority
  | tags
  | scenarios
  deriving DecidableEq

def modifyFields : List ModifyField := [.title, .body, .priority, .tags, .scenarios]

structure DeltaModifyChanges where
  title : Option String
  body : Option String
  priority : Option Priority
  tags : Option (List String)
  scenarios : Option (List Scenario)
  deriving DecidableEq

/-- `changes[field]`, nothing for a field the delta leaves alone. -/
def DeltaModifyChanges.expected (changes : DeltaModifyChanges) : ModifyField → Option JsVal
  | .title => changes.title.map .str
  | .body => changes.body.map .str
  | .priority => changes.priority.map fun priority => .str priority.text
  | .tags => changes.tags.map ofTexts
  | .scenarios => changes.scenarios.map ofScenarios

/-- `Object.entries(changes)` -/
def DeltaModifyChanges.entries (changes : DeltaModifyChanges) : List (ModifyField × JsVal) :=
  modifyFields.filterMap fun field => (changes.expected field).map (field, ·)

/-- `requirement[field]` -/
def Requirement.field (requirement : Requirement) : ModifyField → JsVal
  | .title => .str requirement.title
  | .body => .str requirement.body
  | .priority => .str requirement.priority.text
  | .tags => (requirement.tags.map ofTexts).getD .undefined
  | .scenarios => (requirement.scenarios.map ofScenarios).getD .undefined

/-- `Object.assign(requirement, changes)` -/
def Requirement.assign (requirement : Requirement) (changes : DeltaModifyChanges) : Requirement :=
  { requirement with
    title := changes.title.getD requirement.title
    body := changes.body.getD requirement.body
    priority := changes.priority.getD requirement.priority
    tags := changes.tags <|> requirement.tags
    scenarios := changes.scenarios <|> requirement.scenarios }

structure DeltaAdd where
  id : String
  requirement : Requirement
  deriving DecidableEq

/-- A modify sets at least one field, and names the scenarios it brings after its target. -/
structure DeltaModify where
  id : String
  target_id : String
  changes : DeltaModifyChanges
  precondition : Option DeltaPrecondition
  nonempty : changes.entries ≠ []
  parented : ∀ scenarios ∈ changes.scenarios, ∀ scenario ∈ scenarios, (target_id ++ ".").toList <+: scenario.id.toList
  deriving DecidableEq

structure DeltaRemove where
  id : String
  target_id : String
  reason : String
  precondition : Option DeltaPrecondition
  deriving DecidableEq

/-- Changes a requirement's title and optionally its id. -/
structure DeltaRename where
  id : String
  target_id : String
  new_title : String
  new_id : Option String
  precondition : Option DeltaPrecondition
  deriving DecidableEq

inductive Delta where
  | add (delta : DeltaAdd)
  | modify (delta : DeltaModify)
  | remove (delta : DeltaRemove)
  | rename (delta : DeltaRename)
  deriving DecidableEq

inductive DeltaOperation where
  | add
  | modify
  | remove
  | rename
  deriving DecidableEq

def DeltaOperation.text : DeltaOperation → String
  | .add => "add"
  | .modify => "modify"
  | .remove => "remove"
  | .rename => "rename"

def Delta.operation : Delta → DeltaOperation
  | .add _ => .add
  | .modify _ => .modify
  | .remove _ => .remove
  | .rename _ => .rename

def Delta.id : Delta → String
  | .add delta => delta.id
  | .modify delta => delta.id
  | .remove delta => delta.id
  | .rename delta => delta.id

def Delta.targetId : Delta → Option String
  | .add _ => none
  | .modify delta => some delta.target_id
  | .remove delta => some delta.target_id
  | .rename delta => some delta.target_id

/-- `change.deltas`: the deltas of each capability, in the order of the record's keys. -/
structure ChangeDeltas where
  entries : List (String × List Delta)
  distinct : (entries.map Prod.fst).Nodup

def DeltaPrecondition.toJs (precondition : DeltaPrecondition) : JsVal :=
  .obj ([("schema_version", .num 1),
      ("target_requirement_sha256", .str precondition.target_requirement_sha256.val)] ++
    member "new_id_absent" .bool precondition.new_id_absent)

def DeltaModifyChanges.toJs (changes : DeltaModifyChanges) : JsVal :=
  .obj (member "title" .str changes.title ++ member "body" .str changes.body ++
    member "priority" (fun priority => .str priority.text) changes.priority ++
    member "tags" ofTexts changes.tags ++ member "scenarios" ofScenarios changes.scenarios)

def Delta.toJs : Delta → JsVal
  | .add delta =>
    .obj [("id", .str delta.id), ("operation", .str "add"), ("requirement", delta.requirement.toJs)]
  | .modify delta =>
    .obj ([("id", .str delta.id), ("operation", .str "modify"), ("target_id", .str delta.target_id),
        ("changes", delta.changes.toJs)] ++
      member "precondition" DeltaPrecondition.toJs delta.precondition)
  | .remove delta =>
    .obj ([("id", .str delta.id), ("operation", .str "remove"), ("target_id", .str delta.target_id),
        ("reason", .str delta.reason)] ++
      member "precondition" DeltaPrecondition.toJs delta.precondition)
  | .rename delta =>
    .obj ([("id", .str delta.id), ("operation", .str "rename"), ("target_id", .str delta.target_id),
        ("new_title", .str delta.new_title)] ++ member "new_id" .str delta.new_id ++
      member "precondition" DeltaPrecondition.toJs delta.precondition)

def ChangeDeltas.toJs (deltas : ChangeDeltas) : JsVal :=
  .obj (deltas.entries.map fun entry => (entry.1, .arr (entry.2.map Delta.toJs)))

def ChangeDeltas.affected (deltas : ChangeDeltas) : List (String × List Delta) :=
  deltas.entries.filter fun entry => entry.2.length ≠ 0

theorem affected_distinct {deltas : ChangeDeltas} : (deltas.affected.map Prod.fst).Nodup :=
  deltas.distinct.sublist (List.filter_sublist.map _)

/-! ## Assigning changes -/

theorem field_assign (requirement : Requirement) (changes : DeltaModifyChanges) (field : ModifyField) :
    (requirement.assign changes).field field = (changes.expected field).getD (requirement.field field) := by
  cases field with
  | title => cases h : changes.title <;> simp [Requirement.assign, Requirement.field, DeltaModifyChanges.expected, h]
  | body => cases h : changes.body <;> simp [Requirement.assign, Requirement.field, DeltaModifyChanges.expected, h]
  | priority => cases h : changes.priority <;> simp [Requirement.assign, Requirement.field,
      DeltaModifyChanges.expected, h]
  | tags => cases h : changes.tags <;> simp [Requirement.assign, Requirement.field, DeltaModifyChanges.expected, h]
  | scenarios => cases h : changes.scenarios <;> simp [Requirement.assign, Requirement.field,
      DeltaModifyChanges.expected, h]

@[simp] theorem assign_id (requirement : Requirement) (changes : DeltaModifyChanges) :
    (requirement.assign changes).id = requirement.id := rfl

@[simp] theorem mem_modifyFields (field : ModifyField) : field ∈ modifyFields := by
  cases field <;> simp [modifyFields]

theorem mem_changes_entries {changes : DeltaModifyChanges} {field : ModifyField} {value : JsVal} :
    (field, value) ∈ changes.entries ↔ changes.expected field = some value := by
  simp only [DeltaModifyChanges.entries, List.mem_filterMap, Option.map_eq_some_iff, mem_modifyFields, true_and]
  constructor
  · rintro ⟨found, held, expected, pair⟩
    obtain ⟨rfl, rfl⟩ := Prod.mk.inj pair
    exact expected
  · intro expected
    exact ⟨field, value, expected, rfl⟩

end Advance.Types
