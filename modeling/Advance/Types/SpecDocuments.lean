import Advance.Types.Specs

/-! # Spec documents

Reading a spec out of the JSON value of its document.
-/

namespace Advance.Types

open JavaScript JavaScript.JsVal

/-! ## Parsing -/

def textOf : JsVal → Option String
  | .str text => some text
  | _ => none

def textAt (v : JsVal) (key : String) : Option String := textOf (v.get key)

/-- `z.array(element)` -/
def arrayOf {α : Type} (element : JsVal → Option α) : JsVal → Option (List α)
  | .arr values => values.mapM element
  | _ => none

/-- A declared key whose schema is optional. -/
def optionalAt {α : Type} (parse : JsVal → Option α) (v : JsVal) (key : String) : Option (Option α) :=
  match v.get key with
  | .undefined => some none
  | found => (parse found).map some

def Extension.parse (shape : List String) (v : JsVal) : Option (Extension shape) :=
  let entries := v.spread.filter fun entry => entry.1 ∉ shape
  if valid : (entries.map Prod.fst).Nodup ∧ ∀ entry ∈ entries, entry.2.toJson = entry.2 then
    some ⟨entries, fun entry member => by simpa using (List.mem_filter.mp member).2, valid.1, valid.2⟩
  else none

def Priority.parse : JsVal → Option Priority
  | .str "must" => some .must
  | .str "should" => some .should
  | .str "may" => some .may
  | _ => none

def Scenario.parse (v : JsVal) : Option Scenario := do
  let id ← textAt v "id"
  let title ← textAt v "title"
  let given ← arrayOf textOf (v.get "given")
  let whenText ← textAt v "when"
  let thenTexts ← arrayOf textOf (v.get "then")
  let extension ← Extension.parse scenarioShape v
  return { id, title, given, whenText, thenTexts, extension }

def RequirementMeta.parse (v : JsVal) : Option RequirementMeta :=
  (textAt v "merged_from").map RequirementMeta.mk

def Requirement.parse (v : JsVal) : Option Requirement := do
  let id ← textAt v "id"
  let title ← textAt v "title"
  let body ← textAt v "body"
  let priority ← Priority.parse (v.get "priority")
  let tags ← optionalAt (arrayOf textOf) v "tags"
  let scenarios ← optionalAt (arrayOf Scenario.parse) v "scenarios"
  let metadata ← optionalAt RequirementMeta.parse v "meta"
  let extension ← Extension.parse requirementShape v
  return { id, title, body, priority, tags, scenarios, metadata, extension }

/-- `SpecSchema.safeParse(value)` -/
def Spec.parse (v : JsVal) : Option Spec := do
  let schemaUrl ← optionalAt textOf v "$schema"
  let name ← textAt v "name"
  let title ← textAt v "title"
  let purpose ← textAt v "purpose"
  let version ← textAt v "version"
  let updated_at ← textAt v "updated_at"
  let requirements ← arrayOf Requirement.parse (v.get "requirements")
  let extension ← Extension.parse specShape v
  return { schemaUrl, name, title, purpose, version, updated_at, requirements, extension }

/-! ## Members and extensions -/

theorem mapM_map_some {α β : Type} {encode : α → β} {decode : β → Option α}
    (reads : ∀ value, decode (encode value) = some value) (values : List α) :
    (values.map encode).mapM decode = some values := by
  induction values with
  | nil => rfl
  | cons value values ih => simp [List.mapM_cons, reads, ih]

variable {α : Type} {encode : α → JsVal}

theorem arrayOf_map {decode : JsVal → Option α}
    (reads : ∀ value, decode (encode value) = some value) (values : List α) :
    arrayOf decode (.arr (values.map encode)) = some values :=
  mapM_map_some reads values

theorem arrayOf_texts (texts : List String) : arrayOf textOf (ofTexts texts) = some texts := by
  show arrayOf textOf (.arr (texts.map .str)) = some texts
  exact @arrayOf_map _ JsVal.str textOf (fun _ => rfl) texts

variable {shape : List String} {key : String}

theorem lookup_extension (extension : Extension shape)
    (declared : key ∈ shape) : lookup key extension.entries = .undefined :=
  lookup_of_absent fun entry member same => extension.undeclared entry member (same ▸ declared)

theorem lookup_declared (extension : Extension shape) (declared : key ∈ shape) (fields : List (String × JsVal)) :
    lookup key (fields ++ extension.entries) = lookup key fields := by
  rw [lookup_append, lookup_extension extension declared]
  split
  next missing => rw [missing]
  next => rfl

variable {fields : List (String × JsVal)}

theorem Extension.parse_append (extension : Extension shape) (declared : ∀ field ∈ fields, field.1 ∈ shape) :
    Extension.parse shape (.obj (fields ++ extension.entries)) = some extension := by
  have fieldsGone : fields.filter (fun entry => entry.1 ∉ shape) = [] :=
    List.filter_eq_nil_iff.mpr fun entry member => by simp [declared entry member]
  have extensionKept : extension.entries.filter (fun entry => entry.1 ∉ shape) = extension.entries :=
    List.filter_eq_self.mpr fun entry member => by simp [extension.undeclared entry member]
  simp only [Extension.parse, spread_obj, List.filter_append, fieldsGone, extensionKept,
    List.nil_append, extension.distinct, true_and]
  exact dif_pos fun entry member => extension.json entry member

theorem optionalAt_of {parse : JsVal → Option α} {v : JsVal} (reads : ∀ value, parse (encode value) = some value)
    (defined : ∀ value, encode value ≠ .undefined) (held : Option α)
    (found : v.get key = (held.map encode).getD .undefined) : optionalAt parse v key = some held := by
  cases held with
  | none =>
    have absent : v.get key = .undefined := found
    simp [optionalAt, absent]
  | some value =>
    have present : v.get key = encode value := found
    unfold optionalAt
    rw [present, ← reads value]
    split
    next missing => exact absurd missing (defined value)
    next => simp [reads value]

theorem ofTexts_defined (texts : List String) : ofTexts texts ≠ .undefined := JsVal.noConfusion

theorem ofScenarios_defined (scenarios : List Scenario) : ofScenarios scenarios ≠ .undefined :=
  JsVal.noConfusion

theorem RequirementMeta.toJs_defined (metadata : RequirementMeta) : metadata.toJs ≠ .undefined :=
  JsVal.noConfusion

theorem found_or_absent (v : JsVal) : (if v = .undefined then .undefined else v) = v := by
  split
  next absent => exact absent.symm
  next => rfl

theorem lookup_member (key : String) (encode : α → JsVal)
    (defined : ∀ value, encode value ≠ .undefined) (held : Option α) :
    lookup key (member key encode held) = (held.map encode).getD .undefined := by
  cases held with
  | none => rfl
  | some value => simp [member, lookup, defined value]

theorem lookup_member_ne {key other : String} (differ : other ≠ key) (encode : α → JsVal) (held : Option α) :
    lookup other (member key encode held) = .undefined := by
  cases held with
  | none => rfl
  | some value => simp [member, lookup, differ.symm]

theorem declared_member (declared : key ∈ shape) (held : Option α) :
    ∀ field ∈ member key encode held, field.1 ∈ shape := by
  cases held with
  | none => nofun
  | some value => simpa [member] using declared

/-! ## Round trips -/

theorem Priority.parse_text (priority : Priority) : Priority.parse (.str priority.text) = some priority := by
  cases priority <;> rfl

theorem Scenario.parse_toJs (scenario : Scenario) : Scenario.parse scenario.toJs = some scenario := by
  have read : ∀ key ∈ scenarioShape, scenario.toJs.get key = lookup key _ :=
    fun key declared => lookup_declared scenario.extension declared _
  have kept : Extension.parse scenarioShape scenario.toJs = some scenario.extension :=
    scenario.extension.parse_append (by simp [scenarioShape])
  have id : scenario.toJs.get "id" = .str scenario.id := read "id" (by decide)
  have title : scenario.toJs.get "title" = .str scenario.title := read "title" (by decide)
  have given : scenario.toJs.get "given" = ofTexts scenario.given := read "given" (by decide)
  have whenText : scenario.toJs.get "when" = .str scenario.whenText := read "when" (by decide)
  have thenTexts : scenario.toJs.get "then" = ofTexts scenario.thenTexts := read "then" (by decide)
  simp [Scenario.parse, textAt, textOf, id, title, given, whenText, thenTexts, arrayOf_texts, kept]

theorem arrayOf_scenarios (scenarios : List Scenario) :
    arrayOf Scenario.parse (ofScenarios scenarios) = some scenarios := by
  show arrayOf Scenario.parse (.arr (scenarios.map Scenario.toJs)) = some scenarios
  exact arrayOf_map Scenario.parse_toJs scenarios

theorem RequirementMeta.parse_toJs (metadata : RequirementMeta) :
    RequirementMeta.parse metadata.toJs = some metadata := rfl

theorem Requirement.parse_toJs (requirement : Requirement) :
    Requirement.parse requirement.toJs = some requirement := by
  have read : ∀ key ∈ requirementShape, requirement.toJs.get key = lookup key _ :=
    fun key declared => lookup_declared requirement.extension declared _
  have kept : Extension.parse requirementShape requirement.toJs = some requirement.extension := by
    refine requirement.extension.parse_append ?_
    simp only [List.forall_mem_append]
    exact ⟨⟨⟨by simp [requirementShape], declared_member (by decide) _⟩, declared_member (by decide) _⟩,
      declared_member (by decide) _⟩
  have id : requirement.toJs.get "id" = .str requirement.id := read "id" (by decide)
  have title : requirement.toJs.get "title" = .str requirement.title := read "title" (by decide)
  have body : requirement.toJs.get "body" = .str requirement.body := read "body" (by decide)
  have priority : requirement.toJs.get "priority" = .str requirement.priority.text :=
    read "priority" (by decide)
  have tags : requirement.toJs.get "tags" = (requirement.tags.map ofTexts).getD .undefined := by
    rw [read "tags" (by decide)]
    simp [lookup_append, lookup, lookup_member _ _ ofTexts_defined, lookup_member_ne, found_or_absent]
  have scenarios : requirement.toJs.get "scenarios" = (requirement.scenarios.map ofScenarios).getD .undefined := by
    rw [read "scenarios" (by decide)]
    simp [lookup_append, lookup, lookup_member _ _ ofScenarios_defined, lookup_member_ne, found_or_absent]
  have metadata : requirement.toJs.get "meta" = (requirement.metadata.map RequirementMeta.toJs).getD .undefined := by
    rw [read "meta" (by decide)]
    simp [lookup_append, lookup, lookup_member _ _ RequirementMeta.toJs_defined, lookup_member_ne]
  have readTags := optionalAt_of arrayOf_texts ofTexts_defined requirement.tags tags
  have readScenarios := optionalAt_of arrayOf_scenarios ofScenarios_defined requirement.scenarios scenarios
  have readMetadata := optionalAt_of RequirementMeta.parse_toJs RequirementMeta.toJs_defined
    requirement.metadata metadata
  simp [Requirement.parse, textAt, textOf, id, title, body, priority, Priority.parse_text, readTags,
    readScenarios, readMetadata, kept]

theorem Spec.parse_toJs (spec : Spec) : Spec.parse spec.toJs = some spec := by
  have read : ∀ key ∈ specShape, spec.toJs.get key = lookup key _ :=
    fun key declared => lookup_declared spec.extension declared _
  have kept : Extension.parse specShape spec.toJs = some spec.extension := by
    refine spec.extension.parse_append (List.forall_mem_append.mpr ⟨declared_member (by decide) _, ?_⟩)
    simp [specShape]
  -- Only `$schema` may be missing, so every other key reads past it.
  have past : ∀ key ∈ specShape, key ≠ "$schema" → spec.toJs.get key = lookup key
      [("name", .str spec.name), ("title", .str spec.title), ("purpose", .str spec.purpose),
        ("version", .str spec.version), ("updated_at", .str spec.updated_at),
        ("requirements", .arr (spec.requirements.map Requirement.toJs))] := by
    intro key declared other
    rw [read key declared, lookup_append, lookup_member_ne other, if_pos rfl]
  have schemaUrl : spec.toJs.get "$schema" = (spec.schemaUrl.map .str).getD .undefined := by
    rw [read "$schema" (by decide)]
    simp [lookup_append, lookup, lookup_member _ JsVal.str fun _ => JsVal.noConfusion, found_or_absent]
  have name : spec.toJs.get "name" = .str spec.name := past "name" (by decide) (by decide)
  have title : spec.toJs.get "title" = .str spec.title := past "title" (by decide) (by decide)
  have purpose : spec.toJs.get "purpose" = .str spec.purpose :=
    past "purpose" (by decide) (by decide)
  have version : spec.toJs.get "version" = .str spec.version :=
    past "version" (by decide) (by decide)
  have updated : spec.toJs.get "updated_at" = .str spec.updated_at :=
    past "updated_at" (by decide) (by decide)
  have requirements : spec.toJs.get "requirements" =
      .arr (spec.requirements.map Requirement.toJs) := past "requirements" (by decide) (by decide)
  have readSchema : optionalAt textOf spec.toJs "$schema" = some spec.schemaUrl :=
    @optionalAt_of _ JsVal.str _ textOf _ (fun _ => rfl) (fun _ => JsVal.noConfusion) _ schemaUrl
  simp [Spec.parse, textAt, textOf, readSchema, name, title, purpose, version, updated,
    requirements, arrayOf_map Requirement.parse_toJs, kept]

/-! ## Documents are JSON -/

theorem toJson_texts (texts : List String) : (ofTexts texts).toJson = ofTexts texts := by
  simp [ofTexts, toJson, toJsonList_eq_map, Function.comp_def]

theorem toJson_obj (serialised : ∀ field ∈ fields, field.2.toJson = field.2) :
    (JsVal.obj fields).toJson = .obj fields := by
  simp only [toJson]
  rw [toJsonEntries_self]
  intro field held
  have json := serialised field held
  exact ⟨fun absent => toJson_ne_undefined _ (json.trans absent), json⟩

theorem toJson_fields (extension : Extension shape) (serialised : ∀ field ∈ fields, field.2.toJson = field.2) :
    (JsVal.obj (fields ++ extension.entries)).toJson = .obj (fields ++ extension.entries) :=
  toJson_obj (List.forall_mem_append.mpr ⟨serialised, extension.json⟩)

theorem serialised_member (key : String) (json : ∀ value, (encode value).toJson = encode value) (held : Option α) :
    ∀ field ∈ member key encode held, field.2.toJson = field.2 := by
  cases held with
  | none => nofun
  | some value => simpa [member] using json value

theorem toJson_arr_map (json : ∀ value, (encode value).toJson = encode value) (values : List α) :
    (JsVal.arr (values.map encode)).toJson = .arr (values.map encode) := by
  simp [toJson, toJsonList_eq_map, json]

theorem Scenario.toJs_json (scenario : Scenario) : scenario.toJs.toJson = scenario.toJs := by
  refine toJson_fields scenario.extension ?_
  simp [toJson, toJson_texts]

theorem Requirement.toJs_json (requirement : Requirement) : requirement.toJs.toJson = requirement.toJs := by
  refine toJson_fields requirement.extension ?_
  simp only [List.forall_mem_append]
  exact ⟨⟨⟨by simp [toJson], serialised_member _ toJson_texts _⟩,
    serialised_member _ (toJson_arr_map Scenario.toJs_json) _⟩, serialised_member _ (fun _ => rfl) _⟩

theorem Spec.toJs_json (spec : Spec) : spec.toJs.toJson = spec.toJs := by
  refine toJson_fields spec.extension (List.forall_mem_append.mpr ⟨serialised_member _ (fun _ => rfl) _, ?_⟩)
  simp [toJson, toJsonList_eq_map, Requirement.toJs_json]

theorem DeltaPrecondition.toJs_json (precondition : DeltaPrecondition) :
    precondition.toJs.toJson = precondition.toJs := by
  refine toJson_obj (List.forall_mem_append.mpr ⟨?_, serialised_member _ (fun _ => rfl) _⟩)
  simp [toJson]

theorem DeltaModifyChanges.toJs_json (changes : DeltaModifyChanges) : changes.toJs.toJson = changes.toJs := by
  refine toJson_obj ?_
  simp only [List.forall_mem_append]
  exact ⟨⟨⟨⟨serialised_member _ (fun _ => rfl) _, serialised_member _ (fun _ => rfl) _⟩,
    serialised_member _ (fun _ => rfl) _⟩, serialised_member _ toJson_texts _⟩,
    serialised_member _ (toJson_arr_map Scenario.toJs_json) _⟩

theorem Delta.toJs_json (delta : Delta) : delta.toJs.toJson = delta.toJs := by
  have precondition := serialised_member "precondition" DeltaPrecondition.toJs_json
  cases delta with
  | add delta =>
    refine toJson_obj ?_
    simp [toJson, delta.requirement.toJs_json]
  | modify delta =>
    refine toJson_obj (List.forall_mem_append.mpr ⟨?_, precondition _⟩)
    simp [toJson, delta.changes.toJs_json]
  | remove delta =>
    refine toJson_obj (List.forall_mem_append.mpr ⟨?_, precondition _⟩)
    simp [toJson]
  | rename delta =>
    refine toJson_obj (List.forall_mem_append.mpr ⟨List.forall_mem_append.mpr ⟨?_, ?_⟩, precondition _⟩)
    · simp [toJson]
    · exact serialised_member _ (fun _ => rfl) _

theorem ChangeDeltas.toJs_json (deltas : ChangeDeltas) : deltas.toJs.toJson = deltas.toJs := by
  refine toJson_obj fun field held => ?_
  obtain ⟨entry, _, rfl⟩ := List.mem_map.mp held
  exact toJson_arr_map Delta.toJs_json _

end Advance.Types
