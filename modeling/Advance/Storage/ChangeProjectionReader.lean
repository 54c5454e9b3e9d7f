import Advance.Types.Changes
import Advance.Utils.SyntheticFixtureDetector

/-! # Reading a change projection from disk

A file is what the code can observe of it: its byte length and what `JSON.parse`
makes of its text.  `loadChange` reads the bounded document, rewrites the legacy
shapes in memory and validates the result with `ChangeSchema`.
-/

namespace Advance.Storage

open Advance.JavaScript Advance.JavaScript.JsVal Advance.JavaScript.Schema Advance.Types Advance.Utils

/-! ## Files -/

/-- The text of a file: its length in bytes and the value or error of `JSON.parse`. -/
structure FileText where
  bytes : Nat
  json : Except String JsVal

inductive FileState where
  | absent
  | text (content : FileText)
  | unreadable (error : String)

def FileState.ofJson (value : JsVal) : FileState := .text ⟨0, .ok value⟩

/-- A read that the operating system fails. -/
inductive ReadFault where
  | notFound
  | unreadable (error : String)

/-- What the code takes from outside the repository: the nested schemas it leaves
    open, the length of the text `JSON.stringify(value, null, 2)` produces, how a
    value and a number print, and the texts of the validation library. -/
structure Runtime where
  fields : FieldSchemas
  jsonBytes : JsVal → Nat
  jsonText : JsVal → String
  numberText : JsNumber → String
  issueMessage : IssueCode → String
  zodErrorMessage : List Issue → String

/-- A runtime whose nested schemas accept everything, to evaluate examples with. -/
def Runtime.permissive : Runtime where
  fields := ⟨any, any, any, any, any, any, fun _ => any⟩
  jsonBytes := fun _ => 0
  jsonText := fun _ => ""
  numberText := toString
  issueMessage := fun _ => "invalid"
  zodErrorMessage := fun _ => "invalid"

/-- `JSON.stringify(value, null, 2)`. -/
def Runtime.stringify (runtime : Runtime) (value : JsVal) : FileText :=
  ⟨runtime.jsonBytes value.toJson, .ok value.toJson⟩

def join (segments : List String) : String := "/".intercalate segments

/-! ## Bounded read -/

def PROJECTION_DOCUMENT_BYTE_LIMIT : Nat := 8 * 1024 * 1024

inductive ProjectionDocumentReadOutcome where
  | ok (content : FileText)
  | notFound
  | oversized (limit actual : Nat)
  | corrupt (error : String)
  | unreadable (error : String)

def ProjectionDocumentReadOutcome.kind : ProjectionDocumentReadOutcome → String
  | .ok _ => "ok"
  | .notFound => "not_found"
  | .oversized _ _ => "oversized"
  | .corrupt _ => "corrupt"
  | .unreadable _ => "unreadable"

def readBoundedProjectionDocument (file : FileState) (fault : Option ReadFault) : ProjectionDocumentReadOutcome :=
  match fault with
  | some .notFound => .notFound
  | some (.unreadable error) => .unreadable error
  | none =>
    match file with
    | .absent => .notFound
    | .unreadable error => .unreadable error
    | .text content =>
      if PROJECTION_DOCUMENT_BYTE_LIMIT < content.bytes then
        .oversized PROJECTION_DOCUMENT_BYTE_LIMIT content.bytes
      else .ok content

/-! ## Legacy normalisation -/

mutual
/-- Rewrite historical gate migration artifacts, at every depth. -/
def normalizeLegacyGateData : JsVal → JsVal
  | .arr values => .arr (normalizeLegacyGateList values)
  | .obj entries => .obj (normalizeLegacyGateEntries entries)
  | v => v

def normalizeLegacyGateList : List JsVal → List JsVal
  | [] => []
  | value :: rest => normalizeLegacyGateData value :: normalizeLegacyGateList rest

def normalizeLegacyGateEntries : List (String × JsVal) → List (String × JsVal)
  | [] => []
  | (key, raw) :: rest =>
    if key = "migrated_from" ∨ key = "absorbed_completions" then normalizeLegacyGateEntries rest
    else if key = "status" ∧ raw = .str "legacy" then
      (key, .str "done") :: normalizeLegacyGateEntries rest
    else (key, normalizeLegacyGateData raw) :: normalizeLegacyGateEntries rest
end

def LEGACY_DEFAULT_NORMALIZED_REPORT_AGENTS : List String :=
  ["adv-engineer", "adv-reviewer", "adv-designer"]

/-- `typeof value === "string" && value.trim()`. -/
def nonBlankText (v : JsVal) : Bool :=
  match v with
  | .str value => !(trim value.toList).isEmpty
  | _ => false

def normalizeLegacySubagentReportRow (value : JsVal) : JsVal :=
  match value with
  | .obj _ =>
    if value.get "agent" = .str "adv-researcher" ∧ value.get "architecture_judgement" = .undefined then
      value.set "architecture_judgement" (.obj [("applicability", .str "not_applicable"), ("confidence", .str "low"),
         ("reason", .str "Legacy persisted adv-researcher report predates typed architecture judgement."),
         ("recommendation",
           if nonBlankText (value.get "recommendation") then value.get "recommendation"
           else .str "Review legacy researcher report context manually if architecture judgement is needed.")])
    else if LEGACY_DEFAULT_NORMALIZED_REPORT_AGENTS.any (fun agent => value.get "agent" = .str agent) then
      let withDrift :=
        if value.get "scope_drift" = .undefined then value.set "scope_drift" .null else value
      if withDrift.get "required_main_agent_actions" = .undefined then
        withDrift.set "required_main_agent_actions" (.arr [])
      else withDrift
    else value
  | v => v

mutual
/-- Fill the fields old sub-agent reports lack, at every depth. -/
def normalizePersistedSubagentReportState : JsVal → JsVal
  | .arr values => .arr (normalizePersistedSubagentReportList values)
  | .obj entries => .obj (normalizePersistedSubagentReportEntries entries)
  | v => v

def normalizePersistedSubagentReportList : List JsVal → List JsVal
  | [] => []
  | value :: rest =>
    normalizePersistedSubagentReportState value :: normalizePersistedSubagentReportList rest

def normalizePersistedSubagentReportEntries : List (String × JsVal) → List (String × JsVal)
  | [] => []
  | (key, raw) :: rest =>
    if key = "subagent_reports" ∧ raw.isArray then
      (key, .arr (raw.elements.map normalizeLegacySubagentReportRow)) :: normalizePersistedSubagentReportEntries rest
    else
      (key, normalizePersistedSubagentReportState raw) :: normalizePersistedSubagentReportEntries rest
end

def normalizeLegacyChangeStatus (status : JsVal) : JsVal :=
  if status = .str "active" ∨ status = .str "pending" then .str "draft" else status

/-- Normalize the change record's own root `status`. -/
def normalizeLegacyChangeRootStatus (value : JsVal) : JsVal :=
  match value with
  | .obj _ =>
    if normalizeLegacyChangeStatus (value.get "status") ≠ value.get "status" then
      value.set "status" (normalizeLegacyChangeStatus (value.get "status"))
    else value
  | v => v

def normalizeProjectionDocument (value : JsVal) : JsVal :=
  normalizeLegacyChangeRootStatus (normalizePersistedSubagentReportState (normalizeLegacyGateData value))

/-! ## Loading a change -/

inductive LoadFailureType where
  | notFound
  | schemaError
  | readError
  | oversized
  | corrupt
  | unreadable
  deriving DecidableEq

inductive LoadResult where
  | success (data : Option JsVal)
  | failure (error : String) (type : LoadFailureType)

def PathKey.text : PathKey → String
  | .key name => name
  | .index position => toString position

def formatZodError (runtime : Runtime) (issues : List Issue) (type id path : String) : String :=
  let lines := issues.map fun issue =>
    let place := ".".intercalate (issue.path.map PathKey.text)
    let shown := if place = "" then "(root)" else place
    s!"  - {shown}: {runtime.issueMessage issue.code}"
  let listed := "\n".intercalate lines
  s!"Schema validation failed for {type} \"{id}\":\n" ++ s!"File: {path}\n" ++ s!"Issues:\n{listed}\n" ++
    s!"Hint: Ensure the {type}.json matches the schema."

def changePath (changesDir changeId : String) : String := join [changesDir, changeId, "change.json"]

def loadChange (runtime : Runtime) (changesDir changeId : String) (file : FileState)
    (fault : Option ReadFault) : LoadResult :=
  let path := changePath changesDir changeId
  match readBoundedProjectionDocument file fault with
  | .notFound => .success none
  | .oversized limit actual =>
    .failure s!"Change projection {changeId} exceeds byte limit: {actual} bytes > {limit} bytes ({path})" .oversized
  | .corrupt error =>
    .failure s!"Change projection {changeId} is corrupt: {error} ({path})" .corrupt
  | .unreadable error =>
    .failure s!"Failed to read change {changeId}: {error} ({path})" .unreadable
  | .ok content =>
    match content.json with
    | .error error => .failure s!"Failed to parse change {changeId}: {error}" .corrupt
    | .ok parsed =>
      match ChangeSchema runtime.fields (normalizeProjectionDocument parsed) with
      | .ok data => .success (some data)
      | .error issues =>
        .failure (formatZodError runtime issues "change" changeId path) .schemaError

/-- The document loads: `loadChange` succeeds with a change. -/
def Loads (runtime : Runtime) (file : FileState) (change : JsVal) : Prop :=
  ∃ content parsed, file = .text content ∧ content.bytes ≤ PROJECTION_DOCUMENT_BYTE_LIMIT ∧
    content.json = .ok parsed ∧
    ChangeSchema runtime.fields (normalizeProjectionDocument parsed) = .ok change

variable {runtime : Runtime} {file : FileState}

theorem loadChange_ok {changesDir changeId : String} {fault : Option ReadFault} {change : JsVal}
    (loaded : loadChange runtime changesDir changeId file fault = .success (some change)) :
    fault = none ∧ Loads runtime file change := by
  unfold loadChange at loaded
  cases fault with
  | some fault => cases fault <;> simp [readBoundedProjectionDocument] at loaded
  | none =>
    refine ⟨rfl, ?_⟩
    cases file with
    | absent => simp [readBoundedProjectionDocument] at loaded
    | unreadable error => simp [readBoundedProjectionDocument] at loaded
    | text content =>
      by_cases fits : PROJECTION_DOCUMENT_BYTE_LIMIT < content.bytes
      · simp [readBoundedProjectionDocument, fits] at loaded
      · simp only [readBoundedProjectionDocument, if_neg fits] at loaded
        cases json : content.json with
        | error error => simp [json] at loaded
        | ok parsed =>
          simp only [json] at loaded
          cases checked : ChangeSchema runtime.fields (normalizeProjectionDocument parsed) with
          | error issues => simp [checked] at loaded
          | ok data =>
            simp only [checked, LoadResult.success.injEq, Option.some.injEq] at loaded
            subst loaded
            exact ⟨content, parsed, rfl, not_lt.mp fits, json, checked⟩

theorem loadChange_of_loads {change : JsVal} (loads : Loads runtime file change) (changesDir changeId : String) :
    loadChange runtime changesDir changeId file none = .success (some change) := by
  obtain ⟨content, parsed, rfl, fits, json, checked⟩ := loads
  simp [loadChange, readBoundedProjectionDocument, not_lt.mpr fits, json, checked]

theorem Loads.unique {left right : JsVal}
    (leftLoads : Loads runtime file left) (rightLoads : Loads runtime file right) : left = right := by
  have leftResult := loadChange_of_loads leftLoads "" ""
  rw [loadChange_of_loads rightLoads "" ""] at leftResult
  simpa using leftResult.symm

/-! ## What normalisation leaves alone -/

/-- What normalisation makes of a value inside a document. -/
def normalizeInner (v : JsVal) : JsVal := normalizePersistedSubagentReportState (normalizeLegacyGateData v)

theorem normalizeInner_atom {v : JsVal} (atom : (normalizeInner v).isAtom = true) : normalizeInner v = v := by
  cases v <;> first | rfl | cases atom

theorem normalizeInner_numberD (v : JsVal) (fallback : JsNumber) :
    (normalizeInner v).numberD fallback = v.numberD fallback := by
  cases v <;> rfl

theorem normalizeLegacyGateList_eq_map (values : List JsVal) :
    normalizeLegacyGateList values = values.map normalizeLegacyGateData := by
  induction values with
  | nil => rfl
  | cons value values ih => simp [normalizeLegacyGateList, ih]

theorem normalizePersistedSubagentReportList_eq_map (values : List JsVal) :
    normalizePersistedSubagentReportList values = values.map normalizePersistedSubagentReportState := by
  induction values with
  | nil => rfl
  | cons value values ih => simp [normalizePersistedSubagentReportList, ih]

theorem normalizeInner_elements (v : JsVal) : (normalizeInner v).elements = v.elements.map normalizeInner := by
  cases v with
  | arr values =>
    simp only [normalizeInner, normalizeLegacyGateData, normalizePersistedSubagentReportState, elements,
      normalizeLegacyGateList_eq_map, normalizePersistedSubagentReportList_eq_map, List.map_map]
    rfl
  | _ => rfl

theorem normalizeLegacyGateData_undefined (v : JsVal) : normalizeLegacyGateData v = .undefined ↔ v = .undefined := by
  cases v <;> simp [normalizeLegacyGateData]

theorem normalizeReports_undefined (v : JsVal) :
    normalizePersistedSubagentReportState v = .undefined ↔ v = .undefined := by
  cases v <;> simp [normalizePersistedSubagentReportState]

variable {key : String}

theorem lookup_normalizeLegacyGateEntries (notMigrated : key ≠ "migrated_from")
    (notAbsorbed : key ≠ "absorbed_completions") (notStatus : key ≠ "status") (entries : List (String × JsVal)) :
    lookup key (normalizeLegacyGateEntries entries) = normalizeLegacyGateData (lookup key entries) := by
  induction entries with
  | nil => rfl
  | cons entry entries ih =>
    obtain ⟨k, raw⟩ := entry
    by_cases same : k = key
    · subst same
      simp only [normalizeLegacyGateEntries, notMigrated, notAbsorbed, notStatus, or_self, if_false,
        false_and, lookup, true_and, ih, ne_eq, normalizeLegacyGateData_undefined]
      split <;> rfl
    · simp only [normalizeLegacyGateEntries]
      split
      · simp [lookup, same, ih]
      · split <;> simp [lookup, same, ih]

theorem lookup_normalizeReportsEntries (notReports : key ≠ "subagent_reports") (entries : List (String × JsVal)) :
    lookup key (normalizePersistedSubagentReportEntries entries) =
      normalizePersistedSubagentReportState (lookup key entries) := by
  induction entries with
  | nil => rfl
  | cons entry entries ih =>
    obtain ⟨k, raw⟩ := entry
    by_cases same : k = key
    · subst same
      simp only [normalizePersistedSubagentReportEntries, notReports, false_and, if_false, lookup,
        true_and, ih, ne_eq, normalizeReports_undefined]
      split <;> rfl
    · simp only [normalizePersistedSubagentReportEntries]
      split <;> simp [lookup, same, ih]

section

variable (notMigrated : key ≠ "migrated_from") (notAbsorbed : key ≠ "absorbed_completions")
  (notStatus : key ≠ "status") (notReports : key ≠ "subagent_reports") (v : JsVal)
include notMigrated notAbsorbed notStatus notReports v

theorem normalizeInner_get : (normalizeInner v).get key = normalizeInner (v.get key) := by
  cases v with
  | obj entries =>
    simp only [normalizeInner, normalizeLegacyGateData, normalizePersistedSubagentReportState, get_obj]
    rw [lookup_normalizeReportsEntries notReports,
      lookup_normalizeLegacyGateEntries notMigrated notAbsorbed notStatus]
  | _ => rfl

/-- A field of a normalised document, for every field outside the legacy ones. -/
theorem normalizeProjectionDocument_get : (normalizeProjectionDocument v).get key = normalizeInner (v.get key) := by
  have rootKept : ∀ w : JsVal, (normalizeLegacyChangeRootStatus w).get key = w.get key := by
    intro w
    cases w <;> simp only [normalizeLegacyChangeRootStatus]
    split
    · simp [notStatus]
    · rfl
  rw [normalizeProjectionDocument, rootKept]
  exact normalizeInner_get notMigrated notAbsorbed notStatus notReports v

end

end Advance.Storage
