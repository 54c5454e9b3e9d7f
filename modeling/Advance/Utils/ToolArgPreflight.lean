import Advance.JavaScript.CodeUnits
import Advance.JavaScript.Collections
import Advance.JavaScript.Value

/-! # Preflight of tool arguments

Before a tool runs, its arguments are normalised by the policies of its fields, parsed field by field and checked
against each other.
-/

namespace Advance.Utils

open Advance.JavaScript

/-! ## Arguments -/

structure ToolArgPreflightIssue where
  field : String
  message : String
  deriving DecidableEq

/-- The own members of the arguments. -/
abbrev ToolArgs := List (String × JsVal)

def INHERITED_NAMES : List String :=
  ["constructor", "__defineGetter__", "__defineSetter__", "hasOwnProperty", "__lookupGetter__", "__lookupSetter__",
    "isPrototypeOf", "propertyIsEnumerable", "toString", "valueOf", "__proto__", "toLocaleString"]

/-- What `args[field]` reads: an own member, or what the object inherits under the name. -/
inductive ArgValue where
  | own (value : JsVal)
  | inherited (name : String)

namespace ToolArgs

/-- `field in args` -/
def has (args : ToolArgs) (field : String) : Bool :=
  (args.any fun entry => entry.1 = field) || INHERITED_NAMES.contains field

/-- `args[field]`, for a field that is there. -/
def read (args : ToolArgs) (field : String) : ArgValue :=
  match mapGet args field with
  | some value => .own value
  | none => .inherited field

/-- `delete args[field]` -/
def delete (args : ToolArgs) (field : String) : ToolArgs := args.filter fun entry => entry.1 ≠ field

end ToolArgs

/-! ## Schemas -/

/-- An issue of the validation library.  A union that no branch fits lists the issues of each branch. -/
inductive ZodIssue where
  | union (errors : List (List ZodIssue))
  | single (path : List String) (message : String)

/-- The schema of a field, by what `safeParse` answers: a rejection lists its issues, at least one. -/
structure FieldSchema where
  safeParse : ArgValue → Option { issues : List ZodIssue // issues ≠ [] }

/-- `Record<string, z.ZodTypeAny>` -/
abbrev ToolArgsSchema := List (String × FieldSchema)

mutual
def projectZodIssues (issue : ZodIssue) (field : String) : List ToolArgPreflightIssue :=
  match issue with
  | .union errors => projectBranches errors field
  | .single path message => [⟨".".intercalate (field :: path), message⟩]

def projectBranch (branch : List ZodIssue) (field : String) : List ToolArgPreflightIssue :=
  match branch with
  | [] => []
  | nested :: rest => projectZodIssues nested field ++ projectBranch rest field

def projectBranches (errors : List (List ZodIssue)) (field : String) : List ToolArgPreflightIssue :=
  match errors with
  | [] => []
  | branch :: rest => projectBranch branch field ++ projectBranches rest field
end

/-! ## Policies -/

inductive PlaceholderPolicyAction where
  | reject
  | omit
  | allow
  deriving DecidableEq

structure PlaceholderFieldPolicy where
  blank : Option PlaceholderPolicyAction := none
  sentinels : Option PlaceholderPolicyAction := none
  emptyArray : Option PlaceholderPolicyAction := none
  recordValuesBlank : Option PlaceholderPolicyAction := none
  zero : Option PlaceholderPolicyAction := none

abbrev FieldPolicyMap := List (String × PlaceholderFieldPolicy)

abbrev CrossFieldValidator := ToolArgs → List ToolArgPreflightIssue

def isBlankProvidedString : JsVal → Bool
  | .str value => (Text.trim (units value)).isEmpty
  | _ => false

def KNOWN_OMISSION_SENTINELS : List String := ["none", "n/a", "na", "null", "transcript"]

/-- No character outside ASCII lowers to a sentinel's. -/
def isOmissionSentinel : JsVal → Bool
  | .str value =>
    KNOWN_OMISSION_SENTINELS.any fun sentinel =>
      (units sentinel).map CodeUnit.upper = (Text.trim (units value)).map CodeUnit.upper
  | _ => false

def isEmptyArray : JsVal → Bool
  | .arr [] => true
  | _ => false

def isZero : JsVal → Bool
  | .num value => value = 0
  | _ => false

structure PolicyResult where
  invalid : List ToolArgPreflightIssue
  normalizedArgs : ToolArgs

def PolicyResult.placeholder (result : PolicyResult) (field : String) (found : Bool)
    (action : Option PlaceholderPolicyAction) (message : String) : PolicyResult :=
  if found then
    match action with
    | some .omit => { result with normalizedArgs := result.normalizedArgs.delete field }
    | some .reject => { result with invalid := result.invalid ++ [⟨field, message⟩] }
    | _ => result
  else result

def blankRecordValues (field : String) : JsVal → List ToolArgPreflightIssue
  | .obj entries =>
    (entries.filter fun entry => isBlankProvidedString entry.2).map fun entry =>
      ⟨field ++ "." ++ entry.1, field ++ " values must be non-blank strings."⟩
  | _ => []

def PolicyResult.applyOwn (result : PolicyResult) (field : String) (policy : PlaceholderFieldPolicy) (value : JsVal) :
    PolicyResult :=
  let result := result.placeholder field (isBlankProvidedString value) policy.blank
    (field ++ " must be a non-blank string.")
  let result := result.placeholder field (isOmissionSentinel value) policy.sentinels
    (field ++ " must reference a real change ID; omit it when there is no parent change.")
  let result := result.placeholder field (isEmptyArray value) policy.emptyArray
    (field ++ " must not be an empty array; omit it when there are no entries.")
  let result := result.placeholder field (isZero value) policy.zero
    (field ++ " must be a positive number; omit it when there is no value.")
  if policy.recordValuesBlank = some .reject then
    { result with invalid := result.invalid ++ blankRecordValues field value }
  else result

/-- What an object inherits is no string, array or number and has no members of its own. -/
def PolicyResult.apply (args : ToolArgs) (result : PolicyResult) (entry : String × PlaceholderFieldPolicy) :
    PolicyResult :=
  if args.has entry.1 then
    match args.read entry.1 with
    | .own value => result.applyOwn entry.1 entry.2 value
    | .inherited _ => result
  else result

def applyFieldPolicies (policies : FieldPolicyMap) (args : ToolArgs) : PolicyResult :=
  policies.foldl (PolicyResult.apply args) ⟨[], args⟩

/-! ## The decision -/

def MAX_ZOD_PREFLIGHT_ISSUES : Nat := 10

/-- The issues of one field, up to the one that fills the report. -/
def addIssues (field : String) (invalid : List ToolArgPreflightIssue) : List ZodIssue → List ToolArgPreflightIssue
  | [] => invalid
  | issue :: rest =>
    let invalid := invalid ++ projectZodIssues issue field
    if MAX_ZOD_PREFLIGHT_ISSUES ≤ invalid.length then invalid else addIssues field invalid rest

structure FieldReport where
  missing : List String
  invalid : List ToolArgPreflightIssue

def FieldReport.checkField (normalizedArgs : ToolArgs) (report : FieldReport) (entry : String × FieldSchema) :
    FieldReport :=
  if !normalizedArgs.has entry.1 then
    -- A field is required where its schema rejects `undefined`.
    if (entry.2.safeParse (.own .undefined)).isSome then { report with missing := report.missing ++ [entry.1] }
    else report
  else
    match entry.2.safeParse (normalizedArgs.read entry.1) with
    | none => report
    | some issues => { report with invalid := addIssues entry.1 report.invalid issues }

/-- `[...new Map(invalid.map(…)).values()].slice(0, MAX_ZOD_PREFLIGHT_ISSUES)` -/
def dedupeIssues (invalid : List ToolArgPreflightIssue) : List ToolArgPreflightIssue :=
  ((fromEntries (invalid.map fun issue => (issue.field ++ "\x00" ++ issue.message, issue))).map Prod.snd).take
    MAX_ZOD_PREFLIGHT_ISSUES

structure ToolArgPreflightResult where
  ok : Bool
  missing : List String
  invalid : List ToolArgPreflightIssue
  normalizedArgs : ToolArgs

def asRecord : JsVal → ToolArgs
  | .obj entries => entries
  | _ => []

/-- `preflightToolArgs` of a tool with these `FIELD_POLICIES` and this rule over its fields. -/
def preflight (policies : FieldPolicyMap) (crossField : CrossFieldValidator) (argsSchema : ToolArgsSchema)
    (rawArgs : JsVal) : ToolArgPreflightResult :=
  let policyResult := applyFieldPolicies policies (asRecord rawArgs)
  let report := argsSchema.foldl (FieldReport.checkField policyResult.normalizedArgs) ⟨[], policyResult.invalid⟩
  let invalid := dedupeIssues (report.invalid ++ crossField policyResult.normalizedArgs)
  ⟨report.missing.isEmpty && invalid.isEmpty, report.missing, invalid, policyResult.normalizedArgs⟩

end Advance.Utils
