import Advance.Types.ChangeState
import Advance.Types.Epics
import Advance.Utils.SyntheticFixtureDetector

/-! # Task evidence

`resolveTaskEvidence` normalises the evidence plan of a task and
`validateTaskEvidenceForStage` checks it for completion.
-/

namespace Advance.Validator

open Advance.Types Advance.Utils

/-- `text.trim()` -/
def trimmed (text : String) : String := String.ofList (trim text.toList)

/-- `text.replace(/\s/g, "").length` -/
def countNonWhitespace (text : String) : Nat :=
  utf16Length (String.ofList (text.toList.filter fun c => !isJsWhitespace c))

def defaultPolicyFor : TaskType → ContractEvidencePolicy
  | .code | .verification => .test
  | .docs => .source_citation
  | .ops => .artifact_reference
  | .research => .source_citation
  | .approval => .stakeholder_acceptance

def proofTargetFor : ContractEvidencePolicy → String
  | .test => "Automated red/green tests evidenced by adv_run_test"
  | .review => "Structured review conclusion"
  | .static_check => "Static analysis or check output"
  | .design_proof => "Design proof or design artifact"
  | .not_applicable => "No evidence required"
  | .source_citation => "Source citation or reference"
  | .source_audit => "Source audit or inspection"
  | .rubric_review => "Rubric-based review"
  | .stakeholder_acceptance => "Stakeholder acceptance evidence"
  | .artifact_reference => "Artifact reference or operational output"

def isBehaviorCritical (type : TaskType) : Bool := type = .code || type = .verification

def resolveCompatibility (task : ChangeTask) : TaskEvidenceCompatibility :=
  match task.evidence_plan.bind (·.provenance) with
  | some provenance => provenance
  | none => if task.reclassified then .reclassified else .legacy

structure TaskEvidenceResolution where
  valid : Bool
  policy : ContractEvidencePolicy
  proof_target : String
  rationale : Option String
  review_conclusion : Option String
  review_evidence_ref : Option String
  compatibility : TaskEvidenceCompatibility
  stage : Option TaskEvidenceStage
  errors : List String

def ChangeTask.effectiveType (task : ChangeTask) : TaskType := task.type.getD .code

/-- The policy in force, with the error for one that does not parse. -/
def effectivePolicy (task : ChangeTask) : ContractEvidencePolicy × List String :=
  let default := defaultPolicyFor (ChangeTask.effectiveType task)
  match ((task.evidence_plan.bind (·.policy)).or task.evidence_policy).filter (· ≠ "") with
  | none => (default, [])
  | some declared =>
    match ContractEvidencePolicy.parse declared with
    | some policy => (policy, [])
    | none => (default, ["Invalid evidence_policy: " ++ declared])

def boundedText (text : Option String) : Option String := (text.map trimmed).filter (· ≠ "")

def resolveTaskEvidence (task : ChangeTask) : TaskEvidenceResolution :=
  let compatibility := resolveCompatibility task
  let behaviorCritical := isBehaviorCritical (ChangeTask.effectiveType task)
  let (policy, parseErrors) := effectivePolicy task
  let plan := task.evidence_plan
  let rationale := boundedText (plan.bind (·.rationale))
  let reviewConclusion := boundedText (plan.bind (·.review_conclusion))
  let reviewEvidenceRef := plan.bind (·.review_evidence_ref)
  let stage := plan.bind (·.stage)
  let prohibited :=
    if behaviorCritical && policy = .not_applicable then
      ["Behavior-critical task cannot use evidence_policy 'not_applicable'. Use a proof-bearing route such as test, review, or static_check."]
    else []
  let unlinked :=
    if stage ≠ some .v2 && reviewConclusion.isNone && reviewEvidenceRef.isNone then
      ["Non-test route '" ++ policy.text ++ "' for logic-bearing work requires a linked review conclusion or reviewer evidence reference."]
    else []
  let unbounded :=
    match rationale with
    | none => ["Non-test route '" ++ policy.text ++ "' for logic-bearing work requires a bounded rationale."]
    | some text =>
      if 500 < countNonWhitespace text then
        ["Rationale exceeds 500 non-whitespace characters (got " ++ toString (countNonWhitespace text) ++ ")."]
      else []
  let routed :=
    if compatibility ≠ .legacy && behaviorCritical && policy ≠ .test then unbounded ++ unlinked else []
  let errors := parseErrors ++ prohibited ++ routed
  { valid := errors.isEmpty
    policy := policy
    proof_target := ((plan.bind (·.proof_target)).map trimmed).getD (proofTargetFor policy)
    rationale := rationale
    review_conclusion := reviewConclusion
    review_evidence_ref := reviewEvidenceRef
    compatibility := compatibility
    stage := stage
    errors := errors }

inductive EvidenceStage where
  | prep
  | completion
  deriving DecidableEq

/-- The report is about this task: by its scope, else by its `task_id`. -/
def ScopedSubagentReport.isOfTask (report : ScopedSubagentReport) (taskId : String) : Bool :=
  match report.scope with
  | .task scopeId => scopeId = taskId
  | .prose _ | .change _ => report.task_id = some taskId

def validateTaskEvidenceForStage (task : ChangeTask) (stage : EvidenceStage)
    (reports : List ScopedSubagentReport) : List String :=
  let base := resolveTaskEvidence task
  let plan := task.evidence_plan
  let reviewEvidenceRef := plan.bind (·.review_evidence_ref)
  let reviewConclusion := (plan.bind (·.review_conclusion)).filter (· ≠ "")
  let unproved :=
    if plan.bind (·.stage) = some .v2 then
      match reviewEvidenceRef with
      | none => ["Stage-v2 non-test route '" ++ base.policy.text ++
          "' requires a reviewer-owned review_evidence_ref by completion."]
      | some reportKey =>
        if reports.any fun report => reportKeyFromReport report = reportKey &&
            report.agent = .reviewer && ScopedSubagentReport.isOfTask report task.id then []
        else ["review_evidence_ref " ++ reportKey ++
          " does not resolve to a persisted task-scoped reviewer report owned by task " ++ task.id ++ "."]
    else if reviewConclusion.isNone && reviewEvidenceRef.isNone then
      ["Non-test route '" ++ base.policy.text ++
        "' requires a linked review conclusion or reviewer evidence reference."]
    else []
  base.errors ++
    if stage = .completion && isBehaviorCritical (ChangeTask.effectiveType task) &&
        base.policy ≠ .test && base.policy ≠ .not_applicable then unproved
    else []

end Advance.Validator
