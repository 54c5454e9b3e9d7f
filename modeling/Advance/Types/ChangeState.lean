import Advance.Types.Contract
import Advance.Types.Gates

/-! # The state of a change

Tasks, sub-agent reports, dispositions and ops follow-up links, as far as gates, contract
checks and the archive read them.
-/

namespace Advance.Types

/-! ## Sub-agent reports -/

inductive SubagentAgent where
  | engineer
  | reviewer
  | designer
  | researcher
  | tron
  | scannerBundle
  | verificationTriageBundle
  | visualReview
  deriving DecidableEq

def SubagentAgent.text : SubagentAgent → String
  | engineer => "adv-engineer"
  | reviewer => "adv-reviewer"
  | designer => "adv-designer"
  | researcher => "adv-researcher"
  | tron => "adv-tron"
  | scannerBundle => "adv-scanner-bundle"
  | verificationTriageBundle => "adv-verification-triage-bundle"
  | visualReview => "adv-visual-review"

inductive ReportScope where
  | prose (text : String)
  | task (task_id : String)
  | change (scope_key : String)
  deriving DecidableEq

inductive ConsumerWarningKind where
  | verification_mismatch
  | verification_missing
  | consumer_failure
  | design_concern_promoted
  deriving DecidableEq

def ConsumerWarningKind.text : ConsumerWarningKind → String
  | verification_mismatch => "verification_mismatch"
  | verification_missing => "verification_missing"
  | consumer_failure => "consumer_failure"
  | design_concern_promoted => "design_concern_promoted"

structure SubagentConsumerWarning where
  kind : ConsumerWarningKind
  message : String
  deriving DecidableEq

structure SubagentVerificationEntry where
  run_id : Option String
  test_run_id : Option String
  command : Option String
  exit_code : Int
  deriving DecidableEq

inductive DesignDimension where
  | component_correctness
  | semantic_html_a11y
  | responsive_behavior
  | visual_polish
  | site_design_consistency
  | finer_details
  deriving DecidableEq

def DesignDimension.text : DesignDimension → String
  | component_correctness => "component_correctness"
  | semantic_html_a11y => "semantic_html_a11y"
  | responsive_behavior => "responsive_behavior"
  | visual_polish => "visual_polish"
  | site_design_consistency => "site_design_consistency"
  | finer_details => "finer_details"

def DESIGN_DIMENSION_KEYS : List DesignDimension :=
  [.component_correctness, .semantic_html_a11y, .responsive_behavior, .visual_polish,
    .site_design_consistency, .finer_details]

@[simp] theorem mem_design_dimension_keys (dimension : DesignDimension) :
    dimension ∈ DESIGN_DIMENSION_KEYS := by cases dimension <;> decide

inductive DesignVerdict where
  | pass
  | concern
  | notApplicable
  deriving DecidableEq

structure DesignerNeighboringRecommendation where
  file : Option String
  line : Option Nat
  what : String
  why : String
  deriving DecidableEq

/-- A report of any agent.  Verification entries are read of engineers and designers only,
    dimensions and recommendations of designers only. -/
structure ScopedSubagentReport where
  change_id : String
  agent : SubagentAgent
  scope : ReportScope
  task_id : Option String
  attempt : Nat
  consumer_warnings : Option (List SubagentConsumerWarning)
  verification : List SubagentVerificationEntry
  design_dimensions : DesignDimension → DesignVerdict
  neighboring_recommendations : List DesignerNeighboringRecommendation

/-- `reportKeyFromReport` -/
def reportKeyFromReport (report : ScopedSubagentReport) : String :=
  let scopeId :=
    match report.scope with
    | .task taskId => if taskId ≠ "" then taskId else "task:" ++ taskId
    | .change scopeKey => "change:" ++ scopeKey
    | .prose _ => "unknown-scope"
  report.change_id ++ "|" ++ scopeId ++ "|" ++ report.agent.text ++ "|" ++ toString report.attempt

structure ConcernDisposition where
  taskId : String
  concernKey : String
  deriving DecidableEq

/-- `DurableTestRunLike` -/
structure DurableTestRun where
  runId : Option String
  exitCode : Option Int
  deriving DecidableEq

/-! ## Tasks -/

inductive TaskStatus where
  | pending
  | in_progress
  | blocked
  | done
  | cancelled
  deriving DecidableEq

inductive TaskType where
  | code
  | docs
  | ops
  | research
  | approval
  | verification
  deriving DecidableEq

structure TaskContractRefs where
  implements : Option (List String)
  verifies : Option (List String)
  respects : Option (List String)
  not_applicable_reason : Option String
  deriving DecidableEq

inductive TaskEvidenceCompatibility where
  | new
  | reclassified
  | legacy
  deriving DecidableEq

inductive TaskEvidenceStage where
  | v1
  | v2
  deriving DecidableEq

structure TaskEvidencePlan where
  policy : Option String
  proof_target : Option String
  rationale : Option String
  review_conclusion : Option String
  /-- `review_evidence_ref.report_key` -/
  review_evidence_ref : Option String
  provenance : Option TaskEvidenceCompatibility
  stage : Option TaskEvidenceStage
  deriving DecidableEq

structure ChangeTask where
  id : String
  title : String
  type : Option TaskType
  status : TaskStatus
  contract_refs : Option TaskContractRefs
  evidence_policy : Option String
  evidence_plan : Option TaskEvidencePlan
  /-- `tdd_reclassification` is present. -/
  reclassified : Bool
  subagent_reports : Option (List ScopedSubagentReport)

/-! ## Ops follow-up links -/

inductive OpsRelationship where
  | blocks
  | follows_release
  | monitors
  | cleanup_after
  deriving DecidableEq

def OpsRelationship.text : OpsRelationship → String
  | blocks => "blocks"
  | follows_release => "follows_release"
  | monitors => "monitors"
  | cleanup_after => "cleanup_after"

inductive OpsFollowupStatus where
  | not_started
  | running
  | partially
  | failed
  | rerun_needed
  | rollback_needed
  | cleanup_needed
  | complete
  deriving DecidableEq

def OpsFollowupStatus.text : OpsFollowupStatus → String
  | not_started => "not_started"
  | running => "running"
  | partially => "partial"
  | failed => "failed"
  | rerun_needed => "rerun_needed"
  | rollback_needed => "rollback_needed"
  | cleanup_needed => "cleanup_needed"
  | complete => "complete"

inductive OpsResolutionSource where
  | child_profile
  | unreachable
  deriving DecidableEq

structure OpsFollowupResolution where
  status : OpsFollowupStatus
  source : OpsResolutionSource
  completion_signal : Option String
  health_verification : Option String
  rollback_or_cleanup_disposition : Option String
  deriving DecidableEq

structure OpsFollowupLink where
  id : String
  changeId : String
  relationship : OpsRelationship
  status : OpsFollowupStatus
  required_handoff : Bool
  resolution : Option OpsFollowupResolution
  deriving DecidableEq

/-! ## Changes -/

structure ArtifactMetadata where
  path : Option String
  contentHash : Option String
  source : Option String
  readable : Option Bool
  deriving DecidableEq

structure ChangeState where
  gates : Gates
  tasks : List ChangeTask
  subagent_reports : Option (List ScopedSubagentReport)
  design_concern_dispositions : Option (List ConcernDisposition)
  verification_evidence_dispositions : Option (List ConcernDisposition)
  contract : Option ChangeContract
  acceptanceCriteria : Option (List String)
  /-- `artifacts.agreement ?? artifacts.discovery` is present. -/
  agreementArtifact : Bool
  executiveSummaryArtifact : Option ArtifactMetadata
  agreementDocument : Option String
  executiveSummaryDocument : Option String
  ops_followup_links : Option (List OpsFollowupLink)
  testRuns : String → Option (List DurableTestRun)

end Advance.Types
