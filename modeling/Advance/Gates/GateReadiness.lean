import Advance.JavaScript.LatestByKey
import Advance.Validator.TaskClassifier

/-! # Gate readiness

`evaluateGateReadiness`: the blockers of a gate over the state of a change.  The advisory
warnings, which block nothing, are left out.
-/

namespace Advance.Gates

open Advance.JavaScript Advance.Types Advance.Validator

inductive GateArtifactKind where
  | proposal
  | agreement
  | design
  | acceptance
  deriving DecidableEq

inductive BlockerCode where
  | PRIOR_GATE_INCOMPLETE
  | DISCOVERY_CONTRACT_MISSING
  | ACCEPTANCE_CONTRACT_MISSING
  | ACCEPTANCE_REVIEW_MATRIX_MISSING
  | ACCEPTANCE_REVIEW_MATRIX_INVALID
  | ACCEPTANCE_EXECUTIVE_SUMMARY_MISSING
  | ACCEPTANCE_EXECUTIVE_SUMMARY_HASH_MISSING
  | ACCEPTANCE_REVIEW_ROW_MISSING
  | ACCEPTANCE_REVIEW_ROW_FAILING
  | REQUIRED_OBLIGATION_UNRESOLVED
  | REQUIRED_OBLIGATION_NOT_ROUTED
  | DESIGN_CONCERN_UNRESOLVED
  | VERIFICATION_EVIDENCE_MISSING
  | EVIDENCE_PLAN_INVALID
  | RESPECTS_EVIDENCE_AUTHORITY_MISSING
  | OPS_FOLLOWUP_BLOCKS_INCOMPLETE
  | OPS_FOLLOWUP_HANDOFF_INCOMPLETE
  | OPS_FOLLOWUP_STATUS_UNVERIFIED
  | OPS_FOLLOWUP_COMPLETION_PROOF_INCOMPLETE
  deriving DecidableEq

structure GateReadinessBlocker where
  code : BlockerCode
  gateId : GateId
  message : String
  remediation : String
  blockingGateId : Option GateId
  artifactKind : Option GateArtifactKind
  contractId : Option String
  linkId : Option String
  changeId : Option String
  relationship : Option OpsRelationship
  deriving DecidableEq

def makeBlocker (code : BlockerCode) (gateId : GateId) (message remediation : String) : GateReadinessBlocker :=
  ⟨code, gateId, message, remediation, none, none, none, none, none, none⟩

structure GateReadinessOptions where
  compatibilityReason : Option String
  enforceDiscoveryContract : Option Bool
  strictReviewMatrixUnknownRows : Option Bool

def GateReadinessOptions.default : GateReadinessOptions := ⟨none, none, none⟩

structure GateArtifactEvidence where
  kind : GateArtifactKind
  checked_at : String
  compatibility_reason : Option String
  deriving DecidableEq

structure GateReadinessResult where
  ready : Bool
  blockers : List GateReadinessBlocker
  evidence : Option GateArtifactEvidence

def artifactBackedGate : GateId → Option GateArtifactKind
  | .proposal => some .proposal
  | .discovery => some .agreement
  | .design => some .design
  | .acceptance => some .acceptance
  | .planning | .execution | .release => none

def compatibilityEvidence (artifactKind : GateArtifactKind) (reason : String) : GateArtifactEvidence :=
  ⟨artifactKind, "1970-01-01T00:00:00.000Z", some reason⟩

/-- A text that is not blank. -/
def hasText (text : Option String) : Bool := text.any fun text => trimmed text ≠ ""

def priorGateBlockers (state : ChangeState) (gateId : GateId) : List GateReadinessBlocker :=
  (gateId.before.filter fun prior => (state.gates prior).status ≠ .done).map fun prior =>
    { makeBlocker .PRIOR_GATE_INCOMPLETE gateId
        ("Prior gate " ++ prior.text ++ " must be completed before " ++ gateId.text ++ ".")
        ("Complete the " ++ prior.text ++ " gate before retrying " ++ gateId.text ++ ".") with
      blockingGateId := some prior }

/-! ## Discovery -/

def agreementExists (state : ChangeState) : Bool :=
  hasText state.agreementDocument || state.agreementArtifact

def discoveryContractBlockers (state : ChangeState) (gateId : GateId) : List GateReadinessBlocker :=
  if gateId ≠ .discovery then []
  else if !agreementExists state || state.contract.isSome then []
  else
    [{ makeBlocker .DISCOVERY_CONTRACT_MISSING gateId
        "Discovery requires typed contract proof once agreement is approved."
        "Run adv_contract_mint for this change before completing discovery." with
      artifactKind := some .agreement }]

/-! ## The review matrix -/

/-- `new Map(rows.map((row) => [row.contractId, row])).get(contractId)` -/
def rowOf (rows : List ContractReviewMatrixRow) (contractId : String) : Option ContractReviewMatrixRow :=
  mapGet (fromEntries (rows.map fun row => (row.contractId, row))) contractId

/-- The ids of the rows in order, and those that come again. -/
def scanRows (rows : List ContractReviewMatrixRow) : List String × List String :=
  rows.foldl (fun (seen, duplicates) row =>
    if row.contractId ∈ seen then
      (seen, if row.contractId ∈ duplicates then duplicates else duplicates ++ [row.contractId])
    else (seen ++ [row.contractId], duplicates)) ([], [])

inductive RowCoverage where
  | valid (rowCount itemCount : Nat)
  | invalid (reason : String)

def validateReviewMatrixRowCoverage (contract : ChangeContract) (strictUnknownRows : Bool) : RowCoverage :=
  match contract.reviewMatrix with
  | none => .invalid "No review matrix"
  | some matrix =>
    let expectedItems := contract.items.filter (·.verificationRequired)
    let (seen, duplicates) := scanRows matrix.rows
    let missing := (expectedItems.filter fun item => item.id ∉ seen).map (·.id)
    let knownIds := (if strictUnknownRows then contract.items else expectedItems).map (·.id)
    let unknown := (matrix.rows.filter fun row => row.contractId ∉ knownIds).map (·.contractId)
    if duplicates ≠ [] || missing ≠ [] || unknown ≠ [] then
      let part := fun (label : String) (ids : List String) =>
        if ids ≠ [] then [label ++ ": " ++ ", ".intercalate ids] else []
      .invalid ("; ".intercalate (part "missing" missing ++ part "duplicate" duplicates ++ part "unknown" unknown))
    else .valid matrix.rows.length expectedItems.length

def rowCoverageBlockers (contract : ChangeContract) (gateId : GateId) (strictUnknownRows : Bool) :
    List GateReadinessBlocker :=
  match validateReviewMatrixRowCoverage contract strictUnknownRows with
  | .valid _ _ => []
  | .invalid reason =>
    [{ makeBlocker .ACCEPTANCE_REVIEW_MATRIX_INVALID gateId
        ("Acceptance review matrix has invalid row coverage: " ++ reason ++ ".")
        "Provide exactly one passing review row for each required contract item before retrying acceptance." with
      artifactKind := some .acceptance }]

def hasContentHash (state : ChangeState) : Bool :=
  hasText (state.executiveSummaryArtifact.bind (·.contentHash))

/-- `executiveSummary?.source || executiveSummary?.path || executiveSummary?.readable !== undefined` -/
def hasMetadataContext (state : ChangeState) : Bool :=
  match state.executiveSummaryArtifact with
  | none => false
  | some metadata => truthy metadata.source || truthy metadata.path || metadata.readable.isSome

def executiveSummaryBlockers (state : ChangeState) (gateId : GateId) : List GateReadinessBlocker :=
  let hasContent := hasText state.executiveSummaryDocument
  let hasMetadata := hasContentHash state && hasMetadataContext state
  (if !hasMetadata && !hasContent then
    [{ makeBlocker .ACCEPTANCE_EXECUTIVE_SUMMARY_MISSING gateId
        "Acceptance requires workflow-visible executive-summary artifact metadata."
        "Persist executive-summary.md and update workflow artifact metadata before retrying acceptance." with
      artifactKind := some .acceptance }]
  else []) ++
  if !hasContentHash state && !hasContent then
    [{ makeBlocker .ACCEPTANCE_EXECUTIVE_SUMMARY_HASH_MISSING gateId
        "Acceptance requires executive-summary artifact metadata with contentHash evidence."
        "Signal executiveSummary artifact metadata with a server-computed contentHash before retrying acceptance." with
      artifactKind := some .acceptance }]
  else []

def reviewRowBlockers (rows : List ContractReviewMatrixRow) (gateId : GateId) (item : ContractItem) :
    List GateReadinessBlocker :=
  match rowOf rows item.id with
  | none =>
    [{ makeBlocker .ACCEPTANCE_REVIEW_ROW_MISSING gateId
        ("Acceptance review matrix is missing row " ++ item.id ++ ".")
        "Complete the contract review matrix before retrying acceptance." with
      artifactKind := some .acceptance, contractId := some item.id }]
  | some row =>
    if isFailingContractReviewStatus row.status then
      [{ makeBlocker .ACCEPTANCE_REVIEW_ROW_FAILING gateId
          ("Acceptance review row " ++ item.id ++ " has non-passing status " ++ row.status.text ++ ".")
          "Resolve the failing contract review row before retrying acceptance." with
        artifactKind := some .acceptance, contractId := some item.id }]
    else []

def acceptanceContractBlockers (state : ChangeState) (gateId : GateId) (options : GateReadinessOptions) :
    List GateReadinessBlocker :=
  if gateId ≠ .acceptance then []
  else
    match state.contract with
    | none =>
      [{ makeBlocker .ACCEPTANCE_CONTRACT_MISSING gateId
          "Acceptance requires typed contract proof for new changes."
          "Mint or migrate the ChangeContract, or record an explicit compatibility rationale for legacy replay." with
        artifactKind := some .acceptance }]
    | some contract =>
      match contract.reviewMatrix with
      | none =>
        [{ makeBlocker .ACCEPTANCE_REVIEW_MATRIX_MISSING gateId
            "Acceptance requires a contract review matrix."
            "Complete review matrix generation before retrying acceptance." with
          artifactKind := some .acceptance }]
      | some matrix =>
        rowCoverageBlockers contract gateId (options.strictReviewMatrixUnknownRows.getD true) ++
          executiveSummaryBlockers state gateId ++
          (contract.items.filter (·.verificationRequired)).flatMap (reviewRowBlockers matrix.rows gateId)

/-! ## Required obligations -/

def contractItemsCoveredByTasks (state : ChangeState) : List String :=
  (state.tasks.filter (·.status ≠ .cancelled)).flatMap fun task =>
    match task.contract_refs with
    | none => []
    | some refs => refs.implements.getD [] ++ refs.verifies.getD []

def matrixRows (contract : ChangeContract) : List ContractReviewMatrixRow :=
  (contract.reviewMatrix.map (·.rows)).getD []

def checkRequiredObligationReleaseBlockers (state : ChangeState) (gateId : GateId) : List GateReadinessBlocker :=
  if gateId ≠ .release then []
  else
    match state.contract with
    | none => []
    | some contract =>
      (contract.items.filter (·.requiredCritical = some true)).flatMap fun item =>
        match rowOf (matrixRows contract) item.id with
        | none => []
        | some row =>
          if isFailingContractReviewStatus row.status then
            [{ makeBlocker .REQUIRED_OBLIGATION_UNRESOLVED gateId
                ("Required-critical obligation " ++ item.id ++ " has failing review status " ++
                  row.status.text ++ ".")
                "Resolve the failing required-critical contract review row before releasing." with
              contractId := some item.id }]
          else []

def checkRequiredObligationRouting (state : ChangeState) (gateId : GateId) : List GateReadinessBlocker :=
  if gateId ≠ .release then []
  else
    match state.contract with
    | none => []
    | some contract =>
      (contract.items.filter (·.requiredCritical = some true)).flatMap fun item =>
        if truthy item.notRequiredReason || (rowOf (matrixRows contract) item.id).isSome ||
            item.id ∈ contractItemsCoveredByTasks state then []
        else
          [{ makeBlocker .REQUIRED_OBLIGATION_NOT_ROUTED gateId
              ("Required-critical obligation " ++ item.id ++ " has no task coverage and no review matrix row.")
              "Route via adv_change_reenter or fast-follow split, or add task coverage and complete review." with
            contractId := some item.id }]

/-! ## Design concerns -/

/-- `designerReportTaskId` and `verificationReportTaskId` -/
def reportTaskId (report : ScopedSubagentReport) : Option String :=
  match report.scope with
  | .task taskId => some taskId
  | .prose _ | .change _ => report.task_id

def reportsOf (state : ChangeState) : List ScopedSubagentReport := state.subagent_reports.getD []

def latestDesignerReportsByTask (state : ChangeState) : List (String × ScopedSubagentReport) :=
  latestByKey (fun report => (reportTaskId report).filter (· ≠ "")) (·.attempt)
    ((reportsOf state).filter (·.agent = .designer))

def isDispositioned (dispositions : Option (List ConcernDisposition)) (taskId concernKey : String) : Bool :=
  (dispositions.getD []).any fun disposition =>
    disposition.taskId = taskId && disposition.concernKey = concernKey

def dimensionKey (dimension : DesignDimension) : String := "dimension:" ++ dimension.text

def neighborKey (index : Nat) : String := "neighbor:" ++ toString index

def openDimensions (state : ChangeState) (taskId : String) (report : ScopedSubagentReport) : List DesignDimension :=
  DESIGN_DIMENSION_KEYS.filter fun dimension => report.design_dimensions dimension = .concern &&
    !isDispositioned state.design_concern_dispositions taskId (dimensionKey dimension)

/-- The recommendations of a report that no disposition answers. -/
def openNeighbors (state : ChangeState) (taskId : String) (report : ScopedSubagentReport) :
    List DesignerNeighboringRecommendation :=
  (report.neighboring_recommendations.zipIdx.filter fun entry =>
    !isDispositioned state.design_concern_dispositions taskId (neighborKey entry.2)).map Prod.fst

def checkUnresolvedDesignConcerns (state : ChangeState) (gateId : GateId) : List GateReadinessBlocker :=
  if gateId ≠ .acceptance && gateId ≠ .release then []
  else
    (latestDesignerReportsByTask state).flatMap fun (taskId, report) =>
      ((openDimensions state taskId report).map fun dimension =>
        makeBlocker .DESIGN_CONCERN_UNRESOLVED gateId
          ("Unresolved design concern (" ++ dimension.text ++ ") on task " ++ taskId ++ " from adv-designer report.")
          "Fix the concern and submit an updated adv-designer report, or record a typed disposition via adv_design_concern_disposition (fixed | rejected_with_evidence | split | fast_follow).") ++
      (openNeighbors state taskId report).map fun recommendation =>
        makeBlocker .DESIGN_CONCERN_UNRESOLVED gateId
          ("Unresolved neighboring UI recommendation on task " ++ taskId ++ ": " ++ recommendation.what)
          "Include the fix now, or record a typed disposition via adv_design_concern_disposition (rejected_with_evidence | split | fast_follow)."

/-! ## Verification evidence -/

def VERIFICATION_CONCERN_KEY : String := "verification"

def latestVerificationReportsForTask (state : ChangeState) (taskId : String) : List (String × ScopedSubagentReport) :=
  latestByKey (fun report => some report.agent.text) (·.attempt)
    ((reportsOf state).filter fun report => reportTaskId report = some taskId)

/-- `entry.test_run_id || entry.run_id` -/
def entryRunId (entry : SubagentVerificationEntry) : Option String :=
  (entry.test_run_id.filter (· ≠ "")).or (entry.run_id.filter (· ≠ ""))

def latestDurableByRunId (records : Option (List DurableTestRun)) : List (String × Option Int) :=
  fromEntries ((records.getD []).filterMap fun record =>
    (record.runId.filter (· ≠ "")).map fun runId => (runId, record.exitCode))

def resolveTypedVerificationWarnings (entries : List SubagentVerificationEntry)
    (durableRecords : Option (List DurableTestRun)) : List SubagentConsumerWarning :=
  entries.flatMap fun entry =>
    match entryRunId entry with
    | none => []
    | some runId =>
      match mapGet (latestDurableByRunId durableRecords) runId with
      | none =>
        [⟨.verification_missing, "No durable adv_run_test evidence found for run_id: " ++ runId⟩]
      | some none => []
      | some (some exitCode) =>
        if exitCode ≠ entry.exit_code then
          [⟨.verification_mismatch, "Reported exit_code " ++ toString entry.exit_code ++
            " differs from durable adv_run_test exitCode " ++ toString exitCode ++
            " for run_id: " ++ runId⟩]
        else []

def unresolvedWarnings (policy : ContractEvidencePolicy) (runs : Option (List DurableTestRun))
    (report : ScopedSubagentReport) : List SubagentConsumerWarning :=
  let persistedWarnings := (report.consumer_warnings.getD []).filter fun warning =>
    warning.kind = .verification_missing || warning.kind = .verification_mismatch
  if report.agent ≠ .engineer && report.agent ≠ .designer then persistedWarnings
  else
    let isStaticCheck := policy = .static_check
    let typedEntries := report.verification.filter fun entry =>
      (entryRunId entry).isSome || isStaticCheck && entry.command.isSome && entry.exit_code = 0
    let resolvedWarnings := resolveTypedVerificationWarnings typedEntries runs
    if isStaticCheck then
      let hasCleanTypedProof := 0 < typedEntries.length && resolvedWarnings.length = 0
      resolvedWarnings ++ if !hasCleanTypedProof then persistedWarnings else []
    else
      let hasLegacyEntries := typedEntries.length ≠ report.verification.length
      resolvedWarnings ++ if hasLegacyEntries then persistedWarnings else []

/-- The task's completion rests on a policy that asks for proof, and no disposition answers
    for it. -/
def needsVerification (state : ChangeState) (task : ChangeTask) : Bool :=
  task.status = .done && isProofBearingEvidencePolicy (resolveTaskEvidence task).policy &&
    !isDispositioned state.verification_evidence_dispositions task.id VERIFICATION_CONCERN_KEY

def verificationWarnings (state : ChangeState) (task : ChangeTask) : List SubagentConsumerWarning :=
  (latestVerificationReportsForTask state task.id).flatMap fun (_, report) =>
    unresolvedWarnings (resolveTaskEvidence task).policy (state.testRuns task.id) report

def checkUnresolvedVerificationEvidence (state : ChangeState) (gateId : GateId) : List GateReadinessBlocker :=
  if gateId ≠ .acceptance && gateId ≠ .release then []
  else
    (state.tasks.filter fun task =>
      needsVerification state task && !(verificationWarnings state task).isEmpty).map fun task =>
        makeBlocker .VERIFICATION_EVIDENCE_MISSING gateId ("Completed task " ++ task.id ++ " (evidence_policy: " ++
            (resolveTaskEvidence task).policy.text ++ ") has unresolved verification evidence: " ++
            ", ".intercalate
              (distinctOf ((verificationWarnings state task).map fun warning => warning.kind.text)) ++ ".")
          ("Re-run adv_run_test and submit an updated task report so the latest report is warning-free; otherwise coordinate a recovery decision with the orchestrator (taskId: " ++
            task.id ++ ", concernKey: " ++ VERIFICATION_CONCERN_KEY ++ ").")

/-! ## Evidence plans and review authority -/

def checkCompletedTaskEvidencePlan (state : ChangeState) (gateId : GateId) : List GateReadinessBlocker :=
  if gateId ≠ .acceptance && gateId ≠ .release then []
  else
    (state.tasks.filter (·.status = .done)).flatMap fun task =>
      let errors := validateTaskEvidenceForStage task .completion (reportsOf state ++ task.subagent_reports.getD [])
      if errors.isEmpty then []
      else
        [makeBlocker .EVIDENCE_PLAN_INVALID gateId
          ("Completed task " ++ task.id ++ " has an invalid completion-stage evidence plan: " ++
            "; ".intercalate errors ++ ".")
          ("Fix the task evidence plan or reclassify with user approval before completing " ++ gateId.text ++ ".")]

def checkRespectsEvidenceAuthority (state : ChangeState) (gateId : GateId) : List GateReadinessBlocker :=
  if gateId ≠ .acceptance && gateId ≠ .release then []
  else
    match state.contract with
    | none => []
    | some contract =>
      let avoidanceOosIds := (contract.items.filter fun item =>
        item.kind = .avoidance || item.kind = .out_of_scope).map (·.id)
      (state.tasks.filter (·.status = .done)).flatMap fun task =>
        let respects := (task.contract_refs.bind (·.respects)).getD []
        let avoidanceRespects := respects.filter (· ∈ avoidanceOosIds)
        let hasReviewerAuthority := (reportsOf state).any fun report =>
          report.agent = .reviewer && reportTaskId report = some task.id
        if avoidanceRespects.isEmpty || hasReviewerAuthority then []
        else
          [makeBlocker .RESPECTS_EVIDENCE_AUTHORITY_MISSING gateId
            ("Completed task " ++ task.id ++ " claims to respect avoidance/out_of_scope item(s) " ++
              ", ".intercalate avoidanceRespects ++ " but lacks task-scoped review authority from a non-claiming agent (adv-reviewer). Self-asserted compliance alone is insufficient (AC3).")
            ("Submit an adv-reviewer report scoped to task " ++ task.id ++ " confirming the respects claim(s), or remove the respects ref(s) if the task does not actually honor the boundary.")]

/-! ## Ops follow-ups -/

def HANDOFF_OPS_RELATIONSHIPS : List OpsRelationship := [.follows_release, .monitors, .cleanup_after]

def hasCompleteOpsProof (link : OpsFollowupLink) : Bool :=
  match link.resolution with
  | none => false
  | some resolution =>
    resolution.source = .child_profile && resolution.status = .complete &&
      truthy resolution.completion_signal && truthy resolution.health_verification &&
      truthy resolution.rollback_or_cleanup_disposition

def mustResolve (link : OpsFollowupLink) : Bool :=
  link.relationship = .blocks || HANDOFF_OPS_RELATIONSHIPS.contains link.relationship && link.required_handoff

def makeOpsResolutionBlocker (link : OpsFollowupLink) (gateId : GateId) : Option GateReadinessBlocker :=
  let blocker := fun code message remediation =>
    some { makeBlocker code gateId message remediation with
      linkId := some link.id, changeId := some link.changeId, relationship := some link.relationship }
  let incomplete : BlockerCode :=
    if link.relationship = .blocks then .OPS_FOLLOWUP_BLOCKS_INCOMPLETE
    else .OPS_FOLLOWUP_HANDOFF_INCOMPLETE
  let complete := "Complete the ops follow-up change " ++ link.changeId ++ " before releasing, or change the relationship/required handoff if it is not a release blocker."
  let named := "Ops follow-up " ++ link.id ++ " (" ++ link.changeId ++ ")"
  if !mustResolve link then none
  else if link.resolution.isNone && link.status ≠ .complete then
    blocker incomplete (named ++ " is incomplete (status: " ++ link.status.text ++ ").") complete
  else
    match link.resolution.filter (·.source ≠ .unreachable) with
    | none =>
      blocker .OPS_FOLLOWUP_STATUS_UNVERIFIED
        (named ++ " lacks fresh verified child-state proof; parent status " ++ link.status.text ++
          " is not release authority.")
        ("Verify child ops follow-up change " ++ link.changeId ++ " and project a fresh resolution proof before release.")
    | some resolution =>
      if resolution.status = .complete && !hasCompleteOpsProof link then
        blocker .OPS_FOLLOWUP_COMPLETION_PROOF_INCOMPLETE
          (named ++ " is marked complete but lacks completion signal, health verification, or rollback/cleanup disposition proof.")
          ("Record completion signal, health verification, and rollback/cleanup disposition on child ops follow-up " ++ link.changeId ++ ", then re-run reconciliation.")
      else if resolution.status ≠ .complete then
        blocker incomplete
          (named ++ " verified child status is incomplete (status: " ++ resolution.status.text ++ ").")
          complete
      else none

def checkOpsFollowupReleaseBlockers (state : ChangeState) (gateId : GateId) : List GateReadinessBlocker :=
  if gateId ≠ .release then []
  else (state.ops_followup_links.getD []).filterMap fun link => makeOpsResolutionBlocker link gateId

/-! ## The evaluation -/

def evaluateGateReadiness (state : ChangeState) (gateId : GateId) (options : GateReadinessOptions) :
    GateReadinessResult :=
  let reason := options.compatibilityReason.filter (· ≠ "")
  let discovery :=
    if gateId = .discovery && options.enforceDiscoveryContract ≠ some false then
      discoveryContractBlockers state gateId
    else []
  let acceptance :=
    if gateId = .acceptance then
      (if reason.isSome && state.contract.isNone then []
        else acceptanceContractBlockers state gateId options) ++
      checkUnresolvedDesignConcerns state gateId ++
      checkUnresolvedVerificationEvidence state gateId ++
      checkCompletedTaskEvidencePlan state gateId ++
      checkRespectsEvidenceAuthority state gateId
    else []
  let release :=
    if gateId = .release then
      checkRequiredObligationReleaseBlockers state gateId ++
      checkRequiredObligationRouting state gateId ++
      checkOpsFollowupReleaseBlockers state gateId ++
      checkUnresolvedDesignConcerns state gateId ++
      checkUnresolvedVerificationEvidence state gateId ++
      checkCompletedTaskEvidencePlan state gateId ++
      checkRespectsEvidenceAuthority state gateId
    else []
  let blockers := priorGateBlockers state gateId ++ discovery ++ acceptance ++ release
  { ready := blockers.isEmpty
    blockers := blockers
    evidence := (artifactBackedGate gateId).bind fun kind => reason.map (compatibilityEvidence kind) }

end Advance.Gates
