import Advance.Gates.GateReadiness

/-! # What a ready gate has shown

Each list of blockers is empty exactly when a plain condition on the state holds.
-/

namespace Advance.Gates

open Advance.JavaScript Advance.Types Advance.Validator

variable {state : ChangeState} {gateId : GateId}

theorem priorGateBlockers_eq_nil : priorGateBlockers state gateId = [] ↔
      ∀ prior ∈ gateId.before, (state.gates prior).status = .done := by
  simp [priorGateBlockers, List.filter_eq_nil_iff]

/-! ## The rows of the matrix -/

section

variable {rows : List ContractReviewMatrixRow}

def rowIds (rows : List ContractReviewMatrixRow) : List String := rows.map (·.contractId)

theorem rowIds_concat (rows : List ContractReviewMatrixRow) (row : ContractReviewMatrixRow) :
    rowIds (rows ++ [row]) = rowIds rows ++ [row.contractId] := by
  simp [rowIds]

theorem scanRows_spec (rows : List ContractReviewMatrixRow) : (∀ id, id ∈ (scanRows rows).1 ↔ id ∈ rowIds rows) ∧
      ((scanRows rows).2 = [] ↔ (rowIds rows).Nodup) := by
  induction rows using List.reverseRecOn with
  | nil => exact ⟨fun _ => Iff.rfl, iff_of_true rfl List.nodup_nil⟩
  | append_singleton rows row ih =>
    obtain ⟨seen, duplicates⟩ := ih
    have step : scanRows (rows ++ [row]) =
        if row.contractId ∈ (scanRows rows).1 then
          ((scanRows rows).1, if row.contractId ∈ (scanRows rows).2 then (scanRows rows).2
            else (scanRows rows).2 ++ [row.contractId])
        else ((scanRows rows).1 ++ [row.contractId], (scanRows rows).2) := by
      rw [scanRows, List.foldl_concat]; rfl
    rw [step, rowIds_concat, List.nodup_append_comm, List.singleton_append, List.nodup_cons]
    by_cases again : row.contractId ∈ (scanRows rows).1
    · have held := (seen _).mp again
      rw [if_pos again]
      refine ⟨fun id => ?_, iff_of_false ?_ fun distinct => distinct.1 held⟩
      · rw [seen, List.mem_append, List.mem_singleton]
        exact ⟨.inl, fun either => either.elim (fun earlier => earlier) fun same => same ▸ held⟩
      · split
        next reported => exact List.ne_nil_of_mem reported
        next => exact List.append_ne_nil_of_right_ne_nil _ (List.cons_ne_nil _ _)
    · rw [if_neg again]
      refine ⟨fun id => ?_, ?_⟩
      · rw [List.mem_append, List.mem_append, seen]
      · rw [duplicates, and_iff_right (mt (seen _).mpr again)]

theorem rowOf_eq_some (distinct : (rowIds rows).Nodup) {contractId : String} {row : ContractReviewMatrixRow} :
    rowOf rows contractId = some row ↔ row ∈ rows ∧ row.contractId = contractId := by
  constructor
  · intro found
    obtain ⟨held, member, same⟩ := List.mem_map.mp (mem_of_mapGet_fromEntries found)
    obtain ⟨rfl, rfl⟩ := Prod.mk.inj same
    exact ⟨member, rfl⟩
  · rintro ⟨member, rfl⟩
    have keys : ((rows.map fun row => (row.contractId, row)).map Prod.fst) = rowIds rows := by
      rw [List.map_map]; rfl
    exact mapGet_fromEntries (keys ▸ distinct) (List.mem_map_of_mem member)

theorem rowOf_eq_none {contractId : String} : rowOf rows contractId = none ↔ contractId ∉ rowIds rows := by
  rw [rowOf, mapGet_fromEntries_last, mapGet_eq_none]
  simp only [List.mem_reverse, List.mem_map, rowIds]
  constructor
  · rintro absent ⟨row, member, rfl⟩
    exact absent _ ⟨row, member, rfl⟩ rfl
  · rintro absent _ ⟨row, member, rfl⟩ same
    exact absent ⟨row, member, same⟩

/-- Exactly one row for each required item, and none for an unknown one. -/
structure RowsCover (contract : ChangeContract) (rows : List ContractReviewMatrixRow) : Prop where
  distinct : (rowIds rows).Nodup
  covered : ∀ item ∈ contract.items, item.verificationRequired = true → item.id ∈ rowIds rows
  known : ∀ row ∈ rows, row.contractId ∈ contract.items.map (·.id)

variable {matrix : ContractReviewMatrix}

theorem rowCoverageBlockers_eq_nil {contract : ChangeContract}
    (held : contract.reviewMatrix = some matrix) :
    rowCoverageBlockers contract gateId true = [] ↔ RowsCover contract matrix.rows := by
  have valid : rowCoverageBlockers contract gateId true = [] ↔ (scanRows matrix.rows).2 = [] ∧
      ((contract.items.filter (·.verificationRequired)).filter
        fun item => item.id ∉ (scanRows matrix.rows).1).map (·.id) = [] ∧
      (matrix.rows.filter fun row =>
        row.contractId ∉ contract.items.map (·.id)).map (·.contractId) = [] := by
    simp only [rowCoverageBlockers, validateReviewMatrixRowCoverage, held, if_true]
    generalize (scanRows matrix.rows).2 = duplicates
    generalize ((contract.items.filter (·.verificationRequired)).filter
      fun item => item.id ∉ (scanRows matrix.rows).1).map (·.id) = missing
    generalize (matrix.rows.filter fun row =>
      row.contractId ∉ contract.items.map (·.id)).map (·.contractId) = unknown
    by_cases empty : duplicates = [] ∧ missing = [] ∧ unknown = []
    · obtain ⟨rfl, rfl, rfl⟩ := empty
      simp
    · rw [if_pos (by simpa [or_assoc, imp_iff_not_or] using empty)]
      exact iff_of_false (List.cons_ne_nil _ _) empty
  obtain ⟨seen, duplicates⟩ := scanRows_spec matrix.rows
  rw [valid, duplicates]
  simp only [List.map_eq_nil_iff, List.filter_eq_nil_iff, List.mem_filter, decide_eq_true_eq, not_not, seen]
  exact ⟨fun ⟨a, b, c⟩ => ⟨a, fun item member required => b item ⟨member, required⟩, c⟩,
    fun cover => ⟨cover.distinct, fun item asked => cover.covered item asked.1 asked.2, cover.known⟩⟩

theorem reviewRowBlockers_eq_nil {item : ContractItem} : reviewRowBlockers rows gateId item = [] ↔
      ∃ row, rowOf rows item.id = some row ∧ isFailingContractReviewStatus row.status = false := by
  unfold reviewRowBlockers
  split
  next absent => simp [absent]
  next row found =>
    rw [found]
    cases failing : isFailingContractReviewStatus row.status <;> simp [failing]

structure MatrixProves (contract : ChangeContract) (rows : List ContractReviewMatrixRow) : Prop extends
    RowsCover contract rows where
  passing : ∀ row ∈ rows, (∃ item ∈ contract.items, item.verificationRequired = true ∧
    item.id = row.contractId) → isFailingContractReviewStatus row.status = false

theorem matrixProves_iff (gateId : GateId) {contract : ChangeContract}
    (held : contract.reviewMatrix = some matrix) : rowCoverageBlockers contract gateId true ++
        (contract.items.filter (·.verificationRequired)).flatMap (reviewRowBlockers matrix.rows gateId) = [] ↔
      MatrixProves contract matrix.rows := by
  rw [List.append_eq_nil_iff, rowCoverageBlockers_eq_nil held, List.flatMap_eq_nil_iff]
  simp only [List.mem_filter, reviewRowBlockers_eq_nil]
  constructor
  · rintro ⟨cover, rowsPass⟩
    refine ⟨cover, ?_⟩
    rintro row member ⟨item, listed, required, same⟩
    obtain ⟨other, found, passes⟩ := rowsPass item ⟨listed, required⟩
    have itself := (rowOf_eq_some cover.distinct).mpr ⟨member, same.symm⟩
    exact Option.some.inj (found.symm.trans itself) ▸ passes
  · rintro ⟨cover, passing⟩
    refine ⟨cover, fun item ⟨listed, required⟩ => ?_⟩
    obtain ⟨row, member, same⟩ := List.mem_map.mp (cover.covered item listed required)
    exact ⟨row, (rowOf_eq_some cover.distinct).mpr ⟨member, same⟩,
      passing row member ⟨item, listed, required, same.symm⟩⟩

end

/-! ## Design concerns and verification evidence -/

theorem SubagentAgent.text_injective {agent other : SubagentAgent} (same : agent.text = other.text) :
    agent = other := by
  cases agent <;> cases other <;> first | rfl | exact absurd same (by decide)

def DesignSettled (state : ChangeState) (taskId : String) (report : ScopedSubagentReport) : Prop :=
  openDimensions state taskId report = [] ∧ openNeighbors state taskId report = []

def VerificationSettled (state : ChangeState) (task : ChangeTask) (report : ScopedSubagentReport) : Prop :=
  unresolvedWarnings (resolveTaskEvidence task).policy (state.testRuns task.id) report = []

def reportsOn (agent : SubagentAgent) (taskId : String) (reports : List ScopedSubagentReport) :
    List ScopedSubagentReport :=
  reports.filter fun report => report.agent = agent && reportTaskId report = some taskId

variable {report : ScopedSubagentReport}

theorem mem_reportsOn {agent : SubagentAgent} {taskId : String} {reports : List ScopedSubagentReport} :
    report ∈ reportsOn agent taskId reports ↔
      report ∈ reports ∧ report.agent = agent ∧ reportTaskId report = some taskId := by
  simp [reportsOn]

/-- The report that the checks take for the latest: of the change's own list the first with the
    highest attempt. -/
def Selected (state : ChangeState) (agent : SubagentAgent) (taskId : String) (report : ScopedSubagentReport) : Prop :=
  FirstHighest (·.attempt) (reportsOn agent taskId (reportsOf state)) report

theorem mem_latestDesignerReportsByTask {taskId : String} : (taskId, report) ∈ latestDesignerReportsByTask state ↔
      taskId ≠ "" ∧ Selected state .designer taskId report := by
  rw [latestDesignerReportsByTask, latestByKey_mem, ofKey, List.filter_filter]
  by_cases named : taskId = ""
  · subst named
    refine iff_of_false (fun first => ?_) fun both => both.1 rfl
    have member := first.mem
    simp [Option.filter_eq_some_iff] at member
  · have same : (reportsOf state).filter (fun report =>
        (reportTaskId report).filter (· ≠ "") = some taskId && report.agent = .designer) =
          reportsOn .designer taskId (reportsOf state) := by
      refine List.filter_congr fun report _ => ?_
      rw [Bool.eq_iff_iff]
      simp only [Bool.and_eq_true, decide_eq_true_eq, Option.filter_eq_some_iff]
      constructor
      · rintro ⟨⟨about, _⟩, agent⟩
        exact ⟨agent, about⟩
      · rintro ⟨agent, about⟩
        exact ⟨⟨about, named⟩, agent⟩
    rw [same]
    exact (and_iff_right named).symm

theorem mem_latestVerificationReportsForTask {taskId name : String} :
    (name, report) ∈ latestVerificationReportsForTask state taskId ↔
      name = report.agent.text ∧ Selected state report.agent taskId report := by
  rw [latestVerificationReportsForTask, latestByKey_mem, ofKey, List.filter_filter]
  have ofAgent : ∀ agent : SubagentAgent, (reportsOf state).filter (fun report =>
      some report.agent.text = some agent.text && reportTaskId report = some taskId) =
        reportsOn agent taskId (reportsOf state) := by
    refine fun agent => List.filter_congr fun report _ => ?_
    rw [Bool.eq_iff_iff]
    simp only [Bool.and_eq_true, decide_eq_true_eq, Option.some.injEq]
    exact and_congr_left fun _ => ⟨SubagentAgent.text_injective, congrArg _⟩
  constructor
  · intro first
    have member := first.mem
    simp only [List.mem_filter, Bool.and_eq_true, decide_eq_true_eq, Option.some.injEq] at member
    obtain rfl : report.agent.text = name := member.2.1
    refine ⟨rfl, ?_⟩
    rw [Selected, ← ofAgent]
    exact first
  · rintro ⟨rfl, first⟩
    rw [ofAgent]
    exact first

def checksReports (gateId : GateId) : Prop := gateId = .acceptance ∨ gateId = .release

theorem checksReports.not_skipped (checks : checksReports gateId) :
    (gateId ≠ .acceptance && gateId ≠ .release) = false := by
  rcases checks with rfl | rfl <;> rfl

theorem checkUnresolvedDesignConcerns_eq_nil (checks : checksReports gateId) :
    checkUnresolvedDesignConcerns state gateId = [] ↔
      ∀ taskId report, taskId ≠ "" → Selected state .designer taskId report → DesignSettled state taskId report := by
  rw [checkUnresolvedDesignConcerns, checks.not_skipped]
  simp only [Bool.false_eq_true, if_false, List.flatMap_eq_nil_iff, List.append_eq_nil_iff,
    List.map_eq_nil_iff, Prod.forall, mem_latestDesignerReportsByTask, and_imp, DesignSettled]

theorem verificationWarnings_eq_nil {task : ChangeTask} : verificationWarnings state task = [] ↔
      ∀ report, Selected state report.agent task.id report → VerificationSettled state task report := by
  rw [verificationWarnings, List.flatMap_eq_nil_iff]
  constructor
  · intro settled report latest
    exact settled (report.agent.text, report) (mem_latestVerificationReportsForTask.mpr ⟨rfl, latest⟩)
  · rintro settled ⟨name, report⟩ listed
    exact settled report (mem_latestVerificationReportsForTask.mp listed).2

theorem checkUnresolvedVerificationEvidence_eq_nil (checks : checksReports gateId) :
    checkUnresolvedVerificationEvidence state gateId = [] ↔
      ∀ task ∈ state.tasks, needsVerification state task = true →
        ∀ report, Selected state report.agent task.id report → VerificationSettled state task report := by
  rw [checkUnresolvedVerificationEvidence, checks.not_skipped, if_neg Bool.false_ne_true,
    List.map_eq_nil_iff, List.filter_eq_nil_iff]
  refine forall₂_congr fun task _ => ?_
  rw [Bool.and_eq_true, not_and, Bool.not_eq_true', Bool.not_eq_false, List.isEmpty_iff, verificationWarnings_eq_nil]

/-! ## Evidence plans and review authority -/

def PlansValid (state : ChangeState) : Prop :=
  ∀ task ∈ state.tasks, task.status = .done →
    validateTaskEvidenceForStage task .completion (reportsOf state ++ task.subagent_reports.getD []) = []

theorem checkCompletedTaskEvidencePlan_eq_nil (checks : checksReports gateId) :
    checkCompletedTaskEvidencePlan state gateId = [] ↔ PlansValid state := by
  rw [checkCompletedTaskEvidencePlan, checks.not_skipped, if_neg Bool.false_ne_true, List.flatMap_eq_nil_iff]
  simp only [List.mem_filter, decide_eq_true_eq, and_imp, PlansValid]
  refine forall₃_congr fun task _ _ => ?_
  split
  next valid => exact iff_of_true rfl (List.isEmpty_iff.mp valid)
  next invalid => exact iff_of_false (List.cons_ne_nil _ _) fun valid => invalid (List.isEmpty_iff.mpr valid)

def RespectsReviewed (state : ChangeState) : Prop :=
  ∀ contract, state.contract = some contract → ∀ task ∈ state.tasks, task.status = .done →
    (∃ item ∈ contract.items, (item.kind = .avoidance ∨ item.kind = .out_of_scope) ∧
      item.id ∈ (task.contract_refs.bind (·.respects)).getD []) →
    ∃ report ∈ reportsOf state, report.agent = .reviewer ∧ reportTaskId report = some task.id

theorem checkRespectsEvidenceAuthority_eq_nil (checks : checksReports gateId) :
    checkRespectsEvidenceAuthority state gateId = [] ↔ RespectsReviewed state := by
  rw [checkRespectsEvidenceAuthority, checks.not_skipped, if_neg Bool.false_ne_true]
  cases held : state.contract with
  | none => exact iff_of_true rfl fun contract some => nomatch held.symm.trans some
  | some contract =>
    simp only [List.flatMap_eq_nil_iff, List.mem_filter, decide_eq_true_eq, and_imp, RespectsReviewed,
      held, Option.some.injEq, forall_eq']
    refine forall₃_congr fun task _ _ => ?_
    split
    next settled =>
      refine iff_of_true rfl ?_
      rintro ⟨item, listed, kind, respected⟩
      rcases Bool.or_eq_true _ _ ▸ settled with claimless | reviewed
      · have claimed := List.isEmpty_iff.mp claimless
        rw [List.filter_eq_nil_iff] at claimed
        refine absurd ?_ (claimed item.id respected)
        simp only [List.mem_map, List.mem_filter, Bool.or_eq_true, decide_eq_true_eq]
        exact ⟨item, ⟨listed, kind⟩, rfl⟩
      · simpa using reviewed
    next unsettled =>
      refine iff_of_false (List.cons_ne_nil _ _) fun reviewed => unsettled ?_
      rw [Bool.or_eq_true]
      by_contra neither
      obtain ⟨claims, unreviewed⟩ := not_or.mp neither
      rw [List.isEmpty_iff, List.filter_eq_nil_iff] at claims
      push Not at claims
      obtain ⟨id, respected, listed⟩ := claims
      simp only [List.mem_map, List.mem_filter, Bool.or_eq_true, decide_eq_true_eq] at listed
      obtain ⟨item, ⟨member, kind⟩, rfl⟩ := listed
      exact unreviewed (by simpa using reviewed ⟨item, member, kind, respected⟩)

/-! ## Obligations of a release -/

theorem mem_contractItemsCoveredByTasks {id : String} : id ∈ contractItemsCoveredByTasks state ↔
      ∃ task ∈ state.tasks, task.status ≠ .cancelled ∧ ∃ refs, task.contract_refs = some refs ∧
        (id ∈ refs.implements.getD [] ∨ id ∈ refs.verifies.getD []) := by
  simp only [contractItemsCoveredByTasks, List.mem_flatMap, List.mem_filter, decide_eq_true_eq, and_assoc]
  refine exists_congr fun task => and_congr_right fun _ => and_congr_right fun _ => ?_
  cases task.contract_refs <;> simp

def ObligationsPass (state : ChangeState) : Prop :=
  ∀ contract, state.contract = some contract → ∀ item ∈ contract.items,
    item.requiredCritical = some true → ∀ row, rowOf (matrixRows contract) item.id = some row →
      isFailingContractReviewStatus row.status = false

def ObligationsRouted (state : ChangeState) : Prop :=
  ∀ contract, state.contract = some contract → ∀ item ∈ contract.items, item.requiredCritical = some true →
      truthy item.notRequiredReason = true ∨ item.id ∈ rowIds (matrixRows contract) ∨
        item.id ∈ contractItemsCoveredByTasks state

theorem checkRequiredObligationReleaseBlockers_eq_nil :
    checkRequiredObligationReleaseBlockers state .release = [] ↔ ObligationsPass state := by
  rw [checkRequiredObligationReleaseBlockers, if_neg (not_not.mpr rfl)]
  cases held : state.contract with
  | none => exact iff_of_true rfl fun contract some => nomatch held.symm.trans some
  | some contract =>
    simp only [List.flatMap_eq_nil_iff, List.mem_filter, decide_eq_true_eq, and_imp, ObligationsPass,
      held, Option.some.injEq, forall_eq']
    refine forall₃_congr fun item _ _ => ?_
    cases rowOf (matrixRows contract) item.id with
    | none => simp
    | some row => cases failing : isFailingContractReviewStatus row.status <;> simp [failing]

theorem checkRequiredObligationRouting_eq_nil :
    checkRequiredObligationRouting state .release = [] ↔ ObligationsRouted state := by
  rw [checkRequiredObligationRouting, if_neg (not_not.mpr rfl)]
  cases held : state.contract with
  | none => exact iff_of_true rfl fun contract some => nomatch held.symm.trans some
  | some contract =>
    simp only [List.flatMap_eq_nil_iff, List.mem_filter, decide_eq_true_eq, and_imp, ObligationsRouted,
      held, Option.some.injEq, forall_eq']
    refine forall₃_congr fun item _ _ => ?_
    have present : (rowOf (matrixRows contract) item.id).isSome = true ↔ item.id ∈ rowIds (matrixRows contract) := by
      rw [Option.isSome_iff_ne_none, Ne, rowOf_eq_none, not_not]
    rw [← present, ← or_assoc]
    split
    next routed => exact iff_of_true rfl (by simpa using routed)
    next unrouted => exact iff_of_false (List.cons_ne_nil _ _) (by simpa using unrouted)

variable {link : OpsFollowupLink}

theorem hasCompleteOpsProof_iff : hasCompleteOpsProof link = true ↔ ∃ resolution, link.resolution = some resolution ∧
      resolution.source = .child_profile ∧ resolution.status = .complete ∧
      truthy resolution.completion_signal = true ∧ truthy resolution.health_verification = true ∧
      truthy resolution.rollback_or_cleanup_disposition = true := by
  unfold hasCompleteOpsProof
  cases link.resolution <;> simp [and_assoc]

theorem mustResolve_iff : mustResolve link = true ↔ link.relationship = .blocks ∨ link.required_handoff = true := by
  unfold mustResolve HANDOFF_OPS_RELATIONSHIPS
  cases link.relationship <;> simp

theorem makeOpsResolutionBlocker_eq_none : makeOpsResolutionBlocker link gateId = none ↔
      (mustResolve link = true → hasCompleteOpsProof link = true) := by
  unfold makeOpsResolutionBlocker
  cases must : mustResolve link with
  | false => simp
  | true =>
    -- The four refusals leave over exactly the complete proof of a child.
    cases held : link.resolution with
    | none =>
      have incomplete : hasCompleteOpsProof link = false := by simp [hasCompleteOpsProof, held]
      by_cases complete : link.status = .complete <;> simp [complete, incomplete]
    | some resolution =>
      cases source : resolution.source with
      | unreachable =>
        have incomplete : hasCompleteOpsProof link = false := by
          simp [hasCompleteOpsProof, held, source]
        simp [Option.filter, source, incomplete]
      | child_profile =>
        by_cases complete : resolution.status = .complete
        · cases proof : hasCompleteOpsProof link <;> simp [Option.filter, source, complete]
        · have incomplete : hasCompleteOpsProof link = false := by
            simp [hasCompleteOpsProof, held, complete]
          simp [Option.filter, source, complete, incomplete]

/-- A link that blocks, or is a required handoff, has its complete proof. -/
def LinksProved (state : ChangeState) : Prop :=
  ∀ link ∈ state.ops_followup_links.getD [], mustResolve link = true → hasCompleteOpsProof link = true

theorem checkOpsFollowupReleaseBlockers_eq_nil :
    checkOpsFollowupReleaseBlockers state .release = [] ↔ LinksProved state := by
  rw [checkOpsFollowupReleaseBlockers, if_neg (not_not.mpr rfl), List.filterMap_eq_nil_iff]
  exact forall₂_congr fun _ _ => makeOpsResolutionBlocker_eq_none

/-! ## The gates -/

def SummaryVisible (state : ChangeState) : Prop :=
  hasText state.executiveSummaryDocument = true ∨ hasContentHash state = true ∧ hasMetadataContext state = true

theorem executiveSummaryBlockers_eq_nil : executiveSummaryBlockers state gateId = [] ↔ SummaryVisible state := by
  unfold executiveSummaryBlockers SummaryVisible
  cases hasText state.executiveSummaryDocument <;> cases hasContentHash state <;>
    cases hasMetadataContext state <;> simp

/-- What the acceptance gate asks of the reports that it looks at. -/
structure ReportsSettled (state : ChangeState) : Prop where
  designs : ∀ taskId report, taskId ≠ "" → Selected state .designer taskId report → DesignSettled state taskId report
  verifications : ∀ task ∈ state.tasks, needsVerification state task = true →
    ∀ report, Selected state report.agent task.id report → VerificationSettled state task report
  plans : PlansValid state
  respects : RespectsReviewed state

structure AcceptanceReady (state : ChangeState) : Prop extends ReportsSettled state where
  earlier : ∀ prior ∈ GateId.acceptance.before, (state.gates prior).status = .done
  proved : ∃ contract matrix, state.contract = some contract ∧ contract.reviewMatrix = some matrix ∧
    MatrixProves contract matrix.rows
  summary : SummaryVisible state

structure ReleaseReady (state : ChangeState) : Prop extends ReportsSettled state where
  earlier : ∀ prior ∈ GateId.release.before, (state.gates prior).status = .done
  passes : ObligationsPass state
  routed : ObligationsRouted state
  links : LinksProved state

theorem reportBlockers_eq_nil (state : ChangeState) (checks : checksReports gateId) :
    checkUnresolvedDesignConcerns state gateId ++ checkUnresolvedVerificationEvidence state gateId ++
      checkCompletedTaskEvidencePlan state gateId ++ checkRespectsEvidenceAuthority state gateId = [] ↔
    ReportsSettled state := by
  simp only [List.append_eq_nil_iff, checkUnresolvedDesignConcerns_eq_nil checks,
    checkUnresolvedVerificationEvidence_eq_nil checks, checkCompletedTaskEvidencePlan_eq_nil checks,
    checkRespectsEvidenceAuthority_eq_nil checks]
  exact ⟨fun ⟨⟨⟨a, b⟩, c⟩, d⟩ => ⟨a, b, c, d⟩, fun ⟨a, b, c, d⟩ => ⟨⟨⟨a, b⟩, c⟩, d⟩⟩

theorem acceptanceContractBlockers_eq_nil : acceptanceContractBlockers state .acceptance .default = [] ↔
      (∃ contract matrix, state.contract = some contract ∧ contract.reviewMatrix = some matrix ∧
        MatrixProves contract matrix.rows) ∧ SummaryVisible state := by
  rw [acceptanceContractBlockers, if_neg (not_not.mpr rfl)]
  cases held : state.contract with
  | none => simp
  | some contract =>
    cases reviewed : contract.reviewMatrix with
    | none => simp [reviewed]
    | some matrix =>
      have proves := matrixProves_iff .acceptance reviewed
      rw [List.append_eq_nil_iff] at proves
      have itself : (∃ other matrix, some contract = some other ∧ other.reviewMatrix = some matrix ∧
          MatrixProves other matrix.rows) ↔ MatrixProves contract matrix.rows := by
        constructor
        · rintro ⟨_, _, same, again, proved⟩
          obtain rfl := Option.some.inj same
          exact Option.some.inj (reviewed.symm.trans again) ▸ proved
        · exact fun proved => ⟨contract, matrix, rfl, reviewed, proved⟩
      rw [itself, ← proves]
      simp only [reviewed, List.append_eq_nil_iff, executiveSummaryBlockers_eq_nil,
        GateReadinessOptions.default, Option.getD_none]
      tauto

theorem ready_iff (options : GateReadinessOptions) : (evaluateGateReadiness state gateId options).ready = true ↔
      (evaluateGateReadiness state gateId options).blockers = [] :=
  List.isEmpty_iff

theorem acceptance_ready_iff :
    (evaluateGateReadiness state .acceptance .default).ready = true ↔ AcceptanceReady state := by
  have reports := reportBlockers_eq_nil state (.inl rfl : checksReports .acceptance)
  have blockers : (evaluateGateReadiness state .acceptance .default).blockers = [] ↔
      priorGateBlockers state .acceptance = [] ∧
      acceptanceContractBlockers state .acceptance .default = [] ∧
      checkUnresolvedDesignConcerns state .acceptance ++ checkUnresolvedVerificationEvidence state .acceptance ++
        checkCompletedTaskEvidencePlan state .acceptance ++
        checkRespectsEvidenceAuthority state .acceptance = [] := by
    simp [evaluateGateReadiness, GateReadinessOptions.default, List.append_eq_nil_iff]
  rw [ready_iff, blockers, priorGateBlockers_eq_nil, acceptanceContractBlockers_eq_nil, reports]
  exact ⟨fun ⟨earlier, ⟨proved, summary⟩, settled⟩ => ⟨settled, earlier, proved, summary⟩,
    fun ready => ⟨ready.earlier, ⟨ready.proved, ready.summary⟩, ready.toReportsSettled⟩⟩

theorem release_ready_iff : (evaluateGateReadiness state .release .default).ready = true ↔ ReleaseReady state := by
  have reports := reportBlockers_eq_nil state (.inr rfl : checksReports .release)
  have blockers : (evaluateGateReadiness state .release .default).blockers = [] ↔
      priorGateBlockers state .release = [] ∧
      checkRequiredObligationReleaseBlockers state .release = [] ∧
      checkRequiredObligationRouting state .release = [] ∧
      checkOpsFollowupReleaseBlockers state .release = [] ∧
      checkUnresolvedDesignConcerns state .release ++ checkUnresolvedVerificationEvidence state .release ++
        checkCompletedTaskEvidencePlan state .release ++
        checkRespectsEvidenceAuthority state .release = [] := by
    simp [evaluateGateReadiness, List.append_eq_nil_iff]
  rw [ready_iff, blockers, priorGateBlockers_eq_nil, checkRequiredObligationReleaseBlockers_eq_nil,
    checkRequiredObligationRouting_eq_nil, checkOpsFollowupReleaseBlockers_eq_nil, reports]
  exact ⟨fun ⟨earlier, passes, routed, links, settled⟩ => ⟨settled, earlier, passes, routed, links⟩,
    fun ready => ⟨ready.earlier, ready.passes, ready.routed, ready.links, ready.toReportsSettled⟩⟩

/-! ## Soundness

A report on a task is in the list of the change, where it is submitted, or in the list of the task,
where recovery puts it. -/

def allReports (state : ChangeState) : List ScopedSubagentReport :=
  reportsOf state ++ state.tasks.flatMap fun task => task.subagent_reports.getD []

def IsLatest (state : ChangeState) (agent : SubagentAgent) (taskId : String) (report : ScopedSubagentReport) : Prop :=
  report ∈ reportsOn agent taskId (allReports state) ∧
    ∀ other ∈ reportsOn agent taskId (allReports state), other.attempt ≤ report.attempt

structure AcceptanceSound (state : ChangeState) : Prop where
  earlier : ∀ prior ∈ GateId.acceptance.before, (state.gates prior).status = .done
  reviewed : ∃ contract matrix, state.contract = some contract ∧ contract.reviewMatrix = some matrix ∧
    (∀ item ∈ contract.items, item.verificationRequired = true → ∃ row,
      matrix.rows.filter (·.contractId = item.id) = [row] ∧
        row.status ≠ .fail ∧ row.status ≠ .violated ∧ row.status ≠ .unknown) ∧
    ∀ row ∈ matrix.rows, ∃ item ∈ contract.items, item.id = row.contractId
  designs : ∀ taskId report, IsLatest state .designer taskId report → DesignSettled state taskId report
  verifications : ∀ task ∈ state.tasks, needsVerification state task = true →
    ∀ report, IsLatest state report.agent task.id report → VerificationSettled state task report

structure ReleaseSound (state : ChangeState) : Prop where
  obligations : ∀ contract, state.contract = some contract → ∀ item ∈ contract.items,
    item.requiredCritical = some true → (∀ row ∈ matrixRows contract, row.contractId = item.id →
        isFailingContractReviewStatus row.status = false) ∧
      (truthy item.notRequiredReason = true ∨ (∃ row ∈ matrixRows contract, row.contractId = item.id) ∨
        ∃ task ∈ state.tasks, task.status ≠ .cancelled ∧ ∃ refs, task.contract_refs = some refs ∧
          (item.id ∈ refs.implements.getD [] ∨ item.id ∈ refs.verifies.getD []))
  links : ∀ link ∈ state.ops_followup_links.getD [], (link.relationship = .blocks ∨ link.required_handoff = true) →
      ∃ resolution, link.resolution = some resolution ∧ resolution.source = .child_profile ∧
        resolution.status = .complete ∧ truthy resolution.completion_signal = true

/-- At most one row for each item. -/
def RowsDistinct (state : ChangeState) : Prop :=
  ∀ contract, state.contract = some contract → (rowIds (matrixRows contract)).Nodup

/-- The latest reports that the checks do not look at leave nothing open: those in the list of a
    task, those that come in the list of the change after one of the same attempt, and those on a
    task without a name. -/
structure NothingOverlooked (state : ChangeState) : Prop where
  designs : ∀ taskId report, IsLatest state .designer taskId report →
    ¬ (taskId ≠ "" ∧ Selected state .designer taskId report) → DesignSettled state taskId report
  verifications : ∀ task ∈ state.tasks, needsVerification state task = true →
    ∀ report, IsLatest state report.agent task.id report →
      ¬ Selected state report.agent task.id report → VerificationSettled state task report

theorem isFailing_eq_false {status : ContractEvidenceStatus} : isFailingContractReviewStatus status = false ↔
      status ≠ .fail ∧ status ≠ .violated ∧ status ≠ .unknown := by
  cases status <;> decide

theorem filter_eq_singleton {rows : List ContractReviewMatrixRow} (distinct : (rowIds rows).Nodup)
    {row : ContractReviewMatrixRow} (member : row ∈ rows) : rows.filter (·.contractId = row.contractId) = [row] := by
  induction rows with
  | nil => cases member
  | cons first rows ih =>
    obtain ⟨fresh, distinct⟩ := List.nodup_cons.mp distinct
    have absent : ∀ other ∈ rows, other.contractId ≠ first.contractId :=
      fun other held same => fresh (List.mem_map.mpr ⟨other, held, same⟩)
    rcases List.mem_cons.mp member with rfl | member
    · rw [List.filter_cons_of_pos (by simp), List.filter_eq_nil_iff.mpr (by simpa using absent)]
    · rw [List.filter_cons_of_neg (by simpa using (absent row member).symm)]
      exact ih distinct member

theorem AcceptanceReady.sound_iff (ready : AcceptanceReady state) :
    AcceptanceSound state ↔ NothingOverlooked state := by
  constructor
  · intro sound
    exact ⟨fun taskId report latest _ => sound.designs taskId report latest,
      fun task listed needs report latest _ => sound.verifications task listed needs report latest⟩
  · intro settled
    obtain ⟨contract, matrix, held, has, proves⟩ := ready.proved
    refine ⟨ready.earlier, ⟨contract, matrix, held, has, fun item listed required => ?_, fun row member => ?_⟩,
      fun taskId report latest => ?_, fun task listed needs report latest => ?_⟩
    · obtain ⟨row, member, same⟩ := List.mem_map.mp (proves.covered item listed required)
      have passes := proves.passing row member ⟨item, listed, required, same.symm⟩
      exact ⟨row, same ▸ filter_eq_singleton proves.distinct member, isFailing_eq_false.mp passes⟩
    · obtain ⟨item, listed, same⟩ := List.mem_map.mp (proves.known row member)
      exact ⟨item, listed, same⟩
    · by_cases selected : taskId ≠ "" ∧ Selected state .designer taskId report
      · exact ready.designs taskId report selected.1 selected.2
      · exact settled.designs taskId report latest selected
    · by_cases selected : Selected state report.agent task.id report
      · exact ready.verifications task listed needs report selected
      · exact settled.verifications task listed needs report latest selected

theorem ReleaseReady.sound (ready : ReleaseReady state) (distinct : RowsDistinct state) : ReleaseSound state := by
  refine ⟨fun contract held item listed critical => ⟨fun row member same => ?_, ?_⟩,
    fun link listed must => ?_⟩
  · exact ready.passes contract held item listed critical row
      ((rowOf_eq_some (distinct contract held)).mpr ⟨member, same⟩)
  · rw [← mem_contractItemsCoveredByTasks]
    refine (ready.routed contract held item listed critical).imp_right (Or.imp_left fun routed => ?_)
    obtain ⟨row, member, same⟩ := List.mem_map.mp routed
    exact ⟨row, member, same⟩
  · obtain ⟨resolution, has, source, complete, signal, _⟩ :=
      hasCompleteOpsProof_iff.mp (ready.links link listed (mustResolve_iff.mpr must))
    exact ⟨resolution, has, source, complete, signal⟩

theorem ready_sound (state : ChangeState) : ((evaluateGateReadiness state .acceptance .default).ready = true →
      (AcceptanceSound state ↔ NothingOverlooked state)) ∧
    ((evaluateGateReadiness state .release .default).ready = true → RowsDistinct state →
      ReleaseSound state) :=
  ⟨fun ready => (acceptance_ready_iff.mp ready).sound_iff,
    fun ready distinct => (release_ready_iff.mp ready).sound distinct⟩

/-! ## Fixed runs

A change with one proved criterion and one done task. -/

def accepted (own : List ScopedSubagentReport) : ChangeState where
  gates := fun _ => ⟨.done, none, none, none⟩
  tasks := [⟨"tk-1", "Describe the panel", some .docs, .done, none, none, none, false, some own⟩]
  subagent_reports := none
  design_concern_dispositions := none
  verification_evidence_dispositions := none
  contract := some
    { rigor := .standard
      items := [⟨"SC1", .success_criterion, "The panel is described", true, .approved, none, some true⟩]
      reviewMatrix := some ⟨"2025-01-01T00:00:00.000Z", [⟨"SC1", .pass, "docs/panel.md", none⟩]⟩
      amendments := [] }
  acceptanceCriteria := none
  agreementArtifact := true
  executiveSummaryArtifact := none
  agreementDocument := none
  executiveSummaryDocument := some "The panel is described."
  ops_followup_links := none
  testRuns := fun _ => none

theorem accepted_sound : AcceptanceSound (accepted []) ∧ ReleaseSound (accepted []) := by
  refine ⟨((ready_sound (accepted [])).1 (by rfl)).mpr ⟨?_, ?_⟩, (ready_sound (accepted [])).2 (by rfl) ?_⟩
  · rintro taskId report ⟨member, _⟩
    cases (mem_reportsOn.mp member).1
  · rintro task _ _ report ⟨member, _⟩
    cases (mem_reportsOn.mp member).1
  · rintro contract held
    cases held
    exact List.nodup_singleton _

def recovered : ScopedSubagentReport where
  change_id := "describe-panel"
  agent := .designer
  scope := .task "tk-1"
  task_id := some "tk-1"
  attempt := 1
  consumer_warnings := none
  verification := []
  design_dimensions := fun dimension => if dimension = .visual_polish then .concern else .pass
  neighboring_recommendations := []

theorem recovered_latest : IsLatest (accepted [recovered]) .designer "tk-1" recovered := by
  have only : reportsOn .designer "tk-1" (allReports (accepted [recovered])) = [recovered] := rfl
  rw [IsLatest, only]
  exact ⟨List.mem_singleton_self _, fun other member => List.mem_singleton.mp member ▸ le_rfl⟩

/-- Acceptance is ready while the latest report has an open concern. -/
theorem ready_with_concern : (evaluateGateReadiness (accepted [recovered]) .acceptance .default).ready = true ∧
      ¬ AcceptanceSound (accepted [recovered]) := by
  refine ⟨by rfl, fun sound => ?_⟩
  have settled := (sound.designs "tk-1" recovered recovered_latest).1
  revert settled
  decide

end Advance.Gates
