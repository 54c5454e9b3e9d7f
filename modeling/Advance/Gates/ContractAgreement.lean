import Advance.Archive.ContractProof
import Advance.Gates.ReadinessSoundness

/-! # The contract checkers agree

The archive, the validator and acceptance readiness each look the rows of the review matrix
up again.  The first two take the last row of an item; readiness refuses repeated rows.
-/

namespace Advance.Gates

open Advance.Archive Advance.Types Advance.Validator

variable {state : ChangeState} {contract : ChangeContract} {matrix : ContractReviewMatrix}

/-! ## Verdicts -/

def isProofError : ContractProofError → Bool
  | .matrixMissing | .rowMissing _ | .unresolved _ _ | .reviewRefUnknown _ => true
  | .taskRefUnknown _ _ | .amendmentAuditMissing _ | .matrixStale | .rationaleMissing _ => false

def PROOF_ISSUES : List ContractIssueCode := [.proofMissing, .proofFailed, .unknownReviewRef]

def ROW_BLOCKERS : List BlockerCode :=
  [.ACCEPTANCE_REVIEW_ROW_MISSING, .ACCEPTANCE_REVIEW_ROW_FAILING, .ACCEPTANCE_REVIEW_MATRIX_INVALID]

/-- The archive has no missing, unresolved or unknown row to report. -/
def ArchiveProves (dateParse : String → Option Int) (state : ChangeState) : Prop :=
  ∀ error ∈ contractProofErrors dateParse state, isProofError error = false

/-- The validator has no missing or failed proof and no unknown row to report. -/
def ValidatorProves (state : ChangeState) : Prop :=
  ∀ issue ∈ runContractChecks state, issue.code ∉ PROOF_ISSUES

/-- Readiness has no blocker about a row or about the coverage of the rows. -/
def ReadinessProves (state : ChangeState) : Prop :=
  ∀ blocker ∈ (evaluateGateReadiness state .acceptance .default).blockers, blocker.code ∉ ROW_BLOCKERS

/-! ## What each asks -/

def RowsKnown (contract : ChangeContract) (rows : List ContractReviewMatrixRow) : Prop :=
  ∀ row ∈ rows, row.contractId ∈ contract.items.map (·.id)

def LastRowsPass (contract : ChangeContract) (rows : List ContractReviewMatrixRow) : Prop :=
  ∀ item ∈ contract.items, item.verificationRequired = true →
    ∃ row, rowOf rows item.id = some row ∧ isFailingContractReviewStatus row.status = false

variable {rows : List ContractReviewMatrixRow}

theorem matrixProves_iff_last : MatrixProves contract rows ↔
      (rowIds rows).Nodup ∧ RowsKnown contract rows ∧ LastRowsPass contract rows := by
  constructor
  · intro proves
    refine ⟨proves.distinct, proves.known, fun item listed required => ?_⟩
    obtain ⟨row, member, same⟩ := List.mem_map.mp (proves.covered item listed required)
    exact ⟨row, (rowOf_eq_some proves.distinct).mpr ⟨member, same⟩,
      proves.passing row member ⟨item, listed, required, same.symm⟩⟩
  · rintro ⟨distinct, known, last⟩
    refine ⟨⟨distinct, fun item listed required => ?_, known⟩, ?_⟩
    · obtain ⟨row, found, _⟩ := last item listed required
      obtain ⟨member, same⟩ := (rowOf_eq_some distinct).mp found
      exact same ▸ List.mem_map_of_mem member
    · rintro row member ⟨item, listed, required, same⟩
      obtain ⟨other, found, passes⟩ := last item listed required
      have itself := (rowOf_eq_some distinct).mpr ⟨member, same.symm⟩
      exact Option.some.inj (found.symm.trans itself) ▸ passes

/-! ### The validator -/

variable {issue : ContractIssue}

theorem code_checkDuplicateContractIds {seenIds : List String} {items : List ContractItem}
    (listed : issue ∈ checkDuplicateContractIds seenIds items) : issue.code = .duplicateId := by
  induction items generalizing seenIds with
  | nil => cases listed
  | cons item items ih =>
    rcases List.mem_append.mp listed with here | later
    · split at here
      · rw [List.mem_singleton.mp here]
      · cases here
    · exact ih later

theorem code_checkTaskRefs {task : ChangeTask} (listed : issue ∈ checkTaskRefs contract task) :
    issue.code = .unknownRef ∨ issue.code = .taskRefsMissing := by
  rcases List.mem_append.mp listed with unknown | missing
  · obtain ⟨ref, _, reported⟩ := List.mem_flatMap.mp unknown
    split at reported
    · cases reported
    · exact .inl (by rw [List.mem_singleton.mp reported])
  · split at missing
    · exact .inr (by rw [List.mem_singleton.mp missing])
    · cases missing

theorem code_checkCoverage (listed : issue ∈ checkCoverage state contract) : issue.code = .acUncovered := by
  unfold checkCoverage at listed
  split at listed
  · cases listed
  · obtain ⟨entry, _, rfl⟩ := List.mem_map.mp listed
    rfl

theorem code_checkCriteriaDrift (listed : issue ∈ checkCriteriaDrift state contract) :
    issue.code = .acceptanceCriteriaDrift := by
  unfold checkCriteriaDrift at listed
  split at listed
  · cases listed
  · dsimp only at listed
    split at listed
    · cases listed
    · rw [List.mem_singleton.mp listed]

variable {row : ContractReviewMatrixRow}

theorem checkReviewRef_spares :
    (∀ issue ∈ checkReviewRef contract row, issue.code ∉ PROOF_ISSUES) ↔
      row.contractId ∈ contract.items.map (·.id) := by
  unfold checkReviewRef
  split
  next known => exact iff_of_true nofun known
  next unknown =>
    refine iff_of_false (fun spared => ?_) unknown
    exact spared _ (List.mem_singleton_self _) (by simp [PROOF_ISSUES])

variable {item : ContractItem}

theorem checkItemProof_spares : (∀ issue ∈ checkItemProof rows item, issue.code ∉ PROOF_ISSUES) ↔
      (item.verificationRequired = true →
        ∃ row, rowOf rows item.id = some row ∧ isFailingContractReviewStatus row.status = false) := by
  unfold checkItemProof
  cases item.verificationRequired with
  | false => simp
  | true =>
    cases rowOf rows item.id with
    | none => simp [PROOF_ISSUES]
    | some row => cases failing : isFailingContractReviewStatus row.status <;> simp [PROOF_ISSUES, failing]

theorem validatorProves_iff (held : state.contract = some contract) (reviewed : contract.reviewMatrix = some matrix) :
    ValidatorProves state ↔ RowsKnown contract matrix.rows ∧ LastRowsPass contract matrix.rows := by
  have others : ∀ issue ∈ checkDuplicateContractIds [] contract.items ++
      state.tasks.flatMap (checkTaskRefs contract) ++ checkCoverage state contract ++
      checkCriteriaDrift state contract, issue.code ∉ PROOF_ISSUES := by
    simp only [List.forall_mem_append, List.mem_flatMap]
    refine ⟨⟨⟨fun issue listed => ?_, ?_⟩, fun issue listed => ?_⟩, fun issue listed => ?_⟩
    · rw [code_checkDuplicateContractIds listed]; decide
    · rintro issue ⟨task, _, listed⟩
      rcases code_checkTaskRefs listed with code | code <;> rw [code] <;> decide
    · rw [code_checkCoverage listed]; decide
    · rw [code_checkCriteriaDrift listed]; decide
  have rows : ValidatorProves state ↔
      ∀ issue ∈ checkReviewMatrix contract matrix.rows, issue.code ∉ PROOF_ISSUES := by
    simp only [ValidatorProves, runContractChecks, held, reviewed, Option.map_some, Option.getD_some,
      List.forall_mem_append] at others ⊢
    tauto
  rw [rows, checkReviewMatrix, List.forall_mem_append]
  simp only [List.mem_flatMap, forall_exists_index, and_imp]
  refine and_congr ?_ ?_
  · rw [forall_comm]
    exact forall_congr' fun row => forall_comm.trans (forall_congr' fun _ => checkReviewRef_spares)
  · rw [forall_comm]
    exact forall_congr' fun item => forall_comm.trans (forall_congr' fun _ => checkItemProof_spares)

/-! ### The archive -/

theorem reviewRefErrors_spares :
    (∀ error ∈ reviewRefErrors contract row, isProofError error = false) ↔
      row.contractId ∈ contract.items.map (·.id) := by
  unfold reviewRefErrors
  split
  next known => exact iff_of_true nofun known
  next unknown => exact iff_of_false (by simp [isProofError]) unknown

theorem itemProofErrors_spares : (∀ error ∈ itemProofErrors rows item, isProofError error = false) ↔
      ∃ row, rowOf rows item.id = some row ∧ isFailingContractReviewStatus row.status = false := by
  unfold itemProofErrors
  cases rowOf rows item.id with
  | none => simp [isProofError]
  | some row =>
    rw [List.forall_mem_append]
    cases failing : isFailingContractReviewStatus row.status with
    | true => simp [isProofError, failing]
    | false =>
      refine iff_of_true ⟨nofun, fun error listed => ?_⟩ ⟨row, rfl, failing⟩
      split at listed
      · rw [List.mem_singleton.mp listed]; rfl
      · cases listed

theorem recorded_spares {tasks : List ChangeTask} {items : List ContractItem} :
    ∀ error ∈ tasks.flatMap (taskRefErrors contract) ++ items.flatMap (auditErrors contract),
      isProofError error = false := by
  rw [List.forall_mem_append]
  refine ⟨fun error listed => ?_, fun error listed => ?_⟩
  · obtain ⟨task, _, reported⟩ := List.mem_flatMap.mp listed
    obtain ⟨ref, _, rfl⟩ := List.mem_map.mp reported
    rfl
  · obtain ⟨item, _, reported⟩ := List.mem_flatMap.mp listed
    unfold auditErrors at reported
    split at reported
    · rw [List.mem_singleton.mp reported]; rfl
    · cases reported

theorem archiveProves_iff (dateParse : String → Option Int) (held : state.contract = some contract)
    (reviewed : contract.reviewMatrix = some matrix)
    (unwaived : ∀ item ∈ contract.items, item.status ≠ .waived ∧ item.status ≠ .superseded) :
    ArchiveProves dateParse state ↔ RowsKnown contract matrix.rows ∧ LastRowsPass contract matrix.rows := by
  have required : contract.items.filter isRequiredContractItem = contract.items.filter (·.verificationRequired) := by
    refine List.filter_congr fun item listed => ?_
    simp [isRequiredContractItem, unwaived item listed]
  have errors : contractProofErrors dateParse state =
      (state.tasks.flatMap (taskRefErrors contract) ++ contract.items.flatMap (auditErrors contract)) ++
        (if matrixPredatesInvalidatingAmendment dateParse contract then [.matrixStale] else []) ++
        matrix.rows.flatMap (reviewRefErrors contract) ++
        (contract.items.filter (·.verificationRequired)).flatMap (itemProofErrors matrix.rows) := by
    simp [contractProofErrors, held, matrixRows, reviewed, required]
  have stale : ∀ error ∈ (if matrixPredatesInvalidatingAmendment dateParse contract then
      [ContractProofError.matrixStale] else []), isProofError error = false := by
    split <;> simp [isProofError]
  rw [ArchiveProves, errors, List.forall_mem_append, List.forall_mem_append, List.forall_mem_append,
    and_iff_right recorded_spares, and_iff_right stale]
  simp only [List.mem_flatMap, forall_exists_index, and_imp, List.mem_filter]
  refine and_congr ?_ ?_
  · rw [forall_comm]
    exact forall_congr' fun row => forall_comm.trans (forall_congr' fun _ => reviewRefErrors_spares)
  · rw [forall_comm]
    refine forall_congr' fun item => ?_
    constructor
    · intro spared listed required
      exact itemProofErrors_spares.mp fun error reported => spared error listed required reported
    · intro passes error listed required reported
      exact itemProofErrors_spares.mpr (passes listed required) error reported

/-! ### Readiness -/

variable {gateId : GateId}

variable {blocker : GateReadinessBlocker}

theorem code_priorGateBlockers
    (listed : blocker ∈ priorGateBlockers state gateId) : blocker.code = .PRIOR_GATE_INCOMPLETE := by
  obtain ⟨prior, _, rfl⟩ := List.mem_map.mp listed
  rfl

theorem code_checkUnresolvedDesignConcerns (listed : blocker ∈ checkUnresolvedDesignConcerns state gateId) :
    blocker.code = .DESIGN_CONCERN_UNRESOLVED := by
  unfold checkUnresolvedDesignConcerns at listed
  split at listed
  · cases listed
  · obtain ⟨⟨taskId, report⟩, _, reported⟩ := List.mem_flatMap.mp listed
    rcases List.mem_append.mp reported with concern | neighbor
    · obtain ⟨dimension, _, rfl⟩ := List.mem_map.mp concern
      rfl
    · obtain ⟨recommendation, _, rfl⟩ := List.mem_map.mp neighbor
      rfl

theorem code_checkUnresolvedVerificationEvidence
    (listed : blocker ∈ checkUnresolvedVerificationEvidence state gateId) :
    blocker.code = .VERIFICATION_EVIDENCE_MISSING := by
  unfold checkUnresolvedVerificationEvidence at listed
  split at listed
  · cases listed
  · obtain ⟨task, _, rfl⟩ := List.mem_map.mp listed
    rfl

theorem code_checkCompletedTaskEvidencePlan (listed : blocker ∈ checkCompletedTaskEvidencePlan state gateId) :
    blocker.code = .EVIDENCE_PLAN_INVALID := by
  unfold checkCompletedTaskEvidencePlan at listed
  split at listed
  · cases listed
  · obtain ⟨task, _, reported⟩ := List.mem_flatMap.mp listed
    dsimp only at reported
    split at reported
    · cases reported
    · rw [List.mem_singleton.mp reported]; rfl

theorem code_checkRespectsEvidenceAuthority (listed : blocker ∈ checkRespectsEvidenceAuthority state gateId) :
    blocker.code = .RESPECTS_EVIDENCE_AUTHORITY_MISSING := by
  unfold checkRespectsEvidenceAuthority at listed
  split at listed
  · cases listed
  · split at listed
    · cases listed
    · obtain ⟨task, _, reported⟩ := List.mem_flatMap.mp listed
      dsimp only at reported
      split at reported
      · cases reported
      · rw [List.mem_singleton.mp reported]; rfl

theorem executiveSummaryBlockers_spare :
    ∀ blocker ∈ executiveSummaryBlockers state gateId, blocker.code ∉ ROW_BLOCKERS := by
  unfold executiveSummaryBlockers
  rw [List.forall_mem_append]
  constructor <;> split <;> simp [makeBlocker, ROW_BLOCKERS]

theorem rowCoverageBlockers_spare {strict : Bool} :
    (∀ blocker ∈ rowCoverageBlockers contract gateId strict, blocker.code ∉ ROW_BLOCKERS) ↔
      rowCoverageBlockers contract gateId strict = [] := by
  unfold rowCoverageBlockers
  split <;> simp [makeBlocker, ROW_BLOCKERS]

theorem reviewRowBlockers_spare : (∀ blocker ∈ reviewRowBlockers rows gateId item, blocker.code ∉ ROW_BLOCKERS) ↔
      reviewRowBlockers rows gateId item = [] := by
  unfold reviewRowBlockers
  split
  · simp [makeBlocker, ROW_BLOCKERS]
  · split <;> simp [makeBlocker, ROW_BLOCKERS]

theorem readinessProves_iff (held : state.contract = some contract) (reviewed : contract.reviewMatrix = some matrix) :
    ReadinessProves state ↔ MatrixProves contract matrix.rows := by
  have others : ∀ blocker ∈ priorGateBlockers state .acceptance ++
      executiveSummaryBlockers state .acceptance ++ checkUnresolvedDesignConcerns state .acceptance ++
      checkUnresolvedVerificationEvidence state .acceptance ++
      checkCompletedTaskEvidencePlan state .acceptance ++
      checkRespectsEvidenceAuthority state .acceptance, blocker.code ∉ ROW_BLOCKERS := by
    simp only [List.forall_mem_append]
    refine ⟨⟨⟨⟨⟨fun blocker listed => ?_, executiveSummaryBlockers_spare⟩, fun blocker listed => ?_⟩,
      fun blocker listed => ?_⟩, fun blocker listed => ?_⟩, fun blocker listed => ?_⟩
    · rw [code_priorGateBlockers listed]; decide
    · rw [code_checkUnresolvedDesignConcerns listed]; decide
    · rw [code_checkUnresolvedVerificationEvidence listed]; decide
    · rw [code_checkCompletedTaskEvidencePlan listed]; decide
    · rw [code_checkRespectsEvidenceAuthority listed]; decide
  have blockers : (evaluateGateReadiness state .acceptance .default).blockers = priorGateBlockers state .acceptance ++
        (rowCoverageBlockers contract .acceptance true ++ executiveSummaryBlockers state .acceptance ++
          (contract.items.filter (·.verificationRequired)).flatMap (reviewRowBlockers matrix.rows .acceptance)) ++
        checkUnresolvedDesignConcerns state .acceptance ++
        checkUnresolvedVerificationEvidence state .acceptance ++
        checkCompletedTaskEvidencePlan state .acceptance ++
        checkRespectsEvidenceAuthority state .acceptance := by
    simp [evaluateGateReadiness, acceptanceContractBlockers, held, reviewed,
      GateReadinessOptions.default, List.append_assoc]
  have rows : ReadinessProves state ↔
      (∀ blocker ∈ rowCoverageBlockers contract .acceptance true, blocker.code ∉ ROW_BLOCKERS) ∧
      ∀ blocker ∈ (contract.items.filter (·.verificationRequired)).flatMap
        (reviewRowBlockers matrix.rows .acceptance), blocker.code ∉ ROW_BLOCKERS := by
    rw [ReadinessProves, blockers]
    simp only [List.forall_mem_append] at others ⊢
    tauto
  rw [rows, ← matrixProves_iff .acceptance reviewed, rowCoverageBlockers_spare,
    List.append_eq_nil_iff, List.flatMap_eq_nil_iff]
  refine and_congr_right fun _ => ?_
  simp only [List.mem_flatMap, forall_exists_index, and_imp]
  constructor
  · intro spared item listed
    exact reviewRowBlockers_spare.mp fun blocker reported => spared blocker item listed reported
  · intro passes blocker item listed reported
    rw [passes item listed] at reported
    cases reported

/-! ## Agreement -/

def FailingRow (contract : ChangeContract) (rows : List ContractReviewMatrixRow) : Prop :=
  ∃ item ∈ contract.items, item.verificationRequired = true ∧ ∃ row ∈ rows,
    row.contractId = item.id ∧ isFailingContractReviewStatus row.status = true

def RejectedByAll (contract : ChangeContract) (rows : List ContractReviewMatrixRow) : Prop :=
  (∃ row ∈ rows, row.contractId ∉ contract.items.map (·.id)) ∨
    ∃ item ∈ contract.items, item.verificationRequired = true ∧
      ∀ row, rowOf rows item.id = some row → isFailingContractReviewStatus row.status = true

theorem rejectedByAll_iff :
    RejectedByAll contract rows ↔ ¬ (RowsKnown contract rows ∧ LastRowsPass contract rows) := by
  rw [not_and_or, RejectedByAll, RowsKnown, LastRowsPass]
  push Not
  simp only [ne_eq, Bool.not_eq_false]

theorem checkers_agree_iff (dateParse : String → Option Int) (state : ChangeState)
    (contract : ChangeContract) (matrix : ContractReviewMatrix)
    (held : state.contract = some contract) (reviewed : contract.reviewMatrix = some matrix)
    (unwaived : ∀ item ∈ contract.items, item.status ≠ .waived ∧ item.status ≠ .superseded) :
    ((ArchiveProves dateParse state ↔ ValidatorProves state) ∧
      (ValidatorProves state ↔ ReadinessProves state) ∧
      (FailingRow contract matrix.rows →
        ¬ ArchiveProves dateParse state ∧ ¬ ValidatorProves state ∧ ¬ ReadinessProves state)) ↔
    ((rowIds matrix.rows).Nodup ∨ RejectedByAll contract matrix.rows) := by
  rw [archiveProves_iff dateParse held reviewed unwaived, validatorProves_iff held reviewed,
    readinessProves_iff held reviewed, rejectedByAll_iff]
  constructor
  · rintro ⟨_, agree, _⟩
    rw [or_iff_not_imp_right, not_not]
    exact fun proved => (agree.mp proved).distinct
  · intro condition
    have agree : RowsKnown contract matrix.rows ∧ LastRowsPass contract matrix.rows ↔
        MatrixProves contract matrix.rows := by
      rw [matrixProves_iff_last]
      refine ⟨fun proved => ⟨?_, proved⟩, fun proves => proves.2⟩
      exact condition.resolve_right fun rejected => rejected proved
    refine ⟨Iff.rfl, agree, ?_⟩
    rintro ⟨item, listed, required, row, member, same, fails⟩
    have refused : ¬ MatrixProves contract matrix.rows := fun proves =>
      Bool.false_ne_true ((proves.passing row member ⟨item, listed, required, same.symm⟩).symm.trans fails)
    exact ⟨mt agree.mp refused, mt agree.mp refused, refused⟩

/-! ## Fixed runs -/

def criterion : ContractItem :=
  ⟨"SC1", .success_criterion, "The panel is described", true, .approved, none, none⟩

def matrixOf (statuses : List ContractEvidenceStatus) : ContractReviewMatrix :=
  ⟨"2025-01-01T00:00:00.000Z", statuses.map fun status => ⟨"SC1", status, "docs/panel.md", none⟩⟩

def contractOf (statuses : List ContractEvidenceStatus) : ChangeContract :=
  ⟨.standard, [criterion], some (matrixOf statuses), []⟩

def reviewedChange (statuses : List ContractEvidenceStatus) : ChangeState :=
  { accepted [] with contract := some (contractOf statuses) }

theorem one_row_agrees :
    (ArchiveProves (fun _ => none) (reviewedChange [.fail]) ↔ ValidatorProves (reviewedChange [.fail])) ∧
    (ValidatorProves (reviewedChange [.fail]) ↔ ReadinessProves (reviewedChange [.fail])) ∧
    (FailingRow (contractOf [.fail]) (matrixOf [.fail]).rows →
      ¬ ArchiveProves (fun _ => none) (reviewedChange [.fail]) ∧
        ¬ ValidatorProves (reviewedChange [.fail]) ∧ ¬ ReadinessProves (reviewedChange [.fail])) :=
  (checkers_agree_iff (fun _ => none) (reviewedChange [.fail]) (contractOf [.fail]) (matrixOf [.fail])
    rfl rfl (by decide)).mpr (.inl (by decide))

/-- A failing row and a passing one for the same item. -/
theorem repeated_row_passes : FailingRow (contractOf [.fail, .pass]) (matrixOf [.fail, .pass]).rows ∧
      ArchiveProves (fun _ => none) (reviewedChange [.fail, .pass]) ∧
      ValidatorProves (reviewedChange [.fail, .pass]) ∧
      ¬ ReadinessProves (reviewedChange [.fail, .pass]) := by
  unfold FailingRow ArchiveProves ValidatorProves ReadinessProves
  decide

end Advance.Gates
