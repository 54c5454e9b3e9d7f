import Advance.Gates.GateReadiness
import Advance.Validator.Conflicts

/-! # Contract checks

`runContractChecks`: the references of tasks to contract items, the coverage of acceptance
criteria and the rows of the review matrix.
-/

namespace Advance.Validator

open Advance.Gates Advance.JavaScript Advance.Types

inductive ContractIssueCode where
  | duplicateId
  | unknownRef
  | taskRefsMissing
  | acUncovered
  | unknownReviewRef
  | proofMissing
  | proofFailed
  | acceptanceCriteriaDrift
  deriving DecidableEq

def ContractIssueCode.text : ContractIssueCode → String
  | .duplicateId => "CONTRACT_DUPLICATE_ID"
  | .unknownRef => "CONTRACT_UNKNOWN_REF"
  | .taskRefsMissing => "CONTRACT_TASK_REFS_MISSING"
  | .acUncovered => "CONTRACT_AC_UNCOVERED"
  | .unknownReviewRef => "CONTRACT_UNKNOWN_REVIEW_REF"
  | .proofMissing => "CONTRACT_PROOF_MISSING"
  | .proofFailed => "CONTRACT_PROOF_FAILED"
  | .acceptanceCriteriaDrift => "CONTRACT_ACCEPTANCE_CRITERIA_DRIFT"

structure ContractIssue where
  code : ContractIssueCode
  severity : ValidationSeverity
  message : String
  path : String
  details : List (String × String)
  deriving DecidableEq

def allTaskRefs (refs : TaskContractRefs) : List String :=
  refs.implements.getD [] ++ refs.verifies.getD [] ++ refs.respects.getD []

def hasAnyTaskRef (refs : Option TaskContractRefs) : Bool :=
  refs.any fun refs => 0 < (allTaskRefs refs).length

/-! ## Coverage -/

structure ContractCoverageEntry where
  taskId : String
  implements : List String
  verifies : List String
  deriving DecidableEq

structure ContractCoverageProjection where
  coveredIds : List String
  uncoveredAcceptanceCriteria : List (String × String)
  taskCoverage : List ContractCoverageEntry
  cancelledTaskIds : List String
  cancelledTaskCount : Nat
  deriving DecidableEq

def coverageEntry (task : ChangeTask) : Option ContractCoverageEntry :=
  if task.status = .cancelled then none
  else
    match task.contract_refs with
    | none => none
    | some refs =>
      let implementsIds := refs.implements.getD []
      let verifiesIds := refs.verifies.getD []
      if implementsIds.length = 0 && verifiesIds.length = 0 then none
      else some ⟨task.id, implementsIds, verifiesIds⟩

def projectContractCoverage (change : ChangeState) : ContractCoverageProjection :=
  let taskCoverage := change.tasks.filterMap coverageEntry
  let coveredIds := distinctOf (taskCoverage.flatMap fun entry => entry.implements ++ entry.verifies)
  let cancelledTaskIds := (change.tasks.filter (·.status = .cancelled)).map (·.id)
  { coveredIds := coveredIds
    uncoveredAcceptanceCriteria :=
      ((change.contract.map (·.items)).getD []).filterMap fun item =>
        if item.kind = .acceptance_criterion && item.verificationRequired && item.id ∉ coveredIds then
          some (item.id, item.text)
        else none
    taskCoverage := taskCoverage
    cancelledTaskIds := cancelledTaskIds
    cancelledTaskCount := cancelledTaskIds.length }

/-! ## The checks -/

def checkDuplicateContractIds : List String → List ContractItem → List ContractIssue
  | _, [] => []
  | seenIds, item :: items =>
    (if item.id ∈ seenIds then
      [⟨.duplicateId, .error, "Contract item ID \"" ++ item.id ++ "\" is duplicated",
        "contract.items." ++ item.id, [("contractId", item.id)]⟩]
    else []) ++ checkDuplicateContractIds (item.id :: seenIds) items

def checkTaskRefs (contract : ChangeContract) (task : ChangeTask) : List ContractIssue :=
  let contractIds := contract.items.map (·.id)
  let path := "tasks." ++ task.id ++ ".contract_refs"
  let named := "Task \"" ++ task.title ++ "\" (" ++ task.id ++ ")"
  (((task.contract_refs.map allTaskRefs).getD []).flatMap fun ref =>
    if ref ∈ contractIds then []
    else
      [⟨.unknownRef, .error, named ++ " references unknown contract item \"" ++ ref ++ "\"", path,
        [("taskId", task.id), ("contractId", ref)]⟩]) ++
  if contract.rigor ≠ .minimal && task.status ≠ .cancelled && !hasAnyTaskRef task.contract_refs &&
      !truthy (task.contract_refs.bind (·.not_applicable_reason)) then
    [⟨.taskRefsMissing, .error, named ++ " needs contract_refs or not_applicable_reason for " ++
      contract.rigor.text ++ " rigor", path, [("taskId", task.id), ("rigor", contract.rigor.text)]⟩]
  else []

def checkCoverage (change : ChangeState) (contract : ChangeContract) : List ContractIssue :=
  if contract.rigor = .minimal then []
  else
    (projectContractCoverage change).uncoveredAcceptanceCriteria.map fun (id, _) =>
      ⟨.acUncovered, .error, "Required acceptance criterion \"" ++ id ++
        "\" has no implementing or verifying task coverage", "contract.items." ++ id,
        [("contractId", id)]⟩

def checkReviewRef (contract : ChangeContract) (row : ContractReviewMatrixRow) : List ContractIssue :=
  if row.contractId ∈ contract.items.map (·.id) then []
  else
    [⟨.unknownReviewRef, .error, "Review matrix references unknown contract item \"" ++
      row.contractId ++ "\"", "contract.reviewMatrix." ++ row.contractId,
      [("contractId", row.contractId)]⟩]

def checkItemProof (rows : List ContractReviewMatrixRow) (item : ContractItem) : List ContractIssue :=
  if !item.verificationRequired then []
  else
    let path := "contract.reviewMatrix." ++ item.id
    match rowOf rows item.id with
    | none =>
      [⟨.proofMissing, .error, "Required contract item \"" ++ item.id ++ "\" has no review matrix row",
        path, [("contractId", item.id)]⟩]
    | some row =>
      if isFailingContractReviewStatus row.status then
        [⟨.proofFailed, .error, "Required contract item \"" ++ item.id ++
          "\" has unresolved proof status \"" ++ row.status.text ++ "\"", path,
          [("contractId", item.id), ("status", row.status.text)]⟩]
      else []

def checkReviewMatrix (contract : ChangeContract) (rows : List ContractReviewMatrixRow) : List ContractIssue :=
  rows.flatMap (checkReviewRef contract) ++ contract.items.flatMap (checkItemProof rows)

def checkCriteriaDrift (change : ChangeState) (contract : ChangeContract) : List ContractIssue :=
  let contractCriteria := (contract.items.filter (·.kind = .acceptance_criterion)).map (·.text)
  match change.acceptanceCriteria with
  | none => []
  | some legacyCriteria =>
    if legacyCriteria = contractCriteria then []
    else
      [⟨.acceptanceCriteriaDrift, .warning,
        "Legacy acceptanceCriteria projection diverges from authoritative contract acceptance criteria",
        "acceptanceCriteria", []⟩]

def runContractChecks (change : ChangeState) : List ContractIssue :=
  match change.contract with
  | none => []
  | some contract =>
    checkDuplicateContractIds [] contract.items ++ change.tasks.flatMap (checkTaskRefs contract) ++
      checkCoverage change contract ++
      ((contract.reviewMatrix.map fun matrix => checkReviewMatrix contract matrix.rows).getD []) ++
      checkCriteriaDrift change contract

end Advance.Validator
