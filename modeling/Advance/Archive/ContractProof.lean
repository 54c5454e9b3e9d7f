import Advance.Validator.Contract

/-! # Contract proof at archive

`getArchiveContractProofErrors`: what the archive of a change asks of its contract and of
the review matrix.
-/

namespace Advance.Archive

open Advance.Gates Advance.Types Advance.Validator

inductive ContractProofError where
  | taskRefUnknown (taskId ref : String)
  | amendmentAuditMissing (contractId : String)
  | matrixMissing
  | matrixStale
  | reviewRefUnknown (contractId : String)
  | rowMissing (contractId : String)
  | unresolved (contractId : String) (status : ContractEvidenceStatus)
  | rationaleMissing (contractId : String)
  deriving DecidableEq

def ContractProofError.text : ContractProofError → String
  | taskRefUnknown taskId ref => "Contract task ref unknown: task " ++ taskId ++ " references " ++ ref
  | amendmentAuditMissing contractId => "Contract amendment audit missing: " ++ contractId
  | matrixMissing =>
    "Contract proof missing: change has required contract items but no review matrix"
  | matrixStale => "Contract proof stale: review matrix predates a substantive contract amendment"
  | reviewRefUnknown contractId => "Contract review ref unknown: " ++ contractId
  | rowMissing contractId => "Contract proof missing: " ++ contractId ++ " has no review row"
  | unresolved contractId status =>
    "Contract proof unresolved: " ++ contractId ++ " has status \"" ++ status.text ++ "\""
  | rationaleMissing contractId => "Contract proof rationale missing: " ++ contractId

def isRequiredContractItem (item : ContractItem) : Bool :=
  item.verificationRequired && item.status ≠ .waived && item.status ≠ .superseded

def hasAmendmentAudit (contract : ChangeContract) (contractId : String) : Bool :=
  contract.amendments.any fun amendment =>
    amendment.affectedIds.contains contractId && trimmed amendment.reason ≠ "" && hasText amendment.approvalEvidence

section

-- `Date.parse`, without a value where the source has `NaN`
variable (dateParse : String → Option Int)

def matrixPredatesInvalidatingAmendment (contract : ChangeContract) : Bool :=
  match contract.reviewMatrix.bind fun matrix => dateParse matrix.reviewedAt with
  | none => false
  | some reviewedAt =>
    contract.amendments.any fun amendment =>
      amendment.invalidatesReviewMatrix && (dateParse amendment.amendedAt).any fun amendedAt => reviewedAt < amendedAt

def taskRefErrors (contract : ChangeContract) (task : ChangeTask) : List ContractProofError :=
  (((task.contract_refs.map allTaskRefs).getD []).filter (· ∉ contract.items.map (·.id))).map
    (.taskRefUnknown task.id)

def auditErrors (contract : ChangeContract) (item : ContractItem) : List ContractProofError :=
  if (item.status = .amended || item.status = .waived || item.status = .superseded) &&
      !hasAmendmentAudit contract item.id then [.amendmentAuditMissing item.id]
  else []

def reviewRefErrors (contract : ChangeContract) (row : ContractReviewMatrixRow) : List ContractProofError :=
  if row.contractId ∈ contract.items.map (·.id) then [] else [.reviewRefUnknown row.contractId]

def itemProofErrors (rows : List ContractReviewMatrixRow) (item : ContractItem) : List ContractProofError :=
  match rowOf rows item.id with
  | none => [.rowMissing item.id]
  | some row =>
    (if isFailingContractReviewStatus row.status then [.unresolved item.id row.status] else []) ++
    if row.status = .not_applicable && trimmed row.evidence = "" && !hasText row.notes then
      [.rationaleMissing item.id]
    else []

def contractProofErrors (change : ChangeState) : List ContractProofError :=
  match change.contract with
  | none => []
  | some contract =>
    let requiredItems := contract.items.filter isRequiredContractItem
    let recorded := change.tasks.flatMap (taskRefErrors contract) ++ contract.items.flatMap (auditErrors contract)
    if 0 < requiredItems.length && contract.reviewMatrix.isNone then recorded ++ [.matrixMissing]
    else
      recorded ++ (if matrixPredatesInvalidatingAmendment dateParse contract then [.matrixStale] else []) ++
        (matrixRows contract).flatMap (reviewRefErrors contract) ++
        requiredItems.flatMap (itemProofErrors (matrixRows contract))

def getArchiveContractProofErrors (change : ChangeState) : List String :=
  (contractProofErrors dateParse change).map ContractProofError.text

end

end Advance.Archive
