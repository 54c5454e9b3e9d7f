import Mathlib.Data.List.Basic

/-! # The change contract

Its items, the review matrix over them and the amendments, as far as the checkers read
them.
-/

namespace Advance.Types

inductive ContractEvidencePolicy where
  | test
  | review
  | static_check
  | design_proof
  | not_applicable
  | source_citation
  | source_audit
  | rubric_review
  | stakeholder_acceptance
  | artifact_reference
  deriving DecidableEq

namespace ContractEvidencePolicy

def text : ContractEvidencePolicy → String
  | test => "test"
  | review => "review"
  | static_check => "static_check"
  | design_proof => "design_proof"
  | not_applicable => "not_applicable"
  | source_citation => "source_citation"
  | source_audit => "source_audit"
  | rubric_review => "rubric_review"
  | stakeholder_acceptance => "stakeholder_acceptance"
  | artifact_reference => "artifact_reference"

def all : List ContractEvidencePolicy :=
  [test, review, static_check, design_proof, not_applicable, source_citation, source_audit,
    rubric_review, stakeholder_acceptance, artifact_reference]

/-- `ContractEvidencePolicySchema.safeParse` -/
def parse (declared : String) : Option ContractEvidencePolicy :=
  all.find? fun policy => policy.text = declared

end ContractEvidencePolicy

def PROOF_BEARING_EVIDENCE_POLICIES : List ContractEvidencePolicy :=
  [.test, .static_check, .review, .artifact_reference]

def isProofBearingEvidencePolicy (policy : ContractEvidencePolicy) : Bool :=
  PROOF_BEARING_EVIDENCE_POLICIES.contains policy

inductive ContractItemKind where
  | success_criterion
  | acceptance_criterion
  | constraint
  | avoidance
  | out_of_scope
  deriving DecidableEq

inductive ContractItemStatus where
  | draft
  | approved
  | amended
  | superseded
  | waived
  deriving DecidableEq

inductive ContractEvidenceStatus where
  | pass
  | fail
  | respected
  | violated
  | unknown
  | not_applicable
  deriving DecidableEq

def ContractEvidenceStatus.text : ContractEvidenceStatus → String
  | pass => "pass"
  | fail => "fail"
  | respected => "respected"
  | violated => "violated"
  | unknown => "unknown"
  | not_applicable => "not_applicable"

def FAILING_CONTRACT_REVIEW_STATUSES : List ContractEvidenceStatus := [.fail, .violated, .unknown]

def isFailingContractReviewStatus (status : ContractEvidenceStatus) : Bool :=
  FAILING_CONTRACT_REVIEW_STATUSES.contains status

structure ContractItem where
  id : String
  kind : ContractItemKind
  text : String
  verificationRequired : Bool
  status : ContractItemStatus
  notRequiredReason : Option String
  requiredCritical : Option Bool
  deriving DecidableEq

structure ContractReviewMatrixRow where
  contractId : String
  status : ContractEvidenceStatus
  evidence : String
  notes : Option String
  deriving DecidableEq

structure ContractReviewMatrix where
  reviewedAt : String
  rows : List ContractReviewMatrixRow
  deriving DecidableEq

structure ContractAmendment where
  reason : String
  approvalEvidence : Option String
  amendedAt : String
  affectedIds : List String
  invalidatesReviewMatrix : Bool
  deriving DecidableEq

inductive ContractRigor where
  | minimal
  | standard
  | strict
  deriving DecidableEq

def ContractRigor.text : ContractRigor → String
  | minimal => "minimal"
  | standard => "standard"
  | strict => "strict"

structure ChangeContract where
  rigor : ContractRigor
  items : List ContractItem
  reviewMatrix : Option ContractReviewMatrix
  amendments : List ContractAmendment
  deriving DecidableEq

end Advance.Types
