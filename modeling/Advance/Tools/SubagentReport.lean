import Advance.Types.ChangeState
import Advance.Types.ChangeStatus

/-! # Sub-agent reports

What a submission reads of a change, what it decides on it and what it writes.
-/

namespace Advance.Tools

open Advance.JavaScript Advance.Types

/-! ## Delegation recovery -/

/-- A task's recovery, as its schema admits it. -/
structure DelegationRecovery where
  empty_or_malformed_count : Nat
  narrower_retry_count : Nat
  inline_diagnosis_evidence : Bool
  last_updated_at : String
  blocked_scope : Option String
  narrower_le_one : narrower_retry_count ≤ 1
  narrower_le_count : narrower_retry_count ≤ empty_or_malformed_count
  deriving DecidableEq

def delegationRecoveryBlocked : Option DelegationRecovery → Bool
  | none => false
  | some recovery => 0 < recovery.narrower_retry_count && !recovery.inline_diagnosis_evidence

def delegationRecoveryScope (taskId : String) (agent : Option SubagentAgent) : String :=
  match agent with
  | some agent => s!"task:{taskId}:agent:{agent.text}"
  | none => s!"task:{taskId}"

def DelegationRecovery.first (scope now : String) : DelegationRecovery where
  empty_or_malformed_count := 1
  narrower_retry_count := 0
  inline_diagnosis_evidence := false
  last_updated_at := now
  blocked_scope := some scope
  narrower_le_one := by omega
  narrower_le_count := by omega

def nextDelegationRecoveryForMalformed (existing : Option DelegationRecovery) (scope now : String) :
    Option DelegationRecovery :=
  if delegationRecoveryBlocked existing then none
  else
    match existing with
    | none => some (.first scope now)
    | some recovery =>
      -- a new incident after the previous one was resolved resets the counter
      if recovery.inline_diagnosis_evidence then some (.first scope now)
      else if 0 < recovery.empty_or_malformed_count && recovery.narrower_retry_count = 0 then
        -- this is the one narrower retry, and it failed
        some
          { empty_or_malformed_count := recovery.empty_or_malformed_count + 1
            narrower_retry_count := 1
            inline_diagnosis_evidence := false
            last_updated_at := now
            blocked_scope := some scope
            narrower_le_one := by omega
            narrower_le_count := by omega }
      else some (.first scope now)

/-- The recovery a valid report leaves. -/
def nextDelegationRecoveryForValid (existing : Option DelegationRecovery) (scope now : String) :
    Option DelegationRecovery :=
  match existing with
  | none => none
  | some recovery =>
    if recovery.inline_diagnosis_evidence then existing
    else if delegationRecoveryBlocked existing then existing
    else if 0 < recovery.empty_or_malformed_count && recovery.narrower_retry_count = 0 then
      -- a successful narrower retry resolves the incident
      some
        { empty_or_malformed_count := 0
          narrower_retry_count := 0
          inline_diagnosis_evidence := false
          last_updated_at := now
          blocked_scope := some scope
          narrower_le_one := by omega
          narrower_le_count := by omega }
    else existing

inductive ErrorClass where
  | TRANSIENT
  | SEMANTIC
  | ENVIRONMENTAL
  | FATAL
  | CONTRACT_CONFLICT
  deriving DecidableEq

structure ErrorRecovery where
  error_class : ErrorClass
  attempts : Option (List JsVal)

def isSemanticInlineDiagnosisEvidence : Option ErrorRecovery → Bool
  | none => false
  | some errorRecovery => errorRecovery.error_class = .SEMANTIC && 0 < (errorRecovery.attempts.getD []).length

def maybeClearBlockedDelegationRecovery (existing : Option DelegationRecovery)
    (errorRecovery : Option ErrorRecovery) (now : String) : Option DelegationRecovery :=
  if delegationRecoveryBlocked existing then
    if isSemanticInlineDiagnosisEvidence errorRecovery then
      existing.map fun recovery => { recovery with inline_diagnosis_evidence := true, last_updated_at := now }
    else none
  else none

/-! ## Reports -/

/-- A blocker of a design validation; old ones are bare strings. -/
inductive DesignBlocker where
  | bare (text : String)
  | typed (contract_ids : List String)

structure IntakeReport where
  change_id : String
  task_id : Option String
  scope : ReportScope
  agent : SubagentAgent
  attempt : Nat
  /-- `apply_context?.implementation_cycle_id` -/
  implementation_cycle_id : Option String
  blockers : List DesignBlocker
  content : JsVal

def subagentReportKey (changeId : String) (taskId : Option String) (scope : ReportScope) (agent : SubagentAgent)
    (attempt : Nat) (implementationCycleId : Option String) : String :=
  let cycleSuffix :=
    match implementationCycleId.filter (· ≠ "") with
    | some cycle => "|cycle:" ++ cycle
    | none => ""
  match taskId.filter (· ≠ "") with
  | some taskId => changeId ++ "|" ++ taskId ++ "|" ++ agent.text ++ "|" ++ toString attempt ++ cycleSuffix
  | none =>
    let scopeId :=
      match scope with
      | .task taskId => "task:" ++ taskId
      | .change scopeKey => "change:" ++ scopeKey
      | .prose _ => "unknown-scope"
    changeId ++ "|" ++ scopeId ++ "|" ++ agent.text ++ "|" ++ toString attempt ++ cycleSuffix

def subagentReportImplementationCycleId (report : IntakeReport) : Option String :=
  match report.agent with
  | .engineer | .designer => report.implementation_cycle_id
  | _ => none

def reportTaskId (report : IntakeReport) : Option String :=
  match report.scope with
  | .task taskId => some taskId
  | _ => report.task_id

def reportId (report : IntakeReport) : String :=
  subagentReportKey report.change_id (reportTaskId report) report.scope report.agent report.attempt
    (subagentReportImplementationCycleId report)

/-! ## The change -/

structure IntakeTask where
  id : String
  delegation_recovery : Option DelegationRecovery
  subagent_reports : Option (List IntakeReport)

/-- A stored change as far as the intake reads it. -/
structure IntakeProjection where
  status : ChangeStatus
  tasks : List IntakeTask
  subagent_reports : Option (List IntakeReport)
  contractItems : Option (List String)

def findTask (change : IntakeProjection) (taskId : String) : Option IntakeTask :=
  change.tasks.find? fun task => task.id = taskId

def IntakeTask.reports (task : IntakeTask) : List IntakeReport := task.subagent_reports.getD []

def IntakeProjection.reports (change : IntakeProjection) : List IntakeReport := change.subagent_reports.getD []

def hasReport (reports : List IntakeReport) (id : String) : Bool := reports.any fun existing => reportId existing = id

def hasExistingReport (task : IntakeTask) (id : String) : Bool := hasReport task.reports id

def hasExistingSidecarReport (change : IntakeProjection) (id : String) : Bool := hasReport change.reports id

/-! ## Decisions -/

structure ReportIdentity where
  taskId : Option String
  agent : Option SubagentAgent

/-- What the schema makes of a submitted report; of a malformed one, who says to have sent it. -/
inductive ReportPayload where
  | malformed (identity : Option ReportIdentity)
  | parsed (report : IntakeReport)

structure SubmitCall where
  payload : ReportPayload
  dryRun : Bool
  now : String
  /-- The content with the warnings of its consumers. -/
  warned : IntakeReport → Option IntakeTask → JsVal

inductive IntakeAnswer where
  | malformed (recorded blocked : Bool)
  | refused (code : String)
  | duplicate (id : String)
  | previewed
  | accepted (report : IntakeReport)
  | failed
  | updated
  | noTask

/-- What a submission goes on to do. -/
inductive SubmitDecision where
  | answer (answer : IntakeAnswer)
  | record (taskId : String) (seen : Option DelegationRecovery) (next : DelegationRecovery)
  | persist (report : IntakeReport) (seen : Option DelegationRecovery) (recovery : Option DelegationRecovery)
  | recover (report : IntakeReport) (status : ChangeStatus) (seen : Option DelegationRecovery)

/-- `recordMalformedDelegationRecovery`, up to its commit. -/
def malformedDecision (identity : Option ReportIdentity) (now : String) (change : Option IntakeProjection) :
    SubmitDecision :=
  match identity.bind fun identity => identity.taskId.map fun taskId => (taskId, identity.agent) with
  | none => .answer (.malformed false false)
  | some (taskId, agent) =>
    match change.bind (findTask · taskId) with
    | none => .answer (.malformed false false)
    | some task =>
      match nextDelegationRecoveryForMalformed task.delegation_recovery (delegationRecoveryScope taskId agent) now with
      | none => .answer (.malformed false true)
      | some next => .record taskId task.delegation_recovery next

def designBlockersRefused (report : IntakeReport) (change : IntakeProjection) : Bool :=
  match report.agent, report.scope with
  | .researcher, .change scopeKey =>
    "researcher:design-validation".toList.isPrefixOf scopeKey.toList && report.blockers.any fun
        | .bare _ => true
        | .typed contractIds => contractIds.any fun id => !(change.contractItems.getD []).contains id
  | _, _ => false

/-- `executeSubmit`, up to its commit. -/
def submitDecision (call : SubmitCall) (change : Option IntakeProjection) : SubmitDecision :=
  match call.payload with
  | .malformed identity =>
    if call.dryRun then .answer (.malformed false false) else malformedDecision identity call.now change
  | .parsed report =>
    match change with
    | none => .answer .failed
    | some change =>
      if designBlockersRefused report change then .answer (.refused "INVALID_REPORT")
      else
        let taskId := (reportTaskId report).filter (· ≠ "")
        let task := taskId.bind (findTask change)
        let id := reportId report
        if taskId.isSome && task.isNone then .answer (.refused "INVALID_TASK_ANCHOR")
        else if hasExistingSidecarReport change id || task.any (hasExistingReport · id) then .answer (.duplicate id)
        else
          let recovery := task.bind IntakeTask.delegation_recovery
          if delegationRecoveryBlocked recovery then .answer (.refused "DELEGATION_RECOVERY_BLOCKED")
          else if call.dryRun then .answer .previewed
          else
            let warned := { report with content := call.warned report task }
            if change.status.isTerminal then .recover warned change.status recovery
            else
              let updated := taskId.bind fun taskId =>
                nextDelegationRecoveryForValid recovery (delegationRecoveryScope taskId (some report.agent)) call.now
              .persist warned recovery (if updated = recovery then none else updated)

/-! ## Mutations -/

def IntakeProjection.mapTask (change : IntakeProjection) (taskId : String) (update : IntakeTask → IntakeTask) :
    IntakeProjection :=
  { change with tasks := change.tasks.map fun task => if task.id = taskId then update task else task }

def recordRecovery (taskId : String) (recovery : DelegationRecovery) (latest : IntakeProjection) : IntakeProjection :=
  latest.mapTask taskId fun task => { task with delegation_recovery := some recovery }

/-- The mutation of `persistReportProjection`. -/
def appendReport (report : IntakeReport) (recovery : Option DelegationRecovery) (latest : IntakeProjection) :
    IntakeProjection :=
  let appended := { latest with subagent_reports := some (latest.reports ++ [report]) }
  match (reportTaskId report).filter (· ≠ ""), recovery with
  | some taskId, some recovery => recordRecovery taskId recovery appended
  | _, _ => appended

/-- The report as the terminal writer stores it. -/
def auditedReport (report : IntakeReport) (status : ChangeStatus) (bundled : Bool) (now : String) : IntakeReport :=
  let (statusText, reason) :=
    match status with
    | .archived => ("archived", "post_archive_report_persist")
    | .closed => ("closed", "post_close_report_persist")
    | .draft => ("draft", "post_close_report_persist")
  { report with
    content := report.content.set "recovery_audit" (.obj
      [("persisted_via", .str (if bundled then "archive-sidecar" else "active-projection")),
       ("reason", .str reason),
       ("evidence", .str s!"change status is {statusText} (terminal workflow)"),
       ("recovered_at", .str now)]) }

def updateFirst (taskId : String) (update : IntakeTask → IntakeTask) : List IntakeTask → List IntakeTask
  | [] => []
  | task :: rest => if task.id = taskId then update task :: rest else task :: updateFirst taskId update rest

def IntakeTask.withReport (report : IntakeReport) (task : IntakeTask) : IntakeTask :=
  { task with subagent_reports := some (task.reports ++ [report]) }

inductive RecoverResult where
  | noTask
  | present
  | added (next : IntakeProjection)

/-- What `saveRecoveredSubagentReport` makes of a projection. -/
def recoverReport (report : IntakeReport) (base : IntakeProjection) : RecoverResult :=
  match (reportTaskId report).filter (· ≠ "") with
  | some taskId =>
    match findTask base taskId with
    | none => .noTask
    | some task =>
      if hasExistingReport task (reportId report) then .present
      else .added { base with tasks := updateFirst taskId (IntakeTask.withReport report) base.tasks }
  | none =>
    if hasExistingSidecarReport base (reportId report) then .present
    else .added { base with subagent_reports := some (base.reports ++ [report]) }

def RecoverResult.mutation (base : IntakeProjection) : RecoverResult → Option IntakeProjection
  | .noTask => none
  | .present => some base
  | .added next => some next

/-- Its check of the readback. -/
def recoveredIn (report : IntakeReport) (readback : IntakeProjection) : Bool :=
  match (reportTaskId report).filter (· ≠ "") with
  | some taskId => (findTask readback taskId).any (hasExistingReport · (reportId report))
  | none => hasExistingSidecarReport readback (reportId report)

end Advance.Tools
