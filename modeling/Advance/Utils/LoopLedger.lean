import Mathlib.Algebra.GroupWithZero.Nat
import Mathlib.Data.List.Sort
import Advance.JavaScript.Collections
import Advance.Storage.StoreDisk

/-! # The loop ledger

A readback of the loops of a change: one entry for each task with recorded attempts
and one for each report of a reviewing or triaging agent, with totals over them.
-/

namespace Advance.Utils

open Advance.JavaScript Advance.Storage

/-! ## Vocabulary -/

inductive LoopKind where
  | apply_retry
  | review_remediation
  | harden_remediation
  | verification_triage
  | ci_repair
  deriving DecidableEq

def LoopKind.text : LoopKind → String
  | apply_retry => "apply_retry"
  | review_remediation => "review_remediation"
  | harden_remediation => "harden_remediation"
  | verification_triage => "verification_triage"
  | ci_repair => "ci_repair"

inductive LoopVerdict where
  | pass
  | fail
  | blocked
  | inconclusive
  deriving DecidableEq

inductive LoopSourceRef where
  | task (taskId : String)
  | report (reportKey agent : String) (attempt : JsNumber)
  | test_run (taskId runId : String)
  | ci_check (repo checkName headSha : String) (runUrl : Option String)
  deriving DecidableEq

structure LoopLedgerEntry where
  id : String
  kind : LoopKind
  producer : String
  evaluator : String
  attemptCount : JsNumber
  verdict : LoopVerdict
  errorClass : Option String
  nextAction : String
  stopReason : Option String
  sourceRefs : List LoopSourceRef
  recordedAt : Option String
  taskId : Option String
  deriving DecidableEq

/-! ## What is read of a change -/

structure LoopAttempt where
  attempt_number : Option JsNumber
  attempted_at : Option String
  deriving DecidableEq

structure LoopTestRun where
  runId : Option String
  recordedAt : Option String
  deriving DecidableEq

/-- An object with its members, or a bare text. -/
inductive LoopScope where
  | scoped (kind task_id scope_key : Option String)
  | bare (text : String)
  deriving DecidableEq

structure LoopReport where
  agent : Option String
  phase : Option String
  verdict : Option String
  status : Option String
  error_class : Option String
  attempt : Option JsNumber
  change_id : Option String
  scope : Option LoopScope
  task_id : Option String
  targets : Option (List JsVal)
  findings : Option (List JsVal)
  summary : Option String
  recommended_next_action : Option String
  /-- `apply_context?.implementation_cycle_id` -/
  implementation_cycle_id : Option String

structure LoopErrorRecovery where
  attempts : Option (List LoopAttempt)
  error_class : Option String
  next_strategy : Option String
  retry_count : Option JsNumber
  total_attempts : Option JsNumber

structure LoopTask where
  id : Option String
  status : Option String
  attempts : Option (List LoopAttempt)
  error_recovery : Option LoopErrorRecovery
  subagent_reports : Option (List LoopReport)

structure LoopLedgerSourceState where
  changeId : Option String
  tasks : Option (List LoopTask)
  subagent_reports : Option (List LoopReport)
  testRuns : Option (List (String × Option (List LoopTestRun)))

/-! ## Identity -/

def reportTaskId (report : LoopReport) : Option String :=
  match report.scope with
  | some (.scoped (some "task") task_id _) => task_id
  | _ => report.task_id

/-- What a template prints for a missing text. -/
def printed (text : Option String) : String := text.getD "undefined"

def reportScopeId (report : LoopReport) : String :=
  match report.scope with
  | some (.scoped (some "task") task_id _) => s!"task:{printed task_id}"
  | some (.scoped (some "change") _ scope_key) => s!"change:{printed scope_key}"
  | _ => "unknown-scope"

def implementationCycleId (report : LoopReport) : Option String :=
  if report.agent = some "adv-engineer" ∨ report.agent = some "adv-designer" then report.implementation_cycle_id
  else none

/-- A text that JavaScript takes for true. -/
def present (text : Option String) : Option String := text.filter (· ≠ "")

section

variable (numberText : JsNumber → String)

/-- `subagentReportKey` of a report's parts. -/
def loopReportKey (changeId agent : String) (attempt : JsNumber) (report : LoopReport) : String :=
  let cycleSuffix :=
    match present (implementationCycleId report) with
    | some cycle => "|cycle:" ++ cycle
    | none => ""
  let scopeId := (present (reportTaskId report)).getD (reportScopeId report)
  changeId ++ "|" ++ scopeId ++ "|" ++ agent ++ "|" ++ numberText attempt ++ cycleSuffix

def reportKey (report : LoopReport) (fallbackChangeId : String) : Option String :=
  match report.agent, report.attempt with
  | some agent, some attempt =>
    if attempt < 1 then none
    else
      let changeId := (present report.change_id).getD fallbackChangeId
      if changeId = "" then none else some (loopReportKey numberText changeId agent attempt report)
  | _, _ => none

end

/-- The greatest of the texts that are there and not empty. -/
def latestTimestamp (values : List (Option String)) : Option String :=
  values.foldl (fun latest value =>
      match present value with
      | none => latest
      | some value =>
        match latest with
        | none => some value
        | some before => if textBefore before value then some value else some before)
    none

/-! ## Entries of tasks -/

def observedAttemptCount : Option LoopErrorRecovery → JsNumber
  | none => 0
  | some recovery =>
    let attempts := recovery.attempts.getD []
    let derivedFloor := attempts.foldl (fun highest attempt =>
        match attempt.attempt_number with
        | some attemptNumber => max highest attemptNumber
        | none => highest)
      (attempts.length : JsNumber)
    max (max derivedFloor (recovery.total_attempts.getD 0)) (recovery.retry_count.getD 0)

def attemptCountOf (task : LoopTask) : JsNumber :=
  let attemptCount := ((task.attempts.getD []).length : JsNumber) + observedAttemptCount task.error_recovery
  let retryCount := (task.error_recovery.bind LoopErrorRecovery.retry_count).getD 0
  if attemptCount = 0 ∧ 0 < retryCount then retryCount else attemptCount

/-- The verdict of a task's entry and its stop reason. -/
def applyVerdict (task : LoopTask) : LoopVerdict × Option String :=
  if task.status = some "done" then (.pass, some "task completed")
  else if task.status = some "blocked" then (.blocked, some "task blocked")
  else
    match (task.error_recovery.bind LoopErrorRecovery.error_class).filter
        fun errorClass => errorClass = "FATAL" || errorClass = "ENVIRONMENTAL" with
    | some errorClass => (.blocked, some s!"escalated: {errorClass}")
    | none => (.fail, none)

def testRunRef (taskId : String) (run : LoopTestRun) : Option LoopSourceRef :=
  (present run.runId).map fun runId => .test_run taskId runId

def buildApplyEntry (task : LoopTask) (changeId : String) (testRuns : List LoopTestRun) : Option LoopLedgerEntry :=
  match present task.id with
  | none => none
  | some taskId =>
    if attemptCountOf task = 0 then none
    else
      let (verdict, stopReason) := applyVerdict task
      some
        { id := "apply_retry|" ++ changeId ++ "|" ++ taskId
          kind := .apply_retry
          producer := "apply"
          evaluator := "task-completion"
          attemptCount := attemptCountOf task
          verdict
          errorClass := task.error_recovery.bind LoopErrorRecovery.error_class
          nextAction := (task.error_recovery.bind LoopErrorRecovery.next_strategy).getD
            (if verdict = .pass then "none" else "retry")
          stopReason
          sourceRefs := .task taskId :: testRuns.filterMap (testRunRef taskId)
          recordedAt := latestTimestamp
            ((task.attempts.getD []).map LoopAttempt.attempted_at ++
              ((task.error_recovery.bind LoopErrorRecovery.attempts).getD []).map LoopAttempt.attempted_at ++
              testRuns.map LoopTestRun.recordedAt)
          taskId := some taskId }

/-! ## Entries of reports -/

def reviewerVerdict : Option String → LoopVerdict
  | some "READY" => .pass
  | some "NEEDS_WORK" => .fail
  | some "BLOCKED" => .blocked
  | some "CONFLICT" => .blocked
  | _ => .inconclusive

def reviewerNextAction : LoopVerdict → String
  | .pass => "proceed"
  | .fail => "remediate findings"
  | .blocked => "resolve blockers"
  | .inconclusive => "review"

def triageVerdict (status errorClass : Option String) : LoopVerdict :=
  if errorClass = some "UNKNOWN" ∨ status = some "inconclusive" then .inconclusive
  else if status = some "pass" then .pass
  else .fail

def remediationKind (report : LoopReport) : LoopKind :=
  if report.phase = some "harden" then .harden_remediation else .review_remediation

def reviewerEntry (report : LoopReport) (key agent : String) (attempt : JsNumber) : LoopLedgerEntry :=
  let verdict := reviewerVerdict report.verdict
  { id := (remediationKind report).text ++ "|" ++ key
    kind := remediationKind report
    producer := agent
    evaluator := "adv-reviewer"
    attemptCount := attempt
    verdict
    errorClass := none
    nextAction := reviewerNextAction verdict
    stopReason :=
      match verdict with
      | .pass => some "review READY"
      | .blocked => some (report.verdict.getD "blocked")
      | _ => none
    sourceRefs := [.report key agent attempt]
    recordedAt := none
    taskId := reportTaskId report }

/-- `finding.severity === "blocker"` of an object. -/
def isBlocker (finding : JsVal) : Bool := finding.get "severity" = .str "blocker"

def scannerEntry (report : LoopReport) (key agent : String) (attempt : JsNumber) : LoopLedgerEntry :=
  let verdict := if (report.findings.getD []).any isBlocker then LoopVerdict.fail else .pass
  { id := (remediationKind report).text ++ "|" ++ key
    kind := remediationKind report
    producer := agent
    evaluator := "adv-scanner-bundle"
    attemptCount := attempt
    verdict
    errorClass := none
    nextAction := report.summary.getD "address scanner findings"
    stopReason := if verdict = .pass then some "scan clean" else none
    sourceRefs := [.report key agent attempt]
    recordedAt := none
    taskId := none }

def ciCheckRef (target : JsVal) : Option LoopSourceRef :=
  match target.get "kind", target.get "repo", target.get "check_name", target.get "head_sha" with
  | .str "ci_check", .str repo, .str checkName, .str headSha =>
    some (.ci_check repo checkName headSha
      (match target.get "run_url" with
      | .str runUrl => some runUrl
      | _ => none))
  | _, _, _, _ => none

def triageEntry (report : LoopReport) (key agent : String) (attempt : JsNumber) : LoopLedgerEntry :=
  let kind := if report.phase = some "ci_check" then LoopKind.ci_repair else .verification_triage
  let verdict := triageVerdict report.status report.error_class
  { id := kind.text ++ "|" ++ key
    kind
    producer := agent
    evaluator := "adv-verification-triage-bundle"
    attemptCount := attempt
    verdict
    errorClass := report.error_class
    nextAction := report.recommended_next_action.getD "triage"
    stopReason :=
      match verdict with
      | .pass => some "triage passed"
      | .inconclusive => some "inconclusive/routing-only"
      | _ => none
    sourceRefs := .report key agent attempt ::
      if kind = .ci_repair then (report.targets.getD []).filterMap ciCheckRef else []
    recordedAt := none
    taskId := none }

section

variable (numberText : JsNumber → String)

def buildReportEntry (report : LoopReport) (fallbackChangeId : String) : Option LoopLedgerEntry :=
  match reportKey numberText report fallbackChangeId with
  | none => none
  | some key =>
    let attempt := report.attempt.getD 0
    match report.agent with
    | some "adv-reviewer" => some (reviewerEntry report key "adv-reviewer" attempt)
    | some "adv-scanner-bundle" => some (scannerEntry report key "adv-scanner-bundle" attempt)
    | some "adv-verification-triage-bundle" =>
      some (triageEntry report key "adv-verification-triage-bundle" attempt)
    | _ => none

/-! ## The loop -/

structure LoopLedger where
  entries : List LoopLedgerEntry
  seenReportKeys : List String
  testRunRefs : Nat
  ciCheckRefs : Nat

def LoopSourceRef.isTestRun : LoopSourceRef → Bool
  | .test_run _ _ => true
  | _ => false

def LoopSourceRef.isCiCheck : LoopSourceRef → Bool
  | .ci_check _ _ _ _ => true
  | _ => false

def LoopLedger.addReport (changeId : String) (ledger : LoopLedger) (report : LoopReport) : LoopLedger :=
  match reportKey numberText report changeId with
  | none => ledger
  | some key =>
    if key ∈ ledger.seenReportKeys then ledger
    else
      match buildReportEntry numberText report changeId with
      | none => ledger
      | some reportEntry =>
        { entries := ledger.entries ++ [reportEntry]
          seenReportKeys := ledger.seenReportKeys ++ [key]
          testRunRefs := ledger.testRunRefs
          ciCheckRefs := ledger.ciCheckRefs + (reportEntry.sourceRefs.filter LoopSourceRef.isCiCheck).length }

/-- `taskId ? (state.testRuns?.[taskId] ?? []) : []` -/
def runsOf (testRuns : List (String × Option (List LoopTestRun))) (task : LoopTask) : List LoopTestRun :=
  match present task.id with
  | some taskId => ((mapGet testRuns taskId).bind id).getD []
  | none => []

def LoopLedger.addTask (changeId : String) (testRuns : List (String × Option (List LoopTestRun)))
    (ledger : LoopLedger) (task : LoopTask) : LoopLedger :=
  match buildApplyEntry task changeId (runsOf testRuns task) with
  | none => ledger -- `continue`, before the reports of the task
  | some entry =>
    (task.subagent_reports.getD []).foldl (LoopLedger.addReport numberText changeId)
      { ledger with
        entries := ledger.entries ++ [entry]
        testRunRefs := ledger.testRunRefs + (entry.sourceRefs.filter LoopSourceRef.isTestRun).length }

def ledgerChangeId (state : LoopLedgerSourceState) : String := (present state.changeId).getD "unknown"

def ledgerOf (state : LoopLedgerSourceState) : LoopLedger :=
  let ofTasks := (state.tasks.getD []).foldl
    (LoopLedger.addTask numberText (ledgerChangeId state) (state.testRuns.getD [])) ⟨[], [], 0, 0⟩
  (state.subagent_reports.getD []).foldl (LoopLedger.addReport numberText (ledgerChangeId state)) ofTasks

end

/-! ## The readback -/

structure LoopSourceTotals where
  tasks : Nat
  reports : Nat
  testRuns : Nat
  ciChecks : Nat
  deriving DecidableEq

structure LoopLatestStatus where
  id : String
  kind : LoopKind
  verdict : LoopVerdict
  recordedAt : Option String
  taskId : Option String
  deriving DecidableEq

/-- The counts of a summary; a count that is missing was never raised. -/
structure LoopCounts where
  byKind : LoopKind → Option Nat
  byVerdict : LoopVerdict → Option Nat
  retryFailureCount : Nat
  inconclusiveCount : Nat
  applyCount : Nat
  reportCount : Nat

def LoopCounts.add (counts : LoopCounts) (entry : LoopLedgerEntry) : LoopCounts where
  byKind := Function.update counts.byKind entry.kind (some ((counts.byKind entry.kind).getD 0 + 1))
  byVerdict := Function.update counts.byVerdict entry.verdict (some ((counts.byVerdict entry.verdict).getD 0 + 1))
  retryFailureCount := if entry.verdict = .fail then counts.retryFailureCount + 1 else counts.retryFailureCount
  inconclusiveCount :=
    if entry.verdict = .inconclusive then counts.inconclusiveCount + 1 else counts.inconclusiveCount
  applyCount := if entry.kind = .apply_retry then counts.applyCount + 1 else counts.applyCount
  reportCount := if entry.kind = .apply_retry then counts.reportCount else counts.reportCount + 1

def loopCounts (entries : List LoopLedgerEntry) : LoopCounts :=
  entries.foldl LoopCounts.add ⟨fun _ => none, fun _ => none, 0, 0, 0, 0⟩

structure LoopLedgerSummary where
  totalEntries : Nat
  byKind : LoopKind → Option Nat
  byVerdict : LoopVerdict → Option Nat
  latestStatus : Option LoopLatestStatus
  sourceTotals : LoopSourceTotals
  retryFailureCount : Nat
  inconclusiveCount : Nat

/-- The order by id. -/
def idBefore (a b : LoopLedgerEntry) : Prop := textBefore b.id a.id = false

instance : DecidableRel idBefore := fun a b => inferInstanceAs (Decidable (textBefore b.id a.id = false))

def keyedBefore (key : LoopLedgerEntry → String) (a b : LoopLedgerEntry) : Prop :=
  if key a ≠ key b then textBefore (key a) (key b) = true else idBefore a b

instance (key : LoopLedgerEntry → String) : DecidableRel (keyedBefore key) :=
  fun a b => inferInstanceAs (Decidable (if key a ≠ key b then textBefore (key a) (key b) = true else idBefore a b))

def latestEntry (entries : List LoopLedgerEntry) : Option LoopLedgerEntry :=
  let withTs := entries.filter fun entry => entry.recordedAt.isSome
  if 0 < withTs.length then (withTs.insertionSort (keyedBefore fun entry => entry.recordedAt.getD "")).getLast?
  else (entries.insertionSort idBefore).getLast?

def summarize (ledger : LoopLedger) : LoopLedgerSummary :=
  let counts := loopCounts ledger.entries
  { totalEntries := ledger.entries.length
    byKind := counts.byKind
    byVerdict := counts.byVerdict
    latestStatus := (latestEntry ledger.entries).map fun latest =>
      ⟨latest.id, latest.kind, latest.verdict, latest.recordedAt, latest.taskId⟩
    sourceTotals := ⟨counts.applyCount, counts.reportCount, ledger.testRunRefs, ledger.ciCheckRefs⟩
    retryFailureCount := counts.retryFailureCount
    inconclusiveCount := counts.inconclusiveCount }

structure LoopLedgerDetails where
  details : List LoopLedgerEntry
  detailsTruncated : Bool
  detailsLimit : Nat

structure LoopLedgerReadback where
  version : String
  summary : LoopLedgerSummary
  detailed : Option LoopLedgerDetails

def clampLimit : Option JsNumber → Nat
  | none => 20
  | some raw =>
    -- `Math.trunc`
    let truncated := if raw < 0 then raw.ceil else raw.floor
    (min (max truncated 1) 100).toNat

def projectLoopLedger (numberText : JsNumber → String) (state : LoopLedgerSourceState) (details : Bool)
    (limit : Option JsNumber) : LoopLedgerReadback :=
  let ledger := ledgerOf numberText state
  let ordered := ledger.entries.insertionSort (keyedBefore fun entry => entry.kind.text)
  { version := "1.0"
    summary := summarize ledger
    detailed :=
      if details then
        some ⟨ordered.take (clampLimit limit), clampLimit limit < ordered.length, clampLimit limit⟩
      else none }

/-! ## What is claimed -/

section

variable (numberText : JsNumber → String)

def Retried (task : LoopTask) : Prop := present task.id ≠ none ∧ attemptCountOf task ≠ 0

instance (task : LoopTask) : Decidable (Retried task) :=
  inferInstanceAs (Decidable (present task.id ≠ none ∧ attemptCountOf task ≠ 0))

/-- A report with a valid key from an agent that is a source of loops. -/
def IsLoopReport (changeId : String) (report : LoopReport) (key : String) : Prop :=
  reportKey numberText report changeId = some key ∧ (buildReportEntry numberText report changeId).isSome

def attachedReports (state : LoopLedgerSourceState) : List LoopReport :=
  (state.tasks.getD []).flatMap (fun task => task.subagent_reports.getD []) ++ state.subagent_reports.getD []

def LoopSourceRef.names (key : String) : LoopSourceRef → Bool
  | .report reportKey _ _ => reportKey = key
  | _ => false

def LoopLedgerEntry.carries (key : String) (entry : LoopLedgerEntry) : Bool :=
  entry.sourceRefs.any (LoopSourceRef.names key)

def totalOf (entries : List LoopLedgerEntry) (count : LoopLedgerEntry → Nat) : Nat := (entries.map count).sum

structure SummedUp (entries : List LoopLedgerEntry) (summary : LoopLedgerSummary) : Prop where
  totalEntries : summary.totalEntries = entries.length
  byKind : ∀ kind, (summary.byKind kind).getD 0 = entries.countP fun entry => entry.kind = kind
  byVerdict : ∀ verdict, (summary.byVerdict verdict).getD 0 = entries.countP fun entry => entry.verdict = verdict
  tasks : summary.sourceTotals.tasks = entries.countP fun entry => entry.kind = .apply_retry
  reports : summary.sourceTotals.reports = entries.countP fun entry => entry.kind ≠ .apply_retry
  testRuns : summary.sourceTotals.testRuns =
    totalOf entries fun entry => (entry.sourceRefs.filter LoopSourceRef.isTestRun).length
  ciChecks : summary.sourceTotals.ciChecks =
    totalOf entries fun entry => (entry.sourceRefs.filter LoopSourceRef.isCiCheck).length
  retryFailureCount : summary.retryFailureCount = entries.countP fun entry => entry.verdict = .fail
  inconclusiveCount : summary.inconclusiveCount = entries.countP fun entry => entry.verdict = .inconclusive

/-- Every attached loop report has one entry under its key, every entry has its report or its attempts, and the
    totals and the details are those of the entries. -/
structure FaithfulLedger (state : LoopLedgerSourceState) (details : Bool) (limit : Option JsNumber) : Prop where
  complete : ∀ report ∈ attachedReports state, ∀ key, IsLoopReport numberText (ledgerChangeId state) report key →
    ((ledgerOf numberText state).entries.countP (LoopLedgerEntry.carries key)) = 1
  grounded : ∀ entry ∈ (ledgerOf numberText state).entries, (∃ task ∈ state.tasks.getD [], Retried task ∧
        ∃ runs, buildApplyEntry task (ledgerChangeId state) runs = some entry) ∨
      ∃ report ∈ attachedReports state, buildReportEntry numberText report (ledgerChangeId state) = some entry
  totals : SummedUp (ledgerOf numberText state).entries (projectLoopLedger numberText state details limit).summary
  detailed : ∀ shown ∈ (projectLoopLedger numberText state details limit).detailed,
    ∃ ordered : List LoopLedgerEntry, ordered.Perm (ledgerOf numberText state).entries ∧ shown.details = ordered.take shown.detailsLimit

/-! ## When it holds -/

def readReports (state : LoopLedgerSourceState) : List LoopReport :=
  ((state.tasks.getD []).filter (Retried ·)).flatMap (fun task => task.subagent_reports.getD []) ++
    state.subagent_reports.getD []

/-- What a loop report of a task without attempts tells is also told, under the same key, by a report of a retried
    task or of the change. -/
def ToldElsewhere (state : LoopLedgerSourceState) : Prop :=
  ∀ task ∈ state.tasks.getD [], ¬ Retried task → ∀ report ∈ task.subagent_reports.getD [], ∀ key,
    IsLoopReport numberText (ledgerChangeId state) report key →
      ∃ other ∈ readReports state, IsLoopReport numberText (ledgerChangeId state) other key

end

end Advance.Utils
