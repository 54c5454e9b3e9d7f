import Mathlib
import Advance.Tools.SubagentReport

/-! # The keys of stored reports

Three functions make the key of a report: the intake when it accepts one, the writer of terminal changes when it looks
for one, and `reportKeyFromReport`, which the evidence of tasks is checked with.
-/

namespace Advance.Tools

open Advance.Types

/-! ## Stored reports -/

/-- `ChangeReportScopeKeySchema` -/
def isChangeReportScopeKey (key : String) : Bool :=
  key = "review:acceptance" || key = "harden:release" ||
    ["researcher:", "tron:", "scanner-bundle:", "verifier:", "visual-review:"].any fun lane =>
      match lane.toList.isPrefixOf key.toList, key.toList.drop lane.length with
      | true, first :: rest =>
        (first.isLower || first.isDigit) && rest.all fun c => c.isLower || c.isDigit || c = '-'
      | _, _ => false

/-- The fields of a report of an engineer, a reviewer or a designer that its key is made of. -/
structure TaskScopedReport (report : IntakeReport) : Prop where
  agent : report.agent ∈ [.engineer, .reviewer, .designer]
  task_id : ∃ taskId, report.task_id = some taskId ∧ taskId ≠ ""
  scope : (∃ taskId, report.scope = .task taskId ∧ taskId ≠ "") ∨ ∃ text, report.scope = .prose text ∧ text ≠ ""
  apply_context : ∀ cycle, report.implementation_cycle_id = some cycle → cycle ≠ "" ∧ report.agent ≠ .reviewer

structure ChangeScopedReport (report : IntakeReport) : Prop where
  agent : report.agent ∉ [SubagentAgent.engineer, .designer]
  task_id : report.task_id = none
  scope : ∃ scopeKey, report.scope = .change scopeKey ∧ isChangeReportScopeKey scopeKey = true
  apply_context : report.implementation_cycle_id = none

/-- A report that its schema accepts. -/
structure PersistedReport extends IntakeReport where
  named : change_id ≠ ""
  numbered : 1 ≤ attempt
  shape : TaskScopedReport toIntakeReport ∨ ChangeScopedReport toIntakeReport

/-! ## The three functions -/

def reportKeyFromReport (report : IntakeReport) : String :=
  let taskId :=
    match report.scope with
    | .task taskId => some taskId
    | _ => none
  subagentReportKey report.change_id taskId report.scope report.agent report.attempt none

/-- A report as the terminal writer reads it. -/
structure RecoveredReport where
  change_id : Option String
  task_id : Option String
  scope : Option ReportScope
  agent : SubagentAgent
  attempt : Option Nat
  implementation_cycle_id : Option String

def IntakeReport.recovered (report : IntakeReport) : RecoveredReport :=
  ⟨some report.change_id, report.task_id, some report.scope, report.agent, some report.attempt,
    subagentReportImplementationCycleId report⟩

def recoveryReportKey (report : RecoveredReport) (fallbackChangeId : String) : String :=
  let taskId :=
    match report.scope with
    | some (.task taskId) => some taskId
    | _ => report.task_id
  -- A missing scope and a text both leave the key without one.
  subagentReportKey (report.change_id.getD fallbackChangeId) taskId (report.scope.getD (.prose "")) report.agent
    (report.attempt.getD 1) report.implementation_cycle_id

/-! ## What is claimed -/

inductive ReportPlace where
  | task (taskId : String)
  | change (scopeKey : String)
  deriving DecidableEq

def ReportPlace.text : ReportPlace → String
  | task taskId => taskId
  | change scopeKey => "change:" ++ scopeKey

/-- Old reports have a text for a scope; they are on the task they name. -/
def PersistedReport.place (report : PersistedReport) : ReportPlace :=
  match report.scope with
  | .task taskId => .task taskId
  | .change scopeKey => .change scopeKey
  | .prose _ => .task (report.task_id.getD "")

structure SameReport (left right : PersistedReport) : Prop where
  change_id : left.change_id = right.change_id
  place : left.place = right.place
  agent : left.agent = right.agent
  attempt : left.attempt = right.attempt
  cycle : left.implementation_cycle_id = right.implementation_cycle_id

/-- The three functions make one key of a report. -/
structure KeysAgree (report : PersistedReport) : Prop where
  stored : reportKeyFromReport report.toIntakeReport = reportId report.toIntakeReport
  recovered : ∀ fallbackChangeId, recoveryReportKey report.recovered fallbackChangeId = reportId report.toIntakeReport

structure KeysIdentify (left right : PersistedReport) : Prop where
  first : KeysAgree left
  second : KeysAgree right
  identity : reportId left.toIntakeReport = reportId right.toIntakeReport ↔ SameReport left right

/-- The report has no implementation cycle, and a text for a scope only on a task called `unknown-scope`. -/
structure Unambiguous (report : PersistedReport) : Prop where
  cycle : report.implementation_cycle_id = none
  scope : ∀ text, report.scope = .prose text → report.task_id = some "unknown-scope"

/-- The change of one report is that of the other, a bar and the beginning of the other's place. -/
def Extends (left right : PersistedReport) : Prop :=
  ∃ between, left.change_id = right.change_id ++ "|" ++ between ∧ right.place.text = between ++ "|" ++ left.place.text

/-- Two reports of one agent and attempt whose changes and places run into one another, or a task of the change that is
    called like the other's scope. -/
def Confused (left right : PersistedReport) : Prop :=
  left.agent = right.agent ∧ left.attempt = right.attempt ∧ (Extends left right ∨ Extends right left ∨
      left.change_id = right.change_id ∧ left.place ≠ right.place ∧ left.place.text = right.place.text)

/-! ## What the functions make of a stored report -/

section

variable (report : PersistedReport)

/-- The end of the key that names the cycle. -/
def PersistedReport.cycleSuffix : String :=
  match report.implementation_cycle_id with
  | some cycle => "|cycle:" ++ cycle
  | none => ""

def PersistedReport.keyAt (scopeId : String) : String :=
  report.change_id ++ "|" ++ scopeId ++ "|" ++ report.agent.text ++ "|" ++ toString report.attempt

theorem subagentReportKey_task {taskId : String} (named : taskId ≠ "") (scope : ReportScope) (cycle : Option String) :
    subagentReportKey report.change_id (some taskId) scope report.agent report.attempt cycle =
      report.keyAt taskId ++ match cycle.filter (· ≠ "") with
        | some cycle => "|cycle:" ++ cycle
        | none => "" := by
  have kept : (some taskId).filter (· ≠ "") = some taskId := Option.filter_eq_some_iff.mpr ⟨rfl, by simpa using named⟩
  simp only [subagentReportKey, kept]
  rfl

theorem subagentReportKey_scope (scope : ReportScope) (cycle : Option String) :
    subagentReportKey report.change_id none scope report.agent report.attempt cycle = (report.keyAt (match scope with
        | .task taskId => "task:" ++ taskId
        | .change scopeKey => "change:" ++ scopeKey
        | .prose _ => "unknown-scope")) ++ match cycle.filter (· ≠ "") with
        | some cycle => "|cycle:" ++ cycle
        | none => "" := by
  cases scope <;> rfl

theorem cycle_read : (match (subagentReportImplementationCycleId report.toIntakeReport).filter (· ≠ "") with
      | some cycle => "|cycle:" ++ cycle
      | none => "") = report.cycleSuffix := by
  unfold PersistedReport.cycleSuffix
  cases cycle : report.implementation_cycle_id with
  | none =>
    have read : subagentReportImplementationCycleId report.toIntakeReport = none := by
      unfold subagentReportImplementationCycleId
      split
      · exact cycle
      · exact cycle
      · rfl
    rw [read]
    rfl
  | some text =>
    rcases report.shape with task | change
    · obtain ⟨filled, notReviewer⟩ := task.apply_context text cycle
      have read : subagentReportImplementationCycleId report.toIntakeReport = some text := by
        have agent := task.agent
        simp only [List.mem_cons, List.not_mem_nil, or_false] at agent
        rcases agent with same | same | same
        · simp [subagentReportImplementationCycleId, same, cycle]
        · exact absurd same notReviewer
        · simp [subagentReportImplementationCycleId, same, cycle]
      have kept : (some text).filter (· ≠ "") = some text := Option.filter_eq_some_iff.mpr ⟨rfl, by simpa using filled⟩
      rw [read, kept]
    · rw [change.apply_context] at cycle
      cases cycle

theorem reportId_eq : reportId report.toIntakeReport = report.keyAt report.place.text ++ report.cycleSuffix := by
  unfold reportId
  rw [← cycle_read]
  unfold reportTaskId PersistedReport.place
  rcases report.shape with task | change
  · obtain ⟨taskId, whole, filled⟩ := task.task_id
    rcases task.scope with ⟨named, scope, some⟩ | ⟨text, scope, -⟩
    · simp only [scope]
      exact subagentReportKey_task report some _ _
    · simp only [scope, whole]
      exact subagentReportKey_task report filled _ _
  · obtain ⟨scopeKey, scope, -⟩ := change.scope
    simp only [scope, change.task_id]
    exact subagentReportKey_scope report _ _

theorem recoveryReportKey_eq (fallbackChangeId : String) :
    recoveryReportKey report.recovered fallbackChangeId = reportId report.toIntakeReport := by
  unfold recoveryReportKey reportId reportTaskId IntakeReport.recovered
  simp only [Option.getD_some]
  cases report.scope <;> rfl

/-- What `reportKeyFromReport` puts for the task or scope. -/
def PersistedReport.scopeId : String :=
  match report.scope with
  | .prose _ => "unknown-scope"
  | _ => report.place.text

theorem reportKeyFromReport_eq : reportKeyFromReport report.toIntakeReport = report.keyAt report.scopeId := by
  unfold reportKeyFromReport PersistedReport.scopeId PersistedReport.place
  rcases report.shape with task | change
  · rcases task.scope with ⟨named, scope, some⟩ | ⟨text, scope, -⟩
    · simp only [scope]
      exact (subagentReportKey_task report some _ none).trans (String.append_empty)
    · simp only [scope]
      exact (subagentReportKey_scope report _ none).trans (String.append_empty)
  · obtain ⟨scopeKey, scope, -⟩ := change.scope
    simp only [scope]
    exact (subagentReportKey_scope report _ none).trans (String.append_empty)

end

/-! ## Bars -/

/-- How many bars a text has. -/
def bars (text : String) : Nat := text.toList.count '|'

@[simp] theorem bars_append (left right : String) : bars (left ++ right) = bars left + bars right := by
  simp [bars]

theorem agent_unbarred (agent : SubagentAgent) : '|' ∉ agent.text.toList := by
  cases agent <;> decide

theorem attempt_unbarred (attempt : Nat) : '|' ∉ (toString attempt).toList := by
  intro inside
  have digit : '|'.isDigit = true := by
    rw [Nat.toString_eq_ofList_toDigits, String.toList_ofList] at inside
    exact Nat.isDigit_of_mem_toDigits (by decide) (by decide) inside
  cases digit

theorem append_bar_cases {a b c d : List Char} (same : a ++ '|' :: b = c ++ '|' :: d) :
    (a = c ∧ b = d) ∨ (∃ between, c = a ++ '|' :: between ∧ b = between ++ '|' :: d) ∨
      ∃ between, a = c ++ '|' :: between ∧ d = between ++ '|' :: b := by
  rcases List.append_eq_append_iff.mp same with ⟨more, later, rest⟩ | ⟨more, later, rest⟩
  · cases more with
    | nil => exact .inl ⟨by simpa using later.symm, by simpa using rest⟩
    | cons first between =>
      obtain ⟨rfl, tail⟩ := List.cons.inj (rest.trans (List.cons_append ..))
      exact .inr (.inl ⟨between, later, tail⟩)
  · cases more with
    | nil => exact .inl ⟨by simpa using later, by simpa using rest.symm⟩
    | cons first between =>
      obtain ⟨rfl, tail⟩ := List.cons.inj (rest.trans (List.cons_append ..))
      exact .inr (.inr ⟨between, later, tail⟩)

theorem append_bar_inj {a b c d : List Char} (noBar : '|' ∉ b) (noBar' : '|' ∉ d)
    (same : a ++ '|' :: b = c ++ '|' :: d) : a = c ∧ b = d := by
  rcases append_bar_cases same with equal | ⟨between, -, rest⟩ | ⟨between, -, rest⟩
  · exact equal
  · exact absurd (rest ▸ List.mem_append_right between List.mem_cons_self) noBar
  · exact absurd (rest ▸ List.mem_append_right between List.mem_cons_self) noBar'

/-! ## Where the functions agree -/

section

variable {report left right : PersistedReport}

theorem keyAt_inj {first second : String} (same : report.keyAt first = report.keyAt second) : first = second := by
  have lists := congrArg String.toList same
  simp only [PersistedReport.keyAt, String.toList_append, List.append_assoc] at lists
  exact String.toList_inj.mp (List.append_cancel_right (List.append_cancel_left (List.append_cancel_left lists)))

theorem bars_keyAt (scopeId : String) : bars (report.keyAt scopeId) = bars (report.keyAt "") + bars scopeId := by
  have none : bars "" = 0 := by rfl
  simp only [PersistedReport.keyAt, bars_append, none]
  omega

theorem scopeId_bars : bars report.scopeId ≤ bars report.place.text := by
  unfold PersistedReport.scopeId
  split
  · exact Nat.zero_le _
  · exact Nat.le_refl _

theorem scopeId_place (plain : ∀ text, report.scope = .prose text → report.task_id = some "unknown-scope") :
    report.scopeId = report.place.text := by
  unfold PersistedReport.scopeId PersistedReport.place
  cases scope : report.scope with
  | prose text =>
    dsimp only
    rw [plain text scope]
    rfl
  | task taskId => rfl
  | change scopeKey => rfl

theorem agree_iff : KeysAgree report ↔ Unambiguous report := by
  constructor
  · rintro ⟨stored, -⟩
    rw [reportKeyFromReport_eq, reportId_eq] at stored
    have cycle : report.implementation_cycle_id = none := by
      cases cycle : report.implementation_cycle_id with
      | none => rfl
      | some text =>
        -- The bar before the cycle is one too many.
        have counted := congrArg bars stored
        have suffix : report.cycleSuffix = "|cycle:" ++ text := by
          unfold PersistedReport.cycleSuffix
          rw [cycle]
        have bar : bars "|cycle:" = 1 := by rfl
        rw [suffix, bars_append, bars_append, bar, bars_keyAt, bars_keyAt report.place.text] at counted
        have fewer : bars report.scopeId ≤ bars report.place.text := scopeId_bars
        omega
    refine ⟨cycle, fun text scope => ?_⟩
    have suffix : report.cycleSuffix = "" := by
      unfold PersistedReport.cycleSuffix
      rw [cycle]
    rw [suffix, String.append_empty] at stored
    have same := keyAt_inj stored
    rcases report.shape with task | change
    · obtain ⟨taskId, whole, -⟩ := task.task_id
      unfold PersistedReport.scopeId PersistedReport.place at same
      rw [scope, whole] at same
      rw [whole]
      exact congrArg some same.symm
    · obtain ⟨scopeKey, other, -⟩ := change.scope
      rw [other] at scope
      cases scope
  · rintro ⟨cycle, scope⟩
    refine ⟨?_, fun fallback => recoveryReportKey_eq report fallback⟩
    have suffix : report.cycleSuffix = "" := by
      unfold PersistedReport.cycleSuffix
      rw [cycle]
    rw [reportKeyFromReport_eq, reportId_eq, suffix, String.append_empty, scopeId_place scope]

/-! ## Where the keys tell reports apart -/

theorem reportId_plain (cycle : report.implementation_cycle_id = none) :
    reportId report.toIntakeReport = report.keyAt report.place.text := by
  have suffix : report.cycleSuffix = "" := by
    unfold PersistedReport.cycleSuffix
    rw [cycle]
  rw [reportId_eq, suffix, String.append_empty]

theorem keyAt_toList (scopeId : String) : (report.keyAt scopeId).toList =
      ((report.change_id.toList ++ '|' :: scopeId.toList) ++ '|' :: report.agent.text.toList) ++
        '|' :: (toString report.attempt).toList := by
  have bar : "|".toList = ['|'] := rfl
  simp [PersistedReport.keyAt, String.toList_append, bar]

theorem agent_text_inj {first second : SubagentAgent} (same : first.text = second.text) : first = second := by
  cases first <;> cases second <;> first | rfl | exact absurd same (by decide)

theorem keyAt_eq_iff {first second : String} : left.keyAt first = right.keyAt second ↔
      left.agent = right.agent ∧ left.attempt = right.attempt ∧
        left.change_id.toList ++ '|' :: first.toList = right.change_id.toList ++ '|' :: second.toList := by
  constructor
  · intro same
    have lists := congrArg String.toList same
    rw [keyAt_toList, keyAt_toList] at lists
    obtain ⟨front, attempts⟩ := append_bar_inj (attempt_unbarred _) (attempt_unbarred _) lists
    obtain ⟨places, agents⟩ := append_bar_inj (agent_unbarred _) (agent_unbarred _) front
    exact ⟨agent_text_inj (String.toList_inj.mp agents), Nat.repr_injective (String.toList_inj.mp attempts), places⟩
  · rintro ⟨agents, attempts, places⟩
    apply String.toList_inj.mp
    rw [keyAt_toList, keyAt_toList, agents, attempts, places]

theorem extends_iff :
    Extends left right ↔ ∃ between, left.change_id.toList = right.change_id.toList ++ '|' :: between ∧
      right.place.text.toList = between ++ '|' :: left.place.text.toList := by
  have bar : "|".toList = ['|'] := rfl
  constructor
  · rintro ⟨between, changes, places⟩
    refine ⟨between.toList, ?_, ?_⟩
    · rw [changes]
      simp [String.toList_append, bar]
    · rw [places]
      simp [String.toList_append, bar]
  · rintro ⟨between, changes, places⟩
    refine ⟨String.ofList between, String.toList_inj.mp ?_, String.toList_inj.mp ?_⟩
    · rw [changes]
      simp [String.toList_append, bar]
    · rw [places]
      simp [String.toList_append, bar]

theorem identity_iff (plain : left.implementation_cycle_id = none) (plain' : right.implementation_cycle_id = none) :
    (reportId left.toIntakeReport = reportId right.toIntakeReport ↔ SameReport left right) ↔
      ¬Confused left right := by
  rw [reportId_plain plain, reportId_plain plain', keyAt_eq_iff]
  constructor
  · rintro same ⟨agents, attempts, places⟩
    have spelled : left.change_id.toList ++ '|' :: left.place.text.toList =
        right.change_id.toList ++ '|' :: right.place.text.toList := by
      rcases places with further | further | ⟨changes, -, texts⟩
      · obtain ⟨between, changes, texts⟩ := extends_iff.mp further
        rw [changes, texts]
        simp
      · obtain ⟨between, changes, texts⟩ := extends_iff.mp further
        rw [changes, texts]
        simp
      · rw [changes, texts]
    obtain ⟨changes, same, -, -, -⟩ := same.mp ⟨agents, attempts, spelled⟩
    rcases places with ⟨between, longer, -⟩ | ⟨between, longer, -⟩ | ⟨-, apart, -⟩
    · have lengths := congrArg String.length (changes.symm.trans longer)
      have bar : "|".length = 1 := rfl
      simp only [String.length_append, bar] at lengths
      omega
    · have lengths := congrArg String.length (changes.trans longer)
      have bar : "|".length = 1 := rfl
      simp only [String.length_append, bar] at lengths
      omega
    · exact apart same
  · intro clear
    constructor
    · rintro ⟨agents, attempts, spelled⟩
      rcases append_bar_cases spelled with ⟨changes, texts⟩ | ⟨between, longer, rest⟩ | ⟨between, longer, rest⟩
      · have change := String.toList_inj.mp changes
        refine ⟨change, ?_, agents, attempts, plain.trans plain'.symm⟩
        by_contra apart
        exact clear ⟨agents, attempts, .inr (.inr ⟨change, apart, String.toList_inj.mp texts⟩)⟩
      · exact absurd ⟨agents, attempts, .inr (.inl (extends_iff.mpr ⟨between, longer, rest⟩))⟩ clear
      · exact absurd ⟨agents, attempts, .inl (extends_iff.mpr ⟨between, longer, rest⟩)⟩ clear
    · rintro ⟨changes, places, agents, attempts, -⟩
      exact ⟨agents, attempts, by rw [changes, places]⟩

end

/-- The keys of two stored reports agree and identify them exactly where both are plain and neither runs into the
    other. -/
theorem keys_identify_iff (left right : PersistedReport) :
    KeysIdentify left right ↔ Unambiguous left ∧ Unambiguous right ∧ ¬Confused left right := by
  constructor
  · rintro ⟨first, second, identity⟩
    have plain := agree_iff.mp first
    have plain' := agree_iff.mp second
    exact ⟨plain, plain', (identity_iff plain.cycle plain'.cycle).mp identity⟩
  · rintro ⟨plain, plain', clear⟩
    exact ⟨agree_iff.mpr plain, agree_iff.mpr plain', (identity_iff plain.cycle plain'.cycle).mpr clear⟩

/-! ## Fixed runs -/

def cycleIntake : IntakeReport where
  change_id := "addSearch"
  task_id := some "tk-1"
  scope := .task "tk-1"
  agent := .engineer
  attempt := 1
  implementation_cycle_id := some "ic-1"
  blockers := []
  content := .null

theorem cycleIntake_named : cycleIntake.change_id ≠ "" := by decide

theorem cycleIntake_numbered : 1 ≤ cycleIntake.attempt := Nat.le_refl 1

theorem cycleIntake_shape : TaskScopedReport cycleIntake ∨ ChangeScopedReport cycleIntake :=
  .inl
    { agent := List.mem_cons_self
      task_id := ⟨"tk-1", rfl, by decide⟩
      scope := .inl ⟨"tk-1", rfl, by decide⟩
      apply_context := fun cycle same => ⟨Option.some.inj same ▸ by decide, by decide⟩ }

def cycleReport : PersistedReport := ⟨cycleIntake, cycleIntake_named, cycleIntake_numbered, cycleIntake_shape⟩

/-- Its key at intake names the cycle; that of `reportKeyFromReport` does not. -/
theorem cycle_dropped : ¬KeysIdentify cycleReport cycleReport := by
  rintro ⟨⟨stored, -⟩, -, -⟩
  have intake : reportId cycleReport.toIntakeReport = "addSearch|tk-1|adv-engineer|1|cycle:ic-1" := by rfl
  have evidence : reportKeyFromReport cycleReport.toIntakeReport = "addSearch|tk-1|adv-engineer|1" := by rfl
  rw [intake, evidence] at stored
  exact absurd stored (by decide)

end Advance.Tools
