import Mathlib
import Advance.Utils.LoopLedger

/-! # What the loop ledger represents
-/

namespace Advance.Utils

open Advance.JavaScript

section

variable {numberText : JsNumber → String} {changeId : String}

/-! ## Entries -/

theorem buildApplyEntry_isSome (changeId : String) (task : LoopTask) (runs : List LoopTestRun) :
    (buildApplyEntry task changeId runs).isSome = true ↔ Retried task := by
  unfold buildApplyEntry Retried
  cases present task.id with
  | none => simp
  | some taskId =>
    simp only
    split
    next none => simp [none]
    next some => simp [some]

variable {entry : LoopLedgerEntry} {runs : List LoopTestRun} {task : LoopTask}

theorem buildApplyEntry_refs (built : buildApplyEntry task changeId runs = some entry) :
    ∀ ref ∈ entry.sourceRefs, ref.isCiCheck = false ∧ ∀ key, ref.names key = false := by
  unfold buildApplyEntry at built
  cases named : present task.id with
  | none => simp [named] at built
  | some taskId =>
    simp only [named] at built
    split at built
    next => cases built
    next =>
      cases built
      intro ref member
      cases List.mem_cons.mp member with
      | inl first => exact first ▸ ⟨rfl, fun _ => rfl⟩
      | inr later =>
        obtain ⟨run, _, made⟩ := List.mem_filterMap.mp later
        obtain ⟨runId, _, rfl⟩ := Option.map_eq_some_iff.mp made
        exact ⟨rfl, fun _ => rfl⟩

variable {report : LoopReport} {key : String}

theorem buildReportEntry_refs (keyed : reportKey numberText report changeId = some key)
    (built : buildReportEntry numberText report changeId = some entry) :
    ∃ agent attempt checks, entry.sourceRefs = .report key agent attempt :: checks ∧
      ∀ check ∈ checks, check.isCiCheck = true := by
  unfold buildReportEntry at built
  rw [keyed] at built
  simp only at built
  split at built
  · cases built
    exact ⟨_, _, [], rfl, by simp⟩
  · cases built
    exact ⟨_, _, [], rfl, by simp⟩
  · cases built
    refine ⟨_, _, _, rfl, fun check member => ?_⟩
    split at member
    · obtain ⟨target, _, made⟩ := List.mem_filterMap.mp member
      unfold ciCheckRef at made
      split at made
      · cases made
        rfl
      · cases made
    · cases member
  · cases built

theorem applyEntry_carries
    (built : buildApplyEntry task changeId runs = some entry) (key : String) : entry.carries key = false :=
  List.any_eq_false.mpr fun ref member => by simp [(buildApplyEntry_refs built ref member).2 key]

theorem applyEntry_ciChecks (built : buildApplyEntry task changeId runs = some entry) :
    (entry.sourceRefs.filter LoopSourceRef.isCiCheck).length = 0 := by
  rw [List.length_eq_zero_iff, List.filter_eq_nil_iff]
  exact fun ref member => by simp [(buildApplyEntry_refs built ref member).1]

section

variable (keyed : reportKey numberText report changeId = some key)
  (built : buildReportEntry numberText report changeId = some entry)
include keyed built

theorem reportEntry_carries (asked : String) : entry.carries asked = decide (key = asked) := by
  obtain ⟨agent, attempt, checks, refs, ci⟩ := buildReportEntry_refs keyed built
  have none : checks.any (LoopSourceRef.names asked) = false := by
    rw [List.any_eq_false]
    intro check member
    have kind := ci check member
    cases check <;> simp [LoopSourceRef.isCiCheck, LoopSourceRef.names] at kind ⊢
  rw [LoopLedgerEntry.carries, refs, List.any_cons, none, Bool.or_false]
  rfl

theorem reportEntry_testRuns : (entry.sourceRefs.filter LoopSourceRef.isTestRun).length = 0 := by
  obtain ⟨agent, attempt, checks, refs, ci⟩ := buildReportEntry_refs keyed built
  rw [refs, List.length_eq_zero_iff, List.filter_eq_nil_iff]
  intro ref member
  cases List.mem_cons.mp member with
  | inl first => simp [first, LoopSourceRef.isTestRun]
  | inr later =>
    have kind := ci ref later
    cases ref <;> simp [LoopSourceRef.isCiCheck, LoopSourceRef.isTestRun] at kind ⊢

end

/-! ## The loop -/

/-- What the loop has made of the tasks and the reports read so far. -/
structure LedgerInvariant (numberText : JsNumber → String) (changeId : String) (tasks : List LoopTask)
    (reports : List LoopReport) (ledger : LoopLedger) : Prop where
  seen : ∀ key, key ∈ ledger.seenReportKeys ↔ ∃ report ∈ reports, IsLoopReport numberText changeId report key
  once : ∀ key, ledger.entries.countP (LoopLedgerEntry.carries key) = if key ∈ ledger.seenReportKeys then 1 else 0
  grounded : ∀ entry ∈ ledger.entries,
    (∃ task ∈ tasks, Retried task ∧ ∃ runs, buildApplyEntry task changeId runs = some entry) ∨
      ∃ report ∈ reports, buildReportEntry numberText report changeId = some entry
  testRuns : ledger.testRunRefs =
    totalOf ledger.entries fun entry => (entry.sourceRefs.filter LoopSourceRef.isTestRun).length
  ciChecks : ledger.ciCheckRefs =
    totalOf ledger.entries fun entry => (entry.sourceRefs.filter LoopSourceRef.isCiCheck).length

variable {tasks : List LoopTask} {reports : List LoopReport} {ledger : LoopLedger}

theorem totalOf_concat (entries : List LoopLedgerEntry) (entry : LoopLedgerEntry) (count : LoopLedgerEntry → Nat) :
    totalOf (entries ++ [entry]) count = totalOf entries count + count entry := by
  simp [totalOf]

section

variable (invariant : LedgerInvariant numberText changeId tasks reports ledger)
include invariant

theorem LedgerInvariant.pass
    (known : ∀ key, IsLoopReport numberText changeId report key → key ∈ ledger.seenReportKeys) :
    LedgerInvariant numberText changeId tasks (reports ++ [report]) ledger := by
  refine ⟨fun key => ?_, invariant.once, fun entry member => ?_, invariant.testRuns, invariant.ciChecks⟩
  · constructor
    · intro seen
      obtain ⟨other, member, loop⟩ := (invariant.seen key).mp seen
      exact ⟨other, List.mem_append_left _ member, loop⟩
    · rintro ⟨other, member, loop⟩
      cases List.mem_append.mp member with
      | inl before => exact (invariant.seen key).mpr ⟨other, before, loop⟩
      | inr here => exact known key (List.mem_singleton.mp here ▸ loop)
  · refine (invariant.grounded entry member).imp_right ?_
    rintro ⟨other, held, built⟩
    exact ⟨other, List.mem_append_left _ held, built⟩

theorem LedgerInvariant.enter (keyed : reportKey numberText report changeId = some key)
    (built : buildReportEntry numberText report changeId = some entry) (fresh : key ∉ ledger.seenReportKeys) :
    LedgerInvariant numberText changeId tasks (reports ++ [report])
      { entries := ledger.entries ++ [entry]
        seenReportKeys := ledger.seenReportKeys ++ [key]
        testRunRefs := ledger.testRunRefs
        ciCheckRefs := ledger.ciCheckRefs + (entry.sourceRefs.filter LoopSourceRef.isCiCheck).length } := by
  have loop : ∀ asked, IsLoopReport numberText changeId report asked ↔ key = asked := by
    intro asked
    simp [IsLoopReport, keyed, built]
  refine ⟨fun asked => ?_, fun asked => ?_, fun other member => ?_, ?_, ?_⟩
  · rw [List.mem_append, List.mem_singleton, invariant.seen]
    constructor
    · rintro (⟨other, member, held⟩ | rfl)
      · exact ⟨other, List.mem_append_left _ member, held⟩
      · exact ⟨report, by simp, (loop asked).mpr rfl⟩
    · rintro ⟨other, member, held⟩
      cases List.mem_append.mp member with
      | inl before => exact .inl ⟨other, before, held⟩
      | inr here => exact .inr ((loop asked).mp (List.mem_singleton.mp here ▸ held)).symm
  · rw [List.countP_append, invariant.once, List.countP_singleton, reportEntry_carries keyed built]
    by_cases same : key = asked
    · subst same
      simp [fresh]
    · simp [same, Ne.symm same]
  · cases List.mem_append.mp member with
    | inl before =>
      refine (invariant.grounded other before).imp_right ?_
      rintro ⟨source, held, made⟩
      exact ⟨source, List.mem_append_left _ held, made⟩
    | inr here => exact .inr ⟨report, by simp, List.mem_singleton.mp here ▸ built⟩
  · rw [totalOf_concat, reportEntry_testRuns keyed built]
    exact invariant.testRuns
  · rw [totalOf_concat, ← invariant.ciChecks]

theorem LedgerInvariant.addReport
    (report : LoopReport) : LedgerInvariant numberText changeId tasks (reports ++ [report])
      (ledger.addReport numberText changeId report) := by
  unfold LoopLedger.addReport
  cases keyed : reportKey numberText report changeId with
  | none => exact invariant.pass fun key loop => absurd (keyed.symm.trans loop.1) (by simp)
  | some key =>
    simp only
    split
    next seen => exact invariant.pass fun asked loop => Option.some.inj (keyed.symm.trans loop.1) ▸ seen
    next fresh =>
      cases built : buildReportEntry numberText report changeId with
      | none => exact invariant.pass fun asked loop => absurd loop.2 (by simp [built])
      | some entry => exact invariant.enter keyed built fresh

theorem LedgerInvariant.addReports
    (more : List LoopReport) : LedgerInvariant numberText changeId tasks (reports ++ more)
      (more.foldl (LoopLedger.addReport numberText changeId) ledger) := by
  induction more generalizing reports ledger with
  | nil => rwa [List.append_nil]
  | cons report more ih =>
    have next := ih (invariant.addReport report)
    rwa [List.append_assoc] at next

theorem LedgerInvariant.addTask (testRuns : List (String × Option (List LoopTestRun))) (task : LoopTask) :
    LedgerInvariant numberText changeId (tasks ++ [task])
      (reports ++ if Retried task then task.subagent_reports.getD [] else [])
      (ledger.addTask numberText changeId testRuns task) := by
  have widened : ∀ entry ∈ ledger.entries,
      (∃ other ∈ tasks ++ [task], Retried other ∧ ∃ runs, buildApplyEntry other changeId runs = some entry) ∨
        ∃ report ∈ reports, buildReportEntry numberText report changeId = some entry := by
    intro entry member
    refine (invariant.grounded entry member).imp_left ?_
    rintro ⟨other, held, made⟩
    exact ⟨other, List.mem_append_left _ held, made⟩
  unfold LoopLedger.addTask
  generalize runsOf testRuns task = runs
  cases built : buildApplyEntry task changeId runs with
  | none =>
    have idle : ¬ Retried task := by
      rw [← buildApplyEntry_isSome changeId task runs, built]
      simp
    rw [if_neg idle, List.append_nil]
    exact ⟨invariant.seen, invariant.once, widened, invariant.testRuns, invariant.ciChecks⟩
  | some entry =>
    have retried : Retried task := by
      rw [← buildApplyEntry_isSome changeId task runs, built]
      rfl
    rw [if_pos retried]
    have entered : LedgerInvariant numberText changeId (tasks ++ [task]) reports
        { ledger with
          entries := ledger.entries ++ [entry]
          testRunRefs := ledger.testRunRefs + (entry.sourceRefs.filter LoopSourceRef.isTestRun).length } := by
      refine ⟨invariant.seen, fun key => ?_, fun other member => ?_, ?_, ?_⟩
      · rw [List.countP_append, invariant.once, List.countP_singleton, applyEntry_carries built]
        simp
      · cases List.mem_append.mp member with
        | inl before => exact widened other before
        | inr here => exact .inl ⟨task, by simp, retried, runs, List.mem_singleton.mp here ▸ built⟩
      · rw [totalOf_concat, ← invariant.testRuns]
      · rw [totalOf_concat, applyEntry_ciChecks built]
        exact invariant.ciChecks
    exact entered.addReports _

theorem LedgerInvariant.addTasks (testRuns : List (String × Option (List LoopTestRun))) (more : List LoopTask) :
    LedgerInvariant numberText changeId (tasks ++ more)
      (reports ++ (more.filter (Retried ·)).flatMap fun task => task.subagent_reports.getD [])
      (more.foldl (LoopLedger.addTask numberText changeId testRuns) ledger) := by
  induction more generalizing tasks reports ledger with
  | nil => simpa using invariant
  | cons task more ih =>
    have next := ih (invariant.addTask testRuns task)
    rw [List.append_assoc, List.append_assoc] at next
    rw [List.foldl_cons, List.filter_cons]
    by_cases retried : Retried task
    · simpa [retried] using next
    · simpa [retried] using next

end

theorem ledger_invariant (numberText : JsNumber → String) (state : LoopLedgerSourceState) :
    LedgerInvariant numberText (ledgerChangeId state) (state.tasks.getD []) (readReports state)
      (ledgerOf numberText state) := by
  have start : LedgerInvariant numberText (ledgerChangeId state) [] [] ⟨[], [], 0, 0⟩ :=
    ⟨by simp, by simp, by simp, rfl, rfl⟩
  exact (start.addTasks (state.testRuns.getD []) (state.tasks.getD [])).addReports (state.subagent_reports.getD [])

/-! ## The totals -/

theorem loopCounts_concat (entries : List LoopLedgerEntry) (entry : LoopLedgerEntry) :
    loopCounts (entries ++ [entry]) = (loopCounts entries).add entry := by
  rw [loopCounts, List.foldl_concat]
  rfl

/-- Each count is the number of entries it is raised for. -/
structure CountedUp (entries : List LoopLedgerEntry) (counts : LoopCounts) : Prop where
  byKind : ∀ kind, (counts.byKind kind).getD 0 = entries.countP fun entry => entry.kind = kind
  byVerdict : ∀ verdict, (counts.byVerdict verdict).getD 0 = entries.countP fun entry => entry.verdict = verdict
  fails : counts.retryFailureCount = entries.countP fun entry => entry.verdict = .fail
  inconclusives : counts.inconclusiveCount = entries.countP fun entry => entry.verdict = .inconclusive
  applies : counts.applyCount = entries.countP fun entry => entry.kind = .apply_retry
  reports : counts.reportCount = entries.countP fun entry => entry.kind ≠ .apply_retry

theorem loopCounts_counted (entries : List LoopLedgerEntry) : CountedUp entries (loopCounts entries) := by
  induction entries using List.reverseRecOn with
  | nil => exact ⟨fun _ => rfl, fun _ => rfl, rfl, rfl, rfl, rfl⟩
  | append_singleton entries entry ih =>
    rw [loopCounts_concat]
    constructor <;> simp only [List.countP_append, List.countP_singleton, LoopCounts.add]
    · intro kind
      rw [← ih.byKind]
      by_cases same : entry.kind = kind
      · simp [same]
      · simp [same, Function.update_of_ne (Ne.symm same)]
    · intro verdict
      rw [← ih.byVerdict]
      by_cases same : entry.verdict = verdict
      · simp [same]
      · simp [same, Function.update_of_ne (Ne.symm same)]
    · rw [ih.fails]
      split <;> simp [*]
    · rw [ih.inconclusives]
      split <;> simp [*]
    · rw [ih.applies]
      split <;> simp [*]
    · rw [ih.reports]
      split <;> simp [*]

theorem summarize_summedUp (invariant : LedgerInvariant numberText changeId tasks reports ledger) :
    SummedUp ledger.entries (summarize ledger) := by
  have counted := loopCounts_counted ledger.entries
  exact ⟨rfl, counted.byKind, counted.byVerdict, counted.applies, counted.reports, invariant.testRuns,
    invariant.ciChecks, counted.fails, counted.inconclusives⟩

/-! ## The claim -/

theorem readReports_attached {state : LoopLedgerSourceState}
    (read : report ∈ readReports state) : report ∈ attachedReports state := by
  cases List.mem_append.mp read with
  | inl ofTask =>
    obtain ⟨task, member, held⟩ := List.mem_flatMap.mp ofTask
    exact List.mem_append_left _ (List.mem_flatMap.mpr ⟨task, (List.mem_filter.mp member).1, held⟩)
  | inr ofChange => exact List.mem_append_right _ ofChange

theorem faithfulLedger_iff (numberText : JsNumber → String) (state : LoopLedgerSourceState) (details : Bool)
    (limit : Option JsNumber) : FaithfulLedger numberText state details limit ↔ ToldElsewhere numberText state := by
  have invariant := ledger_invariant numberText state
  constructor
  · intro faithful task member _ report held key loop
    have attached : report ∈ attachedReports state :=
      List.mem_append_left _ (List.mem_flatMap.mpr ⟨task, member, held⟩)
    have one := faithful.complete report attached key loop
    rw [invariant.once] at one
    refine (invariant.seen key).mp ?_
    by_contra unseen
    simp [unseen] at one
  · intro told
    refine ⟨fun report attached key loop => ?_, fun entry member => ?_, summarize_summedUp invariant,
      fun shown held => ?_⟩
    · have read : ∃ other ∈ readReports state, IsLoopReport numberText (ledgerChangeId state) other key := by
        cases List.mem_append.mp attached with
        | inr ofChange => exact ⟨report, List.mem_append_right _ ofChange, loop⟩
        | inl ofTask =>
          obtain ⟨task, member, held⟩ := List.mem_flatMap.mp ofTask
          by_cases retried : Retried task
          · refine ⟨report, List.mem_append_left _ (List.mem_flatMap.mpr ⟨task, ?_, held⟩), loop⟩
            exact List.mem_filter.mpr ⟨member, decide_eq_true retried⟩
          · exact told task member retried report held key loop
      rw [invariant.once, if_pos ((invariant.seen key).mpr read)]
    · refine (invariant.grounded entry member).imp_right ?_
      rintro ⟨report, read, built⟩
      exact ⟨report, readReports_attached read, built⟩
    · unfold projectLoopLedger at held
      cases details with
      | false => cases held
      | true =>
        cases held
        exact ⟨_, List.perm_insertionSort _ _, rfl⟩

end

/-! ## Fixed runs -/

def readyReview : LoopReport where
  agent := some "adv-reviewer"
  phase := some "review"
  verdict := some "READY"
  status := none
  error_class := none
  attempt := some 1
  change_id := some "addSearch"
  scope := some (.scoped (some "task") (some "tk-index") none)
  task_id := none
  targets := none
  findings := none
  summary := none
  recommended_next_action := none
  implementation_cycle_id := none

def reviewedOnce : LoopLedgerSourceState where
  changeId := some "addSearch"
  tasks := some [⟨some "tk-index", some "done", none, none, some [readyReview]⟩]
  subagent_reports := none
  testRuns := none

/-- The review is attached to the task alone, and the ledger is empty. -/
theorem reviewedOnce_lost : ¬ FaithfulLedger (fun _ => "1") reviewedOnce false none := by
  intro faithful
  have one := faithful.complete readyReview (by simp [attachedReports, reviewedOnce])
    "addSearch|tk-index|adv-reviewer|1" ⟨by rfl, by rfl⟩
  exact absurd one (by decide_cbv)

end Advance.Utils
