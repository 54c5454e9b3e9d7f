import Std.Data.String.ToNat
import Advance.Foundation.Run
import Advance.Gates.GateReadiness

/-! # Dispositions of design concerns

Designer reports and dispositions of their concerns are recorded one after another; the check of
the acceptance and release gates matches a disposition by the key of its concern, against
whichever report is the latest of the task.
-/

namespace Advance.Gates

open Advance.Foundation Advance.JavaScript Advance.Types

/-! ## Recording -/

def upsertDisposition (existing : Option (List ConcernDisposition)) (disposition : ConcernDisposition) :
    List ConcernDisposition :=
  (existing.getD []).filter (fun item =>
    !(item.taskId = disposition.taskId && item.concernKey = disposition.concernKey)) ++ [disposition]

def submitReport (report : ScopedSubagentReport) (state : ChangeState) : ChangeState :=
  { state with subagent_reports := some (reportsOf state ++ [report]) }

/-- `adv_design_concern_disposition`, for a task of the change. -/
def recordDisposition (disposition : ConcernDisposition) (state : ChangeState) : ChangeState :=
  { state with
    design_concern_dispositions := some (upsertDisposition state.design_concern_dispositions disposition) }

/-! ## Runs -/

def latestDesignerReport (state : ChangeState) (taskId : String) : Option ScopedSubagentReport :=
  mapGet (latestDesignerReportsByTask state) taskId

def recommendationAt (state : ChangeState) (taskId : String) (index : Nat) :
    Option DesignerNeighboringRecommendation :=
  (latestDesignerReport state taskId).bind fun report => report.neighboring_recommendations[index]?

def recommendationUnder (state : ChangeState) (taskId concernKey : String) :
    Option DesignerNeighboringRecommendation :=
  (latestDesignerReport state taskId).bind fun report =>
    (report.neighboring_recommendations.zipIdx.find? fun entry => neighborKey entry.2 = concernKey).map Prod.fst

structure RecordedConcern where
  disposition : ConcernDisposition
  target : Option DesignerNeighboringRecommendation

/-- A change, and its dispositions as they were recorded, the newest first. -/
structure DesignRun where
  state : ChangeState
  recorded : List RecordedConcern

inductive DesignEvent where
  | submit (report : ScopedSubagentReport)
  | dispose (disposition : ConcernDisposition)

def DesignEvent.serve : DesignEvent → DesignRun → Unit × DesignRun
  | submit report, run => ((), { run with state := submitReport report run.state })
  | dispose disposition, run =>
    -- a disposition for an unknown task is refused
    if run.state.tasks.any fun task => task.id = disposition.taskId then
      ((), { state := recordDisposition disposition run.state
             recorded := ⟨disposition,
               recommendationUnder run.state disposition.taskId disposition.concernKey⟩ :: run.recorded })
    else ((), run)

def DesignRun.fresh (change : ChangeState) : DesignRun where
  state := { change with design_concern_dispositions := none }
  recorded := []

def lastRecorded (recorded : List RecordedConcern) (taskId concernKey : String) : Option RecordedConcern :=
  recorded.find? fun record =>
    record.disposition.taskId = taskId && record.disposition.concernKey = concernKey

def neighborMessage (taskId : String) (recommendation : DesignerNeighboringRecommendation) : String :=
  "Unresolved neighboring UI recommendation on task " ++ taskId ++ ": " ++ recommendation.what

structure DispositionsStay (run : DesignRun) : Prop where
  recommendations : ∀ taskId index recommendation, recommendationAt run.state taskId index = some recommendation →
      isDispositioned run.state.design_concern_dispositions taskId (neighborKey index) →
        ∃ record, lastRecorded run.recorded taskId (neighborKey index) = some record ∧
          record.target = some recommendation
  dimensions : ∀ taskId dimension,
    isDispositioned run.state.design_concern_dispositions taskId (dimensionKey dimension) ↔
      ∃ record ∈ run.recorded, record.disposition = ⟨taskId, dimensionKey dimension⟩
  blocks : ∀ gateId, gateId = .acceptance ∨ gateId = .release → ∀ taskId index recommendation,
    recommendationAt run.state taskId index = some recommendation →
      (∀ record ∈ run.recorded, record.disposition.taskId = taskId → record.target ≠ some recommendation) →
        ∃ blocker ∈ checkUnresolvedDesignConcerns run.state gateId,
          blocker.message = neighborMessage taskId recommendation

def Supersedes (report : ScopedSubagentReport) (state : ChangeState) (taskId : String) : Prop :=
  report.agent = .designer ∧ (reportTaskId report).filter (· ≠ "") = some taskId ∧
    ∀ existing, latestDesignerReport state taskId = some existing → existing.attempt < report.attempt

/-- A report that becomes the latest has, at each place with a disposition on record, the recommendation
    that disposition was recorded for, or none. -/
def KeepsPlaces (step : Record DesignRun DesignEvent Unit) : Prop :=
  match step.request with
  | .submit report => ∀ taskId, Supersedes report step.before.state taskId →
      ∀ (index : Nat) recommendation record, report.neighboring_recommendations[index]? = some recommendation →
        lastRecorded step.before.recorded taskId (neighborKey index) = some record →
          record.target = some recommendation
  | .dispose _ => True

/-! ## Keys -/

theorem neighborKey_injective {index other : Nat} (same : neighborKey index = neighborKey other) : index = other := by
  have texts := congrArg String.toList same
  simp only [neighborKey, String.toList_append, List.append_cancel_left_eq] at texts
  exact Nat.repr_injective (String.toList_inj.mp texts)

theorem find?_zipIdx {α : Type} (list : List α) (offset index : Nat) :
    ((list.zipIdx offset).find? fun entry => entry.2 = offset + index).map Prod.fst = list[index]? := by
  induction list generalizing offset index with
  | nil => rfl
  | cons x rest ih =>
    cases index with
    | zero => simp
    | succ index =>
      have later : offset + (index + 1) = (offset + 1) + index := by omega
      rw [List.zipIdx_cons, List.find?_cons_of_neg (by simp), List.getElem?_cons_succ, later, ih]

theorem recommendationUnder_neighborKey (state : ChangeState) (taskId : String) (index : Nat) :
    recommendationUnder state taskId (neighborKey index) = recommendationAt state taskId index := by
  have keys : ∀ entry : DesignerNeighboringRecommendation × Nat,
      decide (neighborKey entry.2 = neighborKey index) = decide (entry.2 = index) := fun entry =>
    decide_eq_decide.mpr ⟨neighborKey_injective, congrArg neighborKey⟩
  unfold recommendationUnder recommendationAt
  simp only [keys]
  cases latestDesignerReport state taskId with
  | none => rfl
  | some report => simpa using find?_zipIdx report.neighboring_recommendations 0 index

/-! ## What a step does -/

theorem isDispositioned_upsert (existing : Option (List ConcernDisposition)) (disposition : ConcernDisposition)
    (taskId concernKey : String) : isDispositioned (some (upsertDisposition existing disposition)) taskId concernKey =
      ((disposition.taskId = taskId && disposition.concernKey = concernKey) ||
        isDispositioned existing taskId concernKey) := by
  rw [Bool.eq_iff_iff]
  simp only [isDispositioned, upsertDisposition, Option.getD_some, List.any_append, List.any_cons, List.any_nil,
    Bool.or_false, Bool.or_eq_true, List.any_eq_true, List.mem_filter]
  constructor
  · rintro (⟨item, ⟨held, -⟩, names⟩ | names)
    · exact .inr ⟨item, held, names⟩
    · exact .inl names
  · rintro (names | ⟨item, held, names⟩)
    · exact .inr names
    · by_cases replaced : item.taskId = disposition.taskId ∧ item.concernKey = disposition.concernKey
      · -- the new disposition is under the same key
        right
        rwa [← replaced.1, ← replaced.2]
      · refine .inl ⟨item, ⟨held, ?_⟩, names⟩
        simp only [Bool.not_eq_true', Bool.and_eq_false_iff, decide_eq_false_iff_not]
        exact not_and_or.mp replaced

theorem latestDesignerReportsByTask_submit (report : ScopedSubagentReport) (state : ChangeState) :
    latestDesignerReportsByTask (submitReport report state) =
      if report.agent = .designer then
        keepLatest (fun report => (reportTaskId report).filter (· ≠ "")) (·.attempt)
          (latestDesignerReportsByTask state) report
      else latestDesignerReportsByTask state := by
  have reports : reportsOf (submitReport report state) = reportsOf state ++ [report] := rfl
  rw [latestDesignerReportsByTask, reports, List.filter_append]
  by_cases designer : report.agent = .designer
  · rw [if_pos designer, List.filter_cons_of_pos (by simpa using designer), List.filter_nil, latestByKey,
      List.foldl_append]
    rfl
  · rw [if_neg designer, List.filter_cons_of_neg (by simpa using designer), List.filter_nil, List.append_nil]
    rfl

theorem latestDesignerReport_submit (report : ScopedSubagentReport) (state : ChangeState) (taskId : String) :
    (Supersedes report state taskId ∧
      latestDesignerReport (submitReport report state) taskId = some report) ∨ (¬ Supersedes report state taskId ∧
      latestDesignerReport (submitReport report state) taskId = latestDesignerReport state taskId) := by
  rw [latestDesignerReport, latestDesignerReportsByTask_submit]
  by_cases designer : report.agent = .designer
  · rw [if_pos designer]
    cases about : (reportTaskId report).filter (· ≠ "") with
    | none =>
      rw [keepLatest, about]
      refine .inr ⟨fun supersedes => ?_, rfl⟩
      cases about.symm.trans supersedes.2.1
    | some named =>
      rw [keepLatest, about]
      dsimp only
      split
      next higher =>
        rw [mapGet_mapSet]
        by_cases same : taskId = named
        · subst same
          refine .inl ⟨⟨designer, about, fun existing held => ?_⟩, if_pos rfl⟩
          rw [latestDesignerReport] at held
          simpa [held] using higher
        · refine .inr ⟨fun supersedes => same ?_, if_neg same⟩
          exact (Option.some.inj (about.symm.trans supersedes.2.1)).symm
      next not_higher =>
        refine .inr ⟨fun supersedes => not_higher ?_, rfl⟩
        obtain rfl := Option.some.inj (about.symm.trans supersedes.2.1)
        cases held : mapGet (latestDesignerReportsByTask state) named with
        | none => rfl
        | some existing => simpa using supersedes.2.2 existing held
  · rw [if_neg designer]
    exact .inr ⟨fun supersedes => designer supersedes.1, rfl⟩

def Known (run : DesignRun) : Prop :=
  ∀ taskId concernKey, isDispositioned run.state.design_concern_dispositions taskId concernKey =
    (lastRecorded run.recorded taskId concernKey).isSome

theorem known_fresh (change : ChangeState) : Known (.fresh change) := fun _ _ => rfl

theorem lastRecorded_cons (record : RecordedConcern) (recorded : List RecordedConcern) (taskId concernKey : String) :
    lastRecorded (record :: recorded) taskId concernKey =
      if record.disposition.taskId = taskId ∧ record.disposition.concernKey = concernKey then some record
      else lastRecorded recorded taskId concernKey := by
  by_cases names : record.disposition.taskId = taskId ∧ record.disposition.concernKey = concernKey
  · rw [if_pos names, lastRecorded, List.find?_cons_of_pos (by simpa using names)]
  · rw [if_neg names, lastRecorded, List.find?_cons_of_neg (by simpa using names), lastRecorded]

theorem known_serve (event : DesignEvent) (run : DesignRun) (known : Known run) : Known (event.serve run).2 := by
  cases event with
  | submit report => exact known
  | dispose disposition =>
    simp only [DesignEvent.serve]
    split
    · intro taskId concernKey
      rw [lastRecorded_cons]
      have upserted := isDispositioned_upsert run.state.design_concern_dispositions disposition taskId concernKey
      refine upserted.trans ?_
      rw [known taskId concernKey]
      by_cases names : disposition.taskId = taskId ∧ disposition.concernKey = concernKey
      · rw [if_pos names]
        simp [names.1, names.2]
      · rw [if_neg names]
        have differs : (decide (disposition.taskId = taskId) &&
            decide (disposition.concernKey = concernKey)) = false := by simpa using names
        rw [differs, Bool.false_or]
    · exact known

/-! ## Staying with the concern -/

theorem neighbor_blocks {state : ChangeState} {gateId : GateId} (checks : gateId = .acceptance ∨ gateId = .release)
    {taskId : String} {index : Nat} {recommendation : DesignerNeighboringRecommendation}
    (stands : recommendationAt state taskId index = some recommendation)
    (unanswered : isDispositioned state.design_concern_dispositions taskId (neighborKey index) = false) :
    ∃ blocker ∈ checkUnresolvedDesignConcerns state gateId,
      blocker.message = neighborMessage taskId recommendation := by
  obtain ⟨report, latest, placed⟩ := Option.bind_eq_some_iff.mp stands
  have entry : (taskId, report) ∈ latestDesignerReportsByTask state :=
    (mem_iff_mapGet (latestByKey_distinct _)).mpr latest
  have numbered : recommendation ∈ openNeighbors state taskId report := by
    refine List.mem_map.mpr ⟨(recommendation, index), List.mem_filter.mpr ⟨?_, by simp [unanswered]⟩, rfl⟩
    exact List.mem_zipIdx_iff_getElem?.mpr placed
  have relevant : (gateId ≠ .acceptance && gateId ≠ .release) = false := by
    rcases checks with rfl | rfl <;> rfl
  unfold checkUnresolvedDesignConcerns
  rw [relevant]
  refine ⟨_, List.mem_flatMap.mpr ⟨_, entry, List.mem_append_right _ (List.mem_map_of_mem numbered)⟩, rfl⟩

theorem DispositionsStay.of_recommendations {run : DesignRun} (known : Known run)
    (recommendations : ∀ taskId index recommendation, recommendationAt run.state taskId index = some recommendation →
        isDispositioned run.state.design_concern_dispositions taskId (neighborKey index) →
          ∃ record, lastRecorded run.recorded taskId (neighborKey index) = some record ∧
            record.target = some recommendation) : DispositionsStay run where
  recommendations := recommendations
  dimensions taskId dimension := by
    rw [known, lastRecorded, List.find?_isSome]
    refine exists_congr fun record => and_congr_right fun _ => ?_
    obtain ⟨⟨onTask, key⟩, target⟩ := record
    simp
  blocks gateId checks taskId index recommendation stands never := by
    refine neighbor_blocks checks stands (Bool.eq_false_iff.mpr fun answered => ?_)
    obtain ⟨record, last, target⟩ := recommendations taskId index recommendation stands answered
    have names := List.find?_some last
    simp only [Bool.and_eq_true, decide_eq_true_eq] at names
    exact never record (List.mem_of_find?_eq_some last) names.1 target

theorem stay_fresh (change : ChangeState) : DispositionsStay (.fresh change) :=
  .of_recommendations (known_fresh change) fun _ _ _ _ answered => nomatch answered

theorem stay_serve_iff (event : DesignEvent) (run : DesignRun) (known : Known run) (stay : DispositionsStay run) :
    DispositionsStay (event.serve run).2 ↔ KeepsPlaces (recordOf DesignEvent.serve event run) := by
  cases event with
  | submit report =>
    constructor
    · -- a new latest report shows its recommendations at the old places
      intro kept taskId supersedes index recommendation record stands last
      rcases latestDesignerReport_submit report run.state taskId with ⟨-, latest⟩ | ⟨not_latest, -⟩
      · have shown : recommendationAt (submitReport report run.state) taskId index = some recommendation := by
          rw [recommendationAt, latest]
          exact stands
        have answered : isDispositioned run.state.design_concern_dispositions taskId (neighborKey index) := by
          rw [known]
          simp [show lastRecorded run.recorded taskId (neighborKey index) = some record from last]
        obtain ⟨found, again, target⟩ := kept.recommendations taskId index recommendation shown answered
        obtain rfl := Option.some.inj (last.symm.trans again)
        exact target
      · exact absurd supersedes not_latest
    · intro keeps
      refine .of_recommendations (known_serve _ run known) fun taskId index recommendation shown answered => ?_
      rcases latestDesignerReport_submit report run.state taskId with ⟨supersedes, latest⟩ | ⟨-, same⟩
      · have stands : report.neighboring_recommendations[index]? = some recommendation := by
          have shown : recommendationAt (submitReport report run.state) taskId index = some recommendation := shown
          rwa [recommendationAt, latest] at shown
        have recorded : (lastRecorded run.recorded taskId (neighborKey index)).isSome := by
          rw [← known]
          exact answered
        obtain ⟨record, last⟩ := Option.isSome_iff_exists.mp recorded
        exact ⟨record, last, keeps taskId supersedes index recommendation record stands last⟩
      · refine stay.recommendations taskId index recommendation ?_ answered
        have shown : recommendationAt (submitReport report run.state) taskId index = some recommendation := shown
        rwa [recommendationAt, same] at shown
  | dispose disposition =>
    refine iff_of_true (.of_recommendations (known_serve _ run known) ?_) trivial
    simp only [DesignEvent.serve]
    split
    · intro taskId index recommendation shown answered
      have stands : recommendationAt run.state taskId index = some recommendation := shown
      simp only [lastRecorded_cons]
      split
      next names =>
        refine ⟨_, rfl, ?_⟩
        simp only [names.1, names.2]
        exact (recommendationUnder_neighborKey run.state taskId index).trans stands
      next others =>
        refine stay.recommendations taskId index recommendation stands ?_
        have upserted := isDispositioned_upsert run.state.design_concern_dispositions disposition taskId
          (neighborKey index)
        have differs : (decide (disposition.taskId = taskId) &&
            decide (disposition.concernKey = neighborKey index)) = false := by simpa using others
        rw [differs, Bool.false_or] at upserted
        exact upserted ▸ answered
    · exact stay.recommendations

/-- Along a run every disposition answers for the concern it was recorded for exactly when every new latest
    report has, at each place with a disposition, the recommendation it was recorded for or none. -/
theorem dispositionsStay_iff (change : ChangeState) (events : List DesignEvent) :
    (∀ step ∈ trace DesignEvent.serve events (.fresh change), DispositionsStay step.after) ↔
      ∀ step ∈ trace DesignEvent.serve events (.fresh change), KeepsPlaces step :=
  trace_exact known_serve stay_serve_iff (known_fresh change) (stay_fresh change)

/-! ## Fixed runs -/

def panelChange : ChangeState where
  gates := fun _ => ⟨.pending, none, none, none⟩
  tasks := [⟨"tk-1", "Describe the panel", none, .done, none, none, none, false, none⟩]
  subagent_reports := none
  design_concern_dispositions := none
  verification_evidence_dispositions := none
  contract := none
  acceptanceCriteria := none
  agreementArtifact := true
  executiveSummaryArtifact := none
  agreementDocument := none
  executiveSummaryDocument := none
  ops_followup_links := none
  testRuns := fun _ => none

def recommended (what : String) : DesignerNeighboringRecommendation := ⟨none, none, what, "seen next to the panel"⟩

def panelReport (attempt : Nat) (recommendations : List DesignerNeighboringRecommendation) : ScopedSubagentReport where
  change_id := "describe-panel"
  agent := .designer
  scope := .task "tk-1"
  task_id := some "tk-1"
  attempt := attempt
  consumer_warnings := none
  verification := []
  design_dimensions := fun _ => .pass
  neighboring_recommendations := recommendations

def droppedRecommendation : List DesignEvent :=
  [.submit (panelReport 1 [recommended "Align the badge", recommended "Label the icon"]),
    .dispose ⟨"tk-1", "neighbor:0"⟩, .submit (panelReport 2 [recommended "Label the icon"])]

def clearedRun : DesignRun := stateAfter DesignEvent.serve droppedRecommendation (.fresh panelChange)

/-- The disposition of the first answers for the second. -/
theorem second_recommendation_cleared : ¬ ∀ step ∈ trace DesignEvent.serve droppedRecommendation (.fresh panelChange),
      DispositionsStay step.after := by
  intro stays
  have final : DispositionsStay clearedRun :=
    stays _ (List.mem_cons_of_mem _ (List.mem_cons_of_mem _ List.mem_cons_self))
  obtain ⟨record, last, target⟩ := final.recommendations "tk-1" 0 (recommended "Label the icon") (by rfl) (by rfl)
  have first : (lastRecorded clearedRun.recorded "tk-1" (neighborKey 0)).bind RecordedConcern.target =
      some (recommended "Align the badge") := by rfl
  rw [last, Option.bind_some, target] at first
  revert first
  decide

end Advance.Gates
