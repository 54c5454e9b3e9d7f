import Advance.Foundation.KeyedList
import Advance.Foundation.SharedValue
import Advance.Tools.ChangeMutationCoordinator
import Advance.Tools.SubagentReport

/-! # The intake of sub-agent reports

Any number of submissions and task updates at one change.  A submission decides on one read of the change and
commits later; at an archived change it loads and overwrites the bundle, without a lock.
-/

namespace Advance.Tools

open Advance.Foundation Advance.Types

/-! ## The store -/

/-- The records of a change: the active one, its archive bundle and its closed record. -/
structure ReportStore where
  active : Option IntakeProjection
  bundle : Option IntakeProjection
  closed : Option IntakeProjection

/-- What `changes.get` presents. -/
def ReportStore.view (store : ReportStore) : Option IntakeProjection :=
  match store.active with
  | some change =>
    if change.status ≠ .archived ∧ store.bundle.isSome then some { change with status := .archived } else some change
  | none =>
    match store.bundle with
    | some archived => some { archived with status := .archived }
    | none => store.closed.filter fun closed => closed.status = .closed

/-- A coordinated mutation of the active record. -/
def ReportStore.commit (store : ReportStore) (fate : MutationFate)
    (mutateLatest : IntakeProjection → Option IntakeProjection) (verify : IntakeProjection → Bool) :
    ReportStore × Bool :=
  match store.active with
  | none => (store, false)
  | some latest =>
    let (next, told) := fate.commit mutateLatest verify latest
    ({ store with active := some next }, told)

/-! ## Calls -/

structure ErrorRecoveryUpdate where
  taskId : String
  error_recovery : Option ErrorRecovery
  now : String

inductive IntakeCall where
  | submit (call : SubmitCall)
  | update (call : ErrorRecoveryUpdate)

/-- Where a call is, with what it has read. -/
inductive IntakePhase where
  | idle
  | recording (taskId : String) (seen : Option DelegationRecovery) (next : DelegationRecovery)
  | persisting (report : IntakeReport) (seen : Option DelegationRecovery) (recovery : Option DelegationRecovery)
  | recovering (report : IntakeReport) (status : ChangeStatus) (seen : Option DelegationRecovery)
  | recoveringActive (report : IntakeReport) (seen : Option DelegationRecovery)
  | recoveringBundle (report : IntakeReport) (seen : Option DelegationRecovery)
  | loaded (report : IntakeReport) (seen : Option DelegationRecovery) (copy next : IntakeProjection)
  | clearing (taskId : String) (seen cleared : Option DelegationRecovery)
  | finished (answer : IntakeAnswer)

def SubmitDecision.phase : SubmitDecision → IntakePhase
  | .answer given => .finished given
  | .record taskId seen next => .recording taskId seen next
  | .persist report seen recovery => .persisting report seen recovery
  | .recover report status seen => .recovering report status seen

def acceptedIf (told : Bool) (report : IntakeReport) : IntakePhase :=
  .finished (if told then .accepted report else .failed)

section

variable {ι : Type} [DecidableEq ι] (calls : ι → IntakeCall)

def IntakeCall.now : IntakeCall → String
  | .submit call => call.now
  | .update call => call.now

def intakeAdvance (i : ι) (fate : MutationFate) (phase : IntakePhase) (store : ReportStore) :
    IntakePhase × ReportStore :=
  match phase with
  | .idle =>
    match calls i with
    | .submit call => ((submitDecision call store.view).phase, store)
    | .update call =>
      match store.view.bind (findTask · call.taskId) with
      | none => (.finished .noTask, store)
      | some task =>
        (.clearing call.taskId task.delegation_recovery
          (maybeClearBlockedDelegationRecovery task.delegation_recovery call.error_recovery call.now), store)
  | .recording taskId _ next =>
    let (store, told) := store.commit fate (fun latest => some (recordRecovery taskId next latest)) fun readback =>
      (findTask readback taskId).any fun task => task.delegation_recovery.any fun recovery =>
        recovery.last_updated_at = (calls i).now
    (.finished (.malformed told false), store)
  | .persisting report _ recovery =>
    let (store, told) := store.commit fate (fun latest => some (appendReport report recovery latest)) fun readback =>
      hasExistingSidecarReport readback (reportId report)
    (acceptedIf told report, store)
  | .recovering report status seen =>
    let audited := auditedReport report status store.bundle.isSome (calls i).now
    (if store.bundle.isSome then .recoveringBundle audited seen else .recoveringActive audited seen, store)
  | .recoveringActive report _ =>
    let (store, told) := store.commit fate (fun latest => (recoverReport report latest).mutation latest)
      (recoveredIn report)
    (acceptedIf told report, store)
  | .recoveringBundle report seen =>
    match store.bundle with
    | none => (.finished .failed, store)
    | some copy =>
      match recoverReport report copy with
      | .noTask => (.finished .failed, store)
      | .present => (.finished (.accepted report), store)
      | .added next => (.loaded report seen copy next, store)
  | .loaded report _ _ next =>
    -- the whole document is overwritten
    match fate with
    | .untouched => (.finished .failed, store)
    | .unreported => (.finished .failed, { store with bundle := some next })
    | .verified => (.finished (.accepted report), { store with bundle := some next })
  | .clearing taskId _ cleared =>
    let (store, told) := store.commit fate (fun latest => some (latest.mapTask taskId fun task =>
        { task with delegation_recovery := cleared.or task.delegation_recovery })) fun readback =>
      (findTask readback taskId).isSome
    (.finished (if told then .updated else .failed), store)
  | .finished answer => (.finished answer, store)

/-! ## What is claimed -/

abbrev IntakeRace (ι : Type) := Shared ι ReportStore IntakePhase

abbrev IntakeMove (ι : Type) := SharedMove ι MutationFate (ReportStore → ReportStore)

/-- A step of a call, or of anything else that writes the records. -/
def intakeStep : IntakeMove ι → IntakeRace ι → Unit × IntakeRace ι :=
  sharedStep (intakeAdvance calls) fun event store => event store

abbrev IntakeRecord (ι : Type) := Record (IntakeRace ι) (IntakeMove ι) Unit

end

def IntakeProjection.reportKeys (change : IntakeProjection) : List String :=
  (change.reports ++ change.tasks.flatMap IntakeTask.reports).map reportId

/-- No place of a projection holds two reports of one key. -/
structure OnceEach (change : IntakeProjection) : Prop where
  sidecar : (change.reports.map reportId).Nodup
  tasks : ∀ task ∈ change.tasks, (task.reports.map reportId).Nodup

def ReportStore.OnceEach (store : ReportStore) : Prop :=
  ∀ change, store.active = some change ∨ store.bundle = some change ∨ store.closed = some change →
    Advance.Tools.OnceEach change

def ReportStore.Holds (store : ReportStore) (key : String) : Prop :=
  ∃ change, store.view = some change ∧ key ∈ change.reportKeys

/-- What a finished call says is so. -/
def AnswerTrue (store : ReportStore) : IntakePhase → Prop
  | .finished (.accepted report) => store.Holds (reportId report)
  | .finished (.duplicate id) => store.Holds id
  | _ => True

/-- Nothing was written between the read and the write of a report that its write overlooks: an append finds
    no report of its key, a bundle stands as it was loaded and with no active record beside it, and what else is
    written takes no report away and stores none twice. -/
def Undisturbed {ι : Type} (step : IntakeRecord ι) : Prop :=
  match step.request with
  | .outside _ =>
    (step.before.value.OnceEach → step.after.value.OnceEach) ∧
      ∀ key, step.before.value.Holds key → step.after.value.Holds key
  | .party i fate =>
    match step.before.party i with
    | .persisting report _ _ =>
      fate ≠ .untouched → ∀ latest, step.before.value.active = some latest →
        hasExistingSidecarReport latest (reportId report) = false
    | .recoveringBundle _ _ => step.before.value.active = none
    | .loaded _ _ copy _ => step.before.value.active = none ∧ step.before.value.bundle = some copy
    | _ => True

/-! ## Projections -/

variable {change : IntakeProjection}

theorem mem_reportKeys {key : String} : key ∈ change.reportKeys ↔ (∃ report ∈ change.reports, reportId report = key) ∨
      ∃ task ∈ change.tasks, ∃ report ∈ task.reports, reportId report = key := by
  simp only [IntakeProjection.reportKeys, List.mem_map, List.mem_append, List.mem_flatMap]
  constructor
  · rintro ⟨report, member | ⟨task, held, member⟩, rfl⟩
    · exact .inl ⟨report, member, rfl⟩
    · exact .inr ⟨task, held, report, member, rfl⟩
  · rintro (⟨report, member, rfl⟩ | ⟨task, held, report, member, rfl⟩)
    · exact ⟨report, .inl member, rfl⟩
    · exact ⟨report, .inr ⟨task, held, member⟩, rfl⟩

variable {reports : List IntakeReport}

theorem hasReport_iff {id : String} :
    hasReport reports id = true ↔ ∃ report ∈ reports, reportId report = id := by
  simp [hasReport]

variable {report : IntakeReport}

theorem nodup_appended (apart : (reports.map reportId).Nodup)
    (fresh : hasReport reports (reportId report) = false) : ((reports ++ [report]).map reportId).Nodup := by
  rw [← keyedApart_some] at apart ⊢
  refine apart.append ?_
  rintro key named other member same
  have held : hasReport reports (reportId report) = true :=
    hasReport_iff.mpr ⟨other, member, Option.some.inj (same.trans named.symm)⟩
  rw [fresh] at held
  cases held

variable {update : IntakeTask → IntakeTask}

theorem mapTask_reports (change : IntakeProjection) (taskId : String)
    (kept : ∀ task, (update task).reports = task.reports) :
    (change.mapTask taskId update).reportKeys = change.reportKeys ∧
      (OnceEach change → OnceEach (change.mapTask taskId update)) := by
  have same : ∀ task : IntakeTask, (if task.id = taskId then update task else task).reports = task.reports := by
    intro task
    split
    · exact kept task
    · rfl
  constructor
  · simp only [IntakeProjection.reportKeys, IntakeProjection.mapTask, List.flatMap_map]
    rw [show (fun task => (if task.id = taskId then update task else task).reports) = IntakeTask.reports
      from funext same]
    rfl
  · intro once
    refine ⟨once.sidecar, ?_⟩
    intro task member
    obtain ⟨old, held, rfl⟩ := List.mem_map.mp member
    rw [same]
    exact once.tasks old held

theorem recordRecovery_reports (taskId : String) (recovery : DelegationRecovery) (change : IntakeProjection) :
    (recordRecovery taskId recovery change).reportKeys = change.reportKeys ∧
      (OnceEach change → OnceEach (recordRecovery taskId recovery change)) :=
  mapTask_reports change taskId fun _ => rfl

theorem appendReport_reports (report : IntakeReport) (recovery : Option DelegationRecovery)
    (change : IntakeProjection) : change.reportKeys ⊆ (appendReport report recovery change).reportKeys ∧
      reportId report ∈ (appendReport report recovery change).reportKeys ∧
      (OnceEach change → hasExistingSidecarReport change (reportId report) = false →
        OnceEach (appendReport report recovery change)) := by
  have appended : change.reportKeys ⊆
        IntakeProjection.reportKeys { change with subagent_reports := some (change.reports ++ [report]) } ∧
      reportId report ∈
        IntakeProjection.reportKeys { change with subagent_reports := some (change.reports ++ [report]) } ∧
      (OnceEach change → hasExistingSidecarReport change (reportId report) = false →
        OnceEach { change with subagent_reports := some (change.reports ++ [report]) }) := by
    refine ⟨fun key held => ?_, ?_, fun once fresh => ⟨nodup_appended once.sidecar fresh, once.tasks⟩⟩
    · rw [mem_reportKeys] at held ⊢
      exact held.imp_left fun ⟨other, member, same⟩ => ⟨other, List.mem_append_left _ member, same⟩
    · rw [mem_reportKeys]
      exact .inl ⟨report, List.mem_append_right _ (List.mem_singleton.mpr rfl), rfl⟩
  cases anchored : (reportTaskId report).filter (· ≠ "") with
  | none =>
    simp only [appendReport, anchored]
    exact appended
  | some taskId =>
    cases recovery with
    | none =>
      simp only [appendReport, anchored]
      exact appended
    | some recovery =>
      simp only [appendReport, anchored]
      obtain ⟨same, once⟩ := recordRecovery_reports taskId recovery
        { change with subagent_reports := some (change.reports ++ [report]) }
      rw [same]
      exact ⟨appended.1, appended.2.1, fun before fresh => once (appended.2.2 before fresh)⟩

theorem updateFirst_mem {taskId : String} {tasks : List IntakeTask}
    {task : IntakeTask} (member : task ∈ updateFirst taskId update tasks) :
    task ∈ tasks ∨ ∃ old, tasks.find? (fun task => task.id = taskId) = some old ∧ task = update old := by
  induction tasks with
  | nil => cases member
  | cons head rest ih =>
    unfold updateFirst at member
    by_cases named : head.id = taskId
    · rw [if_pos named] at member
      rcases List.mem_cons.mp member with rfl | held
      · exact .inr ⟨head, by simp [named], rfl⟩
      · exact .inl (List.mem_cons_of_mem _ held)
    · rw [if_neg named] at member
      rcases List.mem_cons.mp member with rfl | held
      · exact .inl List.mem_cons_self
      · rcases ih held with kept | ⟨old, found, rfl⟩
        · exact .inl (List.mem_cons_of_mem _ kept)
        · exact .inr ⟨old, by simpa [named] using found, rfl⟩

theorem mem_updateFirst (taskId : String) (update : IntakeTask → IntakeTask) (tasks : List IntakeTask) :
    (∀ task ∈ tasks, task ∈ updateFirst taskId update tasks ∨ update task ∈ updateFirst taskId update tasks) ∧
      ∀ old, tasks.find? (fun task => task.id = taskId) = some old → update old ∈ updateFirst taskId update tasks := by
  induction tasks with
  | nil => exact ⟨fun _ member => (nomatch member), fun _ found => nomatch found⟩
  | cons head rest ih =>
    unfold updateFirst
    by_cases named : head.id = taskId
    · rw [if_pos named]
      refine ⟨fun task member => ?_, fun old found => ?_⟩
      · rcases List.mem_cons.mp member with rfl | held
        · exact .inr List.mem_cons_self
        · exact .inl (List.mem_cons_of_mem _ held)
      · simp only [named, decide_true, List.find?_cons_of_pos, Option.some.injEq] at found
        rw [found]
        exact List.mem_cons_self
    · rw [if_neg named]
      refine ⟨fun task member => ?_, fun old found => ?_⟩
      · rcases List.mem_cons.mp member with rfl | held
        · exact .inl List.mem_cons_self
        · exact (ih.1 task held).imp (List.mem_cons_of_mem _) (List.mem_cons_of_mem _)
      · exact List.mem_cons_of_mem _ (ih.2 old (by simpa [named] using found))

theorem recoverReport_added {base next : IntakeProjection} (added : recoverReport report base = .added next) :
    base.reportKeys ⊆ next.reportKeys ∧ reportId report ∈ next.reportKeys ∧ (OnceEach base → OnceEach next) := by
  unfold recoverReport at added
  split at added
  next taskId _ =>
    split at added
    next => cases added
    next task found =>
      split at added
      next => cases added
      next absent =>
        cases added
        have held := mem_updateFirst taskId (IntakeTask.withReport report) base.tasks
        refine ⟨fun key kept => ?_, ?_, fun once => ⟨once.sidecar, fun other member => ?_⟩⟩
        · rw [mem_reportKeys] at kept ⊢
          refine kept.imp_right ?_
          rintro ⟨other, member, stored, inside, same⟩
          rcases held.1 other member with kept' | updated
          · exact ⟨other, kept', stored, inside, same⟩
          · exact ⟨_, updated, stored, List.mem_append_left _ inside, same⟩
        · rw [mem_reportKeys]
          exact .inr ⟨_, held.2 task found, report, List.mem_append_right _ (List.mem_singleton.mpr rfl), rfl⟩
        · rcases updateFirst_mem member with kept | ⟨old, found', rfl⟩
          · exact once.tasks other kept
          · cases found.symm.trans found'
            exact nodup_appended (once.tasks task (List.mem_of_find?_eq_some found)) (Bool.eq_false_iff.mpr absent)
  next =>
    split at added
    next => cases added
    next absent =>
      cases added
      refine ⟨fun key kept => ?_, ?_, fun once => ⟨?_, once.tasks⟩⟩
      · rw [mem_reportKeys] at kept ⊢
        exact kept.imp_left fun ⟨other, member, same⟩ => ⟨other, List.mem_append_left _ member, same⟩
      · rw [mem_reportKeys]
        exact .inl ⟨report, List.mem_append_right _ (List.mem_singleton.mpr rfl), rfl⟩
      · exact nodup_appended once.sidecar (Bool.eq_false_iff.mpr absent)

theorem recoveredIn_held (found : recoveredIn report change = true) : reportId report ∈ change.reportKeys := by
  rw [mem_reportKeys]
  unfold recoveredIn at found
  split at found
  next taskId _ =>
    obtain ⟨task, inside, held⟩ := (Option.any_eq_true ..).mp found
    obtain ⟨stored, member, same⟩ := hasReport_iff.mp held
    exact .inr ⟨task, List.mem_of_find?_eq_some inside, stored, member, same⟩
  next =>
    obtain ⟨stored, member, same⟩ := hasReport_iff.mp found
    exact .inl ⟨stored, member, same⟩

theorem recoverReport_present {base : IntakeProjection}
    (present : recoverReport report base = .present) : reportId report ∈ base.reportKeys := by
  refine recoveredIn_held ?_
  unfold recoverReport at present
  unfold recoveredIn
  split at present
  next taskId anchored =>
    split at present
    next => cases present
    next task found =>
      split at present
      next held => simpa [anchored, found] using held
      next => cases present
  next unanchored =>
    split at present
    next held => simpa [unanchored] using held
    next => cases present

/-! ## Stores -/

variable {store : ReportStore}

theorem view_active (stored : store.active = some change) :
    ∃ status, store.view = some { change with status := status } := by
  unfold ReportStore.view
  rw [stored]
  dsimp only
  split
  · exact ⟨.archived, rfl⟩
  · exact ⟨change.status, rfl⟩

theorem view_bundle (store : ReportStore) (retired : store.active = none)
    (stored : store.bundle = some change) : store.view = some { change with status := .archived } := by
  unfold ReportStore.view
  rw [retired, stored]

theorem holds_view (presented : store.view = some change)
    (key : String) : store.Holds key ↔ key ∈ change.reportKeys := by
  constructor
  · rintro ⟨other, shown, held⟩
    rw [presented] at shown
    cases shown
    exact held
  · exact fun held => ⟨change, presented, held⟩

theorem holds_active (stored : store.active = some change)
    (key : String) : store.Holds key ↔ key ∈ change.reportKeys := by
  obtain ⟨status, presented⟩ := view_active stored
  exact holds_view presented key

theorem holds_bundle (store : ReportStore) (retired : store.active = none)
    (stored : store.bundle = some change) (key : String) : store.Holds key ↔ key ∈ change.reportKeys :=
  holds_view (view_bundle store retired stored) key

theorem commit_cases (store : ReportStore) (fate : MutationFate)
    (mutateLatest : IntakeProjection → Option IntakeProjection) (verify : IntakeProjection → Bool) :
    store.commit fate mutateLatest verify = (store, false) ∨
      ∃ latest next told, store.active = some latest ∧ mutateLatest latest = some next ∧ fate ≠ .untouched ∧
        store.commit fate mutateLatest verify = ({ store with active := some next }, told) ∧
        (told = true → fate = .verified ∧ verify next = true) := by
  unfold ReportStore.commit
  cases stored : store.active with
  | none => exact .inl rfl
  | some latest =>
    rcases fate.commit_cases mutateLatest verify latest with kept | ⟨next, told, mutated, written, result, proven⟩
    · left
      dsimp only
      rw [kept, ← stored]
    · right
      dsimp only
      rw [result]
      exact ⟨latest, next, told, rfl, mutated, written, rfl, proven⟩

variable {latest next : IntakeProjection}

theorem commit_writes {fate : MutationFate}
    {mutateLatest : IntakeProjection → Option IntakeProjection} (verify : IntakeProjection → Bool) (written : fate ≠ .untouched) (stored : store.active = some latest)
    (mutated : mutateLatest latest = some next) :
    (store.commit fate mutateLatest verify).1 = { store with active := some next } := by
  simp only [ReportStore.commit, stored, MutationFate.commit, mutated]
  cases fate with
  | untouched => exact absurd rfl written
  | unreported => rfl
  | verified => rfl

theorem ReportStore.OnceEach.active (once : store.OnceEach) {next : IntakeProjection}
    (sound : Advance.Tools.OnceEach next) : ({ store with active := some next } : ReportStore).OnceEach := by
  rintro change (stored | stored | stored)
  · cases stored
    exact sound
  · exact once change (.inr (.inl stored))
  · exact once change (.inr (.inr stored))

theorem ReportStore.OnceEach.bundle (once : store.OnceEach) {next : IntakeProjection}
    (sound : Advance.Tools.OnceEach next) : ({ store with bundle := some next } : ReportStore).OnceEach := by
  rintro change (stored | stored | stored)
  · exact once change (.inl stored)
  · cases stored
    exact sound
  · exact once change (.inr (.inr stored))

/-! ## Steps -/

/-- A call knows where its copy came from, and what it has said is so. -/
def PhaseTrue (store : ReportStore) : IntakePhase → Prop
  | .loaded report _ copy next => recoverReport report copy = .added next
  | .finished answer => AnswerTrue store (.finished answer)
  | _ => True

variable {phase : IntakePhase}

theorem PhaseTrue.grown {before after : ReportStore} (holds : PhaseTrue before phase)
    (grown : ∀ key, before.Holds key → after.Holds key) : PhaseTrue after phase := by
  cases phase with
  | finished answer =>
    cases answer with
    | accepted report => exact grown _ holds
    | duplicate id => exact grown _ holds
    | _ => trivial
  | loaded report seen copy next => exact holds
  | _ => trivial

/-- What a good step keeps: no report twice, none lost, and what the moving call says of reports is so. -/
structure Kept (before after : ReportStore) (phase : IntakePhase) : Prop where
  once : before.OnceEach → after.OnceEach
  held : ∀ key, before.Holds key → after.Holds key
  told : PhaseTrue after phase

theorem Kept.same (told : PhaseTrue store phase) : Kept store store phase := ⟨id, fun _ => id, told⟩

theorem Kept.commit
    (stored : store.active = some latest) (once : OnceEach latest → OnceEach next)
    (grows : latest.reportKeys ⊆ next.reportKeys) (told : PhaseTrue { store with active := some next } phase) :
    Kept store { store with active := some next } phase where
  once before := before.active (once (before latest (.inl stored)))
  held key held := (holds_active rfl key).mpr (grows ((holds_active stored key).mp held))
  told := told

variable {ι : Type} [DecidableEq ι] {calls : ι → IntakeCall}

theorem submitDecision_told (call : SubmitCall) (store : ReportStore) :
    PhaseTrue store (submitDecision call store.view).phase := by
  unfold submitDecision
  cases call.payload with
  | malformed identity =>
    dsimp only
    split
    · trivial
    · unfold malformedDecision
      split
      · trivial
      · split
        · trivial
        · split <;> trivial
  | parsed report =>
    dsimp only
    cases presented : store.view with
    | none => trivial
    | some change =>
      dsimp only
      split
      · trivial
      split
      · trivial
      split
      next duplicate =>
        refine (holds_view presented _).mpr (mem_reportKeys.mpr ?_)
        rcases Bool.or_eq_true_iff.mp duplicate with sidecar | anchored
        · obtain ⟨stored, member, same⟩ := hasReport_iff.mp sidecar
          exact .inl ⟨stored, member, same⟩
        · obtain ⟨task, found, held⟩ := (Option.any_eq_true ..).mp anchored
          obtain ⟨taskId, _, inside⟩ := Option.bind_eq_some_iff.mp found
          obtain ⟨stored, member, same⟩ := hasReport_iff.mp held
          exact .inr ⟨task, List.mem_of_find?_eq_some inside, stored, member, same⟩
      split
      · trivial
      split
      · trivial
      split <;> trivial

theorem intakeAdvance_kept {i : ι} {fate : MutationFate} {race : IntakeRace ι}
    (good : Undisturbed (Foundation.recordOf (intakeStep calls) (.party i fate) race))
    (sound : PhaseTrue race.value (race.party i)) :
    Kept race.value (intakeAdvance calls i fate (race.party i) race.value).2
      (intakeAdvance calls i fate (race.party i) race.value).1 := by
  unfold Undisturbed at good
  simp only [recordOf_request, recordOf_before] at good
  cases reached : race.party i with
  | idle =>
    unfold intakeAdvance
    dsimp only
    split
    next call _ => exact .same (submitDecision_told call race.value)
    next call _ => split <;> exact .same trivial
  | recording taskId seen next =>
    unfold intakeAdvance
    dsimp only
    rcases commit_cases race.value fate (fun latest => some (recordRecovery taskId next latest)) _ with
      unwritten | ⟨latest, after, told, stored, mutated, _, written, _⟩
    · rw [unwritten]
      exact .same trivial
    · rw [written]
      cases mutated
      obtain ⟨same, once⟩ := recordRecovery_reports taskId next latest
      exact .commit stored once (by rw [same]; exact fun _ => id) trivial
  | persisting report seen recovery =>
    rw [reached] at good
    unfold intakeAdvance
    dsimp only
    rcases commit_cases race.value fate (fun latest => some (appendReport report recovery latest)) _ with
      unwritten | ⟨latest, after, told, stored, mutated, began, written, _⟩
    · rw [unwritten]
      exact .same trivial
    · rw [written]
      cases mutated
      obtain ⟨grows, held, once⟩ := appendReport_reports report recovery latest
      refine .commit stored (fun before => once before (good began latest stored)) grows ?_
      cases told with
      | false => trivial
      | true => exact (holds_active rfl _).mpr held
  | recovering report status seen =>
    unfold intakeAdvance
    dsimp only
    split <;> exact .same trivial
  | recoveringActive report seen =>
    unfold intakeAdvance
    dsimp only
    rcases commit_cases race.value fate (fun latest => (recoverReport report latest).mutation latest) _ with
      unwritten | ⟨latest, after, told, stored, mutated, _, written, proven⟩
    · rw [unwritten]
      exact .same trivial
    · rw [written]
      have accepted : PhaseTrue { race.value with active := some after } (acceptedIf told report) := by
        cases told with
        | false => trivial
        | true => exact (holds_active rfl _).mpr (recoveredIn_held (proven rfl).2)
      cases recovered : recoverReport report latest with
      | noTask =>
        rw [recovered] at mutated
        cases mutated
      | present =>
        rw [recovered] at mutated
        cases mutated
        exact .commit stored id (fun _ => id) accepted
      | added next =>
        rw [recovered] at mutated
        cases mutated
        obtain ⟨grows, _, once⟩ := recoverReport_added recovered
        exact .commit stored once grows accepted
  | recoveringBundle report seen =>
    rw [reached] at good
    unfold intakeAdvance
    dsimp only
    cases stored : race.value.bundle with
    | none => exact .same trivial
    | some copy =>
      dsimp only
      cases recovered : recoverReport report copy with
      | noTask => exact .same trivial
      | present => exact .same ((holds_bundle race.value good stored _).mpr (recoverReport_present recovered))
      | added next => exact .same recovered
  | loaded report seen copy next =>
    rw [reached] at good sound
    obtain ⟨retired, stored⟩ := good
    obtain ⟨grows, held, once⟩ := recoverReport_added sound
    have overwritten : ∀ {phase}, PhaseTrue { race.value with bundle := some next } phase →
        Kept race.value { race.value with bundle := some next } phase := by
      intro phase told
      refine ⟨fun before => before.bundle (once (before copy (.inr (.inl stored)))), fun key => ?_, told⟩
      rw [holds_bundle race.value retired stored, holds_bundle { race.value with bundle := some next } retired rfl]
      exact fun held => grows held
    unfold intakeAdvance
    cases fate with
    | untouched => exact .same trivial
    | unreported => exact overwritten trivial
    | verified =>
      exact overwritten ((holds_bundle { race.value with bundle := some next } retired rfl _).mpr held)
  | clearing taskId seen cleared =>
    unfold intakeAdvance
    dsimp only
    rcases commit_cases race.value fate (fun latest => some (latest.mapTask taskId fun task =>
        { task with delegation_recovery := cleared.or task.delegation_recovery })) _ with
      unwritten | ⟨latest, after, told, stored, mutated, _, written, _⟩
    · rw [unwritten]
      exact .same trivial
    · rw [written]
      cases mutated
      have rewritten : ∀ task : IntakeTask,
          ({ task with delegation_recovery := cleared.or task.delegation_recovery } : IntakeTask).reports =
            task.reports := fun _ => rfl
      obtain ⟨same, once⟩ := mapTask_reports latest taskId rewritten
      refine .commit stored once (by rw [same]; exact fun _ => id) ?_
      cases told <;> trivial
  | finished answer =>
    rw [reached] at sound
    exact .same sound

/-- However long a run whose steps are undisturbed, at its end no place of a record holds two reports of one
    key, and every report that was accepted, or called a duplicate, is held by the change as it is presented. -/
theorem exactly_once (calls : ι → IntakeCall) (store : ReportStore) (moves : List (IntakeMove ι))
    (once : store.OnceEach)
    (good : ∀ step ∈ trace (intakeStep calls) moves ⟨store, fun _ => .idle⟩, Undisturbed step) :
    (stateAfter (intakeStep calls) moves ⟨store, fun _ => .idle⟩).value.OnceEach ∧
      ∀ i, AnswerTrue (stateAfter (intakeStep calls) moves ⟨store, fun _ => .idle⟩).value
        ((stateAfter (intakeStep calls) moves ⟨store, fun _ => .idle⟩).party i) := by
  have held : Held ReportStore.OnceEach (fun _ => PhaseTrue)
      (stateAfter (intakeStep calls) moves ⟨store, fun _ => .idle⟩) := by
    refine (held_run ?_ ?_ good ⟨once, fun _ => trivial⟩).2
    · intro i fate race good held
      have kept := intakeAdvance_kept good (held.parties i)
      exact held.moved (kept.once held.value) kept.told fun j _ told => told.grown kept.held
    · intro event race good held
      exact ⟨good.1 held.value, fun j => (held.parties j).grown good.2⟩
  refine ⟨held.value, fun i => ?_⟩
  have told := held.parties i
  cases reached : (stateAfter (intakeStep calls) moves ⟨store, fun _ => .idle⟩).party i with
  | finished answer =>
    rw [reached] at told
    exact told
  | _ => trivial

/-! ## Fixed runs -/

def engineerReport : IntakeReport where
  change_id := "addSearch"
  task_id := some "tk-1"
  scope := .task "tk-1"
  agent := .engineer
  attempt := 1
  implementation_cycle_id := none
  blockers := []
  content := .null

def openChange : IntakeProjection := ⟨.draft, [⟨"tk-1", none, none⟩], none, none⟩

def openStore : ReportStore := ⟨some openChange, none, none⟩

def resubmission : Bool → IntakeCall := fun _ =>
  .submit ⟨.parsed engineerReport, false, "2026-01-01T00:00:00.000Z", fun report _ => report.content⟩

theorem openStore_once : openStore.OnceEach := by
  rintro change (stored | stored | stored)
  · cases stored
    exact ⟨by decide, by decide⟩
  · cases stored
  · cases stored

/-- Both submissions read before either commits, and both append. -/
theorem appended_twice : ¬ (stateAfter (intakeStep resubmission)
      [.party false .verified, .party true .verified, .party false .verified, .party true .verified]
      ⟨openStore, fun _ => .idle⟩).value.OnceEach := by
  intro once
  have stored : ((stateAfter (intakeStep resubmission)
      [.party false .verified, .party true .verified, .party false .verified, .party true .verified]
      ⟨openStore, fun _ => .idle⟩).value.active.map fun change => change.reports.map reportId) =
    some ["addSearch|tk-1|adv-engineer|1", "addSearch|tk-1|adv-engineer|1"] := by rfl
  obtain ⟨change, active, keys⟩ := Option.map_eq_some_iff.mp stored
  have apart := (once change (.inl active)).sidecar
  rw [keys] at apart
  revert apart
  decide

/-- Each submission commits before the other reads. -/
theorem submitted_once :
    (stateAfter (intakeStep resubmission) [.party false .verified, .party false .verified, .party true .verified]
      ⟨openStore, fun _ => .idle⟩).value.OnceEach :=
  (exactly_once resubmission openStore [.party false .verified, .party false .verified, .party true .verified]
    openStore_once (by
      intro step member
      rcases List.mem_cons.mp member with rfl | member
      · trivial
      rcases List.mem_cons.mp member with rfl | member
      · intro _ latest stored
        cases stored
        rfl
      rcases List.mem_cons.mp member with rfl | member
      · trivial
      · cases member)).1

end Advance.Tools
