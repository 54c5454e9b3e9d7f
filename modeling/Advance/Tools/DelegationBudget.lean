import Advance.Tools.ReportIntake

/-! # The delegation budget of a task

Malformed submissions count against a task; the second in a row blocks it until its diagnosis is recorded.
-/

namespace Advance.Tools

open Advance.Foundation Advance.Types

/-! ## The recovery of a task -/

def recoveryIn (change : IntakeProjection) (taskId : String) : Option DelegationRecovery :=
  (findTask change taskId).bind IntakeTask.delegation_recovery

def ReportStore.recovery (store : ReportStore) (taskId : String) : Option DelegationRecovery :=
  store.view.bind (recoveryIn · taskId)

def countOf : Option DelegationRecovery → Nat
  | none => 0
  | some recovery => recovery.empty_or_malformed_count

/-- The diagnosis of the last incident is recorded. -/
def diagnosed : Option DelegationRecovery → Bool
  | none => false
  | some recovery => recovery.inline_diagnosis_evidence

def anchorOf (report : IntakeReport) : Option String := (reportTaskId report).filter (· ≠ "")

section

variable {ι : Type}

def RecordsMalformed (taskId : String) (step : IntakeRecord ι) : Prop :=
  ∃ i fate seen next, step.request = .party i fate ∧ step.before.party i = .recording taskId seen next ∧
    fate ≠ .untouched ∧ step.before.value.active.isSome

def StoresValid (taskId : String) (step : IntakeRecord ι) : Prop :=
  ∃ i fate report seen recovery, step.request = .party i fate ∧
    step.before.party i = .persisting report seen recovery ∧ anchorOf report = some taskId ∧ fate ≠ .untouched ∧
    step.before.value.active.isSome

def RecordsDiagnosis (taskId : String) (step : IntakeRecord ι) : Prop :=
  ∃ i fate seen cleared, step.request = .party i fate ∧
    step.before.party i = .clearing taskId seen (some cleared) ∧ fate ≠ .untouched ∧
    step.before.value.active.isSome

def Accepts (taskId : String) (step : IntakeRecord ι) : Prop :=
  ∃ i fate report, step.request = .party i fate ∧ step.after.party i = .finished (.accepted report) ∧
    step.before.party i ≠ .finished (.accepted report) ∧ anchorOf report = some taskId

/-- What a call has read of the recovery of which task. -/
def IntakePhase.seen : IntakePhase → Option (String × Option DelegationRecovery)
  | .recording taskId seen _ | .clearing taskId seen _ => some (taskId, seen)
  | .persisting report seen _ | .recoveringActive report seen | .recoveringBundle report seen
  | .loaded report seen _ _ => (anchorOf report).map fun taskId => (taskId, seen)
  | _ => none

/-- The step finds the recovery its call has read. -/
def Current (step : IntakeRecord ι) : Prop :=
  match step.request with
  | .outside _ => False
  | .party i _ =>
    ∀ taskId seen, (step.before.party i).seen = some (taskId, seen) → step.before.value.recovery taskId = seen

end

/-! ## Recoveries -/

variable {existing : Option DelegationRecovery} {scope now : String}

theorem malformed_counts {next : DelegationRecovery}
    (counted : nextDelegationRecoveryForMalformed existing scope now = some next) :
    next.empty_or_malformed_count = (if diagnosed existing then 1 else countOf existing + 1) ∧
      next.inline_diagnosis_evidence = false ∧
      (diagnosed existing = false → 0 < countOf existing → next.narrower_retry_count = 1) := by
  unfold nextDelegationRecoveryForMalformed at counted
  split at counted
  · cases counted
  next unblocked =>
    cases existing with
    | none =>
      cases counted
      exact ⟨rfl, rfl, fun _ positive => absurd positive (by simp [countOf])⟩
    | some recovery =>
      dsimp only at counted
      have bounded := recovery.narrower_le_count
      simp only [delegationRecoveryBlocked, Bool.and_eq_true, decide_eq_true_eq, Bool.not_eq_true'] at unblocked
      cases resolved : recovery.inline_diagnosis_evidence with
      | true =>
        simp only [resolved, if_true, Option.some.injEq] at counted
        subst counted
        exact ⟨by simp [diagnosed, resolved, DelegationRecovery.first], rfl,
          fun undiagnosed => absurd undiagnosed (by simp [diagnosed, resolved])⟩
      | false =>
        have unretried : recovery.narrower_retry_count = 0 := by
          by_contra retried
          exact unblocked ⟨Nat.pos_of_ne_zero retried, resolved⟩
        simp only [resolved, Bool.false_eq_true, if_false] at counted
        split at counted
        next incident =>
          cases counted
          exact ⟨by simp [diagnosed, resolved, countOf], rfl, fun _ _ => rfl⟩
        next clean =>
          cases counted
          have zero : recovery.empty_or_malformed_count = 0 := by simpa [unretried] using clean
          refine ⟨by simp [diagnosed, resolved, countOf, zero, DelegationRecovery.first], rfl, fun _ positive => ?_⟩
          simp [countOf, zero] at positive

theorem malformed_blocked :
    nextDelegationRecoveryForMalformed existing scope now = none ↔ delegationRecoveryBlocked existing = true := by
  unfold nextDelegationRecoveryForMalformed
  split
  next blocked => simp [blocked]
  next unblocked =>
    cases existing with
    | none => simp [delegationRecoveryBlocked]
    | some recovery =>
      dsimp only
      split
      · simpa using unblocked
      · split <;> simpa using unblocked

theorem valid_leaves
    {next : DelegationRecovery} (left : nextDelegationRecoveryForValid existing scope now = some next) :
    existing = some next ∨ (next.empty_or_malformed_count = 0 ∧ next.narrower_retry_count = 0) := by
  unfold nextDelegationRecoveryForValid at left
  split at left
  · cases left
  next recovery =>
    split at left
    · exact .inl left
    split at left
    · exact .inl left
    split at left
    · cases left
      exact .inr ⟨rfl, rfl⟩
    · exact .inl left

theorem diagnosis_clears {errorRecovery : Option ErrorRecovery} {now : String} {cleared : DelegationRecovery}
    (clears : maybeClearBlockedDelegationRecovery existing errorRecovery now = some cleared) :
    isSemanticInlineDiagnosisEvidence errorRecovery = true ∧ delegationRecoveryBlocked existing = true ∧
      countOf existing = cleared.empty_or_malformed_count ∧ cleared.inline_diagnosis_evidence = true := by
  unfold maybeClearBlockedDelegationRecovery at clears
  split at clears
  next blocked =>
    split at clears
    next semantic =>
      cases existing with
      | none => cases clears
      | some recovery =>
        cases clears
        exact ⟨semantic, blocked, rfl, rfl⟩
    next => cases clears
  next => cases clears

/-! ## What a write does to the recoveries -/

def taskRecoveries (change : IntakeProjection) : List (String × Option DelegationRecovery) :=
  change.tasks.map fun task => (task.id, task.delegation_recovery)

theorem recoveryIn_eq (change : IntakeProjection) (taskId : String) :
    recoveryIn change taskId = ((taskRecoveries change).find? fun entry => entry.1 = taskId).bind Prod.snd := by
  simp only [recoveryIn, findTask, taskRecoveries, List.find?_map, Function.comp_def]
  cases change.tasks.find? fun task => decide (task.id = taskId) with
  | none => rfl
  | some task => rfl

theorem recoveryIn_same {left right : IntakeProjection} (same : taskRecoveries left = taskRecoveries right)
    (taskId : String) : recoveryIn left taskId = recoveryIn right taskId := by
  rw [recoveryIn_eq, recoveryIn_eq, same]

variable {update : IntakeTask → IntakeTask}

section

variable (change : IntakeProjection) (taskId : String) (named : ∀ task, (update task).id = task.id) (other : String)
include change taskId named other

theorem findTask_mapTask : findTask (change.mapTask taskId update) other =
      (findTask change other).map fun task => if other = taskId then update task else task := by
  have kept : ∀ task : IntakeTask, (if task.id = taskId then update task else task).id = task.id := by
    intro task
    split
    · exact named task
    · rfl
  simp only [findTask, IntakeProjection.mapTask, List.find?_map, Function.comp_def, kept]
  cases found : change.tasks.find? fun task => decide (task.id = other) with
  | none => rfl
  | some task =>
    have named' : task.id = other := by simpa using List.find?_some found
    simp [named']

theorem recoveryIn_mapTask : recoveryIn (change.mapTask taskId update) other =
      (findTask change other).bind fun task =>
        (if other = taskId then update task else task).delegation_recovery := by
  rw [recoveryIn, findTask_mapTask change taskId named, Option.bind_map]
  rfl

end

theorem recoveryIn_record (change : IntakeProjection) (taskId other : String) (recovery : DelegationRecovery) :
    recoveryIn (recordRecovery taskId recovery change) other =
      if other = taskId then (findTask change other).map fun _ => recovery else recoveryIn change other := by
  have named : ∀ task : IntakeTask, ({ task with delegation_recovery := some recovery } : IntakeTask).id = task.id :=
    fun _ => rfl
  rw [recordRecovery, recoveryIn_mapTask change taskId named]
  split
  next same =>
    cases findTask change other <;> simp
  next differs => simp [recoveryIn]

theorem recoveryIn_append (report : IntakeReport) (recovery : Option DelegationRecovery) (change : IntakeProjection)
    (other : String) : recoveryIn (appendReport report recovery change) other =
      match anchorOf report, recovery with
      | some taskId, some recovery =>
        if other = taskId then (findTask change other).map fun _ => recovery else recoveryIn change other
      | _, _ => recoveryIn change other := by
  unfold anchorOf
  cases anchored : (reportTaskId report).filter (· ≠ "") with
  | none =>
    simp only [appendReport, anchored]
    rfl
  | some taskId =>
    cases recovery with
    | none =>
      simp only [appendReport, anchored]
      rfl
    | some recovery =>
      simp only [appendReport, anchored]
      rw [recoveryIn_record]
      rfl

theorem updateFirst_recoveries (taskId : String) (report : IntakeReport) (tasks : List IntakeTask) :
    (updateFirst taskId (IntakeTask.withReport report) tasks).map (fun task => (task.id, task.delegation_recovery)) =
      tasks.map fun task => (task.id, task.delegation_recovery) := by
  induction tasks with
  | nil => rfl
  | cons task rest ih =>
    unfold updateFirst
    split
    · rfl
    · rw [List.map_cons, ih]
      rfl

variable {base next : IntakeProjection}

theorem recoverReport_recoveries {report : IntakeReport}
    (added : recoverReport report base = .added next) : taskRecoveries next = taskRecoveries base := by
  unfold recoverReport at added
  split at added
  · split at added
    · cases added
    · split at added
      · cases added
      · cases added
        exact updateFirst_recoveries _ report base.tasks
  · split at added
    · cases added
    · cases added
      rfl

theorem mutation_recoveries {report : IntakeReport}
    (mutated : (recoverReport report base).mutation base = some next) : taskRecoveries next = taskRecoveries base := by
  cases recovered : recoverReport report base with
  | noTask =>
    rw [recovered] at mutated
    cases mutated
  | present =>
    rw [recovered] at mutated
    cases mutated
    rfl
  | added other =>
    rw [recovered] at mutated
    cases mutated
    exact recoverReport_recoveries recovered

variable {change : IntakeProjection}

theorem recovery_active (store : ReportStore) (stored : store.active = some change)
    (taskId : String) : store.recovery taskId = recoveryIn change taskId := by
  obtain ⟨status, presented⟩ := view_active stored
  rw [ReportStore.recovery, presented]
  rfl

theorem recovery_bundle (store : ReportStore) {copy next : IntakeProjection} (stored : store.bundle = some copy)
    (same : taskRecoveries next = taskRecoveries copy) (taskId : String) :
    ({ store with bundle := some next } : ReportStore).recovery taskId = store.recovery taskId := by
  cases active : store.active with
  | some change =>
    rw [recovery_active store active, recovery_active ⟨some change, some next, store.closed⟩ rfl]
  | none =>
    rw [ReportStore.recovery, ReportStore.recovery, view_bundle store active stored,
      view_bundle ⟨none, some next, store.closed⟩ rfl rfl]
    exact recoveryIn_same same taskId

/-! ## Phases -/

/-- The change, as it is presented, has the task. -/
def ReportStore.HasTask (store : ReportStore) (taskId : String) : Prop :=
  (store.view.bind (findTask · taskId)).isSome = true

/-- What a call has in hand comes from what it has read. -/
def PhaseRead (store : ReportStore) : IntakePhase → Prop
  | .recording taskId seen next =>
    store.HasTask taskId ∧ ∃ scope now, nextDelegationRecoveryForMalformed seen scope now = some next
  | .persisting _ seen recovery =>
    delegationRecoveryBlocked seen = false ∧
      ∀ next, recovery = some next → next.empty_or_malformed_count = 0 ∧ next.narrower_retry_count = 0
  | .recovering _ _ seen | .recoveringActive _ seen | .recoveringBundle _ seen =>
    delegationRecoveryBlocked seen = false
  | .loaded _ seen _ next =>
    delegationRecoveryBlocked seen = false ∧ store.bundle.map taskRecoveries = some (taskRecoveries next)
  | .clearing _ seen cleared =>
    ∀ next, cleared = some next →
      ∃ errorRecovery now, maybeClearBlockedDelegationRecovery seen errorRecovery now = some next
  | _ => True

/-- What no call takes away. -/
structure Steady (before after : ReportStore) : Prop where
  tasks : ∀ taskId, before.HasTask taskId → after.HasTask taskId
  bundle : after.bundle.map taskRecoveries = before.bundle.map taskRecoveries

theorem Steady.refl (store : ReportStore) : Steady store store := ⟨fun _ => id, rfl⟩

theorem PhaseRead.steady {before after : ReportStore} {phase : IntakePhase} (read : PhaseRead before phase)
    (steady : Steady before after) : PhaseRead after phase := by
  cases phase with
  | recording taskId seen next => exact ⟨steady.tasks taskId read.1, read.2⟩
  | loaded report seen copy next => exact ⟨read.1, steady.bundle.trans read.2⟩
  | _ => exact read

variable {store : ReportStore}

theorem hasTask_active (stored : store.active = some change)
    (taskId : String) : store.HasTask taskId ↔ (findTask change taskId).isSome = true := by
  obtain ⟨status, presented⟩ := view_active stored
  rw [ReportStore.HasTask, presented]
  rfl

theorem findTask_recoveries (change : IntakeProjection) (taskId : String) :
    (findTask change taskId).isSome = ((taskRecoveries change).find? fun entry => entry.1 = taskId).isSome := by
  simp [findTask, taskRecoveries, List.find?_map, Function.comp_def]

theorem Steady.commit {latest next : IntakeProjection} (stored : store.active = some latest)
    (kept : ∀ taskId, (findTask latest taskId).isSome = true → (findTask next taskId).isSome = true) :
    Steady store { store with active := some next } where
  tasks taskId had := (hasTask_active rfl taskId).mpr (kept taskId ((hasTask_active stored taskId).mp had))
  bundle := rfl

theorem kept_mapTask {taskId : String} (named : ∀ task, (update task).id = task.id) (other : String) :
    (findTask change other).isSome = true → (findTask (change.mapTask taskId update) other).isSome = true := by
  rw [findTask_mapTask change taskId named]
  simp

theorem kept_append (report : IntakeReport) (recovery : Option DelegationRecovery) (change : IntakeProjection)
    (other : String) : (findTask change other).isSome = true →
      (findTask (appendReport report recovery change) other).isSome = true := by
  cases anchored : (reportTaskId report).filter (· ≠ "") with
  | none =>
    simp only [appendReport, anchored]
    exact id
  | some taskId =>
    cases recovery with
    | none =>
      simp only [appendReport, anchored]
      exact id
    | some recovery =>
      simp only [appendReport, anchored]
      have named : ∀ task : IntakeTask,
          ({ task with delegation_recovery := some recovery } : IntakeTask).id = task.id := fun _ => rfl
      exact kept_mapTask named other

theorem kept_recovered (same : taskRecoveries next = taskRecoveries base)
    (other : String) : (findTask base other).isSome = true → (findTask next other).isSome = true := by
  rw [findTask_recoveries, findTask_recoveries, same]
  exact id

theorem hasTask_bundle {copy next : IntakeProjection} (stored : store.bundle = some copy)
    (same : taskRecoveries next = taskRecoveries copy) : Steady store { store with bundle := some next } where
  tasks taskId had := by
    cases active : store.active with
    | some change =>
      rw [hasTask_active active] at had
      exact (hasTask_active rfl taskId).mpr had
    | none =>
      rw [ReportStore.HasTask, view_bundle store active stored] at had
      rw [ReportStore.HasTask, view_bundle ⟨none, some next, store.closed⟩ rfl rfl]
      exact kept_recovered same taskId had
  bundle := by simp [stored, same]

theorem submitDecision_read (call : SubmitCall) (store : ReportStore) :
    PhaseRead store (submitDecision call store.view).phase := by
  unfold submitDecision
  cases call.payload with
  | malformed identity =>
    dsimp only
    split
    · trivial
    · unfold malformedDecision
      split
      · trivial
      next taskId agent _ =>
        split
        · trivial
        next task found =>
          split
          · trivial
          next next counted => exact ⟨by rw [ReportStore.HasTask, found]; rfl, _, _, counted⟩
  | parsed report =>
    dsimp only
    cases presented : store.view with
    | none => trivial
    | some change =>
      dsimp only
      split
      · trivial
      split
      · trivial
      split
      · trivial
      split
      · trivial
      next unblocked =>
        split
        · trivial
        split
        · exact Bool.eq_false_iff.mpr unblocked
        · refine ⟨Bool.eq_false_iff.mpr unblocked, fun next given => ?_⟩
          split at given
          · cases given
          next moved =>
            obtain ⟨taskId, _, left⟩ := Option.bind_eq_some_iff.mp given
            rcases valid_leaves left with kept | reset
            · exact absurd (given.trans kept.symm) moved
            · exact reset

theorem submitDecision_unaccepted (call : SubmitCall) (change : Option IntakeProjection) (report : IntakeReport) :
    submitDecision call change ≠ .answer (.accepted report) := by
  unfold submitDecision
  cases call.payload with
  | malformed identity =>
    dsimp only
    split
    · nofun
    · unfold malformedDecision
      split
      · nofun
      · split
        · nofun
        · split <;> nofun
  | parsed report' =>
    cases change with
    | none => nofun
    | some change =>
      dsimp only
      split
      · nofun
      split
      · nofun
      split
      · nofun
      split
      · nofun
      split
      · nofun
      split <;> nofun

theorem phase_finished {decision : SubmitDecision} {answer : IntakeAnswer}
    (answered : decision.phase = .finished answer) : decision = .answer answer := by
  cases decision <;> cases answered
  rfl

/-! ## Steps -/

section

variable {ι : Type} [DecidableEq ι] {calls : ι → IntakeCall}

omit [DecidableEq ι] in
theorem intakeAdvance_read (calls : ι → IntakeCall) (i : ι) (fate : MutationFate) {phase : IntakePhase}
    {store : ReportStore} (read : PhaseRead store phase) : Steady store (intakeAdvance calls i fate phase store).2 ∧
      PhaseRead (intakeAdvance calls i fate phase store).2 (intakeAdvance calls i fate phase store).1 := by
  cases phase with
  | idle =>
    unfold intakeAdvance
    dsimp only
    split
    next call _ => exact ⟨.refl store, submitDecision_read call store⟩
    next call _ =>
      split
      · exact ⟨.refl store, trivial⟩
      · exact ⟨.refl store, fun next clears => ⟨_, _, clears⟩⟩
  | recording taskId seen next =>
    unfold intakeAdvance
    dsimp only
    rcases commit_cases store fate (fun latest => some (recordRecovery taskId next latest)) _ with
      unwritten | ⟨latest, after, told, stored, mutated, _, written, _⟩
    · rw [unwritten]
      exact ⟨.refl store, trivial⟩
    · rw [written]
      cases mutated
      exact ⟨.commit stored (kept_mapTask fun _ => rfl), trivial⟩
  | persisting report seen recovery =>
    unfold intakeAdvance
    dsimp only
    rcases commit_cases store fate (fun latest => some (appendReport report recovery latest)) _ with
      unwritten | ⟨latest, after, told, stored, mutated, _, written, _⟩
    · rw [unwritten]
      exact ⟨.refl store, trivial⟩
    · rw [written]
      cases mutated
      exact ⟨.commit stored (kept_append report recovery latest), trivial⟩
  | recovering report status seen =>
    unfold intakeAdvance
    dsimp only
    split <;> exact ⟨.refl store, read⟩
  | recoveringActive report seen =>
    unfold intakeAdvance
    dsimp only
    rcases commit_cases store fate (fun latest => (recoverReport report latest).mutation latest) _ with
      unwritten | ⟨latest, after, told, stored, mutated, _, written, _⟩
    · rw [unwritten]
      exact ⟨.refl store, trivial⟩
    · rw [written]
      exact ⟨.commit stored (kept_recovered (mutation_recoveries mutated)), trivial⟩
  | recoveringBundle report seen =>
    unfold intakeAdvance
    dsimp only
    cases stored : store.bundle with
    | none => exact ⟨.refl store, trivial⟩
    | some copy =>
      dsimp only
      cases recovered : recoverReport report copy with
      | noTask => exact ⟨.refl store, trivial⟩
      | present => exact ⟨.refl store, trivial⟩
      | added next =>
        refine ⟨.refl store, read, ?_⟩
        rw [stored, recoverReport_recoveries recovered]
        rfl
  | loaded report seen copy next =>
    obtain ⟨stored, bundled, same⟩ := Option.map_eq_some_iff.mp read.2
    unfold intakeAdvance
    cases fate with
    | untouched => exact ⟨.refl store, trivial⟩
    | unreported => exact ⟨hasTask_bundle bundled same.symm, trivial⟩
    | verified => exact ⟨hasTask_bundle bundled same.symm, trivial⟩
  | clearing taskId seen cleared =>
    unfold intakeAdvance
    dsimp only
    rcases commit_cases store fate (fun latest => some (latest.mapTask taskId fun task =>
        { task with delegation_recovery := cleared.or task.delegation_recovery })) _ with
      unwritten | ⟨latest, after, told, stored, mutated, _, written, _⟩
    · rw [unwritten]
      exact ⟨.refl store, trivial⟩
    · rw [written]
      cases mutated
      refine ⟨.commit stored (kept_mapTask fun _ => rfl), ?_⟩
      split <;> trivial
  | finished answer => exact ⟨.refl store, read⟩

inductive RecoveryMoved (taskId : String) (step : IntakeRecord ι) : Prop where
  | kept (same : step.after.value.recovery taskId = step.before.value.recovery taskId)
  | counted (recorded : RecordsMalformed taskId step) {scope now : String} {next : DelegationRecovery}
      (counts : nextDelegationRecoveryForMalformed (step.before.value.recovery taskId) scope now = some next)
      (after : step.after.value.recovery taskId = some next)
  | resolved (stored : StoresValid taskId step) {next : DelegationRecovery}
      (after : step.after.value.recovery taskId = some next) (reset : next.empty_or_malformed_count = 0)
  | diagnosed (recorded : RecordsDiagnosis taskId step) {errorRecovery : Option ErrorRecovery} {now : String}
      {next : DelegationRecovery}
      (clears : maybeClearBlockedDelegationRecovery (step.before.value.recovery taskId) errorRecovery now = some next)
      (after : step.after.value.recovery taskId = some next)

variable {taskId : String}

variable {fate : MutationFate}

theorem recording_counts (calls : ι → IntakeCall) {i : ι} {race : IntakeRace ι}
    {seen : Option DelegationRecovery} {next : DelegationRecovery}
    (reached : race.party i = .recording taskId seen next) (read : PhaseRead race.value (race.party i))
    (found : race.value.recovery taskId = seen) (began : fate ≠ .untouched)
    (active : race.value.active.isSome = true) :
    (∃ scope now, nextDelegationRecoveryForMalformed (race.value.recovery taskId) scope now = some next) ∧
      (Foundation.recordOf (intakeStep calls) (.party i fate) race).after.value.recovery taskId = some next := by
  obtain ⟨latest, stored⟩ := Option.isSome_iff_exists.mp active
  rw [reached] at read
  obtain ⟨has, counts⟩ := read
  refine ⟨by rw [found]; exact counts, ?_⟩
  have moved : (Foundation.recordOf (intakeStep calls) (.party i fate) race).after.value =
      (intakeAdvance calls i fate (race.party i) race.value).2 := rfl
  rw [reached] at moved
  unfold intakeAdvance at moved
  dsimp only at moved
  have mutated : (fun latest => some (recordRecovery taskId next latest)) latest =
      some (recordRecovery taskId next latest) := rfl
  rw [commit_writes _ began stored mutated] at moved
  obtain ⟨held, inside⟩ := Option.isSome_iff_exists.mp ((hasTask_active stored taskId).mp has)
  rw [moved, recovery_active _ rfl, recoveryIn_record, if_pos rfl, inside]
  rfl

theorem recovery_moved {i : ι} {race : IntakeRace ι}
    (read : PhaseRead race.value (race.party i))
    (current : Current (Foundation.recordOf (intakeStep calls) (.party i fate) race)) (taskId : String) :
    RecoveryMoved taskId (Foundation.recordOf (intakeStep calls) (.party i fate) race) := by
  have moved : (Foundation.recordOf (intakeStep calls) (.party i fate) race).after.value =
      (intakeAdvance calls i fate (race.party i) race.value).2 := rfl
  have seen := current
  simp only [Current, recordOf_request, recordOf_before] at seen
  cases reached : race.party i with
  | idle =>
    refine .kept ?_
    rw [moved, reached]
    unfold intakeAdvance
    dsimp only
    split
    · rfl
    · split <;> rfl
  | recording task before next =>
    rw [reached] at seen moved
    have found : race.value.recovery task = before := seen task before rfl
    unfold intakeAdvance at moved
    dsimp only at moved
    rcases commit_cases race.value fate (fun latest => some (recordRecovery task next latest)) _ with
      unwritten | ⟨latest, after, told, stored, mutated, began, written, _⟩
    · rw [unwritten] at moved
      exact .kept (by rw [moved]; rfl)
    · rw [written] at moved
      cases mutated
      by_cases same : taskId = task
      · subst same
        have active : race.value.active.isSome = true := by rw [stored]; rfl
        obtain ⟨⟨scope, now, counts⟩, after⟩ :=
          recording_counts calls reached read found began active
        exact .counted ⟨i, fate, before, next, rfl, reached, began, active⟩ counts after
      · refine .kept ?_
        rw [moved, recovery_active _ rfl, recoveryIn_record, if_neg same, recordOf_before, recovery_active _ stored]
  | persisting report before recovery =>
    rw [reached] at read moved
    unfold intakeAdvance at moved
    dsimp only at moved
    rcases commit_cases race.value fate (fun latest => some (appendReport report recovery latest)) _ with
      unwritten | ⟨latest, after, told, stored, mutated, began, written, _⟩
    · rw [unwritten] at moved
      exact .kept (by rw [moved]; rfl)
    · rw [written] at moved
      cases mutated
      have after : (Foundation.recordOf (intakeStep calls) (.party i fate) race).after.value.recovery taskId =
          recoveryIn (appendReport report recovery latest) taskId := by
        rw [moved, recovery_active _ rfl]
      rw [recoveryIn_append] at after
      have before' : race.value.recovery taskId = recoveryIn latest taskId := recovery_active _ stored taskId
      cases anchored : anchorOf report with
      | none =>
        rw [anchored] at after
        exact .kept (after.trans before'.symm)
      | some task =>
        cases resolved : recovery with
        | none =>
          rw [anchored, resolved] at after
          exact .kept (after.trans before'.symm)
        | some next =>
          rw [anchored, resolved] at after
          dsimp only at after
          by_cases same : taskId = task
          · subst same
            rw [if_pos rfl] at after
            cases inside : findTask latest taskId with
            | none =>
              rw [inside] at after
              refine .kept (after.trans ?_)
              rw [recordOf_before, before', recoveryIn, inside]
              rfl
            | some held =>
              rw [inside] at after
              have active : race.value.active.isSome = true := by rw [stored]; rfl
              exact .resolved ⟨i, fate, report, before, recovery, rfl, reached, anchored, began, active⟩ after
                (read.2 next resolved).1
          · rw [if_neg same] at after
            exact .kept (after.trans before'.symm)
  | recovering report status before =>
    refine .kept ?_
    rw [moved, reached]
    rfl
  | recoveringActive report before =>
    rw [reached] at moved
    unfold intakeAdvance at moved
    dsimp only at moved
    rcases commit_cases race.value fate (fun latest => (recoverReport report latest).mutation latest) _ with
      unwritten | ⟨latest, after, told, stored, mutated, _, written, _⟩
    · rw [unwritten] at moved
      exact .kept (by rw [moved]; rfl)
    · rw [written] at moved
      refine .kept ?_
      rw [moved, recovery_active _ rfl, recordOf_before, recovery_active _ stored]
      exact recoveryIn_same (mutation_recoveries mutated) taskId
  | recoveringBundle report before =>
    refine .kept ?_
    rw [moved, reached]
    unfold intakeAdvance
    dsimp only
    split
    · rfl
    · split <;> rfl
  | loaded report before copy next =>
    rw [reached] at read
    obtain ⟨stored, bundled, same⟩ := Option.map_eq_some_iff.mp read.2
    refine .kept ?_
    rw [moved, reached]
    unfold intakeAdvance
    cases fate with
    | untouched => rfl
    | unreported => exact recovery_bundle race.value bundled same.symm taskId
    | verified => exact recovery_bundle race.value bundled same.symm taskId
  | clearing task before cleared =>
    rw [reached] at read seen moved
    have found : race.value.recovery task = before := seen task before rfl
    unfold intakeAdvance at moved
    dsimp only at moved
    rcases commit_cases race.value fate (fun latest => some (latest.mapTask task fun task =>
        { task with delegation_recovery := cleared.or task.delegation_recovery })) _ with
      unwritten | ⟨latest, after, told, stored, mutated, began, written, _⟩
    · rw [unwritten] at moved
      exact .kept (by rw [moved]; rfl)
    · rw [written] at moved
      cases mutated
      have named : ∀ task : IntakeTask,
          ({ task with delegation_recovery := cleared.or task.delegation_recovery } : IntakeTask).id = task.id :=
        fun _ => rfl
      have after : (Foundation.recordOf (intakeStep calls) (.party i fate) race).after.value.recovery taskId =
          (findTask latest taskId).bind fun held => (if taskId = task then
            { held with delegation_recovery := cleared.or held.delegation_recovery } else held).delegation_recovery := by
        rw [moved, recovery_active _ rfl, recoveryIn_mapTask latest task named]
      have before' : race.value.recovery taskId = recoveryIn latest taskId := recovery_active _ stored taskId
      rw [recoveryIn] at before'
      cases inside : findTask latest taskId with
      | none =>
        rw [inside] at after before'
        exact .kept (after.trans before'.symm)
      | some held =>
        rw [inside] at after before'
        by_cases same : taskId = task
        · subst same
          cases cleared with
          | none =>
            refine .kept (after.trans ?_)
            simpa using before'.symm
          | some next =>
            have active : race.value.active.isSome = true := by rw [stored]; rfl
            obtain ⟨errorRecovery, now, clears⟩ := read next rfl
            rw [← found] at clears
            refine .diagnosed ⟨i, fate, before, next, rfl, reached, began, active⟩ clears ?_
            simpa using after
        · refine .kept (after.trans ?_)
          simpa [same] using before'.symm
  | finished answer =>
    refine .kept ?_
    rw [moved, reached]
    rfl

/-- A step of a call that has in hand what it has read, and finds the recovery it has read. -/
structure SoundStep (calls : ι → IntakeCall) (step : IntakeRecord ι) : Prop where
  served : step = Foundation.recordOf (intakeStep calls) step.request step.before
  read : ∀ i, PhaseRead step.before.value (step.before.party i)
  current : Current step

variable {step : IntakeRecord ι}

theorem SoundStep.moved (sound : SoundStep calls step) (taskId : String) : RecoveryMoved taskId step := by
  have served := sound.served
  have current := sound.current
  cases request : step.request with
  | outside event =>
    simp only [Current, request] at current
  | party i fate =>
    rw [request] at served
    rw [served] at current ⊢
    exact recovery_moved (sound.read i) current taskId

theorem SoundStep.counts (sound : SoundStep calls step) (recorded : RecordsMalformed taskId step) : ∃ scope now next,
      nextDelegationRecoveryForMalformed (step.before.value.recovery taskId) scope now = some next ∧
      step.after.value.recovery taskId = some next := by
  obtain ⟨i, fate, seen, next, request, reached, began, active⟩ := recorded
  have current := sound.current
  simp only [Current, request] at current
  have found : step.before.value.recovery taskId = seen := current taskId seen (by rw [reached]; rfl)
  obtain ⟨⟨scope, now, counts⟩, after⟩ := recording_counts calls reached (sound.read i) found began active
  refine ⟨scope, now, next, counts, ?_⟩
  rw [sound.served, request]
  exact after

theorem SoundStep.unblocked_of_stores (sound : SoundStep calls step)
    (stores : StoresValid taskId step) : delegationRecoveryBlocked (step.before.value.recovery taskId) = false := by
  obtain ⟨i, fate, report, seen, recovery, request, reached, anchored, _⟩ := stores
  have current := sound.current
  simp only [Current, request] at current
  have read := sound.read i
  rw [reached] at read
  rw [current taskId seen (by rw [reached]; simp [IntakePhase.seen, anchored])]
  exact read.1

omit [DecidableEq ι] in
theorem accepted_read {i : ι} {phase : IntakePhase} {store : ReportStore} {report : IntakeReport}
    (accepted : (intakeAdvance calls i fate phase store).1 = .finished (.accepted report))
    (unaccepted : phase ≠ .finished (.accepted report)) (read : PhaseRead store phase) :
    ∃ seen, phase.seen = (anchorOf report).map (·, seen) ∧ delegationRecoveryBlocked seen = false := by
  have told : ∀ {told : Bool} {other : IntakeReport}, acceptedIf told other = .finished (.accepted report) →
      other = report := by
    intro told other same
    cases told <;> cases same
    rfl
  cases phase with
  | idle =>
    unfold intakeAdvance at accepted
    dsimp only at accepted
    split at accepted
    next call _ => exact absurd (phase_finished accepted) (submitDecision_unaccepted call store.view report)
    next call _ => split at accepted <;> cases accepted
  | recording task seen next => cases accepted
  | persisting other seen recovery =>
    cases told accepted
    exact ⟨seen, rfl, read.1⟩
  | recovering other status seen =>
    unfold intakeAdvance at accepted
    dsimp only at accepted
    split at accepted <;> cases accepted
  | recoveringActive other seen =>
    cases told accepted
    exact ⟨seen, rfl, read⟩
  | recoveringBundle other seen =>
    unfold intakeAdvance at accepted
    dsimp only at accepted
    split at accepted
    · cases accepted
    · split at accepted
      · cases accepted
      · cases accepted
        exact ⟨seen, rfl, read⟩
      · cases accepted
  | loaded other seen copy next =>
    unfold intakeAdvance at accepted
    cases fate with
    | untouched => cases accepted
    | unreported => cases accepted
    | verified =>
      cases accepted
      exact ⟨seen, rfl, read.1⟩
  | clearing task seen cleared =>
    unfold intakeAdvance at accepted
    dsimp only at accepted
    split at accepted <;> cases accepted
  | finished answer => exact absurd accepted unaccepted

theorem SoundStep.unblocked_of_accepts (sound : SoundStep calls step)
    (accepts : Accepts taskId step) : delegationRecoveryBlocked (step.before.value.recovery taskId) = false := by
  obtain ⟨i, fate, report, request, accepted, unaccepted, anchored⟩ := accepts
  have current := sound.current
  simp only [Current, request] at current
  have arrived : (intakeAdvance calls i fate (step.before.party i) step.before.value).1 =
      .finished (.accepted report) := by
    rw [← accepted, sound.served, request]
    exact (Shared.moved_self ..).symm
  obtain ⟨seen, same, unblocked⟩ := accepted_read arrived unaccepted (sound.read i)
  rw [current taskId seen (by rw [same, anchored]; rfl)]
  exact unblocked

/-! ## The budget -/

def Incident (taskId : String) (race : IntakeRace ι) : Prop :=
  0 < countOf (race.value.recovery taskId) ∧ diagnosed (race.value.recovery taskId) = false

def BlockedAt (taskId : String) (race : IntakeRace ι) : Prop :=
  delegationRecoveryBlocked (race.value.recovery taskId) = true

section

variable (sound : SoundStep calls step)
include sound

theorem SoundStep.incident (recorded : RecordsMalformed taskId step) : Incident taskId step.after := by
  obtain ⟨scope, now, next, counts, after⟩ := sound.counts recorded
  obtain ⟨counted, undiagnosed, _⟩ := malformed_counts counts
  refine ⟨?_, by rw [after]; exact undiagnosed⟩
  rw [after, countOf, counted]
  split <;> omega

theorem SoundStep.blocked (recorded : RecordsMalformed taskId step) (incident : Incident taskId step.before) :
    BlockedAt taskId step.after := by
  obtain ⟨scope, now, next, counts, after⟩ := sound.counts recorded
  obtain ⟨_, undiagnosed, retried⟩ := malformed_counts counts
  rw [BlockedAt, after]
  simp [delegationRecoveryBlocked, undiagnosed, retried incident.2 incident.1]

theorem SoundStep.keeps_incident (invalid : ¬ StoresValid taskId step) (undiagnosed : ¬ RecordsDiagnosis taskId step)
    (incident : Incident taskId step.before) : Incident taskId step.after := by
  cases sound.moved taskId with
  | kept same => rwa [Incident, same]
  | counted recorded _ _ => exact sound.incident recorded
  | resolved stored _ _ => exact absurd stored invalid
  | diagnosed recorded _ _ => exact absurd recorded undiagnosed

theorem SoundStep.keeps_blocked
    (undiagnosed : ¬ RecordsDiagnosis taskId step) (blocked : BlockedAt taskId step.before) :
    BlockedAt taskId step.after := by
  cases sound.moved taskId with
  | kept same => rwa [BlockedAt, same]
  | counted _ counts _ => exact absurd counts (by rw [malformed_blocked.mpr blocked]; nofun)
  | resolved stored _ _ => exact absurd blocked (by rw [BlockedAt, sound.unblocked_of_stores stored]; nofun)
  | diagnosed recorded _ _ => exact absurd recorded undiagnosed

end

/-- What the budget of a task promises of a run. -/
structure BudgetKept (calls : ι → IntakeCall) (taskId : String) (steps : List (IntakeRecord ι)) : Prop where
  /-- Two records with nothing resolved in between block the task until the diagnosis. -/
  blocks : ∀ front first middle second rest third back,
    steps = front ++ first :: (middle ++ second :: (rest ++ third :: back)) →
    RecordsMalformed taskId first → RecordsMalformed taskId second →
    (∀ step ∈ middle, ¬ StoresValid taskId step ∧ ¬ RecordsDiagnosis taskId step) →
    (∀ step ∈ rest, ¬ RecordsDiagnosis taskId step) → ¬ Accepts taskId third
  /-- A malformed submission goes on to its record, or finds the task blocked. -/
  records : ∀ step ∈ steps, ∀ i fate call agent, step.request = .party i fate → step.before.party i = .idle →
    calls i = .submit call → call.dryRun = false → call.payload = .malformed (some ⟨some taskId, agent⟩) →
    step.before.value.HasTask taskId →
    (∃ seen next, step.after.party i = .recording taskId seen next) ∨
      (BlockedAt taskId step.before ∧ step.after.party i = .finished (.malformed false true))
  /-- A record adds one, and starts again at one after a diagnosis. -/
  counts : ∀ step ∈ steps, RecordsMalformed taskId step → countOf (step.after.value.recovery taskId) =
      if diagnosed (step.before.value.recovery taskId) then 1 else countOf (step.before.value.recovery taskId) + 1
  /-- Only such a record and a valid report that resolves the incident lower the count. -/
  decreases : ∀ step ∈ steps,
    countOf (step.after.value.recovery taskId) < countOf (step.before.value.recovery taskId) →
    (RecordsMalformed taskId step ∧ diagnosed (step.before.value.recovery taskId) = true) ∨
      (StoresValid taskId step ∧ countOf (step.after.value.recovery taskId) = 0)

theorem malformed_goes_on {call : SubmitCall} {store : ReportStore} {agent : Option SubagentAgent}
    (wet : call.dryRun = false) (malformed : call.payload = .malformed (some ⟨some taskId, agent⟩))
    (has : store.HasTask taskId) :
    (∃ seen next, (submitDecision call store.view).phase = .recording taskId seen next) ∨
      (delegationRecoveryBlocked (store.recovery taskId) = true ∧
        (submitDecision call store.view).phase = .finished (.malformed false true)) := by
  obtain ⟨task, found⟩ := Option.isSome_iff_exists.mp has
  have recovery : store.recovery taskId = task.delegation_recovery := by
    obtain ⟨change, presented, inside⟩ := Option.bind_eq_some_iff.mp found
    rw [ReportStore.recovery, presented]
    simp [recoveryIn, inside]
  have decided : submitDecision call store.view =
      malformedDecision (some ⟨some taskId, agent⟩) call.now store.view := by
    simp [submitDecision, malformed, wet]
  rw [decided, recovery]
  simp only [malformedDecision, Option.bind_some, Option.map_some, found]
  cases counts : nextDelegationRecoveryForMalformed task.delegation_recovery (delegationRecoveryScope taskId agent)
      call.now with
  | none => exact .inr ⟨malformed_blocked.mp counts, rfl⟩
  | some next => exact .inl ⟨task.delegation_recovery, next, rfl⟩

theorem sound_steps {store : ReportStore} {moves : List (IntakeMove ι)}
    (current : ∀ step ∈ trace (intakeStep calls) moves ⟨store, fun _ => .idle⟩, Current step) :
    ∀ step ∈ trace (intakeStep calls) moves ⟨store, fun _ => .idle⟩, SoundStep calls step := by
  have held : ∀ step ∈ trace (intakeStep calls) moves ⟨store, fun _ => .idle⟩,
      Held (fun _ => True) (fun _ => PhaseRead) step.before ∧ Held (fun _ => True) (fun _ => PhaseRead) step.after := by
    refine (held_run ?_ ?_ current ⟨trivial, fun _ => trivial⟩).1
    · intro i fate race _ held
      obtain ⟨steady, read⟩ := intakeAdvance_read calls i fate (held.parties i)
      exact held.moved trivial read fun j _ read => read.steady steady
    · intro event race current _
      exact current.elim
  intro step member
  exact ⟨trace_step member, (held step member).1.parties, current step member⟩

/-- The budget of a task is kept in every run of submissions and task updates whose commits find the recovery
    that their calls have read. -/
theorem delegation_budget (calls : ι → IntakeCall) (store : ReportStore) (moves : List (IntakeMove ι))
    (current : ∀ step ∈ trace (intakeStep calls) moves ⟨store, fun _ => .idle⟩, Current step) (taskId : String) :
    BudgetKept calls taskId (trace (intakeStep calls) moves ⟨store, fun _ => .idle⟩) := by
  have sound := sound_steps current
  refine ⟨?_, ?_, ?_, ?_⟩
  · intro front first middle second rest third back split firstRecorded secondRecorded unresolved undiagnosed accepts
    have inside : ∀ step, step ∈ first :: (middle ++ second :: (rest ++ third :: back)) → SoundStep calls step :=
      fun step member => sound step (by rw [split]; exact List.mem_append_right _ member)
    have incident : Incident taskId second.before := by
      refine trace_between split (fun step member incident => ?_) ((inside first (by simp)).incident firstRecorded)
      obtain ⟨invalid, undiagnosed⟩ := unresolved step member
      exact (inside step (by simp [member])).keeps_incident invalid undiagnosed incident
    have blocked : BlockedAt taskId third.before := by
      have split' : trace (intakeStep calls) moves ⟨store, fun _ => .idle⟩ =
          (front ++ first :: middle) ++ second :: (rest ++ third :: back) := by simp [split]
      refine trace_between split' (fun step member blocked => ?_)
        ((inside second (by simp)).blocked secondRecorded incident)
      exact (inside step (by simp [member])).keeps_blocked (undiagnosed step member) blocked
    have unblocked := (inside third (by simp)).unblocked_of_accepts accepts
    rw [BlockedAt, unblocked] at blocked
    cases blocked
  · intro step member i fate call agent request idle submitted wet malformed has
    have arrived : step.after.party i = (submitDecision call step.before.value.view).phase := by
      rw [(sound step member).served, request]
      refine (Shared.moved_self ..).trans ?_
      rw [recordOf_before, idle]
      simp only [submitted]
    rw [arrived]
    exact malformed_goes_on wet malformed has
  · intro step member recorded
    obtain ⟨scope, now, next, counts, after⟩ := (sound step member).counts recorded
    rw [after]
    exact (malformed_counts counts).1
  · intro step member fewer
    cases (sound step member).moved taskId with
    | kept same =>
      rw [same] at fewer
      exact absurd fewer (lt_irrefl _)
    | counted recorded counts after =>
      refine .inl ⟨recorded, ?_⟩
      have counted := (malformed_counts counts).1
      rw [after, countOf, counted] at fewer
      by_contra undiagnosed
      rw [if_neg undiagnosed] at fewer
      omega
    | resolved stored after reset =>
      exact .inr ⟨stored, by rw [after]; exact reset⟩
    | diagnosed recorded clears after =>
      have same := (diagnosis_clears clears).2.2.1
      rw [after, same] at fewer
      exact absurd fewer (lt_irrefl _)

end

/-! ## Fixed runs -/

def malformedTwice : Fin 4 → IntakeCall := fun i => .submit
  { payload := if i = 3 then .parsed engineerReport else .malformed (some ⟨some "tk-1", some .engineer⟩)
    dryRun := false
    now := "2026-01-01T00:00:00.000Z"
    warned := fun report _ => report.content }

def twoRecorded : List (IntakeMove (Fin 4)) :=
  [.party 0 .verified, .party 0 .verified, .party 1 .verified, .party 1 .verified]

/-- A third malformed submission is rejected and not counted. -/
theorem third_uncounted : ¬ ((stateAfter (intakeStep malformedTwice) (twoRecorded ++ [.party 2 .verified])
            ⟨openStore, fun _ => .idle⟩).party 2 = .finished (.malformed false true) →
        countOf ((stateAfter (intakeStep malformedTwice) (twoRecorded ++ [.party 2 .verified])
            ⟨openStore, fun _ => .idle⟩).value.recovery "tk-1") =
          countOf ((stateAfter (intakeStep malformedTwice) twoRecorded
            ⟨openStore, fun _ => .idle⟩).value.recovery "tk-1") + 1) := by
  intro counts
  have counted := counts rfl
  revert counted
  decide

theorem budget_of_two :
    BudgetKept malformedTwice "tk-1" (trace (intakeStep malformedTwice) (twoRecorded ++ [.party 3 .verified])
      ⟨openStore, fun _ => .idle⟩) :=
  delegation_budget malformedTwice openStore (twoRecorded ++ [.party 3 .verified]) (by
    intro step member
    rcases List.mem_cons.mp member with rfl | member
    · intro _ _ seen
      cases seen
    rcases List.mem_cons.mp member with rfl | member
    · intro _ _ seen
      cases seen
      rfl
    rcases List.mem_cons.mp member with rfl | member
    · intro _ _ seen
      cases seen
    rcases List.mem_cons.mp member with rfl | member
    · intro _ _ seen
      cases seen
      rfl
    rcases List.mem_cons.mp member with rfl | member
    · intro _ _ seen
      cases seen
    · cases member) "tk-1"

end Advance.Tools
