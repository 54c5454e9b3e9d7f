import Advance.Storage.ProjectionSerialisability

/-! # Histories of commits

A history is a list of `commitChangeProjection` calls made one after another, with
what each found, answered and left.
-/

namespace Advance.Storage

open Advance.JavaScript Advance.Foundation Advance.Foundation.LockSystem

variable {Client Aux : Type}

/-! ## Histories -/

abbrev HistoryStep (Aux : Type) := Record (Disk Aux) (CommitCall Aux) CallResult

def history (runtime : Runtime) (calls : List (CommitCall Aux)) (start : Disk Aux) : List (HistoryStep Aux) :=
  trace (commitChangeProjection runtime) calls start

def stepPlan (runtime : Runtime) (step : HistoryStep Aux) : Option WritePlan :=
  writtenPlan runtime step.request step.before

def stepWrote (runtime : Runtime) (step : HistoryStep Aux) : Bool := (stepPlan runtime step).isSome

def writeCount (runtime : Runtime) (steps : List (HistoryStep Aux)) : Nat :=
  steps.countP (stepWrote runtime)

def storedTrail (file : FileState) : List AuditView := trailOf (storedDocument file)

def storedStateRevision (file : FileState) : JsNumber := stateRevisionOf (storedDocument file)

theorem history_between (runtime : Runtime) (first second : CommitCall Aux)
    (between : List (CommitCall Aux)) (start : Disk Aux) : history runtime (first :: (between ++ [second])) start =
      [] ++ recordOf (commitChangeProjection runtime) first start ::
        (history runtime between (commitChangeProjection runtime first start).2 ++
          recordOf (commitChangeProjection runtime) second
            (stateAfter (commitChangeProjection runtime) (first :: between) start) :: []) := by
  simp [history, trace, trace_append]

/-! ## Interleavings are histories -/

/-- The call as made when it was let in and got the lock. -/
def CommitCall.holdingLock (call : CommitCall Aux) : CommitCall Aux :=
  { call with events := { call.events with accessible := true, lockAcquired := true } }

theorem lockedProgram_holdingLock (runtime : Runtime) (call : CommitCall Aux) :
    lockedProgram runtime call.holdingLock = lockedProgram runtime call := rfl

variable {runtime : Runtime} {disk : Disk Aux}

theorem commit_holdingLock {call : CommitCall Aux}
    (genuine : Utils.isSyntheticValidationDraftPattern call.options.changeId = false)
    (present : disk.change.isAbsent = false) :
    commitChangeProjection runtime call.holdingLock disk = (lockedProgram runtime call).run disk := by
  rw [← lockedProgram_holdingLock]
  apply commit_locked
  · simp [earlyCheck, genuine, present, CommitCall.holdingLock]
  · rfl

theorem lockedProgram_present {call : CommitCall Aux} (present : disk.change.isAbsent = false) :
    ((lockedProgram runtime call).run disk).2.change.isAbsent = false := by
  rw [lockedProgram_change]
  cases lockedWrite runtime call disk.change with
  | none => exact present
  | some plan => rfl

theorem served_history (runtime : Runtime) {calls : Client → CommitCall Aux} {order : List Client}
    (genuine : ∀ i ∈ order, Utils.isSyntheticValidationDraftPattern (calls i).options.changeId = false)
    {start : Disk Aux} (present : start.change.isAbsent = false) :
    stateAfter (serveLocked (lockClients runtime calls)) order start =
        stateAfter (commitChangeProjection runtime) (order.map fun i => (calls i).holdingLock) start ∧
      (turns runtime calls order start).map (fun turn => (turn.before, turn.response, turn.after)) =
        (history runtime (order.map fun i => (calls i).holdingLock) start).map
          fun step => (step.before, step.response, step.after) := by
  induction order generalizing start with
  | nil => exact ⟨rfl, rfl⟩
  | cons i order ih =>
    have served : serveLocked (lockClients runtime calls) i start =
        commitChangeProjection runtime (calls i).holdingLock start :=
      (commit_holdingLock (genuine i (by simp)) present).symm
    have stillPresent : (commitChangeProjection runtime (calls i).holdingLock start).2.change.isAbsent = false := by
      rw [← served]
      exact lockedProgram_present present
    obtain ⟨state, steps⟩ := ih (fun j member => genuine j (by simp [member])) stillPresent
    refine ⟨?_, ?_⟩
    · rw [List.map_cons, stateAfter_cons, stateAfter_cons, served, state]
    · simp only [turns, history, trace, List.map_cons, recordOf, served]
      rw [← turns, steps, history]

section Interleaving

variable [DecidableEq Client]

variable {system : LockSystem Client (Disk Aux) CallResult}

theorem waiting_genuine {runtime : Runtime} {calls : Client → CommitCall Aux} {start : Disk Aux}
    (reached : Reachable (lockClients runtime calls) start system) : (∀ i, system.client i = .waiting →
        Utils.isSyntheticValidationDraftPattern (calls i).options.changeId = false) ∧
      ∀ i ∈ system.order, Utils.isSyntheticValidationDraftPattern (calls i).options.changeId = false := by
  induction reached with
  | initial =>
    refine ⟨fun _ waiting => ?_, fun _ member => ?_⟩
    · cases waiting
    · cases member
  | @step system next _ steps ih =>
    obtain ⟨waitingGenuine, orderGenuine⟩ := ih
    -- a client that does not become `waiting` in this step was so before
    have unmoved : ∀ (i : Client) (state : ClientState (Disk Aux) CallResult), state ≠ .waiting →
        ∀ j, (system.become i state).client j = .waiting →
          Utils.isSyntheticValidationDraftPattern (calls j).options.changeId = false := by
      intro i state notWaiting j waiting
      by_cases moved : j = i
      · rw [moved, become_self] at waiting
        exact absurd waiting notWaiting
      · rw [become_other system moved] at waiting
        exact waitingGenuine j waiting
    cases steps with
    | refuse i idle refused => exact ⟨unmoved i _ (by simp), orderGenuine⟩
    | enqueue i idle admitted =>
      refine ⟨?_, orderGenuine⟩
      intro j waiting
      by_cases moved : j = i
      · rw [moved]
        simp only [lockClients, lockClient, earlyCheck] at admitted
        split at admitted
        · cases admitted
        next genuine => simpa using genuine
      · rw [become_other system moved] at waiting
        exact waitingGenuine j waiting
    | giveUp i waiting => exact ⟨unmoved i _ (by simp), orderGenuine⟩
    | acquire i waiting free =>
      refine ⟨unmoved i _ (by simp), ?_⟩
      intro j member
      rcases List.mem_append.mp member with earlier | last
      · exact orderGenuine j earlier
      · rw [List.mem_singleton.mp last]
        exact waitingGenuine i waiting
    | act i inside => exact ⟨unmoved i _ (by simp), orderGenuine⟩
    | release i inside => exact ⟨unmoved i _ (by simp), orderGenuine⟩

/-- Any interleaving of calls, seen when nobody holds the lock, has left the change
    as the history of the calls that got the lock, in that order, and has answered
    them as that history does. -/
theorem interleaving_history {runtime : Runtime} {calls : Client → CommitCall Aux} {start : Disk Aux}
    (reached : Reachable (lockClients runtime calls) start system) (free : system.holder = none)
    (present : start.change.isAbsent = false) : system.store = stateAfter (commitChangeProjection runtime)
          (system.order.map fun i => (calls i).holdingLock) start ∧
      (∀ turn ∈ turns runtime calls system.order start, system.client turn.request = .done turn.response) ∧
      (turns runtime calls system.order start).map (fun turn => (turn.before, turn.response, turn.after)) =
        (history runtime (system.order.map fun i => (calls i).holdingLock) start).map
          fun step => (step.before, step.response, step.after) := by
  obtain ⟨_, answered, store⟩ := serialisable reached free
  obtain ⟨state, steps⟩ := served_history runtime (waiting_genuine reached).2 present
  exact ⟨store.trans state, answered, steps⟩

theorem interleaving_history_racing : racingSystem.store = stateAfter (commitChangeProjection .permissive)
    (racingSystem.order.map fun i => (racingCalls i).holdingLock) freshDisk :=
  (interleaving_history (reachable_runSchedule _ _ _) (show racingSystem.holder = none from racingRun.property.1)
    rfl).1

end Interleaving

/-! ## One step -/

section Step

variable {runtime : Runtime} {calls : List (CommitCall Aux)} {start : Disk Aux} {step : HistoryStep Aux}

theorem step_change (member : step ∈ history runtime calls start) : step.after.change =
      match stepPlan runtime step with
      | some plan => .text (runtime.stringify plan.value)
      | none => step.before.change := by
  rw [trace_step member]
  exact commit_change runtime step.request step.before

theorem step_unwritten (member : step ∈ history runtime calls start)
    (unwritten : stepWrote runtime step = false) : step.after.change = step.before.change := by
  rw [step_change member]
  cases planned : stepPlan runtime step with
  | none => rfl
  | some plan => simp [stepWrote, planned] at unwritten

theorem step_written (member : step ∈ history runtime calls start) (written : stepWrote runtime step = true) :
    ∃ latest mutated plan, stepPlan runtime step = some plan ∧
      readLatest runtime step.request step.before.change = .ok latest ∧
      Prepared runtime step.request.options step.request.events.committedAt latest mutated plan ∧
      storedDocument step.after.change = plan.value.toJson := by
  obtain ⟨plan, planned⟩ := Option.isSome_iff_exists.mp written
  obtain ⟨latest, mutated, read, prepared⟩ :=
    lockedWrite_prepared (writtenPlan_some.mp planned).2.2
  refine ⟨latest, mutated, plan, planned, read, prepared, ?_⟩
  rw [step_change member, planned]
  rfl

/-- A call whose mutation and repair parser leave the audit trail as it is. -/
def LeavesTrail (call : CommitCall Aux) : Prop :=
  KeepsTrail call.options ∧ NormalizerKeeps call.options trailOf

theorem step_trail (member : step ∈ history runtime calls start)
    (written : stepWrote runtime step = true) (leaves : LeavesTrail step.request) :
    ∃ newRevision, storedTrail step.after.change =
        BoundedLog.push PROJECTION_COMMIT_MAX_AUDIT_ENTRIES (storedTrail step.before.change)
          (callView step.request.options newRevision) ∧
      storedRevision step.after.change = newRevision := by
  obtain ⟨latest, mutated, plan, _, read, prepared, stored⟩ := step_written member written
  refine ⟨plan.newRevision, ?_, ?_⟩
  · rw [storedTrail, stored, write_trail prepared (readLatest_valid read) leaves.1,
      latest_trail read leaves.2, storedTrail]
  · rw [storedRevision, stored, write_revision prepared, prepared.new, prepared.prior, revisionOf]

theorem step_unseen (member : step ∈ history runtime calls start)
    (written : stepWrote runtime step = true) (leaves : LeavesTrail step.request)
    {operationId : String} (identified : step.request.options.operationKey = some operationId) :
    ∀ view ∈ storedTrail step.before.change, view.operationId ≠ .str operationId := by
  obtain ⟨latest, mutated, plan, _, read, prepared, _⟩ := step_written member written
  have unseen := checkOperation_ok prepared.operation identified
  rw [storedTrail, ← latest_trail read leaves.2]
  intro view found
  obtain ⟨entry, entryMember, rfl⟩ := List.mem_map.mp found
  exact unseen entry entryMember

end Step

/-! ## How long an entry stays in the trail -/

theorem entry_stays {anchor : AuditView} {recent : List AuditView}
    {calls : List (CommitCall Aux)} (leaves : ∀ call ∈ calls, LeavesTrail call)
    (suffix : anchor :: recent <:+ storedTrail disk.change)
    (room : recent.length + writeCount runtime (history runtime calls disk) < PROJECTION_COMMIT_MAX_AUDIT_ENTRIES) :
    (∀ step ∈ history runtime calls disk, anchor ∈ storedTrail step.before.change) ∧
      anchor ∈ storedTrail (stateAfter (commitChangeProjection runtime) calls disk).change := by
  induction calls generalizing disk recent with
  | nil => exact ⟨fun _ member => (nomatch member), suffix.subset (by simp)⟩
  | cons call calls ih =>
    have head : recordOf (commitChangeProjection runtime) call disk ∈
        history runtime (call :: calls) disk := by simp [history, trace]
    have rest : ∀ call ∈ calls, LeavesTrail call := fun c member => leaves c (by simp [member])
    have here : anchor ∈ storedTrail disk.change := suffix.subset (by simp)
    have later : (∀ step ∈ history runtime calls (commitChangeProjection runtime call disk).2,
          anchor ∈ storedTrail step.before.change) ∧
        anchor ∈ storedTrail (stateAfter (commitChangeProjection runtime) calls
          (commitChangeProjection runtime call disk).2).change := by
      cases written : stepWrote runtime (recordOf (commitChangeProjection runtime) call disk) with
      | false =>
        have same : (commitChangeProjection runtime call disk).2.change = disk.change :=
          step_unwritten head written
        have kept : anchor :: recent <:+ storedTrail (commitChangeProjection runtime call disk).2.change := by
          rw [same]
          exact suffix
        refine ih rest kept ?_
        simp only [history, trace, writeCount, List.countP_cons, written] at room ⊢
        simpa using room
      | true =>
        obtain ⟨newRevision, pushed, _⟩ := step_trail head written (leaves call (by simp))
        have counted : writeCount runtime (history runtime (call :: calls) disk) =
            writeCount runtime (history runtime calls (commitChangeProjection runtime call disk).2) + 1 := by
          simp only [history, trace, writeCount, List.countP_cons, written, if_true]
        rw [counted] at room
        have kept : anchor :: (recent ++ [callView call.options newRevision]) <:+
            storedTrail (recordOf (commitChangeProjection runtime) call disk).after.change := by
          rw [pushed]
          exact BoundedLog.suffix_push _ suffix (by rw [List.length_cons]; omega)
        refine ih rest kept ?_
        rw [List.length_append, List.length_singleton]
        omega
    refine ⟨?_, later.2⟩
    intro step member
    rcases List.mem_cons.mp member with rfl | member
    · exact here
    · exact later.1 step member

end Advance.Storage
