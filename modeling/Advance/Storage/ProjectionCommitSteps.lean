import Advance.Foundation.BoundedLog
import Advance.Storage.ChangeProjectionTransaction

/-! # What one projection commit does

The decisions of a call collected in one place, so that no later proof unfolds
the transaction.
-/

namespace Advance.Storage

open Advance.JavaScript Advance.JavaScript.JsVal Advance.Types
open Advance.Foundation

variable {Aux : Type}

theorem Stage.bind_ok {α β : Type} {stage : Stage α} {next : α → Stage β} {result : β} :
    (stage >>= next) = .ok result ↔ ∃ value, stage = .ok value ∧ next value = .ok result := by
  cases stage with
  | error early => simp [bind, Except.bind]
  | ok value => simp [bind, Except.bind]

/-! ## The value of a plan -/

/-- The candidate with the transaction's three fields laid over it. -/
def overlay (candidate : JsVal) (newRevision : JsNumber) (commits : List JsVal) (state : JsVal) : JsVal :=
  ((candidate.set "projection_revision" (.num newRevision)).set "projection_commits"
    (.arr commits)).set "state_revision" state

section

variable (candidate : JsVal) (newRevision : JsNumber) (commits : List JsVal) (state : JsVal)
include candidate newRevision commits state

@[simp] theorem overlay_revision :
    (overlay candidate newRevision commits state).get "projection_revision" = .num newRevision := by
  simp [overlay]

@[simp] theorem overlay_commits :
    (overlay candidate newRevision commits state).get "projection_commits" = .arr commits := by
  simp [overlay]

@[simp] theorem overlay_state : (overlay candidate newRevision commits state).get "state_revision" = state := by
  simp [overlay]

theorem overlay_other {key : String} (notRevision : key ≠ "projection_revision")
    (notCommits : key ≠ "projection_commits") (notState : key ≠ "state_revision") :
    (overlay candidate newRevision commits state).get key = lookup key candidate.spread := by
  simp [overlay, notRevision, notCommits, notState]

end

variable {options : CommitChangeProjectionOptions Aux} {mutated : Mutated}

theorem buildValue_ok {newRevision : JsNumber} {audit value : JsVal}
    (built : buildValue options mutated newRevision audit = .ok value) :
    mutated.candidate.isNullish = false ∧ ∃ priorCommits,
      ((mutated.candidate.get "projection_commits").orElse (.arr [])).iterate = some priorCommits ∧
      value = overlay mutated.candidate newRevision
        (BoundedLog.push PROJECTION_COMMIT_MAX_AUDIT_ENTRIES priorCommits audit)
        ((ofNum options.stateRevision).orElse (mutated.latest.get "state_revision")) := by
  unfold buildValue at built
  split at built
  · cases built
  next defined =>
    split at built
    · cases built
    next priorCommits iterated =>
      cases built
      exact ⟨by simpa using defined, priorCommits, iterated, rfl⟩

theorem buildValue_of {priorCommits : List JsVal} (defined : mutated.candidate.isNullish = false)
    (iterated : ((mutated.candidate.get "projection_commits").orElse (.arr [])).iterate =
      some priorCommits) (newRevision : JsNumber) (audit : JsVal) : buildValue options mutated newRevision audit =
      .ok (overlay mutated.candidate newRevision
        (BoundedLog.push PROJECTION_COMMIT_MAX_AUDIT_ENTRIES priorCommits audit)
        ((ofNum options.stateRevision).orElse (mutated.latest.get "state_revision"))) := by
  simp only [buildValue, defined, iterated, Bool.false_eq_true, if_false]
  rfl

/-! ## Decisions before the write -/

variable {latest : JsVal}

theorem checkOperation_ok (passed : checkOperation options latest = .ok ()) {operationId : String}
    (identified : options.operationKey = some operationId) :
    ∀ entry ∈ auditEntries latest, entry.get "operation_id" ≠ .str operationId := by
  simp only [checkOperation, identified] at passed
  split at passed
  next unseen =>
    intro entry member same
    have notFound := List.find?_eq_none.mp unseen entry member
    simp [same] at notFound
  next =>
    split at passed <;> cases passed

theorem checkExpectedRevision_ok {priorRevision expected : JsNumber}
    (passed : checkExpectedRevision options priorRevision = .ok ())
    (supplied : options.expectedRevision = some expected) : priorRevision = expected := by
  simp only [checkExpectedRevision, supplied] at passed
  split at passed
  · cases passed
  next same => exact not_not.mp same

variable {runtime : Runtime}

theorem checkStateRevision_ok (passed : checkStateRevision runtime options latest = .ok ())
    {stateRevision : JsNumber} (supplied : options.stateRevision = some stateRevision) :
    (latest.get "state_revision").numberD 0 ≤ stateRevision ∧ ∀ operationId, options.operationKey = some operationId →
        stateRevision = (latest.get "state_revision").numberD 0 →
        stateRevisionConflict options latest operationId stateRevision = none := by
  simp only [checkStateRevision, supplied] at passed
  split at passed
  · cases passed
  next notBelow =>
    refine ⟨not_lt.mp notBelow, ?_⟩
    intro operationId identified same
    simp only [identified, same, if_true] at passed
    rw [same]
    split at passed
    next clear => exact clear
    next => cases passed

/-- Everything that was decided before a plan existed, and what the plan holds. -/
structure Prepared (runtime : Runtime) (options : CommitChangeProjectionOptions Aux)
    (committedAt : String) (latest : JsVal) (mutated : Mutated) (plan : WritePlan) : Prop where
  operation : checkOperation options latest = .ok ()
  expected : checkExpectedRevision options plan.priorRevision = .ok ()
  state : checkStateRevision runtime options latest = .ok ()
  mutation : options.mutateLatest latest = .ok mutated
  wipe : checkWipe options mutated = .ok ()
  built : buildValue options mutated plan.newRevision plan.audit = .ok plan.value
  id : checkValueId plan.value = .ok ()
  left : plan.latest = mutated.latest
  audit : plan.audit = auditEntry options plan.priorRevision committedAt
  prior : plan.priorRevision = (latest.get "projection_revision").numberD 0
  new : plan.newRevision = plan.priorRevision + 1

variable {plan : WritePlan}

theorem prepareCommit_ok {committedAt : String}
    (prepared : prepareCommit runtime options committedAt latest = .ok plan) :
    ∃ mutated, Prepared runtime options committedAt latest mutated plan := by
  simp only [prepareCommit, Stage.bind_ok] at prepared
  obtain ⟨_, operation, _, expected, _, state, mutated, mutation, _, wipe, value, built, _, id, planned⟩ := prepared
  cases planned
  have mutation : options.mutateLatest latest = .ok mutated := by
    unfold applyMutation at mutation
    cases applied : options.mutateLatest latest with
    | error error => rw [applied] at mutation; cases mutation
    | ok result => rw [applied] at mutation; cases mutation; rfl
  exact ⟨mutated, operation, expected, state, mutation, wipe, built, id, rfl, rfl, rfl, rfl⟩

theorem prepareCommit_of_prepared {committedAt : String}
    (prepared : Prepared runtime options committedAt latest mutated plan) :
    prepareCommit runtime options committedAt latest = .ok plan := by
  obtain ⟨operation, expected, state, mutation, wipe, built, id, left, audit, prior, new⟩ := prepared
  have applied : applyMutation options latest = .ok mutated := by simp only [applyMutation, mutation]
  simp only [prepareCommit, operation, ← prior, ← new, expected, state, applied, wipe, built, id, bind,
    Except.bind, ← left, ← audit]

/-! ## Reading the latest projection -/

/-- The latest projection a call works from, when the file does not change while
    it reads. -/
def readLatest (runtime : Runtime) (call : CommitCall Aux) (file : FileState) : Stage JsVal := do
  match ← loadLatest runtime call.options file call.events.loadFault with
  | .latest latest => .ok latest
  | .normalize normalize =>
    normalizeLatest runtime call.options normalize file call.events.rawReadFault

/-- The document stored in a file, as the JSON value its text denotes. -/
def storedDocument : FileState → JsVal
  | .text ⟨_, .ok parsed⟩ => parsed
  | _ => .undefined

variable {file : FileState} {fault : Option ReadFault}

theorem readBounded_ok {content : FileText}
    (readable : readBoundedProjectionDocument file fault = .ok content) {raw : JsVal}
    (json : content.json = .ok raw) : storedDocument file = raw := by
  unfold readBoundedProjectionDocument at readable
  split at readable
  · cases readable
  · cases readable
  · split at readable
    · cases readable
    · cases readable
    · split at readable
      · cases readable
      · cases readable
        obtain ⟨bytes, parsed⟩ := content
        simp only at json
        simp [storedDocument, json]

theorem normalizeLatest_ok {normalize : JsVal → Except String JsVal}
    (repaired : normalizeLatest runtime options normalize file fault = .ok latest) :
    ∃ normalized, normalize (storedDocument file) = .ok normalized ∧
      ChangeSchema runtime.fields normalized = .ok latest := by
  simp only [normalizeLatest] at repaired
  split at repaired
  next content readable =>
    cases json : content.json with
    | error error => simp [json, bind, Except.bind, returns] at repaired
    | ok raw =>
      rw [readBounded_ok readable json]
      cases parsed : normalize raw with
      | error error => simp [json, parsed, bind, Except.bind, returns] at repaired
      | ok normalized =>
        cases checked : ChangeSchema runtime.fields normalized with
        | error issues =>
          simp [json, parsed, checked, bind, Except.bind, Except.mapError, returns] at repaired
        | ok change =>
          simp only [json, parsed, checked, bind, Except.bind, Except.mapError, Except.ok.injEq] at repaired
          exact ⟨normalized, rfl, by rw [checked, repaired]⟩
  next => cases repaired

theorem loadLatest_ok {source : LatestRead} (loaded : loadLatest runtime options file fault = .ok source) :
    (∃ latest, source = .latest latest ∧ Loads runtime file latest) ∨
      ∃ normalize, source = .normalize normalize ∧ options.normalizeLatestProjection = some normalize := by
  unfold loadLatest at loaded
  split at loaded
  next latest success =>
    cases loaded
    exact .inl ⟨latest, rfl, (loadChange_ok success).2⟩
  next => cases loaded
  next =>
    split at loaded
    · cases parser : options.normalizeLatestProjection with
      | none => rw [parser] at loaded; cases loaded
      | some normalize =>
        rw [parser] at loaded
        cases loaded
        exact .inr ⟨normalize, rfl, rfl⟩
    · cases loaded

variable {call : CommitCall Aux}

def ReadsLatest (runtime : Runtime) (call : CommitCall Aux) (file : FileState) (latest : JsVal) : Prop :=
  Loads runtime file latest ∨ ∃ normalize normalized, call.options.normalizeLatestProjection = some normalize ∧
    normalize (storedDocument file) = .ok normalized ∧ ChangeSchema runtime.fields normalized = .ok latest

theorem readLatest_ok (read : readLatest runtime call file = .ok latest) : ReadsLatest runtime call file latest := by
  obtain ⟨source, loaded, rest⟩ := Stage.bind_ok.mp read
  rcases loadLatest_ok loaded with ⟨found, rfl, loads⟩ | ⟨normalize, rfl, parser⟩
  · cases rest
    exact .inl loads
  · obtain ⟨normalized, repaired, checked⟩ := normalizeLatest_ok rest
    exact .inr ⟨normalize, normalized, parser, repaired, checked⟩

theorem readLatest_valid (read : readLatest runtime call file = .ok latest) :
    ∃ source, ChangeSchema runtime.fields source = .ok latest := by
  rcases readLatest_ok read with ⟨_, _, _, _, _, checked⟩ | ⟨_, _, _, _, checked⟩
  · exact ⟨_, checked⟩
  · exact ⟨_, checked⟩

/-! ## A call as one step -/

def plannedWrite (runtime : Runtime) (call : CommitCall Aux) (file : FileState) : Stage WritePlan := do
  let latest ← readLatest runtime call file
  prepareCommit runtime call.options call.events.committedAt latest

theorem lockedProgram_run (runtime : Runtime) (call : CommitCall Aux) (disk : Disk Aux) :
    (lockedProgram runtime call).run disk =
      match plannedWrite runtime call disk.change with
      | .error result => (result, disk)
      | .ok plan => (writeProgram runtime call plan).run disk := by
  simp only [lockedProgram, plannedWrite, readLatest, Program.run_look]
  cases loadLatest runtime call.options disk.change call.events.loadFault with
  | error result => rfl
  | ok source =>
    cases source with
    | latest latest =>
      simp only [Stage.thenRun, commitProgram, bind, Except.bind]
      cases prepareCommit runtime call.options call.events.committedAt latest <;> rfl
    | normalize normalize =>
      simp only [Stage.thenRun, Program.run_look, bind, Except.bind]
      cases normalizeLatest runtime call.options normalize disk.change call.events.rawReadFault with
      | error result => rfl
      | ok latest =>
        simp only [Stage.thenRun, commitProgram]
        cases prepareCommit runtime call.options call.events.committedAt latest <;> rfl

theorem lockedProgram_passes {disk passed : Disk Aux} (member : passed ∈ (lockedProgram runtime call).visited disk) :
    passed = disk ∨ ∃ plan, plannedWrite runtime call disk.change = .ok plan ∧
      passed ∈ (writeProgram runtime call plan).visited disk := by
  have prepares : ∀ latest, readLatest runtime call disk.change = .ok latest →
      passed ∈ (commitProgram runtime call latest).visited disk →
      ∃ plan, plannedWrite runtime call disk.change = .ok plan ∧
        passed ∈ (writeProgram runtime call plan).visited disk := by
    intro latest read member
    unfold commitProgram at member
    cases prepared : prepareCommit runtime call.options call.events.committedAt latest with
    | error result => rw [prepared] at member; cases member
    | ok plan =>
      rw [prepared] at member
      exact ⟨plan, Stage.bind_ok.mpr ⟨latest, read, prepared⟩, member⟩
  simp only [lockedProgram, Program.visited_look, List.mem_cons] at member
  rcases member with same | member
  · exact .inl same
  simp only [readLatest] at prepares
  cases loaded : loadLatest runtime call.options disk.change call.events.loadFault with
  | error early => rw [loaded] at member; cases member
  | ok source =>
    rw [loaded] at prepares member
    cases source with
    | latest latest => exact .inr (prepares latest rfl member)
    | normalize normalize =>
      simp only [Stage.thenRun, Program.visited_look, List.mem_cons] at member
      rcases member with same | member
      · exact .inl same
      cases repaired : normalizeLatest runtime call.options normalize disk.change call.events.rawReadFault with
      | error early => rw [repaired] at member; cases member
      | ok latest =>
        rw [repaired] at member
        exact .inr (prepares latest (by simpa [bind, Except.bind] using repaired) member)

variable {disk : Disk Aux} {result : CallResult}

theorem lockedProgram_visited (refused : plannedWrite runtime call disk.change = .error result) :
    ∀ passed ∈ (lockedProgram runtime call).visited disk, passed = disk := by
  intro passed member
  rcases lockedProgram_passes member with same | ⟨plan, planned, _⟩
  · exact same
  · rw [refused] at planned
    cases planned

theorem writeProgram_passes
    {disk passed : Disk Aux} (member : passed ∈ (writeProgram runtime call plan).visited disk) :
    passed = writeChange runtime plan.value call.events.write disk ∨
      call.events.write = .replaced ∧ ∃ readback afterCommit,
        loadChange runtime call.options.changesDir call.options.changeId
            (.text (runtime.stringify plan.value)) call.events.readbackFault = .success (some readback) ∧
          call.options.afterCommit = some afterCommit ∧
          ∃ aux ∈ (afterCommit (afterCommitContext plan readback)).visited disk.aux,
            passed = ⟨.text (runtime.stringify plan.value), aux⟩ := by
  simp only [writeProgram, Program.visited, List.mem_cons] at member
  rcases member with same | member
  · exact .inl same
  cases event : call.events.write with
  | failed error => rw [event] at member; cases member
  | replacedThenFailed error => rw [event] at member; cases member
  | replaced =>
    rw [event] at member
    simp only [writeChange, confirmProgram, Program.visited_look, List.mem_cons] at member
    rcases member with same | member
    · exact .inl same
    cases read : readBack runtime call.options (.text (runtime.stringify plan.value)) call.events.readbackFault with
    | error early => rw [read] at member; cases member
    | ok readback =>
      simp only [read, Stage.thenRun] at member
      split at member
      · cases member
      split at member
      · cases member
      unfold afterCommitProgram at member
      cases hook : call.options.afterCommit with
      | none => rw [hook] at member; cases member
      | some afterCommit =>
        simp only [hook, Program.visited_andThen, Program.visited_within, Program.visited_finish,
          List.append_nil, List.mem_map] at member
        obtain ⟨aux, passedAux, rfl⟩ := member
        refine .inr ⟨rfl, readback, afterCommit, ?_, rfl, aux, passedAux, rfl⟩
        unfold readBack at read
        split at read
        next loaded => cases read; exact loaded
        · cases read
        · split at read <;> cases read

def WriteEvent.replaces : WriteEvent → Bool
  | .failed _ => false
  | .replaced | .replacedThenFailed _ => true

def lockedWrite (runtime : Runtime) (call : CommitCall Aux) (file : FileState) : Option WritePlan :=
  if call.events.write.replaces then (plannedWrite runtime call file).toOption else none

theorem lockedWrite_some : lockedWrite runtime call file = some plan ↔
      plannedWrite runtime call file = .ok plan ∧ call.events.write.replaces = true := by
  unfold lockedWrite
  cases plannedWrite runtime call file <;> cases call.events.write.replaces <;> simp [Except.toOption]

theorem confirm_change (runtime : Runtime) (call : CommitCall Aux) (plan : WritePlan)
    (disk : Disk Aux) : ((confirmProgram runtime call plan).run disk).2.change = disk.change := by
  simp only [confirmProgram, Program.run_look]
  cases readBack runtime call.options disk.change call.events.readbackFault with
  | error result => rfl
  | ok readback =>
    simp only [Stage.thenRun]
    cases checkReadback runtime call.options plan readback with
    | error result => rfl
    | ok _ =>
      simp only
      cases checkPostcondition call.options plan readback with
      | error result => rfl
      | ok _ =>
        simp only [afterCommitProgram]
        cases call.options.afterCommit with
        | none => rfl
        | some afterCommit => simp [Disk.beside]

theorem lockedProgram_change (runtime : Runtime) (call : CommitCall Aux) (disk : Disk Aux) :
    ((lockedProgram runtime call).run disk).2.change =
      match lockedWrite runtime call disk.change with
      | some plan => .text (runtime.stringify plan.value)
      | none => disk.change := by
  rw [lockedProgram_run]
  unfold lockedWrite
  cases plannedWrite runtime call disk.change with
  | error result => cases call.events.write.replaces <;> rfl
  | ok plan =>
    simp only [writeProgram, Program.run_act]
    cases call.events.write with
    | failed error => rfl
    | replacedThenFailed error => rfl
    | replaced =>
      simp only [WriteEvent.replaces, if_true, Except.toOption]
      rw [confirm_change]
      rfl

theorem lockedWrite_prepared (written : lockedWrite runtime call file = some plan) :
    ∃ latest mutated, readLatest runtime call file = .ok latest ∧
      Prepared runtime call.options call.events.committedAt latest mutated plan := by
  obtain ⟨latest, read, prepares⟩ := Stage.bind_ok.mp (lockedWrite_some.mp written).1
  obtain ⟨mutated, prepared⟩ := prepareCommit_ok prepares
  exact ⟨latest, mutated, read, prepared⟩

def writtenPlan (runtime : Runtime) (call : CommitCall Aux) (disk : Disk Aux) : Option WritePlan :=
  if (earlyCheck call disk).isNone && call.events.lockAcquired then
    lockedWrite runtime call disk.change
  else none

theorem writtenPlan_some : writtenPlan runtime call disk = some plan ↔
      earlyCheck call disk = none ∧ call.events.lockAcquired = true ∧
        lockedWrite runtime call disk.change = some plan := by
  unfold writtenPlan
  cases earlyCheck call disk <;> cases call.events.lockAcquired <;> simp

theorem commit_locked (admitted : earlyCheck call disk = none) (locked : call.events.lockAcquired = true) :
    commitChangeProjection runtime call disk = (lockedProgram runtime call).run disk := by
  simp only [commitChangeProjection, admitted, locked, if_true]

theorem commit_unlocked (outside : ¬(earlyCheck call disk = none ∧ call.events.lockAcquired = true)) :
    (commitChangeProjection runtime call disk).2 = disk := by
  unfold commitChangeProjection
  split
  · rfl
  next admitted =>
    split
    next locked => exact absurd ⟨admitted, locked⟩ outside
    · rfl

/-- The file after a call: the plan it wrote, or what it was. -/
theorem commit_change (runtime : Runtime) (call : CommitCall Aux) (disk : Disk Aux) :
    (commitChangeProjection runtime call disk).2.change =
      match writtenPlan runtime call disk with
      | some plan => .text (runtime.stringify plan.value)
      | none => disk.change := by
  by_cases inside : earlyCheck call disk = none ∧ call.events.lockAcquired = true
  · obtain ⟨admitted, locked⟩ := inside
    rw [commit_locked admitted locked, lockedProgram_change, writtenPlan, admitted, locked]
    rfl
  · have unwritten : writtenPlan runtime call disk = none := by
      cases written : writtenPlan runtime call disk with
      | none => rfl
      | some plan =>
        obtain ⟨admitted, locked, _⟩ := writtenPlan_some.mp written
        exact absurd ⟨admitted, locked⟩ inside
    rw [commit_unlocked inside, unwritten]

/-! ## Refusals -/

/-- The call ended `committed` or `committed_unverified`. -/
def endsCommitted : CallResult → Bool
  | .ok (.committed _ _ _ _ _) | .ok (.committedUnverified _ _ _ _ _) => true
  | _ => false

/-- The call ended `committed`. -/
def isCommitted : CallResult → Bool
  | .ok (.committed _ _ _ _ _) => true
  | _ => false

theorem isCommitted_shape (committed : isCommitted result = true) : ∃ value revision readback audit idempotent,
      result = .ok (.committed value revision readback audit idempotent) := by
  unfold isCommitted at committed
  split at committed
  · exact ⟨_, _, _, _, _, rfl⟩
  · cases committed

theorem isCommitted_ends (committed : isCommitted result = true) : endsCommitted result = true := by
  obtain ⟨_, _, _, _, _, rfl⟩ := isCommitted_shape committed
  rfl

theorem Stage.bind_error {α β : Type} {stage : Stage α} {next : α → Stage β} : (stage >>= next) = .error result ↔
      stage = .error result ∨ ∃ value, stage = .ok value ∧ next value = .error result := by
  cases stage with
  | error early => simp [bind, Except.bind]
  | ok value => simp [bind, Except.bind]

section

variable {runtime : Runtime} {options : CommitChangeProjectionOptions Aux} {result : CallResult}

variable {fault : Option ReadFault} {file : FileState}

theorem loadLatest_error
    (refused : loadLatest runtime options file fault = .error result) : endsCommitted result = false := by
  unfold loadLatest at refused
  split at refused
  · cases refused
  · cases refused; rfl
  · split at refused
    · cases parser : options.normalizeLatestProjection with
      | none => rw [parser] at refused; cases refused; rfl
      | some normalize => rw [parser] at refused; cases refused
    · cases refused; rfl

theorem normalizeLatest_error {normalize : JsVal → Except String JsVal}
    (refused : normalizeLatest runtime options normalize file fault = .error result) :
    endsCommitted result = false := by
  simp only [normalizeLatest] at refused
  split at refused
  · split at refused <;> cases refused
    rfl
  · cases refused; rfl

theorem checkExpectedRevision_error {priorRevision : JsNumber}
    (refused : checkExpectedRevision options priorRevision = .error result) : endsCommitted result = false := by
  unfold checkExpectedRevision at refused
  split at refused
  · cases refused
  · split at refused <;> cases refused
    rfl

variable {latest : JsVal}

theorem checkStateRevision_error (refused : checkStateRevision runtime options latest = .error result) :
    endsCommitted result = false := by
  simp only [checkStateRevision] at refused
  split at refused
  · cases refused
  · split at refused
    · cases refused; rfl
    · split at refused
      · cases refused
      · split at refused
        · split at refused <;> cases refused
          rfl
        · cases refused

theorem applyMutation_error
    (refused : applyMutation options latest = .error result) : endsCommitted result = false := by
  unfold applyMutation at refused
  split at refused <;> cases refused
  rfl

theorem checkWipe_error {mutated : Mutated} (refused : checkWipe options mutated = .error result) :
    endsCommitted result = false := by
  unfold checkWipe at refused
  split at refused <;> cases refused <;> rfl

theorem buildValue_error {mutated : Mutated} {newRevision : JsNumber} {audit : JsVal}
    (refused : buildValue options mutated newRevision audit = .error result) : endsCommitted result = false := by
  unfold buildValue at refused
  split at refused
  · cases refused; rfl
  · split at refused <;> cases refused
    rfl

theorem checkValueId_error {value : JsVal} (refused : checkValueId value = .error result) :
    endsCommitted result = false := by
  unfold checkValueId at refused
  split at refused
  · split at refused <;> cases refused
    rfl
  all_goals cases refused; rfl

theorem readBack_error
    (failed : readBack runtime options file fault = .error result) : endsCommitted result = false := by
  unfold readBack at failed
  split at failed
  · cases failed
  · cases failed; rfl
  · split at failed <;> cases failed <;> rfl

theorem prepareCommit_error {committedAt : String}
    (refused : prepareCommit runtime options committedAt latest = .error result)
    (committed : endsCommitted result = true) : checkOperation options latest = .error result := by
  have not_refusal : ∀ {P : Prop}, endsCommitted result = false → P := by
    intro P refusal
    rw [committed] at refusal
    cases refusal
  simp only [prepareCommit, Stage.bind_error] at refused
  rcases refused with replay | ⟨_, _, stale | ⟨_, _, fenced | ⟨_, _, thrown | ⟨_, _, wiped |
    ⟨_, _, unbuilt | ⟨_, _, synthetic | ⟨_, _, planned⟩⟩⟩⟩⟩⟩⟩
  · exact replay
  · exact not_refusal (checkExpectedRevision_error stale)
  · exact not_refusal (checkStateRevision_error fenced)
  · exact not_refusal (applyMutation_error thrown)
  · exact not_refusal (checkWipe_error wiped)
  · exact not_refusal (buildValue_error unbuilt)
  · exact not_refusal (checkValueId_error synthetic)
  · cases planned

end

/-- An audit entry that answers a call: it carries the call's operation identity,
    payload hash and state revision. -/
structure Replays (options : CommitChangeProjectionOptions Aux) (entry : JsVal) : Prop where
  operation : ∃ operationId, options.operationKey = some operationId ∧ entry.get "operation_id" = .str operationId
  payload : ofStr options.payloadHash = entry.get "payload_hash"
  state : ofNum options.stateRevision = entry.get "state_revision"

theorem checkOperation_replay (answered : checkOperation options latest = .error result)
    (committed : endsCommitted result = true) : ∃ entry ∈ auditEntries latest, Replays options entry ∧
      result = .ok (.committed latest ((entry.get "new_revision").numberD 0) latest entry true) := by
  unfold checkOperation at answered
  split at answered
  · cases answered
  next operationId identified =>
    split at answered
    · cases answered
    next entry found =>
      split at answered
      next agrees =>
        cases answered
        have named := List.find?_some found
        simp only [decide_eq_true_eq] at named
        exact ⟨entry, List.mem_of_find?_eq_some found, ⟨⟨operationId, identified, named⟩, agrees.1, agrees.2⟩, rfl⟩
      · cases answered
        cases committed

theorem plannedWrite_error (refused : plannedWrite runtime call file = .error result)
    (committed : endsCommitted result = true) : ∃ latest, readLatest runtime call file = .ok latest ∧
      checkOperation call.options latest = .error result := by
  obtain unread | ⟨latest, read, prepared⟩ := Stage.bind_error.mp refused
  · -- reading the latest projection never reports a commit
    have refusal : endsCommitted result = false := by
      rcases Stage.bind_error.mp unread with unloaded | ⟨source, _, unrepaired⟩
      · exact loadLatest_error unloaded
      · cases source with
        | latest latest => cases unrepaired
        | normalize normalize => exact normalizeLatest_error unrepaired
    rw [committed] at refusal
    cases refusal
  · exact ⟨latest, read, prepareCommit_error prepared committed⟩

/-! ## What a committed write went through -/

/-- Everything that was checked before a written plan was reported committed. -/
structure Confirmed (runtime : Runtime) (call : CommitCall Aux) (plan : WritePlan) (disk : Disk Aux)
    (readback : JsVal) : Prop where
  faultless : call.events.readbackFault = none
  readable : Loads runtime disk.change readback
  proven : checkReadback runtime call.options plan readback = .ok ()
  verified : ∃ result,
    call.options.verify ⟨plan.latest, readback, plan.priorRevision, plan.newRevision⟩ = .ok result ∧ result.ok = true
  followedUp : ∀ afterCommit, call.options.afterCommit = some afterCommit →
    ((afterCommit (afterCommitContext plan readback)).run disk.aux).1 = .ok .nothing ∨
      ((afterCommit (afterCommitContext plan readback)).run disk.aux).1 = .ok .ok

variable {readback : JsVal}

theorem readBack_ok (read : readBack runtime options file fault = .ok readback) :
    fault = none ∧ Loads runtime file readback := by
  unfold readBack at read
  split at read
  next found success =>
    cases read
    exact loadChange_ok success
  next => cases read
  next => split at read <;> cases read

theorem readBack_of_loads (options : CommitChangeProjectionOptions Aux) (loads : Loads runtime file readback) :
    readBack runtime options file none = .ok readback := by
  simp [readBack, loadChange_of_loads loads]

theorem checkPostcondition_ok (passed : checkPostcondition options plan readback = .ok ()) : ∃ result,
      options.verify ⟨plan.latest, readback, plan.priorRevision, plan.newRevision⟩ = .ok result ∧
        result.ok = true := by
  unfold checkPostcondition at passed
  split at passed
  next => cases passed
  next verified => exact ⟨_, verified, rfl⟩
  next verified => exact ⟨_, verified, rfl⟩
  next => cases passed
  next => cases passed

theorem confirm_committed {value readback audit : JsVal} {revision : JsNumber} {idempotent : Bool}
    (result : ((confirmProgram runtime call plan).run disk).1 =
      .ok (.committed value revision readback audit idempotent)) :
    value = plan.value ∧ revision = plan.newRevision ∧ audit = plan.audit ∧ idempotent = false ∧
      Confirmed runtime call plan disk readback := by
  simp only [confirmProgram, Program.run_look] at result
  cases read : readBack runtime call.options disk.change call.events.readbackFault with
  | error early =>
    simp only [read, Stage.thenRun, Program.run_finish] at result
    subst result
    unfold readBack at read
    split at read
    · cases read
    · cases read
    · split at read <;> cases read
  | ok found =>
    simp only [read, Stage.thenRun] at result
    obtain ⟨faultless, readable⟩ := readBack_ok read
    cases proven : checkReadback runtime call.options plan found with
    | error early =>
      simp only [proven, Program.run_finish] at result
      subst result
      simp only [checkReadback] at proven
      split at proven
      · cases proven
      · split at proven
        · cases proven
        · split at proven
          · cases proven
          · split at proven <;> cases proven
    | ok _ =>
      simp only [proven] at result
      cases verified : checkPostcondition call.options plan found with
      | error early =>
        simp only [verified, Program.run_finish] at result
        subst result
        unfold checkPostcondition at verified
        split at verified <;> cases verified
      | ok _ =>
        simp only [verified, afterCommitProgram] at result
        cases hook : call.options.afterCommit with
        | none =>
          simp only [hook, Program.run_finish, committedResult] at result
          cases result
          exact ⟨rfl, rfl, rfl, rfl, faultless, readable, proven, checkPostcondition_ok verified,
            fun _ some => nomatch hook.symm.trans some⟩
        | some afterCommit =>
          simp only [hook, Program.run_andThen, Program.run_within, Program.run_finish, Disk.beside] at result
          have followed : ((afterCommit (afterCommitContext plan found)).run disk.aux).1 = .ok .nothing ∨
              ((afterCommit (afterCommitContext plan found)).run disk.aux).1 = .ok .ok := by
            unfold afterCommitResult at result
            split at result
            · cases result
            next nothing => exact .inl nothing
            next fine => exact .inr fine
            · cases result
          have committed : committedResult plan found =
              .ok (.committed value revision readback audit idempotent) := by
            rcases followed with nothing | fine
            · rw [nothing] at result; exact result
            · rw [fine] at result; exact result
          cases committed
          refine ⟨rfl, rfl, rfl, rfl, faultless, readable, proven, checkPostcondition_ok verified, ?_⟩
          intro other same
          cases hook.symm.trans same
          exact followed

theorem commit_outside (outside : ¬(earlyCheck call disk = none ∧ call.events.lockAcquired = true)) :
    endsCommitted (commitChangeProjection runtime call disk).1 = false := by
  unfold commitChangeProjection
  split
  next refused =>
    simp only [earlyCheck] at refused
    split at refused
    · cases refused; rfl
    · split at refused <;> cases refused
      rfl
  next admitted =>
    split
    next locked => exact absurd ⟨admitted, locked⟩ outside
    · rfl

theorem planned_of_written (written : writtenPlan runtime call disk = some plan) :
    plannedWrite runtime call disk.change = .ok plan :=
  (lockedWrite_some.mp (writtenPlan_some.mp written).2.2).1

variable {value readback audit : JsVal} {revision : JsNumber} {idempotent : Bool}

theorem locked_committed
    (result : ((lockedProgram runtime call).run disk).1 = .ok (.committed value revision readback audit idempotent)) :
    (idempotent = false ∧ call.events.write = .replaced ∧ ∃ plan, plannedWrite runtime call disk.change = .ok plan ∧
        value = plan.value ∧ revision = plan.newRevision ∧ audit = plan.audit ∧
        ((lockedProgram runtime call).run disk).2.change = .text (runtime.stringify value) ∧
        Confirmed runtime call plan ⟨.text (runtime.stringify value), disk.aux⟩ readback) ∨
      (idempotent = true ∧ (∀ plan, plannedWrite runtime call disk.change ≠ .ok plan) ∧
        ((lockedProgram runtime call).run disk).2 = disk ∧
        ∃ latest, readLatest runtime call disk.change = .ok latest ∧ audit ∈ auditEntries latest ∧
          Replays call.options audit ∧ value = latest ∧
          revision = (audit.get "new_revision").numberD 0 ∧
          checkOperation call.options latest =
            .error (.ok (.committed value revision readback audit idempotent))) := by
  rw [lockedProgram_run] at result ⊢
  cases planned : plannedWrite runtime call disk.change with
  | error early =>
    rw [planned] at result
    simp only at result
    subst result
    obtain ⟨latest, read, answered⟩ := plannedWrite_error planned rfl
    obtain ⟨entry, member, replays, same⟩ := checkOperation_replay answered rfl
    cases same
    exact .inr ⟨rfl, fun _ => nofun, rfl, _, read, member, replays, rfl, rfl, answered⟩
  | ok plan =>
    rw [planned] at result
    simp only [writeProgram, Program.run_act] at result ⊢
    cases event : call.events.write with
    | failed error => rw [event] at result; cases result
    | replacedThenFailed error => rw [event] at result; cases result
    | replaced =>
      rw [event] at result
      obtain ⟨rfl, rfl, rfl, rfl, confirmed⟩ := confirm_committed result
      refine .inl ⟨rfl, rfl, plan, rfl, rfl, rfl, rfl, ?_, confirmed⟩
      rw [confirm_change]
      rfl

theorem commit_committed (result : (commitChangeProjection runtime call disk).1 =
      .ok (.committed value revision readback audit idempotent)) :
    (idempotent = false ∧ ∃ plan, writtenPlan runtime call disk = some plan ∧ value = plan.value ∧
        revision = plan.newRevision ∧ audit = plan.audit ∧
        Confirmed runtime call plan ⟨.text (runtime.stringify plan.value), disk.aux⟩ readback) ∨
      (idempotent = true ∧ writtenPlan runtime call disk = none ∧
        (commitChangeProjection runtime call disk).2 = disk ∧
        ∃ latest, readLatest runtime call disk.change = .ok latest ∧ audit ∈ auditEntries latest ∧
          Replays call.options audit ∧ value = latest ∧
          revision = (audit.get "new_revision").numberD 0 ∧
          checkOperation call.options latest =
            .error (.ok (.committed value revision readback audit idempotent))) := by
  by_cases inside : earlyCheck call disk = none ∧ call.events.lockAcquired = true
  · obtain ⟨admitted, locked⟩ := inside
    rw [commit_locked admitted locked] at result ⊢
    rcases locked_committed result with
      ⟨first, replaced, plan, planned, rfl, rfl, rfl, -, confirmed⟩ | ⟨replayed, unplanned, found⟩
    · have written := lockedWrite_some.mpr ⟨planned, by rw [replaced]; rfl⟩
      exact .inl ⟨first, plan, writtenPlan_some.mpr ⟨admitted, locked, written⟩, rfl, rfl, rfl, confirmed⟩
    · refine .inr ⟨replayed, Option.eq_none_iff_forall_ne_some.mpr fun plan written => ?_, found⟩
      exact unplanned plan (planned_of_written written)
  · have refused : endsCommitted (commitChangeProjection runtime call disk).1 = false :=
      commit_outside inside
    rw [result] at refused
    cases refused

/-! ## Calls that reach their follow-up hook -/

/-- A call that replaced the file and got past readback and postcondition. -/
structure ReachesHook (runtime : Runtime) (call : CommitCall Aux) (disk : Disk Aux) (plan : WritePlan)
    (readback : JsVal) : Prop where
  written : writtenPlan runtime call disk = some plan
  replaced : call.events.write = .replaced
  faultless : call.events.readbackFault = none
  readable : Loads runtime (.text (runtime.stringify plan.value)) readback
  proven : checkReadback runtime call.options plan readback = .ok ()
  verified : checkPostcondition call.options plan readback = .ok ()

theorem commit_reached (reaches : ReachesHook runtime call disk plan readback)
    {afterCommit : ProjectionCommitAfterCommitContext →
      Program Aux (Except String ProjectionCommitAfterCommitResult)}
    (hook : call.options.afterCommit = some afterCommit) : commitChangeProjection runtime call disk =
      (afterCommitResult plan readback ((afterCommit (afterCommitContext plan readback)).run disk.aux).1,
        ⟨.text (runtime.stringify plan.value),
          ((afterCommit (afterCommitContext plan readback)).run disk.aux).2⟩) := by
  obtain ⟨admitted, locked, _⟩ := writtenPlan_some.mp reaches.written
  have read := readBack_of_loads call.options reaches.readable
  rw [commit_locked admitted locked, lockedProgram_run, planned_of_written reaches.written]
  simp only [writeProgram, Program.run_act, reaches.replaced, writeChange, confirmProgram,
    Program.run_look, reaches.faultless, read, Stage.thenRun, reaches.proven, reaches.verified,
    afterCommitProgram, hook, Program.run_andThen, Program.run_within, Program.run_finish, Disk.beside]

section

variable (written : writtenPlan runtime call disk = some plan)
  (committed : isCommitted (commitChangeProjection runtime call disk).1 = true)
include written committed

theorem committed_replaced : call.events.write = .replaced := by
  obtain ⟨admitted, locked, _⟩ := writtenPlan_some.mp written
  rw [commit_locked admitted locked, lockedProgram_run, planned_of_written written] at committed
  simp only [writeProgram, Program.run_act] at committed
  cases event : call.events.write with
  | replaced => rfl
  | failed error => rw [event] at committed; cases committed
  | replacedThenFailed error => rw [event] at committed; cases committed

theorem Confirmed.reaches
    (confirmed : Confirmed runtime call plan ⟨.text (runtime.stringify plan.value), disk.aux⟩ readback) :
    ReachesHook runtime call disk plan readback where
  written := written
  replaced := committed_replaced written committed
  faultless := confirmed.faultless
  readable := confirmed.readable
  proven := confirmed.proven
  verified := by
    obtain ⟨result, verified, ok⟩ := confirmed.verified
    simp only [checkPostcondition, verified]
    cases result <;> simp only [ProjectionCommitVerifyResult.ok] at ok <;> rw [ok]

end

end Advance.Storage
