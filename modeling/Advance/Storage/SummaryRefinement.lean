import Advance.Storage.ChangeSummaryShard
import Advance.Storage.StoredProjection

/-! # The summary wrapper against the transaction

The wrapper rebuilds the option record of `commitChangeProjection` field by field and
leaves out `payload` and `allowEmptiedCollections`.
-/

namespace Advance.Storage

open Advance.JavaScript Advance.JavaScript.JsVal Advance.Foundation

variable {Aux : Type}

/-! ## Calls without payload and allowance -/

/-- The same call with another `payload` and `allowEmptiedCollections`. -/
def CommitCall.replacing (call : CommitCall Aux) (payload : Option (List (String × JsVal)))
    (allowEmptiedCollections : List ProtectedCollectionField) : CommitCall Aux :=
  { call with options :=
    { call.options with payload := payload, allowEmptiedCollections := allowEmptiedCollections } }

def CommitCall.bare (call : CommitCall Aux) : CommitCall Aux := call.replacing none []

/-- The guard passes the mutation although no collection may be emptied. -/
def NeedsNoAllowance (mutated : Mutated) : Prop :=
  findCollectionWipe mutated.latest mutated.candidate [] PROTECTED_COLLECTION_FIELDS = .ok none

/-- Both calls are accepted or both are not, and they leave the same file. -/
def SameDecisionAndFile (runtime : Runtime) (left right : CommitCall Aux) (disk : Disk Aux) : Prop :=
  isCommitted (commitChangeProjection runtime left disk).1 =
      isCommitted (commitChangeProjection runtime right disk).1 ∧
    (commitChangeProjection runtime left disk).2.change = (commitChangeProjection runtime right disk).2.change

/-- Where the call replaces the file, it has no payload and needs no allowance; or it
    needs one, and writes the very text the file holds already. -/
def NeedsNeither (runtime : Runtime) (call : CommitCall Aux) (disk : Disk Aux) : Prop :=
  ∀ plan latest mutated, writtenPlan runtime call disk = some plan →
    readLatest runtime call disk.change = .ok latest → call.options.mutateLatest latest = .ok mutated →
    (call.options.payload = none ∧ NeedsNoAllowance mutated) ∨
      (¬NeedsNoAllowance mutated ∧ disk.change = .text (runtime.stringify plan.value))

theorem findCollectionWipe_allow {latest candidate : JsVal} {fields : List ProtectedCollectionField}
    (passed : findCollectionWipe latest candidate [] fields = .ok none) (allowed : List ProtectedCollectionField) :
    findCollectionWipe latest candidate allowed fields = .ok none := by
  induction fields with
  | nil => rfl
  | cons field fields ih =>
    simp only [findCollectionWipe, List.not_mem_nil, false_or] at passed ⊢
    split at passed
    next empty => rw [if_pos (.inr empty)]; exact ih passed
    next =>
      split at passed
      · cases passed
      next defined =>
        split at passed
        · cases passed
        next kept =>
          rw [if_neg defined, if_neg kept]
          split <;> exact ih passed

theorem checkWipe_iff {options : CommitChangeProjectionOptions Aux} {mutated : Mutated} :
    checkWipe options mutated = .ok () ↔
      findCollectionWipe mutated.latest mutated.candidate options.allowEmptiedCollections
        PROTECTED_COLLECTION_FIELDS = .ok none := by
  unfold checkWipe
  constructor
  · intro passed
    split at passed
    · cases passed
    next none => exact none
    · cases passed
  · intro none
    rw [none]

/-! ## Preparing with another payload and allowance -/

section

variable {runtime : Runtime} {call : CommitCall Aux} {disk : Disk Aux} {latest : JsVal}
  {mutated : Mutated} {plan : WritePlan}

theorem Prepared.replacing (prepared : Prepared runtime call.options call.events.committedAt latest mutated plan)
    (payload : Option (List (String × JsVal))) {allowed : List ProtectedCollectionField}
    (passed : findCollectionWipe mutated.latest mutated.candidate allowed PROTECTED_COLLECTION_FIELDS =
      .ok none) : ∃ other, Prepared runtime (call.replacing payload allowed).options call.events.committedAt latest
      mutated other := by
  obtain ⟨defined, priorCommits, iterated, value⟩ := buildValue_ok prepared.built
  let audit := auditEntry (call.replacing payload allowed).options plan.priorRevision call.events.committedAt
  let other := overlay mutated.candidate plan.newRevision
    (BoundedLog.push PROJECTION_COMMIT_MAX_AUDIT_ENTRIES priorCommits audit)
    ((ofNum call.options.stateRevision).orElse (mutated.latest.get "state_revision"))
  -- the two values differ in their newest audit entry only
  have sameId : checkValueId other = checkValueId plan.value := by
    have idOf : other.get "id" = plan.value.get "id" := by
      rw [value, overlay_other _ _ _ _ (by decide) (by decide) (by decide),
        overlay_other _ _ _ _ (by decide) (by decide) (by decide)]
    simp only [checkValueId, idOf]
  refine ⟨⟨mutated.latest, other, audit, plan.priorRevision, plan.newRevision⟩, ?_⟩
  exact
    { operation := prepared.operation
      expected := prepared.expected
      state := prepared.state
      mutation := prepared.mutation
      wipe := checkWipe_iff.mpr passed
      built := buildValue_of defined iterated _ _
      id := sameId.trans prepared.id
      left := rfl
      audit := rfl
      prior := prepared.prior
      new := prepared.new }

theorem auditEntry_payload (options : CommitChangeProjectionOptions Aux) (priorRevision : JsNumber)
    (committedAt : String) : (auditEntry options priorRevision committedAt).toJson.get "payload" = .undefined ↔
      options.payload = none := by
  have listed : (auditEntry options priorRevision committedAt).get "payload" =
      (options.payload.map .obj).getD .undefined := by
    simp only [auditEntry, get_obj]
    cases options.payload <;> simp [lookup]
  rw [get_toJson, listed]
  cases options.payload <;> simp [toJson]

theorem writtenPlan_of_prepared {call : CommitCall Aux} {other : WritePlan}
    (admitted : earlyCheck call disk = none) (locked : call.events.lockAcquired = true)
    (replaces : call.events.write.replaces = true) (read : readLatest runtime call disk.change = .ok latest)
    (prepared : Prepared runtime call.options call.events.committedAt latest mutated other) :
    writtenPlan runtime call disk = some other :=
  writtenPlan_some.mpr ⟨admitted, locked, lockedWrite_some.mpr
    ⟨Stage.bind_ok.mpr ⟨latest, read, prepareCommit_of_prepared prepared⟩, replaces⟩⟩

/-! ## Calls that write nothing -/

def Replayed (runtime : Runtime) (call : CommitCall Aux) (disk : Disk Aux) : Prop :=
  earlyCheck call disk = none ∧ call.events.lockAcquired = true ∧ ∃ latest result,
    readLatest runtime call disk.change = .ok latest ∧
      checkOperation call.options latest = .error result ∧ isCommitted result = true

theorem committed_unwritten (unwritten : writtenPlan runtime call disk = none) :
    isCommitted (commitChangeProjection runtime call disk).1 = true ↔ Replayed runtime call disk := by
  constructor
  · intro committed
    have inside : earlyCheck call disk = none ∧ call.events.lockAcquired = true := by
      by_contra outside
      have refused : endsCommitted (commitChangeProjection runtime call disk).1 = false :=
        commit_outside outside
      rw [isCommitted_ends committed] at refused
      cases refused
    obtain ⟨value, revision, readback, audit, idempotent, result⟩ := isCommitted_shape committed
    rcases commit_committed result with ⟨_, plan, written, _⟩ | ⟨_, _, _, latest, read, _, _, _, _, answered⟩
    · rw [unwritten] at written
      cases written
    · exact ⟨inside.1, inside.2, latest, _, read, answered, rfl⟩
  · rintro ⟨admitted, locked, latest, result, read, answered, committed⟩
    have planned : plannedWrite runtime call disk.change = .error result := by
      simp only [plannedWrite, read, prepareCommit, answered, bind, Except.bind]
    rw [commit_locked admitted locked, lockedProgram_run, planned]
    exact committed

theorem readLatest_of_loads {change : JsVal} (loads : Loads runtime disk.change change)
    (read : readLatest runtime call disk.change = .ok latest) : latest = change := by
  cases fault : call.events.loadFault with
  | none =>
    simp only [readLatest, loadLatest, fault, loadChange_of_loads loads, bind, Except.bind, Except.ok.injEq] at read
    exact read.symm
  | some fault' =>
    cases fault' <;>
      simp [readLatest, loadLatest, fault, loadChange, readBoundedProjectionDocument, bind, Except.bind,
        returns] at read

theorem rewrite_uncommitted (written : writtenPlan runtime call disk = some plan)
    (read : readLatest runtime call disk.change = .ok latest)
    (prepared : Prepared runtime call.options call.events.committedAt latest mutated plan)
    (same : disk.change = .text (runtime.stringify plan.value)) :
    isCommitted (commitChangeProjection runtime call disk).1 = false := by
  rw [← Bool.not_eq_true]
  intro committed
  obtain ⟨value, revision, readback, audit, idempotent, result⟩ := isCommitted_shape committed
  rcases commit_committed result with ⟨_, plan', written', _, _, _, confirmed⟩ | ⟨_, unwritten, _⟩
  · cases written.symm.trans written'
    have loads : Loads runtime disk.change readback := by
      rw [same]
      exact confirmed.readable
    have next : revisionOf readback = revisionOf latest + 1 := by
      rw [load_revision confirmed.readable, stored_stringify, write_revision prepared]
    rw [readLatest_of_loads loads read] at next
    simp at next
  · rw [written] at unwritten
    cases unwritten

/-! ## Exactly when both agree -/

theorem bare_agrees_unwritten (unwritten : writtenPlan runtime call disk = none) :
    SameDecisionAndFile runtime call.bare call disk := by
  have bareUnwritten : writtenPlan runtime call.bare disk = none := by
    cases written : writtenPlan runtime call.bare disk with
    | none => rfl
    | some plan =>
      obtain ⟨admitted, locked, lockedWritten⟩ := writtenPlan_some.mp written
      obtain ⟨latest, mutated, read, prepared⟩ := lockedWrite_prepared lockedWritten
      obtain ⟨other, ownPrepared⟩ := prepared.replacing call.options.payload
        (findCollectionWipe_allow (checkWipe_iff.mp prepared.wipe) call.options.allowEmptiedCollections)
      have ownWritten : writtenPlan runtime call disk = some other :=
        writtenPlan_of_prepared admitted locked (lockedWrite_some.mp lockedWritten).2 read ownPrepared
      rw [unwritten] at ownWritten
      cases ownWritten
  constructor
  · rw [Bool.eq_iff_iff, committed_unwritten unwritten, committed_unwritten bareUnwritten]
    rfl
  · rw [commit_change, commit_change, unwritten, bareUnwritten]

section

variable (written : writtenPlan runtime call disk = some plan)
  (read : readLatest runtime call disk.change = .ok latest)
  (prepared : Prepared runtime call.options call.events.committedAt latest mutated plan)
include written read prepared

theorem bare_agrees_plain (plain : call.options.payload = none) (passed : NeedsNoAllowance mutated) :
    SameDecisionAndFile runtime call.bare call disk := by
  have barePrepared : Prepared runtime call.bare.options call.events.committedAt latest mutated plan :=
    { operation := prepared.operation
      expected := prepared.expected
      state := prepared.state
      mutation := prepared.mutation
      wipe := checkWipe_iff.mpr passed
      built := prepared.built
      id := prepared.id
      left := prepared.left
      audit := by rw [prepared.audit]; simp [auditEntry, CommitCall.bare, CommitCall.replacing, plain]
      prior := prepared.prior
      new := prepared.new }
  obtain ⟨admitted, locked, _⟩ := writtenPlan_some.mp written
  have barePlanned : plannedWrite runtime call.bare disk.change = .ok plan :=
    Stage.bind_ok.mpr ⟨latest, read, prepareCommit_of_prepared barePrepared⟩
  have same : commitChangeProjection runtime call.bare disk = commitChangeProjection runtime call disk := by
    have bareRuns : commitChangeProjection runtime call.bare disk =
        (lockedProgram runtime call.bare).run disk := commit_locked admitted locked
    rw [bareRuns, commit_locked admitted locked, lockedProgram_run, lockedProgram_run, barePlanned,
      planned_of_written written]
    -- from the plan on, neither option is read
    rfl
  exact ⟨by rw [same], by rw [same]⟩

theorem bare_differs_payload (supplied : call.options.payload ≠ none) (passed : NeedsNoAllowance mutated) :
    ¬SameDecisionAndFile runtime call.bare call disk := by
  rintro ⟨_, sameFile⟩
  obtain ⟨admitted, locked, lockedWritten⟩ := writtenPlan_some.mp written
  obtain ⟨other, barePrepared⟩ := prepared.replacing none passed
  have bareWritten : writtenPlan runtime call.bare disk = some other :=
    writtenPlan_of_prepared admitted locked (lockedWrite_some.mp lockedWritten).2 read barePrepared
  rw [commit_change, commit_change, bareWritten, written] at sameFile
  have sameJson : other.value.toJson = plan.value.toJson := by
    have stored := congrArg storedDocument sameFile
    simpa only [stored_stringify] using stored
  have sameEntry : other.audit.toJson = plan.audit.toJson := by
    have last : (auditEntries other.value.toJson).getLast? = some other.audit.toJson :=
      write_lastEntry barePrepared
    rw [sameJson, write_lastEntry prepared] at last
    exact (Option.some.inj last).symm
  rw [barePrepared.audit, prepared.audit] at sameEntry
  apply supplied
  apply (auditEntry_payload call.options plan.priorRevision call.events.committedAt).mp
  rw [← sameEntry]
  exact (auditEntry_payload _ _ _).mpr rfl

theorem bare_agrees_refused (needed : ¬NeedsNoAllowance mutated) : SameDecisionAndFile runtime call.bare call disk ↔
      disk.change = .text (runtime.stringify plan.value) := by
  have bareUnwritten : writtenPlan runtime call.bare disk = none := by
    cases bareWritten : writtenPlan runtime call.bare disk with
    | none => rfl
    | some other =>
      obtain ⟨latest', mutated', read', barePrepared⟩ :=
        lockedWrite_prepared (writtenPlan_some.mp bareWritten).2.2
      cases read.symm.trans read'
      cases prepared.mutation.symm.trans barePrepared.mutation
      exact absurd (checkWipe_iff.mp barePrepared.wipe) needed
  have bareRefused : isCommitted (commitChangeProjection runtime call.bare disk).1 = false := by
    rw [← Bool.not_eq_true, committed_unwritten bareUnwritten]
    rintro ⟨_, _, latest', result, read', answered, _⟩
    cases read.symm.trans read'
    rw [show checkOperation call.bare.options latest = .ok () from prepared.operation] at answered
    cases answered
  have bareFile : (commitChangeProjection runtime call.bare disk).2.change = disk.change := by
    rw [commit_change, bareUnwritten]
  have ownFile : (commitChangeProjection runtime call disk).2.change = .text (runtime.stringify plan.value) := by
    rw [commit_change, written]
  constructor
  · rintro ⟨_, sameFile⟩
    rw [← bareFile, sameFile, ownFile]
  · intro same
    refine ⟨?_, by rw [bareFile, ownFile, same]⟩
    rw [bareRefused, rewrite_uncommitted written read prepared same]

end

theorem bare_agrees_iff : SameDecisionAndFile runtime call.bare call disk ↔ NeedsNeither runtime call disk := by
  cases written : writtenPlan runtime call disk with
  | none =>
    refine ⟨fun _ plan _ _ writes => ?_, fun _ => bare_agrees_unwritten written⟩
    rw [written] at writes
    cases writes
  | some plan =>
    obtain ⟨latest, mutated, read, prepared⟩ :=
      lockedWrite_prepared (writtenPlan_some.mp written).2.2
    have atThisPlan : NeedsNeither runtime call disk ↔ (call.options.payload = none ∧ NeedsNoAllowance mutated) ∨
          (¬NeedsNoAllowance mutated ∧ disk.change = .text (runtime.stringify plan.value)) := by
      constructor
      · intro neither
        exact neither plan latest mutated written read prepared.mutation
      · intro here plan' latest' mutated' written' read' mutation'
        cases written.symm.trans written'
        cases read.symm.trans read'
        cases prepared.mutation.symm.trans mutation'
        exact here
    rw [atThisPlan]
    by_cases passed : NeedsNoAllowance mutated
    · by_cases plain : call.options.payload = none
      · simp [plain, passed, bare_agrees_plain written read prepared plain passed]
      · simp [plain, passed, bare_differs_payload written read prepared plain passed]
    · simp [passed, bare_agrees_refused written read prepared passed]

end

/-! ## The wrapper -/

/-- The transaction called directly, with the caller's options and the wrapper's
    follow-up hook. -/
def SummaryCall.directCall (runtime : Runtime) (call : SummaryCall) (summary : SummaryPaths) : CommitCall Files :=
  (call.commitCall runtime summary).replacing call.options.payload call.options.allowEmptiedCollections

/-- Wherever the wrapper gets to build its hook, its transaction is accepted if and
    only if the direct one is, and the wrapper leaves the file the direct one leaves. -/
def RefinesTransaction (runtime : Runtime) (call : SummaryCall) (disk : Disk Files) : Prop :=
  ∀ summary, summaryPaths call.options.paths call.options.changeId = .ok summary →
    isCommitted (commitChangeProjection runtime (call.commitCall runtime summary) disk).1 =
        isCommitted (commitChangeProjection runtime (call.directCall runtime summary) disk).1 ∧
      (commitChangeProjectionWithSummary runtime call disk).2.change =
        (commitChangeProjection runtime (call.directCall runtime summary) disk).2.change

theorem summary_change {runtime : Runtime} {call : SummaryCall} {summary : SummaryPaths}
    (resolved : summaryPaths call.options.paths call.options.changeId = .ok summary) (disk : Disk Files) :
    (commitChangeProjectionWithSummary runtime call disk).2 =
      (commitChangeProjection runtime (call.commitCall runtime summary) disk).2 := by
  simp only [commitChangeProjectionWithSummary, resolved]
  cases commitChangeProjection runtime (call.commitCall runtime summary) disk with
  | mk result after => cases result <;> rfl

/-- The wrapper refines the transaction exactly when the direct call needs neither of
    the options that the wrapper leaves out. -/
theorem refines_iff (runtime : Runtime) (call : SummaryCall) (disk : Disk Files) :
    RefinesTransaction runtime call disk ↔
      ∀ summary, summaryPaths call.options.paths call.options.changeId = .ok summary →
        NeedsNeither runtime (call.directCall runtime summary) disk := by
  apply forall_congr'
  intro summary
  apply forall_congr'
  intro resolved
  rw [summary_change resolved, ← bare_agrees_iff]
  rfl

/-! ## A fixed call -/

/-- A commit of a new title that records a payload in its audit entry. -/
def payloadCall : SummaryCall where
  options := { CommitChangeSummaryOptions.applying "a" (settingField "title" (.str "Search")) with
    payload := some [("source", .str "import")] }
  events := .undisturbed "2026-01-01T00:00:00.000Z"
  summaryEvents := .undisturbed "2026-01-01T00:00:01.000Z"

/-- The stored audit entry has no payload. -/
theorem payload_dropped : ¬RefinesTransaction .permissive payloadCall freshSummaryDisk := by
  intro refines
  have sameFile := (refines freshSummaryPaths rfl).2
  have samePayload := congrArg (fun file =>
    (((storedDocument file).get "projection_commits").elements.map fun entry => entry.get "payload"))
    sameFile
  revert samePayload
  decide +kernel

end Advance.Storage
