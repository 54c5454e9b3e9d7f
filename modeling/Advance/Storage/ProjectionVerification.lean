import Advance.Storage.ProjectionReplay

/-! # What a reported commit says about verification

A commit that writes is reported committed only after its postcondition and its
follow-up hook.  A replay is reported committed because the trail holds an entry,
which a write that failed both has left there too.
-/

namespace Advance.Storage

open Advance.Foundation

variable {Aux : Type}

/-- The step's own write was read back, its `verify` returned ok on the readback, and
    its `afterCommit` hook, if any, completed without `ok: false`. -/
def StepVerified (runtime : Runtime) (step : HistoryStep Aux) : Prop :=
  ∃ plan readback, stepPlan runtime step = some plan ∧
    Confirmed runtime step.request plan ⟨.text (runtime.stringify plan.value), step.before.aux⟩ readback

/-- The step reported its operation `committed`. -/
def ReportsCommitted (step : HistoryStep Aux) : Prop := isCommitted step.response = true

structure SameOperation (left right : CommitCall Aux) : Prop where
  operation : left.options.operationId = right.options.operationId
  payload : left.options.payloadHash = right.options.payloadHash
  state : left.options.stateRevision = right.options.stateRevision

def CommittedVerified (runtime : Runtime) (calls : List (CommitCall Aux)) (start : Disk Aux) : Prop :=
  ∀ front step back, history runtime calls start = front ++ step :: back → ReportsCommitted step →
    ∃ writer ∈ front ++ [step], SameOperation writer.request step.request ∧ StepVerified runtime writer

/-- No call retries a write of its operation identity that was not reported
    committed. -/
def NoRetryOfUnverified (runtime : Runtime) (calls : List (CommitCall Aux)) (start : Disk Aux) : Prop :=
  ∀ front middle back first second operationId,
    history runtime calls start = front ++ first :: (middle ++ second :: back) →
    first.request.options.operationKey = some operationId →
    second.request.options.operationKey = some operationId →
    stepWrote runtime first = true → ReportsCommitted first

variable {calls : List (CommitCall Aux)}

theorem trail_origin {runtime : Runtime} {start : Disk Aux}
    (leaves : ∀ call ∈ calls, LeavesTrail call) {view : AuditView}
    (member : view ∈ storedTrail (stateAfter (commitChangeProjection runtime) calls start).change) :
    view ∈ storedTrail start.change ∨ ∃ writer ∈ history runtime calls start, stepWrote runtime writer = true ∧
        ∃ newRevision, view = callView writer.request.options newRevision := by
  induction calls generalizing start with
  | nil => exact .inl member
  | cons call calls ih =>
    have head : recordOf (commitChangeProjection runtime) call start ∈
        history runtime (call :: calls) start := by simp [history, trace]
    rcases ih (fun c later => leaves c (by simp [later])) member with here | ⟨writer, later, found⟩
    · cases written : stepWrote runtime (recordOf (commitChangeProjection runtime) call start) with
      | false =>
        have same := step_unwritten head written
        rw [recordOf_after, recordOf_before] at same
        rw [same] at here
        exact .inl here
      | true =>
        obtain ⟨newRevision, pushed, _⟩ := step_trail head written (leaves call (by simp))
        rw [recordOf_after, recordOf_before, recordOf_request] at pushed
        rw [pushed] at here
        rcases BoundedLog.mem_push here with earlier | appended
        · exact .inl earlier
        · exact .inr ⟨_, head, written, newRevision, appended⟩
    · exact .inr ⟨writer, List.mem_cons_of_mem _ later, found⟩

theorem verified_of_committed {runtime : Runtime} {start : Disk Aux}
    {step : HistoryStep Aux} (member : step ∈ history runtime calls start)
    (written : stepWrote runtime step = true) (committed : ReportsCommitted step) : StepVerified runtime step := by
  obtain ⟨value, revision, readback, audit, idempotent, response⟩ := isCommitted_shape committed
  rw [trace_step member] at response
  rcases commit_committed response with ⟨_, plan, planned, _, _, _, confirmed⟩ | ⟨_, unwritten, _⟩
  · exact ⟨plan, readback, planned, confirmed⟩
  · rw [stepWrote, stepPlan, unwritten] at written
    cases written

/-- In a history from a projection without entries of its operations, whose mutations
    and repair parsers leave the trail as they find it, and which retries no write
    that was not reported committed, every reported commit was verified. -/
theorem committed_verified (runtime : Runtime) {calls : List (CommitCall Aux)} {start : Disk Aux}
    (leaves : ∀ call ∈ calls, LeavesTrail call)
    (fresh : ∀ call ∈ calls, ∀ operationId, call.options.operationKey = some operationId →
      ∀ view ∈ storedTrail start.change, view.operationId ≠ .str operationId)
    (noRetry : NoRetryOfUnverified runtime calls start) : CommittedVerified runtime calls start := by
  intro front step back split committed
  have stepMember : step ∈ history runtime calls start := by rw [split]; simp
  cases written : stepWrote runtime step with
  | true =>
    exact ⟨step, by simp, ⟨rfl, rfl, rfl⟩, verified_of_committed stepMember written committed⟩
  | false =>
    obtain ⟨value, revision, readback, audit, idempotent, response⟩ := isCommitted_shape committed
    rw [trace_step stepMember] at response
    rcases commit_committed response with ⟨_, plan, planned, _⟩ | ⟨_, _, _, latest, read, entry, replays, _⟩
    · rw [stepWrote, stepPlan, planned] at written
      cases written
    · obtain ⟨early, late, rfl, rfl, served, _⟩ := trace_split split
      obtain ⟨operationId, identified, named⟩ := replays.operation
      have stepCall : step.request ∈ early ++ step.request :: late := by simp
      have before : step.before = stateAfter (commitChangeProjection runtime) early start :=
        congrArg Record.before served
      have inTrail : auditView audit ∈
          storedTrail (stateAfter (commitChangeProjection runtime) early start).change := by
        rw [← before, storedTrail, ← latest_trail read (leaves _ stepCall).2]
        exact List.mem_map.mpr ⟨audit, entry, rfl⟩
      rcases trail_origin (fun call member => leaves call (by simp [member])) inTrail with
        atStart | ⟨writer, writerMember, writerWrote, newRevision, seen⟩
      · exact absurd named (fresh _ stepCall operationId identified _ atStart)
      · have writerNamed : (callView writer.request.options newRevision).operationId = .str operationId := by
          rw [← seen]
          exact named
        have writerIs := (callView_operation (operationKey_some.mp identified).2).mp writerNamed
        have same : SameOperation writer.request step.request := by
          refine ⟨?_, ?_, ?_⟩
          · rw [(operationKey_some.mp writerIs).1, (operationKey_some.mp identified).1]
          · exact ofStr_injective ((congrArg AuditView.payloadHash seen).symm.trans replays.payload.symm)
          · exact ofNum_injective ((congrArg AuditView.stateRevision seen).symm.trans replays.state.symm)
        obtain ⟨front', middle, frontSplit⟩ := List.append_of_mem writerMember
        have twoSteps : history runtime (early ++ step.request :: late) start =
            front' ++ writer :: (middle ++ step :: back) := by
          rw [split]
          change trace (commitChangeProjection runtime) early start = _ at frontSplit
          rw [frontSplit]
          simp
        have writerCommitted := noRetry _ _ _ _ _ operationId twoSteps writerIs identified writerWrote
        have writerInHistory : writer ∈ history runtime (early ++ step.request :: late) start := by
          rw [twoSteps]; simp
        exact ⟨writer, List.mem_append_left _ writerMember, same,
          verified_of_committed writerInHistory writerWrote writerCommitted⟩

/-! ## A fixed run -/

/-- A commit under an operation identity with the given postcondition result. -/
def verifiedCall (operationId : String) (ok : Bool) : CommitCall Unit where
  options := { (operationCall operationId).options with verify := fun _ => .ok (.boolean ok) }
  events := .undisturbed "2026-01-01T00:00:00.000Z"

/-- The retry of a write whose postcondition failed is reported committed. -/
theorem unverified_reported_committed :
    ¬CommittedVerified .permissive [verifiedCall "a" false, verifiedCall "a" false] freshDisk := by
  intro everyCommitVerified
  have split : history .permissive [verifiedCall "a" false, verifiedCall "a" false] freshDisk =
      [recordOf (commitChangeProjection .permissive) (verifiedCall "a" false) freshDisk] ++
        recordOf (commitChangeProjection .permissive) (verifiedCall "a" false)
          (commitChangeProjection .permissive (verifiedCall "a" false) freshDisk).2 :: [] := rfl
  have reported : ReportsCommitted (recordOf (commitChangeProjection .permissive)
      (verifiedCall "a" false) (commitChangeProjection .permissive (verifiedCall "a" false) freshDisk).2) := by
    unfold ReportsCommitted
    decide +kernel
  obtain ⟨writer, member, _, plan, readback, _, confirmed⟩ := everyCommitVerified _ _ _ split reported
  obtain ⟨result, verified, ok⟩ := confirmed.verified
  have request : writer.request = verifiedCall "a" false := by
    rcases List.mem_pair.mp member with rfl | rfl <;> rfl
  rw [request] at verified
  cases verified
  cases ok

/-- A verified write and its retry. -/
theorem committed_verified_retry :
    CommittedVerified .permissive [verifiedCall "a" true, verifiedCall "a" true] freshDisk := by
  have requested : ∀ call ∈ [verifiedCall "a" true, verifiedCall "a" true], call = verifiedCall "a" true := by
    intro call member
    rcases List.mem_pair.mp member with same | same <;> exact same
  refine committed_verified .permissive ?_ ?_ ?_
  · intro call member
    rw [requested call member]
    exact operationCall_leavesTrail "a"
  · intro call member operationId identified view inTrail
    have noEntries : storedTrail freshDisk.change = [] := by rfl
    rw [noEntries] at inTrail
    cases inTrail
  · intro front middle back first second operationId split firstIs secondIs wrote
    have member : first ∈ history .permissive [verifiedCall "a" true, verifiedCall "a" true] freshDisk := by
      rw [split]; simp
    rcases List.mem_pair.mp member with rfl | rfl
    · unfold ReportsCommitted
      decide +kernel
    · unfold ReportsCommitted
      decide +kernel

end Advance.Storage
