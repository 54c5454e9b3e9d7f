import Advance.Storage.ProjectionHistory

/-! # Replay of an operation

An operation identity is recorded in the audit trail of the projection it wrote.
While the entry is there, a call with the same identity is answered from it.
-/

namespace Advance.Storage

open Advance.JavaScript Advance.JavaScript.JsVal Advance.Foundation

variable {Aux : Type}

/-! ## Answers from the trail -/

theorem ofStr_injective {left right : Option String} (same : ofStr left = ofStr right) : left = right := by
  cases left <;> cases right <;> simp_all [ofStr]

theorem ofNum_injective {left right : Option JsNumber} (same : ofNum left = ofNum right) : left = right := by
  cases left <;> cases right <;> simp_all [ofNum]

theorem textD_ofStr (value : Option String) (fallback : String) :
    (ofStr value).textD fallback = value.getD fallback := by
  cases value <;> rfl

variable {options : CommitChangeProjectionOptions Aux} {operationId : String}

theorem operationKey_some : options.operationKey = some operationId ↔
      options.operationId = some operationId ∧ operationId ≠ "" := by
  simp [CommitChangeProjectionOptions.operationKey, Option.filter_eq_some_iff]

theorem callView_operation {newRevision : JsNumber} (named : operationId ≠ "") :
    (callView options newRevision).operationId = .str operationId ↔ options.operationKey = some operationId := by
  rw [operationKey_some]
  cases supplied : options.operationId with
  | none => simp [callView, supplied, ofStr]
  | some id => simp [callView, supplied, ofStr, named]

theorem checkOperation_found {latest : JsVal} (identified : options.operationKey = some operationId)
    {anchor : AuditView} (present : anchor ∈ trailOf latest) (named : anchor.operationId = .str operationId)
    (unique : ∀ view ∈ trailOf latest, view.operationId = .str operationId → view = anchor) :
    ∃ audit ∈ auditEntries latest, auditView audit = anchor ∧ checkOperation options latest =
        if ofStr options.payloadHash = anchor.payloadHash ∧ ofNum options.stateRevision = anchor.stateRevision then
          returns (.committed latest (anchor.newRevision.numberD 0) latest audit true)
        else returns (.operationConflict operationId (anchor.payloadHash.textD "")
          (options.payloadHash.getD "")) := by
  obtain ⟨entry, entryMember, rfl⟩ := List.mem_map.mp present
  have found : ((auditEntries latest).find? fun entry =>
      entry.get "operation_id" = .str operationId).isSome := by
    rw [List.find?_isSome]
    exact ⟨entry, entryMember, by simpa [auditView] using named⟩
  obtain ⟨audit, first⟩ := Option.isSome_iff_exists.mp found
  have auditMember := List.mem_of_find?_eq_some first
  have auditNamed : audit.get "operation_id" = .str operationId := by
    have holds := List.find?_some first
    simpa using holds
  have same := unique (auditView audit) (List.mem_map.mpr ⟨audit, auditMember, rfl⟩) auditNamed
  refine ⟨audit, auditMember, same, ?_⟩
  rw [← same]
  simp only [checkOperation, identified, first, auditView]
  rfl

theorem commit_answered {runtime : Runtime} {call : CommitCall Aux} {disk : Disk Aux} {latest : JsVal}
    {result : CallResult} (admitted : earlyCheck call disk = none) (locked : call.events.lockAcquired = true)
    (read : readLatest runtime call disk.change = .ok latest)
    (answered : checkOperation call.options latest = .error result) :
    commitChangeProjection runtime call disk = (result, disk) := by
  have refused : plannedWrite runtime call disk.change = .error result := by
    simp [plannedWrite, read, prepareCommit, answered, bind, Except.bind]
  rw [commit_locked admitted locked, lockedProgram_run, refused]

/-! ## Between two calls of one operation -/

theorem entry_unique {runtime : Runtime} {anchor : AuditView}
    (named : anchor.operationId = .str operationId) (nonempty : operationId ≠ "")
    {calls : List (CommitCall Aux)} {disk : Disk Aux} (leaves : ∀ call ∈ calls, LeavesTrail call)
    (stays : ∀ step ∈ history runtime calls disk, anchor ∈ storedTrail step.before.change)
    (unique : ∀ view ∈ storedTrail disk.change, view.operationId = .str operationId → view = anchor) :
    ∀ view ∈ storedTrail (stateAfter (commitChangeProjection runtime) calls disk).change,
      view.operationId = .str operationId → view = anchor := by
  induction calls generalizing disk with
  | nil => exact unique
  | cons call calls ih =>
    have head : recordOf (commitChangeProjection runtime) call disk ∈
        history runtime (call :: calls) disk := by simp [history, trace]
    have here : anchor ∈ storedTrail disk.change := stays _ head
    rw [stateAfter_cons]
    refine ih (fun c member => leaves c (by simp [member]))
      (fun step member => stays step (List.mem_cons_of_mem _ member)) ?_
    cases written : stepWrote runtime (recordOf (commitChangeProjection runtime) call disk) with
    | false =>
      have same : (commitChangeProjection runtime call disk).2.change = disk.change :=
        step_unwritten head written
      rw [same]
      exact unique
    | true =>
      obtain ⟨newRevision, pushed, _⟩ := step_trail head written (leaves call (by simp))
      intro view member viewNamed
      change view ∈ storedTrail (recordOf (commitChangeProjection runtime) call disk).after.change
        at member
      rw [pushed] at member
      rcases BoundedLog.mem_push member with earlier | rfl
      · exact unique view earlier viewNamed
      · -- a write under this operation would have found the entry
        have identified := (callView_operation nonempty).mp viewNamed
        exact absurd named (step_unseen head written (leaves call (by simp)) identified anchor here)

/-- Once a call has written under an operation identity, then as long as fewer than
    fifty writes follow, a later call under that identity writes nothing.  If it gets
    the lock and reads the projection, it is answered with the first write's revision
    and audit entry when payload hash and state revision agree with it, and as a
    conflict when they do not. -/
theorem operation_applied_once (runtime : Runtime) {calls : List (CommitCall Aux)} {start : Disk Aux}
    (leaves : ∀ call ∈ calls, LeavesTrail call) {front middle back : List (HistoryStep Aux)}
    {first second : HistoryStep Aux}
    (split : history runtime calls start = front ++ first :: (middle ++ second :: back))
    {operationId : String} (firstIs : first.request.options.operationKey = some operationId)
    (secondIs : second.request.options.operationKey = some operationId) (written : stepWrote runtime first = true)
    (recent : writeCount runtime middle < PROJECTION_COMMIT_MAX_AUDIT_ENTRIES) :
    second.after.change = second.before.change ∧
      (earlyCheck second.request second.before = none → second.request.events.lockAcquired = true →
        ∀ latest, readLatest runtime second.request second.before.change = .ok latest →
          (second.request.options.payloadHash = first.request.options.payloadHash ∧
              second.request.options.stateRevision = first.request.options.stateRevision →
            ∃ audit ∈ auditEntries latest,
              auditView audit = callView first.request.options (storedRevision first.after.change) ∧
              second.response = .ok (.committed latest (storedRevision first.after.change) latest audit true)) ∧
          (¬(second.request.options.payloadHash = first.request.options.payloadHash ∧
              second.request.options.stateRevision = first.request.options.stateRevision) →
            second.response = .ok (.operationConflict operationId (first.request.options.payloadHash.getD "")
                (second.request.options.payloadHash.getD "")))) := by
  have nonempty : operationId ≠ "" := (operationKey_some.mp firstIs).2
  obtain ⟨early, later, rfl, _, firstServed, afterFirst⟩ := trace_split split
  obtain ⟨between, last, rfl, rfl, secondServed, _⟩ := trace_split afterFirst.symm
  have firstMember : first ∈ history runtime (early ++ first.request :: (between ++ second.request :: last))
      start := by rw [split]; simp
  have firstLeaves : LeavesTrail first.request := leaves _ (by simp)
  have secondLeaves : LeavesTrail second.request := leaves _ (by simp)
  have betweenLeaves : ∀ call ∈ between, LeavesTrail call := fun c member => leaves c (by simp [member])
  obtain ⟨newRevision, pushed, revision⟩ := step_trail firstMember written firstLeaves
  have anchored : callView first.request.options newRevision ∈ storedTrail second.before.change ∧
      ∀ view ∈ storedTrail second.before.change, view.operationId = .str operationId →
        view = callView first.request.options newRevision := by
    have suffix : [callView first.request.options newRevision] <:+ storedTrail first.after.change := by
      rw [pushed]
      exact BoundedLog.suffix_push _ List.nil_suffix (by decide)
    have named : (callView first.request.options newRevision).operationId = .str operationId :=
      (callView_operation nonempty).mpr firstIs
    obtain ⟨stays, final⟩ := entry_stays betweenLeaves suffix (by rw [List.length_nil, Nat.zero_add]; exact recent)
    have uniqueAfterFirst : ∀ view ∈ storedTrail first.after.change,
        view.operationId = .str operationId → view = callView first.request.options newRevision := by
      intro view member viewNamed
      rw [pushed] at member
      rcases BoundedLog.mem_push member with earlier | same
      · exact absurd viewNamed (step_unseen firstMember written firstLeaves firstIs view earlier)
      · exact same
    have unique := entry_unique named nonempty betweenLeaves stays uniqueAfterFirst
    rw [show second.before = stateAfter (commitChangeProjection runtime) between first.after from
      congrArg Record.before secondServed]
    exact ⟨final, unique⟩
  obtain ⟨present, unique⟩ := anchored
  have secondMember : second ∈
      history runtime (early ++ first.request :: (between ++ second.request :: last)) start := by
    rw [split]; simp
  have named : (callView first.request.options newRevision).operationId = .str operationId :=
    (callView_operation nonempty).mpr firstIs
  refine ⟨?_, ?_⟩
  · apply step_unwritten secondMember
    cases wroteAgain : stepWrote runtime second with
    | false => rfl
    | true => exact absurd named (step_unseen secondMember wroteAgain secondLeaves secondIs _ present)
  · intro admitted locked latest read
    have sameTrail : trailOf latest = storedTrail second.before.change := latest_trail read secondLeaves.2
    rw [← sameTrail] at present unique
    obtain ⟨audit, auditMember, seen, answer⟩ := checkOperation_found secondIs present named unique
    have served : second.response = (commitChangeProjection runtime second.request second.before).1 :=
      congrArg Record.response (trace_step secondMember)
    refine ⟨?_, ?_⟩
    · rintro ⟨samePayload, sameState⟩
      rw [samePayload, sameState, if_pos ⟨rfl, rfl⟩] at answer
      refine ⟨audit, auditMember, by rw [revision]; exact seen, ?_⟩
      rw [served, commit_answered admitted locked read answer, revision]
      rfl
    · intro differs
      rw [if_neg] at answer
      · rw [served, commit_answered admitted locked read answer]
        simp only [callView, textD_ofStr]
      · rintro ⟨samePayload, sameState⟩
        exact differs ⟨ofStr_injective samePayload, ofNum_injective sameState⟩

/-! ## Fixed runs -/

def AppliedAtMostOnce (runtime : Runtime) (calls : List (CommitCall Aux)) (start : Disk Aux) : Prop :=
  ∀ front middle back first second operationId,
    history runtime calls start = front ++ first :: (middle ++ second :: back) →
    first.request.options.operationKey = some operationId →
    second.request.options.operationKey = some operationId →
    second.request.options.payloadHash = first.request.options.payloadHash →
    second.request.options.stateRevision = first.request.options.stateRevision →
    stepWrote runtime first = true → stepWrote runtime second = false

def operationCall (operationId : String) : CommitCall Unit where
  options := { CommitChangeProjectionOptions.applying (settingField "title" (.str operationId)) with
    operationId := some operationId
    payloadHash := some "hash" }
  events := .undisturbed "2026-01-01T00:00:00.000Z"

def forgettingCall : CommitCall Unit where
  options := CommitChangeProjectionOptions.applying (settingField "projection_commits" (.arr []))
  events := .undisturbed "2026-01-01T00:00:00.000Z"

def fiftyOperations : List (CommitCall Unit) :=
  (List.range 50).map fun n => operationCall (toString n)

theorem applied_twice {call : CommitCall Unit} {between : List (CommitCall Unit)} {start : Disk Unit}
    (operationId : String) (identified : call.options.operationKey = some operationId)
    (firstWrote : stepWrote .permissive (recordOf (commitChangeProjection .permissive) call start) = true)
    (secondWrote : stepWrote .permissive (recordOf (commitChangeProjection .permissive) call
      (stateAfter (commitChangeProjection .permissive) (call :: between) start)) = true) :
    ¬AppliedAtMostOnce .permissive (call :: (between ++ [call])) start := by
  intro atMostOnce
  have unwritten := atMostOnce _ _ _ _ _ operationId
    (history_between .permissive call call between start) identified identified rfl rfl firstWrote
  rw [secondWrote] at unwritten
  cases unwritten

/-- After fifty other writes, or one that rewrites the trail, an operation is
    applied again. -/
theorem operation_applied_twice :
    ¬AppliedAtMostOnce .permissive (operationCall "a" :: (fiftyOperations ++ [operationCall "a"])) freshDisk ∧
      ¬AppliedAtMostOnce .permissive (operationCall "a" :: ([forgettingCall] ++ [operationCall "a"])) freshDisk :=
  ⟨applied_twice "a" (by decide) (by rfl) (by decide +kernel),
    applied_twice "a" (by decide) (by rfl) (by decide +kernel)⟩

theorem operationCall_leavesTrail (operationId : String) : LeavesTrail (operationCall operationId) := by
  refine ⟨?_, fun _ _ _ parser => nomatch parser⟩
  intro entries mutated applied
  cases applied
  simp [Mutated.returning]

/-- A retry right after the write is a replay of it. -/
theorem operation_applied_once_retry : (commitChangeProjection .permissive (operationCall "a")
        (commitChangeProjection .permissive (operationCall "a") freshDisk).2).2.change =
      (commitChangeProjection .permissive (operationCall "a") freshDisk).2.change := by
  have leaves : ∀ call ∈ [operationCall "a", operationCall "a"], LeavesTrail call := by
    intro call member
    simp only [List.mem_cons, List.not_mem_nil, or_false, or_self] at member
    rw [member]
    exact operationCall_leavesTrail "a"
  have split : history .permissive [operationCall "a", operationCall "a"] freshDisk =
      [] ++ recordOf (commitChangeProjection .permissive) (operationCall "a") freshDisk ::
        ([] ++ recordOf (commitChangeProjection .permissive) (operationCall "a")
          (commitChangeProjection .permissive (operationCall "a") freshDisk).2 :: []) := rfl
  have identified : (operationCall "a").options.operationKey = some "a" := by decide
  exact (operation_applied_once .permissive leaves split identified identified (by rfl) (by decide)).1

end Advance.Storage
