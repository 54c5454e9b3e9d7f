import Advance.Storage.ProjectionReplay

/-! # The state-revision fence over a history

A commit that carries a state revision is refused below the stored one, and at the
stored one when the trail shows that it was projected by something else.
-/

namespace Advance.Storage

open Advance.JavaScript Advance.JavaScript.JsVal Advance.Types Advance.Foundation

variable {Aux : Type}

/-- A call whose mutation and repair parser leave the state revision of the
    projection they are given as it is. -/
def LeavesState (call : CommitCall Aux) : Prop :=
  (∀ entries mutated, call.options.mutateLatest (.obj entries) = .ok mutated →
    stateRevisionOf mutated.latest = stateRevisionOf (.obj entries)) ∧
  NormalizerKeeps call.options stateRevisionOf

section Step

variable {runtime : Runtime} {calls : List (CommitCall Aux)} {start : Disk Aux} {step : HistoryStep Aux}

section

variable (member : step ∈ history runtime calls start)
include member

theorem step_state (written : stepWrote runtime step = true) (leaves : LeavesState step.request) :
    storedStateRevision step.after.change =
        step.request.options.stateRevision.getD (storedStateRevision step.before.change) ∧
      storedStateRevision step.before.change ≤ storedStateRevision step.after.change := by
  obtain ⟨latest, mutated, plan, _, read, prepared, stored⟩ := step_written member written
  have latestState : stateRevisionOf latest = storedStateRevision step.before.change :=
    latest_state read leaves.2
  have leftState : stateRevisionOf mutated.latest = storedStateRevision step.before.change := by
    obtain ⟨source, parsed⟩ := readLatest_valid read
    obtain ⟨_, entries, rfl⟩ := ChangeSchema_ok parsed
    rw [leaves.1 entries mutated prepared.mutation, latestState]
  have after : storedStateRevision step.after.change =
      step.request.options.stateRevision.getD (storedStateRevision step.before.change) := by
    rw [storedStateRevision, stored, write_state prepared, leftState]
  refine ⟨after, ?_⟩
  rw [after]
  cases supplied : step.request.options.stateRevision with
  | none => rfl
  | some stateRevision =>
    rw [Option.getD_some, ← latestState]
    exact (checkStateRevision_ok prepared.state supplied).1

theorem step_state_mono (leaves : LeavesState step.request) :
    storedStateRevision step.before.change ≤ storedStateRevision step.after.change := by
  cases written : stepWrote runtime step with
  | false => rw [step_unwritten member written]
  | true => exact (step_state member written leaves).2

theorem step_fenced (leavesTrail : LeavesTrail step.request)
    (leavesState : LeavesState step.request) {operationId : String}
    (identified : step.request.options.operationKey = some operationId) {stateRevision : JsNumber}
    (supplied : step.request.options.stateRevision = some stateRevision)
    (reached : stateRevision ≤ storedStateRevision step.before.change)
    (projected : ∃ view ∈ storedTrail step.before.change, view.stateRevision = .num stateRevision) :
    stepWrote runtime step = false := by
  cases written : stepWrote runtime step with
  | false => rfl
  | true =>
    obtain ⟨latest, mutated, plan, _, read, prepared, _⟩ := step_written member written
    have sameTrail : trailOf latest = storedTrail step.before.change := latest_trail read leavesTrail.2
    have sameState : stateRevisionOf latest = storedStateRevision step.before.change :=
      latest_state read leavesState.2
    obtain ⟨notBelow, fence⟩ := checkStateRevision_ok prepared.state supplied
    have equal : stateRevision = stateRevisionOf latest :=
      le_antisymm (by rw [sameState]; exact reached) notBelow
    have clear := fence operationId identified equal
    -- the fence looks at the first entry with this state revision
    have found : ((auditEntries latest).find? fun entry =>
        entry.get "state_revision" = .num stateRevision).isSome := by
      rw [List.find?_isSome]
      obtain ⟨view, present, same⟩ := projected
      rw [← sameTrail] at present
      obtain ⟨entry, entryMember, rfl⟩ := List.mem_map.mp present
      exact ⟨entry, entryMember, by simpa [auditView] using same⟩
    obtain ⟨entry, first⟩ := Option.isSome_iff_exists.mp found
    have unseen := checkOperation_ok prepared.operation identified entry (List.mem_of_find?_eq_some first)
    simp [stateRevisionConflict, first, unseen] at clear

end

end Step

theorem commit_state_mono (runtime : Runtime) {call : CommitCall Aux} (disk : Disk Aux) (leaves : LeavesState call) :
    storedStateRevision disk.change ≤ storedStateRevision (commitChangeProjection runtime call disk).2.change := by
  have member : recordOf (commitChangeProjection runtime) call disk ∈ history runtime [call] disk := by
    simp [history, trace]
  have mono := step_state_mono member leaves
  rwa [recordOf_before, recordOf_after] at mono

/-- While mutations and repair parsers leave the trail and the state revision as they
    find them, the stored state revision never falls; and once a call has written a
    state revision, no identified call writes it again before fifty writes. -/
theorem state_fence (runtime : Runtime) {calls : List (CommitCall Aux)} {start : Disk Aux}
    (leaves : ∀ call ∈ calls, LeavesTrail call ∧ LeavesState call) : (∀ step ∈ history runtime calls start,
      storedStateRevision step.before.change ≤ storedStateRevision step.after.change) ∧
    ∀ front middle back first second stateRevision operationId,
      history runtime calls start = front ++ first :: (middle ++ second :: back) →
      first.request.options.stateRevision = some stateRevision →
      second.request.options.stateRevision = some stateRevision →
      second.request.options.operationKey = some operationId →
      stepWrote runtime first = true →
      writeCount runtime middle < PROJECTION_COMMIT_MAX_AUDIT_ENTRIES →
      stepWrote runtime second = false := by
  have requested : ∀ step ∈ history runtime calls start, step.request ∈ calls := fun _ member => request_mem member
  refine ⟨fun step member => step_state_mono member (leaves _ (requested step member)).2, ?_⟩
  intro front middle back first second stateRevision operationId split firstCarries secondCarries
    secondIs written recent
  have firstMember : first ∈ history runtime calls start := by rw [split]; simp
  have secondMember : second ∈ history runtime calls start := by rw [split]; simp
  obtain ⟨firstTrail, firstState⟩ := leaves _ (requested first firstMember)
  obtain ⟨secondTrail, secondState⟩ := leaves _ (requested second secondMember)
  obtain ⟨early, later, rfl, _, _, afterFirst⟩ := trace_split split
  obtain ⟨between, last, rfl, rfl, secondServed, _⟩ := trace_split afterFirst.symm
  have betweenLeaves : ∀ call ∈ between, LeavesTrail call ∧ LeavesState call :=
    fun call member => leaves call (by simp [member])
  have before : second.before = stateAfter (commitChangeProjection runtime) between first.after :=
    congrArg Record.before secondServed
  obtain ⟨newRevision, pushed, _⟩ := step_trail firstMember written firstTrail
  have suffix : [callView first.request.options newRevision] <:+ storedTrail first.after.change := by
    rw [pushed]
    exact BoundedLog.suffix_push _ List.nil_suffix (by decide)
  have carried : (callView first.request.options newRevision).stateRevision = .num stateRevision := by
    simp only [callView, firstCarries, ofNum]
  have kept := (entry_stays (fun call member => (betweenLeaves call member).1) suffix
    (by rw [List.length_nil, Nat.zero_add]; exact recent)).2
  have stored : storedStateRevision first.after.change = stateRevision := by
    rw [(step_state firstMember written firstState).1, firstCarries, Option.getD_some]
  have risen : stateRevision ≤
      storedStateRevision (stateAfter (commitChangeProjection runtime) between first.after).change := by
    refine (trace_invariant (P := fun disk : Disk Aux => stateRevision ≤
      storedStateRevision disk.change) stored.ge ?_).2
    intro call member disk reached
    exact reached.trans (commit_state_mono runtime disk (betweenLeaves call member).2)
  refine step_fenced secondMember secondTrail secondState secondIs secondCarries ?_ ?_
  · rw [before]
    exact risen
  · rw [before]
    exact ⟨callView first.request.options newRevision, kept, carried⟩

/-! ## Fixed runs -/

def StateNeverDecreases (runtime : Runtime) (calls : List (CommitCall Aux)) (start : Disk Aux) : Prop :=
  ∀ step ∈ history runtime calls start, storedStateRevision step.before.change ≤ storedStateRevision step.after.change

def StateRevisionsDistinct (runtime : Runtime) (calls : List (CommitCall Aux)) (start : Disk Aux) : Prop :=
  ∀ front middle back first second stateRevision,
    history runtime calls start = front ++ first :: (middle ++ second :: back) →
    first.request.options.stateRevision = some stateRevision →
    second.request.options.stateRevision = some stateRevision →
    (second.request.options.operationId ≠ first.request.options.operationId ∨
      second.request.options.payloadHash ≠ first.request.options.payloadHash) →
    stepWrote runtime first = true → stepWrote runtime second = false

def stateCall (operationId : Option String) : CommitCall Unit where
  options := { CommitChangeProjectionOptions.applying (settingField "title" (.str "title")) with
    operationId := operationId
    payloadHash := some "hash"
    stateRevision := some 7 }
  events := .undisturbed "2026-01-01T00:00:00.000Z"

def loweringCall : CommitCall Unit where
  options := CommitChangeProjectionOptions.applying fun latest =>
    .ok (.returning (latest.set "state_revision" (.num 1)) latest)
  events := .undisturbed "2026-01-01T00:00:00.000Z"

theorem projected_twice {first second : CommitCall Unit} {between : List (CommitCall Unit)}
    {start : Disk Unit} (firstCarries : first.options.stateRevision = some 7)
    (secondCarries : second.options.stateRevision = some 7)
    (differs : second.options.operationId ≠ first.options.operationId)
    (firstWrote : stepWrote .permissive (recordOf (commitChangeProjection .permissive) first start) = true)
    (secondWrote : stepWrote .permissive (recordOf (commitChangeProjection .permissive) second
      (stateAfter (commitChangeProjection .permissive) (first :: between) start)) = true) :
    ¬StateRevisionsDistinct .permissive (first :: (between ++ [second])) start := by
  intro distinct
  have unwritten := distinct _ _ _ _ _ 7 (history_between .permissive first second between start)
    firstCarries secondCarries (.inl differs) firstWrote
  rw [secondWrote] at unwritten
  cases unwritten

/-- The fence misses an operation that fifty writes pushed out of the trail and a
    commit without operation identity, and a mutation can lower the state revision
    in place. -/
theorem state_fence_passed : ¬StateRevisionsDistinct .permissive
        (stateCall (some "a") :: (fiftyOperations ++ [stateCall (some "b")])) freshDisk ∧
      ¬StateRevisionsDistinct .permissive (stateCall (some "a") :: ([] ++ [stateCall none])) freshDisk ∧
      ¬StateNeverDecreases .permissive [stateCall none, loweringCall] freshDisk := by
  refine ⟨projected_twice rfl rfl (by decide) (by decide) (by decide +kernel),
    projected_twice rfl rfl (by decide) (by decide) (by decide +kernel), ?_⟩
  intro neverDecreases
  have risen := neverDecreases (recordOf (commitChangeProjection .permissive) loweringCall
    (commitChangeProjection .permissive (stateCall none) freshDisk).2) (by simp [history, trace])
  revert risen
  decide +kernel

theorem stateCall_leaves (operationId : Option String) :
    LeavesTrail (stateCall operationId) ∧ LeavesState (stateCall operationId) := by
  refine ⟨⟨?_, fun _ _ _ parser => nomatch parser⟩, ?_, fun _ _ _ parser => nomatch parser⟩
  · intro entries mutated applied
    cases applied
    simp [Mutated.returning]
  · intro entries mutated applied
    cases applied
    rfl

theorem state_fence_next : stepWrote .permissive (recordOf (commitChangeProjection .permissive) (stateCall (some "b"))
      (commitChangeProjection .permissive (stateCall (some "a")) freshDisk).2) = false := by
  have leaves : ∀ call ∈ [stateCall (some "a"), stateCall (some "b")], LeavesTrail call ∧ LeavesState call := by
    intro call member
    rcases List.mem_pair.mp member with rfl | rfl
    · exact stateCall_leaves (some "a")
    · exact stateCall_leaves (some "b")
  exact (state_fence .permissive leaves).2 _ _ _ _ _ 7 "b"
    (history_between .permissive (stateCall (some "a")) (stateCall (some "b")) [] freshDisk)
    rfl rfl (by decide) (by rfl) (by decide)

end Advance.Storage
