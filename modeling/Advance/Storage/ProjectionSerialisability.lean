import Advance.Storage.StoredProjection

/-! # Commits of one change are serialisable

Any number of `commitChangeProjection` calls, interleaved step by step, behave
like the same calls run one after another in the order they got the lock.
-/

namespace Advance.Storage

open Advance.JavaScript Advance.Types
open Advance.Foundation Advance.Foundation.LockSystem

variable {Client Aux : Type}

/-! ## Turns -/

/-- One call's stay inside the lock. -/
abbrev Turn (Client Aux : Type) := Record (Disk Aux) Client CallResult

def lockClients (runtime : Runtime) (calls : Client → CommitCall Aux) (i : Client) :
    LockClient (Disk Aux) CallResult := lockClient runtime (calls i)

/-- The turns of the calls of `order`, taken one after another. -/
def turns (runtime : Runtime) (calls : Client → CommitCall Aux) (order : List Client)
    (start : Disk Aux) : List (Turn Client Aux) :=
  trace (serveLocked (lockClients runtime calls)) order start

/-- The turn replaced the projection file. -/
def wrote (runtime : Runtime) (calls : Client → CommitCall Aux) (turn : Turn Client Aux) : Bool :=
  (lockedWrite runtime (calls turn.request) turn.before.change).isSome

def storedRevision (file : FileState) : JsNumber := revisionOf (storedDocument file)

/-! ## The fold of the mutations -/

/-- What a call's `mutateLatest` makes of the projection in a file, with the next
    revision, the audit entry and the state revision laid over it. -/
def mutateStored (runtime : Runtime) (call : CommitCall Aux) (file : FileState) : Option JsVal := do
  let latest ← (readLatest runtime call file).toOption
  let mutated ← (call.options.mutateLatest latest).toOption
  let audit := auditEntry call.options (revisionOf latest) call.events.committedAt
  (buildValue call.options mutated (revisionOf latest + 1) audit).toOption

def applyStored (runtime : Runtime) (file : FileState) (call : CommitCall Aux) : FileState :=
  match mutateStored runtime call file with
  | some value => .text (runtime.stringify value)
  | none => file

/-- The mutations of the calls applied one after another, each to the result of the
    one before. -/
def foldMutations (runtime : Runtime) (calls : List (CommitCall Aux)) (file : FileState) : FileState :=
  calls.foldl (applyStored runtime) file

variable {runtime : Runtime}

theorem mutateStored_of_write {call : CommitCall Aux} {file : FileState}
    {plan : WritePlan} (written : lockedWrite runtime call file = some plan) :
    mutateStored runtime call file = some plan.value := by
  obtain ⟨latest, mutated, read, prepared⟩ := lockedWrite_prepared written
  have built := prepared.built
  rw [prepared.audit, prepared.new, prepared.prior] at built
  rw [mutateStored, read]
  simp only [Except.toOption, prepared.mutation, Option.bind_eq_bind, Option.bind_some, revisionOf, built]

/-! ## One turn -/

theorem turn_change (runtime : Runtime) (calls : Client → CommitCall Aux) (i : Client) (disk : Disk Aux) :
    ((serveLocked (lockClients runtime calls) i disk).2).change =
      match lockedWrite runtime (calls i) disk.change with
      | some plan => .text (runtime.stringify plan.value)
      | none => disk.change :=
  lockedProgram_change runtime (calls i) disk

variable {calls : Client → CommitCall Aux} {turn : Turn Client Aux} {order : List Client} {start : Disk Aux}

theorem turn_unwritten (member : turn ∈ turns runtime calls order start)
    (unwritten : wrote runtime calls turn = false) : turn.after.change = turn.before.change := by
  rw [trace_step member]
  simp only [recordOf]
  rw [turn_change]
  cases written : lockedWrite runtime (calls turn.request) turn.before.change with
  | none => rfl
  | some plan => simp [wrote, written] at unwritten

theorem turn_written (member : turn ∈ turns runtime calls order start) (written : wrote runtime calls turn = true) :
    ∃ plan, lockedWrite runtime (calls turn.request) turn.before.change = some plan ∧
      turn.after.change = .text (runtime.stringify plan.value) := by
  obtain ⟨plan, planned⟩ := Option.isSome_iff_exists.mp written
  refine ⟨plan, planned, ?_⟩
  rw [trace_step member]
  simp only [recordOf]
  rw [turn_change, planned]

theorem turn_revision (kept : ∀ i, NormalizerKeeps (calls i).options revisionOf)
    (member : turn ∈ turns runtime calls order start) : storedRevision turn.after.change =
      storedRevision turn.before.change + if wrote runtime calls turn then 1 else 0 := by
  cases written : wrote runtime calls turn with
  | false => simp [turn_unwritten member written]
  | true =>
    obtain ⟨plan, planned, after⟩ := turn_written member written
    obtain ⟨latest, mutated, read, prepared⟩ := lockedWrite_prepared planned
    rw [after, storedRevision, stored_stringify, write_revision prepared,
      latest_revision read (kept turn.request), if_pos rfl, storedRevision]

theorem serve_revision_mono
    (kept : ∀ i, NormalizerKeeps (calls i).options revisionOf) (i : Client) (disk : Disk Aux) :
    storedRevision disk.change ≤ storedRevision (serveLocked (lockClients runtime calls) i disk).2.change := by
  have member : recordOf (serveLocked (lockClients runtime calls)) i disk ∈
      turns runtime calls [i] disk := by simp [turns, trace]
  change storedRevision (recordOf (serveLocked (lockClients runtime calls)) i disk).before.change ≤
    storedRevision (recordOf (serveLocked (lockClients runtime calls)) i disk).after.change
  rw [turn_revision kept member]
  cases wrote runtime calls (recordOf (serveLocked (lockClients runtime calls)) i disk) <;> simp

theorem written_expected {call : CommitCall Aux} {file : FileState}
    {plan : WritePlan} (kept : NormalizerKeeps call.options revisionOf)
    (written : lockedWrite runtime call file = some plan) {expected : JsNumber}
    (supplied : call.options.expectedRevision = some expected) : storedRevision file = expected := by
  obtain ⟨latest, mutated, read, prepared⟩ := lockedWrite_prepared written
  have found := checkExpectedRevision_ok prepared.expected supplied
  rw [prepared.prior] at found
  rw [storedRevision, ← latest_revision read kept]
  exact found

/-! ## All turns -/

theorem fold_of_turns (runtime : Runtime) (calls : Client → CommitCall Aux) (order : List Client) (start : Disk Aux) :
    (stateAfter (serveLocked (lockClients runtime calls)) order start).change = foldMutations runtime
        (((turns runtime calls order start).filter (wrote runtime calls)).map fun turn =>
          calls turn.request) start.change := by
  induction order generalizing start with
  | nil => rfl
  | cons i order ih =>
    rw [stateAfter_cons, ih]
    simp only [turns, trace]
    cases planned : lockedWrite runtime (calls i) start.change with
    | none =>
      have unwritten : ¬wrote runtime calls (recordOf (serveLocked (lockClients runtime calls)) i start) := by
        simp [wrote, recordOf, planned]
      rw [List.filter_cons_of_neg unwritten, turn_change, planned]
    | some plan =>
      have written : wrote runtime calls (recordOf (serveLocked (lockClients runtime calls)) i start) := by
        simp [wrote, recordOf, planned]
      rw [List.filter_cons_of_pos written, turn_change, planned, List.map_cons]
      simp only [foldMutations, List.foldl_cons, recordOf, applyStored, mutateStored_of_write planned]

theorem expected_distinct (runtime : Runtime)
    (kept : ∀ i, NormalizerKeeps (calls i).options revisionOf) (order : List Client) (start : Disk Aux) :
    (turns runtime calls order start).Pairwise fun earlier later =>
      wrote runtime calls earlier = true → wrote runtime calls later = true →
        ∀ expected, (calls earlier.request).options.expectedRevision = some expected →
          (calls later.request).options.expectedRevision ≠ some expected := by
  induction order generalizing start with
  | nil => exact .nil
  | cons i order ih =>
    refine .cons ?_ (ih _)
    intro later member earlierWrote laterWrote expected earlierExpects laterExpects
    have head : recordOf (serveLocked (lockClients runtime calls)) i start ∈
        turns runtime calls (i :: order) start := by simp [turns, trace]
    obtain ⟨earlierPlan, earlierPlanned, _⟩ := turn_written head earlierWrote
    obtain ⟨laterPlan, laterPlanned, _⟩ := turn_written member laterWrote
    have earlierFound := written_expected (kept i) earlierPlanned earlierExpects
    have laterFound := written_expected (kept later.request) laterPlanned laterExpects
    have counted := turn_revision kept head
    rw [earlierWrote] at counted
    -- the revision never falls after the earlier write
    have below := ((trace_invariant (P := fun disk : Disk Aux =>
        storedRevision (serveLocked (lockClients runtime calls) i start).2.change ≤ storedRevision disk.change) le_rfl
      (fun j _ disk reached => reached.trans (serve_revision_mono kept j disk))).1 later member).1
    change storedRevision (recordOf (serveLocked (lockClients runtime calls)) i start).after.change ≤
      storedRevision later.before.change at below
    rw [counted, earlierFound, laterFound, if_pos rfl] at below
    exact absurd below (not_le.mpr (lt_add_one expected))

/-! ## Every interleaving -/

section Interleaving

variable [DecidableEq Client]

/-- Every interleaving of the steps of any calls of one change, seen when nobody
    holds the lock: each call that was inside answered as in its turn, only turns
    that wrote changed the file, and the file is the fold of their mutations.
    Where repair parsers leave `projection_revision` as it is, each write counts it
    up by one, nothing else does, and no two writes expected the same revision. -/
theorem commits_serialise (runtime : Runtime) (calls : Client → CommitCall Aux) {start : Disk Aux}
    {system : LockSystem Client (Disk Aux) CallResult}
    (reached : Reachable (lockClients runtime calls) start system) (free : system.holder = none) :
    (∀ turn ∈ turns runtime calls system.order start, system.client turn.request = .done turn.response) ∧
    (∀ turn ∈ turns runtime calls system.order start, wrote runtime calls turn = false →
      turn.after.change = turn.before.change) ∧
    (∀ turn ∈ turns runtime calls system.order start, wrote runtime calls turn = true →
      ∃ value, mutateStored runtime (calls turn.request) turn.before.change = some value ∧
        turn.after.change = .text (runtime.stringify value)) ∧ system.store.change = foldMutations runtime
      (((turns runtime calls system.order start).filter (wrote runtime calls)).map fun turn =>
        calls turn.request) start.change ∧ ((∀ i, NormalizerKeeps (calls i).options revisionOf) →
      (∀ turn ∈ turns runtime calls system.order start, storedRevision turn.after.change =
          storedRevision turn.before.change + if wrote runtime calls turn then 1 else 0) ∧
      (∀ first ∈ turns runtime calls system.order start,
        ∀ second ∈ turns runtime calls system.order start, first.request ≠ second.request →
          wrote runtime calls first = true → wrote runtime calls second = true →
          ∀ expected, (calls first.request).options.expectedRevision = some expected →
            (calls second.request).options.expectedRevision ≠ some expected)) := by
  obtain ⟨_, answered, store⟩ := serialisable reached free
  refine ⟨answered, fun turn => turn_unwritten, ?_, ?_, ?_⟩
  · intro turn member written
    obtain ⟨plan, planned, after⟩ := turn_written member written
    exact ⟨plan.value, mutateStored_of_write planned, after⟩
  · rw [store]
    exact fold_of_turns runtime calls system.order start
  · intro kept
    refine ⟨fun turn member => turn_revision kept member, ?_⟩
    have ordered := expected_distinct runtime kept system.order start
    intro first firstMember second secondMember
    refine List.Pairwise.forall_of_forall_of_flip
      (R := fun first second : Turn Client Aux => first.request ≠ second.request →
        wrote runtime calls first = true → wrote runtime calls second = true →
          ∀ expected, (calls first.request).options.expectedRevision = some expected →
            (calls second.request).options.expectedRevision ≠ some expected)
      ?_ ?_ ?_ firstMember secondMember
    · intro turn _ differs
      exact absurd rfl differs
    · refine ordered.imp ?_
      intro earlier later distinct _
      exact distinct
    · refine ordered.imp ?_
      intro earlier later distinct _ laterWrote earlierWrote expected laterExpects earlierExpects
      exact distinct earlierWrote laterWrote expected earlierExpects laterExpects

end Interleaving

/-! ## Fixed runs -/

def resettingCall : CommitCall Unit where
  options := { CommitChangeProjectionOptions.applying (settingField "title" (.str "repaired")) with
    normalizeLatestProjection := some fun _ => .ok (bareChange "addSearch") }
  events := .undisturbed "2026-01-01T00:00:00.000Z"

def damagedDisk : Disk Unit := ⟨.ofJson (.obj [("projection_revision", .num 5)]), ()⟩

def resettingRun : {system : LockSystem Bool (Disk Unit) CallResult // system.holder = none ∧ system.order = [true]} :=
  ⟨runSchedule (lockClients .permissive fun _ => resettingCall) (List.replicate 7 true) damagedDisk, by decide +kernel⟩

/-- With a repair parser that forgets the revision, a write does not count it up. -/
theorem commits_serialise_resetting_normalizer : ¬∀ (calls : Bool → CommitCall Unit) (start : Disk Unit)
        (system : LockSystem Bool (Disk Unit) CallResult),
        Reachable (lockClients .permissive calls) start system → system.holder = none →
        ∀ turn ∈ turns .permissive calls system.order start, storedRevision turn.after.change =
            storedRevision turn.before.change + if wrote .permissive calls turn then 1 else 0 := by
  intro everyWriteCounts
  obtain ⟨free, order⟩ := resettingRun.property
  have counted := everyWriteCounts (fun _ => resettingCall) damagedDisk resettingRun.val
    (reachable_runSchedule _ _ _) free
    (recordOf (serveLocked (lockClients .permissive fun _ => resettingCall)) true damagedDisk)
    (by
      rw [order]
      simp [turns, trace])
  revert counted
  decide +kernel

def racingCall (key : String) : CommitCall Unit where
  options := { CommitChangeProjectionOptions.applying (settingField key (.str "set")) with
    expectedRevision := some 0 }
  events := .undisturbed "2026-01-01T00:00:00.000Z"

def racingCalls (second : Bool) : CommitCall Unit :=
  if second then racingCall "created_by" else racingCall "title"

def racingSystem : LockSystem Bool (Disk Unit) CallResult :=
  runSchedule (lockClients .permissive racingCalls)
    [false, true, false, true, false, true, false, false, false, true, true, true, true, true] freshDisk

def racingRun : {system : LockSystem Bool (Disk Unit) CallResult // system.holder = none ∧
    system.order = [false, true] ∧ storedRevision system.store.change = 1} := ⟨racingSystem, by decide +kernel⟩

theorem commits_serialise_racing : racingSystem.order = [false, true] ∧ storedRevision racingSystem.store.change = 1 ∧
      racingSystem.store.change = foldMutations .permissive
        (((turns .permissive racingCalls racingSystem.order freshDisk).filter
          (wrote .permissive racingCalls)).map fun turn => racingCalls turn.request)
        freshDisk.change ∧
      (∀ turn ∈ turns .permissive racingCalls racingSystem.order freshDisk, storedRevision turn.after.change =
          storedRevision turn.before.change + if wrote .permissive racingCalls turn then 1 else 0) := by
  have kept : ∀ i, NormalizerKeeps (racingCalls i).options revisionOf := by
    intro i normalize raw normalized parser
    cases i <;> cases parser
  obtain ⟨free, order, revision⟩ := racingRun.property
  obtain ⟨_, _, _, folded, counted⟩ := commits_serialise .permissive racingCalls
    (reachable_runSchedule _ _ _) (show racingSystem.holder = none from free)
  exact ⟨order, revision, folded, (counted kept).1⟩

end Advance.Storage
