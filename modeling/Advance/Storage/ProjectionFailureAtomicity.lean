import Advance.Storage.StoredProjection

/-! # Failure atomicity of a commit

A call that does not end committed should have left the projection file alone, and
no call should leave a file that no longer loads.  The document is validated only
after it has replaced the previous one, so both depend on what is written.
-/

namespace Advance.Storage

open Advance.JavaScript Advance.Foundation

variable {Aux : Type}

/-- A call that ends neither committed nor committed_unverified leaves the file as it
    was, and a file that loads still loads after the call. -/
def FailureAtomic (runtime : Runtime) (call : CommitCall Aux) (disk : Disk Aux) : Prop :=
  (endsCommitted (commitChangeProjection runtime call disk).1 = false →
      (commitChangeProjection runtime call disk).2.change = disk.change) ∧
    ((∃ change, Loads runtime disk.change change) →
      ∃ change, Loads runtime (commitChangeProjection runtime call disk).2.change change)

/-- The callbacks of a call return on the readback of its plan: `verify` does not
    throw, and `afterCommit` does not where it is called. -/
def CallbacksReturn (call : CommitCall Aux) (plan : WritePlan) (readback : JsVal) (aux : Aux) : Prop :=
  ∃ result, call.options.verify ⟨plan.latest, readback, plan.priorRevision, plan.newRevision⟩ = .ok result ∧
      (result.ok = true → ∀ afterCommit, call.options.afterCommit = some afterCommit →
        ∃ after, ((afterCommit (afterCommitContext plan readback)).run aux).1 = .ok after)

/-- What a call replaces the file by survives: it is what stood there, or it loads,
    its readback is not failed by the system, and the callbacks return. -/
def WriteSurvives (runtime : Runtime) (call : CommitCall Aux) (disk : Disk Aux) : Prop :=
  ∀ plan, writtenPlan runtime call disk = some plan → .text (runtime.stringify plan.value) = disk.change ∨
      (call.events.readbackFault = none ∧ ∃ readback, Loads runtime (.text (runtime.stringify plan.value)) readback ∧
          CallbacksReturn call plan readback disk.aux)

theorem afterCommitResult_ends (plan : WritePlan) (readback : JsVal)
    (result : Except String ProjectionCommitAfterCommitResult) :
    endsCommitted (afterCommitResult plan readback result) = true ↔ ∃ after, result = .ok after := by
  cases result with
  | error error => simp [afterCommitResult, endsCommitted]
  | ok after => cases after <;> simp [afterCommitResult, committedResult, endsCommitted]

theorem afterCommitProgram_ends (call : CommitCall Aux) (plan : WritePlan) (readback : JsVal) (disk : Disk Aux) :
    endsCommitted ((afterCommitProgram call plan readback).run disk).1 = true ↔
      ∀ afterCommit, call.options.afterCommit = some afterCommit →
        ∃ after, ((afterCommit (afterCommitContext plan readback)).run disk.aux).1 = .ok after := by
  unfold afterCommitProgram
  cases hook : call.options.afterCommit with
  | none => simp [committedResult, endsCommitted]
  | some afterCommit => simp [afterCommitResult_ends, Disk.beside]

variable {call : CommitCall Aux} {runtime : Runtime} {plan : WritePlan} {disk : Disk Aux}

theorem confirm_ends {latest : JsVal} {mutated : Mutated}
    (prepared : Prepared runtime call.options call.events.committedAt latest mutated plan)
    (faultless : call.events.readbackFault = none)
    (written : disk.change = .text (runtime.stringify plan.value)) {readback : JsVal}
    (loads : Loads runtime disk.change readback) :
    endsCommitted ((confirmProgram runtime call plan).run disk).1 = true ↔
      CallbacksReturn call plan readback disk.aux := by
  have proven := readback_proven prepared (written ▸ loads)
  simp only [confirmProgram, Program.run_look, faultless, readBack_of_loads call.options loads,
    Stage.thenRun, proven, CallbacksReturn, checkPostcondition]
  cases verified : call.options.verify ⟨plan.latest, readback, plan.priorRevision, plan.newRevision⟩ with
  | error error => simp [rejects, endsCommitted]
  | ok result =>
    have followUp := afterCommitProgram_ends call plan readback disk
    cases result with
    | boolean ok =>
      cases ok with
      | true => simpa [ProjectionCommitVerifyResult.ok] using followUp
      | false => simp [unverified, returns, endsCommitted, ProjectionCommitVerifyResult.ok]
    | object ok error =>
      cases ok with
      | true => simpa [ProjectionCommitVerifyResult.ok] using followUp
      | false => simp [unverified, returns, endsCommitted, ProjectionCommitVerifyResult.ok]

theorem confirm_unread
    (unread : ¬(call.events.readbackFault = none ∧ ∃ readback, Loads runtime disk.change readback)) :
    endsCommitted ((confirmProgram runtime call plan).run disk).1 = false := by
  simp only [confirmProgram, Program.run_look]
  cases read : readBack runtime call.options disk.change call.events.readbackFault with
  | error result => exact readBack_error read
  | ok readback =>
    obtain ⟨faultless, loads⟩ := readBack_ok read
    exact absurd ⟨faultless, readback, loads⟩ unread

theorem commit_ends (replaced : call.events.write = .replaced) (written : writtenPlan runtime call disk = some plan) :
    endsCommitted (commitChangeProjection runtime call disk).1 = true ↔
      (call.events.readbackFault = none ∧ ∃ readback, Loads runtime (.text (runtime.stringify plan.value)) readback ∧
          CallbacksReturn call plan readback disk.aux) := by
  obtain ⟨admitted, locked, lockedWritten⟩ := writtenPlan_some.mp written
  obtain ⟨latest, mutated, _, prepared⟩ := lockedWrite_prepared lockedWritten
  have result : (commitChangeProjection runtime call disk).1 = ((confirmProgram runtime call plan).run
        { disk with change := .text (runtime.stringify plan.value) }).1 := by
    rw [commit_locked admitted locked, lockedProgram_run, (lockedWrite_some.mp lockedWritten).1]
    simp only [writeProgram, Program.run_act, replaced, writeChange]
  rw [result]
  by_cases readable : call.events.readbackFault = none ∧
      ∃ readback, Loads runtime (.text (runtime.stringify plan.value)) readback
  · obtain ⟨faultless, readback, loads⟩ := readable
    have ends : endsCommitted ((confirmProgram runtime call plan).run
        { disk with change := .text (runtime.stringify plan.value) }).1 = true ↔
          CallbacksReturn call plan readback disk.aux := confirm_ends prepared faultless rfl loads
    rw [ends]
    constructor
    · exact fun returns => ⟨faultless, readback, loads, returns⟩
    · rintro ⟨_, other, otherLoads, returns⟩
      exact loads.unique otherLoads ▸ returns
  · have ends : endsCommitted ((confirmProgram runtime call plan).run
        { disk with change := .text (runtime.stringify plan.value) }).1 = false :=
      confirm_unread readable
    rw [ends]
    constructor
    · intro impossible
      cases impossible
    · rintro ⟨faultless, readback, loads, _⟩
      exact absurd ⟨faultless, readback, loads⟩ readable

/-- Where the atomic write replaces the file or leaves it alone, a call is
    failure-atomic exactly when what it writes survives. -/
theorem failure_atomic_iff (runtime : Runtime) (call : CommitCall Aux) (disk : Disk Aux)
    (atomicWrite : ∀ error, call.events.write ≠ .replacedThenFailed error) :
    FailureAtomic runtime call disk ↔ WriteSurvives runtime call disk := by
  cases written : writtenPlan runtime call disk with
  | none =>
    have unchanged : (commitChangeProjection runtime call disk).2.change = disk.change := by
      rw [commit_change, written]
    constructor
    · intro _ plan some
      rw [written] at some
      cases some
    · intro _
      rw [FailureAtomic, unchanged]
      exact ⟨fun _ => rfl, id⟩
  | some plan =>
    have changed : (commitChangeProjection runtime call disk).2.change = .text (runtime.stringify plan.value) := by
      rw [commit_change, written]
    have replaced : call.events.write = .replaced := by
      have replaces := (lockedWrite_some.mp (writtenPlan_some.mp written).2.2).2
      cases event : call.events.write with
      | replaced => rfl
      | failed error => rw [event] at replaces; cases replaces
      | replacedThenFailed error => exact absurd event (atomicWrite error)
    have ends := commit_ends replaced written
    rw [FailureAtomic, changed]
    constructor
    · rintro ⟨unchangedOnFailure, _⟩ other same
      cases written.symm.trans same
      cases ended : endsCommitted (commitChangeProjection runtime call disk).1 with
      | false => exact .inl (unchangedOnFailure ended)
      | true => exact .inr (ends.mp ended)
    · intro survives
      rcases survives plan written with same | ⟨faultless, readback, loads, returns⟩
      · rw [same]
        exact ⟨fun _ => rfl, id⟩
      · refine ⟨?_, fun _ => ⟨readback, loads⟩⟩
        intro uncommitted
        rw [ends.mpr ⟨faultless, readback, loads, returns⟩] at uncommitted
        cases uncommitted

/-- A commit that gives the title a value. -/
def titleCall (title : JsVal) : CommitCall Unit where
  options := CommitChangeProjectionOptions.applying (settingField "title" title)
  events := .undisturbed "2026-01-01T00:00:00.000Z"

def malformedRun : {run : CallResult × Disk Unit // endsCommitted run.1 = false ∧
    storedDocument run.2.change ≠ storedDocument freshDisk.change} :=
  ⟨commitChangeProjection .permissive (titleCall (.num 1)) freshDisk, by decide +kernel⟩

/-- A title the schema refuses is on disk when the call reports a schema error. -/
theorem malformed_title_written : ¬FailureAtomic .permissive (titleCall (.num 1)) freshDisk := by
  rintro ⟨unchangedOnFailure, _⟩
  obtain ⟨uncommitted, differs⟩ := malformedRun.property
  exact differs (congrArg storedDocument (unchangedOnFailure uncommitted))

theorem failure_atomic_title : FailureAtomic .permissive (titleCall (.str "title")) freshDisk := by
  refine (failure_atomic_iff .permissive (titleCall (.str "title")) freshDisk (fun _ => nofun)).mpr ?_
  intro plan written
  exact .inr ((commit_ends rfl written).mp (by decide +kernel))

end Advance.Storage
