import Advance.JavaScript.Path
import Advance.Storage.ChangeSummaryShard
import Advance.Storage.ClosedBundle

/-! # The bulk-close sweep

`sweepClosedChangesFromDisk` goes through ids: it retires the records that it can load, and it removes the directories
of all others.
-/

namespace Advance.Storage

open Advance.Foundation Advance.JavaScript

abbrev DirNames := List (List Char)

/-- A directory with its record and whatever else stands in it. -/
structure ChangeDir where
  change : FileState
  others : List String

structure SweepDisk where
  dirs : DirNames → Option ChangeDir
  closed : DirNames → FileState

def SweepDisk.record (disk : SweepDisk) (path : DirNames) : FileState := (disk.dirs path).elim .absent ChangeDir.change

structure SweepPaths where
  changesDir : String
  closedPath : String

/-- What `join(dir, id)` names. -/
def joined (dir id : String) : DirNames :=
  (pathNames id.toList).foldl enterName ((pathNames dir.toList).foldl enterName [])

def isUnsafeChangeId (id : String) : Bool :=
  id.isEmpty || includes id "/" || includes id "\\" || id = "." || id = ".." || includes id ".." ||
    "/".toList.isPrefixOf id.toList

/-- A removal that fails leaves what it has not come to. -/
inductive DirRemoval where
  | removed
  | failed (error : String) (left : Option ChangeDir)

structure SweepRequest where
  id : String
  readFault : Option ReadFault
  retire : RetireEvents
  rm : DirRemoval

inductive SweepOutcome where
  | removed
  | failed (error : String)
  deriving DecidableEq

section

variable (runtime : Runtime) (paths : SweepPaths)

def SweepPaths.changeDir (id : String) : DirNames := joined paths.changesDir id

def SweepPaths.closedDir (id : String) : DirNames := joined paths.closedPath id

def SweepDisk.leave (disk : SweepDisk) (path : DirNames) (dir : Option ChangeDir) : SweepDisk :=
  { disk with dirs := Function.update disk.dirs path dir }

/-- The directory that a retirement removes, which is the one its record is named after. -/
def retiredDir (removal : RemovalEvent) (dir : Option ChangeDir) : Option ChangeDir :=
  match removal with
  | .removed => none
  | .failed _ true => dir.map fun held => { held with change := .absent }
  | .failed _ false => dir

def retireOne (change : JsVal) (events : RetireEvents) (disk : SweepDisk) : SweepOutcome × SweepDisk :=
  let changeId := fieldText change "id"
  let path := paths.changeDir changeId
  let files : RecordFiles Unit := ⟨⟨disk.record path, ()⟩, disk.closed (paths.closedDir changeId)⟩
  let result := retireClosedChange runtime paths.closedPath change events files
  let copied := { disk with closed := Function.update disk.closed (paths.closedDir changeId) result.2.closed }
  match result.1 with
  | .failed error => (.failed error, copied)
  | .ok _ => (.removed, copied.leave path (retiredDir events.removal (disk.dirs path)))

def sweepOne (request : SweepRequest) (disk : SweepDisk) : SweepOutcome × SweepDisk :=
  if isUnsafeChangeId request.id then
    (.failed "Invalid change id: contains path separator or traversal character", disk)
  else
    let target := paths.changeDir request.id
    match loadChange runtime paths.changesDir request.id (disk.record target) request.readFault with
    | .success (some change) => retireOne runtime paths change request.retire disk
    | _ =>
      match request.rm with
      | .removed => (.removed, disk.leave target none)
      | .failed error left => (.failed error, disk.leave target left)

def sweepClosedChangesFromDisk (requests : List SweepRequest) (disk : SweepDisk) : SweepDisk :=
  stateAfter (sweepOne runtime paths) requests disk

abbrev SweepStep := Record SweepDisk SweepRequest SweepOutcome

/-- The closed copy of a record holds the same content, and it is readable. -/
def HasCopy (record : FileState) (closed : DirNames → FileState) : Prop :=
  ∃ change readback, Loads runtime record change ∧
    closed (paths.closedDir (fieldText change "id")) = .text (runtime.stringify change) ∧
    Loads runtime (.text (runtime.stringify change)) readback

/-- A directory is removed only without a record or with a copy of it, any other is reported and left as it was, and
    nothing else in or outside of the directory of the changes is touched. -/
structure SparesRecords (step : SweepStep) : Prop where
  elsewhere : ∀ path ≠ paths.changeDir step.request.id, step.after.dirs path = step.before.dirs path
  here : step.after.dirs (paths.changeDir step.request.id) = step.before.dirs (paths.changeDir step.request.id) ∨
    (step.after.dirs (paths.changeDir step.request.id) = none ∧ step.response = .removed ∧
      (step.before.record (paths.changeDir step.request.id) = .absent ∨
        HasCopy runtime paths (step.before.record (paths.changeDir step.request.id)) step.after.closed))
  reported : step.response = .removed → step.after.dirs (paths.changeDir step.request.id) = none

/-- The record is retired from its own directory, and wholly. -/
def RetiresItself (request : SweepRequest) (change : JsVal) : Prop :=
  change.get "status" = .str "closed" → request.retire.write = .replaced →
    unprovenCopy runtime paths.closedPath change (.text (runtime.stringify change))
      request.retire.readbackFault = none →
    paths.changeDir (fieldText change "id") = paths.changeDir request.id ∧ request.retire.removal = .removed

/-- What is removed without a retirement held no record, or one of which there is a copy; or nothing is removed. -/
def RemovesNothing (request : SweepRequest) (disk : SweepDisk) : Prop :=
  match request.rm with
  | .removed => disk.record (paths.changeDir request.id) = .absent ∨
      HasCopy runtime paths (disk.record (paths.changeDir request.id)) disk.closed
  | .failed _ left => left = disk.dirs (paths.changeDir request.id)

def GoodSweep (request : SweepRequest) (disk : SweepDisk) : Prop :=
  isUnsafeChangeId request.id = false →
    let record := disk.record (paths.changeDir request.id)
    match loadChange runtime paths.changesDir request.id record request.readFault with
    | .success (some change) => RetiresItself runtime paths request change
    | _ => RemovesNothing runtime paths request disk

end

/-! ## One id -/

section

variable {runtime : Runtime} {paths : SweepPaths} {request : SweepRequest} {disk : SweepDisk} {change : JsVal}

@[simp] theorem leave_closed (path : DirNames) (dir : Option ChangeDir) :
    (disk.leave path dir).closed = disk.closed := rfl

@[simp] theorem leave_here (path : DirNames) (dir : Option ChangeDir) : (disk.leave path dir).dirs path = dir :=
  Function.update_self ..

theorem leave_elsewhere {path other : DirNames} (apart : other ≠ path) (dir : Option ChangeDir) :
    (disk.leave path dir).dirs other = disk.dirs other := Function.update_of_ne apart ..

theorem dir_of_loads {path : DirNames} (loads : Loads runtime (disk.record path) change) : disk.dirs path ≠ none := by
  intro missing
  obtain ⟨content, _, written, _⟩ := loads
  rw [SweepDisk.record, missing] at written
  cases written

/-- Everything that a retirement asks for before it removes holds. -/
def Retires (runtime : Runtime) (paths : SweepPaths) (change : JsVal) (events : RetireEvents) : Prop :=
  change.get "status" = .str "closed" ∧ events.write = .replaced ∧
    unprovenCopy runtime paths.closedPath change (.text (runtime.stringify change)) events.readbackFault = none

variable {events : RetireEvents}

theorem retire_ok (retires : Retires runtime paths change events) (files : RecordFiles Unit) :
    let result := retireClosedChange runtime paths.closedPath change events files
    ∃ warning, result.1 = .ok warning ∧ result.2.closed = .text (runtime.stringify change) := by
  obtain ⟨status, written, proven⟩ := retires
  simp only [retireClosedChange, refuseToRetire, status, ne_eq, not_true_eq_false, if_false, written,
    closedWriteFailure, writeClosed, proven]
  cases events.removal <;> exact ⟨_, rfl, trivial⟩

theorem retire_failed (refused : ¬Retires runtime paths change events)
    (files : RecordFiles Unit) :
    ∃ error, (retireClosedChange runtime paths.closedPath change events files).1 = .failed error := by
  by_cases status : change.get "status" = .str "closed"
  · simp only [retireClosedChange, refuseToRetire, status, ne_eq, not_true_eq_false, if_false]
    cases written : events.write with
    | failed error | replacedThenFailed error => exact ⟨_, rfl⟩
    | replaced =>
      simp only [closedWriteFailure, writeClosed]
      cases proof : unprovenCopy runtime paths.closedPath change (.text (runtime.stringify change))
        events.readbackFault with
      | none => exact absurd ⟨status, written, proof⟩ refused
      | some failed =>
        simp only [unprovenCopy] at proof
        split at proof
        · cases proof; exact ⟨_, rfl⟩
        · cases proof; exact ⟨_, rfl⟩
        · split at proof
          · cases proof; exact ⟨_, rfl⟩
          · cases proof
  · simp only [retireClosedChange, refuseToRetire, ne_eq, status, not_false_eq_true, if_true]
    exact ⟨_, rfl⟩

theorem readable_of_retires (retires : Retires runtime paths change events) :
    ∃ readback, Loads runtime (.text (runtime.stringify change)) readback := by
  have proven := retires.2.2
  simp only [unprovenCopy] at proven
  split at proven
  · cases proven
  · cases proven
  next readback success => exact ⟨readback, (loadChange_ok success).2⟩

/-- An id whose record is loaded. -/
theorem retire_spares_iff (isSafe : isUnsafeChangeId request.id = false)
    (loaded : loadChange runtime paths.changesDir request.id (disk.record (paths.changeDir request.id))
      request.readFault = .success (some change)) :
    SparesRecords runtime paths (recordOf (sweepOne runtime paths) request disk) ↔
      RetiresItself runtime paths request change := by
  have loads := (loadChange_ok loaded).2
  have stands := dir_of_loads loads
  have served : sweepOne runtime paths request disk = retireOne runtime paths change request.retire disk := by
    simp only [sweepOne, isSafe, Bool.false_eq_true, if_false, loaded]
  rw [recordOf, served]
  by_cases retires : Retires runtime paths change request.retire
  · obtain ⟨warning, done, copied⟩ := retire_ok retires ⟨⟨disk.record (paths.changeDir (fieldText change "id")), ()⟩,
        disk.closed (paths.closedDir (fieldText change "id"))⟩
    rw [retireOne, done, copied]
    constructor
    · rintro ⟨-, -, reported⟩ _ _ _
      have gone := reported rfl
      by_cases own : paths.changeDir (fieldText change "id") = paths.changeDir request.id
      · rw [own, leave_here] at gone
        refine ⟨own, ?_⟩
        cases removal : request.retire.removal with
        | removed => rfl
        | failed error recordGone =>
          cases recordGone <;> simp [removal, retiredDir, stands] at gone
      · rw [leave_elsewhere (Ne.symm own)] at gone
        exact absurd gone stands
    · intro itself
      obtain ⟨own, removal⟩ := itself retires.1 retires.2.1 retires.2.2
      obtain ⟨readback, readable⟩ := readable_of_retires retires
      rw [own, removal]
      refine ⟨fun path apart => leave_elsewhere apart _, .inr ⟨leave_here _ _, rfl, .inr ?_⟩, fun _ => leave_here _ _⟩
      exact ⟨change, readback, loads, Function.update_self .., readable⟩
  · obtain ⟨error, failed⟩ := retire_failed retires ⟨⟨disk.record (paths.changeDir (fieldText change "id")), ()⟩,
        disk.closed (paths.closedDir (fieldText change "id"))⟩
    rw [retireOne, failed]
    refine iff_of_true ⟨fun _ _ => rfl, .inl rfl, fun removed => by cases removed⟩ fun status written proven => ?_
    exact absurd ⟨status, written, proven⟩ retires

/-- An id whose directory is removed without a look at its record. -/
theorem remove_spares_iff (isSafe : isUnsafeChangeId request.id = false)
    (unloaded : ∀ change, loadChange runtime paths.changesDir request.id
      (disk.record (paths.changeDir request.id)) request.readFault ≠ .success (some change)) :
    SparesRecords runtime paths (recordOf (sweepOne runtime paths) request disk) ↔
      RemovesNothing runtime paths request disk := by
  have served : sweepOne runtime paths request disk = match request.rm with
      | .removed => (.removed, disk.leave (paths.changeDir request.id) none)
      | .failed error left => (.failed error, disk.leave (paths.changeDir request.id) left) := by
    simp only [sweepOne, isSafe, Bool.false_eq_true, if_false]
  rw [recordOf, served, RemovesNothing]
  cases request.rm with
  | removed =>
    constructor
    · rintro ⟨-, same | ⟨-, -, noRecord | copy⟩, -⟩
      · rw [leave_here] at same
        exact .inl (by rw [SweepDisk.record, ← same]; rfl)
      · exact .inl noRecord
      · exact .inr copy
    · intro held
      exact ⟨fun path apart => leave_elsewhere apart _, .inr ⟨leave_here _ _, rfl, held⟩, fun _ => leave_here _ _⟩
  | failed error left =>
    constructor
    · rintro ⟨-, same | ⟨-, impossible, -⟩, -⟩
      · rwa [leave_here] at same
      · cases impossible
    · rintro same
      exact ⟨fun path apart => leave_elsewhere apart _, .inl ((leave_here _ _).trans same),
        fun removed => by cases removed⟩

theorem sweepOne_spares_iff (runtime : Runtime) (paths : SweepPaths) (request : SweepRequest) (disk : SweepDisk) :
    SparesRecords runtime paths (recordOf (sweepOne runtime paths) request disk) ↔
      GoodSweep runtime paths request disk := by
  cases isSafe : isUnsafeChangeId request.id with
  | true =>
    have served : sweepOne runtime paths request disk =
        (.failed "Invalid change id: contains path separator or traversal character", disk) := by
      simp only [sweepOne, isSafe, if_true]
    rw [recordOf, served]
    exact iff_of_true ⟨fun _ _ => rfl, .inl rfl, fun removed => by cases removed⟩ (by simp [GoodSweep, isSafe])
  | false =>
    unfold GoodSweep
    rw [isSafe]
    dsimp only
    split
    next change loaded => rw [retire_spares_iff isSafe loaded]; simp
    next unloaded => rw [remove_spares_iff isSafe unloaded]; simp

end

def sweptPaths : SweepPaths := ⟨"/store/changes", "/store/closed"⟩

def malformedRecord : FileState := .text ⟨7, .error "Unexpected end of JSON input"⟩

def malformedDisk : SweepDisk where
  dirs path := if path = sweptPaths.changeDir "addSearch" then some ⟨malformedRecord, []⟩ else none
  closed _ := .absent

def sweepRequest : SweepRequest := ⟨"addSearch", none, .undisturbed, .removed⟩

end Advance.Storage
