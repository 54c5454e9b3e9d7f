import Advance.Storage.StoreDisk
import Advance.Storage.SummaryPublication

/-! # Writes of a snapshot, broken off anywhere

A snapshot and its summary are three files, written one after another: the snapshot,
the shard, the pointer.  A summary commit makes these writes under the lock, the store
makes them through `persistChangeProjection`; either may stop between any two.
-/

namespace Advance.Storage

open Advance.JavaScript
open Advance.Utils Advance.Foundation

/-! ## Progress -/

inductive Progress where
  | nothing
  | snapshot
  | shard
  | pointer
  deriving DecidableEq

section

variable (runtime : Runtime) (summary : SummaryPaths) (change : JsVal) (operationId publishedAt : String)

def withShard (files : Files) : Files :=
  writtenTo runtime (shardPathFor runtime summary change) (publishedShard change operationId) files

def withPointer (files : Files) : Files :=
  writtenTo runtime summary.pointerPath (publishedPointer runtime summary change operationId publishedAt)
    (withShard runtime summary change operationId files)

/-- The disk once the writes of `change` have got that far. -/
def Progress.disk (disk : Disk Files) : Progress → Disk Files
  | nothing => disk
  | snapshot => ⟨.text (runtime.stringify change), disk.aux⟩
  | shard => ⟨.text (runtime.stringify change), withShard runtime summary change operationId disk.aux⟩
  | pointer =>
    ⟨.text (runtime.stringify change), withPointer runtime summary change operationId publishedAt disk.aux⟩

end

/-! ## Store writes -/

def PersistCall.resolvedOperationId (call : PersistCall) : String :=
  call.operationId.getD (lastOperationId call.change)

/-- How far a store write gets when it is broken off after some of its writes. -/
def PersistCall.progress (call : PersistCall) (writes : Nat) : Progress :=
  if isSyntheticValidationDraftPattern ((call.change.get "id").textD "") then .nothing
  else if writes < 1 ∨ ¬call.write.replaces then .nothing
  else if writes < 2 ∨ call.write ≠ .replaced ∨ ¬call.summary.shardWrite.replaces then .snapshot
  else if writes < 3 ∨ call.summary.shardWrite ≠ .replaced ∨ ¬call.summary.pointerWrite.replaces then .shard
  else .pointer

section

variable {runtime : Runtime} {paths : SummaryIndexPaths} {summary : SummaryPaths}

theorem publish_interrupted {change : JsVal} {operationId : Option String} {events : SummaryEvents}
    (resolved : summaryPaths paths ((change.get "id").textD "") = .ok summary) (writes : Nat) (files : Files) :
    (publishSummaryForChange runtime paths change operationId events).interrupted writes files =
      if writes < 1 ∨ ¬events.shardWrite.replaces then files
      else if writes < 2 ∨ events.shardWrite ≠ .replaced ∨ ¬events.pointerWrite.replaces then
        withShard runtime summary change (operationId.getD (lastOperationId change)) files
      else withPointer runtime summary change (operationId.getD (lastOperationId change))
        events.publishedAt files := by
  simp only [publishSummaryForChange, resolved]
  cases shardEvent : events.shardWrite with
  | failed error => simp [writeJson, Program.andThen, Program.interrupted, WriteEvent.replaces]
  | replacedThenFailed error =>
    cases writes with
    | zero => simp [writeJson, Program.andThen, Program.interrupted]
    | succ writes =>
      simp only [writeJson, Program.andThen, Program.interrupted, WriteEvent.replaces]
      simp [withShard, publishedShard, shardPathFor, revisionOf]
  | replaced =>
    rcases writes with _ | _ | writes
    · simp [writeJson, Program.andThen, Program.interrupted]
    · cases pointerEvent : events.pointerWrite <;>
        simp [writeJson, Program.andThen, Program.interrupted, WriteEvent.replaces, withShard,
          publishedShard, shardPathFor, revisionOf]
    · cases pointerEvent : events.pointerWrite <;>
        simp [writeJson, Program.andThen, Program.interrupted, WriteEvent.replaces, withShard,
          withPointer, publishedShard, publishedPointer, shardPathFor, revisionOf]

/-- A store write of the change itself leaves what its progress says. -/
theorem persist_interrupted {call : PersistCall} (own : call.change.get "id" = .str call.changeId)
    (resolved : summaryPaths call.paths call.changeId = .ok summary) (writes : Nat) (disk : Disk Files) :
    (persistChangeProjection runtime call).interrupted writes disk =
      (call.progress writes).disk runtime summary call.change call.resolvedOperationId
        call.summary.publishedAt disk := by
  have ownPaths : summaryPaths call.paths ((call.change.get "id").textD "") = .ok summary := by
    rw [own]
    exact resolved
  unfold persistChangeProjection saveChange PersistCall.progress
  simp only
  split
  · rfl
  cases writes with
  | zero => rfl
  | succ writes =>
    cases event : call.write with
    | failed error =>
      simp [Program.andThen, Program.interrupted, saveWrite, own, writeChange, WriteEvent.replaces, Progress.disk]
    | replacedThenFailed error =>
      simp [Program.andThen, Program.interrupted, saveWrite, own, writeChange, WriteEvent.replaces, Progress.disk]
    | replaced =>
      -- past the snapshot, the rest is the publication beside it
      simp only [Program.andThen, Program.interrupted]
      rw [Program.interrupted_finishing, Program.interrupted_within, publish_interrupted ownPaths]
      case finishes =>
        intro published
        cases published <;> exact ⟨_, rfl⟩
      have started : ¬writes + 1 < 1 := by omega
      have shardCount : writes + 1 < 2 ↔ writes < 1 := by omega
      have pointerCount : writes + 1 < 3 ↔ writes < 2 := by omega
      have snapshotReplaced : WriteEvent.replaced.replaces = true := rfl
      simp only [saveWrite, own, if_true, writeChange, Disk.beside, snapshotReplaced, started,
        PersistCall.resolvedOperationId, shardCount, pointerCount, not_true_eq_false, or_self, if_false,
        ne_eq, false_or]
      split
      · rfl
      split <;> rfl

theorem persist_interrupted_other {call : PersistCall} (other : call.change.get "id" ≠ .str call.changeId)
    (writes : Nat) (disk : Disk Files) :
    ((persistChangeProjection runtime call).interrupted writes disk).change = disk.change ∧
      ∃ published, ((persistChangeProjection runtime call).interrupted writes disk).aux =
        (publishSummaryForChange runtime call.paths call.change call.operationId
          call.summary).interrupted published disk.aux := by
  have untouched : ∀ files : Files, files = (publishSummaryForChange runtime call.paths call.change call.operationId
        call.summary).interrupted 0 files := by
    intro files
    unfold publishSummaryForChange
    split
    · rfl
    · cases call.summary.shardWrite <;> rfl
  unfold persistChangeProjection saveChange
  simp only
  split
  · exact ⟨rfl, 0, untouched _⟩
  cases writes with
  | zero => exact ⟨rfl, 0, untouched _⟩
  | succ writes =>
    cases event : call.write with
    | failed error =>
      simp only [Program.andThen, Program.interrupted, saveWrite, other, if_false]
      exact ⟨trivial, 0, untouched _⟩
    | replacedThenFailed error =>
      simp only [Program.andThen, Program.interrupted, saveWrite, other, if_false]
      exact ⟨trivial, 0, untouched _⟩
    | replaced =>
      simp only [Program.andThen, Program.interrupted, saveWrite, other, if_false]
      rw [Program.interrupted_finishing, Program.interrupted_within]
      case finishes =>
        intro published
        cases published <;> exact ⟨_, rfl⟩
      exact ⟨rfl, writes, rfl⟩

/-! ## Commits -/

/-- The files in the course of a publication: before, between and after its two writes. -/
def Publishing (runtime : Runtime) (paths : SummaryIndexPaths) (change : JsVal) (operationId publishedAt : String)
    (before after : Files) : Prop :=
  after = before ∨ ∃ summary, summaryPaths paths ((change.get "id").textD "") = .ok summary ∧
    (after = withShard runtime summary change operationId before ∨
      after = withPointer runtime summary change operationId publishedAt before)

theorem publish_publishing (change : JsVal) (operationId : Option String) (events : SummaryEvents)
    (writes : Nat) (files : Files) :
    Publishing runtime paths change (operationId.getD (lastOperationId change)) events.publishedAt files
      ((publishSummaryForChange runtime paths change operationId events).interrupted writes files) := by
  cases resolved : summaryPaths paths ((change.get "id").textD "") with
  | error error =>
    left
    unfold publishSummaryForChange
    rw [resolved]
    rfl
  | ok summary =>
    rw [publish_interrupted resolved]
    split
    · exact .inl rfl
    split
    · exact .inr ⟨summary, resolved, .inl rfl⟩
    · exact .inr ⟨summary, resolved, .inr rfl⟩

variable {call : SummaryCall}

theorem prove_passes {projectionRevision : JsNumber} {shard pointer : JsVal} {files passed : Files}
    (member : passed ∈ (provePublication runtime call summary projectionRevision shard pointer).visited
      files) : passed = files := by
  simp only [provePublication, Program.visited_look, List.mem_cons] at member
  rcases member with same | member
  · exact same
  split at member
  · cases member
  · cases member
  split at member
  · cases member
  simp only [Program.visited_look, List.mem_cons] at member
  rcases member with same | member
  · exact same
  split at member
  · cases member
  · cases member
  · split at member <;> cases member

theorem hook_passes {context : ProjectionCommitAfterCommitContext} {files passed : Files}
    (member : passed ∈ (summaryAfterCommit runtime call summary context).visited files) :
    Publishing runtime call.options.paths context.readback call.options.operationId
      call.summaryEvents.publishedAt files passed := by
  have within : ∀ other ∈ files :: (publishSummaryForChange runtime call.options.paths context.readback
      (some call.options.operationId) call.summaryEvents).visited files,
      Publishing runtime call.options.paths context.readback call.options.operationId
        call.summaryEvents.publishedAt files other := by
    intro other member
    rcases List.mem_cons.mp member with rfl | later
    · exact .inl rfl
    · obtain ⟨writes, here⟩ := Program.visited_interrupted later
      rw [← here]
      exact publish_publishing context.readback (some call.options.operationId) call.summaryEvents writes files
  simp only [summaryAfterCommit, Program.visited_andThen, List.mem_append] at member
  rcases member with early | late
  · exact within _ (List.mem_cons_of_mem _ early)
  · -- the readback proof only looks at what the publication left
    have unchanged : passed = ((publishSummaryForChange runtime call.options.paths context.readback
        (some call.options.operationId) call.summaryEvents).run files).2 := by
      split at late
      · cases late
      · exact prove_passes late
    rw [unchanged]
    exact within _ (Program.run_mem _ _)

def commitInterrupted (runtime : Runtime) (summary : SummaryPaths) (call : SummaryCall) (accesses : Nat)
    (disk : Disk Files) : Disk Files :=
  let commit := call.commitCall runtime summary
  if (earlyCheck commit disk).isNone && commit.events.lockAcquired then
    (lockedProgram runtime commit).interrupted accesses disk
  else disk

/-- A commit that is broken off has written nothing, or its plan and as much of the
    publication of what the plan reads back as. -/
theorem commit_interrupted (runtime : Runtime) (summary : SummaryPaths) (call : SummaryCall)
    (accesses : Nat) (disk : Disk Files) : commitInterrupted runtime summary call accesses disk = disk ∨
      ∃ plan, writtenPlan runtime (call.commitCall runtime summary) disk = some plan ∧
        (commitInterrupted runtime summary call accesses disk).change = .text (runtime.stringify plan.value) ∧
        ((commitInterrupted runtime summary call accesses disk).aux = disk.aux ∨
          ∃ readback, Loads runtime (.text (runtime.stringify plan.value)) readback ∧
            Publishing runtime call.options.paths readback call.options.operationId
              call.summaryEvents.publishedAt disk.aux
              (commitInterrupted runtime summary call accesses disk).aux) := by
  unfold commitInterrupted
  simp only
  split
  next inside =>
    have early : earlyCheck (call.commitCall runtime summary) disk = none := by
      simpa using (Bool.and_eq_true_iff.mp inside).1
    have locked := (Bool.and_eq_true_iff.mp inside).2
    have member := (lockedProgram runtime (call.commitCall runtime summary)).interrupted_mem accesses disk
    generalize (lockedProgram runtime (call.commitCall runtime summary)).interrupted accesses disk = after at member
    rcases List.mem_cons.mp member with same | member
    · exact .inl same
    rcases lockedProgram_passes member with same | ⟨plan, planned, member⟩
    · exact .inl same
    have written : (call.commitCall runtime summary).events.write.replaces = true →
        writtenPlan runtime (call.commitCall runtime summary) disk = some plan := fun replaces =>
      writtenPlan_some.mpr ⟨early, locked, lockedWrite_some.mpr ⟨planned, replaces⟩⟩
    rcases writeProgram_passes member with same | ⟨event, readback, afterCommit, loaded, hook, aux, passed, same⟩
    · rw [same]
      cases event : (call.commitCall runtime summary).events.write with
      | failed error => exact .inl rfl
      | replaced => exact .inr ⟨plan, written (by rw [event]; rfl), rfl, .inl rfl⟩
      | replacedThenFailed error => exact .inr ⟨plan, written (by rw [event]; rfl), rfl, .inl rfl⟩
    · have ownHook : summaryAfterCommit runtime call summary = afterCommit := Option.some.inj hook
      subst ownHook
      have loads := (loadChange_ok loaded).2
      have publishing := hook_passes passed
      rw [same]
      exact .inr ⟨plan, written (by rw [event]; rfl), rfl, .inr ⟨readback, loads, publishing⟩⟩
  · exact .inl rfl

end

/-! ## Directories of different changes -/

theorem no_slash_of_paths {paths : SummaryIndexPaths} {changeId : String} {summary : SummaryPaths}
    (resolved : summaryPaths paths changeId = .ok summary) : '/' ∉ changeId.toList := by
  intro member
  have included : includes changeId "/" = true := by
    simp only [includes, decide_eq_true_eq]
    exact (List.singleton_infix_iff '/' changeId.toList).mpr member
  simp [summaryPaths, assertSafeChangeId, included, bind, Except.bind] at resolved

theorem directories_apart {base left right leftRest rightRest : List Char} (differ : left ≠ right)
    (leftSafe : '/' ∉ left) (rightSafe : '/' ∉ right) :
    base ++ '/' :: (left ++ '/' :: leftRest) ≠ base ++ '/' :: (right ++ '/' :: rightRest) := by
  intro same
  have inner := (List.cons.inj (List.append_cancel_left same)).2
  -- the name of the change is what comes before the next separator
  have name : ∀ {text rest : List Char}, '/' ∉ text → (text ++ '/' :: rest).takeWhile (· ≠ '/') = text := by
    intro text rest safe
    rw [List.takeWhile_append_of_pos]
    · simp
    · intro c member
      simp only [ne_eq, decide_not, Bool.not_eq_eq_eq_not, Bool.not_true, decide_eq_false_iff_not]
      rintro rfl
      exact safe member
  have names := congrArg (List.takeWhile (· ≠ '/')) inner
  rw [name leftSafe, name rightSafe] at names
  exact differ names

/-- The file lies in the summary directory of the change. -/
def InsideSummary (paths : SummaryIndexPaths) (changeId path : String) : Prop :=
  ∃ rest, path.toList = paths.summariesDir.toList ++ '/' :: (changeId.toList ++ '/' :: rest)

section

variable {runtime : Runtime} {paths : SummaryIndexPaths} {changeId : String} {summary : SummaryPaths}

section

variable (resolved : summaryPaths paths changeId = .ok summary)
include resolved

theorem pointerPath_inside :
    InsideSummary paths changeId summary.pointerPath := by
  rw [summaryPaths_ok resolved]
  exact ⟨"current.json".toList, by simp [join, String.toList_append]⟩

theorem revDir_inside (file : String) :
    InsideSummary paths changeId (join [summary.revDir, file]) := by
  rw [summaryPaths_ok resolved]
  exact ⟨"revisions/".toList ++ file.toList, by simp [join, String.toList_append]⟩

theorem shardPath_inside (revision : JsNumber) :
    InsideSummary paths changeId (shardPathOf runtime summary revision) := revDir_inside resolved _

end

theorem publishing_elsewhere {change : JsVal} {operationId publishedAt : String} {before after : Files}
    (resolved : summaryPaths paths changeId = .ok summary) (elsewhere : change.get "id" ≠ .str changeId)
    (textual : ∃ id, change.get "id" = .str id)
    (publishing : Publishing runtime paths change operationId publishedAt before after) :
    ∀ path, InsideSummary paths changeId path → after path = before path := by
  rcases publishing with rfl | ⟨other, otherResolved, written⟩
  · exact fun _ _ => rfl
  obtain ⟨otherId, isText⟩ := textual
  rw [isText] at otherResolved
  have differ : otherId.toList ≠ changeId.toList := by
    intro same
    exact elsewhere (isText.trans (congrArg JsVal.str (String.toList_inj.mp same)))
  have otherSafe := no_slash_of_paths otherResolved
  have ownSafe := no_slash_of_paths resolved
  -- every path of the publication lies in the other change's directory
  have apart : ∀ path written, InsideSummary paths changeId path → InsideSummary paths otherId written →
      path ≠ written := by
    rintro path _ ⟨_, place⟩ ⟨_, otherPlace⟩ rfl
    exact directories_apart differ otherSafe ownSafe (otherPlace.symm.trans place)
  intro path inside
  have notShard : path ≠ shardPathFor runtime other change :=
    apart path _ inside (shardPath_inside otherResolved _)
  have notPointer : path ≠ other.pointerPath := apart path _ inside (pointerPath_inside otherResolved)
  rcases written with rfl | rfl
  · simp [withShard, writtenTo, notShard]
  · simp [withPointer, withShard, writtenTo, notShard, notPointer]

end

/-! ## Runs -/

inductive SnapshotWrite where
  | commit (call : SummaryCall)
  | persist (call : PersistCall)

/-- A write of the store that is watched for its effect on the files of one change. -/
def SnapshotWrite.On (paths : SummaryIndexPaths) (changeId : String) : SnapshotWrite → Prop
  | commit call => call.options.paths = paths ∧ call.options.changeId = changeId
  | persist call =>
    call.paths = paths ∧ call.changeId = changeId ∧ ∃ id, call.change.get "id" = .str id

/-- A write, broken off after some of its file accesses where it is not over by then. -/
structure CutWrite where
  write : SnapshotWrite
  accesses : Nat

def CutWrite.leaves (runtime : Runtime) (summary : SummaryPaths) (cut : CutWrite) (disk : Disk Files) : Disk Files :=
  match cut.write with
  | .commit call => commitInterrupted runtime summary call cut.accesses disk
  | .persist call => (persistChangeProjection runtime call).interrupted cut.accesses disk

def serveWrite (runtime : Runtime) (summary : SummaryPaths) (cut : CutWrite) (disk : Disk Files) :
    Unit × Disk Files := ((), cut.leaves runtime summary disk)

end Advance.Storage
