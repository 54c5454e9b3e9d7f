import Advance.Foundation.Program
import Advance.Storage.EpicWriters

/-! # Retiring an Epic

`retire` writes the retired projection and then removes the active one.  It may be cut
between any two of its file operations, and creations and mutations may follow.
-/

namespace Advance.Storage

open Advance.Foundation Advance.JavaScript Advance.Types

/-! ## Files -/

/-- The two projections of one Epic. -/
structure EpicFiles where
  active : Option Epic
  retired : Option RetiredEpicProjection
  deriving DecidableEq

inductive EpicSource where
  | retired_projection
  | active_projection
  deriving DecidableEq

/-- `epics.get`; the retired projection goes first. -/
def epicsGet (files : EpicFiles) : Option (Epic × EpicSource) :=
  match files.retired, files.active with
  | some projection, _ => some (projection.epic_snapshot, .retired_projection)
  | none, some epic => some (epic, .active_projection)
  | none, none => none

/-! ## Retire -/

structure RetireInput where
  expectedVersion : JsNumber
  evidence : String
  retiredBy : String
  dryRun : Bool

/-- The errors of a retirement: up to its read of the Epic, at the write and at its read-back,
    at the removal and at the read after it, and when the lock is released. -/
structure RetireFaults where
  load : Option String
  save : Option String
  readback : Option String
  remove : Option String
  after : Option String
  release : Option String

def noRetireFaults : RetireFaults := ⟨none, none, none, none, none, none⟩

structure RetireCall where
  input : RetireInput
  now : String
  numberText : JsNumber → String
  faults : RetireFaults

section

variable (epicId : String)

def preparedProjection (call : RetireCall) (epic : Epic) : RetiredEpicProjection where
  epic_snapshot := epic
  retired_at := call.now
  retired_by := call.input.retiredBy
  evidence := call.input.evidence
  source_workflow_id := "disk:" ++ epicId
  source_version := epic.version
  projection_status := if call.input.dryRun then .prepared else .retired

def retireBlockers (epic : Epic) : List EpicEntry :=
  epic.entries.filter fun entry =>
    match entry with
    | .shell _ => true
    | .change change => change.terminal_summary.isNone

/-- The checks of `retire`, and the projection it prepares. -/
def retiredProjection (call : RetireCall) (epic : Epic) : Except EpicFailure RetiredEpicProjection :=
  if epic.progress.status ≠ .completed ∨ 0 < (retireBlockers epic).length then
    .error (.epicError ("Epic " ++ epicId ++ " has incomplete entries and cannot be retired") .epicIncomplete)
  else if (epic.version : JsNumber) ≠ call.input.expectedVersion then
    .error (.epicError ("Expected Epic version " ++ call.numberText call.input.expectedVersion ++
      ", found " ++ call.numberText epic.version) .staleVersion)
  else if (preparedProjection epicId call epic).valid = false then .error .schema
  else .ok (preparedProjection epicId call epic)

abbrev RetireResult := Except EpicFailure RetiredEpicProjection

def retireVerify (call : RetireCall) (readback : RetiredEpicProjection) (files : EpicFiles) : RetireResult :=
  match call.faults.after, files.active with
  | some error, _ => .error (.disk error)
  | none, some _ => .error (.disk ("Active Epic remained after retirement: " ++ epicId))
  | none, none => .ok readback

/-- From the read-back of the retired projection on. -/
def retireRemove (call : RetireCall) (files : EpicFiles) : Program EpicFiles RetireResult :=
  match call.faults.readback, files.retired, call.faults.remove with
  | some error, _, _ => .finish (.error (.disk error))
  | none, none, _ => .finish (.error (.disk ("Retired Epic readback missing: " ++ epicId)))
  | none, some _, some error => .finish (.error (.disk error))
  | none, some readback, none =>
    .act (fun files => { files with active := none }) fun _ =>
      .look fun files => .finish (retireVerify epicId call readback files)

def retireProgram (call : RetireCall) : Program EpicFiles RetireResult :=
  .look fun files =>
    match call.faults.load, files.active with
    | some error, _ => .finish (.error (.disk error))
    | none, none => .finish (.error (.epicError ("Epic not found: " ++ epicId) .epicNotFound))
    | none, some epic =>
      match retiredProjection epicId call epic, call.input.dryRun, call.faults.save with
      | .error failure, _, _ => .finish (.error failure)
      | .ok projection, true, _ => .finish (.ok projection)
      | .ok _, false, some error => .finish (.error (.disk error))
      | .ok projection, false, none =>
        .act (fun files => { files with retired := some projection }) fun _ =>
          .look (retireRemove epicId call)

/-! ## Runs -/

inductive EpicCommand where
  | call (writer : LockedWriter)
  | retire (call : RetireCall)
  | cutRetire (call : RetireCall) (actions : Nat)

inductive EpicAnswer where
  | outcome (outcome : EpicOutcome)
  | retired (result : RetireResult)
  | cut

/-- The files, and what was written since the last accepted update, that one included. -/
structure RetirementState where
  files : EpicFiles
  since : List Epic

def LockedWriter.seeing (files : EpicFiles) : LockedWriter → LockedWriter
  | create creation =>
    .create { creation with
      retired := if files.retired.isSome then .present else creation.retired }
  | mutate call => .mutate call

def RetirementState.written (state : RetirementState) (outcome : EpicOutcome) (next : Option Epic) :
    RetirementState where
  files := { state.files with active := next }
  since :=
    if outcome.isChanged then next.toList
    else if next = state.files.active then state.since
    else state.since ++ next.toList

def RetireCall.released (call : RetireCall) (result : RetireResult) : RetireResult :=
  match call.faults.release with
  | some error => .error (.disk error)
  | none => result

def serveEpic (command : EpicCommand) (state : RetirementState) : EpicAnswer × RetirementState :=
  match command with
  | .call writer =>
    let served := (writer.seeing state.files).serve epicId state.files.active
    (.outcome served.1, state.written served.1 served.2)
  | .retire call =>
    let retired := (retireProgram epicId call).run state.files
    (.retired (call.released retired.1), { state with files := retired.2 })
  | .cutRetire call actions =>
    (.cut, { state with files := (retireProgram epicId call).interrupted actions state.files })

def RetirementState.start (epic : Option Epic) : RetirementState := ⟨⟨epic, none⟩, []⟩

/-! ## What is claimed -/

/-- The Epic is only in the retired directory, with every update accepted so far. -/
def RetiredOnly (state : RetirementState) : Prop :=
  state.files.active = none ∧ ∃ projection, state.files.retired = some projection ∧
    (state.since ≠ [] → projection.epic_snapshot ∈ state.since)

/-- A retirement that meets no error, of an Epic that may be retired or was retired at the
    version it expects. -/
structure Rerun (call : RetireCall) (files : EpicFiles) : Prop where
  writes : call.input.dryRun = false
  faultless : call.faults = noRetireFaults
  entitled : (∃ epic projection, files.active = some epic ∧ retiredProjection epicId call epic = .ok projection) ∨
    ∃ projection, files.retired = some projection ∧ call.input.expectedVersion = projection.source_version

structure KeepsAccepted (state : RetirementState) : Prop where
  read : state.since ≠ [] → ∃ epic ∈ state.since, (epicsGet state.files).map Prod.fst = some epic
  terminal : ∀ projection, state.files.retired = some projection →
    ∀ entry ∈ projection.epic_snapshot.entries, entry.terminal = true
  reruns : ∀ call, Rerun epicId call state.files → RetiredOnly (serveEpic epicId (.retire call) state).2

/-- Where a retired projection is present, a mutation finds nothing it would write. -/
def QuietOnceRetired (step : Record RetirementState EpicCommand EpicAnswer) : Prop :=
  ∀ call latest, step.request = .call (.mutate call) → step.before.files.active = some latest →
    Stores call latest → step.before.files.retired = none

/-! ## The checks of a retirement -/

variable {epicId}

variable {epic : Epic}

theorem retireBlockers_pos : 0 < (retireBlockers epic).length ↔ ¬ ∀ entry ∈ epic.entries, entry.terminal = true := by
  rw [List.length_pos_iff_exists_mem]
  simp only [retireBlockers, List.mem_filter, not_forall]
  refine exists_congr fun entry => ?_
  cases entry <;> simp [EpicEntry.terminal]

variable {projection : RetiredEpicProjection} {call : RetireCall}

theorem retiredProjection_iff : retiredProjection epicId call epic = .ok projection ↔
      (epic.progress.status = .completed ∧ (∀ entry ∈ epic.entries, entry.terminal = true) ∧
        (epic.version : JsNumber) = call.input.expectedVersion ∧
        (preparedProjection epicId call epic).valid = true) ∧
      preparedProjection epicId call epic = projection := by
  unfold retiredProjection
  split
  next refused =>
    refine iff_of_false nofun fun ⟨⟨completed, terminal, _⟩, _⟩ => ?_
    rcases refused with incomplete | blocked
    · exact incomplete completed
    · exact retireBlockers_pos.mp blocked terminal
  next retirable =>
    simp only [not_or, retireBlockers_pos, not_not] at retirable
    split
    next stale => exact iff_of_false nofun fun ⟨⟨_, _, current, _⟩, _⟩ => stale current
    next current =>
      split
      next invalid =>
        refine iff_of_false nofun fun ⟨⟨_, _, _, valid⟩, _⟩ => ?_
        cases invalid.symm.trans valid
      next valid =>
        rw [Except.ok.injEq]
        exact (and_iff_right ⟨retirable.1, retirable.2, not_not.mp current, Bool.eq_true_of_not_eq_false valid⟩).symm

theorem retiredProjection_again {first again : RetireCall}
    (prepared : retiredProjection epicId first epic = .ok projection)
    (expected : again.input.expectedVersion = projection.source_version) : projection.epic_snapshot = epic ∧
      retiredProjection epicId again epic = .ok (preparedProjection epicId again epic) := by
  obtain ⟨⟨completed, terminal, _, valid⟩, rfl⟩ := retiredProjection_iff.mp prepared
  exact ⟨rfl, retiredProjection_iff.mpr ⟨⟨completed, terminal, expected.symm, valid⟩, rfl⟩⟩

/-! ## What a retirement leaves -/

theorem retire_visited {files passed : EpicFiles}
    (member : passed ∈ files :: (retireProgram epicId call).visited files) :
    passed = files ∨ ∃ epic projection, files.active = some epic ∧
      retiredProjection epicId call epic = .ok projection ∧
      (passed = { files with retired := some projection } ∨ passed = ⟨none, some projection⟩) := by
  rcases List.mem_cons.mp member with same | member
  · exact .inl same
  rw [retireProgram, Program.visited_look] at member
  rcases List.mem_cons.mp member with same | member
  · exact .inl same
  split at member
  next => cases member
  next => cases member
  next epic _ active =>
    split at member
    next => cases member
    next => cases member
    next => cases member
    next projection prepared _ _ =>
      refine .inr ⟨epic, projection, active, prepared, ?_⟩
      rw [Program.visited, Program.visited_look, List.mem_cons, List.mem_cons] at member
      rcases member with written | looked | member
      · exact .inl written
      · exact .inl looked
      · unfold retireRemove at member
        split at member
        next => cases member
        next => cases member
        next => cases member
        next =>
          rw [Program.visited, Program.visited_look, Program.visited, List.mem_pair, or_self] at member
          exact .inr member

variable {files : EpicFiles}

theorem retire_whole (writes : call.input.dryRun = false)
    (faultless : call.faults = noRetireFaults) (active : files.active = some epic)
    (prepared : retiredProjection epicId call epic = .ok projection) :
    (retireProgram epicId call).run files = (.ok projection, ⟨none, some projection⟩) := by
  simp [retireProgram, retireRemove, retireVerify, Program.look, faultless, noRetireFaults, active, prepared, writes]

theorem retire_absent (absent : files.active = none) : ((retireProgram epicId call).run files).2 = files := by
  simp only [retireProgram, Program.run_look, absent]
  cases call.faults.load <;> rfl

/-! ## What a mutation leaves -/

theorem serve_stores (epicId : String) {call : EpicCall} {latest : Epic} (stores : Stores call latest) :
    ∃ candidate, ((LockedWriter.mutate call).serve epicId (some latest)).2 = some candidate ∧
      candidate.version = latest.version + 1 := by
  rw [serve_mutate stores.loaded]
  rcases mutateEpic_cases call latest with ⟨_, value, done, _⟩ | ⟨unstored, _⟩
  · exact ⟨_, rfl, stored_version done⟩
  · exact absurd stores unstored

theorem serve_unstored {call : EpicCall} {latest : Epic} (unstored : ¬ Stores call latest) :
    ((LockedWriter.mutate call).serve epicId (some latest)).2 = some latest ∧
      ((LockedWriter.mutate call).serve epicId (some latest)).1.isChanged = false := by
  cases loads : call.faults.load with
  | some error =>
    have decided : (LockedWriter.mutate call).decide epicId (some latest) = .leaving (.failed (.disk error)) := by
      simp only [LockedWriter.decide, mutationDecision, loads]
    exact serve_leaving decided
  | none =>
    rw [serve_mutate loads]
    rcases mutateEpic_cases call latest with ⟨stores, _⟩ | ⟨_, same, unchanged⟩
    · exact absurd stores unstored
    · exact ⟨congrArg some same, unchanged⟩

theorem serve_absent (call : EpicCall) : ((LockedWriter.mutate call).serve epicId none).2 = none ∧
      ((LockedWriter.mutate call).serve epicId none).1.isChanged = false := by
  cases loads : call.faults.load <;>
    exact serve_leaving (by simp only [LockedWriter.decide, mutationDecision, loads]; rfl)

theorem serve_present {creation : EpicCreation} (present : creation.retired = .present) (stored : Option Epic) :
    ((LockedWriter.create creation).serve epicId stored).2 = stored ∧
      ((LockedWriter.create creation).serve epicId stored).1.isChanged = false := by
  cases loads : creation.faults.load <;> cases stored <;>
    exact serve_leaving (by simp only [LockedWriter.decide, EpicCreation.decide, loads, present]; rfl)

variable {state : RetirementState}

theorem written_unchanged {outcome : EpicOutcome} {next : Option Epic}
    (same : next = state.files.active) (unchanged : outcome.isChanged = false) :
    state.written outcome next = state := by
  simp [RetirementState.written, same, unchanged]

theorem call_cases {writer : LockedWriter}
    (quiet : ∀ call latest, writer = .mutate call → state.files.active = some latest →
      Stores call latest → state.files.retired = none) : (serveEpic epicId (.call writer) state).2 = state ∨
      state.files.retired = none ∧ ∃ outcome candidate,
        (serveEpic epicId (.call writer) state).2 = state.written outcome (some candidate) := by
  have unchanged : ∀ {served : EpicOutcome × Option Epic},
      served.2 = state.files.active ∧ served.1.isChanged = false → state.written served.1 served.2 = state :=
    fun served => written_unchanged served.1 served.2
  have writes : state.files.retired = none → (serveEpic epicId (.call writer) state).2 = state ∨
      state.files.retired = none ∧ ∃ outcome candidate,
        (serveEpic epicId (.call writer) state).2 = state.written outcome (some candidate) := by
    intro none
    rcases serve_cases epicId (writer.seeing state.files) state.files.active with
      kept | ⟨candidate, stored⟩
    · exact .inl (unchanged kept)
    · exact .inr ⟨none, _, candidate, congrArg (state.written _) stored⟩
  cases retired : state.files.retired with
  | none => exact retired ▸ writes retired
  | some projection =>
    refine .inl (unchanged ?_)
    cases writer with
    | create creation => exact serve_present (by simp only [retired]; rfl) _
    | mutate call =>
      cases active : state.files.active with
      | none => exact serve_absent call
      | some latest =>
        refine serve_unstored fun stores => ?_
        cases retired.symm.trans (quiet call latest rfl active stores)

/-! ## The invariant of a quiet run -/

structure RetirementInvariant (epicId : String) (state : RetirementState) : Prop where
  same : ∀ projection epic, state.files.retired = some projection →
    state.files.active = some epic → projection.epic_snapshot = epic
  sound : ∀ projection, state.files.retired = some projection →
    ∃ call, retiredProjection epicId call projection.epic_snapshot = .ok projection
  activeKept : state.since ≠ [] → ∀ epic, state.files.active = some epic → epic ∈ state.since
  retiredKept : state.since ≠ [] →
    ∀ projection, state.files.retired = some projection → projection.epic_snapshot ∈ state.since
  present : state.since ≠ [] → (epicsGet state.files).isSome = true

theorem RetirementInvariant.initial (epic : Option Epic) : RetirementInvariant epicId (.start epic) where
  same := fun _ _ retired => absurd retired nofun
  sound := fun _ retired => absurd retired nofun
  activeKept := fun written => absurd rfl written
  retiredKept := fun written => absurd rfl written
  present := fun written => absurd rfl written

theorem RetirementInvariant.written
    (invariant : RetirementInvariant epicId state) (unretired : state.files.retired = none)
    (outcome : EpicOutcome) (candidate : Epic) :
    RetirementInvariant epicId (state.written outcome (some candidate)) where
  same := fun projection epic retired => by cases unretired.symm.trans retired
  sound := fun projection retired => by cases unretired.symm.trans retired
  activeKept := by
    intro since epic active
    cases active
    simp only [RetirementState.written] at since ⊢
    split
    · exact List.mem_singleton.mpr rfl
    · split
      next same =>
        rw [if_neg ‹_›, if_pos same] at since
        exact invariant.activeKept since candidate same.symm
      next => exact List.mem_append_right _ (List.mem_singleton.mpr rfl)
  retiredKept := fun _ projection retired => by cases unretired.symm.trans retired
  present := by
    intro _
    simp only [RetirementState.written, epicsGet, unretired, Option.isSome_some]

theorem RetirementInvariant.passed (invariant : RetirementInvariant epicId state)
    (member : files ∈ state.files :: (retireProgram epicId call).visited state.files) :
    RetirementInvariant epicId { state with files := files } := by
  rcases retire_visited member with rfl | ⟨epic, projection, active, prepared, left⟩
  · exact invariant
  have snapshot : projection.epic_snapshot = epic := by
    obtain ⟨_, rfl⟩ := retiredProjection_iff.mp prepared
    rfl
  have retired : files.retired = some projection := by
    rcases left with rfl | rfl <;> rfl
  have remains : ∀ other, files.active = some other → other = epic := by
    intro other held
    rcases left with rfl | rfl
    · exact Option.some.inj (held.symm.trans active)
    · cases held
  exact
    { same := by
        intro other held here active'
        cases retired.symm.trans here
        rw [snapshot, remains held active']
      sound := by
        intro other here
        cases retired.symm.trans here
        exact ⟨call, snapshot ▸ prepared⟩
      activeKept := by
        intro since held active'
        rw [remains held active']
        exact invariant.activeKept since epic active
      retiredKept := by
        intro since other here
        cases retired.symm.trans here
        rw [snapshot]
        exact invariant.activeKept since epic active
      present := by
        intro _
        simp only [epicsGet, retired, Option.isSome_some] }

theorem serveEpic_invariant {command : EpicCommand}
    (quiet : QuietOnceRetired (recordOf (serveEpic epicId) command state))
    (invariant : RetirementInvariant epicId state) :
    RetirementInvariant epicId (serveEpic epicId command state).2 := by
  cases command with
  | call writer =>
    have calm : ∀ call latest, writer = .mutate call → state.files.active = some latest →
        Stores call latest → state.files.retired = none :=
      fun call latest isMutation => quiet call latest (congrArg EpicCommand.call isMutation)
    rcases call_cases calm with unchanged | ⟨unretired, outcome, candidate, written⟩
    · rw [unchanged]
      exact invariant
    · rw [written]
      exact invariant.written unretired outcome candidate
  | retire call => exact invariant.passed (Program.run_mem _ _)
  | cutRetire call actions => exact invariant.passed (Program.interrupted_mem _ _ _)

theorem RetirementInvariant.reruns
    (invariant : RetirementInvariant epicId state) (rerun : Rerun epicId call state.files) :
    RetiredOnly (serveEpic epicId (.retire call) state).2 := by
  have whole : ∀ epic projection, state.files.active = some epic →
      retiredProjection epicId call epic = .ok projection →
      RetiredOnly (serveEpic epicId (.retire call) state).2 := by
    intro epic projection active prepared
    have files : (serveEpic epicId (.retire call) state).2.files = ⟨none, some projection⟩ :=
      congrArg Prod.snd (retire_whole rerun.writes rerun.faultless active prepared)
    rw [RetiredOnly, files]
    refine ⟨rfl, projection, rfl, fun since => ?_⟩
    obtain ⟨_, rfl⟩ := retiredProjection_iff.mp prepared
    exact invariant.activeKept since epic active
  rcases rerun.entitled with ⟨epic, projection, active, prepared⟩ | ⟨projection, retired, expected⟩
  · exact whole epic projection active prepared
  · cases active : state.files.active with
    | none =>
      have files : (serveEpic epicId (.retire call) state).2.files = state.files :=
        retire_absent active
      rw [RetiredOnly, files]
      exact ⟨active, projection, retired, fun since => invariant.retiredKept since projection retired⟩
    | some epic =>
      obtain ⟨first, prepared⟩ := invariant.sound projection retired
      rw [invariant.same projection epic retired active] at prepared
      exact whole epic _ active (retiredProjection_again prepared expected).2

theorem RetirementInvariant.keeps (invariant : RetirementInvariant epicId state) : KeepsAccepted epicId state where
  read := by
    intro since
    obtain ⟨⟨epic, source⟩, found⟩ := Option.isSome_iff_exists.mp (invariant.present since)
    refine ⟨epic, ?_, by rw [found]; rfl⟩
    cases retired : state.files.retired with
    | some projection =>
      simp only [epicsGet, retired] at found
      cases found
      exact invariant.retiredKept since projection retired
    | none =>
      cases active : state.files.active with
      | some held =>
        simp only [epicsGet, retired, active] at found
        cases found
        exact invariant.activeKept since epic active
      | none =>
        simp only [epicsGet, retired, active] at found
        cases found
  terminal := by
    intro projection retired
    obtain ⟨call, prepared⟩ := invariant.sound projection retired
    exact (retiredProjection_iff.mp prepared).1.2.1
  reruns := fun call rerun => invariant.reruns rerun

/-! ## The runs that lose nothing -/

theorem removed_version (active : state.files.active = some epic)
    (retired : RetiredOnly (serveEpic epicId (.retire call) state).2) :
    (epic.version : JsNumber) = call.input.expectedVersion := by
  rcases retire_visited (Program.run_mem (retireProgram epicId call) state.files) with
    same | ⟨other, projection, held, prepared, _⟩
  · have removed : ((retireProgram epicId call).run state.files).2.active = none := retired.1
    rw [same, active] at removed
    cases removed
  · cases active.symm.trans held
    exact (retiredProjection_iff.mp prepared).1.2.2.1

/-- The retirement that wrote a projection, run once more. -/
def rerunOf (projection : RetiredEpicProjection) : RetireCall where
  input := ⟨projection.source_version, projection.evidence, projection.retired_by, false⟩
  now := projection.retired_at
  numberText := fun _ => ""
  faults := noRetireFaults

theorem rerunOf_entitled (retired : files.retired = some projection) : Rerun epicId (rerunOf projection) files where
  writes := rfl
  faultless := rfl
  entitled := .inr ⟨projection, retired, rfl⟩

/-- In every state of a run a reader gets every accepted update, only finished Epics are
    retired and a retirement that was cut can be run to its end, just if no mutation
    writes while a retired projection is there. -/
theorem retirement_safe_iff (epicId : String) (start : Option Epic) (commands : List EpicCommand) :
    (∀ step ∈ trace (serveEpic epicId) commands (.start start),
      KeepsAccepted epicId step.before ∧ KeepsAccepted epicId step.after) ↔
    ∀ step ∈ trace (serveEpic epicId) commands (.start start), QuietOnceRetired step := by
  constructor
  · intro kept step member call latest isMutation active stores
    obtain ⟨before, after⟩ := kept step member
    by_contra present
    obtain ⟨projection, retired⟩ := Option.ne_none_iff_exists'.mp present
    obtain ⟨candidate, stored, version⟩ := serve_stores epicId stores
    have served : step.after.files = { step.before.files with active := some candidate } := by
      rw [trace_step member, isMutation, ← stored, ← active]
      rfl
    have first := removed_version active (before.reruns _ (rerunOf_entitled retired))
    have second := removed_version (congrArg EpicFiles.active served)
      (after.reruns _ (rerunOf_entitled ((congrArg EpicFiles.retired served).trans retired)))
    have same : candidate.version = latest.version := by
      exact_mod_cast second.trans first.symm
    exact absurd (version.symm.trans same) (Nat.succ_ne_self _)
  · intro quiet
    have around := (trace_guarded (P := RetirementInvariant epicId)
      (fun _ _ calm invariant => serveEpic_invariant calm invariant) quiet
      (RetirementInvariant.initial start)).1
    exact fun step member => ⟨(around step member).1.keeps, (around step member).2.keeps⟩

end

/-! ## Fixed runs -/

def retireCall (expectedVersion : JsNumber) : RetireCall where
  input := ⟨expectedVersion, "All changes archived", "agent", false⟩
  now := "2026-01-02T00:00:00.000Z"
  numberText := fun value => toString value.num
  faults := noRetireFaults

def renamedWhileRetiring : List EpicCommand :=
  [.call (.mutate (callFor (.linkChange
      { entryId := some "entry-1", changeId := "addSearch", title := "Search", order := none
        linkedAt := none, membershipStatus := none, terminalSummary := none, linkedBy := none
        linkEvidence := none, changeProjectId := none, repoId := none, targetPath := none }))),
    .call (.mutate (callFor (.setEntryTerminalSummary "entry-1" ⟨.archived, "2026-01-01T00:00:00.000Z"⟩))),
    .cutRetire (retireCall 2) 2,
    .call (.mutate (callFor (.update (some "Search everything") none (some 2))))]

def renamedState : RetirementState :=
  stateAfter (serveEpic "searchEpic") renamedWhileRetiring (.start (some searchEpic))

/-- The new title is accepted, and a reader gets the old one. -/
theorem rename_unseen : renamedState.since.map Epic.title = ["Search everything"] ∧
      (epicsGet renamedState.files).map (fun found => found.1.title) = some "Search" ∧
      ¬ ∀ step ∈ trace (serveEpic "searchEpic") renamedWhileRetiring (.start (some searchEpic)),
        KeepsAccepted "searchEpic" step.before ∧ KeepsAccepted "searchEpic" step.after := by
  have written : renamedState.since.map Epic.title = ["Search everything"] := by rfl
  have read : (epicsGet renamedState.files).map (fun found => found.1.title) = some "Search" := by
    rfl
  refine ⟨written, read, fun kept => ?_⟩
  have last := (kept (recordOf (serveEpic "searchEpic")
    (.call (.mutate (callFor (.update (some "Search everything") none (some 2)))))
    (stateAfter (serveEpic "searchEpic") (renamedWhileRetiring.take 3) (.start (some searchEpic))))
    (by simp [renamedWhileRetiring, trace])).2
  have since : renamedState.since ≠ [] := fun none => by
    rw [none] at written
    cases written
  obtain ⟨epic, member, found⟩ := last.read since
  have title : epic.title = "Search everything" := by
    have listed : epic.title ∈ renamedState.since.map Epic.title := List.mem_map_of_mem member
    rw [written] at listed
    exact List.mem_singleton.mp listed
  have seen := congrArg (Option.map Epic.title) found
  rw [Option.map_map] at seen
  have unseen := read.symm.trans seen
  rw [Option.map_some, title] at unseen
  exact absurd unseen (by decide)

end Advance.Storage
