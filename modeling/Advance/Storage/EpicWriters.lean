import Mathlib.Algebra.Order.Monoid.Unbundled.WithTop
import Advance.Foundation.WriteLog
import Advance.Storage.EpicInvariant

/-! # Writers of one Epic

Any number of creations and mutations, which take the Epic's lock, and of the
reconciler's saves, which do not, interleaved read by read and write by write.
-/

namespace Advance.Storage

open Advance.Foundation Advance.JavaScript Advance.Types
open EpicDiskOps

/-! ## Writers -/

/-- What the retired directory holds under the id of an Epic to be created. -/
inductive RetiredLookup where
  | absent
  | present
  | unreadable (error : String)

structure EpicCreation where
  title : String
  narrative : String
  epicScope : Option EpicScope
  now : String
  retired : RetiredLookup
  faults : DiskFaults

/-- A call that holds the lock of the Epic from its first read to its last. -/
inductive LockedWriter where
  | create (creation : EpicCreation)
  | mutate (call : EpicCall)

/-- The errors of a save: at its two reads, at the write and at the verifying read. -/
structure SaveFaults where
  first : Option String
  second : Option String
  write : Option String
  after : Option String

structure EpicSave where
  activeEpicsDir : Option String
  nextEpic : Epic
  expectedVersion : Option JsNumber
  faults : SaveFaults

inductive EpicWriter where
  | locked (writer : LockedWriter)
  | save (request : EpicSave)

def LockedWriter.faults : LockedWriter → DiskFaults
  | create creation => creation.faults
  | mutate call => call.faults

def EpicWriter.expectedVersion : EpicWriter → Option JsNumber
  | locked (.create _) => none
  | locked (.mutate call) => call.request.expectedVersion
  | save request => request.expectedVersion

inductive EpicSaveResult where
  | saved (epic : Epic)
  | skipped (reason : String)

inductive WriteOutcome where
  | locked (outcome : EpicOutcome)
  | returned (result : EpicSaveResult)
  | thrown (failure : EpicFailure)

def WriteOutcome.accepted : WriteOutcome → Bool
  | locked outcome => outcome.isChanged
  | returned (.saved _) => true
  | returned (.skipped _) | thrown _ => false

inductive WriterPhase where
  | waiting
  | locked
  | writing (found : Option Epic) (value : EpicValue) (candidate : Epic)
  | verifying (value : EpicValue) (candidate : Epic)
  | leaving (outcome : EpicOutcome)
  | readOnce (first : Option Epic)
  | readTwice (first : Option Epic)
  | saved
  | finished (outcome : WriteOutcome)

/-! ## Under the lock -/

inductive LockedDecision where
  | leaving (outcome : EpicOutcome)
  | writing (value : EpicValue) (candidate : Epic)

def EpicCreation.decide (epicId : String) (creation : EpicCreation) (stored : Option Epic) : LockedDecision :=
  let taken := EpicFailure.disk ("Epic already exists: " ++ epicId)
  match creation.faults.load, stored, creation.retired with
  | some error, _, _ => .leaving (.failed (.disk error))
  | none, some _, _ => .leaving (.failed taken)
  | none, none, .unreadable error => .leaving (.failed (.disk error))
  | none, none, .present => .leaving (.failed taken)
  | none, none, .absent =>
    let epic := createdEpic epicId creation.title creation.narrative creation.epicScope creation.now
    if epic.valid = false then .leaving (.failed .schema) else .writing (.epic epic) epic

def mutationDecision (epicId : String) (call : EpicCall) (stored : Option Epic) : LockedDecision :=
  match call.faults.load, stored with
  | some error, _ => .leaving (.failed (.disk error))
  | none, none => .leaving (.failed (.epicError ("Epic not found: " ++ epicId) .epicNotFound))
  | none, some latest =>
    match mutateLocked { call with faults := noDiskFaults } latest with
    | (.changed value, candidate) => .writing value candidate
    | (outcome, _) => .leaving outcome

def LockedWriter.decide (epicId : String) : LockedWriter → Option Epic → LockedDecision
  | create creation => creation.decide epicId
  | mutate call => mutationDecision epicId call

/-- The read after the write; a creation returns what it reads there. -/
def LockedWriter.verify (epicId : String) (writer : LockedWriter) (value : EpicValue)
    (candidate : Epic) (stored : Option Epic) : EpicOutcome :=
  match writer.faults.readback, stored with
  | some error, _ => .failed (.disk error)
  | none, none => .failed (.epicError ("Epic not found: " ++ epicId) .epicNotFound)
  | none, some readback =>
    match writer with
    | .create _ => .changed (.epic readback)
    | .mutate call =>
      if readback.version ≠ candidate.version then
        .failed (.disk ("Active Epic readback version mismatch for " ++ epicId ++ ": expected " ++
          call.numberText candidate.version ++ ", found " ++ call.numberText readback.version))
      else .changed value

/-- The error of the release replaces what the writer would have returned. -/
def LockedWriter.released (writer : LockedWriter) (outcome : EpicOutcome) : EpicOutcome :=
  match writer.faults.release with
  | some error => .failed (.disk error)
  | none => outcome

/-- A whole call under the lock: what it returns and the stored Epic afterwards. -/
def LockedWriter.serve (epicId : String) (writer : LockedWriter) (stored : Option Epic) : EpicOutcome × Option Epic :=
  match writer.decide epicId stored with
  | .leaving outcome => (writer.released outcome, stored)
  | .writing value candidate =>
    match writer.faults.save with
    | some error => (writer.released (.failed (.disk error)), stored)
    | none => (writer.released (writer.verify epicId value candidate (some candidate)), some candidate)

/-! ## The save of the reconciler -/

def staleFor (expectedVersion : Option JsNumber) (stored : Option Epic) : Bool :=
  stored.any fun epic => expectedVersion.any fun expected => (epic.version : JsNumber) ≠ expected

theorem staleFor_eq_false_iff {expectedVersion : Option JsNumber} {stored : Option Epic} :
    staleFor expectedVersion stored = false ↔ ∀ epic expected, stored = some epic →
      expectedVersion = some expected → (epic.version : JsNumber) = expected := by
  cases stored <;> cases expectedVersion <;> simp [staleFor]

def EpicSave.readFirst (request : EpicSave) (stored : Option Epic) : WriterPhase :=
  let skipped := fun reason => WriterPhase.finished (.returned (.skipped reason))
  if request.activeEpicsDir.getD "" = "" then
    skipped "active Epic projection directory is unavailable"
  else
    match request.faults.first with
    | some error => skipped error
    | none =>
      if staleFor request.expectedVersion stored then skipped "Epic version changed before save"
      else .readOnce stored

/-- The second read, `none` when it fails.  With an Epic found first a failing second read
    stops nothing. -/
def EpicSave.readSecond (first : Option Epic) (second : Option (Option Epic)) : WriterPhase :=
  let skipped := fun reason => WriterPhase.finished (.returned (.skipped reason))
  if first.isNone ≠ (second.any Option.isNone) then
    skipped "live Epic projection appeared during create-if-absent re-check"
  else if (second.getD none).any fun again => first.any fun epic => again.version ≠ epic.version then
    skipped "Epic version changed during optimistic re-check"
  else .readTwice first

def EpicSave.verify (request : EpicSave) (stored : Option Epic) : WriteOutcome :=
  match request.faults.after, stored with
  | none, some epic => .returned (.saved epic)
  | _, _ => .returned (.skipped "Epic save could not be verified")

/-- What stops the write of a save, if anything does. -/
def EpicSave.unwritten (request : EpicSave) : Option EpicFailure :=
  if request.nextEpic.valid = false then some .schema else request.faults.write.map .disk

/-! ## The system -/

abbrev EpicWrite (ι : Type) := LoggedWrite ι (WithBot Nat)

def epicVersion (stored : Option Epic) : WithBot Nat := stored.map Epic.version

structure EpicRace (ι : Type) where
  stored : Option Epic
  holder : Option ι
  phase : ι → WriterPhase
  log : List (EpicWrite ι)

section

variable {ι : Type} [DecidableEq ι]

def EpicRace.start (stored : Option Epic) : EpicRace ι := ⟨stored, none, fun _ => .waiting, []⟩

def EpicRace.goto (race : EpicRace ι) (i : ι) (phase : WriterPhase) : EpicRace ι :=
  { race with phase := Function.update race.phase i phase }

def EpicRace.store (race : EpicRace ι) (i : ι) (found : Option Epic) (epic : Option Epic)
    (phase : WriterPhase) : EpicRace ι :=
  { race.goto i phase with stored := epic, log := race.log ++ [⟨i, epicVersion found⟩] }

variable (epicId : String)

def lockedStep (writer : LockedWriter) (i : ι) (race : EpicRace ι) : EpicRace ι :=
  match race.phase i with
  | .waiting =>
    if race.holder.isNone then { race.goto i .locked with holder := some i } else race
  | .locked =>
    match writer.decide epicId race.stored with
    | .leaving outcome => race.goto i (.leaving outcome)
    | .writing value candidate => race.goto i (.writing race.stored value candidate)
  | .writing found value candidate =>
    match writer.faults.save with
    | some error => race.goto i (.leaving (.failed (.disk error)))
    | none => race.store i found (some candidate) (.verifying value candidate)
  | .verifying value candidate =>
    race.goto i (.leaving (writer.verify epicId value candidate race.stored))
  | .leaving outcome =>
    { race.goto i (.finished (.locked (writer.released outcome))) with holder := none }
  | .readOnce _ | .readTwice _ | .saved | .finished _ => race

def saveStep (request : EpicSave) (i : ι) (race : EpicRace ι) : EpicRace ι :=
  match race.phase i with
  | .waiting => race.goto i (request.readFirst race.stored)
  | .readOnce first =>
    race.goto i (EpicSave.readSecond first (if request.faults.second.isNone then some race.stored else none))
  | .readTwice first =>
    match request.unwritten with
    | some failure => race.goto i (.finished (.thrown failure))
    | none =>
      race.store i first (if request.nextEpic.id = epicId then some request.nextEpic else race.stored) .saved
  | .saved => race.goto i (.finished (request.verify race.stored))
  | .locked | .writing _ _ _ | .verifying _ _ | .leaving _ | .finished _ => race

variable (writers : ι → EpicWriter)

def writerStep (i : ι) (race : EpicRace ι) : Unit × EpicRace ι :=
  match writers i with
  | .locked writer => ((), lockedStep epicId writer i race)
  | .save request => ((), saveStep epicId request i race)

/-! ## What is claimed -/

/-- What an accepted write makes of the stored Epic, as one atomic step. -/
def EpicWriter.write : EpicWriter → Option Epic → Option (Option Epic)
  | .locked writer, stored =>
    match writer.decide epicId stored with
    | .leaving _ => none
    | .writing _ candidate => some (some candidate)
  | .save request, stored =>
    if staleFor request.expectedVersion stored then none else some (some request.nextEpic)

abbrev replayEpic (log : List (EpicWrite ι)) (start : Option Epic) : Option (Option Epic) :=
  replay (fun i => (writers i).write epicId) epicVersion log start

/-- The stored Epic is the fold of the writes, each made on the version it had read; the
    accepted writers are those that wrote, and no two of them expected one version. -/
structure NoUpdateLost (start : Option Epic) (race : EpicRace ι) : Prop where
  folded : replayEpic epicId writers race.log start = some race.stored
  once : (race.log.map LoggedWrite.writer).Nodup
  accepted : ∀ i outcome, race.phase i = .finished outcome →
    (outcome.accepted = true ↔ i ∈ race.log.map LoggedWrite.writer)
  exclusive : ∀ i j outcome other expected, race.phase i = .finished outcome →
    race.phase j = .finished other → outcome.accepted = true → other.accepted = true →
    (writers i).expectedVersion = some expected → (writers j).expectedVersion = some expected → i = j

def RefusedUnchanged (schedule : List ι) (start : Option Epic) : Prop :=
  ∀ step ∈ trace (writerStep epicId writers) schedule (.start start), ∀ outcome,
    (stateAfter (writerStep epicId writers) schedule (.start start)).phase step.request =
      .finished outcome → outcome.accepted = false → step.after.stored = step.before.stored

/-! ## Safe runs -/

/-- The writer has the Epic in hand, read and not yet verified. -/
def WriterPhase.holdsEpic : WriterPhase → Bool
  | writing _ _ _ | verifying _ _ => true
  | _ => false

/-- A save that writes on the Epic it first read, while no writer under the lock has it
    in hand, and moves the version on. -/
structure SafeSave (request : EpicSave) (first : Option Epic) (race : EpicRace ι) : Prop where
  current : epicVersion race.stored = epicVersion first
  undisturbed : ∀ j, (race.phase j).holdsEpic = false
  existing : request.expectedVersion ≠ none → race.stored ≠ none
  later : epicVersion race.stored < (request.nextEpic.version : WithBot Nat)
  sameEpic : request.nextEpic.id = epicId
  verified : request.faults.after = none

/-- A writer that is about to write meets no error afterwards, and a save is safe. -/
def WritesSafely (step : Record (EpicRace ι) ι Unit) : Prop :=
  match writers step.request, step.before.phase step.request with
  | .locked writer, .writing _ _ _ =>
    writer.faults.save = none → writer.faults.readback = none ∧ writer.faults.release = none
  | .save request, .readTwice first =>
    request.unwritten = none → SafeSave epicId request first step.before
  | _, _ => True

/-! ## The invariant -/

def PhaseSound (writer : EpicWriter) (stored : Option Epic) (wrote : Prop) : WriterPhase → Prop
  | .waiting | .locked => ¬ wrote
  | .writing found value candidate =>
    ¬ wrote ∧ found = stored ∧
      ∃ locked, writer = .locked locked ∧ locked.decide epicId stored = .writing value candidate
  | .verifying _ candidate =>
    wrote ∧ stored = some candidate ∧
      ∃ locked, writer = .locked locked ∧ locked.faults.readback = none ∧ locked.faults.release = none
  | .leaving outcome =>
    (outcome.isChanged = true ↔ wrote) ∧ ∃ locked, writer = .locked locked ∧ (wrote → locked.faults.release = none)
  | .readOnce first | .readTwice first =>
    ¬ wrote ∧ ∀ epic expected, first = some epic → writer.expectedVersion = some expected →
      (epic.version : JsNumber) = expected
  | .saved => wrote ∧ stored ≠ none ∧ ∃ request, writer = .save request ∧ request.faults.after = none
  | .finished outcome => outcome.accepted = true ↔ wrote

def WriterPhase.isInside : WriterPhase → Bool
  | locked | writing _ _ _ | verifying _ _ | leaving _ => true
  | _ => false

structure WritersInvariant (start : Option Epic) (race : EpicRace ι) : Prop where
  folded : replayEpic epicId writers race.log start = some race.stored
  once : (race.log.map LoggedWrite.writer).Nodup
  moving : ∀ write ∈ race.log, Advances (fun i => (writers i).write epicId) epicVersion write
  expected : ∀ write ∈ race.log, ∀ expected, (writers write.writer).expectedVersion = some expected →
      ∃ version : Nat, write.base = version ∧ (version : JsNumber) = expected
  holder : ∀ i, (race.phase i).isInside = true → race.holder = some i
  phases : ∀ i, PhaseSound epicId (writers i) race.stored (i ∈ race.log.map LoggedWrite.writer) (race.phase i)

variable {epicId writers}

/-! ## What a writer under the lock decides -/

variable {stored : Option Epic} {value : EpicValue} {candidate : Epic}

theorem mutationDecision_writing {call : EpicCall}
    (decided : mutationDecision epicId call stored = .writing value candidate) :
    ∃ latest, stored = some latest ∧ candidate.version = latest.version + 1 ∧
      ∀ expected, call.request.expectedVersion = some expected → (latest.version : JsNumber) = expected := by
  unfold mutationDecision at decided
  split at decided
  next => cases decided
  next => cases decided
  next latest _ =>
    refine ⟨latest, rfl, ?_⟩
    rcases mutateLocked_cases { call with faults := noDiskFaults } latest rfl with
      ⟨stores, _, done, _⟩ | ⟨_, _, unchanged⟩
    · split at decided
      next changed =>
        rw [changed] at done
        cases decided
        exact ⟨stored_version done, stores.current⟩
      next => cases decided
    · split at decided
      next changed =>
        rw [changed] at unchanged
        cases unchanged
      next => cases decided

theorem creation_writing {creation : EpicCreation}
    (decided : creation.decide epicId stored = .writing value candidate) : stored = none := by
  unfold EpicCreation.decide at decided
  split at decided <;> first | rfl | cases decided

variable {writer : LockedWriter}

theorem decide_advances (decided : writer.decide epicId stored = .writing value candidate) :
    epicVersion stored < epicVersion (some candidate) := by
  cases writer with
  | create creation =>
    rw [creation_writing decided]
    exact WithBot.bot_lt_coe _
  | mutate call =>
    obtain ⟨latest, rfl, next, _⟩ := mutationDecision_writing decided
    refine WithBot.coe_lt_coe.mpr ?_
    rw [next]
    exact Nat.lt_succ_self _

theorem decide_expected (decided : writer.decide epicId stored = .writing value candidate)
    {expected : JsNumber} (given : (EpicWriter.locked writer).expectedVersion = some expected) :
    ∃ version : Nat, epicVersion stored = version ∧ (version : JsNumber) = expected := by
  cases writer with
  | create _ => cases given
  | mutate call =>
    obtain ⟨latest, rfl, _, current⟩ := mutationDecision_writing decided
    exact ⟨latest.version, rfl, current expected given⟩

variable {outcome : EpicOutcome}

theorem decide_leaving (decided : writer.decide epicId stored = .leaving outcome) : outcome.isChanged = false := by
  cases writer with
  | create creation =>
    simp only [LockedWriter.decide, EpicCreation.decide] at decided
    split at decided
    all_goals try (cases decided; rfl)
    split at decided
    · cases decided
      rfl
    · cases decided
  | mutate call =>
    simp only [LockedWriter.decide, mutationDecision] at decided
    split at decided
    · cases decided
      rfl
    · cases decided
      rfl
    · split at decided
      next => cases decided
      next unchanged _ =>
        cases decided
        cases outcome with
        | changed value => exact (unchanged value rfl).elim
        | failed | unchanged => rfl

theorem verify_changed (readable : writer.faults.readback = none) :
    (writer.verify epicId value candidate (some candidate)).isChanged = true := by
  unfold LockedWriter.verify
  rw [readable]
  cases writer <;> simp [EpicOutcome.isChanged]

theorem readFirst_cases (request : EpicSave) (stored : Option Epic) :
    (∃ reason, request.readFirst stored = .finished (.returned (.skipped reason))) ∨
      (request.readFirst stored = .readOnce stored ∧ ∀ epic expected, stored = some epic →
        request.expectedVersion = some expected → (epic.version : JsNumber) = expected) := by
  unfold EpicSave.readFirst
  simp only
  split
  next => exact .inl ⟨_, rfl⟩
  next =>
    split
    next => exact .inl ⟨_, rfl⟩
    next =>
      split
      next => exact .inl ⟨_, rfl⟩
      next agrees => exact .inr ⟨rfl, staleFor_eq_false_iff.mp (Bool.eq_false_of_not_eq_true agrees)⟩

theorem readSecond_cases (first : Option Epic) (second : Option (Option Epic)) :
    (∃ reason, EpicSave.readSecond first second = .finished (.returned (.skipped reason))) ∨
      EpicSave.readSecond first second = .readTwice first := by
  unfold EpicSave.readSecond
  simp only
  split
  next => exact .inl ⟨_, rfl⟩
  next =>
    split
    next => exact .inl ⟨_, rfl⟩
    next => exact .inr rfl

theorem released_unchanged (unchanged : outcome.isChanged = false) : (writer.released outcome).isChanged = false := by
  unfold LockedWriter.released
  split
  · rfl
  · exact unchanged

theorem released_changed {wrote : Prop}
    (reported : outcome.isChanged = true ↔ wrote) (kept : wrote → writer.faults.release = none) :
    ((writer.released outcome).isChanged = true ↔ wrote) := by
  unfold LockedWriter.released
  split
  next error failing =>
    refine iff_of_false Bool.false_ne_true fun wrote => ?_
    cases (kept wrote).symm.trans failing
  next => exact reported

/-! ## One step -/

section

variable {race : EpicRace ι} {i j : ι}

variable {phase : WriterPhase}

theorem forall_goto {P : ι → WriterPhase → Prop} (moved : P i phase)
    (others : ∀ j, j ≠ i → P j (race.phase j)) : ∀ j, P j ((race.goto i phase).phase j) :=
  (Function.forall_update_iff race.phase P).mpr ⟨moved, others⟩

theorem PhaseSound.replaced {writer : EpicWriter} {stored next : Option Epic} {wrote : Prop}
    (sound : PhaseSound epicId writer stored wrote phase)
    (notHeld : phase.holdsEpic = false) (present : next ≠ none) : PhaseSound epicId writer next wrote phase := by
  cases phase with
  | writing | verifying => cases notHeld
  | saved => exact ⟨sound.1, present, sound.2.2⟩
  | waiting | locked | leaving | readOnce | readTwice | finished => exact sound

theorem WriterPhase.inside_of_holds (holds : phase.holdsEpic = true) : phase.isInside = true := by
  cases phase <;> first | rfl | cases holds

variable {start : Option Epic}

omit [DecidableEq ι] in
theorem WritersInvariant.initial : WritersInvariant epicId writers start (.start start : EpicRace ι) where
  folded := rfl
  once := List.nodup_nil
  moving := nofun
  expected := nofun
  holder := nofun
  phases := fun _ => List.not_mem_nil

omit [DecidableEq ι] in
theorem WritersInvariant.alone (invariant : WritersInvariant epicId writers start race)
    (inside : (race.phase i).isInside = true) (differs : j ≠ i) : (race.phase j).isInside = false := by
  by_contra both
  have same := (invariant.holder j (by simpa using both)).symm.trans (invariant.holder i inside)
  exact differs (Option.some.inj same)

theorem WritersInvariant.move (invariant : WritersInvariant epicId writers start race) {holder : Option ι}
    (holds : ∀ j, ((race.goto i phase).phase j).isInside = true → holder = some j)
    (sound : PhaseSound epicId (writers i) race.stored (i ∈ race.log.map LoggedWrite.writer) phase) :
    WritersInvariant epicId writers start { race.goto i phase with holder := holder } where
  folded := invariant.folded
  once := invariant.once
  moving := invariant.moving
  expected := invariant.expected
  holder := holds
  phases := forall_goto (P := fun j => PhaseSound epicId (writers j) race.stored
    (j ∈ race.log.map LoggedWrite.writer)) sound fun j _ => invariant.phases j

theorem WritersInvariant.goto (invariant : WritersInvariant epicId writers start race)
    (inside : phase.isInside = true → (race.phase i).isInside = true)
    (sound : PhaseSound epicId (writers i) race.stored (i ∈ race.log.map LoggedWrite.writer) phase) :
    WritersInvariant epicId writers start (race.goto i phase) :=
  invariant.move (forall_goto (P := fun j phase => phase.isInside = true → race.holder = some j)
    (fun entered => invariant.holder i (inside entered)) fun j _ => invariant.holder j) sound

theorem WritersInvariant.acquire (invariant : WritersInvariant epicId writers start race) (free : race.holder = none)
    (sound : PhaseSound epicId (writers i) race.stored (i ∈ race.log.map LoggedWrite.writer) .locked) :
    WritersInvariant epicId writers start { race.goto i .locked with holder := some i } := by
  refine invariant.move (forall_goto (P := fun j phase => phase.isInside = true → some i = some j)
    (fun _ => rfl) fun j _ entered => ?_) sound
  cases free.symm.trans (invariant.holder j entered)

theorem WritersInvariant.release (invariant : WritersInvariant epicId writers start race)
    (inside : (race.phase i).isInside = true) {outcome : WriteOutcome}
    (sound : outcome.accepted = true ↔ i ∈ race.log.map LoggedWrite.writer) :
    WritersInvariant epicId writers start { race.goto i (.finished outcome) with holder := none } := by
  refine invariant.move (forall_goto (P := fun j phase => phase.isInside = true → none = some j)
    (fun entered => nomatch entered) fun j differs entered => ?_) sound
  cases (invariant.alone inside differs).symm.trans entered

theorem WritersInvariant.store (invariant : WritersInvariant epicId writers start race)
    {found : Option Epic} {epic : Epic} (fresh : i ∉ race.log.map LoggedWrite.writer)
    (current : epicVersion race.stored = epicVersion found)
    (applied : (writers i).write epicId race.stored = some (some epic))
    (moving : Advances (fun i => (writers i).write epicId) epicVersion ⟨i, epicVersion found⟩)
    (expected : ∀ expected, (writers i).expectedVersion = some expected →
      ∃ version : Nat, epicVersion found = version ∧ (version : JsNumber) = expected)
    (undisturbed : ∀ j, j ≠ i → (race.phase j).holdsEpic = false)
    (inside : phase.isInside = true → (race.phase i).isInside = true)
    (sound : PhaseSound epicId (writers i) (some epic) True phase) :
    WritersInvariant epicId writers start (race.store i found (some epic) phase) where
  folded := replay_concat invariant.folded current applied
  once := by
    rw [EpicRace.store, List.map_append]
    exact List.Nodup.append invariant.once (List.nodup_singleton i) (List.disjoint_singleton.mpr fresh)
  moving := by
    intro write member
    rcases List.mem_append.mp member with earlier | last
    · exact invariant.moving write earlier
    · rw [List.mem_singleton.mp last]
      exact moving
  expected := by
    intro write member
    rcases List.mem_append.mp member with earlier | last
    · exact invariant.expected write earlier
    · rw [List.mem_singleton.mp last]
      exact expected
  holder := forall_goto (P := fun j phase => phase.isInside = true → race.holder = some j)
    (fun entered => invariant.holder i (inside entered)) (fun j _ => invariant.holder j)
  phases := by
    have writes : ∀ j, j ∈ (race.store i found (some epic) phase).log.map LoggedWrite.writer ↔
        j = i ∨ j ∈ race.log.map LoggedWrite.writer := by
      intro j
      rw [EpicRace.store, List.map_append, List.mem_append, List.map_singleton, List.mem_singleton, or_comm]
    refine forall_goto (P := fun j => PhaseSound epicId (writers j) (some epic)
      (j ∈ (race.store i found (some epic) phase).log.map LoggedWrite.writer)) ?_ fun j differs => ?_
    · rw [eq_true ((writes i).mpr (.inl rfl))]
      exact sound
    · rw [propext ((writes j).trans (or_iff_right differs))]
      exact (invariant.phases j).replaced (undisturbed j differs) (Option.some_ne_none epic)

variable {writer : LockedWriter}

theorem lockedStep_invariant (isLocked : writers i = .locked writer)
    (invariant : WritersInvariant epicId writers start race)
    (safe : ∀ found value candidate, race.phase i = .writing found value candidate →
      writer.faults.save = none → writer.faults.readback = none ∧ writer.faults.release = none) :
    WritersInvariant epicId writers start (lockedStep epicId writer i race) := by
  have sound := invariant.phases i
  unfold lockedStep
  split
  next waiting =>
    rw [waiting] at sound
    split
    next free => exact invariant.acquire (Option.isNone_iff_eq_none.mp free) sound
    next => exact invariant
  next locked =>
    rw [locked] at sound
    have inside : (race.phase i).isInside = true := by rw [locked]; rfl
    split
    next outcome decided =>
      refine invariant.goto (fun _ => inside) ⟨iff_of_false ?_ sound, writer, isLocked, fun wrote =>
        absurd wrote sound⟩
      exact ne_true_of_eq_false (decide_leaving decided)
    next value candidate decided =>
      exact invariant.goto (fun _ => inside) ⟨sound, rfl, writer, isLocked, decided⟩
  next found value candidate writing =>
    rw [writing] at sound
    have inside : (race.phase i).isInside = true := by rw [writing]; rfl
    obtain ⟨fresh, rfl, same, sameWriter, decided⟩ := sound
    cases isLocked.symm.trans sameWriter
    split
    next error failing =>
      exact invariant.goto (fun _ => inside)
        ⟨iff_of_false Bool.false_ne_true fresh, writer, isLocked, fun wrote => absurd wrote fresh⟩
    next written =>
      obtain ⟨readable, releasable⟩ := safe _ _ _ writing written
      refine invariant.store fresh rfl ?_ ?_ ?_ ?_ (fun _ => inside)
        ⟨trivial, rfl, writer, isLocked, readable, releasable⟩
      · rw [isLocked, EpicWriter.write, decided]
      · intro store next version applied
        simp only [isLocked, EpicWriter.write] at applied
        split at applied
        next => cases applied
        next value' candidate' again =>
          cases applied
          exact version ▸ decide_advances again
      · rw [isLocked]
        exact fun expected given => decide_expected decided given
      · intro j differs
        by_contra held
        have jInside := WriterPhase.inside_of_holds (by simpa using held)
        cases (invariant.alone inside differs).symm.trans jInside
  next value candidate verifying =>
    rw [verifying] at sound
    have inside : (race.phase i).isInside = true := by rw [verifying]; rfl
    obtain ⟨wrote, stored, same, sameWriter, readable, releasable⟩ := sound
    cases isLocked.symm.trans sameWriter
    refine invariant.goto (fun _ => inside) ⟨iff_of_true ?_ wrote, writer, isLocked, fun _ => releasable⟩
    rw [stored]
    exact verify_changed readable
  next outcome leaving =>
    rw [leaving] at sound
    obtain ⟨reported, same, sameWriter, kept⟩ := sound
    cases isLocked.symm.trans sameWriter
    exact invariant.release (by rw [leaving]; rfl) (released_changed reported kept)
  next => exact invariant
  next => exact invariant
  next => exact invariant
  next => exact invariant

theorem saveStep_invariant {request : EpicSave} (isSave : writers i = .save request)
    (invariant : WritersInvariant epicId writers start race)
    (safe : ∀ first, race.phase i = .readTwice first → request.unwritten = none →
      SafeSave epicId request first race) :
    WritersInvariant epicId writers start (saveStep epicId request i race) := by
  have sound := invariant.phases i
  unfold saveStep
  split
  next waiting =>
    rw [waiting] at sound
    refine invariant.goto ?_ ?_
    · rcases readFirst_cases request race.stored with ⟨reason, stopped⟩ | ⟨read, _⟩
      · rw [stopped]
        exact fun entered => nomatch entered
      · rw [read]
        exact fun entered => nomatch entered
    · rcases readFirst_cases request race.stored with ⟨reason, stopped⟩ | ⟨read, agrees⟩
      · rw [stopped]
        exact iff_of_false Bool.false_ne_true sound
      · rw [read]
        exact ⟨sound, by rw [isSave]; exact agrees⟩
  next first readOnce =>
    rw [readOnce] at sound
    refine invariant.goto ?_ ?_
    · rcases readSecond_cases first _ with ⟨reason, stopped⟩ | read
      · rw [stopped]
        exact fun entered => nomatch entered
      · rw [read]
        exact fun entered => nomatch entered
    · rcases readSecond_cases first _ with ⟨reason, stopped⟩ | read
      · rw [stopped]
        exact iff_of_false Bool.false_ne_true sound.1
      · rw [read]
        exact sound
  next first readTwice =>
    rw [readTwice] at sound
    split
    next failure failing =>
      exact invariant.goto (fun entered => nomatch entered) (iff_of_false Bool.false_ne_true sound.1)
    next written =>
      have careful := safe first readTwice written
      rw [if_pos careful.sameEpic]
      have agrees : ∀ epic expected, race.stored = some epic → request.expectedVersion = some expected →
          (epic.version : JsNumber) = expected := by
        intro epic expected stored given
        have sameVersion := careful.current
        rw [stored] at sameVersion
        obtain ⟨firstEpic, found, version⟩ := Option.map_eq_some_iff.mp sameVersion.symm
        rw [← version]
        exact sound.2 firstEpic expected found (by rw [isSave]; exact given)
      refine invariant.store sound.1 careful.current ?_ ?_ ?_ (fun j _ => careful.undisturbed j)
        (fun entered => nomatch entered)
        ⟨trivial, Option.some_ne_none _, request, isSave, careful.verified⟩
      · rw [isSave, EpicWriter.write, staleFor_eq_false_iff.mpr agrees, if_neg Bool.false_ne_true]
      · intro store next _ applied
        simp only [isSave, EpicWriter.write] at applied
        split at applied
        next => cases applied
        next =>
          cases applied
          exact careful.current ▸ careful.later
      · intro expected given
        rw [isSave] at given
        obtain ⟨epic, stored⟩ := Option.ne_none_iff_exists'.mp
          (careful.existing (by rw [show request.expectedVersion = some expected from given]; nofun))
        refine ⟨epic.version, ?_, agrees epic expected stored given⟩
        rw [← careful.current, stored]
        rfl
  next saved =>
    rw [saved] at sound
    obtain ⟨wrote, present, same, sameRequest, verified⟩ := sound
    cases isSave.symm.trans sameRequest
    obtain ⟨epic, stored⟩ := Option.ne_none_iff_exists'.mp present
    refine invariant.goto (fun entered => nomatch entered) (iff_of_true ?_ wrote)
    unfold EpicSave.verify
    rw [verified, stored]
    rfl
  next => exact invariant
  next => exact invariant
  next => exact invariant
  next => exact invariant
  next => exact invariant

theorem writerStep_invariant (invariant : WritersInvariant epicId writers start race)
    (safe : WritesSafely epicId writers (recordOf (writerStep epicId writers) i race)) :
    WritersInvariant epicId writers start (writerStep epicId writers i race).2 := by
  unfold writerStep
  unfold WritesSafely at safe
  simp only [recordOf_request, recordOf_before] at safe
  split
  next writer isLocked =>
    refine lockedStep_invariant isLocked invariant fun found value candidate writing => ?_
    simpa [isLocked, writing] using safe
  next request isSave =>
    refine saveStep_invariant isSave invariant fun first readTwice => ?_
    simpa [isSave, readTwice] using safe

/-! ## A writer alone -/

theorem mutateLocked_decided (call : EpicCall) (latest : Epic) : mutateLocked call latest =
      match mutateLocked { call with faults := noDiskFaults } latest with
      | (.changed value, candidate) =>
        match call.faults.save, call.faults.readback with
        | some error, _ => (.failed (.disk error), latest)
        | none, some error => (.failed (.disk error), candidate)
        | none, none => (.changed value, candidate)
      | (outcome, _) => (outcome, latest) := by
  unfold mutateLocked
  simp only [noDiskFaults]
  by_cases stale : (call.request.expectedVersion.any fun expected =>
    decide ((latest.version : JsNumber) ≠ expected)) = true
  · simp only [if_pos stale]
  · simp only [if_neg stale]
    cases assertOpenForMutation latest with
    | error => rfl
    | ok =>
      cases transition call.runtime latest call.request with
      | error => rfl
      | ok result =>
        cases result with
        | unchanged => rfl
        | changed value candidate =>
          by_cases invalid : candidate.valid = false
          · simp only [if_pos invalid]
          · simp only [if_neg invalid]
            cases call.faults.save <;> cases call.faults.readback <;> rfl

theorem serve_mutate {call : EpicCall} (loads : call.faults.load = none) (latest : Epic) :
    (LockedWriter.mutate call).serve epicId (some latest) =
      ((mutateEpic call latest).1, some (mutateEpic call latest).2) := by
  have decided : (LockedWriter.mutate call).decide epicId (some latest) =
      match mutateLocked { call with faults := noDiskFaults } latest with
      | (.changed value, candidate) => .writing value candidate
      | (outcome, _) => .leaving outcome := by
    simp only [LockedWriter.decide, mutationDecision, loads]
  rw [LockedWriter.serve, decided, mutateEpic, loads, mutateLocked_decided call latest]
  rcases mutateLocked { call with faults := noDiskFaults } latest with ⟨outcome, candidate⟩
  cases outcome with
  | failed | unchanged =>
    cases released : call.faults.release <;>
      simp [LockedWriter.released, LockedWriter.faults, released]
  | changed value =>
    cases released : call.faults.release <;> cases saved : call.faults.save <;>
      cases readable : call.faults.readback <;>
      simp [LockedWriter.released, LockedWriter.faults, LockedWriter.verify, released, saved, readable]

theorem serve_leaving {stored : Option Epic} {outcome : EpicOutcome}
    (decided : writer.decide epicId stored = .leaving outcome) :
    (writer.serve epicId stored).2 = stored ∧ (writer.serve epicId stored).1.isChanged = false := by
  rw [LockedWriter.serve, decided]
  exact ⟨rfl, released_unchanged (decide_leaving decided)⟩

theorem serve_cases (epicId : String) (writer : LockedWriter) (stored : Option Epic) :
    ((writer.serve epicId stored).2 = stored ∧ (writer.serve epicId stored).1.isChanged = false) ∨
      ∃ candidate, (writer.serve epicId stored).2 = some candidate := by
  cases decided : writer.decide epicId stored with
  | leaving outcome => exact .inl (serve_leaving decided)
  | writing value candidate =>
    rw [LockedWriter.serve, decided]
    cases saved : writer.faults.save with
    | none => exact .inr ⟨candidate, rfl⟩
    | some error => exact .inl ⟨rfl, released_unchanged rfl⟩

omit [DecidableEq ι] in
theorem WritersInvariant.noUpdateLost (invariant : WritersInvariant epicId writers start race) :
    NoUpdateLost epicId writers start race where
  folded := invariant.folded
  once := invariant.once
  accepted := by
    intro i outcome finished
    have sound := invariant.phases i
    rw [finished] at sound
    exact sound
  exclusive := by
    intro i j outcome other expected iFinished jFinished iAccepted jAccepted iExpected jExpected
    have logged : ∀ k outcome, race.phase k = .finished outcome → outcome.accepted = true →
        (writers k).expectedVersion = some expected →
        ∃ write ∈ race.log, write.writer = k ∧ ∃ version : Nat,
          write.base = version ∧ (version : JsNumber) = expected := by
      intro k outcome finished accepted given
      have sound := invariant.phases k
      rw [finished] at sound
      obtain ⟨write, member, rfl⟩ := List.mem_map.mp (sound.mp accepted)
      exact ⟨write, member, rfl, invariant.expected write member expected given⟩
    obtain ⟨first, firstMember, rfl, version, firstBase, firstVersion⟩ :=
      logged i outcome iFinished iAccepted iExpected
    obtain ⟨second, secondMember, rfl, again, secondBase, secondVersion⟩ :=
      logged j other jFinished jAccepted jExpected
    have sameVersion : version = again := by exact_mod_cast firstVersion.trans secondVersion.symm
    rw [base_unique (replay_ascending invariant.folded invariant.moving).1 firstMember secondMember
      (by rw [firstBase, secondBase, sameVersion])]

theorem writerStep_log (epicId : String) (writers : ι → EpicWriter) (i : ι) (race : EpicRace ι) :
    (race.log <+: (writerStep epicId writers i race).2.log) ∧
      ((writerStep epicId writers i race).2.stored ≠ race.stored →
        i ∈ (writerStep epicId writers i race).2.log.map LoggedWrite.writer) := by
  have unchanged : ∀ next : EpicRace ι, next.stored = race.stored → next.log = race.log →
      (race.log <+: next.log) ∧ (next.stored ≠ race.stored → i ∈ next.log.map LoggedWrite.writer) :=
    fun next stored log => ⟨log ▸ List.prefix_rfl, fun changed => absurd stored changed⟩
  have stores : ∀ found epic phase, (race.log <+: (race.store i found epic phase).log) ∧
      ((race.store i found epic phase).stored ≠ race.stored →
        i ∈ (race.store i found epic phase).log.map LoggedWrite.writer) :=
    fun found epic phase => ⟨List.prefix_append _ _, fun _ => by simp [EpicRace.store]⟩
  unfold writerStep
  split
  · unfold lockedStep
    split
    · split <;> exact unchanged _ rfl rfl
    · split <;> exact unchanged _ rfl rfl
    · split
      · exact unchanged _ rfl rfl
      · exact stores _ _ _
    all_goals exact unchanged _ rfl rfl
  · unfold saveStep
    split
    · exact unchanged _ rfl rfl
    · exact unchanged _ rfl rfl
    · split
      · exact unchanged _ rfl rfl
      · exact stores _ _ _
    all_goals exact unchanged _ rfl rfl

theorem log_grows (schedule : List ι) (race : EpicRace ι) :
    race.log <+: (stateAfter (writerStep epicId writers) schedule race).log := by
  induction schedule generalizing race with
  | nil => exact List.prefix_rfl
  | cons i schedule ih => exact (writerStep_log epicId writers i race).1.trans (ih _)

/-- In a run of safe writes no accepted update is lost, and who is refused has changed
    nothing. -/
theorem updates_kept (epicId : String) (writers : ι → EpicWriter) (start : Option Epic) (schedule : List ι)
    (safe : ∀ step ∈ trace (writerStep epicId writers) schedule (.start start),
      WritesSafely epicId writers step) : (∀ step ∈ trace (writerStep epicId writers) schedule (.start start),
      NoUpdateLost epicId writers start step.before ∧ NoUpdateLost epicId writers start step.after) ∧
    NoUpdateLost epicId writers start (stateAfter (writerStep epicId writers) schedule (.start start)) ∧
    RefusedUnchanged epicId writers schedule start := by
  obtain ⟨around, final⟩ := trace_guarded
    (P := WritersInvariant epicId writers start)
    (fun i race safe invariant => writerStep_invariant invariant safe) safe
    WritersInvariant.initial
  refine ⟨fun step member => ⟨(around step member).1.noUpdateLost, (around step member).2.noUpdateLost⟩,
    final.noUpdateLost, ?_⟩
  intro step member outcome finished refused
  by_contra changed
  obtain ⟨front, back, split⟩ := List.append_of_mem member
  obtain ⟨early, late, place, _, served, _⟩ := trace_split split
  have wrote := (writerStep_log epicId writers step.request step.before).2
  have left : step.after = (writerStep epicId writers step.request step.before).2 :=
    congrArg Record.after (trace_step member)
  rw [← left] at wrote
  have grown : step.after.log <+: (stateAfter (writerStep epicId writers) schedule (.start start)).log := by
    rw [place, stateAfter_append, stateAfter_cons]
    have reached : (writerStep epicId writers step.request
        (stateAfter (writerStep epicId writers) early (.start start))).2 = step.after :=
      (congrArg Record.after served).symm
    rw [reached]
    exact log_grows late step.after
  have logged := (grown.map LoggedWrite.writer).mem (wrote changed)
  rw [← final.noUpdateLost.accepted step.request outcome finished, refused] at logged
  cases logged

end

end

/-! ## Fixed runs -/

inductive Party where
  | reconciler
  | creator
  | editor
  deriving DecidableEq

def reconstructedEpic : Epic :=
  createdEpic "searchEpic" "Recovered" "From fragments" none "2026-01-01T00:00:00.000Z"

def retitle (title : String) : EpicWriter :=
  .locked (.mutate (callFor (.update (some title) none (some 0))))

def partyWriter : Party → EpicWriter
  | .reconciler => .save ⟨some "epics", reconstructedEpic, none, ⟨none, none, none, none⟩⟩
  | .creator => .locked (.create ⟨"Search", "Find things", none, "2026-01-01T00:00:00.000Z", .absent, noDiskFaults⟩)
  | .editor => retitle "Search everything"

def overtakenSave : List Party :=
  List.replicate 2 .reconciler ++ List.replicate 5 .creator ++ List.replicate 5 .editor ++
    List.replicate 2 .reconciler

def overtakenRace : EpicRace Party :=
  stateAfter (writerStep "searchEpic" partyWriter) overtakenSave (.start none)

def EpicRace.accepts {ι : Type} (race : EpicRace ι) (i : ι) : Bool :=
  match race.phase i with
  | .finished outcome => outcome.accepted
  | _ => false

/-- All three are accepted, and the new title is gone. -/
theorem reconstruction_overwrites : (∀ party, overtakenRace.accepts party = true) ∧
      overtakenRace.stored.map (fun epic => (epic.title, epic.version)) = some ("Recovered", 0) ∧
      ¬ NoUpdateLost "searchEpic" partyWriter none overtakenRace := by
  refine ⟨?_, by rfl, ?_⟩
  · intro party
    cases party <;> rfl
  · intro kept
    have folded := congrArg Option.isSome kept.folded
    revert folded
    decide

def rivalEditor (second : Bool) : EpicWriter :=
  retitle (if second then "Search everything" else "Search again")

/-- The second editor comes while the first has the lock, and is refused as stale. -/
theorem updates_kept_rivals : NoUpdateLost "searchEpic" rivalEditor (some searchEpic)
        (stateAfter (writerStep "searchEpic" rivalEditor)
          ([false, true, false, true] ++ List.replicate 3 false ++ List.replicate 5 true)
          (.start (some searchEpic))) ∧
      (stateAfter (writerStep "searchEpic" rivalEditor)
          ([false, true, false, true] ++ List.replicate 3 false ++ List.replicate 5 true)
          (.start (some searchEpic))).stored.map Epic.title = some "Search again" := by
  refine ⟨(updates_kept "searchEpic" rivalEditor (some searchEpic) _ ?_).2.1, by rfl⟩
  intro step _
  simp only [WritesSafely, rivalEditor, retitle]
  split
  next writer _ _ _ same _ =>
    cases same
    exact fun _ => ⟨rfl, rfl⟩
  next same _ => cases same
  next => trivial

end Advance.Storage
