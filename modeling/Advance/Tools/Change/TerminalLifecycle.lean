import Advance.Foundation.SharedValue
import Advance.Tools.ChangeMutationCoordinator
import Advance.Types.ChangeStatus

/-! # The writers of the terminal status

A change is closed by the close tool, by `changes.close` and by `changes.closeBatch`, and archived by the completion
of a shipped change and by the recovery of an archive.  Each decides on an earlier read, or on none.
-/

namespace Advance.Tools.Change

open Advance.Foundation Advance.Types

/-! ## Records -/

structure LifecycleProjection where
  status : ChangeStatus
  lifecycleState : Option ChangeLifecycleState
  projection_revision : Nat
  deriving DecidableEq

/-- The record under `changes/` and the one in the archive bundle. -/
structure LifecycleStore where
  active : Option LifecycleProjection
  bundle : Option LifecycleProjection
  deriving DecidableEq

/-- Both fields of the latest record, and its next revision. -/
def LifecycleProjection.become (latest : LifecycleProjection) (status : ChangeStatus) (state : ChangeLifecycleState) :
    LifecycleProjection := ⟨status, some state, latest.projection_revision + 1⟩

inductive LifecycleCall where
  | closeTool
  | close
  | closeBatch
  | archive
  | recover
  deriving DecidableEq

/-- Where a call is, with what it has read. -/
inductive LifecyclePhase where
  | idle
  | closing
  | retiring
  | validated
  | saving (copy : LifecycleProjection)
  | finalizing (seen : LifecycleProjection)
  | shipping
  | refreshing (terminal : LifecycleProjection)
  | removing
  | converging (expectedRevision : Nat)
  | finished
  deriving DecidableEq

inductive LifecycleChoice where
  | goesOn (fate : MutationFate)
  /-- The archive finds its terminal commit done. -/
  | skips
  | stops
  deriving DecidableEq

inductive LifecycleWrite where
  | active (written : LifecycleProjection)
  | bundle (written : LifecycleProjection)

def LifecycleWrite.written : LifecycleWrite → LifecycleProjection
  | active written | bundle written => written

def LifecycleWrite.apply (write : LifecycleWrite) (store : LifecycleStore) : LifecycleStore :=
  match write with
  | active record => { store with active := some record }
  | bundle record => { store with bundle := some record }

/-- The projection that a step writes. -/
def LifecyclePhase.write (phase : LifecyclePhase) (store : LifecycleStore) : Option LifecycleWrite :=
  match phase with
  | .closing => store.active.map fun latest => .active (latest.become .closed .closed)
  | .saving copy =>
    -- The copy is saved outside the lock, with the lifecycle state it has.
    some (.active { copy with status := .closed })
  | .shipping => store.active.map fun latest => .active (latest.become .archived .archived)
  | .refreshing terminal => some (.bundle { terminal with status := .archived })
  | .converging expectedRevision =>
    (store.active.filter (·.projection_revision = expectedRevision)).map fun latest =>
      .active (latest.become .archived .archived)
  | _ => none

def LifecycleChoice.write (choice : LifecycleChoice) (phase : LifecyclePhase) (store : LifecycleStore) :
    Option LifecycleWrite :=
  match choice with
  | .goesOn .untouched | .skips | .stops => none
  | .goesOn _ => phase.write store

def LifecycleCall.read (call : LifecycleCall) (active : Option LifecycleProjection) : LifecyclePhase :=
  match call, active with
  | .closeTool, _ => .closing
  | .close, some copy => if copy.status = .archived then .finished else .saving copy
  | .closeBatch, some found => if found.status = .draft then .validated else .finished
  | .archive, some seen => .finalizing seen
  | .recover, some seen => .converging seen.projection_revision
  | _, none => .finished

/-- What follows on a write: only one that is verified goes on. -/
def LifecyclePhase.next (phase : LifecyclePhase) (write : LifecycleWrite) : LifecyclePhase :=
  match phase with
  | .closing => .retiring
  | .shipping => .refreshing write.written
  | .refreshing _ => .removing
  | _ => .finished

def LifecycleProjection.terminalCommitted (seen : LifecycleProjection) : Bool :=
  seen.status = .archived && seen.lifecycleState = some .archived

section

variable {ι : Type} [DecidableEq ι] (calls : ι → LifecycleCall)

def lifecycleAdvance (i : ι) (choice : LifecycleChoice) (phase : LifecyclePhase) (store : LifecycleStore) :
    LifecyclePhase × LifecycleStore :=
  match phase, choice with
  | .idle, .goesOn _ => ((calls i).read store.active, store)
  | .validated, .goesOn _ =>
    -- The status is not looked at again.
    (match store.active with
      | some copy => .saving copy
      | none => .finished, store)
  | .finalizing _, .goesOn _ => (.shipping, store)
  | .finalizing seen, .skips => (if seen.terminalCommitted then .refreshing seen else .finished, store)
  | .retiring, .goesOn fate | .removing, .goesOn fate =>
    (.finished, if fate = .untouched then store else { store with active := none })
  | _, _ =>
    match choice.write phase store with
    | none => (.finished, store)
    | some write => (if choice = .goesOn .verified then phase.next write else .finished, write.apply store)

abbrev LifecycleRace (ι : Type) := Shared ι LifecycleStore LifecyclePhase

/-- Outside of the calls the record gets new revisions only. -/
abbrev LifecycleMove (ι : Type) := SharedMove ι LifecycleChoice Nat

def revised (revision : Nat) (store : LifecycleStore) : LifecycleStore :=
  { store with active := store.active.map fun latest => { latest with projection_revision := revision } }

def lifecycleStep : LifecycleMove ι → LifecycleRace ι → Unit × LifecycleRace ι :=
  sharedStep (lifecycleAdvance calls) revised

abbrev LifecycleRecord (ι : Type) := Record (LifecycleRace ι) (LifecycleMove ι) Unit

end

/-! ## What is claimed -/

section

variable {ι : Type}

def writtenBy (step : LifecycleRecord ι) : Option LifecycleProjection :=
  match step.request with
  | .outside _ => none
  | .party i choice => (choice.write (step.before.party i) step.before.value).map LifecycleWrite.written

def LifecycleProjection.Agrees (projection : LifecycleProjection) : Prop :=
  ∀ state, projection.lifecycleState = some state →
    (state = .archived ↔ projection.status = .archived) ∧ (state = .closed ↔ projection.status = .closed)

structure TerminalFinal (steps : List (LifecycleRecord ι)) : Prop where
  final : ∀ front first middle second back written later,
    steps = front ++ first :: (middle ++ second :: back) → writtenBy first = some written →
    writtenBy second = some later → written.status.isTerminal = true → later.status = written.status
  agrees : ∀ step ∈ steps, ∀ written, writtenBy step = some written → written.Agrees

/-- A write finds no other terminal status: the close tool finds the change not archived; a saved copy finds it
    there and not archived, and carries no lifecycle state but closed; an archiving commit does not find it
    closed. -/
def LifecyclePhase.Unopposed (phase : LifecyclePhase) (store : LifecycleStore) : Prop :=
  match phase with
  | .closing => ∀ stored, store.active = some stored → stored.status ≠ .archived
  | .saving copy => (∃ stored, store.active = some stored ∧ stored.status ≠ .archived) ∧
    (copy.lifecycleState = none ∨ copy.lifecycleState = some .closed)
  | .shipping => ∀ stored, store.active = some stored → stored.status ≠ .closed
  | .converging expectedRevision => ∀ stored, store.active = some stored →
    stored.projection_revision = expectedRevision → stored.status ≠ .closed
  | _ => True

def Unopposed (step : LifecycleRecord ι) : Prop :=
  ∀ i fate, step.request = .party i (.goesOn fate) → fate ≠ .untouched →
    (step.before.party i).Unopposed step.before.value

end

/-! ## Writes -/

section

variable {choice : LifecycleChoice} {phase : LifecyclePhase} {store : LifecycleStore} {write : LifecycleWrite}

theorem choice_write (wrote : choice.write phase store = some write) :
    ∃ fate, choice = .goesOn fate ∧ fate ≠ .untouched ∧ phase.write store = some write := by
  cases choice with
  | goesOn fate =>
    cases fate with
    | untouched => cases wrote
    | unreported => exact ⟨.unreported, rfl, nofun, wrote⟩
    | verified => exact ⟨.verified, rfl, nofun, wrote⟩
  | skips => cases wrote
  | stops => cases wrote

inductive WriteShape (store : LifecycleStore) : LifecyclePhase → LifecycleWrite → Prop
  | closed (latest : LifecycleProjection) (found : store.active = some latest) :
      WriteShape store .closing (.active (latest.become .closed .closed))
  | saved (copy : LifecycleProjection) : WriteShape store (.saving copy) (.active { copy with status := .closed })
  | shipped (latest : LifecycleProjection) (found : store.active = some latest) :
      WriteShape store .shipping (.active (latest.become .archived .archived))
  | refreshed (terminal : LifecycleProjection) :
      WriteShape store (.refreshing terminal) (.bundle { terminal with status := .archived })
  | converged (latest : LifecycleProjection) (found : store.active = some latest) :
      WriteShape store (.converging latest.projection_revision) (.active (latest.become .archived .archived))

theorem write_shape (wrote : phase.write store = some write) : WriteShape store phase write := by
  cases phase with
  | closing =>
    obtain ⟨latest, found, rfl⟩ := Option.map_eq_some_iff.mp wrote
    exact .closed latest found
  | saving copy =>
    cases wrote
    exact .saved copy
  | shipping =>
    obtain ⟨latest, found, rfl⟩ := Option.map_eq_some_iff.mp wrote
    exact .shipped latest found
  | refreshing terminal =>
    cases wrote
    exact .refreshed terminal
  | converging expectedRevision =>
    obtain ⟨latest, kept, rfl⟩ := Option.map_eq_some_iff.mp wrote
    obtain ⟨found, same⟩ := Option.filter_eq_some_iff.mp kept
    cases of_decide_eq_true same
    exact .converged latest found
  | idle | retiring | validated | finalizing | removing | finished => cases wrote

/-! ## Steps -/

variable {ι : Type} {calls : ι → LifecycleCall} {i : ι}

theorem lifecycleAdvance_store (calls : ι → LifecycleCall) (i : ι) (choice : LifecycleChoice) (phase : LifecyclePhase)
    (store : LifecycleStore) : (∃ write, choice.write phase store = some write ∧
      (lifecycleAdvance calls i choice phase store).2 = write.apply store) ∨
    (choice.write phase store = none ∧ ((lifecycleAdvance calls i choice phase store).2 = store ∨
      (lifecycleAdvance calls i choice phase store).2 = { store with active := none })) := by
  have silent : phase.write store = none → choice.write phase store = none := by
    intro none
    cases choice with
    | goesOn fate => cases fate <;> first | rfl | exact none
    | skips => rfl
    | stops => rfl
  unfold lifecycleAdvance
  split
  · exact .inr ⟨silent rfl, .inl rfl⟩
  · exact .inr ⟨silent rfl, .inl rfl⟩
  · exact .inr ⟨silent rfl, .inl rfl⟩
  · exact .inr ⟨rfl, .inl rfl⟩
  · refine .inr ⟨silent rfl, ?_⟩
    dsimp only
    split
    · exact .inl rfl
    · exact .inr rfl
  · refine .inr ⟨silent rfl, ?_⟩
    dsimp only
    split
    · exact .inl rfl
    · exact .inr rfl
  · split
    next none => exact .inr ⟨none, .inl rfl⟩
    next write wrote => exact .inl ⟨write, wrote, rfl⟩

def LifecycleStore.Only (store : LifecycleStore) (status : ChangeStatus) : Prop :=
  ∀ stored, store.active = some stored → stored.status = status

/-- A call that has found the change archived, or has archived it. -/
def LifecyclePhase.knowsArchived : LifecyclePhase → Bool
  | .finalizing seen => seen.status = .archived
  | .refreshing _ => true
  | _ => false

/-- Where a call knows the change archived no other status is in the active record. -/
structure LifecycleKnown (store : LifecycleStore) (phase : LifecyclePhase) : Prop where
  archived : phase.knowsArchived = true → store.Only .archived
  state : ∀ terminal, phase = .refreshing terminal → terminal.lifecycleState = some .archived

theorem LifecycleKnown.plain (store : LifecycleStore) (unknowing : phase.knowsArchived = false) :
    LifecycleKnown store phase := by
  refine ⟨fun knows => ?_, ?_⟩
  · rw [unknowing] at knows
    cases knows
  · rintro terminal rfl
    cases unknowing

theorem WriteShape.archived (shape : WriteShape store phase write) (unopposed : phase.Unopposed store)
    (only : store.Only .archived) : write.written.status = .archived := by
  cases shape with
  | closed latest found => exact absurd (only latest found) (unopposed latest found)
  | saved copy =>
    obtain ⟨⟨stored, found, open'⟩, _⟩ := unopposed
    exact absurd (only stored found) open'
  | shipped latest found => rfl
  | refreshed terminal => rfl
  | converged latest found => rfl

theorem WriteShape.closed_only (shape : WriteShape store phase write) (unopposed : phase.Unopposed store)
    (unknowing : phase.knowsArchived = false) (only : store.Only .closed) : write.written.status = .closed := by
  cases shape with
  | closed latest found => rfl
  | saved copy => rfl
  | shipped latest found => exact absurd (only latest found) (unopposed latest found)
  | refreshed terminal => cases unknowing
  | converged latest found => exact absurd (only latest found) (unopposed latest found rfl)

variable {projection : LifecycleProjection}

theorem closed_agrees (status : projection.status = .closed)
    (state : projection.lifecycleState = none ∨ projection.lifecycleState = some .closed) : projection.Agrees := by
  intro held has
  rw [status]
  rcases state with absent | closed
  · exact nomatch absent.symm.trans has
  · cases closed.symm.trans has
    decide

theorem archived_agrees (status : projection.status = .archived)
    (state : projection.lifecycleState = some .archived) : projection.Agrees := by
  intro held has
  rw [status]
  cases state.symm.trans has
  decide

theorem WriteShape.agrees (shape : WriteShape store phase write) (unopposed : phase.Unopposed store)
    (known : LifecycleKnown store phase) : write.written.Agrees := by
  cases shape with
  | closed latest found => exact closed_agrees rfl (.inr rfl)
  | saved copy => exact closed_agrees rfl unopposed.2
  | shipped latest found => exact archived_agrees rfl rfl
  | refreshed terminal => exact archived_agrees rfl (known.state terminal rfl)
  | converged latest found => exact archived_agrees rfl rfl

theorem Only.apply {status : ChangeStatus} (only : store.Only status) (same : write.written.status = status) :
    (write.apply store).Only status := by
  cases write with
  | active written =>
    rintro _ ⟨⟩
    exact same
  | bundle written => exact only

section

variable (unopposed : ∀ fate, choice = .goesOn fate → fate ≠ .untouched → phase.Unopposed store)
include unopposed

theorem only_archived_advance
    (only : store.Only .archived) : (lifecycleAdvance calls i choice phase store).2.Only .archived := by
  rcases lifecycleAdvance_store calls i choice phase store with ⟨write, wrote, same⟩ | ⟨_, same | same⟩
  · obtain ⟨fate, goesOn, touched, wrote⟩ := choice_write wrote
    rw [same]
    exact Only.apply only ((write_shape wrote).archived (unopposed fate goesOn touched) only)
  · rw [same]
    exact only
  · rw [same]
    exact nofun

theorem only_closed_advance (unknowing : phase.knowsArchived = false) (only : store.Only .closed) :
    (lifecycleAdvance calls i choice phase store).2.Only .closed := by
  rcases lifecycleAdvance_store calls i choice phase store with ⟨write, wrote, same⟩ | ⟨_, same | same⟩
  · obtain ⟨fate, goesOn, touched, wrote⟩ := choice_write wrote
    rw [same]
    exact Only.apply only ((write_shape wrote).closed_only (unopposed fate goesOn touched) unknowing only)
  · rw [same]
    exact only
  · rw [same]
    exact nofun

end

theorem read_known (call : LifecycleCall) (active : Option LifecycleProjection) :
    (∃ seen, active = some seen ∧ call.read active = .finalizing seen) ∨
      (call.read active).knowsArchived = false := by
  cases active with
  | none => cases call <;> exact .inr rfl
  | some found =>
    cases call with
    | closeTool => exact .inr rfl
    | close =>
      refine .inr ?_
      dsimp only [LifecycleCall.read]
      split <;> rfl
    | closeBatch =>
      refine .inr ?_
      dsimp only [LifecycleCall.read]
      split <;> rfl
    | archive => exact .inl ⟨found, rfl, rfl⟩
    | recover => exact .inr rfl

theorem lifecycleAdvance_known (known : LifecycleKnown store phase) :
    LifecycleKnown (lifecycleAdvance calls i choice phase store).2
      (lifecycleAdvance calls i choice phase store).1 := by
  unfold lifecycleAdvance
  split
  · rcases read_known (calls i) store.active with ⟨seen, found, read⟩ | unknowing
    · rw [read]
      refine ⟨fun archived stored same => ?_, fun terminal refreshing => nomatch refreshing⟩
      cases found.symm.trans same
      exact of_decide_eq_true archived
    · exact .plain _ unknowing
  · cases store.active <;> exact .plain _ rfl
  · exact .plain _ rfl
  next seen =>
    dsimp only
    split
    next committed =>
      simp only [LifecycleProjection.terminalCommitted, Bool.and_eq_true, decide_eq_true_eq] at committed
      refine ⟨fun _ => known.archived (by simp [LifecyclePhase.knowsArchived, committed.1]), ?_⟩
      rintro terminal ⟨⟩
      exact committed.2
    next => exact .plain _ rfl
  · exact .plain _ rfl
  · exact .plain _ rfl
  · split
    · exact .plain _ rfl
    next write wrote =>
      dsimp only
      split
      next =>
        obtain ⟨fate, rfl, _, wrote⟩ := choice_write wrote
        cases write_shape wrote with
        | shipped latest found =>
          refine ⟨?_, ?_⟩
          · rintro _ stored ⟨⟩
            rfl
          · rintro terminal ⟨⟩
            rfl
        | closed | saved | refreshed | converged => exact .plain _ rfl
      next => exact .plain _ rfl

theorem WriteShape.only (shape : WriteShape store phase write) (known : LifecycleKnown store phase) :
    (write.apply store).Only write.written.status := by
  cases shape with
  | refreshed terminal => exact known.archived rfl
  | closed | saved | shipped | converged =>
    rintro stored ⟨⟩
    rfl

theorem WriteShape.closed_active (shape : WriteShape store phase write) (closed : write.written.status = .closed) :
    (write.apply store).active = some write.written := by
  cases shape with
  | closed | saved => rfl
  | shipped | refreshed | converged => cases closed

theorem unknowing_advance (unopposed : ∀ fate, choice = .goesOn fate → fate ≠ .untouched → phase.Unopposed store)
    (unknowing : phase.knowsArchived = false) (only : store.Only .closed) :
    (lifecycleAdvance calls i choice phase store).1.knowsArchived = false := by
  unfold lifecycleAdvance
  split
  · rcases read_known (calls i) store.active with ⟨seen, found, read⟩ | unread
    · rw [read]
      simp [LifecyclePhase.knowsArchived, only seen found]
    · exact unread
  · cases store.active <;> rfl
  · rfl
  next seen =>
    dsimp only
    split
    next committed =>
      simp only [LifecycleProjection.terminalCommitted, Bool.and_eq_true, decide_eq_true_eq] at committed
      simp [LifecyclePhase.knowsArchived, committed.1] at unknowing
    next => rfl
  · rfl
  · rfl
  · split
    · rfl
    next write wrote =>
      dsimp only
      split
      next =>
        obtain ⟨fate, goesOn, touched, wrote⟩ := choice_write wrote
        have current := unopposed fate goesOn touched
        cases write_shape wrote with
        | shipped latest found => exact absurd (only latest found) (current latest found)
        | closed | saved | refreshed | converged => rfl
      next => rfl

theorem only_revised {status : ChangeStatus} (revision : Nat) (only : store.Only status) :
    (revised revision store).Only status := by
  intro stored found
  obtain ⟨latest, held, rfl⟩ := Option.map_eq_some_iff.mp found
  exact only latest held

end

/-! ## Runs -/

section

variable {ι : Type} [DecidableEq ι] {calls : ι → LifecycleCall}

/-- The active record is closed or gone, and no call knows the change archived. -/
structure ClosedFor (race : LifecycleRace ι) : Prop where
  only : race.value.Only .closed
  unknowing : ∀ i, (race.party i).knowsArchived = false

/-- An unopposed step of a call that knows what it may know. -/
structure SoundLifecycle (calls : ι → LifecycleCall) (step : LifecycleRecord ι) : Prop where
  served : step = Foundation.recordOf (lifecycleStep calls) step.request step.before
  unopposed : Unopposed step
  before : ∀ i, LifecycleKnown step.before.value (step.before.party i)
  after : ∀ i, LifecycleKnown step.after.value (step.after.party i)

variable {step : LifecycleRecord ι}

theorem SoundLifecycle.wrote (sound : SoundLifecycle calls step) {written : LifecycleProjection}
    (wrote : writtenBy step = some written) : ∃ i write, WriteShape step.before.value (step.before.party i) write ∧
      (step.before.party i).Unopposed step.before.value ∧ write.written = written ∧
      step.after.value = write.apply step.before.value := by
  cases request : step.request with
  | outside revision => simp [writtenBy, request] at wrote
  | party i choice =>
    simp only [writtenBy, request] at wrote
    obtain ⟨write, made, same⟩ := Option.map_eq_some_iff.mp wrote
    obtain ⟨fate, goesOn, touched, shaped⟩ := choice_write made
    have after : step.after.value = (lifecycleAdvance calls i choice (step.before.party i) step.before.value).2 := by
      have served := sound.served
      rw [request] at served
      exact congrArg (fun record => record.after.value) served
    refine ⟨i, write, write_shape shaped, sound.unopposed i fate (by rw [request, goesOn]) touched, same, ?_⟩
    rcases lifecycleAdvance_store calls i choice (step.before.party i) step.before.value with
      ⟨other, again, stored⟩ | ⟨silent, _⟩
    · cases made.symm.trans again
      rw [after, stored]
    · exact nomatch made.symm.trans silent

theorem SoundLifecycle.keeps_archived (sound : SoundLifecycle calls step) (only : step.before.value.Only .archived) :
    step.after.value.Only .archived := by
  rw [sound.served]
  cases request : step.request with
  | outside revision => exact only_revised revision only
  | party i choice =>
    exact only_archived_advance (fun fate goesOn touched => sound.unopposed i fate (by rw [request, goesOn]) touched) only

theorem SoundLifecycle.keeps_closed (sound : SoundLifecycle calls step) (closed : ClosedFor step.before) :
    ClosedFor step.after := by
  rw [sound.served]
  cases request : step.request with
  | outside revision => exact ⟨only_revised revision closed.only, closed.unknowing⟩
  | party i choice =>
    have unopposed : ∀ fate, choice = .goesOn fate → fate ≠ .untouched →
        (step.before.party i).Unopposed step.before.value :=
      fun fate goesOn touched => sound.unopposed i fate (by rw [request, goesOn]) touched
    refine ⟨only_closed_advance unopposed (closed.unknowing i) closed.only, fun j => ?_⟩
    by_cases same : j = i
    · subst same
      exact (congrArg _ (step.before.moved_self j _ _)).trans
        (unknowing_advance unopposed (closed.unknowing j) closed.only)
    · exact (congrArg _ (step.before.moved_other same _ _)).trans (closed.unknowing j)

theorem lifecycle_sound {store : LifecycleStore} {moves : List (LifecycleMove ι)}
    (unopposed : ∀ step ∈ trace (lifecycleStep calls) moves ⟨store, fun _ => .idle⟩, Unopposed step) :
    ∀ step ∈ trace (lifecycleStep calls) moves ⟨store, fun _ => .idle⟩, SoundLifecycle calls step := by
  have held : ∀ step ∈ trace (lifecycleStep calls) moves ⟨store, fun _ => .idle⟩,
      Held (fun _ => True) (fun _ => LifecycleKnown) step.before ∧
        Held (fun _ => True) (fun _ => LifecycleKnown) step.after := by
    refine (held_run ?_ ?_ unopposed ⟨trivial, fun _ => .plain _ rfl⟩).1
    · intro i choice race unopposed held
      refine held.moved trivial (lifecycleAdvance_known (held.parties i)) fun j _ known => ⟨fun knows => ?_, known.state⟩
      exact only_archived_advance (fun fate goesOn touched => unopposed i fate (by rw [goesOn]; rfl) touched)
        (known.archived knows)
    · intro revision race _ held
      refine ⟨trivial, fun i => ⟨fun knows => ?_, (held.parties i).state⟩⟩
      exact only_revised revision ((held.parties i).archived knows)
  intro step member
  exact ⟨trace_step member, unopposed step member, (held step member).1.parties, (held step member).2.parties⟩

/-- In a run whose writes find no other terminal status a terminal status is final, and every written record agrees
    with itself. -/
theorem terminal_final (calls : ι → LifecycleCall) (store : LifecycleStore) (moves : List (LifecycleMove ι))
    (unopposed : ∀ step ∈ trace (lifecycleStep calls) moves ⟨store, fun _ => .idle⟩, Unopposed step) :
    TerminalFinal (trace (lifecycleStep calls) moves ⟨store, fun _ => .idle⟩) := by
  have sound := lifecycle_sound unopposed
  constructor
  · intro front first middle second back written later split wrote rewrote terminal
    have inside : ∀ step, step ∈ first :: (middle ++ second :: back) → SoundLifecycle calls step :=
      fun step member => sound step (by rw [split]; exact List.mem_append_right _ member)
    have firstSound := inside first (by simp)
    obtain ⟨i, write, shape, _, rfl, after⟩ := firstSound.wrote wrote
    obtain ⟨j, rewrite', reshape, opposed, rfl, _⟩ := (inside second (by simp)).wrote rewrote
    have only := shape.only (firstSound.before i)
    rw [← after] at only
    cases status : write.written.status with
    | draft =>
      rw [status] at terminal
      cases terminal
    | archived =>
      rw [status] at only
      have still : second.before.value.Only .archived :=
        trace_between (P := fun race => race.value.Only .archived) split
          (fun step member => (inside step (by simp [member])).keeps_archived) only
      exact reshape.archived opposed still
    | closed =>
      rw [status] at only
      have closed : ClosedFor first.after := by
        refine ⟨only, fun k => ?_⟩
        by_contra knows
        have archived := (firstSound.after k).archived (by simpa using knows) write.written
          (by rw [after, shape.closed_active status])
        cases status.symm.trans archived
      have still : ClosedFor second.before :=
        trace_between split (fun step member => (inside step (by simp [member])).keeps_closed) closed
      exact reshape.closed_only opposed (still.unknowing j) still.only
  · intro step member written wrote
    obtain ⟨i, write, shape, opposed, rfl, _⟩ := (sound step member).wrote wrote
    exact shape.agrees opposed ((sound step member).before i)

end

/-! ## Fixed runs -/

def archiveAndClose : Bool → LifecycleCall
  | true => .archive
  | false => .closeTool

def draftRecord : LifecycleStore := ⟨some ⟨.draft, none, 0⟩, none⟩

def archiveStep : LifecycleMove Bool := .party true (.goesOn .verified)

def closingStep : LifecycleMove Bool := .party false (.goesOn .verified)

/-- The archive stops before it removes the directory, and the change is closed. -/
theorem archived_then_closed :
    ¬ TerminalFinal (trace (lifecycleStep archiveAndClose) [archiveStep, archiveStep, archiveStep, closingStep, closingStep]
      ⟨draftRecord, fun _ => .idle⟩) := by
  intro terminal
  have closed := terminal.final
    (trace (lifecycleStep archiveAndClose) [archiveStep, archiveStep] ⟨draftRecord, fun _ => .idle⟩)
    (Foundation.recordOf (lifecycleStep archiveAndClose) archiveStep
      (stateAfter (lifecycleStep archiveAndClose) [archiveStep, archiveStep] ⟨draftRecord, fun _ => .idle⟩))
    [Foundation.recordOf (lifecycleStep archiveAndClose) closingStep (stateAfter (lifecycleStep archiveAndClose)
      [archiveStep, archiveStep, archiveStep] ⟨draftRecord, fun _ => .idle⟩)]
    (Foundation.recordOf (lifecycleStep archiveAndClose) closingStep (stateAfter (lifecycleStep archiveAndClose)
      [archiveStep, archiveStep, archiveStep, closingStep] ⟨draftRecord, fun _ => .idle⟩))
    [] ⟨.archived, some .archived, 1⟩ ⟨.closed, some .closed, 2⟩ rfl rfl rfl rfl
  cases closed

/-- The archive ends before the close begins. -/
theorem archived_final : TerminalFinal (trace (lifecycleStep archiveAndClose)
      [archiveStep, archiveStep, archiveStep, archiveStep, archiveStep, closingStep, closingStep]
      ⟨draftRecord, fun _ => .idle⟩) :=
  terminal_final archiveAndClose draftRecord
    [archiveStep, archiveStep, archiveStep, archiveStep, archiveStep, closingStep, closingStep] (by
      intro step member i fate request touched
      simp only [trace, List.mem_cons, List.not_mem_nil, or_false] at member
      rcases member with rfl | rfl | rfl | rfl | rfl | rfl | rfl <;> cases request
      · trivial
      · trivial
      · intro stored found
        cases found
        decide
      · trivial
      · trivial
      · trivial
      · intro stored found
        cases found)

end Advance.Tools.Change
