import Advance.Storage.ClosedBundle

/-! # Closes among other commits

Calls commit to one change under its lock; a close then retires the change without it.  Any
process may stop between two of its file operations.
-/

namespace Advance.Storage

open Advance.JavaScript Advance.Foundation

variable {Aux : Type}

/-! ## The system -/

/-- Where a call is: `found` is the record as its last action left it, or as it was when the lock
    was acquired. -/
inductive ClosePhase (Aux : Type) where
  | idle
  | waiting (call : ChangeCall Aux)
  | inside (call : ChangeCall Aux) (found : FileState) (rest : Program (Disk Aux) CallResult)
  | copying (change : JsVal)
  | proving (change : JsVal)
  | removing (change : JsVal)

def ClosePhase.retires : ClosePhase Aux → Bool
  | copying _ | proving _ | removing _ => true
  | idle | waiting _ | inside _ _ _ => false

/-- The files of one change and its calls.  `latest` is the record the last commit left. -/
structure CloseSystem (Aux : Type) where
  disk : Disk Aux
  closed : FileState
  latest : FileState
  holder : Option Nat
  phase : Nat → ClosePhase Aux

namespace CloseSystem

def initial (disk : Disk Aux) (closed : FileState) : CloseSystem Aux :=
  ⟨disk, closed, disk.change, none, fun _ => .idle⟩

def files (system : CloseSystem Aux) : RecordFiles Aux := ⟨system.disk, system.closed⟩

def become (system : CloseSystem Aux) (client : Nat) (phase : ClosePhase Aux) : CloseSystem Aux :=
  { system with phase := Function.update system.phase client phase }

end CloseSystem

inductive CloseMove (Aux : Type) where
  | arrive (client : Nat) (call : ChangeCall Aux)
  | acquire (client : Nat)
  | act (client : Nat)
  | leave (client : Nat) (verified : Bool)
  | copy (client : Nat) (event : WriteEvent)
  | prove (client : Nat) (fault : Option ReadFault)
  | remove (client : Nat) (event : RemovalEvent)
  | stop (client : Nat)

/-- Whose directories and runtime the calls work with. -/
structure CloseSetting where
  runtime : Runtime
  closedPath : String
  changeId : String

section

variable (setting : CloseSetting)

/-- What follows on a call that answered: a value with another id is retired at that id's paths. -/
def afterLeaving (call : ChangeCall Aux) (verified : Bool) (result : CallResult) : ClosePhase Aux :=
  match valueToRetire call verified result with
  | some value => if value.get "id" = .str setting.changeId then .copying value else .idle
  | none => .idle

def acted (system : CloseSystem Aux) (client : Nat) (call : ChangeCall Aux) (disk : Disk Aux)
    (rest : Program (Disk Aux) CallResult) : CloseSystem Aux :=
  { system.become client (.inside call disk.change rest) with
    disk := disk
    latest := if disk.change.isAbsent then system.latest else disk.change }

/-- One move; a move its call cannot make leaves everything as it is. -/
def closeNext (move : CloseMove Aux) (system : CloseSystem Aux) : CloseSystem Aux :=
  match move with
  | .arrive client call =>
    match system.phase client with
    | .idle =>
      if (earlyCheck call.commitCall system.disk).isNone then system.become client (.waiting call) else system
    | _ => system
  | .acquire client =>
    match system.phase client, system.holder with
    | .waiting call, none =>
      { system.become client
          (.inside call system.disk.change (lockedProgram setting.runtime call.commitCall)) with
        holder := some client }
    | _, _ => system
  | .act client =>
    match system.phase client with
    | .inside call _ (.act update next) =>
      acted system client call (update system.disk) (next system.disk)
    | _ => system
  | .leave client verified =>
    match system.phase client with
    | .inside call _ (.finish result) =>
      { system.become client (afterLeaving setting call verified result) with holder := none }
    | _ => system
  | .copy client event =>
    match system.phase client with
    | .copying change =>
      { system.become client (if (closedWriteFailure change event).isNone then .proving change else .idle) with
        closed := writeClosed setting.runtime change event system.closed }
    | _ => system
  | .prove client fault =>
    match system.phase client with
    | .proving change =>
      let failure := unprovenCopy setting.runtime setting.closedPath change system.closed fault
      system.become client (if failure.isNone then .removing change else .idle)
    | _ => system
  | .remove client event =>
    match system.phase client with
    | .removing _ =>
      let disk := removeChangeDir event system.disk
      -- the lock file is in the directory
      { system.become client .idle with
        disk := disk
        holder := if disk.change.isAbsent then none else system.holder }
    | _ => system
  | .stop client =>
    { system.become client .idle with holder := system.holder.filter (· ≠ client) }

def closeStep (move : CloseMove Aux) (system : CloseSystem Aux) : Unit × CloseSystem Aux :=
  ((), closeNext setting move system)

abbrev CloseRecord (Aux : Type) := Record (CloseSystem Aux) (CloseMove Aux) Unit

/-! ## What is promised, and when -/

def Readable (file : FileState) : Prop :=
  ∃ change, Loads setting.runtime file change ∧ change.get "id" = .str setting.changeId

/-- The latest record is readable where the directory is, or under `closed/` once it is gone. -/
structure Kept (system : CloseSystem Aux) : Prop where
  readable : Readable setting system.latest
  kept : system.disk.change = system.latest ∨ system.disk.change.isAbsent = true ∧ system.closed = system.latest

/-- What a close may rely on in a later run: it ends with one copy, the latest. -/
structure Rerunnable (system : CloseSystem Aux) : Prop where
  ends : ∀ (input : CloseInput) (coordinated : CommitCall Aux) value revision readback audit idempotent,
    (ChangeCall.close input coordinated).Fresh setting.runtime system.disk.change →
    (commitChangeProjection setting.runtime (ChangeCall.close input coordinated).commitCall system.disk).1 =
      .ok (.committed value revision readback audit idempotent) →
    (∃ plan, plannedWrite setting.runtime (ChangeCall.close input coordinated).commitCall system.latest = .ok plan ∧
      value = plan.value) ∧
    ∃ aux, advChangeClose setting.runtime setting.closedPath input coordinated true .undisturbed system.files =
      (some (.ok none), ⟨⟨.absent, aux⟩, .text (setting.runtime.stringify value)⟩)
  settled : system.disk.change.isAbsent = true →
    ∀ (input : CloseInput) (coordinated : CommitCall Aux) verified events,
      advChangeClose setting.runtime setting.closedPath input coordinated verified events system.files =
        (none, system.files)

structure SafeStep (step : CloseRecord Aux) : Prop where
  before : Kept setting step.before
  after : Kept setting step.after
  copied : step.before.disk.change.isAbsent = false → step.after.disk.change.isAbsent = true →
    step.before.closed = step.before.disk.change
  based : ∀ client call found rest, step.request = .act client → step.before.phase client = .inside call found rest →
    step.after.disk.change ≠ step.before.disk.change → found = step.before.latest

/-- No commit replaces the record while a close retires it, what a commit writes is a readable
    record, the lock is free when a directory is removed, and the operation of a close is new. -/
def GoodStep (step : CloseRecord Aux) : Prop :=
  match step.request with
  | .acquire client => ∀ call, step.before.phase client = .waiting call → call.closes = true →
      call.Fresh setting.runtime step.before.disk.change
  | .act client => ∀ call found update next, step.before.phase client = .inside call found (.act update next) →
      (update step.before.disk).change ≠ step.before.disk.change →
      (∀ other, (step.before.phase other).retires = false) ∧ Readable setting (update step.before.disk).change
  | .remove client _ => ∀ change, step.before.phase client = .removing change → step.before.holder = none
  | _ => True

/-! ## Invariant -/

/-- What is left of a program under the lock completes its run; without a record it is still to
    look, or it has refused. -/
def Running (call : ChangeCall Aux) (disk : Disk Aux) (rest : Program (Disk Aux) CallResult) : Prop :=
  if disk.change.isAbsent then
    rest = lockedProgram setting.runtime call.commitCall ∨ ∃ reason, rest = .finish (.ok (.operatorRequired reason))
  else
    ∃ entry, rest.run disk = (lockedProgram setting.runtime call.commitCall).run entry ∧
      (call.closes = true → call.Fresh setting.runtime entry.change)

def PhaseHolds (system : CloseSystem Aux) (client : Nat) : ClosePhase Aux → Prop
  | .idle | .waiting _ => True
  | .inside call found rest =>
    system.holder = some client ∧ found = system.disk.change ∧ Running setting call system.disk rest
  | .copying change =>
    system.disk.change = .text (setting.runtime.stringify change) ∨
      system.disk.change.isAbsent = true ∧ system.closed = .text (setting.runtime.stringify change)
  | .proving change | .removing change =>
    system.closed = .text (setting.runtime.stringify change) ∧
      (system.disk.change = .text (setting.runtime.stringify change) ∨ system.disk.change.isAbsent = true)

structure CloseInvariant (system : CloseSystem Aux) : Prop where
  kept : Kept setting system
  phases : ∀ client, PhaseHolds setting system client (system.phase client)

variable {setting} {system : CloseSystem Aux} {client : Nat}

theorem Readable.present {file : FileState} (readable : Readable setting file) : file.isAbsent = false := by
  obtain ⟨_, ⟨_, _, rfl, _⟩, _⟩ := readable
  rfl

theorem Kept.of_present (kept : Kept setting system) (present : system.disk.change.isAbsent = false) :
    system.disk.change = system.latest := by
  rcases kept.kept with active | ⟨absent, _⟩
  · exact active
  · rw [present] at absent
    cases absent

theorem Kept.of_absent (kept : Kept setting system) (absent : system.disk.change.isAbsent = true) :
    system.closed = system.latest := by
  rcases kept.kept with active | ⟨_, closed⟩
  · rw [active, kept.readable.present] at absent
    cases absent
  · exact closed

variable {phase : ClosePhase Aux}

theorem PhaseHolds.congr {next : CloseSystem Aux}
    (holds : PhaseHolds setting system client phase) (disk : next.disk = system.disk)
    (closed : next.closed = system.closed) (holder : next.holder = system.holder) :
    PhaseHolds setting next client phase := by
  cases phase with
  | idle => trivial
  | waiting call => trivial
  | inside call found rest => simpa only [PhaseHolds, disk, holder] using holds
  | copying change => simpa only [PhaseHolds, disk, closed] using holds
  | proving change => simpa only [PhaseHolds, disk, closed] using holds
  | removing change => simpa only [PhaseHolds, disk, closed] using holds

theorem phases_become {next : CloseSystem Aux} (moved : PhaseHolds setting next client phase)
    (others : ∀ other ≠ client, PhaseHolds setting next other (system.phase other)) (other : Nat) :
    PhaseHolds setting next other ((system.become client phase).phase other) := by
  simp only [CloseSystem.become]
  by_cases same : other = client
  · subst same
    rw [Function.update_self]
    exact moved
  · rw [Function.update_of_ne same]
    exact others other same

theorem CloseInvariant.phase_only (invariant : CloseInvariant setting system)
    (moved : PhaseHolds setting system client phase) : CloseInvariant setting (system.become client phase) where
  kept := ⟨invariant.kept.readable, invariant.kept.kept⟩
  phases := phases_become (moved.congr rfl rfl rfl) fun other _ => (invariant.phases other).congr rfl rfl rfl

variable {other : Nat}

theorem PhaseHolds.outside {next : CloseSystem Aux}
    (holds : PhaseHolds setting system other (system.phase other)) (outside : system.holder ≠ some other)
    (same : (system.phase other).retires = true →
      next.disk.change = system.disk.change ∧ next.closed = system.closed) :
    PhaseHolds setting next other (system.phase other) := by
  cases phase : system.phase other with
  | idle => trivial
  | waiting call => trivial
  | inside call found rest =>
    rw [phase] at holds
    exact absurd holds.1 outside
  | copying | proving | removing =>
    rw [phase] at holds same
    obtain ⟨disk, closed⟩ := same rfl
    simpa only [PhaseHolds, disk, closed] using holds

variable {disk : Disk Aux}

theorem commit_absent (runtime : Runtime) (call : CommitCall Aux) (absent : disk.change.isAbsent = true) :
    isCommitted (commitChangeProjection runtime call disk).1 = false ∧
      (commitChangeProjection runtime call disk).2 = disk := by
  unfold commitChangeProjection
  split
  next refused =>
    simp only [earlyCheck] at refused
    split at refused
    · cases refused
      exact ⟨rfl, rfl⟩
    · split at refused
      · cases refused
        exact ⟨rfl, rfl⟩
      · cases refused
  next admitted =>
    simp only [earlyCheck, absent, true_or, if_true] at admitted
    split at admitted <;> cases admitted

variable {next : Disk Aux → Program (Disk Aux) CallResult} {update : Disk Aux → Disk Aux}

theorem lockedProgram_absent (runtime : Runtime) (call : CommitCall Aux) (absent : disk.change.isAbsent = true)
    (first : Program.act update next = lockedProgram runtime call) :
    update = id ∧ ∃ reason, next disk = .finish (.ok (.operatorRequired reason)) := by
  obtain ⟨rfl, rfl⟩ := Program.act.inj first
  refine ⟨rfl, ?_⟩
  obtain ⟨change, aux⟩ := disk
  cases change with
  | absent =>
    simp only
    generalize call.events.loadFault = fault
    rcases fault with _ | _ | error <;> exact ⟨_, rfl⟩
  | text content => cases absent
  | unreadable error => cases absent

/-! ## Steps -/

theorem CloseInvariant.arrive (invariant : CloseInvariant setting system) (call : ChangeCall Aux) :
    CloseInvariant setting (closeNext setting (.arrive client call) system) := by
  simp only [closeNext]
  split
  · split
    · exact invariant.phase_only trivial
    · exact invariant
  · exact invariant

theorem CloseInvariant.acquire (invariant : CloseInvariant setting system)
    (good : ∀ call, system.phase client = .waiting call → call.closes = true →
      call.Fresh setting.runtime system.disk.change) :
    CloseInvariant setting (closeNext setting (.acquire client) system) := by
  simp only [closeNext]
  split
  next call waiting free =>
    refine ⟨⟨invariant.kept.readable, invariant.kept.kept⟩, phases_become ⟨rfl, rfl, ?_⟩ fun other _ => ?_⟩
    · unfold Running
      split
      · exact .inl rfl
      · exact ⟨system.disk, rfl, good call waiting⟩
    · exact (invariant.phases other).outside (by rw [free]; nofun) fun _ => ⟨rfl, rfl⟩
  · exact invariant

variable {call : ChangeCall Aux}

theorem acts_absent (absent : system.disk.change.isAbsent = true)
    (running : Running setting call system.disk (.act update next)) :
    update system.disk = system.disk ∧ Running setting call system.disk (next system.disk) := by
  rw [Running, if_pos absent] at running ⊢
  rcases running with first | ⟨_, refused⟩
  · obtain ⟨rfl, refused⟩ := lockedProgram_absent _ _ absent first
    exact ⟨rfl, .inr refused⟩
  · cases refused

theorem CloseInvariant.act (invariant : CloseInvariant setting system) {found : FileState}
    (phase : system.phase client = .inside call found (.act update next))
    (good : (update system.disk).change ≠ system.disk.change →
      (∀ other, (system.phase other).retires = false) ∧ Readable setting (update system.disk).change) :
    CloseInvariant setting (acted system client call (update system.disk) (next system.disk)) := by
  obtain ⟨held, _, running⟩ : PhaseHolds setting system client (.inside call found (.act update next)) := by
    rw [← phase]
    exact invariant.phases client
  have heldElsewhere : ∀ other ≠ client, system.holder ≠ some other := fun other differs same =>
    differs (Option.some.inj (same.symm.trans held))
  by_cases absent : system.disk.change.isAbsent = true
  · obtain ⟨same, refused⟩ := acts_absent absent running
    rw [same]
    refine ⟨⟨?_, invariant.kept.kept.imp ?_ ?_⟩, phases_become ⟨held, rfl, refused⟩ fun other _ =>
      (invariant.phases other).congr rfl rfl rfl⟩
    · simpa only [acted, absent, if_true] using invariant.kept.readable
    · simp only [acted, absent, if_true, imp_self]
    · exact fun ⟨gone, closed⟩ => ⟨gone, by simp only [acted, absent, if_true]; exact closed⟩
  · have present : system.disk.change.isAbsent = false := by simpa using absent
    obtain ⟨entry, completes, fresh⟩ : ∃ entry, (Program.act update next).run system.disk =
        (lockedProgram setting.runtime call.commitCall).run entry ∧
        (call.closes = true → call.Fresh setting.runtime entry.change) := by
      rw [Running, if_neg absent] at running
      exact running
    have readable : Readable setting (update system.disk).change := by
      by_cases same : (update system.disk).change = system.disk.change
      · rw [same, invariant.kept.of_present present]
        exact invariant.kept.readable
      · exact (good same).2
    have latest : (acted system client call (update system.disk) (next system.disk)).latest =
        (update system.disk).change := by
      simp only [acted, readable.present]
      rfl
    refine ⟨⟨?_, .inl latest.symm⟩, phases_become ⟨held, rfl, ?_⟩ fun other differs => ?_⟩
    · rw [latest]
      exact readable
    · show Running setting call (update system.disk) (next system.disk)
      rw [Running, readable.present]
      exact ⟨entry, completes, fresh⟩
    · by_cases same : (update system.disk).change = system.disk.change
      · exact (invariant.phases other).outside (heldElsewhere other differs) fun _ => ⟨same, rfl⟩
      · exact (invariant.phases other).outside (heldElsewhere other differs) fun retires => by
          cases ((good same).1 other).symm.trans retires

theorem leaves_copying {result : CallResult} {verified : Bool} {value : JsVal}
    (running : Running setting call system.disk (.finish result))
    (retires : valueToRetire call verified result = some value) :
    system.disk.change = .text (setting.runtime.stringify value) := by
  unfold valueToRetire at retires
  split at retires
  next committed _ _ _ _ =>
    split at retires
    next goesOn =>
      obtain rfl := Option.some.inj retires
      have closes : call.closes = true := by
        simp only [Bool.and_eq_true] at goesOn
        exact goesOn.1.1
      rw [Running] at running
      split at running
      · rcases running with first | ⟨_, refused⟩
        · cases first
        · cases refused
      · obtain ⟨entry, completes, fresh⟩ := running
        rw [Program.run_finish] at completes
        have answered := congrArg Prod.fst completes
        rcases locked_committed answered.symm with
          ⟨-, -, _, _, _, _, _, written, _⟩ | ⟨-, -, -, latest, read, member, replays, -⟩
        · rw [← completes] at written
          exact written
        · exact absurd replays (fresh closes latest read _ member)
    · cases retires
  · cases retires

theorem CloseInvariant.leave (invariant : CloseInvariant setting system) (verified : Bool) :
    CloseInvariant setting (closeNext setting (.leave client verified) system) := by
  simp only [closeNext]
  split
  next call found result phase =>
    obtain ⟨held, _, running⟩ : PhaseHolds setting system client (.inside call found (.finish result)) := by
      rw [← phase]
      exact invariant.phases client
    refine ⟨⟨invariant.kept.readable, invariant.kept.kept⟩, phases_become ?_ fun other differs => ?_⟩
    · unfold afterLeaving
      split
      next value retires =>
        split
        · exact .inl (leaves_copying running retires)
        · trivial
      · trivial
    · exact (invariant.phases other).outside (fun same => differs (Option.some.inj (same.symm.trans held)))
        fun _ => ⟨rfl, rfl⟩
  · exact invariant

theorem writeClosed_absent {change : JsVal} (holds : PhaseHolds setting system client (.copying change))
    (absent : system.disk.change.isAbsent = true) (event : WriteEvent) :
    writeClosed setting.runtime change event system.closed = system.closed := by
  rcases holds with active | ⟨_, closed⟩
  · rw [active] at absent
    cases absent
  · cases event <;> simp [writeClosed, closed]

theorem writeClosed_copied {change value : JsVal} (holds : PhaseHolds setting system client (.copying change))
    (promised : PhaseHolds setting system other (.proving value)) (event : WriteEvent) :
    writeClosed setting.runtime change event system.closed = .text (setting.runtime.stringify value) := by
  obtain ⟨closed, active | absent⟩ := promised
  · rcases holds with same | ⟨absent, _⟩
    · have copied := same.symm.trans active
      cases event <;> simp [writeClosed, closed, copied]
    · rw [active] at absent
      cases absent
  · rw [writeClosed_absent holds absent, closed]

theorem CloseInvariant.copy (invariant : CloseInvariant setting system) (event : WriteEvent) :
    CloseInvariant setting (closeNext setting (.copy client event) system) := by
  simp only [closeNext]
  split
  next change phase =>
    have holds : PhaseHolds setting system client (.copying change) := by
      rw [← phase]
      exact invariant.phases client
    refine ⟨⟨invariant.kept.readable, ?_⟩, phases_become ?_ fun other _ => ?_⟩
    · refine invariant.kept.kept.imp id fun ⟨absent, closed⟩ => ⟨absent, ?_⟩
      exact (writeClosed_absent holds absent event).trans closed
    · cases event with
      | replaced =>
        refine ⟨rfl, holds.imp id And.left⟩
      | failed error => trivial
      | replacedThenFailed error => trivial
    · have promised := invariant.phases other
      cases there : system.phase other with
      | idle => trivial
      | waiting call => trivial
      | inside call found rest => rw [there] at promised; exact promised
      | copying value =>
        rw [there] at promised
        refine promised.imp id fun ⟨absent, closed⟩ => ⟨absent, ?_⟩
        exact (writeClosed_absent holds absent event).trans closed
      | proving value =>
        rw [there] at promised
        exact ⟨writeClosed_copied holds promised event, promised.2⟩
      | removing value =>
        rw [there] at promised
        have copied : PhaseHolds setting system other (.proving value) := promised
        exact ⟨writeClosed_copied holds copied event, promised.2⟩
  · exact invariant

theorem CloseInvariant.prove (invariant : CloseInvariant setting system) (fault : Option ReadFault) :
    CloseInvariant setting (closeNext setting (.prove client fault) system) := by
  simp only [closeNext]
  split
  next change phase =>
    have holds : PhaseHolds setting system client (.proving change) := by
      rw [← phase]
      exact invariant.phases client
    refine invariant.phase_only ?_
    split
    · exact holds
    · trivial
  · exact invariant

theorem removes_copied {change : JsVal} (holds : PhaseHolds setting system client (.removing change))
    (present : system.disk.change.isAbsent = false) : system.closed = system.disk.change := by
  rcases holds.2 with active | absent
  · rw [holds.1, active]
  · rw [present] at absent
    cases absent

theorem CloseInvariant.remove (invariant : CloseInvariant setting system) (event : RemovalEvent)
    (free : ∀ change, system.phase client = .removing change → system.holder = none) :
    CloseInvariant setting (closeNext setting (.remove client event) system) := by
  simp only [closeNext]
  split
  next change phase =>
    have holds : PhaseHolds setting system client (.removing change) := by
      rw [← phase]
      exact invariant.phases client
    have outside : ∀ other, system.holder ≠ some other := fun other => by rw [free change phase]; nofun
    by_cases stays : removeChangeDir event system.disk = system.disk
    · rw [stays]
      exact ⟨⟨invariant.kept.readable, invariant.kept.kept⟩, phases_become trivial fun other _ =>
        (invariant.phases other).outside (outside other) fun _ => ⟨rfl, rfl⟩⟩
    · have gone : (removeChangeDir event system.disk).change = .absent := by
        cases event with
        | removed => rfl
        | failed error recordGone => cases recordGone with
          | true => rfl
          | false => exact absurd rfl stays
      have closed : system.closed = system.latest := by
        by_cases absent : system.disk.change.isAbsent = true
        · exact invariant.kept.of_absent absent
        · have present : system.disk.change.isAbsent = false := by simpa using absent
          exact (removes_copied holds present).trans (invariant.kept.of_present present)
      have absent : (removeChangeDir event system.disk).change.isAbsent = true := by rw [gone]; rfl
      refine ⟨⟨invariant.kept.readable, .inr ⟨absent, closed⟩⟩, phases_become trivial fun other _ => ?_⟩
      have promised := invariant.phases other
      cases there : system.phase other with
      | idle => trivial
      | waiting call => trivial
      | inside call found rest =>
        rw [there] at promised
        exact absurd promised.1 (outside other)
      | copying value =>
        rw [there] at promised
        refine .inr ⟨absent, ?_⟩
        rcases promised with active | ⟨_, copied⟩
        · have present : system.disk.change.isAbsent = false := by rw [active]; rfl
          exact (removes_copied holds present).trans active
        · exact copied
      | proving value => rw [there] at promised; exact ⟨promised.1, .inr absent⟩
      | removing value => rw [there] at promised; exact ⟨promised.1, .inr absent⟩
  · exact invariant

theorem CloseInvariant.stop (invariant : CloseInvariant setting system) :
    CloseInvariant setting (closeNext setting (.stop client) system) := by
  refine ⟨⟨invariant.kept.readable, invariant.kept.kept⟩, phases_become trivial fun other differs => ?_⟩
  by_cases held : system.holder = some other
  · have stillHeld : system.holder.filter (· ≠ client) = system.holder := by simp [held, differs]
    refine (invariant.phases other).congr rfl rfl ?_
    exact stillHeld
  · exact (invariant.phases other).outside held fun _ => ⟨rfl, rfl⟩

/-! ## Runs -/

theorem CloseInvariant.step (invariant : CloseInvariant setting system) (move : CloseMove Aux)
    (good : GoodStep setting (recordOf (closeStep setting) move system)) :
    CloseInvariant setting (closeNext setting move system) := by
  cases move with
  | arrive client call => exact invariant.arrive call
  | acquire client => exact invariant.acquire good
  | act client =>
    simp only [closeNext]
    split
    next call found update next phase => exact invariant.act phase (good call found update next phase)
    · exact invariant
  | leave client verified => exact invariant.leave verified
  | copy client event => exact invariant.copy event
  | prove client fault => exact invariant.prove fault
  | remove client event => exact invariant.remove event good
  | stop client => exact invariant.stop

theorem disk_moved (setting : CloseSetting) (move : CloseMove Aux) (system : CloseSystem Aux) :
    (closeNext setting move system).disk = system.disk ∨ (∃ client call found update next, move = .act client ∧
        system.phase client = .inside call found (.act update next) ∧
        (closeNext setting move system).disk = update system.disk) ∨
      ∃ client event change, move = .remove client event ∧ system.phase client = .removing change ∧
        (closeNext setting move system).disk = removeChangeDir event system.disk := by
  cases move with
  | arrive client call =>
    refine .inl ?_
    simp only [closeNext]
    split
    · split <;> rfl
    · rfl
  | acquire client => exact .inl (by simp only [closeNext]; split <;> rfl)
  | act client =>
    simp only [closeNext]
    split
    next call found update next phase => exact .inr (.inl ⟨client, call, found, update, next, rfl, phase, rfl⟩)
    · exact .inl rfl
  | leave client verified => exact .inl (by simp only [closeNext]; split <;> rfl)
  | copy client event => exact .inl (by simp only [closeNext]; split <;> rfl)
  | prove client fault => exact .inl (by simp only [closeNext]; split <;> rfl)
  | remove client event =>
    simp only [closeNext]
    split
    next change phase => exact .inr (.inr ⟨client, event, change, rfl, phase, rfl⟩)
    · exact .inl rfl
  | stop client => exact .inl rfl

theorem CloseInvariant.safe (invariant : CloseInvariant setting system) (move : CloseMove Aux)
    (good : GoodStep setting (recordOf (closeStep setting) move system)) :
    SafeStep setting (recordOf (closeStep setting) move system) where
  before := invariant.kept
  after := (invariant.step move good).kept
  copied := by
    intro present absent
    change system.disk.change.isAbsent = false at present
    change (closeNext setting move system).disk.change.isAbsent = true at absent
    rcases disk_moved setting move system with same | ⟨client, call, found, update, next, rfl, phase, moved⟩ |
      ⟨client, event, change, rfl, phase, _⟩
    · rw [same, present] at absent
      cases absent
    · rw [moved] at absent
      by_cases same : (update system.disk).change = system.disk.change
      · rw [same, present] at absent
        cases absent
      · have written : (update system.disk).change.isAbsent = false :=
          (good call found update next phase same).2.present
        rw [absent] at written
        cases written
    · have holds := invariant.phases client
      rw [phase] at holds
      exact removes_copied holds present
  based := by
    rintro client call found rest rfl phase replaced
    change system.phase client = _ at phase
    obtain ⟨_, rfl, running⟩ : PhaseHolds setting system client (.inside call found rest) := by
      rw [← phase]
      exact invariant.phases client
    refine invariant.kept.of_present ?_
    by_contra missing
    have absent : system.disk.change.isAbsent = true := by simpa using missing
    rcases disk_moved setting (.act client) system with same | ⟨_, call', found', update, next, same, phase', moved⟩ |
      ⟨_, _, _, other, _⟩
    · exact replaced (congrArg Disk.change same)
    · cases same
      cases phase.symm.trans phase'
      have unchanged := (acts_absent absent running).1
      exact replaced (congrArg Disk.change (moved.trans unchanged))
    · cases other

theorem CloseInvariant.rerunnable (invariant : CloseInvariant setting system) : Rerunnable setting system where
  ends := by
    intro input coordinated value revision readback audit idempotent fresh committed
    have present : system.disk.change.isAbsent = false := by
      by_contra missing
      have absent : system.disk.change.isAbsent = true := by simpa using missing
      have refused := (commit_absent setting.runtime (ChangeCall.close input coordinated).commitCall absent).1
      rw [committed] at refused
      cases refused
    rw [← invariant.kept.of_present present]
    exact close_alone (show ChangeCall.Fresh setting.runtime _ system.files.disk.change from fresh) committed
  settled := by
    intro absent input coordinated verified events
    obtain ⟨refused, same⟩ :=
      commit_absent setting.runtime (ChangeCall.close input coordinated).commitCall absent
    have unchanged : ({ system.files with disk := system.disk } : RecordFiles Aux) = system.files := rfl
    simp only [advChangeClose, CloseSystem.files]
    cases answer : (commitChangeProjection setting.runtime (ChangeCall.close input coordinated).commitCall
        system.disk).1 with
    | error error => simp only [same]
    | ok outcome =>
      cases outcome with
      | committed value revision readback audit idempotent => rw [answer] at refused; cases refused
      | _ => simp only [same]

theorem closeInvariant_initial (readable : Readable setting disk.change) (closed : FileState) :
    CloseInvariant setting (CloseSystem.initial disk closed) where
  kept := ⟨readable, .inl rfl⟩
  phases := fun _ => trivial

/-- In every run of good steps each step keeps the record and copies it before it is removed, and
    from every state reached a close can run again. -/
theorem close_keeps_record {moves : List (CloseMove Aux)} {disk : Disk Aux} {closed : FileState}
    (readable : Readable setting disk.change)
    (good : ∀ step ∈ trace (closeStep setting) moves (CloseSystem.initial disk closed), GoodStep setting step) :
    (∀ step ∈ trace (closeStep setting) moves (CloseSystem.initial disk closed),
      SafeStep setting step ∧ Rerunnable setting step.after) ∧
      Kept setting (stateAfter (closeStep setting) moves (CloseSystem.initial disk closed)) ∧
      Rerunnable setting (stateAfter (closeStep setting) moves (CloseSystem.initial disk closed)) := by
  have invariant := trace_guarded (P := CloseInvariant setting) (Q := GoodStep setting)
    (fun move _ good invariant => invariant.step move good) good (closeInvariant_initial readable closed)
  refine ⟨fun step member => ?_, invariant.2.kept, invariant.2.rerunnable⟩
  obtain ⟨before, after⟩ := invariant.1 step member
  have served := trace_step member
  have allowed := good step member
  rw [served] at allowed after ⊢
  exact ⟨before.safe step.request allowed, after.rerunnable⟩

end

/-! ## Fixed runs -/

def plainSetting : CloseSetting := ⟨.permissive, "closed", "addSearch"⟩

def cancelling : CloseInput := ⟨.cancelled, "approved", none, "later"⟩

def closing (operationId : String) : ChangeCall Unit :=
  .close cancelling
    ⟨{ CommitChangeProjectionOptions.applying (settingField "" .undefined) with operationId := some operationId },
      .undisturbed "now"⟩

def retitling : ChangeCall Unit :=
  .mutation ⟨.applying (settingField "title" (.str "Find things")), .undisturbed "now"⟩

def committed (client : Nat) (call : ChangeCall Unit) : List (CloseMove Unit) :=
  [.arrive client call, .acquire client] ++ List.replicate 3 (.act client) ++ [.leave client true]

def retired (client : Nat) : List (CloseMove Unit) :=
  [.copy client .replaced, .prove client none, .remove client .removed]

abbrev closeStart : CloseSystem Unit := .initial freshDisk .absent

abbrev afterCloses (moves : List (CloseMove Unit)) : CloseSystem Unit :=
  stateAfter (closeStep plainSetting) moves closeStart

def readsBack (setting : CloseSetting) (file : FileState) : Bool :=
  match loadChange setting.runtime "" setting.changeId file none with
  | .success (some change) => change.get "id" = .str setting.changeId
  | _ => false

variable {setting : CloseSetting}

theorem readable_of_readsBack {file : FileState} (read : readsBack setting file = true) : Readable setting file := by
  unfold readsBack at read
  split at read
  next change success => exact ⟨change, (loadChange_ok success).2, of_decide_eq_true read⟩
  · cases read

def recordsNothing (setting : CloseSetting) (call : ChangeCall Unit) (file : FileState) : Bool :=
  match readLatest setting.runtime call.commitCall file with
  | .ok latest => (auditEntries latest).isEmpty
  | .error _ => true

def checkedStep (setting : CloseSetting) (client : Nat) (step : CloseRecord Unit) : Bool :=
  match step.request with
  | .acquire other =>
    match step.before.phase other with
    | .waiting call => recordsNothing setting call step.before.disk.change
    | _ => true
  | .act _ => !(step.before.phase client).retires && readsBack setting step.after.disk.change
  | .remove _ _ => step.before.holder.isNone
  | _ => true

theorem good_of_checked {client : Nat} {system : CloseSystem Unit} {move : CloseMove Unit}
    (others : ∀ other ≠ client, system.phase other = .idle)
    (checked : checkedStep setting client (recordOf (closeStep setting) move system) = true) :
    GoodStep setting (recordOf (closeStep setting) move system) := by
  cases move with
  | acquire other =>
    intro call waiting _ latest read entry member
    simp only [checkedStep, recordOf_request, waiting, recordsNothing, read] at checked
    rw [List.isEmpty_iff.mp checked] at member
    cases member
  | act mover =>
    intro call found update next phase _
    simp only [recordOf_before] at phase
    simp only [checkedStep, recordOf_request, recordOf_before, recordOf_after, Bool.and_eq_true, Bool.not_eq_true',
      closeStep, closeNext, phase, acted] at checked
    refine ⟨fun other => ?_, readable_of_readsBack checked.2⟩
    by_cases same : other = client
    · rw [same]
      exact checked.1
    · rw [recordOf_before, others other same]
      rfl
  | remove mover event =>
    intro change _
    simpa only [checkedStep, recordOf_request, recordOf_before, Option.isNone_iff_eq_none] using checked
  | _ => trivial

def CloseMove.client : CloseMove Aux → Nat
  | arrive client _ | acquire client | act client | leave client _ | copy client _ | prove client _
  | remove client _ | stop client => client

theorem closeNext_other (setting : CloseSetting) {move : CloseMove Aux} {other : Nat} (differs : other ≠ move.client)
    (system : CloseSystem Aux) : (closeNext setting move system).phase other = system.phase other := by
  have kept : ∀ phase, (system.become move.client phase).phase other = system.phase other := fun phase =>
    Function.update_of_ne differs _ _
  cases move with
  | arrive client call => simp only [closeNext]; split <;> [split; skip] <;> first | rfl | exact kept _
  | acquire client => simp only [closeNext]; split <;> first | rfl | exact kept _
  | act client => simp only [closeNext]; split <;> first | rfl | exact kept _
  | leave client verified => simp only [closeNext]; split <;> first | rfl | exact kept _
  | copy client event => simp only [closeNext]; split <;> first | rfl | exact kept _
  | prove client fault => simp only [closeNext]; split <;> first | rfl | exact kept _
  | remove client event => simp only [closeNext]; split <;> first | rfl | exact kept _
  | stop client => exact kept _

theorem good_of_all {client : Nat} {moves : List (CloseMove Unit)} {system : CloseSystem Unit}
    (only : ∀ move ∈ moves, move.client = client) (idle : ∀ other ≠ client, system.phase other = .idle)
    (checked : (trace (closeStep setting) moves system).all (checkedStep setting client) = true) :
    ∀ step ∈ trace (closeStep setting) moves system, GoodStep setting step := by
  have alone : (∀ step ∈ trace (closeStep setting) moves system,
      (∀ other ≠ client, step.before.phase other = .idle) ∧ ∀ other ≠ client, step.after.phase other = .idle) ∧
      ∀ other ≠ client, (stateAfter (closeStep setting) moves system).phase other = .idle := by
    refine trace_invariant (P := fun system : CloseSystem Unit => ∀ other ≠ client, system.phase other = .idle) idle ?_
    intro move member system idle other differs
    rw [← idle other differs]
    exact closeNext_other setting (by rw [only move member]; exact differs) system
  intro step member
  have passed := List.all_eq_true.mp checked step member
  rw [trace_step member] at passed ⊢
  exact good_of_checked (alone.1 step member).1 passed

def closedOnce : List (CloseMove Unit) := committed 1 (closing "first") ++ retired 1

theorem close_keeps_record_once : (∀ step ∈ trace (closeStep plainSetting) closedOnce closeStart,
      SafeStep plainSetting step ∧ Rerunnable plainSetting step.after) ∧
      Kept plainSetting (afterCloses closedOnce) ∧ Rerunnable plainSetting (afterCloses closedOnce) := by
  have only : ∀ move ∈ closedOnce, move.client = 1 := by
    refine List.forall_mem_append.mpr ⟨List.forall_mem_append.mpr ⟨List.forall_mem_append.mpr ⟨?_, ?_⟩, ?_⟩, ?_⟩
    · exact List.forall_mem_cons.mpr ⟨rfl, List.forall_mem_singleton.mpr rfl⟩
    · intro move member
      rw [List.eq_of_mem_replicate member]
      rfl
    · exact List.forall_mem_singleton.mpr rfl
    · exact List.forall_mem_cons.mpr ⟨rfl, List.forall_mem_cons.mpr ⟨rfl, List.forall_mem_singleton.mpr rfl⟩⟩
  exact close_keeps_record (readable_of_readsBack (by rfl)) (good_of_all only (fun _ _ => rfl) (by decide +kernel))

def lostMoves : List (CloseMove Unit) := committed 1 (closing "first") ++ committed 2 retitling ++ retired 1

def titleOf (file : FileState) : JsVal := (storedDocument file).get "title"

def lostRun : {system : CloseSystem Unit // titleOf system.latest = .str "Find things" ∧
    titleOf system.closed ≠ .str "Find things" ∧ system.disk.change.isAbsent = true} :=
  ⟨afterCloses lostMoves, by decide +kernel⟩

/-- The close copies what it committed and removes the only record of the mutation. -/
theorem lost_mutation : ¬∀ moves : List (CloseMove Unit), Kept plainSetting (afterCloses moves) := by
  intro kept
  obtain ⟨latest, closed, absent⟩ := lostRun.property
  exact closed ((congrArg titleOf ((kept lostMoves).of_absent absent)).trans latest)

end Advance.Storage
