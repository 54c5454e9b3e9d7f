import Advance.Utils.FileLock

/-! # Mutual exclusion of the lock file

A reclaimer unlinks by path what it judged by content it read earlier, and takes every
error of `process.kill` for a dead process.  Where neither matters, the lock excludes.
-/

namespace Advance.Utils

open Advance.Foundation

variable {Agent Process : Type}

abbrev LockRecord (Agent Process : Type) :=
  Record (LockState Agent Process) (LockEvent Agent Process) (Option LockFile)

/-- The call's process has not crashed. -/
def Live (participants : Participants Agent Process) (state : LockState Agent Process) (agent : Agent) :
    Prop := state.crashed (participants.process agent) = false

/-- A live call that acquired the lock and has not released it. -/
def Holds (participants : Participants Agent Process) (state : LockState Agent Process) (agent : Agent)
    (creation : Nat) : Prop :=
  Live participants state agent ∧ state.phase agent = .holding creation

instance (participants : Participants Agent Process) (state : LockState Agent Process) (agent : Agent)
    (creation : Nat) : Decidable (Holds participants state agent creation) :=
  inferInstanceAs (Decidable (_ = false ∧ _))

/-- After every step at most one call holds the lock, and no step of another call
    removes the file a holder created. -/
def MutuallyExclusive [DecidableEq Agent] [DecidableEq Process]
    (participants : Participants Agent Process) (schedule : List (LockEvent Agent Process))
    (start : LockState Agent Process) : Prop :=
  ∀ step ∈ trace (lockStep participants) schedule start,
    (∀ a b i j, Holds participants step.after a i → Holds participants step.after b j → a = b) ∧
      ∀ file, step.response = some file → ∀ holder, Holds participants step.before holder file.creation →
        ∃ action, step.request = .act holder action

def ReclaimsWhatItRead (participants : Participants Agent Process) (step : LockRecord Agent Process) : Prop :=
  ∀ agent creation file, step.request = .act agent (.unlink false) →
    Live participants step.before agent → step.before.phase agent = .reclaiming creation →
    step.before.file = some file → file.creation = creation

def JudgesTheDead (participants : Participants Agent Process) (step : LockRecord Agent Process) : Prop :=
  ∀ agent now kill creation content, step.request = .act agent (.test now kill) →
    Live participants step.before agent → step.before.phase agent = .testing creation content →
    judgedStale content now kill = true →
    ∀ p, step.before.crashed p = false → lockPid content ≠ some (participants.pid p : Int)

/-! ## The invariant -/

section

variable {participants : Participants Agent Process} {state : LockState Agent Process}

/-- The call created this file and has not let go of it. -/
def Owns (state : LockState Agent Process) (agent : Agent) (creation : Nat) : Prop :=
  state.phase agent = .writing creation ∨ state.phase agent = .holding creation

/-- What the file of a call can contain: nothing yet, or its process id and a time. -/
def OwnText (participants : Participants Agent Process) (agent : Agent) (content : List Char) : Prop :=
  content = [] ∨ ∃ now, content = lockText (participants.pid (participants.process agent)) now

structure LockInvariant (participants : Participants Agent Process) (state : LockState Agent Process) :
    Prop where
  fileOld : ∀ file, state.file = some file → file.creation < state.nextCreation
  ownedOld : ∀ a i, Owns state a i → i < state.nextCreation
  sole : ∀ a b i, Owns state a i → Owns state b i → a = b
  present : ∀ a i, Live participants state a → Owns state a i →
    ∃ content, state.file = some ⟨i, content⟩ ∧ OwnText participants a content
  seen : ∀ reader i content, state.phase reader = .testing i content → i < state.nextCreation ∧
    ∀ a, Live participants state a → Owns state a i → OwnText participants a content
  stale : ∀ reclaimer i, state.phase reclaimer = .reclaiming i → i < state.nextCreation ∧
    ∀ a, Live participants state a → ¬Owns state a i

theorem LockInvariant.crash [DecidableEq Process] (invariant : LockInvariant participants state) (p : Process) :
    LockInvariant participants { state with crashed := Function.update state.crashed p true } := by
  have liveBefore : ∀ {a}, Live participants
      { state with crashed := Function.update state.crashed p true } a → Live participants state a := by
    intro a live
    by_cases same : participants.process a = p
    · simp [Live, same] at live
    · simpa [Live, same] using live
  refine ⟨invariant.fileOld, invariant.ownedOld, invariant.sole, ?_, ?_, ?_⟩
  · intro a i live owns
    exact invariant.present a i (liveBefore live) owns
  · intro reader i content testing
    obtain ⟨old, texts⟩ := invariant.seen reader i content testing
    exact ⟨old, fun a live owns => texts a (liveBefore live) owns⟩
  · intro reclaimer i reclaiming
    obtain ⟨old, unowned⟩ := invariant.stale reclaimer i reclaiming
    exact ⟨old, fun a live owns => unowned a (liveBefore live) owns⟩

theorem LockInvariant.initial (leftOver : Option (List Char)) (crashed : Process → Bool) :
    LockInvariant participants (LockState.initial leftOver crashed : LockState Agent Process) := by
  have unowned : ∀ a i, ¬Owns (LockState.initial leftOver crashed : LockState Agent Process) a i := by
    rintro a i (owns | owns) <;> cases owns
  refine ⟨?_, ?_, ?_, ?_, nofun, nofun⟩
  · intro file found
    obtain ⟨content, _, rfl⟩ := Option.map_eq_some_iff.mp found
    exact Nat.zero_lt_one
  · intro a i owns
    exact absurd owns (unowned a i)
  · intro a b i owns
    exact absurd owns (unowned a i)
  · intro a i _ owns
    exact absurd owns (unowned a i)

variable {agent : Agent} {i : Nat}

theorem LockInvariant.alone_of_owns (invariant : LockInvariant participants state)
    (live : Live participants state agent) (owned : Owns state agent i) :
    ∀ a j, Live participants state a → Owns state a j → a = agent := by
  intro a j aLive owns
  obtain ⟨_, found, _⟩ := invariant.present agent i live owned
  obtain ⟨_, foundToo, _⟩ := invariant.present a j aLive owns
  rw [found] at foundToo
  cases foundToo
  exact invariant.sole a agent i owns owned

theorem LockInvariant.unowned_of_reclaiming (invariant : LockInvariant participants state)
    (reclaiming : state.phase agent = .reclaiming i)
    (untouched : ∀ file, state.file = some file → file.creation = i) :
    ∀ a j, Live participants state a → ¬Owns state a j := by
  intro a j live owns
  obtain ⟨content, found, _⟩ := invariant.present a j live owns
  have same : j = i := untouched _ found
  subst same
  exact (invariant.stale agent j reclaiming).2 a live owns

variable [DecidableEq Agent]

@[simp] theorem goto_file (agent : Agent) (phase : LockPhase) : (state.goto agent phase).file = state.file := rfl

@[simp] theorem goto_nextCreation (agent : Agent) (phase : LockPhase) :
    (state.goto agent phase).nextCreation = state.nextCreation := rfl

@[simp] theorem goto_self (agent : Agent) (phase : LockPhase) : (state.goto agent phase).phase agent = phase := by
  simp [LockState.goto]

theorem goto_other {agent other : Agent} (differs : other ≠ agent) (phase : LockPhase) :
    (state.goto agent phase).phase other = state.phase other := by
  simp [LockState.goto, differs]

variable {phase : LockPhase}

theorem owns_goto {agent other : Agent} : Owns (state.goto agent phase) other i ↔
      (other = agent ∧ (phase = .writing i ∨ phase = .holding i)) ∨ (other ≠ agent ∧ Owns state other i) := by
  by_cases same : other = agent
  · subst same
    simp [Owns]
  · simp [Owns, goto_other same, same]

/-! ## Single steps -/

section

variable (invariant : LockInvariant participants state)
include invariant

theorem LockInvariant.goto (agent : Agent)
    (notWriting : ∀ i, phase ≠ .writing i) (notHolding : ∀ i, phase ≠ .holding i)
    (seen : ∀ i content, phase = .testing i content → i < state.nextCreation ∧
      ∀ a, Live participants state a → Owns state a i → OwnText participants a content)
    (stale : ∀ i, phase = .reclaiming i → i < state.nextCreation ∧
      ∀ a, Live participants state a → ¬Owns state a i) : LockInvariant participants (state.goto agent phase) := by
  have ownedBefore : ∀ {a i}, Owns (state.goto agent phase) a i → Owns state a i := by
    intro a i owns
    rcases owns_goto.mp owns with ⟨_, writing | holding⟩ | ⟨_, before⟩
    · exact absurd writing (notWriting i)
    · exact absurd holding (notHolding i)
    · exact before
  refine ⟨invariant.fileOld, ?_, ?_, ?_, ?_, ?_⟩
  · intro a i owns
    exact invariant.ownedOld a i (ownedBefore owns)
  · intro a b i first second
    exact invariant.sole a b i (ownedBefore first) (ownedBefore second)
  · intro a i live owns
    exact invariant.present a i live (ownedBefore owns)
  · intro reader i content testing
    obtain ⟨old, texts⟩ : i < state.nextCreation ∧
        ∀ a, Live participants state a → Owns state a i → OwnText participants a content := by
      by_cases same : reader = agent
      · subst same
        rw [goto_self] at testing
        exact seen i content testing
      · rw [goto_other same] at testing
        exact invariant.seen reader i content testing
    exact ⟨old, fun a live owns => texts a live (ownedBefore owns)⟩
  · intro reclaimer i reclaiming
    obtain ⟨old, unowned⟩ : i < state.nextCreation ∧ ∀ a, Live participants state a → ¬Owns state a i := by
      by_cases same : reclaimer = agent
      · subst same
        rw [goto_self] at reclaiming
        exact stale i reclaiming
      · rw [goto_other same] at reclaiming
        exact invariant.stale reclaimer i reclaiming
    exact ⟨old, fun a live owns => unowned a live (ownedBefore owns)⟩

theorem LockInvariant.settle (agent : Agent)
    (settled : phase = .attempting ∨ phase = .inspecting ∨ phase = .released ∨ phase = .failed) :
    LockInvariant participants (state.goto agent phase) := by
  rcases settled with rfl | rfl | rfl | rfl <;>
    exact invariant.goto agent nofun nofun nofun nofun

theorem LockInvariant.create (agent : Agent) : LockInvariant participants (createLock agent state) := by
  unfold createLock
  cases found : state.file with
  | some file => exact invariant.settle agent (.inr (.inl rfl))
  | none =>
    have unowned : ∀ a i, Live participants state a → ¬Owns state a i := by
      intro a i live owns
      obtain ⟨content, present, _⟩ := invariant.present a i live owns
      rw [found] at present
      cases present
    -- the new file is younger than everything anybody owns, has read or has judged
    have ownedAfter : ∀ {a i}, Owns (state.goto agent (.writing state.nextCreation)) a i →
        (a = agent ∧ i = state.nextCreation) ∨ (a ≠ agent ∧ Owns state a i ∧ i < state.nextCreation) := by
      intro a i owns
      rcases owns_goto.mp owns with ⟨same, writing | holding⟩ | ⟨differs, before⟩
      · exact .inl ⟨same, (LockPhase.writing.inj writing).symm⟩
      · cases holding
      · exact .inr ⟨differs, before, invariant.ownedOld a i before⟩
    refine ⟨?_, ?_, ?_, ?_, ?_, ?_⟩
    · intro file same
      cases same
      exact Nat.lt_succ_self _
    · intro a i owns
      rcases ownedAfter owns with ⟨_, rfl⟩ | ⟨_, _, old⟩
      · exact Nat.lt_succ_self _
      · exact Nat.lt_succ_of_lt old
    · intro a b i first second
      rcases ownedAfter first with ⟨rfl, rfl⟩ | ⟨_, before, old⟩ <;>
        rcases ownedAfter second with ⟨rfl, new⟩ | ⟨_, before', old'⟩
      · rfl
      · exact absurd old' (Nat.lt_irrefl _)
      · omega
      · exact invariant.sole a b i before before'
    · intro a i live owns
      rcases ownedAfter owns with ⟨rfl, rfl⟩ | ⟨_, before, _⟩
      · exact ⟨[], rfl, .inl rfl⟩
      · exact absurd before (unowned a i live)
    · intro reader i content testing
      have before : state.phase reader = .testing i content := by
        by_cases same : reader = agent
        · subst same
          cases (goto_self reader _).symm.trans testing
        · rw [← goto_other same (.writing state.nextCreation)]
          exact testing
      obtain ⟨old, texts⟩ := invariant.seen reader i content before
      refine ⟨Nat.lt_succ_of_lt old, ?_⟩
      intro a live owns
      rcases ownedAfter owns with ⟨_, rfl⟩ | ⟨_, owned, _⟩
      · exact absurd old (Nat.lt_irrefl _)
      · exact texts a live owned
    · intro reclaimer i reclaiming
      have before : state.phase reclaimer = .reclaiming i := by
        by_cases same : reclaimer = agent
        · subst same
          cases (goto_self reclaimer _).symm.trans reclaiming
        · rw [← goto_other same (.writing state.nextCreation)]
          exact reclaiming
      obtain ⟨old, judged⟩ := invariant.stale reclaimer i before
      refine ⟨Nat.lt_succ_of_lt old, ?_⟩
      intro a live owns
      rcases ownedAfter owns with ⟨_, rfl⟩ | ⟨_, owned, _⟩
      · exact absurd old (Nat.lt_irrefl _)
      · exact judged a live owned

theorem LockInvariant.write
    (live : Live participants state agent) (writing : state.phase agent = .writing i) (now : Nat) :
    LockInvariant participants
      (writeLock agent i (lockText (participants.pid (participants.process agent)) now) state) := by
  obtain ⟨content, found, _⟩ := invariant.present agent i live (.inl writing)
  let text := lockText (participants.pid (participants.process agent)) now
  have written : (writeLock agent i text state).file = some ⟨i, text⟩ := by
    simp [writeLock, found]
  -- nobody owns more or less than before
  have ownedBefore : ∀ {a j}, Owns (writeLock agent i text state) a j → Owns state a j := by
    intro a j owns
    rcases owns_goto.mp owns with ⟨same, other | holding⟩ | ⟨_, before⟩
    · cases other
    · cases holding
      exact same ▸ .inl writing
    · exact before
  have phaseBefore : ∀ {a phase}, phase ≠ .holding i → (writeLock agent i text state).phase a = phase →
      state.phase a = phase := by
    intro a phase differs after
    by_cases same : a = agent
    · subst same
      exact absurd ((goto_self a _).symm.trans after).symm differs
    · rw [← goto_other same (.holding i)]
      exact after
  refine ⟨?_, ?_, ?_, ?_, ?_, ?_⟩
  · intro file same
    rw [written] at same
    cases same
    exact invariant.ownedOld agent i (.inl writing)
  · intro a j owns
    exact invariant.ownedOld a j (ownedBefore owns)
  · intro a b j first second
    exact invariant.sole a b j (ownedBefore first) (ownedBefore second)
  · intro a j aLive owns
    obtain ⟨_, foundToo, _⟩ := invariant.present a j aLive (ownedBefore owns)
    rw [found] at foundToo
    cases foundToo
    have same : a = agent := invariant.sole a agent i (ownedBefore owns) (.inl writing)
    exact ⟨text, written, .inr ⟨now, by rw [same]⟩⟩
  · intro reader j content testing
    obtain ⟨old, texts⟩ := invariant.seen reader j content (phaseBefore nofun testing)
    exact ⟨old, fun a aLive owns => texts a aLive (ownedBefore owns)⟩
  · intro reclaimer j reclaiming
    obtain ⟨old, unowned⟩ := invariant.stale reclaimer j (phaseBefore nofun reclaiming)
    exact ⟨old, fun a aLive owns => unowned a aLive (ownedBefore owns)⟩

theorem LockInvariant.read (agent : Agent) : LockInvariant participants (readLock agent state) := by
  unfold readLock
  cases found : state.file with
  | none => exact invariant.settle agent (.inl rfl)
  | some file =>
    refine invariant.goto agent nofun nofun ?_ nofun
    intro i content testing
    cases testing
    refine ⟨invariant.fileOld file found, ?_⟩
    intro a live owns
    obtain ⟨content, present, own⟩ := invariant.present a file.creation live owns
    rw [found] at present
    rw [Option.some.inj present]
    exact own

theorem LockInvariant.test
    {content : List Char} (testing : state.phase agent = .testing i content) {now : Nat} {kill : KillResult}
    (dead : judgedStale content now kill = true →
      ∀ p, state.crashed p = false → lockPid content ≠ some (participants.pid p : Int)) : LockInvariant participants
      (state.goto agent (if judgedStale content now kill then .reclaiming i else .attempting)) := by
  obtain ⟨old, texts⟩ := invariant.seen agent i content testing
  cases judged : judgedStale content now kill with
  | false => exact invariant.settle agent (.inl rfl)
  | true =>
    refine invariant.goto agent nofun nofun nofun ?_
    intro j reclaiming
    cases reclaiming
    refine ⟨old, ?_⟩
    intro a live owns
    rcases texts a live owns with rfl | ⟨written, rfl⟩
    · simp [judgedStale, lockTimestamp_nil] at judged
    · exact dead judged _ live (lockPid_lockText _ written)

theorem LockInvariant.remove {next : LockPhase} (settled : next = .attempting ∨ next = .released)
    (alone : ∀ a i, Live participants state a → Owns state a i → a = agent) :
    LockInvariant participants (unlinkLock agent next state).2 := by
  have after : LockInvariant participants (state.goto agent next) :=
    invariant.settle agent (settled.elim .inl (.inr ∘ .inr ∘ .inl))
  refine ⟨nofun, after.ownedOld, after.sole, ?_, after.seen, after.stale⟩
  intro a i live owns
  rcases owns_goto.mp owns with ⟨_, writing | holding⟩ | ⟨differs, before⟩
  · rcases settled with rfl | rfl <;> cases writing
  · rcases settled with rfl | rfl <;> cases holding
  · exact absurd (alone a i live before) differs

end

/-! ## Runs -/

theorem agentStep_removed {pid : Nat} {action : LockAction} {file : LockFile}
    (removed : (agentStep pid agent action state).1 = some file) :
    (∃ i, state.phase agent = .reclaiming i ∧ action = .unlink false) ∨
      ∃ i, state.phase agent = .holding i ∧ action = .release false := by
  unfold agentStep at removed
  split at removed
  case h_6 i fault reclaiming =>
    cases fault with
    | true => cases removed
    | false => exact .inl ⟨i, reclaiming, rfl⟩
  case h_7 i fault holding =>
    cases fault with
    | true => cases removed
    | false => exact .inr ⟨i, holding, rfl⟩
  all_goals cases removed

variable [DecidableEq Process]

/-- The step's unlink and its test find what the code takes for granted. -/
def Sound (participants : Participants Agent Process) (step : LockRecord Agent Process) : Prop :=
  ReclaimsWhatItRead participants step ∧ JudgesTheDead participants step

section

variable {event : LockEvent Agent Process} (sound : Sound participants (recordOf (lockStep participants) event state))
  (invariant : LockInvariant participants state)
include event sound invariant

theorem lockStep_invariant : LockInvariant participants (lockStep participants event state).2 := by
  cases event with
  | crash p => exact invariant.crash p
  | act agent action =>
    cases crashed : state.crashed (participants.process agent) with
    | true => simpa only [lockStep, crashed, if_true] using invariant
    | false =>
      have live : Live participants state agent := crashed
      simp only [lockStep, crashed, Bool.false_eq_true, if_false]
      unfold agentStep
      split
      next fault _ =>
        cases fault with
        | true => exact invariant.settle agent (.inr (.inr (.inr rfl)))
        | false => exact invariant.create agent
      next => exact invariant.settle agent (.inr (.inr (.inr rfl)))
      next i now fault writing =>
        cases fault with
        | true => exact invariant.settle agent (.inr (.inr (.inr rfl)))
        | false => exact invariant.write live writing now
      next fault _ =>
        cases fault with
        | true => exact invariant.settle agent (.inl rfl)
        | false => exact invariant.read agent
      next i content now kill testing =>
        exact invariant.test testing (sound.2 agent now kill i content rfl live testing)
      next i fault reclaiming =>
        cases fault with
        | true => exact invariant.settle agent (.inl rfl)
        | false =>
          have unowned := invariant.unowned_of_reclaiming reclaiming
            (fun file => sound.1 agent i file rfl live reclaiming)
          exact invariant.remove (.inl rfl) fun a j aLive owns => absurd owns (unowned a j aLive)
      next i fault holding =>
        cases fault with
        | true => exact invariant.settle agent (.inr (.inr (.inl rfl)))
        | false => exact invariant.remove (.inr rfl) (invariant.alone_of_owns live (.inr holding))
      next => exact invariant

theorem lockStep_spares {file : LockFile}
    (removed : (lockStep participants event state).1 = some file) {holder : Agent}
    (holds : Holds participants state holder file.creation) : ∃ action, event = .act holder action := by
  cases event with
  | crash p => cases removed
  | act agent action =>
    cases crashed : state.crashed (participants.process agent) with
    | true =>
      simp only [lockStep, crashed, if_true] at removed
      cases removed
    | false =>
      have live : Live participants state agent := crashed
      simp only [lockStep, crashed, Bool.false_eq_true, if_false] at removed
      rcases agentStep_removed removed with ⟨i, reclaiming, rfl⟩ | ⟨i, holding, rfl⟩
      · have unowned := invariant.unowned_of_reclaiming reclaiming
          (fun file => sound.1 agent i file rfl live reclaiming)
        exact absurd (.inr holds.2) (unowned holder file.creation holds.1)
      · have same : holder = agent :=
          invariant.alone_of_owns live (.inr holding) holder file.creation holds.1 (.inr holds.2)
        exact ⟨.release false, by rw [same]⟩

end

/-- Mutual exclusion in every run whose steps are all sound, over whatever earlier runs
    left behind. -/
theorem lock_exclusive (participants : Participants Agent Process) (leftOver : Option (List Char))
    (crashed : Process → Bool) (schedule : List (LockEvent Agent Process))
    (sound : ∀ step ∈ trace (lockStep participants) schedule (.initial leftOver crashed),
      Sound participants step) : MutuallyExclusive participants schedule (.initial leftOver crashed) := by
  have around := (trace_guarded (fun _ _ => lockStep_invariant) sound (LockInvariant.initial leftOver crashed)).1
  intro step member
  obtain ⟨before, after⟩ := around step member
  have served := trace_step member
  refine ⟨?_, ?_⟩
  · intro a b i j first second
    exact (after.alone_of_owns second.1 (.inr second.2)) a i first.1 (.inr first.2)
  · intro file removed holder holds
    have soundThere := sound step member
    rw [served] at soundThere removed
    exact lockStep_spares soundThere before removed holds

end

/-! ## Fixed runs

Two calls of two processes, over the lock file of a process 99 that is long dead. -/

def twoProcesses : Participants Bool Bool where
  process := id
  pid := fun first => if first then 11 else 12
  pid_pos := by decide

def overDeadLock : LockState Bool Bool :=
  .initial (some (lockText 99 0)) fun _ => false

def reclaim (agent : Bool) (kill : KillResult) : List (LockEvent Bool Bool) :=
  [.act agent (.create false), .act agent (.read false), .act agent (.test 60000 kill), .act agent (.unlink false)]

def acquire (agent : Bool) (now : Nat) : List (LockEvent Bool Bool) :=
  [.act agent (.create false), .act agent (.write now false)]

theorem lock_exclusive_reclaim :
    MutuallyExclusive twoProcesses (reclaim true .noSuchProcess ++ acquire true 60000) overDeadLock := by
  refine lock_exclusive twoProcesses (some (lockText 99 0)) (fun _ => false) _ ?_
  intro step member
  simp only [reclaim, acquire, List.cons_append, List.nil_append, trace, List.mem_cons,
    List.not_mem_nil, or_false] at member
  rcases member with rfl | rfl | rfl | rfl | rfl | rfl
  · exact ⟨by rintro _ _ _ ⟨⟩, by rintro _ _ _ _ _ ⟨⟩⟩
  · exact ⟨by rintro _ _ _ ⟨⟩, by rintro _ _ _ _ _ ⟨⟩⟩
  · refine ⟨by rintro _ _ _ ⟨⟩, ?_⟩
    intro agent now kill creation content same _ testing _ p _
    cases same
    have read : lockText 99 0 = content := (LockPhase.testing.inj testing).2
    rw [← read, lockPid_lockText]
    revert p
    decide
  · refine ⟨?_, by rintro _ _ _ _ _ ⟨⟩⟩
    intro agent creation file same _ reclaiming found
    cases same
    have judged : 0 = creation := LockPhase.reclaiming.inj reclaiming
    rw [← judged, ← Option.some.inj found]
  · exact ⟨by rintro _ _ _ ⟨⟩, by rintro _ _ _ _ _ ⟨⟩⟩
  · exact ⟨by rintro _ _ _ ⟨⟩, by rintro _ _ _ _ _ ⟨⟩⟩

/-- Both find the dead process's file stale.  The slower unlinks the file the faster one
    has created meanwhile. -/
def twoReclaimers : List (LockEvent Bool Bool) :=
  (reclaim false .noSuchProcess).take 3 ++ reclaim true .noSuchProcess ++ acquire true 60000 ++
    .act false (.unlink false) :: acquire false 60000

theorem two_reclaimers_both_hold : ¬MutuallyExclusive twoProcesses twoReclaimers overDeadLock := by
  intro exclusive
  have final := exclusive ((trace (lockStep twoProcesses) twoReclaimers overDeadLock).get ⟨11, by decide⟩)
    (List.get_mem _ _)
  have same : true = false := final.1 true false 1 2 (by decide) (by decide)
  cases same

end Advance.Utils
