import Advance.Utils.GitWorktreeFlock

/-! # Exclusion and recovery of the worktree lock

The kernel's lock does not look at the record in the file, the exclusive create does not
see the kernel's lock, and a reclaim moves by path what it judged by a record read before.
-/

namespace Advance.Utils.GitWorktreeFlock

open Advance.Foundation

variable {Agent Process : Type}

/-! ## What is claimed -/

abbrev LockStep (Agent Process : Type) :=
  Record (LockDirectory Agent Process) (LockEvent Agent Process) (Option Nat)

/-- The call's process has not crashed. -/
def Live (users : LockUsers Agent Process) (state : LockDirectory Agent Process) (agent : Agent) :
    Prop := state.crashed (users.process agent) = false

/-- The call has returned `owned: true` and the lock was not given back yet. -/
def Phase.owning : Phase → Bool
  | owned _ | leased => true
  | _ => false

def Believes (users : LockUsers Agent Process) (state : LockDirectory Agent Process) (agent : Agent) :
    Prop := Live users state agent ∧ (state.phase agent).owning = true

instance (users : LockUsers Agent Process) (state : LockDirectory Agent Process) (agent : Agent) :
    Decidable (Believes users state agent) :=
  inferInstanceAs (Decidable (_ = false ∧ _ = true))

/-- The file is the lock that the call believes to own. -/
def LockOf (state : LockDirectory Agent Process) (agent : Agent) (inode : Nat) : Prop :=
  state.phase agent = .owned inode ∨ state.phase agent = .leased ∧ ∃ ready, state.holder agent = .locked inode ready

def MutuallyExclusive (users : LockUsers Agent Process) (state : LockDirectory Agent Process) : Prop :=
  ∀ a b, Believes users state a → Believes users state b → a = b

/-- The file that the step takes from the path is not another live owner's lock. -/
def SparesOthers (users : LockUsers Agent Process) (step : LockStep Agent Process) : Prop :=
  ∀ inode, step.response = some inode → ∀ owner, Believes users step.before owner →
    LockOf step.before owner inode → ∃ fault kill, step.request = .advance owner fault kill

/-- A step that a call or its child makes of its own accord, and that goes well. -/
def LockEvent.isOwn : LockEvent Agent Process → Bool
  | advance _ fault _ | hold _ fault => !fault
  | _ => false

section

variable [DecidableEq Agent] [DecidableEq Process]

/-- When nobody owns the lock, every new lease can come to own it. -/
def Recoverable (users : LockUsers Agent Process) (state : LockDirectory Agent Process) : Prop :=
  (∀ agent, ¬ Believes users state agent) → ∀ agent, users.call agent = .lease true → Live users state agent →
      state.phase agent = .idle → state.aborted agent = false →
      ∃ later : List (LockEvent Agent Process), (∀ event ∈ later, event.isOwn = true) ∧
        Believes users (stateAfter (lockStep users) later state) agent

end

/-! ## When it holds -/

/-- The file an acquire has created, until it lets go of it. -/
def Phase.claims : Phase → Option Nat
  | created inode _ | wrote inode _ | owned inode | removing inode => some inode
  | caught own => own
  | _ => none

/-- The file was created by an acquire of a live process which has not let go of it. -/
def Claimed (users : LockUsers Agent Process) (state : LockDirectory Agent Process) (inode : Nat) :
    Prop := ∃ agent, Live users state agent ∧ (state.phase agent).claims = some inode

def Holder.running : Holder → Bool
  | starting | opened _ | locked _ _ => true
  | absent | exited _ _ => false

/-- An event other than the step of a call meets no one who relies on what it takes away, and
    a kernel lock is taken on the file at the path, which no live acquire has created. -/
def SafeEvent (users : LockUsers Agent Process) (event : LockEvent Agent Process)
    (state : LockDirectory Agent Process) : Prop :=
  match event with
  | .hold agent _ => ∀ inode, state.holder agent = .opened inode →
      state.path = some inode ∧ ¬ Claimed users state inode
  | .holderDies agent => Live users state agent → state.phase agent ≠ .awaiting ∧ state.phase agent ≠ .leased
  | .crash process => ∀ agent, users.process agent = process → (state.holder agent).running = false
  | .advance _ _ _ | .abort _ => True

/-- A call's step finds what the code takes for granted: who does not answer `kill` is not
    alive, a reclaim moves the file whose record it read and no child has that locked, and
    the second removal of an aborted acquire finds nothing. -/
def SafeAdvance (users : LockUsers Agent Process) (event : LockEvent Agent Process)
    (state : LockDirectory Agent Process) : Prop :=
  match event with
  | .advance agent _ kill =>
    match state.phase agent with
    | .testing _ existing => isProcessAlive kill = false →
        ∀ process, state.crashed process = false → existing.pid ≠ some (users.pid process)
    | .reclaiming inode _ => ∀ found, state.path = some found → found = inode ∧ state.kernel inode = none
    | .removedOnce => state.path = none
    | _ => True
  | _ => True

def SafeStep (users : LockUsers Agent Process) (step : LockStep Agent Process) : Prop :=
  SafeEvent users step.request step.before ∧ SafeAdvance users step.request step.before

/-! ## The invariant -/

def Phase.leasing : Phase → Bool
  | awaiting | leased | terminating _ => true
  | _ => false

/-- What a phase says of the files and of the call's child. -/
def PhaseSound (users : LockUsers Agent Process) (state : LockDirectory Agent Process) (agent : Agent) : Phase → Prop
  | .created inode _ => state.content inode = none
  | .wrote inode _ | .owned inode | .removing inode =>
    state.content inode = some (users.record agent)
  | .caught (some inode) =>
    state.content inode = none ∨ state.content inode = some (users.record agent)
  | .testing inode existing => inode < state.nextInode ∧ state.content inode = some existing
  | .reclaiming inode existing | .comparing inode existing =>
    inode < state.nextInode ∧ state.content inode = some existing ∧
      ∀ process, state.crashed process = false → existing.pid ≠ some (users.pid process)
  | .restoring _ => False
  | .awaiting => ∀ conflict, state.holder agent ≠ .exited true conflict
  | .leased => ∃ inode, state.holder agent = .locked inode true
  | _ => True

structure LockInvariant (users : LockUsers Agent Process) (state : LockDirectory Agent Process) :
    Prop where
  pathOld : ∀ inode, state.path = some inode → inode < state.nextInode
  contentOld : ∀ inode, state.nextInode ≤ inode → state.content inode = none
  claimsOld : ∀ agent inode, (state.phase agent).claims = some inode → inode < state.nextInode
  sole : ∀ a b inode, (state.phase a).claims = some inode → (state.phase b).claims = some inode → a = b
  present : ∀ agent inode, Live users state agent → (state.phase agent).claims = some inode → state.path = some inode
  sound : ∀ agent, PhaseSound users state agent (state.phase agent)
  kernelHolder : ∀ inode agent, state.kernel inode = some agent ↔ ∃ ready, state.holder agent = .locked inode ready
  kernelPath : ∀ inode agent, state.kernel inode = some agent → state.path = some inode
  unclaimed : ∀ inode agent, state.kernel inode = some agent → ¬ Claimed users state inode
  parents : ∀ agent, (state.holder agent).running = true → Live users state agent ∧ (state.phase agent).leasing = true
  kind : ∀ agent, (state.phase agent).leasing = true → ∃ linux, users.call agent = .lease linux

section

variable {users : LockUsers Agent Process} {state next : LockDirectory Agent Process} {agent : Agent}

theorem record_pid (agent : Agent) : (users.record agent).pid = some (users.pid (users.process agent)) := by
  unfold LockUsers.record
  split <;> rfl

theorem PhaseSound.stable {phase : Phase} (sound : PhaseSound users state agent phase)
    (grown : state.nextInode ≤ next.nextInode)
    (content : ∀ inode, state.content inode ≠ none ∨ phase.claims = some inode →
      next.content inode = state.content inode)
    (dies : ∀ process, next.crashed process = false → state.crashed process = false)
    (holder : phase = .awaiting ∨ phase = .leased → next.holder agent = state.holder agent) :
    PhaseSound users next agent phase := by
  have kept : ∀ {inode existing}, state.content inode = some existing → next.content inode = some existing := by
    intro inode existing found
    rw [content inode (.inl (by rw [found]; nofun)), found]
  cases phase with
  | created inode again => exact (content inode (.inr rfl)).trans sound
  | wrote inode again => exact kept sound
  | owned inode => exact kept sound
  | removing inode => exact kept sound
  | caught own =>
    cases own with
    | none => trivial
    | some inode =>
      have same := content inode (.inr rfl)
      exact sound.imp same.trans same.trans
  | testing inode existing => exact ⟨sound.1.trans_le grown, kept sound.2⟩
  | reclaiming inode existing =>
    exact ⟨sound.1.trans_le grown, kept sound.2.1, fun process live => sound.2.2 process (dies process live)⟩
  | comparing inode existing =>
    exact ⟨sound.1.trans_le grown, kept sound.2.1, fun process live => sound.2.2 process (dies process live)⟩
  | restoring moved => exact sound
  | awaiting =>
    intro conflict exited
    exact sound conflict ((holder (.inl rfl)).symm.trans exited)
  | leased =>
    obtain ⟨inode, locked⟩ := sound
    exact ⟨inode, (holder (.inr rfl)).trans locked⟩
  | idle | opening | removedOnce | recreating | rereading | terminating | released | refused | failed =>
    trivial

variable {inode : Nat}

theorem notLeasing_of_claims {phase : Phase} (claimed : phase.claims = some inode) : phase.leasing = false := by
  cases phase <;> first | rfl | cases claimed

theorem killHolder_running [DecidableEq Agent] (state : LockDirectory Agent Process) (agent : Agent) :
    ((state.killHolder agent).holder agent).running = false := by
  unfold LockDirectory.killHolder
  split
  · simp only [Function.update_self, Holder.running]
  · simp only [Function.update_self, Holder.running]
  · simp only [Function.update_self, Holder.running]
  next absent => simp only [absent, Holder.running]
  next exited => simp only [exited, Holder.running]

theorem killHolder_exited [DecidableEq Agent] (exited : (state.holder agent).running = false) :
    state.killHolder agent = state := by
  unfold LockDirectory.killHolder
  split
  next starting => simp only [starting, Holder.running, reduceCtorEq] at exited
  next opened => simp only [opened, Holder.running, reduceCtorEq] at exited
  next locked => simp only [locked, Holder.running, reduceCtorEq] at exited
  · rfl
  · rfl

namespace LockInvariant

variable {inode : Nat}

theorem alone (invariant : LockInvariant users state) (live : Live users state agent)
    (claimed : (state.phase agent).claims = some inode) {other : Agent} {file : Nat}
    (otherLive : Live users state other) (otherClaims : (state.phase other).claims = some file) : other = agent := by
  have here := invariant.present agent inode live claimed
  have there := invariant.present other file otherLive otherClaims
  cases here.symm.trans there
  exact invariant.sole other agent inode otherClaims claimed

theorem unlocked (invariant : LockInvariant users state) (live : Live users state agent)
    (claimed : (state.phase agent).claims = some inode) (file : Nat) : state.kernel file = none := by
  by_contra locked
  obtain ⟨holder, locked⟩ := Option.ne_none_iff_exists'.mp locked
  have here := invariant.present agent inode live claimed
  cases here.symm.trans (invariant.kernelPath file holder locked)
  exact invariant.unclaimed inode holder locked ⟨agent, live, claimed⟩

theorem unclaimed_of_absent (invariant : LockInvariant users state) (absent : state.path = none)
    (inode : Nat) : ¬ Claimed users state inode := by
  rintro ⟨agent, live, claimed⟩
  cases absent.symm.trans (invariant.present agent inode live claimed)

theorem unlocked_of_absent (invariant : LockInvariant users state) (absent : state.path = none)
    (inode : Nat) : state.kernel inode = none := by
  by_contra locked
  obtain ⟨holder, locked⟩ := Option.ne_none_iff_exists'.mp locked
  cases absent.symm.trans (invariant.kernelPath inode holder locked)

variable [DecidableEq Agent]

variable {phase : Phase}

theorem goto (invariant : LockInvariant users state)
    (claims : ∀ inode, phase.claims = some inode → state.path = some inode ∧
      state.kernel inode = none ∧ ∀ other, other ≠ agent → (state.phase other).claims ≠ some inode)
    (sound : PhaseSound users state agent phase)
    (leasing : (state.holder agent).running = true → phase.leasing = true)
    (kind : phase.leasing = true → ∃ linux, users.call agent = .lease linux) :
    LockInvariant users (state.goto agent phase) := by
  have here := state.goto_self agent phase
  have there : ∀ {other}, other ≠ agent → (state.goto agent phase).phase other = state.phase other :=
    fun differs => state.goto_other differs phase
  -- Who claims a file did so before, or is the call that moves on.
  have claimant : ∀ {other inode}, ((state.goto agent phase).phase other).claims = some inode →
      (other = agent ∧ phase.claims = some inode) ∨ (other ≠ agent ∧ (state.phase other).claims = some inode) := by
    intro other inode claimed
    by_cases same : other = agent
    · subst same
      rw [here] at claimed
      exact .inl ⟨rfl, claimed⟩
    · rw [there same] at claimed
      exact .inr ⟨same, claimed⟩
  refine ⟨invariant.pathOld, invariant.contentOld, ?_, ?_, ?_, ?_, invariant.kernelHolder,
    invariant.kernelPath, ?_, ?_, ?_⟩
  · intro other inode claimed
    rcases claimant claimed with ⟨_, claimed⟩ | ⟨_, claimed⟩
    · exact invariant.pathOld inode (claims inode claimed).1
    · exact invariant.claimsOld other inode claimed
  · intro a b inode first second
    rcases claimant first with ⟨same, moved⟩ | ⟨differs, stayed⟩ <;>
      rcases claimant second with ⟨same', moved'⟩ | ⟨differs', stayed'⟩
    · exact same.trans same'.symm
    · exact absurd stayed' ((claims inode moved).2.2 b differs')
    · exact absurd stayed ((claims inode moved').2.2 a differs)
    · exact invariant.sole a b inode stayed stayed'
  · intro other inode live claimed
    rcases claimant claimed with ⟨_, claimed⟩ | ⟨_, claimed⟩
    · exact (claims inode claimed).1
    · exact invariant.present other inode live claimed
  · intro other
    by_cases same : other = agent
    · subst same
      rw [here]
      exact sound.stable le_rfl (fun _ _ => rfl) (fun _ alive => alive) fun _ => rfl
    · rw [there same]
      exact (invariant.sound other).stable le_rfl (fun _ _ => rfl) (fun _ alive => alive) fun _ => rfl
  · rintro inode holder locked ⟨other, live, claimed⟩
    rcases claimant claimed with ⟨_, claimed⟩ | ⟨_, claimed⟩
    · cases locked.symm.trans (claims inode claimed).2.1
    · exact invariant.unclaimed inode holder locked ⟨other, live, claimed⟩
  · intro other running
    obtain ⟨live, parent⟩ := invariant.parents other running
    refine ⟨live, ?_⟩
    by_cases same : other = agent
    · subst same
      rw [here]
      exact leasing running
    · rw [there same]
      exact parent
  · intro other leases
    by_cases same : other = agent
    · subst same
      rw [here] at leases
      exact kind leases
    · rw [there same] at leases
      exact invariant.kind other leases

theorem settle (invariant : LockInvariant users state) (unclaiming : phase.claims = none)
    (sound : PhaseSound users state agent phase)
    (leasing : (state.holder agent).running = true → phase.leasing = true)
    (kind : phase.leasing = true → ∃ linux, users.call agent = .lease linux) :
    LockInvariant users (state.goto agent phase) := by
  refine invariant.goto (fun inode claimed => ?_) sound leasing kind
  cases unclaiming.symm.trans claimed

theorem keep (invariant : LockInvariant users state) (live : Live users state agent)
    (claimed : (state.phase agent).claims = some inode)
    (keeps : phase.claims = some inode) (sound : PhaseSound users state agent phase) :
    LockInvariant users (state.goto agent phase) := by
  refine invariant.goto (fun file claims => ?_) sound (fun running => ?_) fun leasing => ?_
  · cases keeps.symm.trans claims
    refine ⟨invariant.present agent inode live claimed, invariant.unlocked live claimed inode, ?_⟩
    intro other differs again
    exact differs (invariant.sole other agent inode again claimed)
  · cases (notLeasing_of_claims claimed).symm.trans (invariant.parents agent running).2
  · cases (notLeasing_of_claims keeps).symm.trans leasing

omit [DecidableEq Agent] in
theorem create_content (invariant : LockInvariant users state) (inode : Nat) :
    state.create.content inode = state.content inode := by
  by_cases same : inode = state.nextInode
  · subst same
    exact (Function.update_self ..).trans (invariant.contentOld _ le_rfl).symm
  · exact Function.update_of_ne same ..

omit [DecidableEq Agent] in
theorem create (invariant : LockInvariant users state) (absent : state.path = none) :
    LockInvariant users state.create where
  contentOld := fun inode young =>
    (invariant.create_content inode).trans (invariant.contentOld inode (Nat.le_of_succ_le young))
  pathOld := fun _ same => Option.some.inj same ▸ Nat.lt_succ_self _
  claimsOld := fun agent inode claimed => Nat.lt_succ_of_lt (invariant.claimsOld agent inode claimed)
  sole := invariant.sole
  present := by
    intro agent inode live claimed
    exact absurd ⟨agent, live, claimed⟩ (invariant.unclaimed_of_absent absent inode)
  sound := fun agent => (invariant.sound agent).stable (Nat.le_succ _)
    (fun inode _ => invariant.create_content inode) (fun _ alive => alive) fun _ => rfl
  kernelHolder := invariant.kernelHolder
  kernelPath := by
    intro inode holder locked
    cases (invariant.unlocked_of_absent absent inode).symm.trans locked
  unclaimed := fun inode holder locked => invariant.unclaimed inode holder locked
  parents := invariant.parents
  kind := invariant.kind

omit [DecidableEq Agent] in
theorem vacate (invariant : LockInvariant users state) (unclaimed : ∀ inode, ¬ Claimed users state inode)
    (unlocked : ∀ inode, state.kernel inode = none) : LockInvariant users { state with path := none } where
  pathOld := nofun
  contentOld := invariant.contentOld
  claimsOld := invariant.claimsOld
  sole := invariant.sole
  present := fun agent inode live claimed => absurd ⟨agent, live, claimed⟩ (unclaimed inode)
  sound := fun agent =>
    (invariant.sound agent).stable le_rfl (fun _ _ => rfl) (fun _ alive => alive) fun _ => rfl
  kernelHolder := invariant.kernelHolder
  kernelPath := fun inode holder locked => by cases (unlocked inode).symm.trans locked
  unclaimed := fun inode holder locked => invariant.unclaimed inode holder locked
  parents := invariant.parents
  kind := invariant.kind

omit [DecidableEq Agent] in
theorem write (invariant : LockInvariant users state) {inode : Nat} (old : inode < state.nextInode)
    (empty : state.content inode = none) (unclaimed : ∀ agent, (state.phase agent).claims ≠ some inode)
    (record : LockRecord) : LockInvariant users { state with
      content := Function.update state.content inode (some record) } where
  pathOld := invariant.pathOld
  contentOld := by
    intro file young
    refine (Function.update_of_ne ?_ ..).trans (invariant.contentOld file young)
    rintro rfl
    exact absurd old (Nat.not_lt.mpr young)
  claimsOld := invariant.claimsOld
  sole := invariant.sole
  present := invariant.present
  sound := by
    intro agent
    refine (invariant.sound agent).stable le_rfl ?_ (fun _ alive => alive) fun _ => rfl
    intro file kept
    refine Function.update_of_ne ?_ ..
    rintro rfl
    rcases kept with full | claimed
    · exact full empty
    · exact unclaimed agent claimed
  kernelHolder := invariant.kernelHolder
  kernelPath := invariant.kernelPath
  unclaimed := invariant.unclaimed
  parents := invariant.parents
  kind := invariant.kind

omit [DecidableEq Agent] in
theorem abort (invariant : LockInvariant users state) (aborted : Agent → Bool) :
    LockInvariant users { state with aborted := aborted } where
  pathOld := invariant.pathOld
  contentOld := invariant.contentOld
  claimsOld := invariant.claimsOld
  sole := invariant.sole
  present := invariant.present
  sound := fun agent =>
    (invariant.sound agent).stable le_rfl (fun _ _ => rfl) (fun _ alive => alive) fun _ => rfl
  kernelHolder := invariant.kernelHolder
  kernelPath := invariant.kernelPath
  unclaimed := invariant.unclaimed
  parents := invariant.parents
  kind := invariant.kind

omit [DecidableEq Agent] in
theorem crash [DecidableEq Process] (invariant : LockInvariant users state) {process : Process}
    (childless : ∀ agent, users.process agent = process → (state.holder agent).running = false) :
    LockInvariant users { state with crashed := Function.update state.crashed process true } := by
  have before : ∀ p, Function.update state.crashed process true p = false → state.crashed p = false := by
    intro p alive
    by_cases same : p = process
    · subst same
      cases (Function.update_self ..).symm.trans alive
    · rwa [Function.update_of_ne same] at alive
  have claimed : ∀ {inode}, Claimed users { state with crashed := Function.update state.crashed process true } inode →
      Claimed users state inode :=
    fun ⟨agent, live, claims⟩ => ⟨agent, before _ live, claims⟩
  refine ⟨invariant.pathOld, invariant.contentOld, invariant.claimsOld, invariant.sole, ?_, ?_,
    invariant.kernelHolder, invariant.kernelPath, ?_, ?_, invariant.kind⟩
  · exact fun agent inode live claims => invariant.present agent inode (before _ live) claims
  · exact fun agent => (invariant.sound agent).stable le_rfl (fun _ _ => rfl) before fun _ => rfl
  · exact fun inode holder locked claims => invariant.unclaimed inode holder locked (claimed claims)
  · intro agent running
    obtain ⟨live, leasing⟩ := invariant.parents agent running
    refine ⟨?_, leasing⟩
    show Function.update state.crashed process true (users.process agent) = false
    rw [Function.update_of_ne]
    · exact live
    · intro same
      cases (childless agent same).symm.trans running

/-! ## Children -/

theorem rehold (invariant : LockInvariant users state) {holder : Holder} {kernel : Nat → Option Agent}
    (others : ∀ inode other, other ≠ agent → (kernel inode = some other ↔ state.kernel inode = some other))
    (own : ∀ inode, kernel inode = some agent ↔ ∃ ready, holder = .locked inode ready)
    (place : ∀ inode ready, holder = .locked inode ready → state.path = some inode ∧ ¬ Claimed users state inode)
    (parent : holder.running = true → Live users state agent ∧ (state.phase agent).leasing = true)
    (awaiting : state.phase agent = .awaiting → ∀ conflict, holder ≠ .exited true conflict)
    (leased : state.phase agent = .leased → ∃ inode, holder = .locked inode true) : LockInvariant users
      { state with holder := Function.update state.holder agent holder, kernel := kernel } := by
  have there : ∀ {other}, other ≠ agent → Function.update state.holder agent holder other = state.holder other :=
    fun differs => Function.update_of_ne differs ..
  -- A lock is the child's own, or was there before.
  have lock : ∀ {inode other}, kernel inode = some other →
      (∃ ready, holder = .locked inode ready) ∨ state.kernel inode = some other := by
    intro inode other locked
    by_cases same : other = agent
    · subst same
      exact .inl ((own inode).mp locked)
    · exact .inr ((others inode other same).mp locked)
  refine ⟨invariant.pathOld, invariant.contentOld, invariant.claimsOld, invariant.sole,
    invariant.present, ?_, ?_, ?_, ?_, ?_, invariant.kind⟩
  · intro other
    by_cases same : other = agent
    · subst same
      have here : Function.update state.holder other holder other = holder := Function.update_self ..
      by_cases waits : state.phase other = .awaiting
      · show PhaseSound users _ other (state.phase other)
        rw [waits]
        exact fun conflict exited => awaiting waits conflict (here.symm.trans exited)
      by_cases leases : state.phase other = .leased
      · show PhaseSound users _ other (state.phase other)
        rw [leases]
        obtain ⟨inode, locked⟩ := leased leases
        exact ⟨inode, here.trans locked⟩
      · refine (invariant.sound other).stable le_rfl (fun _ _ => rfl) (fun _ alive => alive) ?_
        exact fun relies => relies.elim (absurd · waits) (absurd · leases)
    · exact (invariant.sound other).stable le_rfl (fun _ _ => rfl) (fun _ alive => alive)
        fun _ => there same
  · intro inode other
    by_cases same : other = agent
    · subst same
      rw [own inode]
      simp only [Function.update_self]
    · rw [others inode other same, invariant.kernelHolder]
      simp only [there same]
  · intro inode other locked
    rcases lock locked with ⟨ready, isLocked⟩ | before
    · exact (place inode ready isLocked).1
    · exact invariant.kernelPath inode other before
  · intro inode other locked
    rcases lock locked with ⟨ready, isLocked⟩ | before
    · exact (place inode ready isLocked).2
    · exact invariant.unclaimed inode other before
  · intro other running
    by_cases same : other = agent
    · subst same
      exact parent ((congrArg Holder.running (Function.update_self ..)).symm.trans running)
    · exact invariant.parents other ((congrArg Holder.running (there same)).symm.trans running)

theorem become (invariant : LockInvariant users state) {holder : Holder}
    (unlocked : ∀ inode ready, holder ≠ .locked inode ready)
    (before : ∀ inode ready, state.holder agent ≠ .locked inode ready)
    (parent : holder.running = true → Live users state agent ∧ (state.phase agent).leasing = true)
    (awaiting : ∀ conflict, holder ≠ .exited true conflict) :
    LockInvariant users { state with holder := Function.update state.holder agent holder } := by
  refine invariant.rehold (fun _ _ _ => Iff.rfl) (fun inode => ?_)
    (fun inode ready locked => absurd locked (unlocked inode ready)) parent (fun _ => awaiting) fun leased => ?_
  · rw [invariant.kernelHolder]
    exact iff_of_false (fun ⟨ready, locked⟩ => before inode ready locked)
      fun ⟨ready, locked⟩ => unlocked inode ready locked
  · have sound := invariant.sound agent
    rw [leased] at sound
    obtain ⟨inode, locked⟩ := sound
    exact absurd locked (before inode true)

theorem killHolder (invariant : LockInvariant users state)
    (unready : state.phase agent = .awaiting → ∀ inode, state.holder agent ≠ .locked inode true)
    (unleased : state.phase agent ≠ .leased) : LockInvariant users (state.killHolder agent) := by
  unfold LockDirectory.killHolder
  split
  next starting =>
    exact invariant.become nofun (by rw [starting]; nofun) nofun nofun
  next inode opened =>
    exact invariant.become nofun (by rw [opened]; nofun) nofun nofun
  next inode ready locked =>
    have own := (invariant.kernelHolder inode agent).mpr ⟨ready, locked⟩
    refine invariant.rehold (fun file other differs => ?_) (fun file => ?_) nofun nofun
      (fun awaiting conflict exited => ?_) fun leased => absurd leased unleased
    · by_cases same : file = inode
      · subst same
        rw [Function.update_self, own]
        exact iff_of_false nofun fun again => differs (Option.some.inj again).symm
      · rw [Function.update_of_ne same]
    · refine iff_of_false (fun kept => ?_) nofun
      by_cases same : file = inode
      · subst same
        rw [Function.update_self] at kept
        cases kept
      · rw [Function.update_of_ne same, invariant.kernelHolder] at kept
        obtain ⟨other, again⟩ := kept
        cases locked.symm.trans again
        exact same rfl
    · cases exited
      exact unready awaiting inode locked
  next => exact invariant
  next => exact invariant

variable {fault : Bool}

theorem holdStep (invariant : LockInvariant users state) (safe : ∀ inode, state.holder agent = .opened inode →
      state.path = some inode ∧ ¬ Claimed users state inode) : LockInvariant users (holdStep agent fault state) := by
  have leasedReady : state.phase agent = .leased → ∃ inode, state.holder agent = .locked inode true := by
    intro leased
    have sound := invariant.sound agent
    rw [leased] at sound
    exact sound
  have parents := invariant.parents agent
  -- A child that is not ready yet may exit.
  have exits : (∀ inode, state.holder agent ≠ .locked inode true) → LockInvariant users (state.killHolder agent) := by
    intro unready
    refine invariant.killHolder (fun _ => unready) fun leased => ?_
    obtain ⟨inode, locked⟩ := leasedReady leased
    exact unready inode locked
  unfold GitWorktreeFlock.holdStep
  split
  next starting =>
    rw [starting] at parents
    split
    next => exact exits (by rw [starting]; nofun)
    next =>
      split
      next => exact invariant.become nofun (by rw [starting]; nofun) (fun _ => parents rfl) nofun
      next absent =>
        exact (invariant.create absent).become nofun (by rw [LockDirectory.create, starting]; nofun)
          (fun _ => parents rfl) nofun
  next inode opened =>
    rw [opened] at parents
    split
    next => exact exits (by rw [opened]; nofun)
    next =>
      split
      next => exact invariant.become nofun (by rw [opened]; nofun) nofun nofun
      next free =>
        obtain ⟨place, unclaimed⟩ := safe inode opened
        refine invariant.rehold (fun file other differs => ?_) (fun file => ?_)
          (fun file ready locked => ?_) (fun _ => parents rfl) (fun _ => nofun) fun leased => ?_
        · by_cases same : file = inode
          · subst same
            rw [Function.update_self, free]
            exact iff_of_false (fun again => differs (Option.some.inj again).symm) nofun
          · rw [Function.update_of_ne same]
        · by_cases same : file = inode
          · subst same
            rw [Function.update_self]
            exact iff_of_true rfl ⟨false, rfl⟩
          · rw [Function.update_of_ne same, invariant.kernelHolder, opened]
            exact iff_of_false nofun fun ⟨ready, locked⟩ => same (Holder.locked.inj locked).1.symm
        · cases locked
          exact ⟨place, unclaimed⟩
        · obtain ⟨file, locked⟩ := leasedReady leased
          cases opened.symm.trans locked
  next inode locked =>
    rw [locked] at parents
    have own := (invariant.kernelHolder inode agent).mpr ⟨false, locked⟩
    split
    next => exact exits (by rw [locked]; nofun)
    next =>
      refine invariant.rehold (fun _ _ _ => Iff.rfl) (fun file => ?_) (fun file ready same => ?_)
        (fun _ => parents rfl) (fun _ => nofun) fun _ => ⟨inode, rfl⟩
      · rw [invariant.kernelHolder, locked]
        exact ⟨fun ⟨_, same⟩ => ⟨true, by cases same; rfl⟩, fun ⟨_, same⟩ => ⟨false, by cases same; rfl⟩⟩
      · cases same
        exact ⟨invariant.kernelPath inode agent own, invariant.unclaimed inode agent own⟩
  next => exact invariant
  next => exact invariant
  next => exact invariant

/-! ## Calls -/

theorem unlink (invariant : LockInvariant users state) (unclaiming : phase.claims = none)
    (notLease : phase.leasing = false) (sound : PhaseSound users state agent phase)
    (unleasing : (state.phase agent).leasing = false)
    (others : ∀ other, other ≠ agent → Live users state other → (state.phase other).claims = none)
    (unlocked : ∀ inode, state.kernel inode = none) : LockInvariant users (state.unlink agent phase).2 := by
  have moved : LockInvariant users (state.goto agent phase) := by
    refine invariant.settle unclaiming sound (fun running => ?_) fun leasing => ?_
    · cases unleasing.symm.trans (invariant.parents agent running).2
    · cases notLease.symm.trans leasing
  refine moved.vacate ?_ unlocked
  rintro inode ⟨other, live, claimed : ((state.goto agent phase).phase other).claims = some inode⟩
  by_cases same : other = agent
  · subst same
    rw [LockDirectory.goto_self, unclaiming] at claimed
    cases claimed
  · rw [LockDirectory.goto_other state same, others other same live] at claimed
    cases claimed

theorem unlinkOwn (invariant : LockInvariant users state) (live : Live users state agent)
    (claimed : (state.phase agent).claims = some inode) (unclaiming : phase.claims = none)
    (notLease : phase.leasing = false) (sound : PhaseSound users state agent phase) :
    LockInvariant users (state.unlink agent phase).2 := by
  refine invariant.unlink unclaiming notLease sound (notLeasing_of_claims claimed) ?_
    (invariant.unlocked live claimed)
  intro other differs otherLive
  by_contra claims
  obtain ⟨file, claims⟩ := Option.ne_none_iff_exists'.mp claims
  exact differs (invariant.alone live claimed otherLive claims)

omit [DecidableEq Agent] in
theorem unclaimed_of_dead (invariant : LockInvariant users state) {inode : Nat} {existing : LockRecord}
    (content : state.content inode = some existing)
    (dead : ∀ process, state.crashed process = false → existing.pid ≠ some (users.pid process)) :
    ¬ Claimed users state inode := by
  rintro ⟨owner, live, claimed⟩
  have sound := invariant.sound owner
  have written : state.content inode = none ∨ state.content inode = some (users.record owner) := by
    cases reached : state.phase owner <;> rw [reached] at claimed sound <;> cases claimed
    case created => exact .inl sound
    case caught => exact sound
    all_goals exact .inr sound
  rcases written with empty | full
  · cases content.symm.trans empty
  · cases content.symm.trans full
    exact dead _ live (record_pid owner)

theorem createOwn (invariant : LockInvariant users state) (absent : state.path = none) {again : Bool}
    (unleasing : (state.phase agent).leasing = false) :
    LockInvariant users (state.create.goto agent (.created state.nextInode again)) := by
  refine (invariant.create absent).goto (fun inode claimed => ?_) ?_ (fun running => ?_) nofun
  · obtain rfl := Option.some.inj claimed
    refine ⟨rfl, invariant.unlocked_of_absent absent _, fun other _ claims => ?_⟩
    exact absurd (invariant.claimsOld other _ claims) (Nat.lt_irrefl _)
  · exact Function.update_self ..
  · cases unleasing.symm.trans (invariant.parents agent running).2

theorem writeOwn (invariant : LockInvariant users state) (live : Live users state agent)
    {again : Bool} (created : state.phase agent = .created inode again) :
    LockInvariant users { state.goto agent (.wrote inode again) with
      content := Function.update state.content inode (some (users.record agent)) } := by
  have claimed := congrArg Phase.claims created
  have empty : state.content inode = none := by
    have sound := invariant.sound agent
    rw [created] at sound
    exact sound
  -- The call lets go of the file, writes and claims it again.
  have aside : LockInvariant users (state.goto agent .failed) := by
    refine invariant.settle rfl trivial (fun running => ?_) nofun
    cases (notLeasing_of_claims claimed).symm.trans (invariant.parents agent running).2
  have others : ∀ other, ((state.goto agent .failed).phase other).claims ≠ some inode := by
    intro other claims
    by_cases same : other = agent
    · subst same
      rw [LockDirectory.goto_self] at claims
      cases claims
    · rw [LockDirectory.goto_other state same] at claims
      exact same (invariant.sole other agent inode claims claimed)
  have written := aside.write (invariant.claimsOld agent inode claimed) empty others (users.record agent)
  have back := @LockInvariant.goto _ _ users _ agent _ (.wrote inode again) written (fun file same => ?_)
    (Function.update_self ..) (fun running => ?_) nofun
  · simpa only [LockDirectory.goto, Function.update_idem] using back
  · obtain rfl := Option.some.inj same
    exact ⟨invariant.present agent _ live claimed, invariant.unlocked live claimed _,
      fun other _ => others other⟩
  · cases (notLeasing_of_claims claimed).symm.trans (invariant.parents agent running).2

theorem flockStep (invariant : LockInvariant users state) (live : Live users state agent)
    {kill : KillResult} (safe : SafeAdvance users (.advance agent fault kill) state) :
    LockInvariant users (flockStep (users.record agent) agent fault kill state).2 := by
  have sound := invariant.sound agent
  simp only [SafeAdvance] at safe
  -- A call whose phase is none of a lease's moves on.
  have settle : ∀ {phase : Phase}, phase.claims = none → phase.leasing = false →
      PhaseSound users state agent phase → (state.phase agent).leasing = false →
      LockInvariant users (state.goto agent phase) := by
    intro phase unclaiming notLease sound unleasing
    refine invariant.settle unclaiming sound (fun running => ?_) fun leasing => ?_
    · cases unleasing.symm.trans (invariant.parents agent running).2
    · cases notLease.symm.trans leasing
  have refuses : ∀ existing, (state.phase agent).leasing = false →
      LockInvariant users (state.goto agent (refuse existing)) :=
    fun existing unleasing => settle rfl rfl trivial unleasing
  unfold GitWorktreeFlock.flockStep
  simp only
  split
  next idle =>
    have unleasing := congrArg Phase.leasing idle
    split
    · exact settle rfl rfl trivial unleasing
    · exact settle rfl rfl trivial unleasing
  next opening =>
    have unleasing := congrArg Phase.leasing opening
    split
    · exact settle rfl rfl trivial unleasing
    next absent =>
      simp only [Bool.or_eq_true, not_or, Option.not_isSome_iff_eq_none] at absent
      exact invariant.createOwn absent.2 unleasing
  next inode again created =>
    have claimed := congrArg Phase.claims created
    have unleasing := notLeasing_of_claims claimed
    rw [created] at sound
    split
    · cases again with
      | true => exact settle rfl rfl trivial unleasing
      | false => exact invariant.keep live claimed rfl (.inl sound)
    · exact invariant.writeOwn live created
  next inode again wrote =>
    have claimed := congrArg Phase.claims wrote
    have unleasing := notLeasing_of_claims claimed
    rw [wrote] at sound
    split
    · cases again with
      | true => exact settle rfl rfl trivial unleasing
      | false => exact invariant.keep live claimed rfl (.inr sound)
    split
    · cases again with
      | true => exact invariant.unlinkOwn live claimed rfl rfl trivial
      | false => exact invariant.unlinkOwn live claimed rfl rfl trivial
    · exact invariant.keep live claimed rfl sound
  next own caught =>
    have unleasing := congrArg Phase.leasing caught
    split
    · cases own with
      | none => exact settle rfl rfl trivial unleasing
      | some inode =>
        have claimed := congrArg Phase.claims caught
        simp only
        split
        · exact settle rfl rfl trivial unleasing
        · exact invariant.unlinkOwn live claimed rfl rfl trivial
    split
    · exact refuses none unleasing
    next inode found =>
      split
      · exact refuses none unleasing
      next existing content =>
        split
        · exact refuses (some existing) unleasing
        · have present : state.path = some inode := by
            cases fault <;> simp_all
          exact settle rfl rfl ⟨invariant.pathOld inode present, content⟩ unleasing
  next removedOnce =>
    have unleasing := congrArg Phase.leasing removedOnce
    rw [removedOnce] at safe
    split
    · exact settle rfl rfl trivial unleasing
    · refine invariant.unlink rfl rfl trivial unleasing (fun other _ otherLive => ?_)
        (invariant.unlocked_of_absent safe)
      by_contra claims
      obtain ⟨file, claims⟩ := Option.ne_none_iff_exists'.mp claims
      exact invariant.unclaimed_of_absent safe file ⟨other, otherLive, claims⟩
  next inode existing testing =>
    have unleasing := congrArg Phase.leasing testing
    rw [testing] at safe sound
    split
    · exact refuses (some existing) unleasing
    next dead =>
      exact settle rfl rfl ⟨sound.1, sound.2, safe (eq_false_of_ne_true dead)⟩ unleasing
  next inode existing reclaiming =>
    have unleasing := congrArg Phase.leasing reclaiming
    rw [reclaiming] at safe sound
    split
    · exact settle rfl rfl trivial unleasing
    next moved found =>
      have present : state.path = some moved := by
        cases aborted : state.aborted agent <;> cases fault <;> simp_all
      obtain ⟨rfl, free⟩ := safe moved present
      have unclaimed := invariant.unclaimed_of_dead sound.2.1 sound.2.2
      refine invariant.unlink rfl rfl sound unleasing (fun other _ otherLive => ?_) fun file => ?_
      · by_contra claims
        obtain ⟨file, claims⟩ := Option.ne_none_iff_exists'.mp claims
        cases present.symm.trans (invariant.present other file otherLive claims)
        exact unclaimed ⟨other, otherLive, claims⟩
      · by_contra locked
        obtain ⟨holder, locked⟩ := Option.ne_none_iff_exists'.mp locked
        cases present.symm.trans (invariant.kernelPath file holder locked)
        cases free.symm.trans locked
  next moved existing comparing =>
    have unleasing := congrArg Phase.leasing comparing
    rw [comparing] at sound
    split
    · exact settle rfl rfl trivial unleasing
    next reclaimed found =>
      -- The moved file is the one that was read, so there is nothing to put back.
      have same : reclaimed = existing := by
        have content := sound.2.1
        cases fault <;> simp_all
      rw [if_pos (by rw [same]; exact ⟨rfl, rfl⟩)]
      exact settle rfl rfl trivial unleasing
  next recreating =>
    have unleasing := congrArg Phase.leasing recreating
    split
    · exact settle rfl rfl trivial unleasing
    next absent =>
      simp only [Bool.or_eq_true, not_or, Option.not_isSome_iff_eq_none] at absent
      exact invariant.createOwn absent.2 unleasing
  next moved restoring =>
    rw [restoring] at sound
    exact sound.elim
  next rereading => exact refuses _ (by rw [rereading]; rfl)
  next inode owned =>
    have claimed := congrArg Phase.claims owned
    rw [owned] at sound
    generalize (if fault then none else state.path.bind state.content) = existing
    split
    · exact invariant.keep live claimed rfl sound
    · exact settle rfl rfl trivial (notLeasing_of_claims claimed)
  next inode removing =>
    have claimed := congrArg Phase.claims removing
    split
    · exact settle rfl rfl trivial (notLeasing_of_claims claimed)
    · exact invariant.unlinkOwn live claimed rfl rfl trivial
  all_goals exact invariant

theorem leaseStep (invariant : LockInvariant users state) (live : Live users state agent)
    {linux fault : Bool} (isLease : users.call agent = .lease linux) :
    LockInvariant users (leaseStep linux agent fault state) := by
  have sound := invariant.sound agent
  have parents := invariant.parents agent
  have kind : ∀ {phase : Phase}, phase.leasing = true → ∃ linux, users.call agent = .lease linux :=
    fun _ => ⟨linux, isLease⟩
  unfold GitWorktreeFlock.leaseStep
  simp only
  split
  next idle =>
    have childless : (state.holder agent).running = false := by
      by_contra running
      have leasing := (parents (eq_true_of_ne_false running)).2
      rw [idle] at leasing
      cases leasing
    split
    · exact invariant.settle rfl trivial (fun running => by cases childless.symm.trans running) nofun
    · -- The call is where a child is expected, the child starts, the call waits for it.
      have expected : LockInvariant users (state.goto agent (.terminating false)) :=
        invariant.settle rfl trivial (fun _ => rfl) kind
      have started := @become _ _ users _ agent _ expected .starting nofun (fun inode ready locked => by
          have running : (state.holder agent).running = true := congrArg Holder.running locked
          cases childless.symm.trans running)
        (fun _ => ⟨live, congrArg Phase.leasing (state.goto_self agent _)⟩) nofun
      have waiting := @settle _ _ users _ agent _ .awaiting started rfl
        (fun conflict exited => by cases (Function.update_self ..).symm.trans exited) (fun _ => rfl) kind
      simpa only [LockDirectory.goto, Function.update_idem] using waiting
  next awaiting =>
    rw [awaiting] at sound
    split
    · exact invariant.settle rfl trivial (fun _ => rfl) kind
    split
    next inode locked =>
      split
      · exact invariant.settle rfl trivial (fun _ => rfl) kind
      · exact invariant.settle rfl ⟨inode, locked⟩ (fun _ => rfl) kind
    next conflict exited => exact absurd exited (sound conflict)
    next conflict exited =>
      refine invariant.settle ?_ ?_ (fun running => ?_) kind
      · split <;> rfl
      · split <;> trivial
      · rw [exited] at running
        cases running
    all_goals exact invariant
  next leased => exact invariant.settle rfl trivial (fun _ => rfl) kind
  next thrown terminating =>
    have killed := @killHolder _ _ users _ agent _ invariant (by rw [terminating]; nofun) (by rw [terminating]; nofun)
    refine killed.settle ?_ ?_ (fun running => ?_) kind
    · split <;> rfl
    · split <;> trivial
    · cases (killHolder_running state agent).symm.trans running
  all_goals exact invariant

/-! ## Runs -/

omit [DecidableEq Agent] in
theorem initial [DecidableEq Agent] (leftOver : Option (Option LockRecord)) :
    LockInvariant users (.initial leftOver : LockDirectory Agent Process) where
  pathOld := by
    intro inode found
    obtain ⟨_, _, rfl⟩ := Option.map_eq_some_iff.mp found
    exact Nat.zero_lt_one
  contentOld := by
    intro inode young
    show Function.update (fun _ => none) 0 (leftOver.getD none) inode = none
    exact Function.update_of_ne (Nat.one_le_iff_ne_zero.mp young) ..
  claimsOld := nofun
  sole := nofun
  present := nofun
  sound := fun _ => trivial
  kernelHolder := fun _ _ => iff_of_false nofun fun ⟨_, locked⟩ => nomatch locked
  kernelPath := nofun
  unclaimed := nofun
  parents := nofun
  kind := nofun

variable {event : LockEvent Agent Process}

theorem lockStep [DecidableEq Process] (invariant : LockInvariant users state) (safe : SafeEvent users event state)
    (safeAdvance : SafeAdvance users event state) : LockInvariant users (lockStep users event state).2 := by
  unfold GitWorktreeFlock.lockStep
  cases event with
  | advance agent fault kill =>
    simp only
    split
    · exact invariant
    next live =>
      have live : Live users state agent := eq_false_of_ne_true live
      split
      · exact invariant.flockStep live safeAdvance
      next linux isLease => exact invariant.leaseStep live isLease
  | hold agent fault => exact invariant.holdStep safe
  | abort agent => exact invariant.abort _
  | holderDies agent =>
    have unreliant : state.phase agent ≠ .awaiting ∧ state.phase agent ≠ .leased ∨
        (state.holder agent).running = false := by
      by_cases running : (state.holder agent).running = true
      · exact .inl (safe (invariant.parents agent running).1)
      · exact .inr (eq_false_of_ne_true running)
    rcases unreliant with ⟨waits, leases⟩ | exited
    · exact invariant.killHolder (fun waiting => absurd waiting waits) leases
    · show LockInvariant users (state.killHolder agent)
      rw [killHolder_exited exited]
      exact invariant
  | crash process => exact invariant.crash safe

/-! ## Exclusion -/

omit [DecidableEq Agent] in
theorem locked_of_leased (invariant : LockInvariant users state) (leased : state.phase agent = .leased) :
    ∃ inode, state.kernel inode = some agent := by
  have sound := invariant.sound agent
  rw [leased] at sound
  obtain ⟨inode, locked⟩ := sound
  exact ⟨inode, (invariant.kernelHolder inode agent).mpr ⟨true, locked⟩⟩

omit [DecidableEq Agent] in
theorem owning_cases {phase : Phase} (owning : phase.owning = true) :
    (∃ inode, phase.claims = some inode) ∨ phase = .leased := by
  cases phase with
  | owned inode => exact .inl ⟨inode, rfl⟩
  | leased => exact .inr rfl
  | _ => cases owning

omit [DecidableEq Agent] in
theorem exclusive (invariant : LockInvariant users state) : MutuallyExclusive users state := by
  rintro a b ⟨aLive, aOwns⟩ ⟨bLive, bOwns⟩
  rcases owning_cases aOwns with ⟨inode, claimed⟩ | leased <;>
    rcases owning_cases bOwns with ⟨file, claimed'⟩ | leased'
  · exact (invariant.alone aLive claimed bLive claimed').symm
  · obtain ⟨file, locked⟩ := invariant.locked_of_leased leased'
    cases (invariant.unlocked aLive claimed file).symm.trans locked
  · obtain ⟨inode, locked⟩ := invariant.locked_of_leased leased
    cases (invariant.unlocked bLive claimed' inode).symm.trans locked
  · obtain ⟨inode, locked⟩ := invariant.locked_of_leased leased
    obtain ⟨file, locked'⟩ := invariant.locked_of_leased leased'
    cases (invariant.kernelPath inode a locked).symm.trans (invariant.kernelPath file b locked')
    exact Option.some.inj (locked.symm.trans locked')

theorem flockStep_removed {record : LockRecord} {kill : KillResult}
    (removed : (GitWorktreeFlock.flockStep record agent fault kill state).1 = some inode) :
    state.path = some inode ∧ ((∃ file, (state.phase agent).claims = some file) ∨
      (∃ file existing, state.phase agent = .reclaiming file existing) ∨
      state.phase agent = .removedOnce ∨ ∃ moved, state.phase agent = .restoring moved) := by
  unfold GitWorktreeFlock.flockStep at removed
  simp only at removed
  split at removed
  case h_4 file again wrote =>
    split at removed
    · cases removed
    split at removed
    · exact ⟨removed, .inl ⟨file, by rw [wrote]; rfl⟩⟩
    · cases removed
  case h_5 own caught =>
    split at removed
    · split at removed
      · cases removed
      next file =>
        split at removed
        · cases removed
        · exact ⟨removed, .inl ⟨file, by rw [caught]; rfl⟩⟩
    · split at removed
      · cases removed
      · split at removed <;> cases removed
  case h_6 removedOnce =>
    split at removed
    · cases removed
    · exact ⟨removed, .inr (.inr (.inl removedOnce))⟩
  case h_8 file existing reclaiming =>
    split at removed
    · cases removed
    · exact ⟨removed, .inr (.inl ⟨file, existing, reclaiming⟩)⟩
  case h_11 moved restoring =>
    split at removed
    · cases removed
    · exact ⟨removed, .inr (.inr (.inr ⟨moved, restoring⟩))⟩
  case h_14 file removing =>
    split at removed
    · cases removed
    · exact ⟨removed, .inl ⟨file, by rw [removing]; rfl⟩⟩
  all_goals first | cases removed | (split at removed <;> cases removed)

theorem spares [DecidableEq Process] (invariant : LockInvariant users state) (safe : SafeAdvance users event state) :
    SparesOthers users (recordOf (GitWorktreeFlock.lockStep users) event state) := by
  rintro inode removed owner ⟨ownerLive, _⟩ lock
  cases event with
  | advance agent fault kill =>
    by_cases same : owner = agent
    · exact ⟨fault, kill, by rw [same]; rfl⟩
    simp only [recordOf, GitWorktreeFlock.lockStep] at removed
    split at removed
    · cases removed
    next live =>
      split at removed
      · obtain ⟨present, taker⟩ := flockStep_removed removed
        have live : Live users state agent := eq_false_of_ne_true live
        -- The owner's lock is a claimed file or a locked one, and neither can be taken.
        have taken : ¬ Claimed users state inode → state.kernel inode = none → False := by
          intro unclaimed unlocked
          rcases lock with owned | ⟨_, ready, locked⟩
          · exact unclaimed ⟨owner, ownerLive, by rw [recordOf_before] at owned; rw [owned]; rfl⟩
          · cases unlocked.symm.trans ((invariant.kernelHolder inode owner).mpr ⟨ready, locked⟩)
        simp only [SafeAdvance] at safe
        rcases taker with ⟨file, claimed⟩ | ⟨file, existing, reclaiming⟩ | removedOnce | ⟨moved, restoring⟩
        · rcases lock with owned | ⟨_, ready, locked⟩
          · have claims : (state.phase owner).claims = some inode := by
              rw [recordOf_before] at owned
              rw [owned]
              rfl
            exact absurd (invariant.alone live claimed ownerLive claims) same
          · cases (invariant.unlocked live claimed inode).symm.trans
              ((invariant.kernelHolder inode owner).mpr ⟨ready, locked⟩)
        · have sound := invariant.sound agent
          rw [reclaiming] at sound safe
          obtain ⟨rfl, unlocked⟩ := safe inode present
          exact (taken (invariant.unclaimed_of_dead sound.2.1 sound.2.2) unlocked).elim
        · rw [removedOnce] at safe
          cases safe.symm.trans present
        · have sound := invariant.sound agent
          rw [restoring] at sound
          exact sound.elim
      · cases removed
  | _ => cases removed

end LockInvariant

/-! ## Recovery -/

variable [DecidableEq Agent] [DecidableEq Process]

def Reaches (users : LockUsers Agent Process) (state : LockDirectory Agent Process)
    (goal : LockDirectory Agent Process → Prop) : Prop :=
  ∃ later : List (LockEvent Agent Process), (∀ event ∈ later, event.isOwn = true) ∧
    goal (stateAfter (lockStep users) later state)

variable {goal : LockDirectory Agent Process → Prop}

theorem Reaches.here (reached : goal state) :
    Reaches users state goal := ⟨[], nofun, reached⟩

theorem Reaches.step (event : LockEvent Agent Process)
    (own : event.isOwn = true) (later : Reaches users (lockStep users event state).2 goal) :
    Reaches users state goal := by
  obtain ⟨events, owns, reached⟩ := later
  refine ⟨event :: events, ?_, reached⟩
  intro other member
  rcases List.mem_cons.mp member with rfl | member
  · exact own
  · exact owns other member

/-- A lease that can still be called. -/
structure Fresh (users : LockUsers Agent Process) (state : LockDirectory Agent Process) (agent : Agent) :
    Prop where
  call : users.call agent = .lease true
  live : Live users state agent
  idle : state.phase agent = .idle
  unaborted : state.aborted agent = false

/-- A lease whose child has come so far. -/
structure Waiting (users : LockUsers Agent Process) (state : LockDirectory Agent Process) (agent : Agent)
    (holder : Holder) : Prop where
  call : users.call agent = .lease true
  live : Live users state agent
  awaiting : state.phase agent = .awaiting
  unaborted : state.aborted agent = false
  holder : state.holder agent = holder

def Unlocked (state : LockDirectory Agent Process) : Prop := ∀ inode, state.kernel inode = none

theorem Fresh.starts (fresh : Fresh users state agent) :
    Waiting users (lockStep users (.advance agent false .delivered) state).2 agent .starting ∧
      (lockStep users (.advance agent false .delivered) state).2.kernel = state.kernel := by
  have live : state.crashed (users.process agent) = false := fresh.live
  have started : (lockStep users (.advance agent false .delivered) state).2 =
      { state.goto agent .awaiting with
        holder := Function.update state.holder agent .starting } := by
    simp [lockStep, live, fresh.call, leaseStep, fresh.idle, fresh.unaborted]
  rw [started]
  exact ⟨⟨fresh.call, fresh.live, state.goto_self agent _, fresh.unaborted, Function.update_self ..⟩, rfl⟩

theorem Waiting.opens (waiting : Waiting users state agent .starting) :
    ∃ inode, Waiting users (lockStep users (.hold agent false) state).2 agent (.opened inode) ∧
      (lockStep users (.hold agent false) state).2.kernel = state.kernel := by
  cases place : state.path with
  | some inode =>
    refine ⟨inode, ?_⟩
    simp only [lockStep, holdStep, waiting.holder, place, Bool.false_eq_true, if_false]
    exact ⟨⟨waiting.call, waiting.live, waiting.awaiting, waiting.unaborted, Function.update_self ..⟩, trivial⟩
  | none =>
    refine ⟨state.nextInode, ?_⟩
    simp only [lockStep, holdStep, waiting.holder, place, Bool.false_eq_true, if_false]
    exact ⟨⟨waiting.call, waiting.live, waiting.awaiting, waiting.unaborted, Function.update_self ..⟩, rfl⟩

theorem Waiting.locks (waiting : Waiting users state agent (.opened inode)) (unlocked : state.kernel inode = none) :
    Waiting users (lockStep users (.hold agent false) state).2 agent (.locked inode false) := by
  simp only [lockStep, holdStep, waiting.holder, unlocked, Bool.false_eq_true, if_false]
  exact ⟨waiting.call, waiting.live, waiting.awaiting, waiting.unaborted, Function.update_self ..⟩

theorem Waiting.readies (waiting : Waiting users state agent (.locked inode false)) :
    Waiting users (lockStep users (.hold agent false) state).2 agent (.locked inode true) := by
  simp only [lockStep, holdStep, waiting.holder, Bool.false_eq_true, if_false]
  exact ⟨waiting.call, waiting.live, waiting.awaiting, waiting.unaborted, Function.update_self ..⟩

theorem Waiting.leases (waiting : Waiting users state agent (.locked inode true)) :
    Believes users (lockStep users (.advance agent false .delivered) state).2 agent := by
  have live : state.crashed (users.process agent) = false := waiting.live
  have leased : (lockStep users (.advance agent false .delivered) state).2 = state.goto agent .leased := by
    simp [lockStep, live, waiting.call, leaseStep, waiting.awaiting, waiting.holder, waiting.unaborted]
  rw [leased]
  exact ⟨waiting.live, congrArg Phase.owning (state.goto_self agent _)⟩

theorem Fresh.acquires (fresh : Fresh users state agent) (unlocked : Unlocked state) :
    Reaches users state fun state => Believes users state agent := by
  obtain ⟨started, kernel⟩ := fresh.starts
  refine .step (.advance agent false .delivered) rfl ?_
  obtain ⟨inode, opened, kernel'⟩ := started.opens
  refine .step (.hold agent false) rfl ?_
  have locked := opened.locks (by rw [kernel', kernel]; exact unlocked inode)
  refine .step (.hold agent false) rfl (.step (.hold agent false) rfl ?_)
  exact .step (.advance agent false .delivered) rfl (.here locked.readies.leases)

omit [DecidableEq Process] in
theorem Fresh.goto (fresh : Fresh users state agent) {other : Agent} (differs : agent ≠ other)
    (phase : Phase) : Fresh users (state.goto other phase) agent :=
  ⟨fresh.call, fresh.live, (state.goto_other differs phase).trans fresh.idle, fresh.unaborted⟩

omit [DecidableEq Process] in
theorem Fresh.killHolder (fresh : Fresh users state agent) (other : Agent) :
    Fresh users (state.killHolder other) agent := by
  unfold LockDirectory.killHolder
  split <;> exact ⟨fresh.call, fresh.live, fresh.idle, fresh.unaborted⟩

/-- A live lease whose child has the kernel lock. -/
structure Keeps (users : LockUsers Agent Process) (state : LockDirectory Agent Process) (agent : Agent)
    (inode : Nat) (ready : Bool) : Prop where
  live : Live users state agent
  call : ∃ linux, users.call agent = .lease linux
  locked : state.holder agent = .locked inode ready

section

variable {other : Agent} {inode : Nat} {ready : Bool}

theorem Keeps.terminates (invariant : LockInvariant users state) (fresh : Fresh users state agent)
    (keeps : Keeps users state other inode ready) {thrown : Bool}
    (terminating : state.phase other = .terminating thrown) :
    Reaches users state fun state => Fresh users state agent ∧ Unlocked state := by
  have live : state.crashed (users.process other) = false := keeps.live
  obtain ⟨linux, call⟩ := keeps.call
  have differs : agent ≠ other := by
    rintro rfl
    cases fresh.idle.symm.trans terminating
  refine .step (.advance other false .delivered) rfl (.here ?_)
  simp only [lockStep, live, call, leaseStep, terminating, Bool.false_eq_true, if_false]
  refine ⟨(fresh.killHolder other).goto differs _, fun file => ?_⟩
  show (state.killHolder other).kernel file = none
  simp only [LockDirectory.killHolder, keeps.locked]
  by_cases same : file = inode
  · rw [same, Function.update_self]
  · rw [Function.update_of_ne same]
    by_contra locked
    obtain ⟨holder, locked⟩ := Option.ne_none_iff_exists'.mp locked
    have own := (invariant.kernelHolder inode other).mpr ⟨ready, keeps.locked⟩
    exact same (Option.some.inj ((invariant.kernelPath file holder locked).symm.trans
      (invariant.kernelPath inode other own)))

theorem Keeps.releases (invariant : LockInvariant users state) (fresh : Fresh users state agent)
    (keeps : Keeps users state other inode ready) (leased : state.phase other = .leased) :
    Reaches users state fun state => Fresh users state agent ∧ Unlocked state := by
  have live : state.crashed (users.process other) = false := keeps.live
  obtain ⟨linux, call⟩ := keeps.call
  have differs : agent ≠ other := by
    rintro rfl
    cases fresh.idle.symm.trans leased
  have moved : (lockStep users (.advance other false .delivered) state).2 =
      state.goto other (.terminating false) := by
    simp [lockStep, live, call, leaseStep, leased]
  have next : LockInvariant users (lockStep users (.advance other false .delivered) state).2 :=
    invariant.lockStep trivial (by simp only [SafeAdvance, leased])
  refine .step (.advance other false .delivered) rfl ?_
  rw [moved] at next ⊢
  exact Keeps.terminates next (fresh.goto differs _) ⟨keeps.live, keeps.call, keeps.locked⟩ (state.goto_self other _)

theorem Keeps.arrives (invariant : LockInvariant users state) (fresh : Fresh users state agent)
    (keeps : Keeps users state other inode true) (awaiting : state.phase other = .awaiting) :
    Reaches users state fun state => Fresh users state agent ∧ Unlocked state := by
  have live : state.crashed (users.process other) = false := keeps.live
  obtain ⟨linux, call⟩ := keeps.call
  have differs : agent ≠ other := by
    rintro rfl
    cases fresh.idle.symm.trans awaiting
  have moved : (lockStep users (.advance other false .delivered) state).2 =
      state.goto other (if state.aborted other then .terminating true else .leased) := by
    simp [lockStep, live, call, leaseStep, awaiting, keeps.locked]
  have next : LockInvariant users (lockStep users (.advance other false .delivered) state).2 :=
    invariant.lockStep trivial (by simp only [SafeAdvance, awaiting])
  refine .step (.advance other false .delivered) rfl ?_
  rw [moved] at next ⊢
  have still : Keeps users (state.goto other (if state.aborted other then .terminating true else .leased))
      other inode true := ⟨keeps.live, keeps.call, keeps.locked⟩
  cases aborted : state.aborted other with
  | true =>
    rw [aborted] at next still
    exact Keeps.terminates next (fresh.goto differs _) still (state.goto_self other _)
  | false =>
    rw [aborted] at next still
    exact Keeps.releases next (fresh.goto differs _) still (state.goto_self other _)

theorem Keeps.unlocks (invariant : LockInvariant users state) (fresh : Fresh users state agent)
    (keeps : Keeps users state other inode ready) :
    Reaches users state fun state => Fresh users state agent ∧ Unlocked state := by
  have leasing := (invariant.parents other (by rw [keeps.locked]; rfl)).2
  cases reached : state.phase other <;> rw [reached] at leasing <;> try cases leasing
  case awaiting =>
    cases ready with
    | true => exact Keeps.arrives invariant fresh keeps reached
    | false =>
      have next : LockInvariant users (lockStep users (.hold other false) state).2 :=
        invariant.lockStep (fun file opened => by cases keeps.locked.symm.trans opened) trivial
      refine .step (.hold other false) rfl ?_
      have moved : (lockStep users (.hold other false) state).2 =
          { state with holder := Function.update state.holder other (.locked inode true) } := by
        simp [lockStep, holdStep, keeps.locked]
      rw [moved] at next ⊢
      exact Keeps.arrives next ⟨fresh.call, fresh.live, fresh.idle, fresh.unaborted⟩
        ⟨keeps.live, keeps.call, Function.update_self ..⟩ reached
  case leased => exact Keeps.releases invariant fresh keeps reached
  case terminating thrown => exact Keeps.terminates invariant fresh keeps reached

end

theorem Reaches.trans {first second : LockDirectory Agent Process → Prop} (reaches : Reaches users state first)
    (later : ∀ state, first state → Reaches users state second) : Reaches users state second := by
  obtain ⟨events, own, reached⟩ := reaches
  obtain ⟨more, own', reached'⟩ := later _ reached
  refine ⟨events ++ more, ?_, by rwa [stateAfter_append]⟩
  intro event member
  exact (List.mem_append.mp member).elim (own event) (own' event)

theorem LockInvariant.recoverable (invariant : LockInvariant users state) : Recoverable users state := by
  intro _ agent call live idle unaborted
  have fresh : Fresh users state agent := ⟨call, live, idle, unaborted⟩
  suffices unlocks : Reaches users state fun state => Fresh users state agent ∧ Unlocked state from
    unlocks.trans fun state ⟨fresh, unlocked⟩ => fresh.acquires unlocked
  by_cases unlocked : Unlocked state
  · exact .here ⟨fresh, unlocked⟩
  · obtain ⟨inode, locked⟩ := not_forall.mp unlocked
    obtain ⟨other, locked⟩ := Option.ne_none_iff_exists'.mp locked
    obtain ⟨ready, held⟩ := (invariant.kernelHolder inode other).mp locked
    obtain ⟨otherLive, leasing⟩ := invariant.parents other (by rw [held]; rfl)
    exact Keeps.unlocks invariant fresh ⟨otherLive, invariant.kind other leasing, held⟩

/-! ## Every run -/

/-- In every run of safe steps, over whatever file earlier runs left behind, at most one live
    call at a time owns the lock, no step takes another live owner's lock from the path, and
    when nobody owns the lock a new lease can come to own it. -/
theorem lock_safe (users : LockUsers Agent Process) (leftOver : Option (Option LockRecord))
    (schedule : List (LockEvent Agent Process))
    (safe : ∀ step ∈ trace (lockStep users) schedule (.initial leftOver), SafeStep users step) :
    ∀ step ∈ trace (lockStep users) schedule (.initial leftOver),
      MutuallyExclusive users step.after ∧ SparesOthers users step ∧ Recoverable users step.after := by
  have around := (trace_guarded (P := LockInvariant users)
    (fun _ _ safe invariant => invariant.lockStep safe.1 safe.2) safe (LockInvariant.initial leftOver)).1
  intro step member
  obtain ⟨before, after⟩ := around step member
  have safeThere := (safe step member).2
  refine ⟨after.exclusive, ?_, after.recoverable⟩
  rw [trace_step member]
  exact before.spares safeThere

end

/-! ## Fixed runs

An acquire of one process and a lease of another. -/

def oneOfEach : LockUsers Bool Bool where
  process := id
  pid := fun first => if first then 11 else 12
  call := fun first => if first then .flock "worker" "token" else .lease true

def advances (agent : Bool) (times : Nat) : List (LockEvent Bool Bool) :=
  List.replicate times (.advance agent false .delivered)

def acquiresFlock : List (LockEvent Bool Bool) := advances true 4

def acquiresLease : List (LockEvent Bool Bool) :=
  advances false 1 ++ List.replicate 3 (.hold false false) ++ advances false 1

/-- The lease locks the file that the other process owns the lock by. -/
theorem both_kinds_own : ¬ ∀ step ∈ trace (lockStep oneOfEach) (acquiresFlock ++ acquiresLease) (.initial none),
      MutuallyExclusive oneOfEach step.after ∧ SparesOthers oneOfEach step ∧ Recoverable oneOfEach step.after := by
  intro safe
  have last := (safe ((trace (lockStep oneOfEach) (acquiresFlock ++ acquiresLease) (.initial none)).get
    ⟨8, by decide⟩) (List.get_mem _ _)).1
  have same : true = false :=
    last true false (by decide) (by decide)
  cases same

def leasesAfterCrash : List (LockEvent Bool Bool) :=
  acquiresFlock ++ .crash true :: acquiresLease

/-- The lease comes after the crash of the owner, and is granted. -/
theorem lease_after_crash : (∃ step ∈ trace (lockStep oneOfEach) leasesAfterCrash (.initial none),
      Believes oneOfEach step.after false) ∧ ∀ step ∈ trace (lockStep oneOfEach) leasesAfterCrash (.initial none),
      MutuallyExclusive oneOfEach step.after ∧ SparesOthers oneOfEach step ∧ Recoverable oneOfEach step.after := by
  refine ⟨⟨(trace (lockStep oneOfEach) leasesAfterCrash (.initial none)).get ⟨9, by decide⟩,
    List.get_mem _ _, by decide⟩, lock_safe oneOfEach none _ ?_⟩
  intro step member
  simp only [leasesAfterCrash, acquiresFlock, acquiresLease, advances, List.replicate, List.cons_append, List.nil_append,
    trace, List.mem_cons, List.not_mem_nil, or_false] at member
  rcases member with rfl | rfl | rfl | rfl | rfl | rfl | rfl | rfl | rfl | rfl
  · exact ⟨trivial, trivial⟩
  · exact ⟨trivial, trivial⟩
  · exact ⟨trivial, trivial⟩
  · exact ⟨trivial, trivial⟩
  · refine ⟨fun agent _ => ?_, trivial⟩
    cases agent <;> rfl
  · exact ⟨trivial, trivial⟩
  · refine ⟨fun _ absent => ?_, trivial⟩
    cases absent
  · refine ⟨fun inode opened => ?_, trivial⟩
    obtain rfl : 1 = inode := Holder.opened.inj opened
    refine ⟨rfl, ?_⟩
    rintro ⟨agent, live, claimed⟩
    cases agent with
    | true => cases live
    | false => cases claimed
  · refine ⟨fun _ absent => ?_, trivial⟩
    cases absent
  · exact ⟨trivial, trivial⟩

end Advance.Utils.GitWorktreeFlock
