import Advance.Utils.WorktreeLease
import Mathlib.Data.Set.Function

/-! # One writer for a worktree

A lease is taken by a rename over whatever is at the path by then, and found by a name that
two paths may share.
-/

namespace Advance.Utils.WorktreeLease

open Advance.Foundation LeaseSystem

/-! ## What is claimed -/

abbrev LeaseStep := Record LeaseSystem LeaseMove (Option LeaseResult)

def HoldsFresh (staleMs : Nat) (system : LeaseSystem) (pid : Nat) (worktreePath : String) : Prop :=
  system.alive pid = true ∧
    ∃ heartbeat, system.belief pid worktreePath = some heartbeat ∧ isFresh system.now staleMs heartbeat = true

def OneHolder (staleMs : Nat) (system : LeaseSystem) : Prop :=
  ∀ worktreePath p q, HoldsFresh staleMs system p worktreePath → HoldsFresh staleMs system q worktreePath → p = q

def ReleasesOwn (step : LeaseStep) : Prop :=
  ∀ pid kill call existing, step.request = .advance pid kill →
    step.before.phase pid = .unlinking call existing → ∀ lease, step.before.file call.fileName = some lease →
      lease.pid = pid ∧ step.before.belief pid call.worktreePath = some lease.heartbeatAt

/-- Who is refused has found another process holding the lease of the path, and it is fresh. -/
def RefusedByHolder (staleMs : Nat) (step : LeaseStep) : Prop :=
  ∀ pid kill call existing held lease, step.request = .advance pid kill →
    step.before.phase pid = .deciding call existing held → step.response = some (.blocked lease) →
      ∃ other heartbeat, other ≠ pid ∧ held other = some heartbeat ∧ isFresh step.before.now staleMs heartbeat = true

structure SafeLease (staleMs : Nat) (step : LeaseStep) : Prop where
  before : OneHolder staleMs step.before
  after : OneHolder staleMs step.after
  releases : ReleasesOwn step
  refuses : RefusedByHolder staleMs step

/-! ## When it holds -/

def LeaseAction.threshold : LeaseAction → Option Nat
  | acquire _ staleHeartbeatMs | reclaim _ staleHeartbeatMs _ => some staleHeartbeatMs
  | refresh | release => none

def LeaseAction.isReclaim : LeaseAction → Bool
  | reclaim _ _ _ => true
  | _ => false

/-- The call is about one of the paths and goes by the common threshold; a reclaim does not
    find a fresh lease of its own process; and what is renamed over or unlinked is what the
    process has read, or gone. -/
def Undisturbed (staleMs : Nat) (paths : Set String) (step : LeaseStep) : Prop :=
  match step.request with
  | .call _ call => call.worktreePath ∈ paths ∧ ∀ threshold ∈ call.action.threshold, threshold = staleMs
  | .advance pid _ =>
    match step.before.phase pid with
    | .deciding call existing _ => call.action.isReclaim = true → ∀ lease ∈ existing, lease.pid = pid →
        isFresh step.before.now staleMs lease.heartbeatAt = false
    | .writing call existing _ | .unlinking call existing =>
      step.before.file call.fileName = existing ∨ step.before.file call.fileName = none
    | .idle | .stamping _ _ => True
  | .tick | .die _ | .abandon _ => True

/-! ## The invariant -/

/-- The lease is stale or its process dead, unless it is the process's own. -/
def Takeable (staleMs : Nat) (system : LeaseSystem) (pid : Nat) (existing : Option LeaseRecord) : Prop :=
  ∀ lease ∈ existing, lease.pid ≠ pid →
    isFresh system.now staleMs lease.heartbeatAt = false ∨ system.alive lease.pid = false

def PhaseSound (staleMs : Nat) (paths : Set String) (system : LeaseSystem) (pid : Nat) : LeasePhase → Prop
  | .idle => True
  | .deciding call existing held => call.worktreePath ∈ paths ∧
      (∀ threshold ∈ call.action.threshold, threshold = staleMs) ∧
      (∀ lease ∈ existing, held lease.pid = some lease.heartbeatAt) ∧
      (isOwn pid existing = false → isOwn pid (system.file call.fileName) = false)
  | .stamping call existing => call.worktreePath ∈ paths ∧ Takeable staleMs system pid existing ∧
      (call.action = .refresh → isOwn pid existing = true) ∧ call.action ≠ .release
  | .writing call existing record => call.worktreePath ∈ paths ∧ Takeable staleMs system pid existing ∧
      record.pid = pid
  | .unlinking call existing => call.worktreePath ∈ paths ∧ isOwn pid existing = true

structure LeaseInvariant (staleMs : Nat) (paths : Set String) (system : LeaseSystem) : Prop where
  believed : ∀ pid worktreePath heartbeat, system.belief pid worktreePath = some heartbeat → worktreePath ∈ paths
  held : ∀ worktreePath pid heartbeat, system.alive pid = true →
    system.belief pid worktreePath = some heartbeat → isFresh system.now staleMs heartbeat = true →
    ∃ lease, system.file (leaseFileName worktreePath) = some lease ∧ lease.pid = pid
  filed : ∀ worktreePath ∈ paths, ∀ lease, system.file (leaseFileName worktreePath) = some lease →
    system.belief lease.pid worktreePath = some lease.heartbeatAt
  phases : ∀ pid, PhaseSound staleMs paths system pid (system.phase pid)

section

variable {staleMs : Nat} {paths : Set String} {system : LeaseSystem}

variable {existing : Option LeaseRecord} {pid : Nat}

theorem isOwn_eq_true : isOwn pid existing = true ↔ ∃ lease, existing = some lease ∧ lease.pid = pid := by
  cases existing <;> simp [isOwn]

theorem LeaseInvariant.oneHolder (sound : LeaseInvariant staleMs paths system) : OneHolder staleMs system := by
  rintro worktreePath p q ⟨liveP, _, beliefP, freshP⟩ ⟨liveQ, _, beliefQ, freshQ⟩
  obtain ⟨lease, found, rfl⟩ := sound.held _ _ _ liveP beliefP freshP
  obtain ⟨other, again, rfl⟩ := sound.held _ _ _ liveQ beliefQ freshQ
  rw [Option.some.inj (found.symm.trans again)]

theorem invariant_start : LeaseInvariant staleMs paths start where
  believed := nofun
  held := nofun
  filed := nofun
  phases := fun _ => trivial

/-! ## One step -/

theorem fresh_earlier {now later heartbeat : Nat} (le : now ≤ later)
    (fresh : isFresh later staleMs heartbeat = true) : isFresh now staleMs heartbeat = true := by
  simp only [isFresh, decide_eq_true_eq] at fresh ⊢
  omega

theorem PhaseSound.later {next : LeaseSystem} {phase : LeasePhase}
    (sound : PhaseSound staleMs paths system pid phase) (time : system.now ≤ next.now)
    (alive : ∀ other, next.alive other = true → system.alive other = true)
    (files : ∀ fileName, isOwn pid (system.file fileName) = false → isOwn pid (next.file fileName) = false) :
    PhaseSound staleMs paths next pid phase := by
  have takeable : ∀ {existing}, Takeable staleMs system pid existing → Takeable staleMs next pid existing := by
    intro existing before lease member other
    rcases before lease member other with stale | dead
    · refine .inl (Bool.eq_false_iff.mpr fun fresh => ?_)
      exact Bool.false_ne_true (stale.symm.trans (fresh_earlier time fresh))
    · exact .inr (Bool.eq_false_iff.mpr fun lives => Bool.false_ne_true (dead.symm.trans (alive _ lives)))
  cases phase with
  | idle => exact trivial
  | deciding call existing held =>
    obtain ⟨member, common, seen, others⟩ := sound
    exact ⟨member, common, seen, fun notOwn => files _ (others notOwn)⟩
  | stamping call existing =>
    obtain ⟨member, free, kind⟩ := sound
    exact ⟨member, takeable free, kind⟩
  | writing call existing record =>
    obtain ⟨member, free, own⟩ := sound
    exact ⟨member, takeable free, own⟩
  | unlinking call existing => exact sound

section

variable (sound : LeaseInvariant staleMs paths system)
include sound

theorem invariant_goto {phase : LeasePhase}
    (new : PhaseSound staleMs paths system pid phase) : LeaseInvariant staleMs paths (system.goto pid phase) where
  believed := sound.believed
  held := sound.held
  filed := sound.filed
  phases := by
    intro other
    by_cases isPid : other = pid
    · subst isPid
      rw [goto_phase, Function.update_self]
      exact new.later (Nat.le_refl _) (fun _ => id) fun _ => id
    · rw [goto_phase, Function.update_of_ne isPid]
      exact (sound.phases other).later (Nat.le_refl _) (fun _ => id) fun _ => id

theorem invariant_tick :
    LeaseInvariant staleMs paths { system with now := system.now + 1 } where
  believed := sound.believed
  held := fun worktreePath pid heartbeat live belief fresh =>
    sound.held worktreePath pid heartbeat live belief (fresh_earlier (Nat.le_succ _) fresh)
  filed := sound.filed
  phases := fun pid => (sound.phases pid).later (Nat.le_succ _) (fun _ => id) fun _ => id

theorem invariant_die (pid : Nat) : LeaseInvariant staleMs paths
      { system.goto pid .idle with alive := Function.update system.alive pid false } := by
  have idle : LeaseInvariant staleMs paths (system.goto pid .idle) := invariant_goto sound trivial
  have fewer : ∀ other, Function.update system.alive pid false other = true → system.alive other = true := by
    intro other lives
    by_cases isPid : other = pid
    · simp [isPid] at lives
    · rwa [Function.update_of_ne isPid] at lives
  exact {
    believed := idle.believed
    held := fun worktreePath other heartbeat live => idle.held worktreePath other heartbeat (fewer other live)
    filed := idle.filed
    phases := fun other => (idle.phases other).later (Nat.le_refl _) fewer fun _ => id }

end

variable {worktreePath : String}

theorem invariant_disbelieve (sound : LeaseInvariant staleMs paths system)
    (notOwn : isOwn pid (system.file (leaseFileName worktreePath)) = false) :
    LeaseInvariant staleMs paths (system.believe pid worktreePath none) where
  believed := by
    intro other path heartbeat belief
    rw [believe_belief] at belief
    split at belief
    next => cases belief
    next => exact sound.believed other path heartbeat belief
  held := by
    intro path other heartbeat live belief fresh
    rw [believe_belief] at belief
    split at belief
    next => cases belief
    next => exact sound.held path other heartbeat live belief fresh
  filed := by
    intro path member lease found
    rw [believe_belief]
    split
    next same =>
      obtain ⟨isPid, rfl⟩ := same
      exact absurd (isOwn_eq_true.mpr ⟨lease, found, isPid⟩) (Bool.not_eq_true _ ▸ notOwn)
    next => exact sound.filed path member lease found
  phases := fun other => (sound.phases other).later (Nat.le_refl _) (fun _ => id) fun _ => id

/-- What stands in the file of the lease, if anything, is the process's own or may be taken. -/
theorem invariant_put (distinct : Set.InjOn leaseFileName paths) (sound : LeaseInvariant staleMs paths system)
    {stored : Option LeaseRecord} (member : worktreePath ∈ paths) (idle : system.phase pid = .idle)
    (own : ∀ record ∈ stored, record.pid = pid)
    (takeable : Takeable staleMs system pid (system.file (leaseFileName worktreePath))) :
    LeaseInvariant staleMs paths ((system.put (leaseFileName worktreePath) stored).believe pid worktreePath
      (stored.map LeaseRecord.heartbeatAt)) where
  believed := by
    intro other path heartbeat belief
    rw [believe_belief, put_belief] at belief
    split at belief
    next same => exact same.2 ▸ member
    next => exact sound.believed other path heartbeat belief
  held := by
    intro path other heartbeat live belief fresh
    rw [believe_belief, put_belief] at belief
    rw [believe_alive, put_alive] at live
    rw [believe_now, put_now] at fresh
    split at belief
    next same =>
      obtain ⟨rfl, rfl⟩ := same
      obtain ⟨record, kept, -⟩ := Option.map_eq_some_iff.mp belief
      exact ⟨record, by simp [kept], own record kept⟩
    next differs =>
      obtain ⟨lease, found, isOther⟩ := sound.held path other heartbeat live belief fresh
      have inPaths := sound.believed other path heartbeat belief
      by_cases samePath : path = worktreePath
      · -- Another process's lease of this path may be taken, so it is stale or that process dead.
        subst samePath
        have notPid : lease.pid ≠ pid := fun same => differs ⟨isOther.symm.trans same, rfl⟩
        have recorded := sound.filed path member lease found
        rw [isOther, belief] at recorded
        rcases takeable lease found notPid with stale | dead
        · rw [← Option.some.inj recorded] at stale
          exact absurd (stale.symm.trans fresh) Bool.false_ne_true
        · rw [isOther] at dead
          exact absurd (dead.symm.trans live) Bool.false_ne_true
      · refine ⟨lease, ?_, isOther⟩
        have otherName : leaseFileName path ≠ leaseFileName worktreePath := fun same =>
          samePath (distinct inPaths member same)
        simpa [otherName] using found
  filed := by
    intro path inPaths lease found
    rw [believe_file, put_file] at found
    rw [believe_belief, put_belief]
    by_cases samePath : path = worktreePath
    · rw [samePath, Function.update_self] at found
      rw [if_pos ⟨own lease found, samePath⟩, found]
      rfl
    · have otherName : leaseFileName path ≠ leaseFileName worktreePath := fun same =>
        samePath (distinct inPaths member same)
      rw [Function.update_of_ne otherName] at found
      rw [if_neg fun same => samePath same.2]
      exact sound.filed path inPaths lease found
  phases := by
    intro other
    rw [believe_phase, put_phase]
    by_cases isPid : other = pid
    · rw [isPid, idle]
      trivial
    · refine (sound.phases other).later (by simp) (by simp) fun fileName notOwn => ?_
      rw [believe_file, put_file]
      by_cases sameName : fileName = leaseFileName worktreePath
      · rw [sameName, Function.update_self]
        refine Bool.eq_false_iff.mpr fun isOther => ?_
        obtain ⟨record, kept, same⟩ := isOwn_eq_true.mp isOther
        exact isPid (same.symm.trans (own record kept))
      · rwa [Function.update_of_ne sameName]

/-! ## Decisions -/

variable {action : LeaseAction}

theorem decide_write {kill : KillResult} (common : ∀ threshold ∈ action.threshold, threshold = staleMs)
    (writes : action.decide pid system.now existing (system.probe existing kill) = .write) :
    Takeable staleMs system pid existing ∧ (action = .refresh → isOwn pid existing = true) ∧ action ≠ .release := by
  cases action with
  | acquire sessionId threshold =>
    obtain rfl := common threshold rfl
    refine ⟨fun lease found other => .inl ?_, nofun, nofun⟩
    rw [Option.mem_def.mp found] at writes
    simpa [LeaseAction.decide, other] using writes
  | reclaim sessionId threshold allowDeadPidReclaim =>
    obtain rfl := common threshold rfl
    refine ⟨fun lease found other => ?_, nofun, nofun⟩
    rw [Option.mem_def.mp found] at writes
    simp only [LeaseAction.decide, LeaseSystem.probe, Option.all_some] at writes
    cases fresh : isFresh system.now threshold lease.heartbeatAt with
    | false => exact .inl rfl
    | true =>
      refine .inr ?_
      cases lives : system.alive lease.pid with
      | false => rfl
      | true => simp [fresh, lives] at writes
  | refresh =>
    have own : isOwn pid existing = true := by
      by_contra notOwn
      simp [LeaseAction.decide, notOwn] at writes
    refine ⟨fun lease found other => ?_, fun _ => own, nofun⟩
    obtain ⟨lease', same, isPid⟩ := isOwn_eq_true.mp own
    obtain rfl := Option.some.inj (same.symm.trans found)
    exact absurd isPid other
  | release =>
    simp only [LeaseAction.decide] at writes
    split at writes <;> cases writes

theorem decide_unlink {pid now : Nat} {alive : Bool}
    (unlinks : action.decide pid now existing alive = .unlink) : isOwn pid existing = true := by
  by_contra notOwn
  cases action with
  | acquire sessionId threshold =>
    simp only [LeaseAction.decide] at unlinks
    split at unlinks
    · cases unlinks
    · split at unlinks <;> cases unlinks
  | reclaim sessionId threshold allowDeadPidReclaim =>
    simp only [LeaseAction.decide] at unlinks
    split at unlinks
    · cases unlinks
    · split at unlinks <;> cases unlinks
  | refresh => simp [LeaseAction.decide, notOwn] at unlinks
  | release => simp [LeaseAction.decide, notOwn] at unlinks

theorem decide_blocked {pid now : Nat} {alive : Bool}
    {lease : LeaseRecord} (common : ∀ threshold ∈ action.threshold, threshold = staleMs)
    (blocked : action.decide pid now existing alive = .answer (.blocked lease)) :
    existing = some lease ∧ isFresh now staleMs lease.heartbeatAt = true ∧
      (lease.pid = pid → action.isReclaim = true) := by
  cases action with
  | acquire sessionId threshold =>
    obtain rfl := common threshold rfl
    simp only [LeaseAction.decide] at blocked
    split at blocked
    · cases blocked
    next found =>
      split at blocked
      next other =>
        cases blocked
        exact ⟨rfl, other.2, fun same => absurd same other.1⟩
      next => cases blocked
  | reclaim sessionId threshold allowDeadPidReclaim =>
    obtain rfl := common threshold rfl
    simp only [LeaseAction.decide] at blocked
    split at blocked
    · cases blocked
    · split at blocked
      next fresh =>
        cases blocked
        exact ⟨rfl, (Bool.and_eq_true_iff.mp fresh).1, fun _ => rfl⟩
      next => cases blocked
  | refresh =>
    simp only [LeaseAction.decide] at blocked
    split at blocked <;> cases blocked
  | release =>
    simp only [LeaseAction.decide] at blocked
    split at blocked <;> cases blocked

theorem record_pid {pid now : Nat}
    (isOwner : action = .refresh → isOwn pid existing = true) (notRelease : action ≠ .release) :
    (action.record pid now existing).pid = pid := by
  cases action with
  | acquire sessionId threshold =>
    simp only [LeaseAction.record]
    split
    next lease found => exact of_decide_eq_true (Option.filter_eq_some_iff.mp found).2
    next => rfl
  | reclaim sessionId threshold allowDeadPidReclaim => rfl
  | refresh =>
    obtain ⟨lease, rfl, isPid⟩ := isOwn_eq_true.mp (isOwner rfl)
    exact isPid
  | release => exact absurd rfl notRelease

/-! ## Every step -/

theorem invariant_answer (sound : LeaseInvariant staleMs paths system) {call : LeaseCall}
    (others : isOwn pid existing = false → isOwn pid (system.file call.fileName) = false) :
    LeaseInvariant staleMs paths (answerCall pid call existing system) := by
  have idle : LeaseInvariant staleMs paths (system.goto pid .idle) := invariant_goto sound trivial
  unfold answerCall
  split
  next => exact idle
  next notOwn => exact invariant_disbelieve idle (others (Bool.eq_false_iff.mpr notOwn))

theorem invariant_advance (distinct : Set.InjOn leaseFileName paths)
    (sound : LeaseInvariant staleMs paths system) {kill : KillResult}
    (good : Undisturbed staleMs paths (recordOf leaseStep (.advance pid kill) system)) :
    LeaseInvariant staleMs paths (advanceStep pid kill system).2 := by
  have phase := sound.phases pid
  have idle : LeaseInvariant staleMs paths (system.goto pid .idle) := invariant_goto sound trivial
  simp only [Undisturbed, recordOf_request, recordOf_before] at good
  unfold advanceStep
  split
  next => exact sound
  next call existing held at_ =>
    rw [at_] at phase
    obtain ⟨member, common, _, others⟩ := phase
    split
    next => exact invariant_answer sound others
    next writes => exact invariant_goto sound ⟨member, decide_write common writes⟩
    next unlinks => exact invariant_goto sound ⟨member, decide_unlink unlinks⟩
  next call existing at_ =>
    rw [at_] at phase
    obtain ⟨member, takeable, isOwner, notRelease⟩ := phase
    exact invariant_goto sound ⟨member, takeable, record_pid isOwner notRelease⟩
  next call existing record at_ =>
    rw [at_] at phase good
    obtain ⟨member, takeable, own⟩ := phase
    refine @invariant_put _ _ _ _ _ distinct idle (some record) member (by simp) (by simpa using own) ?_
    intro lease found other
    rcases good with same | gone
    · exact takeable lease (same ▸ found) other
    · exact nomatch gone.symm.trans found
  next call existing at_ =>
    rw [at_] at phase good
    obtain ⟨member, own⟩ := phase
    refine @invariant_put _ _ _ _ _ distinct idle none member (by simp) nofun fun lease found other => ?_
    rcases good with same | gone
    · obtain ⟨read, isRead, isPid⟩ := isOwn_eq_true.mp own
      cases (same.symm.trans found).symm.trans isRead
      exact absurd isPid other
    · exact nomatch gone.symm.trans found

theorem invariant_step (distinct : Set.InjOn leaseFileName paths) (move : LeaseMove)
    (sound : LeaseInvariant staleMs paths system)
    (good : Undisturbed staleMs paths (recordOf leaseStep move system)) :
    LeaseInvariant staleMs paths (leaseStep move system).2 := by
  cases move with
  | tick => exact invariant_tick sound
  | die pid => exact invariant_die sound pid
  | call pid call =>
    obtain ⟨member, common⟩ := good
    simp only [leaseStep]
    split
    next =>
      exact invariant_goto sound ⟨member, common, fun lease found => sound.filed _ member lease found, id⟩
    next => exact sound
  | advance pid kill => exact invariant_advance distinct sound good
  | abandon pid => exact invariant_goto sound trivial

section

variable (sound : LeaseInvariant staleMs paths system) {move : LeaseMove}
  (good : Undisturbed staleMs paths (recordOf leaseStep move system))
include sound move good

theorem releases_own : ReleasesOwn (recordOf leaseStep move system) := by
  rintro pid kill call existing request at_ lease found
  rw [recordOf_request] at request
  subst request
  rw [recordOf_before] at at_ found ⊢
  have phase := sound.phases pid
  simp only [Undisturbed, recordOf_request, recordOf_before, at_] at good phase
  obtain ⟨member, own⟩ := phase
  obtain ⟨read, rfl, isPid⟩ := isOwn_eq_true.mp own
  rcases good with same | gone
  · obtain rfl := Option.some.inj (same.symm.trans found)
    exact ⟨isPid, isPid ▸ sound.filed _ member read found⟩
  · exact nomatch gone.symm.trans found

theorem refused_by_holder : RefusedByHolder staleMs (recordOf leaseStep move system) := by
  rintro pid kill call existing held lease request at_ blocked
  rw [recordOf_request] at request
  subst request
  rw [recordOf_before] at at_ ⊢
  have phase := sound.phases pid
  simp only [Undisturbed, recordOf_request, recordOf_before, at_] at good phase
  obtain ⟨_, common, seen, _⟩ := phase
  have answer : call.action.decide pid system.now existing (system.probe existing kill) =
      .answer (.blocked lease) := by
    simp only [recordOf, leaseStep, advanceStep, at_] at blocked
    split at blocked
    next result decided => rw [decided, Option.some.inj blocked]
    next => cases blocked
    next => cases blocked
  obtain ⟨rfl, fresh, own⟩ := decide_blocked common answer
  refine ⟨lease.pid, lease.heartbeatAt, fun same => ?_, seen lease rfl, fresh⟩
  exact Bool.false_ne_true ((good (own same) lease rfl same).symm.trans fresh)

end

/-- In every run whose steps are undisturbed, on paths with names of their own, a lease is
    taken, given back and refused as it should be. -/
theorem lease_exclusive (distinct : Set.InjOn leaseFileName paths) {moves : List LeaseMove}
    (good : ∀ step ∈ trace leaseStep moves start, Undisturbed staleMs paths step) :
    OneHolder staleMs (stateAfter leaseStep moves start) ∧
      ∀ step ∈ trace leaseStep moves start, SafeLease staleMs step := by
  obtain ⟨around, final⟩ := trace_guarded (P := LeaseInvariant staleMs paths)
    (fun move _ undisturbed sound => invariant_step distinct move sound undisturbed) good invariant_start
  refine ⟨final.oneHolder, fun step member => ?_⟩
  obtain ⟨before, after⟩ := around step member
  have undisturbed := good step member
  have served := trace_step member
  rw [served] at undisturbed ⊢
  exact ⟨before.oneHolder, served ▸ after.oneHolder, releases_own before undisturbed,
    refused_by_holder before undisturbed⟩

end

/-! ## Fixed runs -/

def acquireAt (worktreePath : String) : LeaseCall := ⟨worktreePath, .acquire "session" 10⟩

def steps (pid count : Nat) : List LeaseMove := List.replicate count (.advance pid .delivered)

def askedLater : List LeaseMove :=
  .call 1 (acquireAt "/w/a") :: steps 1 3 ++ .call 2 (acquireAt "/w/a") :: steps 2 1

theorem lease_exclusive_asked : OneHolder 10 (stateAfter leaseStep askedLater start) ∧
    ∀ step ∈ trace leaseStep askedLater start, SafeLease 10 step :=
  lease_exclusive (Set.injOn_singleton leaseFileName "/w/a") (by
    have asks : ∀ threshold ∈ (acquireAt "/w/a").action.threshold, threshold = 10 :=
      fun _ same => (Option.some.inj same).symm
    refine List.forall_mem_cons.mpr ⟨⟨rfl, asks⟩, ?_⟩
    refine List.forall_mem_cons.mpr ⟨(nofun : (acquireAt "/w/a").action.isReclaim = true → _), ?_⟩
    refine List.forall_mem_cons.mpr ⟨trivial, ?_⟩
    refine List.forall_mem_cons.mpr ⟨.inl rfl, ?_⟩
    refine List.forall_mem_cons.mpr ⟨⟨rfl, asks⟩, ?_⟩
    exact List.forall_mem_singleton.mpr (nofun : (acquireAt "/w/a").action.isReclaim = true → _))

/-- Two processes both read that there is no lease, and both write theirs. -/
theorem both_acquire : ¬∀ (staleMs : Nat) (moves : List LeaseMove),
    OneHolder staleMs (stateAfter leaseStep moves start) ∧
      ∀ step ∈ trace leaseStep moves start, SafeLease staleMs step := by
  intro safe
  have one := (safe 10 (.call 1 (acquireAt "/w/a") :: .call 2 (acquireAt "/w/a") :: steps 1 3 ++ steps 2 3)).1
  exact absurd (one "/w/a" 1 2 ⟨rfl, 0, rfl, rfl⟩ ⟨rfl, 0, rfl, rfl⟩) (by decide)

end Advance.Utils.WorktreeLease
