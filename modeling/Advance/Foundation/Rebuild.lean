import Advance.Foundation.Dialogue
import Advance.Foundation.Run
import Mathlib.Logic.Function.Basic

/-! # A value rebuilt from what is read

Clients change sources.  After its changes a client rebuilds a value that is derived from the
sources: it reads them question by question, and then stores the value over the one that is
there.  The steps of all clients come in any order.
-/

namespace Advance.Foundation

section

variable {Op : Type} {Answer : Op → Type} {Call Failure Derived : Type}

/-- Where a client is; a rebuild knows how many changes there were when it began. -/
inductive RebuildPhase {Op : Type} (Answer : Op → Type) (Call Failure Derived : Type) where
  | idle
  | changing
  | reading (start : Nat) (call : Call) (rest : Dialogue Answer (Except Failure Derived))
  | ready (start : Nat) (call : Call) (derived : Derived)

/-- `latest` is the beginning of the finished rebuild that began last, `wrote` whether the last
    one to finish stored its value. -/
structure RebuildSystem {Op : Type} (Answer : Op → Type) (Call Failure Derived : Type) where
  sources : ∀ op, Answer op
  stored : Option Derived
  phase : Nat → RebuildPhase Answer Call Failure Derived
  changes : Nat
  latest : Nat
  wrote : Bool

inductive RebuildMove {Op : Type} (Answer : Op → Type) (Call : Type) where
  | change (client : Nat) (sources : ∀ op, Answer op)
  | start (client : Nat) (call : Call)
  | read (client : Nat)
  | store (client : Nat)
  | fail (client : Nat)

namespace RebuildSystem

def initial (sources : ∀ op, Answer op) (stored : Option Derived) : RebuildSystem Answer Call Failure Derived :=
  { sources := sources, stored := stored, phase := fun _ => .idle, changes := 0, latest := 0, wrote := false }

def goto (system : RebuildSystem Answer Call Failure Derived) (client : Nat)
    (phase : RebuildPhase Answer Call Failure Derived) : RebuildSystem Answer Call Failure Derived :=
  { system with phase := Function.update system.phase client phase }

def finish (system : RebuildSystem Answer Call Failure Derived) (client start : Nat) (wrote : Bool) :
    RebuildSystem Answer Call Failure Derived :=
  { system.goto client .idle with latest := max system.latest start, wrote := wrote }

def change (system : RebuildSystem Answer Call Failure Derived) (client : Nat) (sources : ∀ op, Answer op) :
    RebuildSystem Answer Call Failure Derived :=
  { system.goto client .changing with sources := sources, changes := system.changes + 1 }

def store (system : RebuildSystem Answer Call Failure Derived) (client start : Nat) (derived : Derived) :
    RebuildSystem Answer Call Failure Derived :=
  { system.finish client start true with stored := some derived }

end RebuildSystem

open RebuildSystem

variable (build : Call → Dialogue Answer (Except Failure Derived))

def afterMove : RebuildMove Answer Call → RebuildSystem Answer Call Failure Derived →
    RebuildSystem Answer Call Failure Derived
  | .change client sources, system =>
    match system.phase client with
    | .idle | .changing => system.change client sources
    | _ => system
  | .start client call, system =>
    match system.phase client with
    | .idle | .changing => system.goto client (.reading system.changes call (build call))
    | _ => system
  | .read client, system =>
    match system.phase client with
    | .reading start call (.ask op next) => system.goto client (.reading start call (next (system.sources op)))
    | .reading start call (.finish (.ok derived)) => system.goto client (.ready start call derived)
    | .reading start _ (.finish (.error _)) => system.finish client start false
    | _ => system
  | .store client, system =>
    match system.phase client with
    | .ready start _ derived => system.store client start derived
    | _ => system
  | .fail client, system =>
    match system.phase client with
    | .reading start _ _ | .ready start _ _ => system.finish client start false
    | _ => system

def rebuildStep (move : RebuildMove Answer Call) (system : RebuildSystem Answer Call Failure Derived) :
    Unit × RebuildSystem Answer Call Failure Derived := ((), afterMove build move system)

/-- No rebuild that began after a later change has finished when this one stores its value. -/
def InOrder (step : Record (RebuildSystem Answer Call Failure Derived) (RebuildMove Answer Call) Unit) : Prop :=
  ∀ client start call derived, step.request = .store client → step.before.phase client = .ready start call derived →
    step.before.latest ≤ start

/-- With nobody at it, and the last rebuild having stored its value, that is the value of the
    sources. -/
def Converged (system : RebuildSystem Answer Call Failure Derived) : Prop :=
  (∀ client, system.phase client = .idle) → system.wrote = true →
    ∃ call derived, system.stored = some derived ∧ (build call).answered system.sources = .ok derived

def RebuildMove.client : RebuildMove Answer Call → Nat
  | .change client _ | .start client _ | .read client | .store client | .fail client => client

def RebuildPhase.isIdle : RebuildPhase Answer Call Failure Derived → Bool
  | .idle => true
  | _ => false

theorem afterMove_other (move : RebuildMove Answer Call) (system : RebuildSystem Answer Call Failure Derived)
    {other : Nat} (differs : other ≠ move.client) :
    (afterMove build move system).phase other = system.phase other := by
  have moved : ∀ phase, (system.goto move.client phase).phase other = system.phase other :=
    fun phase => Function.update_of_ne differs _ _
  unfold afterMove
  cases move with
  | change client sources => dsimp only; split <;> first | exact moved _ | rfl
  | start client call => dsimp only; split <;> first | exact moved _ | rfl
  | read client => dsimp only; split <;> first | exact moved _ | rfl
  | store client => dsimp only; split <;> first | exact moved _ | rfl
  | fail client => dsimp only; split <;> first | exact moved _ | rfl

variable {moves : List (RebuildMove Answer Call)}

theorem stateAfter_other {other : Nat}
    (differs : ∀ move ∈ moves, other ≠ move.client) (start : RebuildSystem Answer Call Failure Derived) :
    (stateAfter (rebuildStep build) moves start).phase other = start.phase other := by
  induction moves generalizing start with
  | nil => rfl
  | cons move moves ih =>
    rw [stateAfter_cons, ih (fun later member => differs later (List.mem_cons_of_mem _ member))]
    exact afterMove_other build move start (differs move List.mem_cons_self)

variable {start : RebuildSystem Answer Call Failure Derived}

theorem quiet_of_clients (begins : ∀ client, start.phase client = .idle)
    (idle : ∀ move ∈ moves, ((stateAfter (rebuildStep build) moves start).phase move.client).isIdle = true)
    (client : Nat) : (stateAfter (rebuildStep build) moves start).phase client = .idle := by
  by_cases named : ∃ move ∈ moves, move.client = client
  · obtain ⟨move, member, rfl⟩ := named
    have isIdle := idle move member
    cases phase : (stateAfter (rebuildStep build) moves start).phase move.client with
    | idle => rfl
    | changing | reading | ready => rw [phase] at isIdle; cases isIdle
  · rw [stateAfter_other build fun move member same => named ⟨move, member, same.symm⟩]
    exact begins client

def RebuildMove.isChange : RebuildMove Answer Call → Bool
  | .change _ _ => true
  | _ => false

theorem afterMove_sources (move : RebuildMove Answer Call) (system : RebuildSystem Answer Call Failure Derived)
    (other : move.isChange = false) : (afterMove build move system).sources = system.sources := by
  unfold afterMove
  cases move with
  | change => cases other
  | start client call => dsimp only; split <;> rfl
  | read client => dsimp only; split <;> rfl
  | store client => dsimp only; split <;> rfl
  | fail client => dsimp only; split <;> rfl

theorem sources_of_change {before after : List (RebuildMove Answer Call)} {client : Nat} {sources : ∀ op, Answer op}
    (idle : (stateAfter (rebuildStep build) before start).phase client = .idle)
    (others : ∀ move ∈ after, move.isChange = false) :
    (stateAfter (rebuildStep build) (before ++ .change client sources :: after) start).sources = sources := by
  have kept : ∀ (moves : List (RebuildMove Answer Call)) (system : RebuildSystem Answer Call Failure Derived),
      (∀ move ∈ moves, move.isChange = false) →
        (stateAfter (rebuildStep build) moves system).sources = system.sources := by
    intro moves
    induction moves with
    | nil => exact fun _ _ => rfl
    | cons move moves ih =>
      intro system others
      rw [stateAfter_cons, ih _ fun later member => others later (List.mem_cons_of_mem _ member)]
      exact afterMove_sources build move system (others move List.mem_cons_self)
  have changed : ∀ system : RebuildSystem Answer Call Failure Derived, system.phase client = .idle →
      (afterMove build (.change client sources) system).sources = sources := by
    intro system idle
    unfold afterMove
    dsimp only
    rw [idle]
    rfl
  rw [stateAfter_append, stateAfter_cons, kept _ _ others]
  exact changed _ idle

/-! ## The invariant -/

def PhaseSound (system : RebuildSystem Answer Call Failure Derived) : RebuildPhase Answer Call Failure Derived → Prop
  | .reading start call rest => start ≤ system.changes ∧
      (start = system.changes → rest.answered system.sources = (build call).answered system.sources)
  | .ready start call derived => start ≤ system.changes ∧
      (start = system.changes → (build call).answered system.sources = .ok derived)
  | _ => True

/-- A client that has still to finish a rebuild of the sources as they are. -/
def Pending (changes : Nat) : RebuildPhase Answer Call Failure Derived → Prop
  | .idle => False
  | .changing => True
  | .reading start _ _ | .ready start _ _ => start = changes

structure RebuildInvariant (system : RebuildSystem Answer Call Failure Derived) : Prop where
  latestLe : system.latest ≤ system.changes
  phases : ∀ client, PhaseSound build system (system.phase client)
  pending : system.latest = system.changes ∨ ∃ client, Pending system.changes (system.phase client)
  stored : system.wrote = true → system.latest = system.changes →
    ∃ call derived, system.stored = some derived ∧ (build call).answered system.sources = .ok derived

variable {build} {system : RebuildSystem Answer Call Failure Derived} {client : Nat}

theorem invariant_initial (sources : ∀ op, Answer op) (stored : Option Derived) :
    RebuildInvariant build (initial sources stored : RebuildSystem Answer Call Failure Derived) where
  latestLe := Nat.le_refl 0
  phases := fun _ => trivial
  pending := .inl rfl
  stored := nofun

theorem phases_goto {phase : RebuildPhase Answer Call Failure Derived}
    {P : RebuildPhase Answer Call Failure Derived → Prop} (new : P phase)
    (others : ∀ other, P (system.phase other)) (other : Nat) : P ((system.goto client phase).phase other) := by
  unfold goto
  dsimp only
  by_cases same : other = client
  · rw [same, Function.update_self]
    exact new
  · rw [Function.update_of_ne same]
    exact others other

section

variable (sound : RebuildInvariant build system)
include sound

theorem invariant_goto {phase : RebuildPhase Answer Call Failure Derived} (new : PhaseSound build system phase)
    (stays : Pending system.changes (system.phase client) → Pending system.changes phase) :
    RebuildInvariant build (system.goto client phase) where
  latestLe := sound.latestLe
  phases := phases_goto (P := PhaseSound build system) new sound.phases
  pending := by
    rcases sound.pending with caught | ⟨other, pending⟩
    · exact .inl caught
    · refine .inr ⟨other, ?_⟩
      unfold goto
      dsimp only
      by_cases same : other = client
      · rw [same, Function.update_self]
        exact stays (same ▸ pending)
      · rwa [Function.update_of_ne same]
  stored := sound.stored

theorem invariant_finish {start : Nat} (began : start ≤ system.changes)
    {wrote : Bool} (own : Pending system.changes (system.phase client) → start = system.changes)
    {stored : Option Derived} (derived : wrote = true → max system.latest start = system.changes →
      ∃ call derived, stored = some derived ∧ (build call).answered system.sources = .ok derived) :
    RebuildInvariant build { system.finish client start wrote with stored := stored } where
  latestLe := Nat.max_le.mpr ⟨sound.latestLe, began⟩
  phases := phases_goto (P := PhaseSound build system) trivial sound.phases
  pending := by
    have caught : start = system.changes ∨ system.latest = system.changes →
        max system.latest start = system.changes := by
      have := sound.latestLe
      omega
    rcases sound.pending with already | ⟨other, pending⟩
    · exact .inl (caught (.inr already))
    · by_cases same : other = client
      · exact .inl (caught (.inl (own (same ▸ pending))))
      · refine .inr ⟨other, ?_⟩
        unfold finish goto
        dsimp only
        rwa [Function.update_of_ne same]
  stored := derived

theorem invariant_change (sources : ∀ op, Answer op) : RebuildInvariant build (system.change client sources) where
  latestLe := Nat.le_succ_of_le sound.latestLe
  phases := by
    -- no rebuild has begun after this change, so none is said to have read the new sources
    refine phases_goto (P := PhaseSound build (system.change client sources)) trivial fun other => ?_
    have before := sound.phases other
    cases at_ : system.phase other with
    | idle | changing => trivial
    | reading start call rest | ready start call derived =>
      rw [at_] at before
      exact ⟨Nat.le_succ_of_le before.1, fun same => absurd before.1 (by rw [same]; exact Nat.not_succ_le_self _)⟩
  pending := by
    refine .inr ⟨client, ?_⟩
    unfold change goto
    dsimp only
    rw [Function.update_self]
    trivial
  stored := fun _ caught => absurd sound.latestLe (by
    have same : system.latest = system.changes + 1 := caught
    omega)

theorem invariant_move (move : RebuildMove Answer Call)
    (inOrder : InOrder (recordOf (rebuildStep build) move system)) :
    RebuildInvariant build (afterMove build move system) := by
  cases move with
  | change client sources =>
    unfold afterMove
    dsimp only
    split
    next => exact invariant_change sound sources
    next => exact invariant_change sound sources
    next => exact sound
  | start client call =>
    have begins : RebuildInvariant build (system.goto client (.reading system.changes call (build call))) :=
      invariant_goto sound ⟨Nat.le_refl _, fun _ => rfl⟩ fun _ => rfl
    unfold afterMove
    dsimp only
    split
    next => exact begins
    next => exact begins
    next => exact sound
  | read client =>
    have phase := sound.phases client
    unfold afterMove
    dsimp only
    split
    next start call op next at_ =>
      rw [at_] at phase
      refine invariant_goto sound ⟨phase.1, fun same => (phase.2 same)⟩ ?_
      rw [at_]
      exact id
    next start call derived at_ =>
      rw [at_] at phase
      refine invariant_goto sound ⟨phase.1, fun same => (phase.2 same).symm⟩ ?_
      rw [at_]
      exact id
    next start call failure at_ =>
      rw [at_] at phase
      exact invariant_finish sound phase.1 (by rw [at_]; exact id) nofun
    next => exact sound
  | store client =>
    have phase := sound.phases client
    unfold afterMove
    dsimp only
    split
    next start call derived at_ =>
      rw [at_] at phase
      refine invariant_finish sound phase.1 (by rw [at_]; exact id) fun _ caught => ?_
      have later := inOrder client start call derived rfl at_
      rw [recordOf_before] at later
      rw [Nat.max_eq_right later] at caught
      exact ⟨call, derived, rfl, phase.2 caught⟩
    next => exact sound
  | fail client =>
    have phase := sound.phases client
    unfold afterMove
    dsimp only
    split
    next start call rest at_ =>
      rw [at_] at phase
      exact invariant_finish sound phase.1 (by rw [at_]; exact id) nofun
    next start call derived at_ =>
      rw [at_] at phase
      exact invariant_finish sound phase.1 (by rw [at_]; exact id) nofun
    next => exact sound

theorem RebuildInvariant.converged : Converged build system := by
  intro quiet wrote
  have caught : system.latest = system.changes := by
    rcases sound.pending with caught | ⟨client, pending⟩
    · exact caught
    · rw [quiet client] at pending
      exact pending.elim
  exact sound.stored wrote caught

end

/-- In every run whose rebuilds store their values in order, the value left is that of the sources. -/
theorem converged
    (sound : RebuildInvariant build start) (inOrder : ∀ step ∈ trace (rebuildStep build) moves start, InOrder step) :
    Converged build (stateAfter (rebuildStep build) moves start) := by
  have final := (trace_guarded (P := RebuildInvariant build)
    (fun move system ordered sound => invariant_move sound move ordered) inOrder sound).2
  exact final.converged

end

end Advance.Foundation
