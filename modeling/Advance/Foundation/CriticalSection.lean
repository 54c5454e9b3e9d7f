import Advance.Foundation.Program
import Advance.Foundation.Run
import Mathlib.Data.List.Induction

/-! # Programs under one lock

Clients share a store.  Each first checks the store without the lock, then waits
for it, runs its program of atomic store actions while holding it, and releases
it.  The steps of all clients interleave in any order, at most one client at a
time is inside.
-/

namespace Advance.Foundation

/-- What one client does: a check outside the lock that may answer at once, the
    answer when the lock is not obtained, and the program under the lock. -/
structure LockClient (Store Result : Type) where
  check : Store → Option Result
  timeout : Result
  program : Program Store Result

inductive ClientState (Store Result : Type) where
  | idle
  | waiting
  | inside (rest : Program Store Result)
  | done (result : Result)

def ClientState.isInside {Store Result : Type} : ClientState Store Result → Prop
  | inside _ => True
  | _ => False

section

variable {Client Store Result : Type}

structure LockSystem (Client Store Result : Type) where
  store : Store
  holder : Option Client
  client : Client → ClientState Store Result
  order : List Client

namespace LockSystem

def initial (store : Store) : LockSystem Client Store Result :=
  { store := store, holder := none, client := fun _ => .idle, order := [] }

end LockSystem

open LockSystem

/-- Running a client's program alone. -/
def serveLocked (clients : Client → LockClient Store Result) (i : Client) (store : Store) :
    Result × Store := (clients i).program.run store

/-- The answers given so far are those of the sequential run of `served`. -/
def Answered (clients : Client → LockClient Store Result) (start : Store)
    (system : LockSystem Client Store Result) (served : List Client) : Prop :=
  ∀ step ∈ trace (serveLocked clients) served start, system.client step.request = .done step.response

/-- What holds between any two steps: either nobody is inside and the store is
    that of the sequential run, or one client is and its remaining program
    completes its own sequential step. -/
structure Serialised (clients : Client → LockClient Store Result) (start : Store)
    (system : LockSystem Client Store Result) : Prop where
  distinct : system.order.Nodup
  started : ∀ i ∈ system.order, system.client i ≠ .idle ∧ system.client i ≠ .waiting
  position : (system.holder = none ∧ (∀ j, ¬(system.client j).isInside) ∧ Answered clients start system system.order ∧
      system.store = stateAfter (serveLocked clients) system.order start) ∨
    (∃ front i rest, system.holder = some i ∧ system.order = front ++ [i] ∧
      system.client i = .inside rest ∧ (∀ j, (system.client j).isInside → j = i) ∧
      Answered clients start system front ∧
      rest.run system.store = (clients i).program.run (stateAfter (serveLocked clients) front start))

theorem Answered.transfer {clients : Client → LockClient Store Result} {start : Store}
    {system next : LockSystem Client Store Result} {served : List Client}
    (answered : Answered clients start system served) (same : ∀ i ∈ served, next.client i = system.client i) :
    Answered clients start next served := by
  intro step recorded
  have member : step.request ∈ served := request_mem recorded
  rw [same _ member]
  exact answered step recorded

theorem serialised_initial (clients : Client → LockClient Store Result) (start : Store) :
    Serialised clients start (initial start) where
  distinct := List.nodup_nil
  started := fun _ member => nomatch member
  position := .inl ⟨rfl, fun _ inside => inside, fun _ member => (nomatch member), rfl⟩

theorem Serialised.holder {clients : Client → LockClient Store Result} {start : Store}
    {system : LockSystem Client Store Result} (serialised : Serialised clients start system)
    {i : Client} {rest : Program Store Result} (inside : system.client i = .inside rest) :
    ∃ front, system.holder = some i ∧ system.order = front ++ [i] ∧ i ∉ front ∧
      (∀ j, (system.client j).isInside → j = i) ∧ Answered clients start system front ∧
      rest.run system.store = (clients i).program.run (stateAfter (serveLocked clients) front start) := by
  have insideHolds : (system.client i).isInside := by rw [inside]; trivial
  rcases serialised.position with ⟨_, nobody, _, _⟩ |
    ⟨front, holder, rest', held, order, holds, alone, answered, completes⟩
  · exact absurd insideHolds (nobody i)
  · cases alone i insideHolds
    cases inside.symm.trans holds
    have distinct := serialised.distinct
    rw [order] at distinct
    have notEarlier : i ∉ front := by
      intro earlier
      exact (List.nodup_append.mp distinct).2.2 i earlier i (by simp) rfl
    exact ⟨front, held, order, notEarlier, alone, answered, completes⟩

section Interleaving

variable [DecidableEq Client]

namespace LockSystem

def become (system : LockSystem Client Store Result) (i : Client)
    (state : ClientState Store Result) : LockSystem Client Store Result :=
  { system with client := Function.update system.client i state }

def enter (system : LockSystem Client Store Result) (i : Client) (program : Program Store Result) :
    LockSystem Client Store Result :=
  { system.become i (.inside program) with holder := some i, order := system.order ++ [i] }

def acted (system : LockSystem Client Store Result) (i : Client) (store : Store)
    (rest : Program Store Result) : LockSystem Client Store Result :=
  { system.become i (.inside rest) with store := store }

def leave (system : LockSystem Client Store Result) (i : Client) (result : Result) : LockSystem Client Store Result :=
  { system.become i (.done result) with holder := none }

inductive Step (clients : Client → LockClient Store Result) :
    LockSystem Client Store Result → LockSystem Client Store Result → Prop
  | refuse {system} (i : Client) {result : Result} (idle : system.client i = .idle)
      (refused : (clients i).check system.store = some result) :
      Step clients system (system.become i (.done result))
  | enqueue {system} (i : Client) (idle : system.client i = .idle)
      (admitted : (clients i).check system.store = none) :
      Step clients system (system.become i .waiting)
  | giveUp {system} (i : Client) (waiting : system.client i = .waiting) :
      Step clients system (system.become i (.done (clients i).timeout))
  | acquire {system} (i : Client) (waiting : system.client i = .waiting)
      (free : system.holder = none) :
      Step clients system (system.enter i (clients i).program)
  | act {system} (i : Client) {update : Store → Store} {next : Store → Program Store Result}
      (inside : system.client i = .inside (.act update next)) :
      Step clients system (system.acted i (update system.store) (next system.store))
  | release {system} (i : Client) {result : Result}
      (inside : system.client i = .inside (.finish result)) :
      Step clients system (system.leave i result)

/-- Everything the interleaved steps can reach from a store with all clients idle. -/
inductive Reachable (clients : Client → LockClient Store Result) (start : Store) :
    LockSystem Client Store Result → Prop
  | initial : Reachable clients start (initial start)
  | step {system next} (reached : Reachable clients start system)
      (steps : Step clients system next) : Reachable clients start next

def advance (clients : Client → LockClient Store Result) (system : LockSystem Client Store Result)
    (i : Client) : LockSystem Client Store Result :=
  match system.client i with
  | .idle =>
    match (clients i).check system.store with
    | some result => system.become i (.done result)
    | none => system.become i .waiting
  | .waiting =>
    match system.holder with
    | none => system.enter i (clients i).program
    | some _ => system
  | .inside (.act update next) => system.acted i (update system.store) (next system.store)
  | .inside (.finish result) => system.leave i result
  | .done _ => system

/-- A schedule names the client that moves next. -/
def runSchedule (clients : Client → LockClient Store Result) (schedule : List Client) (start : Store) :
    LockSystem Client Store Result :=
  schedule.foldl (advance clients) (initial start)

theorem reachable_advance {clients : Client → LockClient Store Result} {start : Store}
    {system : LockSystem Client Store Result} (reached : Reachable clients start system) (i : Client) :
    Reachable clients start (advance clients system i) := by
  unfold advance
  split
  next idle =>
    split
    next refused => exact reached.step (.refuse i idle refused)
    next admitted => exact reached.step (.enqueue i idle admitted)
  next waiting =>
    split
    next free => exact reached.step (.acquire i waiting free)
    next => exact reached
  next inside => exact reached.step (.act i inside)
  next inside => exact reached.step (.release i inside)
  next => exact reached

theorem reachable_runSchedule (clients : Client → LockClient Store Result) (schedule : List Client)
    (start : Store) : Reachable clients start (runSchedule clients schedule start) := by
  have extend : ∀ (schedule : List Client) (system : LockSystem Client Store Result),
      Reachable clients start system → Reachable clients start (schedule.foldl (advance clients) system) := by
    intro schedule
    induction schedule with
    | nil => exact fun _ reached => reached
    | cons i schedule ih => exact fun system reached => ih _ (reachable_advance reached i)
  exact extend schedule _ .initial

end LockSystem

open LockSystem

section

variable (system : LockSystem Client Store Result)
include system

@[simp] theorem enter_client (i : Client) (program : Program Store Result) :
    (system.enter i program).client = (system.become i (.inside program)).client := rfl

@[simp] theorem acted_client (i : Client) (store : Store) (rest : Program Store Result) :
    (system.acted i store rest).client = (system.become i (.inside rest)).client := rfl

@[simp] theorem leave_client (i : Client) (result : Result) :
    (system.leave i result).client = (system.become i (.done result)).client := rfl

theorem become_self (i : Client) (state : ClientState Store Result) : (system.become i state).client i = state := by
  simp [become]

theorem become_other {i j : Client} (differs : j ≠ i)
    (state : ClientState Store Result) : (system.become i state).client j = system.client j := by
  simp [become, differs]

end

variable {clients : Client → LockClient Store Result} {system : LockSystem Client Store Result} {start : Store}
  {i : Client}

section

variable (serialised : Serialised clients start system)
include serialised

theorem Serialised.outside (outside : system.client i = .idle ∨ system.client i = .waiting)
    {state : ClientState Store Result} (staysOutside : ¬state.isInside) :
    Serialised clients start (system.become i state) := by
  have unserved : i ∉ system.order := by
    intro member
    have progressed := serialised.started i member
    rcases outside with idle | waiting
    · exact progressed.1 idle
    · exact progressed.2 waiting
  have same : ∀ j ∈ system.order, (system.become i state).client j = system.client j := by
    intro j member
    exact become_other system (fun equal => unserved (by rw [← equal]; exact member)) state
  refine ⟨serialised.distinct, ?_, ?_⟩
  · intro j member
    rw [same j member]
    exact serialised.started j member
  · rcases serialised.position with ⟨free, nobody, answered, store⟩ |
      ⟨front, holder, rest, held, order, holds, alone, answered, completes⟩
    · refine .inl ⟨free, ?_, answered.transfer same, store⟩
      intro j
      by_cases moved : j = i
      · subst moved; rw [become_self]; exact staysOutside
      · rw [become_other system moved]; exact nobody j
    · have holderOther : holder ≠ i := by
        intro equal
        exact unserved (by rw [order, ← equal]; simp)
      refine .inr ⟨front, holder, rest, held, order, ?_, ?_, ?_, completes⟩
      · rw [become_other system holderOther]; exact holds
      · intro j inside
        by_cases moved : j = i
        · subst moved; rw [become_self] at inside; exact absurd inside staysOutside
        · rw [become_other system moved] at inside; exact alone j inside
      · exact answered.transfer (fun j member => same j (by rw [order]; simp [member]))

theorem Serialised.acquire (waiting : system.client i = .waiting) (free : system.holder = none) :
    Serialised clients start (system.enter i (clients i).program) := by
  have unserved : i ∉ system.order := fun member => (serialised.started i member).2 waiting
  have same : ∀ j ∈ system.order, (system.become i (.inside (clients i).program)).client j = system.client j := by
    intro j member
    exact become_other system (fun equal => unserved (by rw [← equal]; exact member)) _
  rcases serialised.position with ⟨_, nobody, answered, store⟩ | ⟨_, holder, _, held, _⟩
  · refine ⟨?_, ?_, .inr ⟨system.order, i, _, rfl, rfl, become_self system i _, ?_, ?_, ?_⟩⟩
    · exact List.nodup_append.mpr ⟨serialised.distinct, by simp, by
        intro j member k last equal
        exact unserved (by rw [← List.mem_singleton.mp last, ← equal]; exact member)⟩
    · intro j member
      rcases List.mem_append.mp member with earlier | last
      · rw [enter_client, same j earlier]
        exact serialised.started j earlier
      · rw [List.mem_singleton.mp last, enter_client, become_self]
        exact ⟨nofun, nofun⟩
    · intro j inside
      by_contra differs
      rw [enter_client, become_other system differs] at inside
      exact nobody j inside
    · exact answered.transfer same
    · change (clients i).program.run system.store = _
      rw [store]
  · exact nomatch held.symm.trans free

theorem Serialised.act {update : Store → Store} {next : Store → Program Store Result}
    (inside : system.client i = .inside (.act update next)) :
    Serialised clients start (system.acted i (update system.store) (next system.store)) := by
  obtain ⟨front, held, order, notEarlier, alone, answered, completes⟩ := serialised.holder inside
  refine ⟨serialised.distinct, ?_, .inr ⟨front, i, next system.store, held, order,
    become_self system i _, ?_, ?_, completes⟩⟩
  · intro j member
    rw [acted_client]
    by_cases moved : j = i
    · rw [moved, become_self]; exact ⟨nofun, nofun⟩
    · rw [become_other system moved]; exact serialised.started j member
  · intro j stillInside
    by_contra differs
    rw [acted_client, become_other system differs] at stillInside
    exact differs (alone j stillInside)
  · refine answered.transfer (fun j member => ?_)
    exact become_other system (fun equal => notEarlier (by rw [← equal]; exact member)) _

theorem Serialised.release {result : Result} (inside : system.client i = .inside (.finish result)) :
    Serialised clients start (system.leave i result) := by
  obtain ⟨front, held, order, notEarlier, alone, answered, completes⟩ := serialised.holder inside
  simp only [Program.run_finish] at completes
  refine ⟨serialised.distinct, ?_, .inl ⟨rfl, ?_, ?_, ?_⟩⟩
  · intro j member
    rw [leave_client]
    by_cases moved : j = i
    · rw [moved, become_self]; exact ⟨nofun, nofun⟩
    · rw [become_other system moved]; exact serialised.started j member
  · intro j stillInside
    rw [leave_client] at stillInside
    by_cases moved : j = i
    · rw [moved, become_self] at stillInside; exact stillInside
    · rw [become_other system moved] at stillInside
      exact moved (alone j stillInside)
  · intro step recorded
    change step ∈ trace _ system.order start at recorded
    rw [order, trace_append] at recorded
    rcases List.mem_append.mp recorded with earlier | last
    · have member : step.request ∈ front := request_mem earlier
      rw [leave_client, become_other system (fun equal => notEarlier (by rw [← equal]; exact member))]
      exact answered step earlier
    · simp only [trace, List.mem_singleton] at last
      subst last
      simp only [recordOf, serveLocked, ← completes, leave_client, become_self]
  · change system.store = stateAfter (serveLocked clients) system.order start
    rw [order, stateAfter_append, stateAfter_cons, stateAfter_nil, serveLocked, ← completes]

end

theorem serialised_of_reachable (reached : Reachable clients start system) : Serialised clients start system := by
  induction reached with
  | initial => exact serialised_initial clients start
  | step _ steps serialised =>
    cases steps with
    | refuse i idle refused => exact serialised.outside (.inl idle) id
    | enqueue i idle admitted => exact serialised.outside (.inl idle) id
    | giveUp i waiting => exact serialised.outside (.inr waiting) id
    | acquire i waiting free => exact serialised.acquire waiting free
    | act i inside => exact serialised.act inside
    | release i inside => exact serialised.release inside

/-- With nobody inside, every interleaving is the sequential run of the programs
    in the order in which their clients acquired the lock. -/
theorem serialisable (reached : Reachable clients start system) (free : system.holder = none) :
    system.order.Nodup ∧ Answered clients start system system.order ∧
      system.store = stateAfter (serveLocked clients) system.order start := by
  have serialised := serialised_of_reachable reached
  rcases serialised.position with ⟨_, _, answered, store⟩ | ⟨_, _, _, held, _⟩
  · exact ⟨serialised.distinct, answered, store⟩
  · exact nomatch held.symm.trans free

theorem reachable_finished (rest : Program Store Result)
    (reached : Reachable clients start system) (inside : system.client i = .inside rest) :
    ∃ next, Reachable clients start next ∧ next.holder = none ∧ next.order = system.order ∧
      ∀ j ≠ i, next.client j = system.client j := by
  induction rest generalizing system with
  | finish result =>
    exact ⟨system.leave i result, reached.step (.release i inside), rfl, rfl,
      fun j differs => become_other system differs _⟩
  | act update next ih =>
    obtain ⟨final, reachedFinal, free, order, others⟩ :=
      ih system.store (reached.step (.act i inside)) (become_self system i _)
    refine ⟨final, reachedFinal, free, order, fun j differs => ?_⟩
    rw [others j differs]
    exact become_other system differs _

/-- Clients that pass their checks can be served one after another, in any order. -/
theorem reachable_sequence
    (admitted : ∀ i store, (clients i).check store = none) {order : List Client} (distinct : order.Nodup) :
    ∃ system, Reachable clients start system ∧ system.holder = none ∧ system.order = order ∧
      ∀ i ∉ order, system.client i = .idle := by
  induction order using List.reverseRecOn with
  | nil => exact ⟨initial start, .initial, rfl, rfl, fun _ _ => rfl⟩
  | append_singleton order i ih =>
    obtain ⟨earlier, _, disjoint⟩ := List.nodup_append.mp distinct
    obtain ⟨system, reached, free, served, idle⟩ := ih earlier
    have unserved : i ∉ order := fun member => disjoint i member i (by simp) rfl
    have queued := reached.step (.enqueue i (idle i unserved) (admitted i _))
    have entered := queued.step (.acquire i (become_self system i _) free)
    obtain ⟨final, reachedFinal, freed, same, others⟩ :=
      reachable_finished (clients i).program entered (become_self _ i _)
    refine ⟨final, reachedFinal, freed, ?_, fun j outside => ?_⟩
    · rw [same, ← served]
      rfl
    · have differs : j ≠ i := fun equal => outside (by simp [equal])
      rw [others j differs, enter_client, become_other _ differs, become_other _ differs]
      exact idle j fun member => outside (List.mem_append_left _ member)

end Interleaving

end

end Advance.Foundation
