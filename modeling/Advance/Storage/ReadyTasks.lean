import Advance.JavaScript.LatestByKey
import Advance.Types.ChangeState

/-! # Ready tasks

Which pending tasks of a change can be started is decided twice: by the store, on the
change it loads, and by a helper on the state of a change.
-/

namespace Advance.Storage

open Advance.JavaScript Advance.Types

/-! ## Tasks -/

inductive DependencyType where
  | blocked_by
  | related
  | discovered_from
  | parent
  deriving DecidableEq

structure Dependency where
  type : DependencyType
  target : String
  deriving DecidableEq

/-- A task as far as the two evaluators read it. -/
structure DependentTask where
  id : String
  title : String
  status : TaskStatus
  deps : Option (List Dependency)
  /-- `cancellation?.reason` -/
  cancellationReason : Option String
  deriving DecidableEq

structure BlockedTask where
  task : DependentTask
  blockedBy : List String
  deriving DecidableEq

structure CancelledBlocker where
  taskId : String
  cancelledBlockerId : String
  cancellationReason : String
  deriving DecidableEq

structure ReadyTasks where
  ready : List DependentTask
  blocked : List BlockedTask
  cancelledBlockerContext : List CancelledBlocker
  deriving DecidableEq

def blockedByTargets (task : DependentTask) : List String :=
  ((task.deps.getD []).filter fun dep => dep.type = .blocked_by).map Dependency.target

/-! ## The store -/

def isResolved (task : DependentTask) : Bool := task.status = .done || task.status = .cancelled

section

variable (tasks : List DependentTask)

/-- `new Map(tasks.map((t) => [t.id, t]))` -/
def tasksById : List (String × DependentTask) := fromEntries (tasks.map fun task => (task.id, task))

def unmet (target : String) : Bool :=
  match mapGet (tasksById tasks) target with
  | none => true
  | some dep => !isResolved dep

def cancelledBlockers (task : DependentTask) : List CancelledBlocker :=
  (blockedByTargets task).filterMap fun depId =>
    match mapGet (tasksById tasks) depId with
    | some dep =>
      if dep.status = .cancelled then
        some ⟨task.id, dep.id, dep.cancellationReason.getD "(no reason recorded)"⟩
      else none
    | none => none

def ReadyTasks.sort (listed : ReadyTasks) (task : DependentTask) : ReadyTasks :=
  if task.status ≠ .pending then listed
  else
    let unmetDeps := (blockedByTargets task).filter (unmet tasks)
    if unmetDeps.length = 0 then
      { listed with
        ready := listed.ready ++ [task]
        cancelledBlockerContext := listed.cancelledBlockerContext ++ cancelledBlockers tasks task }
    else { listed with blocked := listed.blocked ++ [⟨task, unmetDeps⟩] }

/-- `tasks.ready` of a change; `none` where the change does not load. -/
def tasksReady : Option (List DependentTask) → ReadyTasks
  | none => ⟨[], [], []⟩
  | some tasks => tasks.foldl (ReadyTasks.sort tasks) ⟨[], [], []⟩

/-! ## The state -/

def blocking (target : String) : Bool :=
  match tasks.find? fun candidate => candidate.id = target with
  | none => false
  | some blockingTask => blockingTask.status ≠ .done && blockingTask.status ≠ .cancelled

def ReadyTasks.place (listed : ReadyTasks) (task : DependentTask) : ReadyTasks :=
  if task.status ≠ .pending then listed
  else
    let blockers := (blockedByTargets task).filter (blocking tasks)
    if blockers.length = 0 then { listed with ready := listed.ready ++ [task] }
    else { listed with blocked := listed.blocked ++ [⟨task, blockers⟩] }

def getReadyTasksFromChangeState : ReadyTasks := tasks.foldl (ReadyTasks.place tasks) ⟨[], [], []⟩

end

/-! ## What is claimed -/

/-- A task of the id is there and neither done nor cancelled. -/
def Unfinished (tasks : List DependentTask) (target : String) : Prop :=
  ∃ other ∈ tasks, other.id = target ∧ isResolved other = false

/-- A listing puts every pending task on one side and keeps what waits for an unfinished task off the ready side. -/
structure SoundReadiness (tasks : List DependentTask) (listed : ReadyTasks) : Prop where
  exactlyOne : ∀ task ∈ tasks, task.status = .pending →
    Xor (task ∈ listed.ready) (task ∈ listed.blocked.map BlockedTask.task)
  settled : ∀ task ∈ listed.ready, ∀ target ∈ blockedByTargets task, ¬ Unfinished tasks target

structure OneReadiness (tasks : List DependentTask) : Prop where
  ready : ∀ task, task ∈ (tasksReady (some tasks)).ready ↔ task ∈ (getReadyTasksFromChangeState tasks).ready
  blocked : ∀ task, task ∈ (tasksReady (some tasks)).blocked.map BlockedTask.task ↔
    task ∈ (getReadyTasksFromChangeState tasks).blocked.map BlockedTask.task
  store : SoundReadiness tasks (tasksReady (some tasks))
  state : SoundReadiness tasks (getReadyTasksFromChangeState tasks)

/-! ## When it holds -/

def FirstUnfinished (tasks : List DependentTask) (target : String) : Prop :=
  ∃ other, (tasks.find? fun task => task.id = target) = some other ∧ isResolved other = false

def LastUnfinished (tasks : List DependentTask) (target : String) : Prop :=
  ∀ other, (tasks.reverse.find? fun task => task.id = target) = some other → isResolved other = false

/-- A task waits for nothing unknown or unfinished, or both evaluators find something it waits for. -/
def Settled (tasks : List DependentTask) (task : DependentTask) : Prop :=
  (∀ target ∈ blockedByTargets task, target ∈ tasks.map DependentTask.id ∧ ¬ Unfinished tasks target) ∨
    (∃ target ∈ blockedByTargets task, FirstUnfinished tasks target) ∧
      ∃ target ∈ blockedByTargets task, LastUnfinished tasks target

/-! ## What the evaluators look up -/

section

variable {tasks : List DependentTask}

theorem mapGet_tasksById (target : String) :
    mapGet (tasksById tasks) target = tasks.reverse.find? fun task => task.id = target := by
  rw [tasksById, mapGet_fromEntries_last, mapGet, ← List.map_reverse, List.find?_map, Option.map_map]
  exact congrFun Option.map_id _

variable {target : String}

theorem unmet_iff : unmet tasks target = true ↔ LastUnfinished tasks target := by
  unfold unmet LastUnfinished
  rw [mapGet_tasksById]
  cases tasks.reverse.find? fun task => task.id = target with
  | none => simp
  | some dep => simp

theorem blocking_iff : blocking tasks target = true ↔ FirstUnfinished tasks target := by
  unfold blocking FirstUnfinished
  cases tasks.find? fun task => task.id = target with
  | none => simp
  | some blockingTask => simp [isResolved]

theorem FirstUnfinished.unfinished (first : FirstUnfinished tasks target) : Unfinished tasks target := by
  obtain ⟨other, found, unresolved⟩ := first
  exact ⟨other, List.mem_of_find?_eq_some found, by simpa using List.find?_some found, unresolved⟩

theorem LastUnfinished.unfinished (last : LastUnfinished tasks target)
    (known : target ∈ tasks.map DependentTask.id) : Unfinished tasks target := by
  obtain ⟨task, member, rfl⟩ := List.mem_map.mp known
  cases found : tasks.reverse.find? fun other => other.id = task.id with
  | none =>
    have absent := List.find?_eq_none.mp found task (List.mem_reverse.mpr member)
    simp at absent
  | some other =>
    exact ⟨other, List.mem_reverse.mp (List.mem_of_find?_eq_some found), by simpa using List.find?_some found,
      last other found⟩

theorem LastUnfinished.of_unknown (unknown : target ∉ tasks.map DependentTask.id) : LastUnfinished tasks target := by
  intro other found
  have member := List.mem_reverse.mp (List.mem_of_find?_eq_some found)
  have same : other.id = target := by simpa using List.find?_some found
  exact absurd (same ▸ List.mem_map_of_mem member) unknown

/-! ## The two listings -/

section

variable {P : DependentTask → Prop} {listed rest : List DependentTask} {first task : DependentTask}
include P listed rest first task

theorem mem_grown (holds : P first) : (task ∈ listed ++ [first] ∨ task ∈ rest ∧ P task) ↔
      task ∈ listed ∨ task ∈ first :: rest ∧ P task := by
  rw [List.mem_append, List.mem_singleton, List.mem_cons]
  constructor
  · rintro ((old | rfl) | ⟨later, rest⟩)
    · exact .inl old
    · exact .inr ⟨.inl rfl, holds⟩
    · exact .inr ⟨.inr later, rest⟩
  · rintro (old | ⟨rfl | later, rest⟩)
    · exact .inl (.inl old)
    · exact .inl (.inr rfl)
    · exact .inr ⟨later, rest⟩

theorem mem_passed_over
    (fails : ¬ P first) : (task ∈ listed ∨ task ∈ rest ∧ P task) ↔ task ∈ listed ∨ task ∈ first :: rest ∧ P task := by
  rw [List.mem_cons]
  refine or_congr_right (and_congr_left fun holds => ⟨.inr, fun either => ?_⟩)
  exact either.resolve_left fun same => fails (same ▸ holds)

end

theorem mem_listing (step : ReadyTasks → DependentTask → ReadyTasks) (waits : DependentTask → List String)
    (skipped : ∀ listed task, task.status ≠ .pending → step listed task = listed)
    (readied : ∀ listed task, task.status = .pending → waits task = [] →
      (step listed task).ready = listed.ready ++ [task] ∧ (step listed task).blocked = listed.blocked)
    (held : ∀ listed task, task.status = .pending → waits task ≠ [] →
      (step listed task).ready = listed.ready ∧ (step listed task).blocked = listed.blocked ++ [⟨task, waits task⟩])
    (passed : List DependentTask) (start : ReadyTasks) (task : DependentTask) :
    (task ∈ (passed.foldl step start).ready ↔
        task ∈ start.ready ∨ task ∈ passed ∧ task.status = .pending ∧ waits task = []) ∧
      (task ∈ (passed.foldl step start).blocked.map BlockedTask.task ↔
        task ∈ start.blocked.map BlockedTask.task ∨ task ∈ passed ∧ task.status = .pending ∧ waits task ≠ []) := by
  let Readied : DependentTask → Prop := fun task => task.status = .pending ∧ waits task = []
  let Held : DependentTask → Prop := fun task => task.status = .pending ∧ waits task ≠ []
  induction passed generalizing start with
  | nil => simp
  | cons first rest ih =>
    obtain ⟨ready, blocked⟩ := ih (step start first)
    rw [List.foldl_cons, ready, blocked]
    by_cases pending : first.status = .pending
    · by_cases free : waits first = []
      · obtain ⟨grown, same⟩ := readied start first pending free
        rw [grown, same]
        exact ⟨mem_grown (P := Readied) ⟨pending, free⟩, mem_passed_over (P := Held) fun holds => holds.2 free⟩
      · obtain ⟨same, grown⟩ := held start first pending free
        rw [grown, same, List.map_append]
        exact ⟨mem_passed_over (P := Readied) fun holds => free holds.2, mem_grown (P := Held) ⟨pending, free⟩⟩
    · rw [skipped start first pending]
      exact ⟨mem_passed_over (P := Readied) fun holds => pending holds.1,
        mem_passed_over (P := Held) fun holds => pending holds.1⟩

section

variable {targets : List String} {p : String → Bool} {P : String → Prop}
  (named : ∀ target, p target = true ↔ P target)
include targets p P named

theorem filter_nil_iff : targets.filter p = [] ↔ ∀ target ∈ targets, ¬ P target := by
  rw [List.filter_eq_nil_iff]
  exact forall₂_congr fun target _ => not_congr (named target)

theorem filter_ne_nil_iff : targets.filter p ≠ [] ↔ ∃ target ∈ targets, P target := by
  rw [Ne, filter_nil_iff named]
  simp only [not_forall, not_not, exists_prop]

end

theorem mem_tasksReady (task : DependentTask) : (task ∈ (tasksReady (some tasks)).ready ↔
        task ∈ tasks ∧ task.status = .pending ∧ ∀ target ∈ blockedByTargets task, ¬ LastUnfinished tasks target) ∧
      (task ∈ (tasksReady (some tasks)).blocked.map BlockedTask.task ↔
        task ∈ tasks ∧ task.status = .pending ∧ ∃ target ∈ blockedByTargets task, LastUnfinished tasks target) := by
  have listing := mem_listing (ReadyTasks.sort tasks)
    (fun task => (blockedByTargets task).filter (unmet tasks))
    (fun listed task other => by simp [ReadyTasks.sort, other])
    (fun listed task pending free => by simp [ReadyTasks.sort, pending, free])
    (fun listed task pending waiting => by simp [ReadyTasks.sort, pending, List.length_eq_zero_iff, waiting])
    tasks ⟨[], [], []⟩ task
  rw [filter_nil_iff fun _ => unmet_iff, filter_ne_nil_iff fun _ => unmet_iff] at listing
  simpa [tasksReady] using listing

theorem mem_stateReady (task : DependentTask) : (task ∈ (getReadyTasksFromChangeState tasks).ready ↔
        task ∈ tasks ∧ task.status = .pending ∧ ∀ target ∈ blockedByTargets task, ¬ FirstUnfinished tasks target) ∧
      (task ∈ (getReadyTasksFromChangeState tasks).blocked.map BlockedTask.task ↔
        task ∈ tasks ∧ task.status = .pending ∧ ∃ target ∈ blockedByTargets task, FirstUnfinished tasks target) := by
  have listing := mem_listing (ReadyTasks.place tasks)
    (fun task => (blockedByTargets task).filter (blocking tasks))
    (fun listed task other => by simp [ReadyTasks.place, other])
    (fun listed task pending free => by simp [ReadyTasks.place, pending, free])
    (fun listed task pending waiting => by simp [ReadyTasks.place, pending, List.length_eq_zero_iff, waiting])
    tasks ⟨[], [], []⟩ task
  rw [filter_nil_iff fun _ => blocking_iff, filter_ne_nil_iff fun _ => blocking_iff] at listing
  simpa [getReadyTasksFromChangeState] using listing

theorem soundReadiness_of {listed : ReadyTasks} {waited : String → Prop} (sides : ∀ task, (task ∈ listed.ready ↔
        task ∈ tasks ∧ task.status = .pending ∧ ∀ target ∈ blockedByTargets task, ¬ waited target) ∧
      (task ∈ listed.blocked.map BlockedTask.task ↔
        task ∈ tasks ∧ task.status = .pending ∧ ∃ target ∈ blockedByTargets task, waited target))
    (covers : ∀ task ∈ listed.ready, ∀ target ∈ blockedByTargets task, ¬ Unfinished tasks target) :
    SoundReadiness tasks listed := by
  refine ⟨fun task member pending => ?_, covers⟩
  rw [(sides task).1, (sides task).2]
  by_cases waits : ∃ target ∈ blockedByTargets task, waited target
  · refine .inr ⟨⟨member, pending, waits⟩, fun free => ?_⟩
    obtain ⟨target, among, held⟩ := waits
    exact free.2.2 target among held
  · refine .inl ⟨⟨member, pending, fun target among held => waits ⟨target, among, held⟩⟩, fun both => waits both.2.2⟩

/-! ## The claim -/

theorem oneReadiness_iff (tasks : List DependentTask) :
    OneReadiness tasks ↔ ∀ task ∈ tasks, task.status = .pending → Settled tasks task := by
  constructor
  · intro one task member pending
    by_cases clear : ∀ target ∈ blockedByTargets task, target ∈ tasks.map DependentTask.id ∧ ¬ Unfinished tasks target
    · exact .inl clear
    · -- Whatever is not clear blocks the task for both evaluators.
      have held : ∃ target ∈ blockedByTargets task, LastUnfinished tasks target := by
        by_contra none
        refine clear fun target among => ?_
        have ready := (mem_tasksReady task).1.mpr
          ⟨member, pending, fun target among last => none ⟨target, among, last⟩⟩
        refine ⟨?_, one.store.settled task ready target among⟩
        by_contra unknown
        exact none ⟨target, among, .of_unknown unknown⟩
      have stored := (mem_tasksReady task).2.mpr ⟨member, pending, held⟩
      have both := (mem_stateReady task).2.mp ((one.blocked task).mp stored)
      exact .inr ⟨both.2.2, held⟩
  · intro settled
    -- The two agree on every pending task.
    have agree : ∀ task ∈ tasks, task.status = .pending →
        ((∃ target ∈ blockedByTargets task, LastUnfinished tasks target) ↔
          ∃ target ∈ blockedByTargets task, FirstUnfinished tasks target) := by
      intro task member pending
      cases settled task member pending with
      | inl clear =>
        refine iff_of_false ?_ ?_
        · rintro ⟨target, among, last⟩
          exact (clear target among).2 (last.unfinished (clear target among).1)
        · rintro ⟨target, among, first⟩
          exact (clear target among).2 first.unfinished
      | inr both => exact iff_of_true both.2 both.1
    have clear : ∀ task ∈ (tasksReady (some tasks)).ready, ∀ target ∈ blockedByTargets task,
        ¬ Unfinished tasks target := by
      intro task ready
      obtain ⟨member, pending, free⟩ := (mem_tasksReady task).1.mp ready
      cases settled task member pending with
      | inl clear => exact fun target among => (clear target among).2
      | inr both =>
        obtain ⟨target, among, last⟩ := both.2
        exact absurd last (free target among)
    have ready : ∀ task, task ∈ (tasksReady (some tasks)).ready ↔
        task ∈ (getReadyTasksFromChangeState tasks).ready := by
      intro task
      rw [(mem_tasksReady task).1, (mem_stateReady task).1]
      refine and_congr_right fun member => and_congr_right fun pending => ?_
      have := not_congr (agree task member pending)
      push Not at this
      exact this
    refine ⟨ready, fun task => ?_, soundReadiness_of mem_tasksReady clear,
      soundReadiness_of mem_stateReady fun task inside => clear task ((ready task).mpr inside)⟩
    rw [(mem_tasksReady task).2, (mem_stateReady task).2]
    exact and_congr_right fun member => and_congr_right fun pending => agree task member pending

end

/-! ## Fixed runs -/

def strayTask : DependentTask :=
  ⟨"tk-index", "Build the index", .pending, some [⟨.blocked_by, "tk-removed"⟩], none⟩

/-- The store holds the task back and the state lists it as ready. -/
theorem strayTask_told_twice : ¬ OneReadiness [strayTask] := by
  intro one
  have stored : strayTask ∈ (tasksReady (some [strayTask])).ready :=
    (one.ready strayTask).mpr (by decide)
  exact absurd stored (by decide)

end Advance.Storage
