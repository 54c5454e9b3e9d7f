import Advance.Foundation.Run
import Advance.Types.ChangeState
import Advance.Types.ChangeStatus
import Advance.Utils.SyntheticFixtureDetector

/-! # Batches

`adv_task_cancel` and `changes.closeBatch` look at all their targets first and then write them one by one, each in a
commit of its own.  Other mutators may do anything in between.
-/

namespace Advance.Tools

open Advance.Foundation Advance.Types

structure BatchTask where
  id : String
  status : TaskStatus
  completed_at : Option String
  notes : Option String

structure BatchChange where
  id : String
  status : ChangeStatus
  closure : Option String
  tasks : List BatchTask

/-- What `loadChange` answers for each directory. -/
structure BatchStore where
  dirs : List String
  load : String → Except String (Option BatchChange)

def BatchStore.save (store : BatchStore) (change : BatchChange) : BatchStore :=
  { store with load := Function.update store.load change.id (.ok (some change)) }

/-- A commit may fail before it has written, or after. -/
inductive CommitFate where
  | clean
  | failed (error : String)
  | writtenThenFailed (error : String)

/-- A target, with what the others do before it is checked, before it is looked up again and before it is written. -/
structure BatchTarget where
  id : String
  beforeCheck : BatchStore → BatchStore
  beforeLoad : BatchStore → BatchStore
  beforeWrite : BatchStore → BatchStore
  fate : CommitFate

/-- A turn of the second loop: whether the target may be written at that moment, whether it was, and the error that is
    reported. -/
structure BatchTurn where
  id : String
  valid : Bool
  written : Bool
  error : Option String

/-- What a batch comes to: the errors of a refusal, or the turns. -/
inductive BatchOutcome where
  | refused (results : List (String × String))
  | served (turns : List BatchTurn)

def BatchOutcome.turns : BatchOutcome → List BatchTurn
  | .refused _ => []
  | .served turns => turns

/-! ## `changes.closeBatch` -/

def statusText : ChangeStatus → String
  | .draft => "draft"
  | .archived => "archived"
  | .closed => "closed"

def closeRefusal (store : BatchStore) (id : String) : Option String :=
  match store.load id with
  | .error error => some error
  | .ok none => some "Change not found"
  | .ok (some change) =>
    if change.status = .draft then none else some ("Protected status \"" ++ statusText change.status ++ "\"")

/-- The first loop, which stops at the first target it refuses. -/
def preValidate : List BatchTarget → BatchStore → Option (String × String) × BatchStore
  | [], store => (none, store)
  | target :: rest, store =>
    match closeRefusal (target.beforeCheck store) target.id with
    | some error => (some (target.id, error), target.beforeCheck store)
    | none => preValidate rest (target.beforeCheck store)

def closeOne (closure : String) (target : BatchTarget) (store : BatchStore) : BatchTurn × BatchStore :=
  let seen := target.beforeLoad store
  match seen.load target.id with
  | .error _ | .ok none => (⟨target.id, false, false, some "missing"⟩, seen)
  | .ok (some change) =>
    let now := target.beforeWrite seen
    let valid := (closeRefusal now target.id).isNone
    let closed := now.save { change with status := .closed, closure := some closure }
    match target.fate with
    | .clean => (⟨target.id, valid, true, none⟩, closed)
    | .failed error => (⟨target.id, valid, false, some error⟩, now)
    | .writtenThenFailed error => (⟨target.id, valid, true, some error⟩, closed)

def closeBatch (closure : String) (targets : List BatchTarget) (store : BatchStore) : BatchOutcome :=
  match preValidate targets store with
  | (some (id, error), _) =>
    .refused (targets.map fun target => (target.id, if target.id = id then error else "Aborted due to sibling failure"))
  | (none, checked) => .served ((trace (closeOne closure) targets checked).map Record.response)

/-! ## `adv_task_cancel` -/

structure CancelInput where
  reasons : String → Option String
  approvedByUser : Bool
  approvalEvidence : String
  now : String

def BatchChange.hasTask (change : BatchChange) (taskId : String) : Bool := change.tasks.any fun task => task.id = taskId

/-- `tasks.show`: the first directory whose change has the task. -/
def BatchStore.changeOf (store : BatchStore) (taskId : String) : Option String :=
  store.dirs.find? fun dir => (store.load dir).toOption.join.any fun change => change.hasTask taskId

/-- The ids that are not found, all of which are looked for. -/
def unknownTaskIds : List BatchTarget → BatchStore → List String × BatchStore
  | [], store => ([], store)
  | target :: rest, store =>
    let (unknown, checked) := unknownTaskIds rest (target.beforeCheck store)
    (if ((target.beforeCheck store).changeOf target.id).isNone then target.id :: unknown else unknown, checked)

def cancelRefusal (input : CancelInput) (targets : List BatchTarget) (store : BatchStore) :
    Option String × BatchStore :=
  let missingReasons := (targets.map BatchTarget.id).filter fun id => ((input.reasons id).filter (· ≠ "")).isNone
  if missingReasons ≠ [] then
    (some ("Missing cancellation reason for tasks: " ++ ", ".intercalate missingReasons ++
      ". Every task requires a per-task reason."), store)
  else if !input.approvedByUser then
    (some ("approvedByUser must be true. You must present cancellations to the user and obtain explicit approval " ++
      "before calling this tool."), store)
  else if (Utils.trim input.approvalEvidence.toList).isEmpty then
    (some "approvalEvidence is required. Describe how the user approved (e.g., question tool response).", store)
  else
    let (unknown, checked) := unknownTaskIds targets store
    match unknown with
    | [] => (none, checked)
    | [taskId] => (some ("Task ID not found: '" ++ taskId ++ "'. No tasks were cancelled."), checked)
    | _ =>
      let quoted := unknown.map fun taskId => "'" ++ taskId ++ "'"
      (some ("Task IDs not found: " ++ ", ".intercalate quoted ++ ". No tasks were cancelled."), checked)

def cancelTask (input : CancelInput) (taskId : String) (change : BatchChange) : BatchChange :=
  { change with tasks := change.tasks.map fun task =>
      if task.id = taskId then
        { task with status := .cancelled, completed_at := some input.now, notes := input.reasons taskId }
      else task }

/-- The commit reads the change that is stored by then; without the task in it the verification fails. -/
def cancelOne (input : CancelInput) (target : BatchTarget) (store : BatchStore) : BatchTurn × BatchStore :=
  let seen := target.beforeLoad store
  match seen.changeOf target.id with
  | none => (⟨target.id, false, false, some ("Task not found: " ++ target.id)⟩, seen)
  | some changeId =>
    let now := target.beforeWrite seen
    match now.load changeId with
    | .error error => (⟨target.id, false, false, some error⟩, now)
    | .ok none => (⟨target.id, false, false, some ("Change not found: " ++ changeId)⟩, now)
    | .ok (some latest) =>
      let known := latest.hasTask target.id
      let cancelled := now.save (cancelTask input target.id latest)
      match target.fate with
      | .clean => (⟨target.id, known, known, if known then none else some "Projection verification failed"⟩, cancelled)
      | .failed error => (⟨target.id, known, false, some error⟩, now)
      | .writtenThenFailed error => (⟨target.id, known, known, some error⟩, cancelled)

def advTaskCancel (input : CancelInput) (targets : List BatchTarget) (dryRun : Bool) (store : BatchStore) :
    BatchOutcome :=
  match cancelRefusal input targets store with
  | (some error, _) => .refused (targets.map fun target => (target.id, error))
  | (none, checked) =>
    .served (if dryRun then [] else (trace (cancelOne input) targets checked).map Record.response)

/-! ## All or nothing -/

/-- All targets are written or none is; none is where one may not be as its turn comes; and the results tell which. -/
structure Atomic (turns : List BatchTurn) : Prop where
  together : (∀ turn ∈ turns, turn.written = true) ∨ ∀ turn ∈ turns, turn.written = false
  guarded : (∃ turn ∈ turns, turn.valid = false) → ∀ turn ∈ turns, turn.written = false
  exact : ∀ turn ∈ turns, turn.error.isNone = turn.written

def CommitFate.writes : CommitFate → Bool
  | .clean | .writtenThenFailed _ => true
  | .failed _ => false

def CommitFate.isClean : CommitFate → Bool
  | .clean => true
  | .failed _ | .writtenThenFailed _ => false

/-- Whether the target is found as its turn comes, and whether it may be written a moment later. -/
structure TurnFacts where
  found : Bool
  valid : Bool

def closeFacts (target : BatchTarget) (store : BatchStore) : TurnFacts where
  found := ((target.beforeLoad store).load target.id).toOption.join.isSome
  valid := (closeRefusal (target.beforeWrite (target.beforeLoad store)) target.id).isNone

def cancelFacts (target : BatchTarget) (store : BatchStore) : TurnFacts :=
  let seen := target.beforeLoad store
  let known := (seen.changeOf target.id).any fun changeId =>
    ((target.beforeWrite seen).load changeId).toOption.join.any fun latest => latest.hasTask target.id
  ⟨known, known⟩

/-- Every target is found and may be written, and no commit fails; or nothing is written at any turn. -/
def GoodRun (facts : BatchTarget → BatchStore → TurnFacts) (steps : List (Record BatchStore BatchTarget BatchTurn)) :
    Prop :=
  (∀ step ∈ steps, (facts step.request step.before).found = true ∧ (facts step.request step.before).valid = true ∧
    step.request.fate.isClean = true) ∨
  ∀ step ∈ steps, (facts step.request step.before).found = false ∨ step.request.fate.writes = false

structure TurnOf (facts : TurnFacts) (fate : CommitFate) (turn : BatchTurn) : Prop where
  written : turn.written = (facts.found && fate.writes)
  told : turn.error.isNone = (facts.found && fate.isClean)
  valid : turn.valid = (facts.found && facts.valid)

theorem closeOne_turn (closure : String) (target : BatchTarget) (store : BatchStore) :
    TurnOf (closeFacts target store) target.fate (closeOne closure target store).1 := by
  unfold closeOne closeFacts
  dsimp only
  cases (target.beforeLoad store).load target.id with
  | error error => exact ⟨rfl, rfl, rfl⟩
  | ok found =>
    cases found with
    | none => exact ⟨rfl, rfl, rfl⟩
    | some change => cases target.fate <;> exact ⟨rfl, rfl, rfl⟩

theorem cancelOne_turn (input : CancelInput) (target : BatchTarget) (store : BatchStore) :
    TurnOf (cancelFacts target store) target.fate (cancelOne input target store).1 := by
  unfold cancelOne cancelFacts
  dsimp only
  cases (target.beforeLoad store).changeOf target.id with
  | none => exact ⟨rfl, rfl, rfl⟩
  | some changeId =>
    dsimp only [Option.any_some]
    cases (target.beforeWrite (target.beforeLoad store)).load changeId with
    | error error => exact ⟨rfl, rfl, rfl⟩
    | ok found =>
      cases found with
      | none => exact ⟨rfl, rfl, rfl⟩
      | some latest =>
        dsimp only [Except.toOption, Option.join_some, Option.any_some]
        cases latest.hasTask target.id <;> cases target.fate <;> exact ⟨rfl, rfl, rfl⟩

theorem atomic_iff {serve : BatchTarget → BatchStore → BatchTurn × BatchStore}
    {facts : BatchTarget → BatchStore → TurnFacts}
    (turnOf : ∀ target store, TurnOf (facts target store) target.fate (serve target store).1)
    (targets : List BatchTarget) (store : BatchStore) :
    Atomic ((trace serve targets store).map Record.response) ↔ GoodRun facts (trace serve targets store) := by
  have turn : ∀ step ∈ trace serve targets store,
      TurnOf (facts step.request step.before) step.request.fate step.response := by
    intro step member
    rw [trace_step member]
    exact turnOf _ _
  generalize trace serve targets store = steps at turn
  constructor
  · rintro ⟨together, guarded, exact⟩
    simp only [List.forall_mem_map] at together guarded exact
    rcases together with all | none
    · refine .inl fun step member => ?_
      have wrote := all step member
      have told := (exact step member).trans wrote
      have valid : step.response.valid = true := by
        by_contra invalid
        have unwritten := guarded ⟨_, List.mem_map_of_mem member, Bool.eq_false_iff.mpr invalid⟩ step member
        cases wrote.symm.trans unwritten
      rw [(turn step member).told, Bool.and_eq_true] at told
      rw [(turn step member).valid, Bool.and_eq_true] at valid
      exact ⟨told.1, valid.2, told.2⟩
    · exact .inr fun step member => Bool.and_eq_false_iff.mp ((turn step member).written.symm.trans (none step member))
  · have told_written : ∀ fate : CommitFate, fate.isClean = true → fate.writes = true := by
      rintro (_ | _ | _) <;> simp [CommitFate.isClean, CommitFate.writes]
    rintro (clean | idle)
    · have all : ∀ step ∈ steps, step.response.written = true ∧ step.response.error.isNone = true ∧
          step.response.valid = true := by
        intro step member
        obtain ⟨found, valid, isClean⟩ := clean step member
        rw [(turn step member).written, (turn step member).told, (turn step member).valid]
        simp [found, valid, isClean, told_written _ isClean]
      refine ⟨.inl ?_, ?_, ?_⟩ <;> simp only [List.forall_mem_map]
      · exact fun step member => (all step member).1
      · rintro ⟨_, listed, invalid⟩
        obtain ⟨step, member, rfl⟩ := List.mem_map.mp listed
        cases (all step member).2.2.symm.trans invalid
      · exact fun step member => (all step member).2.1.trans (all step member).1.symm
    · have none : ∀ step ∈ steps, step.response.written = false ∧ step.response.error.isNone = false := by
        intro step member
        rw [(turn step member).written, (turn step member).told]
        have told := told_written step.request.fate
        rcases idle step member with missing | fails
        · simp [missing]
        · cases isClean : step.request.fate.isClean <;> simp_all
      refine ⟨.inr ?_, fun _ => ?_, ?_⟩ <;> simp only [List.forall_mem_map]
      · exact fun step member => (none step member).1
      · exact fun step member => (none step member).1
      · exact fun step member => (none step member).2.trans (none step member).1.symm

theorem atomic_nil : Atomic [] := ⟨.inl nofun, nofun, nofun⟩

/-- A batch is atomic exactly where its checks refuse it, or where its turns make a good run. -/
theorem batch_atomic_iff (targets : List BatchTarget) (store : BatchStore) :
    (∀ closure, Atomic (closeBatch closure targets store).turns ↔
      ∀ checked, preValidate targets store = (none, checked) →
        GoodRun closeFacts (trace (closeOne closure) targets checked)) ∧
    ∀ input dryRun, Atomic (advTaskCancel input targets dryRun store).turns ↔
      (dryRun = false → ∀ checked, cancelRefusal input targets store = (none, checked) →
        GoodRun cancelFacts (trace (cancelOne input) targets checked)) := by
  constructor
  · intro closure
    unfold closeBatch
    split
    next refused => exact iff_of_true atomic_nil (by simp [refused])
    next checked passed => simpa [BatchOutcome.turns, passed] using atomic_iff (closeOne_turn closure) targets checked
  · intro input dryRun
    unfold advTaskCancel
    split
    next refused => exact iff_of_true atomic_nil (by simp [refused])
    next checked passed =>
      cases dryRun with
      | true => exact iff_of_true atomic_nil nofun
      | false => simpa [BatchOutcome.turns, passed] using atomic_iff (cancelOne_turn input) targets checked

/-! ## Fixed runs -/

def batchTarget (id : String) (fate : CommitFate) : BatchTarget :=
  ⟨id, fun store => store, fun store => store, fun store => store, fate⟩

/-- The second commit fails, and the first change stays closed. -/
theorem half_closed : ¬Atomic (closeBatch "cancelled"
    [batchTarget "addSearch" .clean, batchTarget "fixLogin" (.failed "ENOSPC")]
    ⟨[], fun id => .ok (some ⟨id, .draft, none, []⟩)⟩).turns := by
  rintro ⟨all | none, -, -⟩
  · cases all _ (.tail _ (.head _))
  · cases none _ (.head _)

end Advance.Tools
