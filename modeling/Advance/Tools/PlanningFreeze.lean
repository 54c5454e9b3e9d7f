import Mathlib.Data.List.Perm.Subperm
import Advance.Foundation.SharedValue
import Advance.Tools.ChangeMutationCoordinator
import Advance.Tools.GateRace
import Advance.Tools.SubagentReport

/-! # Planning freezes the task list

`adv_task_add` looks at the planning gate, `adv_task_update` at the status of its task, and both commit later over
whatever is stored then.  A checkpoint commits its task as done; where git fails it writes back a whole change.
-/

namespace Advance.Tools

open Advance.Foundation Advance.JavaScript Advance.Types

/-! ## Tasks -/

inductive TddIntent where
  | inline
  | separate_verification
  | not_applicable
  deriving DecidableEq

structure RetriedError where
  last_error : String
  retry_count : Nat
  max_retries : Nat
  error_class : ErrorClass
  next_strategy : Option String
  attempts : Option (List JsVal)
  deriving DecidableEq

structure PlanTask where
  id : String
  title : String
  type : TaskType
  taskSection : Option String
  status : TaskStatus
  priority : Option Int
  created_at : String
  /-- The targets of `blocked_by`. -/
  deps : Option (List String)
  tdd_intent : Option TddIntent
  contract_refs : Option TaskContractRefs
  notes : Option String
  implementation_summary : Option String
  summary : Option String
  error_recovery : Option RetriedError
  assignedTo : Option String
  started_at : Option String
  completed_at : Option String
  verification : Option String
  checkpointSha : Option String
  filesTouched : Option (List String)
  deriving DecidableEq

structure PlanProjection where
  gates : Option Gates
  tasks : List PlanTask

/-- `gates && gates.planning.status === "done"` -/
def planningDone (projection : PlanProjection) : Bool :=
  projection.gates.any fun gates => (gates .planning).status = .done

def PlanProjection.read (projection : PlanProjection) : Gates := projection.gates.getD createDefaultGates

def PlanProjection.find (projection : PlanProjection) (taskId : String) : Option PlanTask :=
  projection.tasks.find? (·.id = taskId)

def PlanProjection.mapTask (projection : PlanProjection) (taskId : String) (mutate : PlanTask → PlanTask) :
    PlanProjection :=
  { projection with tasks := projection.tasks.map fun task => if task.id = taskId then mutate task else task }

def PlanProjection.taskIds (projection : PlanProjection) : List String := projection.tasks.map PlanTask.id

def textual (text : Option String) : Option String := text.filter (· ≠ "")

/-! ## Calls -/

structure AddCall where
  content : String
  type : Option TaskType
  taskSection : Option String
  tdd_intent : Option TddIntent
  contract_refs : Option TaskContractRefs
  blockedBy : Option (List String)
  /-- `makeTaskId()` -/
  taskId : String
  now : String

structure UpdateCall where
  taskId : String
  status : TaskStatus
  notes : Option String
  implementation_summary : Option String
  error_recovery : Option RetriedError
  /-- The intent of an approved reclassification. -/
  tdd_intent : Option TddIntent
  contract_refs : Option TaskContractRefs
  now : String

structure CheckpointCall where
  taskId : String
  /-- `mode === "complete"` -/
  complete : Bool
  sha : String
  verification : String
  touchedFiles : List String
  errorClass : ErrorClass
  /-- What the task keeps of the message of a failure of git. -/
  lastError : String
  now : String

inductive PlanCall where
  | add (call : AddCall)
  | update (call : UpdateCall)
  | completeGate (call : CompleteCall)
  | checkpoint (call : CheckpointCall)

/-- `content.split("\n")[0] || content` -/
def AddCall.title (call : AddCall) : String :=
  let line := String.ofList (call.content.toList.takeWhile (· ≠ '\n'))
  if line = "" then call.content else line

def defaultIntent : TaskType → TddIntent
  | .code => .inline
  | .verification => .separate_verification
  | .docs | .research | .approval | .ops => .not_applicable

def nextPriority (tasks : List PlanTask) : Int :=
  match (tasks.map fun task => task.priority.getD 0).max? with
  | none => 0
  | some top => top + 1

def AddCall.task (call : AddCall) (tasks : List PlanTask) : PlanTask where
  id := call.taskId
  title := call.title
  type := call.type.getD .code
  taskSection := call.taskSection
  status := .pending
  priority := some (nextPriority tasks)
  created_at := call.now
  deps := call.blockedBy
  tdd_intent := some (call.tdd_intent.getD (defaultIntent (call.type.getD .code)))
  contract_refs := call.contract_refs
  notes := none
  implementation_summary := none
  summary := none
  error_recovery := none
  assignedTo := none
  started_at := none
  completed_at := none
  verification := none
  checkpointSha := none
  filesTouched := none

def AddCall.unknownTasks (call : AddCall) (projection : PlanProjection) : List String :=
  (call.blockedBy.getD []).filter fun target => target ∉ projection.taskIds

/-- `mutateRecoveredTask` -/
def UpdateCall.patch (call : UpdateCall) (task : PlanTask) : PlanTask :=
  let patched :=
    { task with
      status := call.status
      notes := (textual call.notes).or task.notes
      implementation_summary := (textual call.implementation_summary).or task.implementation_summary
      summary := (textual call.implementation_summary).or task.summary
      error_recovery := call.error_recovery.or task.error_recovery
      contract_refs := call.contract_refs.or task.contract_refs
      tdd_intent := call.tdd_intent.or task.tdd_intent }
  match call.status with
  | .in_progress =>
    { patched with assignedTo := some "agent", started_at := some (task.started_at.getD call.now) }
  | .done =>
    { patched with
      completed_at := some call.now
      verification := some
        (call.notes.getD (call.implementation_summary.getD "Task marked done via adv_task_update")) }
  | _ => patched

/-- `shouldPatchExistingDoneTask` -/
def UpdateCall.patchesDone (call : UpdateCall) (seen : Option TaskStatus) : Bool :=
  call.contract_refs.isSome && call.status = .done && seen = some .done

def CheckpointCall.completed (call : CheckpointCall) (task : PlanTask) : PlanTask :=
  { task with
    status := .done
    verification := some call.verification
    summary := some call.verification
    completed_at := some call.now
    checkpointSha := some call.sha
    filesTouched := some call.touchedFiles }

def CheckpointCall.recorded (call : CheckpointCall) (readback : PlanProjection) : Bool :=
  (readback.find call.taskId).any fun task =>
    task.status = .done && task.verification = some call.verification && task.checkpointSha = some call.sha &&
      task.filesTouched.getD [] = call.touchedFiles

/-- `tasks.update`, with the status and the recovery of an earlier read of the task. -/
def CheckpointCall.bridge (call : CheckpointCall) (seen task : PlanTask) : PlanTask :=
  { task with
    status := seen.status
    started_at := if seen.status = .in_progress then some ((textual task.started_at).getD call.now) else task.started_at
    completed_at := if seen.status = .done ∨ seen.status = .cancelled then some call.now else task.completed_at
    error_recovery := some
      { last_error := call.lastError
        retry_count := (seen.error_recovery.map RetriedError.retry_count).getD 0
        max_retries := (seen.error_recovery.map RetriedError.max_retries).getD 3
        error_class := call.errorClass
        next_strategy := textual (seen.error_recovery.bind RetriedError.next_strategy)
        attempts := seen.error_recovery.bind RetriedError.attempts } }

/-- The task found is changed, no other of its id. -/
def replaceFirst (taskId : String) (mutate : PlanTask → PlanTask) : List PlanTask → List PlanTask
  | [] => []
  | task :: rest => if task.id = taskId then mutate task :: rest else task :: replaceFirst taskId mutate rest

/-! ## Steps -/

inductive PlanAnswer where
  | afterPlanning
  | unknownTasks (ids : List String)
  | noTask
  | cancellationNotAllowed
  | doneRequiresCheckpoint
  | blocked (gates : List GateId)
  | committed
  | notCommitted
  | nothingToRecord
  | gitFailed
  | stopped
  deriving DecidableEq

inductive PlanPhase where
  | idle
  | unlocked
  | depending
  | adding (task : PlanTask)
  | resolved
  | updating (seen : Option TaskStatus)
  | completing (seen : Gates)
  | recording
  | bridging (seen : PlanTask)
  | bridged (seen : PlanTask) (copy : PlanProjection)
  | finished (answer : PlanAnswer)

/-- A call goes on; its load of the gates fails, which it takes for no gates; git fails; or another check of the
    tool stops it. -/
inductive PlanChoice where
  | goesOn (fate : MutationFate)
  | unread
  | gitFails
  | stops

def committedIf (told : Bool) : PlanPhase := .finished (if told then .committed else .notCommitted)

def MutationFate.commitPlan (fate : MutationFate) (mutateLatest : PlanProjection → PlanProjection)
    (verify : PlanProjection → Bool) (latest : PlanProjection) : PlanPhase × PlanProjection :=
  let (next, told) := fate.commit (fun latest => some (mutateLatest latest)) verify latest
  (committedIf told, next)

def AddCall.advance (call : AddCall) (choice : PlanChoice) (phase : PlanPhase) (projection : PlanProjection) :
    PlanPhase × PlanProjection :=
  match phase, choice with
  | .idle, .unread => (.unlocked, projection)
  | .idle, .goesOn _ =>
    (if planningDone projection then .finished .afterPlanning else .unlocked, projection)
  | .unlocked, .goesOn _ =>
    (match call.unknownTasks projection with
      | [] => .depending
      | unknown => .finished (.unknownTasks unknown), projection)
  | .depending, .goesOn _ => (.adding (call.task projection.tasks), projection)
  | .adding task, .goesOn fate =>
    -- The gates of the latest projection are not looked at.
    fate.commitPlan (fun latest => { latest with tasks := latest.tasks ++ [task] })
      (fun readback => readback.tasks.any (·.id = task.id)) projection
  | _, _ => (.finished .stopped, projection)

def UpdateCall.advance (call : UpdateCall) (choice : PlanChoice) (phase : PlanPhase) (projection : PlanProjection) :
    PlanPhase × PlanProjection :=
  match phase, choice with
  | .idle, .goesOn _ => (if (projection.find call.taskId).isSome then .resolved else .finished .noTask, projection)
  | .resolved, .goesOn _ =>
    let seen := (projection.find call.taskId).map PlanTask.status
    (if call.status = .cancelled then .finished .cancellationNotAllowed
      else if call.status = .done && !call.patchesDone seen then .finished .doneRequiresCheckpoint
      else .updating seen, projection)
  | .updating _, .goesOn fate =>
    fate.commitPlan (fun latest => latest.mapTask call.taskId call.patch)
      (fun readback => (readback.find call.taskId).any fun task => task = call.patch task) projection
  | _, _ => (.finished .stopped, projection)

def CompleteCall.advance (call : CompleteCall) (choice : PlanChoice) (phase : PlanPhase)
    (projection : PlanProjection) : PlanPhase × PlanProjection :=
  match phase, choice with
  | .idle, .goesOn _ =>
    (if canCompleteGate projection.read call.gateId then .completing projection.read
      else .finished (.blocked (blockedBy projection.read call.gateId)), projection)
  | .completing _, .goesOn fate =>
    fate.commitPlan
      (fun latest => { latest with gates := some (Function.update latest.read call.gateId call.completion) })
      (fun readback => readback.gates.any fun gates =>
        (gates call.gateId).status = .done && (gates call.gateId).completed_at = some call.now) projection
  | _, _ => (.finished .stopped, projection)

def CheckpointCall.advance (call : CheckpointCall) (choice : PlanChoice) (phase : PlanPhase)
    (projection : PlanProjection) : PlanPhase × PlanProjection :=
  match phase, choice with
  | .idle, .goesOn _ =>
    (if call.complete then if (projection.find call.taskId).isSome then .recording else .finished .noTask
      else .finished .nothingToRecord, projection)
  | .idle, .gitFails =>
    (match projection.find call.taskId with
      | none => .finished .gitFailed
      | some seen => .bridging seen, projection)
  | .recording, .goesOn fate =>
    fate.commitPlan (fun latest => latest.mapTask call.taskId call.completed) call.recorded projection
  | .bridging seen, .goesOn _ =>
    (if (projection.find call.taskId).isSome then .bridged seen projection else .finished .gitFailed, projection)
  | .bridged seen copy, .goesOn fate =>
    -- The whole copy is saved, outside the lock.
    (.finished .gitFailed,
      if fate = .untouched then projection
      else { copy with tasks := replaceFirst call.taskId (call.bridge seen) copy.tasks })
  | _, _ => (.finished .stopped, projection)

section

variable {ι : Type} [DecidableEq ι] (calls : ι → PlanCall)

def planAdvance (i : ι) (choice : PlanChoice) (phase : PlanPhase) (projection : PlanProjection) :
    PlanPhase × PlanProjection :=
  match phase with
  | .finished answer => (.finished answer, projection)
  | _ =>
    match calls i with
    | .add call => call.advance choice phase projection
    | .update call => call.advance choice phase projection
    | .completeGate call => call.advance choice phase projection
    | .checkpoint call => call.advance choice phase projection

abbrev PlanRace (ι : Type) := Shared ι PlanProjection PlanPhase

abbrev PlanMove (ι : Type) := SharedMove ι PlanChoice (PlanProjection → PlanProjection)

/-- A step of a call, or of another writer, as the reopening of a gate. -/
def planStep : PlanMove ι → PlanRace ι → Unit × PlanRace ι :=
  sharedStep (planAdvance calls) fun event projection => event projection

abbrev PlanRecord (ι : Type) := Record (PlanRace ι) (PlanMove ι) Unit

/-! ## What is claimed -/

def DoneIn (projection : PlanProjection) (taskId : String) : Prop :=
  ∃ task ∈ projection.tasks, task.id = taskId ∧ task.status = .done

instance (projection : PlanProjection) (taskId : String) : Decidable (DoneIn projection taskId) :=
  inferInstanceAs (Decidable (∃ task ∈ projection.tasks, task.id = taskId ∧ task.status = .done))

structure FreezeKept (step : PlanRecord ι) : Prop where
  frozen : ∀ i choice, step.request = .party i choice → planningDone step.before.value = true →
    step.after.value.taskIds.Subperm step.before.value.taskIds
  checkpointed : ∀ i choice, step.request = .party i choice → ∀ taskId, DoneIn step.after.value taskId →
    DoneIn step.before.value taskId ∨
      ∃ call, calls i = .checkpoint call ∧ call.taskId = taskId ∧ step.before.party i = .recording

/-! ## Where it holds -/

/-- An add between its check of the gates and its commit. -/
def PlanPhase.isAdding : PlanPhase → Bool
  | .unlocked | .depending | .adding _ => true
  | _ => false

def PatchesDone (taskId : String) (call : PlanCall) (phase : PlanPhase) : Prop :=
  ∃ update seen, call = .update update ∧ phase = .updating seen ∧ update.taskId = taskId ∧ update.status = .done

/-- The write of a bridge overlooks nothing that happened since its reads: no task was removed, and none that was
    done has been taken from it. -/
def BridgeCurrent (taskId : String) (seen : PlanTask) (copy stored : PlanProjection) : Prop :=
  copy.taskIds.Subperm stored.taskIds ∧ (∀ id, DoneIn copy id → DoneIn stored id) ∧
    (seen.status = .done → DoneIn stored taskId)

/-- Planning is not completed while an add is between its check and its commit, nor is a task taken from done
    while a patch of it is; the gates are not unreadable to an add when planning is done; and a bridge overlooks
    nothing. -/
structure Unhurried (step : PlanRecord ι) : Prop where
  planning : ∀ i, (step.before.party i).isAdding = true → planningDone step.after.value = true →
    planningDone step.before.value = true
  done : ∀ i taskId, PatchesDone taskId (calls i) (step.before.party i) → DoneIn step.before.value taskId →
    DoneIn step.after.value taskId
  readable : ∀ i call, step.request = .party i .unread → calls i = .add call → step.before.party i = .idle →
    planningDone step.before.value = false
  bridge : ∀ i fate call seen copy, step.request = .party i (.goesOn fate) → calls i = .checkpoint call →
    step.before.party i = .bridged seen copy → fate ≠ .untouched →
    BridgeCurrent call.taskId seen copy step.before.value

end

/-! ## Projections -/

variable {mutate : PlanTask → PlanTask}

theorem taskIds_mapTask (projection : PlanProjection) (taskId : String)
    (kept : ∀ task, (mutate task).id = task.id) : (projection.mapTask taskId mutate).taskIds = projection.taskIds := by
  simp only [PlanProjection.taskIds, PlanProjection.mapTask, List.map_map]
  refine List.map_congr_left fun task _ => ?_
  dsimp only [Function.comp_apply]
  split
  · exact kept task
  · rfl

theorem doneIn_mapTask {projection : PlanProjection} {taskId id : String}
    (kept : ∀ task, (mutate task).id = task.id) (done : DoneIn (projection.mapTask taskId mutate) id) :
    DoneIn projection id ∨ (taskId = id ∧ ∃ task, (mutate task).status = .done) := by
  obtain ⟨_, member, named, finished⟩ := done
  obtain ⟨task, held, rfl⟩ := List.mem_map.mp member
  by_cases same : task.id = taskId
  · rw [if_pos same] at named finished
    exact .inr ⟨by rw [← same, ← kept, named], task, finished⟩
  · rw [if_neg same] at named finished
    exact .inl ⟨task, held, named, finished⟩

theorem UpdateCall.patch_id (call : UpdateCall) (task : PlanTask) : (call.patch task).id = task.id := by
  unfold UpdateCall.patch
  split <;> rfl

theorem UpdateCall.patch_status (call : UpdateCall) (task : PlanTask) : (call.patch task).status = call.status := by
  unfold UpdateCall.patch
  split <;> rfl

theorem replaceFirst_ids (taskId : String) (kept : ∀ task, (mutate task).id = task.id)
    (tasks : List PlanTask) : (replaceFirst taskId mutate tasks).map PlanTask.id = tasks.map PlanTask.id := by
  induction tasks with
  | nil => rfl
  | cons task rest ih =>
    simp only [replaceFirst]
    split
    · simp [kept]
    · simp [ih]

theorem mem_replaceFirst {taskId : String} {tasks : List PlanTask} {task : PlanTask}
    (member : task ∈ replaceFirst taskId mutate tasks) :
    task ∈ tasks ∨ ∃ old ∈ tasks, old.id = taskId ∧ task = mutate old := by
  induction tasks with
  | nil => cases member
  | cons head rest ih =>
    simp only [replaceFirst] at member
    split at member
    next same =>
      rcases List.mem_cons.mp member with rfl | member
      · exact .inr ⟨head, List.mem_cons_self, same, rfl⟩
      · exact .inl (List.mem_cons_of_mem _ member)
    next =>
      rcases List.mem_cons.mp member with rfl | member
      · exact .inl List.mem_cons_self
      · rcases ih member with inside | ⟨old, inside, same⟩
        · exact .inl (List.mem_cons_of_mem _ inside)
        · exact .inr ⟨old, List.mem_cons_of_mem _ inside, same⟩

theorem doneIn_of_find {projection : PlanProjection} {taskId : String}
    (found : (projection.find taskId).map PlanTask.status = some .done) : DoneIn projection taskId := by
  obtain ⟨task, held, finished⟩ := Option.map_eq_some_iff.mp found
  exact ⟨task, List.mem_of_find?_eq_some held, by simpa using List.find?_some held, finished⟩

theorem CheckpointCall.completed_id (call : CheckpointCall) (task : PlanTask) : (call.completed task).id = task.id :=
  rfl

theorem CheckpointCall.bridge_id (call : CheckpointCall) (seen task : PlanTask) :
    (call.bridge seen task).id = task.id := rfl

/-! ## What a step writes -/

/-- What a step of a call makes of the projection it finds. -/
inductive PlanWrites (call : PlanCall) (choice : PlanChoice) (phase : PlanPhase) (projection : PlanProjection) :
    PlanProjection → Prop
  | nothing : PlanWrites call choice phase projection projection
  | added (task : PlanTask) (adding : phase = .adding task) :
      PlanWrites call choice phase projection { projection with tasks := projection.tasks ++ [task] }
  | patched (update : UpdateCall) (seen : Option TaskStatus) (isUpdate : call = .update update)
      (updating : phase = .updating seen) :
      PlanWrites call choice phase projection (projection.mapTask update.taskId update.patch)
  | gated (gates : Option Gates) : PlanWrites call choice phase projection { projection with gates := gates }
  | completed (checkpoint : CheckpointCall) (isCheckpoint : call = .checkpoint checkpoint)
      (recording : phase = .recording) :
      PlanWrites call choice phase projection (projection.mapTask checkpoint.taskId checkpoint.completed)
  | bridged (checkpoint : CheckpointCall) (fate : MutationFate) (seen : PlanTask) (copy : PlanProjection)
      (isCheckpoint : call = .checkpoint checkpoint) (goesOn : choice = .goesOn fate) (touched : fate ≠ .untouched)
      (loaded : phase = .bridged seen copy) :
      PlanWrites call choice phase projection
        { copy with tasks := replaceFirst checkpoint.taskId (checkpoint.bridge seen) copy.tasks }

theorem commitPlan_cases (fate : MutationFate) (mutateLatest : PlanProjection → PlanProjection)
    (verify : PlanProjection → Bool) (latest : PlanProjection) :
    (fate.commitPlan mutateLatest verify latest).2 = latest ∨
      (fate.commitPlan mutateLatest verify latest).2 = mutateLatest latest := by
  unfold MutationFate.commitPlan
  rcases fate.commit_cases (fun latest => some (mutateLatest latest)) verify latest with same | ⟨next, told, made, _, same, _⟩
  · exact .inl (congrArg Prod.fst same)
  · exact .inr ((congrArg Prod.fst same).trans (Option.some.inj made).symm)

section

variable {ι : Type} {calls : ι → PlanCall} {i : ι} {choice : PlanChoice} {phase : PlanPhase}
  {projection : PlanProjection}

theorem planAdvance_writes :
    PlanWrites (calls i) choice phase projection (planAdvance calls i choice phase projection).2 := by
  unfold planAdvance
  split
  · exact .nothing
  split
  next call isCall =>
    unfold AddCall.advance
    split
    · exact .nothing
    · exact .nothing
    · exact .nothing
    · exact .nothing
    next task fate _ =>
      rcases commitPlan_cases fate (fun latest => { latest with tasks := latest.tasks ++ [task] })
        (fun readback => readback.tasks.any (·.id = task.id)) projection with same | same
      · rw [same]; exact .nothing
      · rw [same]; exact .added task rfl
    · exact .nothing
  next call isCall =>
    rw [isCall]
    unfold UpdateCall.advance
    split
    · exact .nothing
    · exact .nothing
    next seen fate _ =>
      rcases commitPlan_cases fate (fun latest => latest.mapTask call.taskId call.patch)
        (fun readback => (readback.find call.taskId).any fun task => task = call.patch task) projection with same | same
      · rw [same]; exact .nothing
      · rw [same]; exact .patched call seen rfl rfl
    · exact .nothing
  next call isCall =>
    unfold CompleteCall.advance
    split
    · exact .nothing
    next seen fate _ =>
      rcases commitPlan_cases fate
        (fun latest => { latest with gates := some (Function.update latest.read call.gateId call.completion) })
        (fun readback => readback.gates.any fun gates =>
          (gates call.gateId).status = .done && (gates call.gateId).completed_at = some call.now) projection
        with same | same
      · rw [same]; exact .nothing
      · rw [same]; exact .gated _
    · exact .nothing
  next call isCall =>
    rw [isCall]
    unfold CheckpointCall.advance
    split
    · exact .nothing
    · exact .nothing
    next fate _ =>
      rcases commitPlan_cases fate (fun latest => latest.mapTask call.taskId call.completed) call.recorded projection
        with same | same
      · rw [same]; exact .nothing
      · rw [same]; exact .completed call rfl rfl
    · exact .nothing
    next seen copy fate _ =>
      dsimp only
      split
      · exact .nothing
      next touched => exact .bridged call fate seen copy rfl rfl touched rfl
    · exact .nothing

/-! ## What a call knows -/

structure PlanKnown (call : PlanCall) (projection : PlanProjection) (phase : PlanPhase) : Prop where
  planning : phase.isAdding = true → planningDone projection = false
  patched : ∀ taskId, PatchesDone taskId call phase → DoneIn projection taskId
  pending : ∀ task, phase = .adding task → task.status = .pending

theorem PlanKnown.finished (call : PlanCall) (projection : PlanProjection) (answer : PlanAnswer) :
    PlanKnown call projection (.finished answer) := by
  exact ⟨nofun, fun _ ⟨_, _, _, phase, _⟩ => (nomatch phase), fun _ phase => nomatch phase⟩

theorem PlanKnown.committed (call : PlanCall) (fate : MutationFate) (mutateLatest : PlanProjection → PlanProjection)
    (verify : PlanProjection → Bool) (latest projection : PlanProjection) :
    PlanKnown call projection (fate.commitPlan mutateLatest verify latest).1 := .finished ..

theorem PlanKnown.plain (call : PlanCall) (projection : PlanProjection) {phase : PlanPhase}
    (idle : phase.isAdding = false) (unpatched : ∀ seen, phase ≠ .updating seen) :
    PlanKnown call projection phase := by
  refine ⟨fun adding => ?_, fun _ ⟨_, seen, _, updating, _⟩ => absurd updating (unpatched seen), ?_⟩
  · rw [idle] at adding
    cases adding
  · rintro task rfl
    cases idle

theorem AddCall.advance_known {call : AddCall} (known : PlanKnown (.add call) projection phase)
    (readable : choice = .unread → phase = .idle → planningDone projection = false) :
    PlanKnown (.add call) (call.advance choice phase projection).2 (call.advance choice phase projection).1 := by
  have unpatched : ∀ phase projection taskId, PatchesDone taskId (.add call) phase → DoneIn projection taskId :=
    fun _ _ _ ⟨_, _, isUpdate, _⟩ => nomatch isUpdate
  unfold AddCall.advance
  split
  next => exact ⟨fun _ => readable rfl rfl, unpatched _ _, fun _ phase => nomatch phase⟩
  next =>
    dsimp only
    split
    · exact .finished ..
    next open' => exact ⟨fun _ => by simpa using open', unpatched _ _, fun _ phase => nomatch phase⟩
  next =>
    dsimp only
    split
    · exact ⟨fun _ => known.planning rfl, unpatched _ _, fun _ phase => nomatch phase⟩
    · exact .finished ..
  next =>
    refine ⟨fun _ => known.planning rfl, unpatched _ _, ?_⟩
    rintro task ⟨⟩
    rfl
  next => exact .committed ..
  next => exact .finished ..

theorem UpdateCall.advance_known {call : UpdateCall} :
    PlanKnown (.update call) (call.advance choice phase projection).2 (call.advance choice phase projection).1 := by
  unfold UpdateCall.advance
  split
  next =>
    dsimp only
    split
    · exact .plain _ _ rfl fun _ phase => nomatch phase
    · exact .finished ..
  next =>
    dsimp only
    split
    · exact .finished ..
    split
    · exact .finished ..
    next checked =>
      refine ⟨nofun, ?_, fun _ phase => nomatch phase⟩
      rintro _ ⟨_, _, ⟨⟩, _, rfl, done⟩
      refine doneIn_of_find ?_
      simp only [UpdateCall.patchesDone, done, decide_true, Bool.and_true, Bool.true_and, Bool.not_eq_true',
        Bool.not_eq_false, Bool.and_eq_true, decide_eq_true_eq] at checked
      exact checked.2
  next => exact .committed ..
  next => exact .finished ..

theorem CompleteCall.advance_known {call : CompleteCall} :
    PlanKnown (.completeGate call) (call.advance choice phase projection).2
      (call.advance choice phase projection).1 := by
  unfold CompleteCall.advance
  split
  next =>
    dsimp only
    split
    · exact .plain _ _ rfl fun _ phase => nomatch phase
    · exact .finished ..
  next => exact .committed ..
  next => exact .finished ..

theorem CheckpointCall.advance_known {call : CheckpointCall} :
    PlanKnown (.checkpoint call) (call.advance choice phase projection).2
      (call.advance choice phase projection).1 := by
  unfold CheckpointCall.advance
  split
  next =>
    dsimp only
    split
    · split
      · exact .plain _ _ rfl fun _ phase => nomatch phase
      · exact .finished ..
    · exact .finished ..
  next =>
    dsimp only
    split
    · exact .finished ..
    · exact .plain _ _ rfl fun _ phase => nomatch phase
  next => exact .committed ..
  next =>
    dsimp only
    split
    · exact .plain _ _ rfl fun _ phase => nomatch phase
    · exact .finished ..
  next => exact .finished ..
  next => exact .finished ..

theorem planAdvance_known (known : PlanKnown (calls i) projection phase)
    (readable : ∀ call, calls i = .add call → choice = .unread → phase = .idle → planningDone projection = false) :
    PlanKnown (calls i) (planAdvance calls i choice phase projection).2
      (planAdvance calls i choice phase projection).1 := by
  unfold planAdvance
  split
  · exact .finished ..
  split
  next call isCall =>
    rw [isCall] at known ⊢
    exact call.advance_known known (readable call isCall)
  next call isCall =>
    rw [isCall]
    exact call.advance_known
  next call isCall =>
    rw [isCall]
    exact call.advance_known
  next call isCall =>
    rw [isCall]
    exact call.advance_known

/-! ## Steps -/

theorem PlanWrites.kept {call : PlanCall} {next : PlanProjection} (writes : PlanWrites call choice phase projection next)
    (known : PlanKnown call projection phase)
    (current : ∀ fate checkpoint seen copy, choice = .goesOn fate → call = .checkpoint checkpoint →
      phase = .bridged seen copy → fate ≠ .untouched → BridgeCurrent checkpoint.taskId seen copy projection) :
    (planningDone projection = true → next.taskIds.Subperm projection.taskIds) ∧
      ∀ taskId, DoneIn next taskId → DoneIn projection taskId ∨
        ∃ checkpoint, call = .checkpoint checkpoint ∧ checkpoint.taskId = taskId ∧ phase = .recording := by
  cases writes with
  | nothing => exact ⟨fun _ => .refl _, fun _ done => .inl done⟩
  | added task adding =>
    subst adding
    refine ⟨fun done => ?_, ?_⟩
    · rw [known.planning rfl] at done
      cases done
    · rintro taskId ⟨held, member, named, finished⟩
      rcases List.mem_append.mp member with member | member
      · exact .inl ⟨held, member, named, finished⟩
      · cases List.mem_singleton.mp member
        rw [known.pending task rfl] at finished
        cases finished
  | patched update seen isUpdate updating =>
    subst isUpdate updating
    refine ⟨fun _ => ?_, fun taskId done => ?_⟩
    · rw [taskIds_mapTask _ _ update.patch_id]
    · rcases doneIn_mapTask update.patch_id done with done | ⟨rfl, task, finished⟩
      · exact .inl done
      · rw [update.patch_status] at finished
        exact .inl (known.patched update.taskId ⟨update, seen, rfl, rfl, rfl, finished⟩)
  | gated gates => exact ⟨fun _ => .refl _, fun _ done => .inl done⟩
  | completed checkpoint isCheckpoint recording =>
    refine ⟨fun _ => ?_, fun taskId done => ?_⟩
    · rw [taskIds_mapTask _ _ checkpoint.completed_id]
    · rcases doneIn_mapTask checkpoint.completed_id done with done | ⟨named, _⟩
      · exact .inl done
      · exact .inr ⟨checkpoint, isCheckpoint, named, recording⟩
  | bridged checkpoint fate seen copy isCheckpoint goesOn touched loaded =>
    obtain ⟨listed, kept, held⟩ := current fate checkpoint seen copy goesOn isCheckpoint loaded touched
    refine ⟨fun _ => ?_, ?_⟩
    · rw [PlanProjection.taskIds, replaceFirst_ids _ (checkpoint.bridge_id seen)]
      exact listed
    · rintro taskId ⟨task, member, named, finished⟩
      rcases mem_replaceFirst member with inside | ⟨old, inside, same, rfl⟩
      · exact .inl (kept taskId ⟨task, inside, named, finished⟩)
      · have isTask : checkpoint.taskId = taskId := same.symm.trans named
        exact .inl (isTask ▸ held finished)

end

section

variable {ι : Type} [DecidableEq ι] {calls : ι → PlanCall}

theorem known_around {moves : List (PlanMove ι)} {projection : PlanProjection}
    (unhurried : ∀ step ∈ trace (planStep calls) moves ⟨projection, fun _ => .idle⟩, Unhurried calls step) :
    ∀ step ∈ trace (planStep calls) moves ⟨projection, fun _ => .idle⟩,
      ∀ i, PlanKnown (calls i) step.before.value (step.before.party i) := by
  have others : ∀ (i : ι) (step : PlanRecord ι), Unhurried calls step → PlanKnown (calls i) step.before.value
      (step.before.party i) → PlanKnown (calls i) step.after.value (step.before.party i) := by
    intro i step unhurried known
    refine ⟨fun adding => ?_, fun taskId patches => unhurried.done i taskId patches (known.patched taskId patches),
      known.pending⟩
    by_contra done
    have before := unhurried.planning i adding (by simpa using done)
    rw [known.planning adding] at before
    cases before
  have held : ∀ step ∈ trace (planStep calls) moves ⟨projection, fun _ => .idle⟩,
      Held (fun _ => True) (fun i value phase => PlanKnown (calls i) value phase) step.before ∧
        Held (fun _ => True) (fun i value phase => PlanKnown (calls i) value phase) step.after := by
    refine (held_run ?_ ?_ unhurried ⟨trivial, fun i => .plain _ _ rfl fun _ phase => nomatch phase⟩).1
    · intro i choice race unhurried held
      refine held.moved trivial (planAdvance_known (held.parties i) fun call isCall unread idle => ?_) ?_
      · exact unhurried.readable i call (by rw [unread]; rfl) isCall idle
      · exact fun j _ known => others j _ unhurried known
    · intro event race unhurried held
      exact ⟨trivial, fun i => others i _ unhurried (held.parties i)⟩
  exact fun step member => (held step member).1.parties

/-- In a run in which nothing comes between the reads of a call and its commit, no task is added after planning
    and none is finished but by its checkpoint. -/
theorem freeze_kept (calls : ι → PlanCall) (projection : PlanProjection) (moves : List (PlanMove ι))
    (unhurried : ∀ step ∈ trace (planStep calls) moves ⟨projection, fun _ => .idle⟩, Unhurried calls step) :
    ∀ step ∈ trace (planStep calls) moves ⟨projection, fun _ => .idle⟩, FreezeKept calls step := by
  intro step member
  have known := known_around unhurried step member
  have current := (unhurried step member).bridge
  have kept : ∀ i choice, step.request = .party i choice →
      (planningDone step.before.value = true → step.after.value.taskIds.Subperm step.before.value.taskIds) ∧
        ∀ taskId, DoneIn step.after.value taskId → DoneIn step.before.value taskId ∨
          ∃ checkpoint, calls i = .checkpoint checkpoint ∧ checkpoint.taskId = taskId ∧
            step.before.party i = .recording := by
    intro i choice request
    have writes : PlanWrites (calls i) choice (step.before.party i) step.before.value step.after.value := by
      rw [trace_step member, request]
      exact planAdvance_writes
    refine writes.kept (known i) fun fate checkpoint seen copy goesOn isCheckpoint loaded touched => ?_
    exact current i fate checkpoint seen copy (by rw [request, goesOn]) isCheckpoint loaded touched
  exact ⟨fun i choice request => (kept i choice request).1, fun i choice request => (kept i choice request).2⟩

end

/-! ## Fixed runs -/

def beforePlanning : PlanProjection where
  gates := some fun gateId =>
    if gateId.index < GateId.planning.index then ⟨.done, none, none, none⟩ else .pending
  tasks := []

def addition : AddCall where
  content := "Index the notes"
  type := none
  taskSection := none
  tdd_intent := none
  contract_refs := none
  blockedBy := none
  taskId := "tk-1"
  now := "2026-01-01T00:00:00.000Z"

def addAndPlan : Fin 2 → PlanCall
  | 0 => .add addition
  | 1 => .completeGate (completionOf .planning)

def goOn (i : Fin 2) : PlanMove (Fin 2) := .party i (.goesOn .verified)

/-- Planning is completed between the check of an add and its commit. -/
theorem added_after_planning :
    ¬ ∀ step ∈ trace (planStep addAndPlan) ([0, 0, 0, 1, 1, 0].map goOn) ⟨beforePlanning, fun _ => .idle⟩,
      FreezeKept addAndPlan step := by
  intro kept
  have frozen := (kept (Foundation.recordOf (planStep addAndPlan) (goOn 0)
    (stateAfter (planStep addAndPlan) ([0, 0, 0, 1, 1].map goOn) ⟨beforePlanning, fun _ => .idle⟩))
    (by simp [trace])).frozen 0 (.goesOn .verified) rfl (by rfl)
  have longer := frozen.length_le
  revert longer
  decide

/-- The add commits first. -/
theorem frozen_after_add : FreezeKept addAndPlan (Foundation.recordOf (planStep addAndPlan) (goOn 1)
      (stateAfter (planStep addAndPlan) ([0, 0, 0, 0, 1].map goOn) ⟨beforePlanning, fun _ => .idle⟩)) :=
  freeze_kept addAndPlan beforePlanning ([0, 0, 0, 0, 1, 1].map goOn) (by
    have planning : ∀ step ∈ trace (planStep addAndPlan) ([0, 0, 0, 0, 1, 1].map goOn) ⟨beforePlanning, fun _ => .idle⟩,
        ∀ i, (step.before.party i).isAdding = true → planningDone step.after.value = true →
          planningDone step.before.value = true := by decide
    have others : ∀ i, (∀ call, addAndPlan i ≠ .update call) ∧ ∀ call, addAndPlan i ≠ .checkpoint call := by
      intro i
      match i with
      | 0 | 1 => exact ⟨fun _ isUpdate => (nomatch isUpdate), fun _ isCheckpoint => (nomatch isCheckpoint)⟩
    intro step member
    refine ⟨planning step member, ?_, ?_, ?_⟩
    · rintro i taskId ⟨update, _, isUpdate, _⟩
      exact absurd isUpdate ((others i).1 update)
    · intro i call request
      have steps := List.mem_map_of_mem (f := Record.request) member
      rw [trace_requests, request] at steps
      obtain ⟨_, _, unread⟩ := List.mem_map.mp steps
      cases unread
    · intro i fate call seen copy _ isCheckpoint
      exact absurd isCheckpoint ((others i).2 call)) _ (by simp [trace])

end Advance.Tools
