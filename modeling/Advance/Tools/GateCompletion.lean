import Advance.Gates.ReadinessSoundness
import Advance.Tools.GateRace

/-! # Completing a gate that is ready

`adv_gate_complete` checks the order of the gates on one load of the change and, for
execution, the tasks on another; then it commits the gate to whatever is stored by then.
Other writers change the stored state at any time.
-/

namespace Advance.Tools

open Advance.Foundation Advance.Gates Advance.Types

/-! ## Calls -/

structure CompletionCall extends CompleteCall where
  compatibilityReason : Option String

inductive CompletionResult where
  | compatibilityUnsupported
  | blocked (blockedBy : List GateId)
  | incompleteTasks (ids : List String)
  | completed (gate : GateCompletion)
  | unverified
  | stopped

inductive CompletionPhase where
  | idle
  | ordered (seen : Gates)
  | checked (seen : Gates) (tasks : List ChangeTask)
  | holding (seen : Gates) (tasks : List ChangeTask) (latest : ChangeState)
  | written
  | finished (result : CompletionResult)

structure CompletionRace (ι : Type) where
  stored : ChangeState
  holder : Option ι
  phase : ι → CompletionPhase

/-- A call goes on, or is stopped by another check of the tool, a lock it does not get or a
    write that fails; or some writer changes what is stored, the reconciliation that a call
    itself starts before acceptance or release among them. -/
inductive CompletionMove (ι : Type) where
  | advance (i : ι)
  | stop (i : ι)
  | mutate (mutation : ChangeState → ChangeState)

def isFinishedTask (task : ChangeTask) : Bool := task.status = .done || task.status = .cancelled

def CompletionCall.hasReason (call : CompletionCall) : Bool := hasText call.compatibilityReason

def CompletionCall.incompleteTasks (call : CompletionCall) (tasks : List ChangeTask) : List ChangeTask :=
  if call.gateId = .execution then tasks.filter fun task => !isFinishedTask task else []

def CompletionCall.commit (call : CompletionCall) (latest : ChangeState) : ChangeState :=
  { latest with gates := Function.update latest.gates call.gateId call.completion }

section

variable {ι : Type} [DecidableEq ι]

def CompletionRace.start (stored : ChangeState) : CompletionRace ι := ⟨stored, none, fun _ => .idle⟩

def CompletionRace.goto (race : CompletionRace ι) (i : ι) (phase : CompletionPhase) : CompletionRace ι :=
  { race with phase := Function.update race.phase i phase }

def completionStep (call : CompletionCall) (i : ι) (race : CompletionRace ι) : CompletionRace ι :=
  match race.phase i with
  | .idle =>
    let gates := race.stored.gates
    if call.hasReason && call.gateId ≠ .acceptance && call.gateId ≠ .release then
      race.goto i (.finished .compatibilityUnsupported)
    else if canCompleteGate gates call.gateId then race.goto i (.ordered gates)
    else race.goto i (.finished (.blocked (blockedBy gates call.gateId)))
  | .ordered seen =>
    let tasks := race.stored.tasks
    if (call.incompleteTasks tasks).isEmpty then race.goto i (.checked seen tasks)
    else race.goto i (.finished (.incompleteTasks ((call.incompleteTasks tasks).map (·.id))))
  | .checked seen tasks =>
    -- No readiness is evaluated between the checks and the commit.
    if race.holder.isNone then { race.goto i (.holding seen tasks race.stored) with holder := some i }
    else race
  | .holding _ _ latest => { race.goto i .written with stored := call.commit latest }
  | .written =>
    let gate := race.stored.gates call.gateId
    { race.goto i (.finished (if gate.status = .done ∧ gate.completed_at = some call.now then
        .completed gate else .unverified)) with holder := none }
  | .finished _ => race

def stopCompletion (i : ι) (race : CompletionRace ι) : CompletionRace ι :=
  match race.phase i with
  | .idle | .ordered _ | .checked _ _ => race.goto i (.finished .stopped)
  | .holding _ _ _ => { race.goto i (.finished .stopped) with holder := none }
  | .written | .finished _ => race

variable (calls : ι → CompletionCall)

def completionServe (move : CompletionMove ι) (race : CompletionRace ι) : Unit × CompletionRace ι :=
  match move with
  | .advance i => ((), completionStep (calls i) i race)
  | .stop i => ((), stopCompletion i race)
  | .mutate mutation => ((), { race with stored := mutation race.stored })

/-! ## What is claimed -/

/-- What the completed gate promises of the projection it is applied to. -/
def WasReady (call : CompletionCall) (latest : ChangeState) : Prop :=
  match call.gateId with
  | .discovery | .acceptance | .release => call.hasReason = false →
    (evaluateGateReadiness latest call.gateId .default).blockers = []
  | .execution => ∀ task ∈ latest.tasks, task.status = .done ∨ task.status = .cancelled
  | .proposal | .design | .planning => True

def WritesReady (step : Record (CompletionRace ι) (CompletionMove ι) Unit) : Prop :=
  ∀ i seen tasks latest, step.request = .advance i →
    step.before.phase i = .holding seen tasks latest → WasReady (calls i) latest

/-! ## Readiness -/

/-- What readiness asks apart from the earlier gates. -/
def Unblocked (state : ChangeState) : GateId → Prop
  | .discovery => agreementExists state = true → state.contract.isSome = true
  | .acceptance => ReportsSettled state ∧ SummaryVisible state ∧
    ∃ contract matrix, state.contract = some contract ∧ contract.reviewMatrix = some matrix ∧
      MatrixProves contract matrix.rows
  | .release => ReportsSettled state ∧ ObligationsPass state ∧ ObligationsRouted state ∧ LinksProved state
  | .proposal | .design | .planning | .execution => True

theorem discoveryContractBlockers_eq_nil {state : ChangeState} :
    discoveryContractBlockers state .discovery = [] ↔ Unblocked state .discovery := by
  unfold discoveryContractBlockers Unblocked
  cases agreementExists state <;> cases state.contract <;> simp

theorem ready_iff_unblocked (state : ChangeState) (gateId : GateId) :
    (evaluateGateReadiness state gateId .default).blockers = [] ↔
      (∀ earlier : GateId, earlier.index < gateId.index → (state.gates earlier).status = .done) ∧
        Unblocked state gateId := by
  have priors : priorGateBlockers state gateId = [] ↔
      ∀ earlier : GateId, earlier.index < gateId.index → (state.gates earlier).status = .done := by
    simp only [priorGateBlockers_eq_nil, GateId.mem_before]
  rw [← priors]
  cases gateId with
  | discovery =>
    rw [← discoveryContractBlockers_eq_nil]
    simp [evaluateGateReadiness, GateReadinessOptions.default]
  | acceptance =>
    rw [← ready_iff, acceptance_ready_iff, priorGateBlockers_eq_nil]
    constructor
    · exact fun ready => ⟨ready.earlier, ready.toReportsSettled, ready.summary, ready.proved⟩
    · rintro ⟨earlier, settled, summary, proved⟩
      exact ⟨settled, earlier, proved, summary⟩
  | release =>
    rw [← ready_iff, release_ready_iff, priorGateBlockers_eq_nil]
    constructor
    · exact fun ready => ⟨ready.earlier, ready.toReportsSettled, ready.passes, ready.routed, ready.links⟩
    · rintro ⟨earlier, settled, passes, routed, links⟩
      exact ⟨settled, earlier, passes, routed, links⟩
  | proposal | design | planning | execution =>
    simp [evaluateGateReadiness, Unblocked]

/-! ## What a call has checked -/

/-- The earlier gates were done where the call read them, and for execution no task was open. -/
def ChecksPassed (call : CompletionCall) : CompletionPhase → Prop
  | .ordered seen => canCompleteGate seen call.gateId = true
  | .checked seen tasks | .holding seen tasks _ =>
    canCompleteGate seen call.gateId = true ∧ (call.gateId = .execution → ∀ task ∈ tasks, isFinishedTask task = true)
  | .idle | .written | .finished _ => True

def CompletionInvariant (race : CompletionRace ι) : Prop :=
  ∀ i, ChecksPassed (calls i) (race.phase i)

omit [DecidableEq ι] in
theorem CompletionInvariant.initial (stored : ChangeState) :
    CompletionInvariant calls (.start stored) := fun _ => trivial

variable {calls} {race : CompletionRace ι} {i : ι}

section

variable (invariant : CompletionInvariant calls race)
include invariant

theorem CompletionInvariant.goto {phase : CompletionPhase}
    (passed : ChecksPassed (calls i) phase) : CompletionInvariant calls (race.goto i phase) :=
  (Function.forall_update_iff race.phase fun j => ChecksPassed (calls j)).mpr ⟨passed, fun j _ => invariant j⟩

theorem completionStep_invariant :
    CompletionInvariant calls (completionStep (calls i) i race) := by
  have passed := invariant i
  unfold completionStep
  split
  next idle =>
    dsimp only
    split
    · exact invariant.goto trivial
    · split
      next ordered => exact invariant.goto ordered
      next => exact invariant.goto trivial
  next seen ordered =>
    rw [ordered] at passed
    dsimp only
    split
    next complete =>
      refine invariant.goto ⟨passed, fun execution task listed => ?_⟩
      rw [CompletionCall.incompleteTasks, if_pos execution, List.isEmpty_iff, List.filter_eq_nil_iff] at complete
      simpa using complete task listed
    next => exact invariant.goto trivial
  next seen tasks checked =>
    rw [checked] at passed
    split
    · exact invariant.goto passed
    · exact invariant
  next => exact invariant.goto trivial
  next => exact invariant.goto trivial
  next => exact invariant

theorem stopCompletion_invariant :
    CompletionInvariant calls (stopCompletion i race) := by
  unfold stopCompletion
  split
  all_goals first | exact invariant.goto trivial | exact invariant

end

theorem completionServe_invariant (move : CompletionMove ι) (invariant : CompletionInvariant calls race) :
    CompletionInvariant calls (completionServe calls move race).2 := by
  cases move with
  | advance i => exact completionStep_invariant invariant
  | stop i => exact stopCompletion_invariant invariant
  | mutate mutation => exact invariant

/-! ## Runs -/

/-- What has to hold of the projection where a gate is committed.  Of execution: no task was
    added, or reopened, since the tasks were checked.  Of discovery, acceptance and release: no
    earlier gate was reset since the gates were checked, and the parts of readiness that the call
    does not check are there. -/
def StillReady (call : CompletionCall) (seen : Gates) (tasks : List ChangeTask) (latest : ChangeState) : Prop :=
  match call.gateId with
  | .discovery | .acceptance | .release => call.hasReason = false →
    (∀ earlier : GateId, earlier.index < call.gateId.index → (seen earlier).status = .done →
      (latest.gates earlier).status = .done) ∧ Unblocked latest call.gateId
  | .execution => ∀ task ∈ latest.tasks, isFinishedTask task = false →
    ∃ checked ∈ tasks, checked.id = task.id ∧ isFinishedTask checked = false
  | .proposal | .design | .planning => True

variable (calls) in
def CommitsReady (step : Record (CompletionRace ι) (CompletionMove ι) Unit) : Prop :=
  ∀ i seen tasks latest, step.request = .advance i →
    step.before.phase i = .holding seen tasks latest → StillReady (calls i) seen tasks latest

theorem wasReady_iff {call : CompletionCall} {seen : Gates} {tasks : List ChangeTask}
    {latest : ChangeState} (passed : ChecksPassed call (.holding seen tasks latest)) :
    WasReady call latest ↔ StillReady call seen tasks latest := by
  obtain ⟨ordered, finished⟩ := passed
  have unreset : (∀ earlier : GateId, earlier.index < call.gateId.index → (latest.gates earlier).status = .done) ↔
      ∀ earlier : GateId, earlier.index < call.gateId.index → (seen earlier).status = .done →
        (latest.gates earlier).status = .done :=
    forall₂_congr fun earlier before =>
      (imp_iff_right (canCompleteGate_iff.mp ordered earlier before)).symm
  unfold WasReady StillReady
  split
  · rw [ready_iff_unblocked, unreset]
  · rw [ready_iff_unblocked, unreset]
  · rw [ready_iff_unblocked, unreset]
  next execution =>
    refine forall₂_congr fun task _ => ?_
    have isFinished : task.status = .done ∨ task.status = .cancelled ↔ isFinishedTask task = true := by
      simp [isFinishedTask]
    rw [isFinished]
    cases open' : isFinishedTask task with
    | true => simp
    | false =>
      -- A checked task that is open would have stopped the call.
      refine iff_of_false Bool.false_ne_true fun still => ?_
      obtain ⟨checked, listed, _, unfinished⟩ := still rfl
      exact Bool.false_ne_true (unfinished.symm.trans (finished execution checked listed))
  all_goals exact Iff.rfl

end

/-! ## Fixed runs -/

def withoutContract : ChangeState :=
  { accepted [] with
    contract := none
    gates := fun gateId =>
      if gateId.index < GateId.acceptance.index then ⟨.done, none, none, none⟩ else .pending }

def acceptanceCall : Unit → CompletionCall := fun _ => ⟨completionOf .acceptance, none⟩

end Advance.Tools
