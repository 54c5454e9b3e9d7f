import Advance.Storage.ReconcilePlan

/-! # Applying the reconcile plan

A planned record has a list of actions, tried in turn, and is reported by one receipt.
-/

namespace Advance.Storage

open Advance.Archive Advance.Types

/-! ## Vocabulary -/

inductive ActionStatus where
  | mutated
  | skipped
  | failed
  deriving DecidableEq

/-- What an executor hands over of a file: a buffer or a text. -/
inductive StateBytes where
  | buffer (bytes : List UInt8)
  | text (content : String)
  deriving DecidableEq

def StateBytes.truthy : StateBytes → Bool
  | buffer _ => true
  | text content => content != ""

structure ActionOutcome where
  status : ActionStatus
  errorClass : Option String
  residual : Option String
  beforeBytes : Option StateBytes
  afterBytes : Option StateBytes
  deriving DecidableEq

/-- What executing an action comes to. -/
inductive ActionResult where
  | returned (outcome : ActionOutcome)
  | threw (message : String)
  deriving DecidableEq

/-- An action of a record with what comes of executing it, should its turn come. -/
structure PlannedAction where
  action : ReconcileAction
  result : ActionResult
  deriving DecidableEq

def PlannedAction.residueClass (planned : PlannedAction) : ResidueClass := planned.action.residueClass

structure ReconcileReceipt where
  recordId : String
  residueClass : ResidueClass
  action : String
  status : ActionStatus
  errorClass : Option String
  beforeHash : Option SHA256Digest
  afterHash : Option SHA256Digest
  ts : String

/-! ## One record -/

structure RecordLoop where
  outcomes : List ActionOutcome
  attemptedActions : List ReconcileAction
  skippedFallbackClass : Option ResidueClass
  deriving DecidableEq

def executorThrew (recordId message : String) : ActionOutcome where
  status := .failed
  errorClass := some "executor_error"
  residual := some (recordId ++ ": executor threw: " ++ message)
  beforeBytes := none
  afterBytes := none

/-- `record.actions[attemptedActions.length]?.class === action.class` -/
def NextOfClass (actions : List ReconcileAction) (attempts : Nat) (className : ResidueClass) : Prop :=
  (actions[attempts]?).map ReconcileAction.residueClass = some className

instance (actions : List ReconcileAction) (attempts : Nat) (className : ResidueClass) :
    Decidable (NextOfClass actions attempts className) :=
  inferInstanceAs (Decidable (_ = _))

def attemptActions (recordId : String) (actions : List ReconcileAction) : List PlannedAction → RecordLoop → RecordLoop
  | [], state => state
  | planned :: rest, state =>
    if state.skippedFallbackClass = some planned.residueClass then attemptActions recordId actions rest state
    else
      match planned.result with
      | .threw message =>
        { state with
          outcomes := state.outcomes ++ [executorThrew recordId message]
          attemptedActions := state.attemptedActions ++ [planned.action] }
      | .returned outcome =>
        attemptActions recordId actions rest
          { outcomes := state.outcomes ++ [outcome]
            attemptedActions := state.attemptedActions ++ [planned.action]
            skippedFallbackClass :=
              if outcome.status = .mutated ∧
                  NextOfClass actions (state.attemptedActions.length + 1) planned.residueClass then
                some planned.residueClass
              else state.skippedFallbackClass }

def skippedOutcome : ActionOutcome := ⟨.skipped, none, none, none, none⟩

/-- The outcome the receipt reports. -/
def recordOutcome (outcomes : List ActionOutcome) : ActionOutcome :=
  (((outcomes.find? fun item => item.status = .failed).orElse fun _ =>
    outcomes.find? fun item => item.status = .mutated).orElse fun _ => outcomes.head?).getD skippedOutcome

def nonEmpty (text : Option String) : Option String := text.filter fun text => text != ""

structure RecordReport where
  outcomes : List ActionOutcome
  attemptedActions : List ReconcileAction
  receipt : ReconcileReceipt
  residual : Option String

/-- The actions of a record with what comes of executing each of them. -/
def plannedActions (record : ReconcilePlanRecord) (results : Nat → ActionResult) : List PlannedAction :=
  record.actions.mapIdx fun index action => ⟨action, results index⟩

section

variable (hashBytes : StateBytes → SHA256Digest) (now : String) (known : Option SHA256Digest)

/-- The hash of the first state the outcomes hand over, unless one is known already. -/
def beforeHash (outcomes : List ActionOutcome) : Option SHA256Digest :=
  known.orElse fun _ =>
    ((outcomes.filterMap ActionOutcome.beforeBytes).find? StateBytes.truthy).map hashBytes

def applyRecord (record : ReconcilePlanRecord) (results : Nat → ActionResult) : RecordReport :=
  let loop := attemptActions record.recordId record.actions (plannedActions record results) ⟨[], [], none⟩
  let outcome := recordOutcome loop.outcomes
  { outcomes := loop.outcomes
    attemptedActions := loop.attemptedActions
    receipt :=
      { recordId := record.recordId
        residueClass := record.residueClass
        action := (loop.attemptedActions.getLast?.map ReconcileAction.action).getD "none"
        status := outcome.status
        errorClass := nonEmpty outcome.errorClass
        beforeHash := beforeHash hashBytes known loop.outcomes
        afterHash := (outcome.afterBytes.filter StateBytes.truthy).map hashBytes
        ts := now }
    residual := nonEmpty outcome.residual }

end

/-! ## What is claimed -/

def RecordReport.attempts (report : RecordReport) : List (ReconcileAction × ActionOutcome) :=
  report.attemptedActions.zip report.outcomes

def ExclusiveAttempts (attempts : List (ReconcileAction × ActionOutcome)) : Prop :=
  attempts.Pairwise fun earlier later =>
    earlier.2.status = .mutated → later.1.residueClass ≠ earlier.1.residueClass

instance (attempts : List (ReconcileAction × ActionOutcome)) : Decidable (ExclusiveAttempts attempts) :=
  inferInstanceAs (Decidable (List.Pairwise _ _))

/-- How often a receipt reports an action of a name as skipped. -/
def ReconcileReceipt.skips (receipt : ReconcileReceipt) (name : String) : Nat :=
  if receipt.status = .skipped ∧ receipt.action = name then 1 else 0

/-- The actions are executed in their order, none twice, and each is executed or reported skipped. -/
structure Accounted (record : ReconcilePlanRecord) (report : RecordReport) : Prop where
  once : report.attemptedActions.Sublist record.actions
  told : ∀ name, (record.actions.map ReconcileAction.action).count name ≤
    (report.attemptedActions.map ReconcileAction.action).count name + report.receipt.skips name

/-! ## When it holds

The conditions are on the planned actions and what comes of each. The actions before one
are listed from the last to the first. -/

def PlannedAction.Mutates (planned : PlannedAction) : Prop :=
  match planned.result with
  | .returned outcome => outcome.status = .mutated
  | .threw _ => False

instance (planned : PlannedAction) : Decidable planned.Mutates := by
  unfold PlannedAction.Mutates
  split <;> infer_instance

def PlannedAction.Throws (planned : PlannedAction) : Prop :=
  match planned.result with
  | .returned _ => False
  | .threw _ => True

instance (planned : PlannedAction) : Decidable planned.Throws := by
  unfold PlannedAction.Throws
  split <;> infer_instance

def Superseded (earlier : List PlannedAction) (planned : PlannedAction) : Prop :=
  ∃ action ∈ earlier, action.Mutates ∧ action.residueClass = planned.residueClass

instance (earlier : List PlannedAction) (planned : PlannedAction) : Decidable (Superseded earlier planned) :=
  inferInstanceAs (Decidable (∃ action ∈ earlier, _))

/-- The actions whose turn comes: those that none before them supersedes. -/
def turnsTaken : List PlannedAction → List PlannedAction
  | [] => []
  | planned :: earlier => if Superseded earlier planned then turnsTaken earlier else planned :: turnsTaken earlier

/-- An action in its turn that mutates, and the action at the place one more than the number of
those in turn before it has its class. -/
def Guards (actions : List ReconcileAction) (earlier : List PlannedAction) (planned : PlannedAction) : Prop :=
  planned.Mutates ∧ ¬ Superseded earlier planned ∧
    NextOfClass actions ((turnsTaken earlier).length + 1) planned.residueClass

instance (actions : List ReconcileAction) (earlier : List PlannedAction) (planned : PlannedAction) :
    Decidable (Guards actions earlier planned) :=
  inferInstanceAs (Decidable (_ ∧ _ ∧ _))

def guardedClass (actions : List ReconcileAction) : List PlannedAction → Option ResidueClass
  | [] => none
  | planned :: earlier =>
    if Guards actions earlier planned then some planned.residueClass else guardedClass actions earlier

/-- Every superseded action that is reached stands behind a guard of its class. -/
def WellGuarded (actions : List ReconcileAction) (earlier rest : List PlannedAction) : Prop :=
  ∀ front planned back, rest = front ++ planned :: back →
    (∀ action ∈ turnsTaken (front.reverse ++ earlier), ¬ action.Throws) →
      Superseded (front.reverse ++ earlier) planned →
        guardedClass actions (front.reverse ++ earlier) = some planned.residueClass

def NothingLeftOut (actions : List PlannedAction) : Prop :=
  ∀ front planned back, actions = front ++ planned :: back → (planned.Throws → back = []) ∧
      (planned.Mutates → ∀ later ∈ back, later.residueClass ≠ planned.residueClass)

/-! ## Actions in turn -/

theorem turnsTaken_subset (earlier : List PlannedAction) : ∀ action ∈ turnsTaken earlier, action ∈ earlier := by
  induction earlier with
  | nil => simp [turnsTaken]
  | cons planned earlier ih =>
    intro action member
    by_cases superseded : Superseded earlier planned
    · rw [turnsTaken, if_pos superseded] at member
      exact List.mem_cons_of_mem _ (ih action member)
    · rw [turnsTaken, if_neg superseded] at member
      cases List.mem_cons.mp member with
      | inl here => exact here ▸ List.mem_cons_self
      | inr there => exact List.mem_cons_of_mem _ (ih action there)

variable {earlier : List PlannedAction}

theorem turnsTaken_mono (more : List PlannedAction) {action : PlannedAction}
    (member : action ∈ turnsTaken earlier) : action ∈ turnsTaken (more ++ earlier) := by
  induction more with
  | nil => exact member
  | cons planned more ih =>
    rw [List.cons_append, turnsTaken]
    split
    · exact ih
    · exact List.mem_cons_of_mem _ ih

variable {planned : PlannedAction}

theorem Superseded.turnsTaken
    (superseded : Superseded earlier planned) : Superseded (turnsTaken earlier) planned := by
  induction earlier with
  | nil => exact superseded
  | cons first earlier ih =>
    rw [Storage.turnsTaken]
    by_cases before : Superseded earlier planned
    · obtain ⟨action, member, mutates⟩ := ih before
      split
      · exact ⟨action, member, mutates⟩
      · exact ⟨action, List.mem_cons_of_mem _ member, mutates⟩
    · obtain ⟨action, member, mutates, sameClass⟩ := superseded
      cases List.mem_cons.mp member with
      | inr there => exact absurd ⟨action, there, mutates, sameClass⟩ before
      | inl here =>
        subst here
        have fresh : ¬ Superseded earlier action := fun ⟨other, inside, mutates, same⟩ =>
          before ⟨other, inside, mutates, same.trans sameClass⟩
        rw [if_neg fresh]
        exact ⟨action, List.mem_cons_self, mutates, sameClass⟩

theorem turnsTaken_pairwise (earlier : List PlannedAction) :
    (turnsTaken earlier).Pairwise fun later before => before.Mutates → later.residueClass ≠ before.residueClass := by
  induction earlier with
  | nil => exact List.Pairwise.nil
  | cons planned earlier ih =>
    by_cases superseded : Superseded earlier planned
    · rwa [turnsTaken, if_pos superseded]
    · rw [turnsTaken, if_neg superseded]
      refine List.Pairwise.cons (fun before member mutates same => ?_) ih
      exact superseded ⟨before, turnsTaken_subset earlier before member, mutates, same.symm⟩

variable {actions : List ReconcileAction}

theorem guardedClass_mutated (guarded : guardedClass actions earlier = some planned.residueClass) :
    Superseded earlier planned := by
  induction earlier with
  | nil => simp [guardedClass] at guarded
  | cons first earlier ih =>
    rw [guardedClass] at guarded
    split at guarded
    · next guards =>
      exact ⟨first, List.mem_cons_self, guards.1, Option.some.inj guarded⟩
    · obtain ⟨action, member, mutates⟩ := ih guarded
      exact ⟨action, List.mem_cons_of_mem _ member, mutates⟩

/-! ## The loop -/

section

variable (recordId : String) (actions : List ReconcileAction)

def PlannedAction.outcome (planned : PlannedAction) : ActionOutcome :=
  match planned.result with
  | .returned outcome => outcome
  | .threw message => executorThrew recordId message

theorem PlannedAction.outcome_mutated (planned : PlannedAction) :
    (planned.outcome recordId).status = .mutated ↔ planned.Mutates := by
  unfold PlannedAction.outcome PlannedAction.Mutates
  split <;> simp [executorThrew]

def turnState (earlier : List PlannedAction) : RecordLoop where
  outcomes := (turnsTaken earlier).reverse.map (PlannedAction.outcome recordId)
  attemptedActions := (turnsTaken earlier).reverse.map PlannedAction.action
  skippedFallbackClass := guardedClass actions earlier

def RecordLoop.attempts (state : RecordLoop) : List (ReconcileAction × ActionOutcome) :=
  state.attemptedActions.zip state.outcomes

theorem turnState_attempts (earlier : List PlannedAction) : (turnState recordId actions earlier).attempts =
    (turnsTaken earlier).reverse.map fun planned => (planned.action, planned.outcome recordId) := by
  rw [RecordLoop.attempts, turnState, List.zip_map']

theorem turnState_exclusive (earlier : List PlannedAction) :
    ExclusiveAttempts (turnState recordId actions earlier).attempts := by
  rw [turnState_attempts, ExclusiveAttempts, List.pairwise_map, List.pairwise_reverse]
  refine (turnsTaken_pairwise earlier).imp fun apart mutated => ?_
  exact apart ((PlannedAction.outcome_mutated recordId _).mp mutated)

variable {planned : PlannedAction} {earlier : List PlannedAction}

theorem turnState_superseded (superseded : Superseded earlier planned) :
    turnState recordId actions (planned :: earlier) = turnState recordId actions earlier := by
  have unguarding : ¬ Guards actions earlier planned := fun guards => guards.2.1 superseded
  rw [turnState, turnState, turnsTaken, if_pos superseded, guardedClass, if_neg unguarding]

variable {rest : List PlannedAction} {state : RecordLoop}

theorem attemptActions_passed (skips : state.skippedFallbackClass = some planned.residueClass) :
    attemptActions recordId actions (planned :: rest) state = attemptActions recordId actions rest state := by
  rw [attemptActions, if_pos skips]

theorem attemptActions_threw (skips : state.skippedFallbackClass ≠ some planned.residueClass) {message : String}
    (threw : planned.result = .threw message) : attemptActions recordId actions (planned :: rest) state =
      ⟨state.outcomes ++ [planned.outcome recordId], state.attemptedActions ++ [planned.action],
        state.skippedFallbackClass⟩ := by
  rw [attemptActions, if_neg skips, threw]
  simp [PlannedAction.outcome, threw]

/-- The state behind an action that returned. -/
def RecordLoop.executed (state : RecordLoop) (planned : PlannedAction) : RecordLoop where
  outcomes := state.outcomes ++ [planned.outcome recordId]
  attemptedActions := state.attemptedActions ++ [planned.action]
  skippedFallbackClass :=
    if planned.Mutates ∧ NextOfClass actions (state.attemptedActions.length + 1) planned.residueClass then
      some planned.residueClass
    else state.skippedFallbackClass

@[simp]
theorem RecordLoop.executed_outcomes (state : RecordLoop) (planned : PlannedAction) :
    (state.executed recordId actions planned).outcomes = state.outcomes ++ [planned.outcome recordId] := rfl

@[simp]
theorem RecordLoop.executed_attemptedActions (state : RecordLoop) (planned : PlannedAction) :
    (state.executed recordId actions planned).attemptedActions = state.attemptedActions ++ [planned.action] := rfl

theorem attemptActions_returned
    (skips : state.skippedFallbackClass ≠ some planned.residueClass) {outcome : ActionOutcome}
    (returned : planned.result = .returned outcome) : attemptActions recordId actions (planned :: rest) state =
      attemptActions recordId actions rest (state.executed recordId actions planned) := by
  rw [attemptActions, if_neg skips, returned]
  simp [RecordLoop.executed, PlannedAction.outcome, PlannedAction.Mutates, returned]

theorem attemptActions_grows (rest : List PlannedAction) : ∀ state : RecordLoop,
    ∃ done : List PlannedAction, done.Sublist rest ∧ (attemptActions recordId actions rest state).attemptedActions =
        state.attemptedActions ++ done.map PlannedAction.action ∧
      (attemptActions recordId actions rest state).outcomes =
        state.outcomes ++ done.map (PlannedAction.outcome recordId) := by
  induction rest with
  | nil => exact fun state => ⟨[], List.Sublist.refl _, by simp [attemptActions], by simp [attemptActions]⟩
  | cons planned rest ih =>
    intro state
    by_cases skips : state.skippedFallbackClass = some planned.residueClass
    · rw [attemptActions_passed recordId actions skips]
      obtain ⟨done, inside, grown⟩ := ih state
      exact ⟨done, inside.cons planned, grown⟩
    · cases result : planned.result with
      | threw message =>
        rw [attemptActions_threw recordId actions skips result]
        exact ⟨[planned], by simp, by simp, by simp⟩
      | returned outcome =>
        rw [attemptActions_returned recordId actions skips result]
        obtain ⟨done, inside, attempted, outcomes⟩ := ih (state.executed recordId actions planned)
        exact ⟨planned :: done, inside.cons_cons planned, by simp [attempted], by simp [outcomes]⟩

theorem attempts_grow (rest : List PlannedAction) (state : RecordLoop)
    (matched : state.attemptedActions.length = state.outcomes.length) :
    ∃ more, (attemptActions recordId actions rest state).attempts = state.attempts ++ more := by
  obtain ⟨done, _, attempted, outcomes⟩ := attemptActions_grows recordId actions rest state
  rw [RecordLoop.attempts, attempted, outcomes, List.zip_append matched]
  exact ⟨_, rfl⟩

theorem attempts_next (planned : PlannedAction) (rest : List PlannedAction) (state : RecordLoop)
    (matched : state.attemptedActions.length = state.outcomes.length)
    (skips : state.skippedFallbackClass ≠ some planned.residueClass) :
    ∃ more, (attemptActions recordId actions (planned :: rest) state).attempts =
      state.attempts ++ (planned.action, planned.outcome recordId) :: more := by
  have pushed : (state.attemptedActions ++ [planned.action]).zip (state.outcomes ++ [planned.outcome recordId]) =
      state.attempts ++ [(planned.action, planned.outcome recordId)] := List.zip_append matched
  cases result : planned.result with
  | threw message =>
    rw [attemptActions_threw recordId actions skips result]
    exact ⟨[], pushed⟩
  | returned outcome =>
    rw [attemptActions_returned recordId actions skips result]
    obtain ⟨more, grown⟩ := attempts_grow recordId actions rest (state.executed recordId actions planned)
      (by simp [matched])
    refine ⟨more, ?_⟩
    rw [grown, RecordLoop.attempts, RecordLoop.executed, pushed, List.append_assoc, List.singleton_append]

theorem turnState_executed
    (fresh : ¬ Superseded earlier planned) {outcome : ActionOutcome} (returned : planned.result = .returned outcome) :
    attemptActions recordId actions (planned :: rest) (turnState recordId actions earlier) =
      attemptActions recordId actions rest (turnState recordId actions (planned :: earlier)) := by
  have skips : (turnState recordId actions earlier).skippedFallbackClass ≠ some planned.residueClass :=
    fun guarded => fresh (guardedClass_mutated guarded)
  rw [attemptActions_returned recordId actions skips returned]
  congr 1
  simp [RecordLoop.executed, turnState, turnsTaken, guardedClass, Guards, fresh]

theorem turnState_threw
    (fresh : ¬ Superseded earlier planned) {message : String} (threw : planned.result = .threw message) :
    attemptActions recordId actions (planned :: rest) (turnState recordId actions earlier) =
      turnState recordId actions (planned :: earlier) := by
  have skips : (turnState recordId actions earlier).skippedFallbackClass ≠ some planned.residueClass :=
    fun guarded => fresh (guardedClass_mutated guarded)
  rw [attemptActions_threw recordId actions skips threw]
  simp [turnState, turnsTaken, guardedClass, Guards, fresh, PlannedAction.Mutates, threw]

end

/-! ## Exclusive fallbacks -/

theorem wellGuarded_cons {earlier rest : List PlannedAction} (calm : ∀ action ∈ turnsTaken earlier, ¬ action.Throws) :
    WellGuarded actions earlier (planned :: rest) ↔
      (Superseded earlier planned → guardedClass actions earlier = some planned.residueClass) ∧
        WellGuarded actions (planned :: earlier) rest := by
  constructor
  · intro guarded
    refine ⟨guarded [] planned rest rfl calm, fun front later back split => ?_⟩
    have moved := guarded (planned :: front) later back (by rw [split, List.cons_append])
    rwa [List.reverse_cons, List.append_assoc, List.singleton_append] at moved
  · rintro ⟨first, others⟩ front later back split
    cases front with
    | nil =>
      obtain ⟨rfl, rfl⟩ := List.cons.inj split
      exact fun _ => first
    | cons head front =>
      obtain ⟨rfl, rfl⟩ := List.cons.inj split
      have moved := others front later back rfl
      rwa [List.reverse_cons, List.append_assoc, List.singleton_append]

theorem wellGuarded_of_throws
    (rest : List PlannedAction) (planned : PlannedAction) (member : planned ∈ turnsTaken earlier)
    (throws : planned.Throws) : WellGuarded actions earlier rest :=
  fun front _ _ _ calm => absurd throws (calm planned (turnsTaken_mono front.reverse member))

theorem not_exclusive_of_superseded (recordId : String) (actions : List ReconcileAction)
    {earlier rest : List PlannedAction} (superseded : Superseded earlier planned)
    (unguarded : guardedClass actions earlier ≠ some planned.residueClass) : ¬ ExclusiveAttempts
      (attemptActions recordId actions (planned :: rest) (turnState recordId actions earlier)).attempts := by
  intro exclusive
  obtain ⟨more, grown⟩ := attempts_next recordId actions planned rest (turnState recordId actions earlier)
    (by simp [turnState]) unguarded
  obtain ⟨action, member, mutates, sameClass⟩ := superseded.turnsTaken
  rw [grown, turnState_attempts, ExclusiveAttempts, List.pairwise_append] at exclusive
  have executed := List.mem_map_of_mem (f := fun planned => (planned.action, planned.outcome recordId))
    (List.mem_reverse.mpr member)
  refine exclusive.2.2 _ executed _ List.mem_cons_self ?_ sameClass.symm
  exact (PlannedAction.outcome_mutated recordId action).mpr mutates

theorem exclusive_iff_wellGuarded (recordId : String) (actions : List ReconcileAction) (rest : List PlannedAction) :
    ∀ earlier, (∀ action ∈ turnsTaken earlier, ¬ action.Throws) →
      (ExclusiveAttempts (attemptActions recordId actions rest (turnState recordId actions earlier)).attempts ↔
        WellGuarded actions earlier rest) := by
  induction rest with
  | nil =>
    intro earlier _
    refine iff_of_true (turnState_exclusive recordId actions earlier) fun front planned back split => ?_
    simp at split
  | cons planned rest ih =>
    intro earlier calm
    rw [wellGuarded_cons calm]
    by_cases superseded : Superseded earlier planned
    · by_cases guarded : guardedClass actions earlier = some planned.residueClass
      · have turn : turnsTaken (planned :: earlier) = turnsTaken earlier := by rw [turnsTaken, if_pos superseded]
        rw [attemptActions_passed recordId actions guarded, ← turnState_superseded recordId actions superseded,
          ih (planned :: earlier) (turn ▸ calm)]
        exact (and_iff_right fun _ => guarded).symm
      · refine iff_of_false (not_exclusive_of_superseded recordId actions superseded guarded) ?_
        exact fun both => guarded (both.1 superseded)
    · have turn : turnsTaken (planned :: earlier) = planned :: turnsTaken earlier := by rw [turnsTaken, if_neg superseded]
      have first : Superseded earlier planned → guardedClass actions earlier = some planned.residueClass :=
        fun isSuperseded => absurd isSuperseded superseded
      rw [and_iff_right first]
      cases result : planned.result with
      | threw message =>
        rw [turnState_threw recordId actions superseded result]
        refine iff_of_true (turnState_exclusive recordId actions _) ?_
        refine wellGuarded_of_throws rest planned (turn ▸ List.mem_cons_self) ?_
        simp [PlannedAction.Throws, result]
      | returned outcome =>
        rw [turnState_executed recordId actions superseded result]
        refine ih (planned :: earlier) fun action member => ?_
        rw [turn] at member
        cases List.mem_cons.mp member with
        | inl here => simp [here, PlannedAction.Throws, result]
        | inr there => exact calm action there

/-! ## Accounting -/

section

variable (recordId : String) (actions : List ReconcileAction)

theorem outcomes_of_all_executed (rest : List PlannedAction) : ∀ state : RecordLoop,
    state.attemptedActions.length + rest.length ≤
        (attemptActions recordId actions rest state).attemptedActions.length →
      (attemptActions recordId actions rest state).outcomes =
          state.outcomes ++ rest.map (PlannedAction.outcome recordId) ∧
        ∀ front planned back, rest = front ++ planned :: back → planned.Throws → back = [] := by
  induction rest with
  | nil => exact fun state _ => ⟨by simp [attemptActions], fun front planned back split => by simp at split⟩
  | cons planned rest ih =>
    intro state long
    rw [List.length_cons] at long
    by_cases skips : state.skippedFallbackClass = some planned.residueClass
    · -- An action passed over is one too few.
      rw [attemptActions_passed recordId actions skips] at long
      obtain ⟨done, inside, attempted, _⟩ := attemptActions_grows recordId actions rest state
      have short := inside.length_le
      rw [attempted, List.length_append, List.length_map] at long
      omega
    · cases result : planned.result with
      | threw message =>
        rw [attemptActions_threw recordId actions skips result] at long ⊢
        rw [List.length_append, List.length_singleton] at long
        obtain rfl : rest = [] := List.eq_nil_of_length_eq_zero (by omega)
        refine ⟨by simp, fun front other back split _ => ?_⟩
        cases front with
        | nil => exact (List.cons.inj split).2.symm
        | cons head front => simp at split
      | returned outcome =>
        rw [attemptActions_returned recordId actions skips result] at long ⊢
        have grown : (state.executed recordId actions planned).attemptedActions.length =
            state.attemptedActions.length + 1 := by simp
        obtain ⟨outcomes, lastThrows⟩ := ih (state.executed recordId actions planned) (by omega)
        refine ⟨by simp [outcomes], fun front other back split throws => ?_⟩
        cases front with
        | nil =>
          obtain ⟨rfl, rfl⟩ := List.cons.inj split
          simp [PlannedAction.Throws, result] at throws
        | cons head front => exact lastThrows front other back (List.cons.inj split).2 throws

theorem all_executed_of_quiet (rest : List PlannedAction) : ∀ state : RecordLoop, state.skippedFallbackClass = none →
      (∀ outcome ∈ (attemptActions recordId actions rest state).outcomes, outcome.status = .skipped) →
        (attemptActions recordId actions rest state).attemptedActions =
          state.attemptedActions ++ rest.map PlannedAction.action := by
  induction rest with
  | nil => exact fun state _ _ => by simp [attemptActions]
  | cons planned rest ih =>
    intro state unset quiet
    have skips : state.skippedFallbackClass ≠ some planned.residueClass := by simp [unset]
    cases result : planned.result with
    | threw message =>
      rw [attemptActions_threw recordId actions skips result] at quiet
      have failed := quiet (planned.outcome recordId) (by simp)
      simp [PlannedAction.outcome, result, executorThrew] at failed
    | returned outcome =>
      rw [attemptActions_returned recordId actions skips result] at quiet ⊢
      have idle : ¬ planned.Mutates := by
        intro mutates
        obtain ⟨done, _, _, outcomes⟩ := attemptActions_grows recordId actions rest
          (state.executed recordId actions planned)
        have status := quiet (planned.outcome recordId) (by simp [outcomes])
        rw [(PlannedAction.outcome_mutated recordId planned).mpr mutates] at status
        cases status
      rw [ih _ (by simp [RecordLoop.executed, idle, unset]) quiet, RecordLoop.executed, List.append_assoc,
        List.singleton_append, List.map_cons]

theorem all_executed_of_nothingLeftOut (rest : List PlannedAction) :
    ∀ earlier, NothingLeftOut (earlier.reverse ++ rest) →
      (attemptActions recordId actions rest (turnState recordId actions earlier)).attemptedActions =
        (turnState recordId actions earlier).attemptedActions ++ rest.map PlannedAction.action := by
  induction rest with
  | nil => exact fun earlier _ => by simp [attemptActions]
  | cons planned rest ih =>
    intro earlier nothing
    have fresh : ¬ Superseded earlier planned := by
      rintro ⟨action, member, mutates, sameClass⟩
      obtain ⟨front, back, split⟩ := List.append_of_mem (List.mem_reverse.mpr member)
      have apart := nothing front action (back ++ planned :: rest) (by simp [split])
      exact apart.2 mutates planned (by simp) sameClass.symm
    have grown : (turnState recordId actions (planned :: earlier)).attemptedActions =
        (turnState recordId actions earlier).attemptedActions ++ [planned.action] := by
      simp [turnState, turnsTaken, fresh]
    cases result : planned.result with
    | threw message =>
      rw [turnState_threw recordId actions fresh result, grown]
      have last := (nothing earlier.reverse planned rest rfl).1 (by simp [PlannedAction.Throws, result])
      rw [last, List.map_singleton]
    | returned outcome =>
      rw [turnState_executed recordId actions fresh result, ih (planned :: earlier) (by simpa using nothing), grown]
      simp

end

theorem NothingLeftOut.wellGuarded {planned : List PlannedAction} (nothing : NothingLeftOut planned)
    (actions : List ReconcileAction) : WellGuarded actions [] planned := by
  rintro front later back rfl _ ⟨action, member, mutates, sameClass⟩
  rw [List.append_nil] at member
  obtain ⟨before, between, rfl⟩ := List.append_of_mem (List.mem_reverse.mp member)
  have apart := nothing before action (between ++ later :: back) (by simp)
  exact absurd sameClass.symm (apart.2 mutates later (by simp))

theorem nothingLeftOut_of_exclusive (recordId : String) {planned : List PlannedAction} (exclusive : ExclusiveAttempts
      ((planned.map PlannedAction.action).zip (planned.map (PlannedAction.outcome recordId))))
    (lastThrows : ∀ front action back, planned = front ++ action :: back → action.Throws → back = []) :
    NothingLeftOut planned := by
  intro front action back split
  refine ⟨lastThrows front action back split, fun mutates later member same => ?_⟩
  subst split
  rw [List.zip_map', ExclusiveAttempts, List.pairwise_map, List.pairwise_append, List.pairwise_cons] at exclusive
  exact exclusive.2.1.1 later member ((PlannedAction.outcome_mutated recordId action).mpr mutates) same

/-! ## The receipt -/

theorem recordOutcome_skipped {outcomes : List ActionOutcome} (skipped : (recordOutcome outcomes).status = .skipped) :
    ∀ outcome ∈ outcomes, outcome.status = .skipped := by
  intro outcome member
  cases failing : outcomes.find? fun item => item.status = .failed with
  | some failure =>
    have status := List.find?_some failing
    simp [recordOutcome, failing, of_decide_eq_true status] at skipped
  | none =>
    cases mutating : outcomes.find? fun item => item.status = .mutated with
    | some mutation =>
      have status := List.find?_some mutating
      simp [recordOutcome, failing, mutating, of_decide_eq_true status] at skipped
    | none =>
      have unfailed := List.find?_eq_none.mp failing outcome member
      have unmutated := List.find?_eq_none.mp mutating outcome member
      cases status : outcome.status with
      | skipped => rfl
      | failed => simp [status] at unfailed
      | mutated => simp [status] at unmutated

theorem plannedActions_actions (record : ReconcilePlanRecord) (results : Nat → ActionResult) :
    (plannedActions record results).map PlannedAction.action = record.actions := by
  apply List.ext_getElem
  · simp [plannedActions]
  · intro index _ _
    simp [plannedActions]

section

variable (hashBytes : StateBytes → SHA256Digest) (now : String) (known : Option SHA256Digest)
  (record : ReconcilePlanRecord) (results : Nat → ActionResult)

theorem attemptedActions_sublist :
    (applyRecord hashBytes now known record results).attemptedActions.Sublist record.actions := by
  obtain ⟨done, inside, attempted, _⟩ := attemptActions_grows record.recordId record.actions
    (plannedActions record results) ⟨[], [], none⟩
  have mapped := inside.map PlannedAction.action
  rw [plannedActions_actions] at mapped
  rwa [applyRecord, attempted, List.nil_append]

theorem accounted_iff : Accounted record (applyRecord hashBytes now known record results) ↔
    (applyRecord hashBytes now known record results).attemptedActions = record.actions := by
  have inside := attemptedActions_sublist hashBytes now known record results
  constructor
  · intro accounted
    by_cases skipped : (applyRecord hashBytes now known record results).receipt.status = .skipped
    · have all := all_executed_of_quiet record.recordId record.actions (plannedActions record results)
        ⟨[], [], none⟩ rfl (recordOutcome_skipped skipped)
      rw [applyRecord, all, List.nil_append, plannedActions_actions]
    · have counts : (record.actions.map ReconcileAction.action).Subperm
          ((applyRecord hashBytes now known record results).attemptedActions.map ReconcileAction.action) := by
        refine List.subperm_ext_iff.mpr fun name _ => ?_
        simpa [ReconcileReceipt.skips, skipped] using accounted.told name
      have long := counts.length_le
      rw [List.length_map, List.length_map] at long
      exact inside.eq_of_length_le long
  · intro all
    exact ⟨inside, fun name => by rw [all]; omega⟩

/-- The first equivalence is about exclusiveness alone, the second about the whole claim. -/
theorem fallbacks_exclusive_iff : (ExclusiveAttempts (applyRecord hashBytes now known record results).attempts ↔
        WellGuarded record.actions [] (plannedActions record results)) ∧
      (ExclusiveAttempts (applyRecord hashBytes now known record results).attempts ∧
          Accounted record (applyRecord hashBytes now known record results) ↔
        NothingLeftOut (plannedActions record results)) := by
  have exclusive := exclusive_iff_wellGuarded record.recordId record.actions (plannedActions record results) []
    (by simp [turnsTaken])
  refine ⟨exclusive, ?_⟩
  rw [accounted_iff]
  constructor
  · rintro ⟨attempts, all⟩
    have long : (plannedActions record results).length ≤
        (applyRecord hashBytes now known record results).attemptedActions.length := by
      rw [all, ← plannedActions_actions record results, List.length_map]
    obtain ⟨outcomes, lastThrows⟩ := outcomes_of_all_executed record.recordId record.actions
      (plannedActions record results) ⟨[], [], none⟩ (by rwa [List.length_nil, Nat.zero_add])
    have actions := all.trans (plannedActions_actions record results).symm
    have executed : (applyRecord hashBytes now known record results).outcomes =
        (plannedActions record results).map (PlannedAction.outcome record.recordId) := outcomes
    rw [RecordReport.attempts, actions, executed] at attempts
    exact nothingLeftOut_of_exclusive record.recordId attempts lastThrows
  · intro nothing
    have all := all_executed_of_nothingLeftOut record.recordId record.actions (plannedActions record results) []
      nothing
    exact ⟨exclusive.mpr (nothing.wellGuarded record.actions), all.trans (plannedActions_actions record results)⟩

end

/-! ## Fixed runs -/

def unmarkedArtifacts : StoreResidueRecord :=
  ⟨"addSearch", "/store/changes/addSearch/change.json", .unmigratedArtifactMetadata, [.unmigratedWorktreeMarker], []⟩

def bothMigrate (index : Nat) : ActionResult :=
  .returned ⟨if index = 0 ∨ index = 3 then .mutated else .skipped, none, none, none, none⟩

def bothMigrated : RecordReport :=
  applyRecord (fun _ => digestOf 0) "2026-01-01T00:00:00.000Z" none (planRecord unmarkedArtifacts) bothMigrate

/-- The marker is set by its first action and set again by its fallback. -/
theorem marker_fallback_executed : planRecords localePlatform [unmarkedArtifacts] = [planRecord unmarkedArtifacts] ∧
      bothMigrated.attemptedActions.map ReconcileAction.action =
        ["migrate_record", "set_marker_auto", "set_marker_legacy"] ∧
      ¬ ExclusiveAttempts bothMigrated.attempts ∧
        ¬ (ExclusiveAttempts bothMigrated.attempts ∧ Accounted (planRecord unmarkedArtifacts) bothMigrated) := by
  have repeated : ¬ ExclusiveAttempts bothMigrated.attempts := by decide
  exact ⟨rfl, by rfl, repeated, fun both => repeated both.1⟩

end Advance.Storage
