import Mathlib.Logic.Function.Basic
import Advance.Foundation.Run
import Advance.Types.Gates

/-! # Completing and reopening gates

`adv_gate_complete` checks the order of the gates on one read of the change and later
commits one gate over whatever is stored then, under the change's lock.  `reopenFrom`
reads the change and writes it back, without the lock.
-/

namespace Advance.Tools

open Advance.Foundation Advance.Types

/-! ## Calls -/

structure ReentryHistoryEntry where
  from_gate : GateId
  reason : String
  scope_delta : Option String
  reopened_by : String
  approval_evidence : Option String
  reopened_at : String
  gates_reset : List GateId
  deriving DecidableEq

/-- What is stored of a change here. -/
structure GateProjection where
  gates : Option Gates
  reentry_history : List ReentryHistoryEntry

structure CompleteCall where
  gateId : GateId
  completedBy : String
  notes : Option String
  priorApprovalEvidence : Option String
  releaseEvidence : Option String
  now : String

structure ReopenCall where
  fromGate : GateId
  reason : String
  scopeDelta : Option String
  reopenedBy : Option String
  approvalEvidence : Option String
  now : String

inductive GateCall where
  | complete (call : CompleteCall)
  | reopen (call : ReopenCall)

def GateProjection.read (projection : GateProjection) : Gates :=
  projection.gates.getD createDefaultGates

/-- `[left, right].filter(Boolean).join("; ") || undefined` -/
def joinedEvidence (left right : Option String) : Option String :=
  match [left, right].filterMap fun text => text.filter (· ≠ "") with
  | [] => none
  | texts => some ("; ".intercalate texts)

def CompleteCall.completion (call : CompleteCall) : GateCompletion where
  status := .done
  completed_at := some call.now
  completed_by := some call.completedBy
  approval_evidence :=
    match call.gateId with
    | .acceptance => joinedEvidence call.notes call.priorApprovalEvidence
    | .release => joinedEvidence call.notes call.releaseEvidence
    | _ => call.notes

/-- The mutation of `commitGateCompletion`: one gate over the latest projection. -/
def CompleteCall.overlay (call : CompleteCall) (latest : GateProjection) : GateProjection :=
  { latest with gates := some (Function.update latest.read call.gateId call.completion) }

def ReopenCall.gatesReset (call : ReopenCall) : List GateId :=
  GateId.order.filter fun gateId => call.fromGate.index ≤ gateId.index

def ReopenCall.reset (call : ReopenCall) (loaded : GateProjection) : GateProjection where
  gates := some fun gateId =>
    if gateId ∈ call.gatesReset then .pending else loaded.read gateId
  reentry_history := loaded.reentry_history ++
    [{ from_gate := call.fromGate
       reason := call.reason
       scope_delta := call.scopeDelta
       reopened_by := call.reopenedBy.getD "agent"
       approval_evidence := call.approvalEvidence
       reopened_at := call.now
       gates_reset := call.gatesReset }]

inductive GateResult where
  | blocked (blockedBy : List GateId)
  | completed (gate : GateCompletion)
  | unverified
  | reopened
  | notReopened (message : String)
  | stopped

/-- Where a call is, with what it has read. -/
inductive GatePhase where
  | idle
  | checked (seen : Gates)
  | holding (seen : Gates) (latest : GateProjection)
  | written
  | loaded (copy : GateProjection)
  | finished (result : GateResult)

/-! ## The system -/

structure GateRace (ι : Type) where
  stored : GateProjection
  holder : Option ι
  phase : ι → GatePhase

/-- A call goes on, or is stopped by something else than the gates: another check of the tool,
    a lock it does not get, a write that fails. -/
inductive GateMove (ι : Type) where
  | advance (i : ι)
  | stop (i : ι)

section

variable {ι : Type} [DecidableEq ι]

def GateRace.start : GateRace ι := ⟨⟨none, []⟩, none, fun _ => .idle⟩

def GateRace.goto (race : GateRace ι) (i : ι) (phase : GatePhase) : GateRace ι :=
  { race with phase := Function.update race.phase i phase }

def completeStep (call : CompleteCall) (i : ι) (race : GateRace ι) : GateRace ι :=
  match race.phase i with
  | .idle =>
    let gates := race.stored.read
    if canCompleteGate gates call.gateId then race.goto i (.checked gates)
    else race.goto i (.finished (.blocked (blockedBy gates call.gateId)))
  | .checked seen =>
    if race.holder.isNone then { race.goto i (.holding seen race.stored) with holder := some i }
    else race
  | .holding _ latest => { race.goto i .written with stored := call.overlay latest }
  | .written =>
    let gate := race.stored.read call.gateId
    { race.goto i (.finished (if gate.status = .done ∧ gate.completed_at = some call.now then
        .completed gate else .unverified)) with holder := none }
  | .loaded _ | .finished _ => race

def reopenStep (call : ReopenCall) (i : ι) (race : GateRace ι) : GateRace ι :=
  match race.phase i with
  | .idle =>
    let refused := fun status => race.goto i (.finished (.notReopened ("Cannot reopen from gate \"" ++
      call.fromGate.text ++ "\" — target gate is not completed (current status: " ++ status ++ ").")))
    match race.stored.gates with
    | none => refused "unset"
    | some gates =>
      if (gates call.fromGate).status ≠ .done then refused (gates call.fromGate).status.text
      else race.goto i (.loaded race.stored)
  | .loaded copy =>
    { race.goto i (.finished .reopened) with stored := call.reset copy }
  | .checked _ | .holding _ _ | .written | .finished _ => race

def stopStep (i : ι) (race : GateRace ι) : GateRace ι :=
  match race.phase i with
  | .idle | .checked _ | .loaded _ => race.goto i (.finished .stopped)
  | .holding _ _ => { race.goto i (.finished .stopped) with holder := none }
  | .written | .finished _ => race

variable (calls : ι → GateCall)

def gateStep (move : GateMove ι) (race : GateRace ι) : Unit × GateRace ι :=
  match move with
  | .stop i => ((), stopStep i race)
  | .advance i =>
    match calls i with
    | .complete call => ((), completeStep call i race)
    | .reopen call => ((), reopenStep call i race)

/-! ## What is claimed -/

abbrev GateStep (ι : Type) := Record (GateRace ι) (GateMove ι) Unit

def isDone (projection : GateProjection) (gateId : GateId) : Prop :=
  (projection.read gateId).status = .done

def DonePrefix (projection : GateProjection) : Prop :=
  ∀ gateId earlier : GateId, isDone projection gateId → earlier.index < gateId.index → isDone projection earlier

def OnlyCompleted (step : GateStep ι) : Prop :=
  ∀ gateId, ¬ isDone step.before.stored gateId → isDone step.after.stored gateId →
    ∃ i call, step.request = .advance i ∧ calls i = .complete call ∧ call.gateId = gateId ∧
      ∀ earlier : GateId, earlier.index < gateId.index → isDone step.before.stored earlier

/-- No gate that a writer found done, and relies on or writes back, has been reset since. -/
def NothingReset (step : GateStep ι) : Prop :=
  match step.request with
  | .stop _ => True
  | .advance i =>
    match calls i, step.before.phase i with
    | .complete call, .holding seen latest =>
      (∀ gateId : GateId, gateId.index < call.gateId.index → (seen gateId).status = .done →
        isDone step.before.stored gateId) ∧
      ∀ gateId, gateId ≠ call.gateId → isDone latest gateId → isDone step.before.stored gateId
    | .reopen call, .loaded copy =>
      ∀ gateId : GateId, gateId.index < call.fromGate.index → isDone copy gateId → isDone step.before.stored gateId
    | _, _ => True

/-! ## Writes -/

variable {call : CompleteCall}

theorem overlay_done {latest : GateProjection} {gateId : GateId} :
    isDone (call.overlay latest) gateId ↔ gateId = call.gateId ∨ isDone latest gateId := by
  by_cases same : gateId = call.gateId
  · subst same
    refine iff_of_true ?_ (.inl rfl)
    simp [isDone, CompleteCall.overlay, GateProjection.read, CompleteCall.completion]
  · have kept : (call.overlay latest).read gateId = latest.read gateId :=
      Function.update_of_ne same _ _
    rw [isDone, kept, or_iff_right same]
    rfl

theorem reset_done {call : ReopenCall} {copy : GateProjection} {gateId : GateId} :
    isDone (call.reset copy) gateId ↔ gateId.index < call.fromGate.index ∧ isDone copy gateId := by
  have after : gateId ∈ call.gatesReset ↔ ¬ gateId.index < call.fromGate.index := by
    simp [ReopenCall.gatesReset]
  simp only [isDone, ReopenCall.reset, GateProjection.read, Option.getD_some, after]
  by_cases earlier : gateId.index < call.fromGate.index
  · simp [earlier]
  · simp [earlier, GateCompletion.pending]

theorem DonePrefix.reset {copy : GateProjection} (ordered : DonePrefix copy) (call : ReopenCall) :
    DonePrefix (call.reset copy) := by
  intro gateId earlier done before
  rw [reset_done] at done ⊢
  exact ⟨before.trans done.1, ordered gateId earlier done.2 before⟩

theorem DonePrefix.overlay {latest : GateProjection} (ordered : DonePrefix latest)
    (ready : ∀ earlier : GateId, earlier.index < call.gateId.index → isDone latest earlier) :
    DonePrefix (call.overlay latest) := by
  intro gateId earlier done before
  rw [overlay_done] at done ⊢
  rcases done with rfl | done
  · exact .inr (ready earlier before)
  · exact .inr (ordered gateId earlier done before)

/-! ## The invariant -/

def GatePhaseSound (call : GateCall) (stored : GateProjection) : GatePhase → Prop
  | .checked seen => ∃ complete, call = .complete complete ∧ canCompleteGate seen complete.gateId = true
  | .holding seen latest =>
    (∃ complete, call = .complete complete ∧ canCompleteGate seen complete.gateId = true) ∧
      DonePrefix latest ∧ ∀ gateId, isDone stored gateId → isDone latest gateId
  | .loaded copy => DonePrefix copy
  | .idle | .written | .finished _ => True

def GatePhase.holds : GatePhase → Bool
  | holding _ _ | written => true
  | _ => false

structure GateInvariant (race : GateRace ι) : Prop where
  ordered : DonePrefix race.stored
  holder : ∀ i, (race.phase i).holds = true → race.holder = some i
  phases : ∀ i, GatePhaseSound (calls i) race.stored (race.phase i)

variable {calls} {race : GateRace ι} {i : ι}

omit [DecidableEq ι] in
theorem GateInvariant.initial : GateInvariant calls (.start : GateRace ι) where
  ordered := fun _ _ done => nomatch done
  holder := nofun
  phases := fun _ => trivial

variable {phase : GatePhase}

theorem forall_moved {P : ι → GatePhase → Prop} (moved : P i phase) (others : ∀ j, j ≠ i → P j (race.phase j)) :
    ∀ j, P j (Function.update race.phase i phase j) :=
  (Function.forall_update_iff race.phase P).mpr ⟨moved, others⟩

theorem GateInvariant.goto (invariant : GateInvariant calls race)
    (holds : phase.holds = true → (race.phase i).holds = true)
    (sound : GatePhaseSound (calls i) race.stored phase) : GateInvariant calls (race.goto i phase) where
  ordered := invariant.ordered
  holder := forall_moved (P := fun j phase => phase.holds = true → race.holder = some j)
    (fun held => invariant.holder i (holds held)) fun j _ => invariant.holder j
  phases := forall_moved (P := fun j => GatePhaseSound (calls j) race.stored) sound
    fun j _ => invariant.phases j

theorem GateInvariant.acquire (invariant : GateInvariant calls race) (free : race.holder = none)
    (sound : GatePhaseSound (calls i) race.stored phase) :
    GateInvariant calls { race.goto i phase with holder := some i } where
  ordered := invariant.ordered
  holder := by
    refine forall_moved (P := fun j phase => phase.holds = true → some i = some j) (fun _ => rfl) fun j _ held => ?_
    cases free.symm.trans (invariant.holder j held)
  phases := forall_moved (P := fun j => GatePhaseSound (calls j) race.stored) sound
    fun j _ => invariant.phases j

omit [DecidableEq ι] in
theorem GateInvariant.alone (invariant : GateInvariant calls race) (held : (race.phase i).holds = true)
    {j : ι} (differs : j ≠ i) : (race.phase j).holds = false := by
  by_contra both
  have same := (invariant.holder j (by simpa using both)).symm.trans (invariant.holder i held)
  exact differs (Option.some.inj same)

theorem GateInvariant.release (invariant : GateInvariant calls race)
    (held : (race.phase i).holds = true) (result : GateResult) :
    GateInvariant calls { race.goto i (.finished result) with holder := none } where
  ordered := invariant.ordered
  holder := by
    refine forall_moved (P := fun j phase => phase.holds = true → none = some j)
      (fun kept => nomatch kept) fun j differs other => ?_
    cases (invariant.alone held differs).symm.trans other
  phases := forall_moved (P := fun j => GatePhaseSound (calls j) race.stored) trivial
    fun j _ => invariant.phases j

theorem GateInvariant.write (invariant : GateInvariant calls race) {next : GateProjection} (ordered : DonePrefix next)
    (covered : ∀ j, j ≠ i → (race.phase j).holds = true → ∀ gateId, isDone next gateId → isDone race.stored gateId)
    (holds : phase.holds = true → (race.phase i).holds = true) (sound : GatePhaseSound (calls i) next phase) :
    GateInvariant calls { race.goto i phase with stored := next } where
  ordered := ordered
  holder := forall_moved (P := fun j phase => phase.holds = true → race.holder = some j)
    (fun held => invariant.holder i (holds held)) fun j _ => invariant.holder j
  phases := by
    refine forall_moved (P := fun j => GatePhaseSound (calls j) next) sound fun j differs => ?_
    have before := invariant.phases j
    cases reached : race.phase j with
    | holding seen latest =>
      rw [reached] at before
      exact ⟨before.1, before.2.1, fun gateId done =>
        before.2.2 gateId (covered j differs (by rw [reached]; rfl) gateId done)⟩
    | idle | checked | written | loaded | finished =>
      rw [reached] at before
      exact before

/-! ## Steps -/

theorem completeStep_invariant (isComplete : calls i = .complete call) (invariant : GateInvariant calls race)
    (fresh : ∀ seen latest, race.phase i = .holding seen latest →
      (∀ gateId : GateId, gateId.index < call.gateId.index → (seen gateId).status = .done →
        isDone race.stored gateId) ∧
      ∀ gateId, gateId ≠ call.gateId → isDone latest gateId → isDone race.stored gateId) :
    GateInvariant calls (completeStep call i race) := by
  have sound := invariant.phases i
  unfold completeStep
  split
  next idle =>
    simp only
    split
    next ready => exact invariant.goto (fun held => nomatch held) ⟨call, isComplete, ready⟩
    next => exact invariant.goto (fun held => nomatch held) trivial
  next seen checked =>
    rw [checked] at sound
    split
    next free =>
      exact invariant.acquire (Option.isNone_iff_eq_none.mp free) ⟨sound, invariant.ordered, fun _ done => done⟩
    next => exact invariant
  next seen latest holding =>
    rw [holding] at sound
    have held : (race.phase i).holds = true := by rw [holding]; rfl
    obtain ⟨⟨same, sameCall, ready⟩, ordered, covers⟩ := sound
    cases isComplete.symm.trans sameCall
    obtain ⟨unreset, _⟩ := fresh seen latest holding
    refine invariant.write (ordered.overlay fun earlier before => ?_) ?_ (fun _ => held) trivial
    · exact covers earlier (unreset earlier before (canCompleteGate_iff.mp ready earlier before))
    · intro j differs other
      cases (invariant.alone held differs).symm.trans other
  next written =>
    exact invariant.release (by rw [written]; rfl) _
  next => exact invariant
  next => exact invariant

theorem reopenStep_invariant {call : ReopenCall} (invariant : GateInvariant calls race)
    (fresh : ∀ copy, race.phase i = .loaded copy → ∀ gateId : GateId,
      gateId.index < call.fromGate.index → isDone copy gateId → isDone race.stored gateId) :
    GateInvariant calls (reopenStep call i race) := by
  have sound := invariant.phases i
  unfold reopenStep
  split
  next idle =>
    simp only
    split
    next => exact invariant.goto (fun held => nomatch held) trivial
    next =>
      split
      next => exact invariant.goto (fun held => nomatch held) trivial
      next => exact invariant.goto (fun held => nomatch held) invariant.ordered
  next copy loaded =>
    rw [loaded] at sound
    refine invariant.write (sound.reset call) ?_ (fun held => nomatch held) trivial
    intro j _ _ gateId done
    obtain ⟨before, kept⟩ := reset_done.mp done
    exact fresh copy loaded gateId before kept
  next => exact invariant
  next => exact invariant
  next => exact invariant
  next => exact invariant

theorem stopStep_invariant (invariant : GateInvariant calls race) : GateInvariant calls (stopStep i race) := by
  unfold stopStep
  split
  next => exact invariant.goto (fun held => nomatch held) trivial
  next => exact invariant.goto (fun held => nomatch held) trivial
  next => exact invariant.goto (fun held => nomatch held) trivial
  next holding => exact invariant.release (by rw [holding]; rfl) _
  next => exact invariant
  next => exact invariant

variable {move : GateMove ι}

theorem gateStep_invariant (invariant : GateInvariant calls race)
    (fresh : NothingReset calls (Foundation.recordOf (gateStep calls) move race)) :
    GateInvariant calls (gateStep calls move race).2 := by
  cases move with
  | stop i => exact stopStep_invariant invariant
  | advance i =>
    simp only [NothingReset, recordOf_request, recordOf_before] at fresh
    cases isCall : calls i with
    | complete call =>
      simp only [gateStep, isCall]
      refine completeStep_invariant isCall invariant fun seen latest holding => ?_
      simpa only [isCall, holding] using fresh
    | reopen call =>
      simp only [gateStep, isCall]
      refine reopenStep_invariant invariant fun copy loaded => ?_
      simpa only [isCall, loaded] using fresh

/-! ## What a step can do to the stored gates -/

theorem gateStep_stored (calls : ι → GateCall) (move : GateMove ι) (race : GateRace ι) :
    (gateStep calls move race).2.stored = race.stored ∨
      (∃ i call seen latest, move = .advance i ∧ calls i = .complete call ∧ race.phase i = .holding seen latest ∧
        (gateStep calls move race).2.stored = call.overlay latest) ∨
      ∃ i call copy, move = .advance i ∧ calls i = .reopen call ∧ race.phase i = .loaded copy ∧
        (gateStep calls move race).2.stored = call.reset copy := by
  cases move with
  | stop i =>
    left
    simp only [gateStep, stopStep]
    split <;> rfl
  | advance i =>
    cases isCall : calls i with
    | complete call =>
      simp only [gateStep, isCall, completeStep]
      split
      · split <;> exact .inl rfl
      · split <;> exact .inl rfl
      next seen latest holding => exact .inr (.inl ⟨i, call, seen, latest, rfl, isCall, holding, rfl⟩)
      all_goals exact .inl rfl
    | reopen call =>
      simp only [gateStep, isCall, reopenStep]
      split
      · split
        · exact .inl rfl
        · split <;> exact .inl rfl
      next copy loaded => exact .inr (.inr ⟨i, call, copy, rfl, isCall, loaded, rfl⟩)
      all_goals exact .inl rfl

theorem onlyCompleted_of_fresh (invariant : GateInvariant calls race)
    (fresh : NothingReset calls (Foundation.recordOf (gateStep calls) move race)) :
    OnlyCompleted calls (Foundation.recordOf (gateStep calls) move race) := by
  intro gateId pending done
  rcases gateStep_stored calls move race with
    same | ⟨i, call, seen, latest, rfl, isCall, holding, stored⟩ | ⟨i, call, copy, rfl, isCall, loaded, stored⟩
  · rw [recordOf_after, same] at done
    exact absurd done pending
  · rw [recordOf_after, stored, overlay_done] at done
    simp only [NothingReset, recordOf_request, recordOf_before, isCall, holding] at fresh
    obtain ⟨unreset, unrevived⟩ := fresh
    have sound := invariant.phases i
    rw [holding, isCall] at sound
    obtain ⟨same, sameCall, ready⟩ := sound.1
    cases sameCall
    have isGate : gateId = call.gateId := by
      rcases done with isGate | done
      · exact isGate
      · by_contra other
        exact pending (unrevived gateId other done)
    refine ⟨i, call, rfl, isCall, isGate.symm, fun earlier before => ?_⟩
    rw [isGate] at before
    exact unreset earlier before (canCompleteGate_iff.mp ready earlier before)
  · rw [recordOf_after, stored, reset_done] at done
    simp only [NothingReset, recordOf_request, recordOf_before, isCall, loaded] at fresh
    exact absurd (fresh gateId done.1 done.2) pending

theorem fresh_of_onlyCompleted (ordered : DonePrefix race.stored)
    (completed : OnlyCompleted calls (Foundation.recordOf (gateStep calls) move race)) :
    NothingReset calls (Foundation.recordOf (gateStep calls) move race) := by
  -- A gate that the write marks done, other than the one completed, was done before.
  have kept : ∀ gateId, isDone (gateStep calls move race).2.stored gateId →
      (∀ i call, move = .advance i → calls i = .complete call → call.gateId ≠ gateId) →
      isDone race.stored gateId := by
    intro gateId done other
    by_contra pending
    obtain ⟨i, call, isMove, isCall, same, _⟩ := completed gateId pending done
    exact other i call isMove isCall same
  unfold NothingReset
  split
  next => trivial
  next i isMove =>
    cases isMove
    split
    next call seen latest isCall holding =>
      rw [recordOf_before] at holding
      have stored : (gateStep calls (.advance i) race).2.stored = call.overlay latest := by
        simp only [gateStep, isCall, completeStep, holding]
      refine ⟨fun gateId before _ => ?_, fun gateId other done => ?_⟩
      · by_cases already : isDone race.stored call.gateId
        · exact ordered call.gateId gateId already before
        · have done : isDone (gateStep calls (.advance i) race).2.stored call.gateId := by
            rw [stored, overlay_done]
            exact .inl rfl
          obtain ⟨_, _, _, _, _, ready⟩ := completed call.gateId already done
          exact ready gateId before
      · refine kept gateId (by rw [stored, overlay_done]; exact .inr done) ?_
        rintro j again isMove isAgain same
        cases isMove
        cases isCall.symm.trans isAgain
        exact other same.symm
    next call copy isCall loaded =>
      rw [recordOf_before] at loaded
      have stored : (gateStep calls (.advance i) race).2.stored = call.reset copy := by
        simp only [gateStep, isCall, reopenStep, loaded]
      intro gateId before done
      refine kept gateId (by rw [stored, reset_done]; exact ⟨before, done⟩) ?_
      rintro j again isMove isAgain _
      cases isMove
      cases isCall.symm.trans isAgain
    next => trivial

/-! ## Runs -/

/-- In every state of a run the done gates are a prefix of the order and gates become done
    only by completions in order, just if no writer relies on a gate that was reset since
    it read. -/
theorem gate_prefix_iff (calls : ι → GateCall) (moves : List (GateMove ι)) :
    (∀ step ∈ trace (gateStep calls) moves .start,
      DonePrefix step.before.stored ∧ DonePrefix step.after.stored ∧ OnlyCompleted calls step) ↔
    ∀ step ∈ trace (gateStep calls) moves .start, NothingReset calls step := by
  constructor
  · intro kept step member
    obtain ⟨ordered, _, completed⟩ := kept step member
    rw [trace_step member] at completed ⊢
    exact fresh_of_onlyCompleted ordered completed
  · intro fresh step member
    obtain ⟨before, after⟩ := (trace_guarded (P := GateInvariant calls)
      (fun move race good invariant => gateStep_invariant invariant good) fresh
      GateInvariant.initial).1 step member
    refine ⟨before.ordered, after.ordered, ?_⟩
    have good := fresh step member
    rw [trace_step member] at good ⊢
    exact onlyCompleted_of_fresh before good

end

/-! ## Fixed runs -/

def completionOf (gateId : GateId) : CompleteCall :=
  ⟨gateId, "agent", none, none, none, "2026-01-02T00:00:00.000Z"⟩

def reopeningCalls : Fin 3 → GateCall
  | 0 => .complete (completionOf .proposal)
  | 1 => .complete (completionOf .discovery)
  | 2 => .reopen ⟨.proposal, "The scope grew", none, none, none, "2026-01-02T00:00:01.000Z"⟩

def reopenedMeanwhile : List (GateMove (Fin 3)) :=
  [0, 0, 0, 0, 1, 2, 2, 1, 1, 1].map .advance

/-- The second gate is done while the first is pending. -/
theorem discovery_before_proposal : ¬ ∀ step ∈ trace (gateStep reopeningCalls) reopenedMeanwhile .start,
      DonePrefix step.before.stored ∧ DonePrefix step.after.stored ∧ OnlyCompleted reopeningCalls step := by
  intro kept
  have ordered := (kept (Foundation.recordOf (gateStep reopeningCalls) (.advance 1)
    (stateAfter (gateStep reopeningCalls) (reopenedMeanwhile.take 9) .start))
    (by simp [reopenedMeanwhile, trace])).2.1
  have done : isDone (stateAfter (gateStep reopeningCalls) reopenedMeanwhile .start).stored .discovery := by
    unfold isDone
    rfl
  have pending : ¬ isDone (stateAfter (gateStep reopeningCalls) reopenedMeanwhile .start).stored .proposal := by
    unfold isDone
    decide
  exact pending (ordered .discovery .proposal done (by decide))

end Advance.Tools
