import Advance.Foundation.Run
import Advance.Utils.ProfileEvidence

/-! # Evaluating a lightweight profile

Evaluations of a profile, the failures that gate boundaries record, and runs of them among changes of the
change and of its workspace.
-/

namespace Advance.Tools

open Advance.Foundation Advance.Types Advance.Utils

/-! ## State -/

structure ProfiledChange where
  facts : ChangeFacts
  lightweight_profile : Option LightweightChangeProfile

structure ProfileState where
  change : ProfiledChange
  workspace : Workspace

def ProfileState.evaluations (state : ProfileState) : List LightweightProfileEvaluation :=
  (state.change.lightweight_profile.map LightweightChangeProfile.evaluations).getD []

/-- The mutation that appends an evaluation to the latest projection. -/
def ProfileState.record (evaluation : LightweightProfileEvaluation) (state : ProfileState) : ProfileState :=
  { state with
    change := { state.change with
      lightweight_profile := state.change.lightweight_profile.map fun profile =>
        { profile with evaluations := profile.evaluations ++ [evaluation] } } }

/-! ## Calls -/

/-- What `changes.get` answers. -/
inductive ChangeReading where
  | found
  | failed (error : String)
  | absent

/-- What becomes of a mutation: a failure is reported whether or not it has landed. -/
inductive RecordFate where
  | verified
  | failed (landed : Bool) (error : String)

def RecordFate.landed : RecordFate → Bool
  | verified => true
  | failed landed _ => landed

/-- An evaluation, with what it finds around it. -/
structure ProfileCall where
  phase : LightweightProfilePhase
  apiCompatibilityPolicy : Option PublicRootPolicy
  reading : ChangeReading
  projectId : Option String
  /-- `loadChange` succeeds when the evidence is collected. -/
  loads : Bool
  evaluatedAt : String
  fate : RecordFate

section

variable (sha256 : List Char → String) (changeId : String)

def ProfileCall.snapshot (call : ProfileCall) (profile : LightweightChangeProfile) (workspace : Workspace)
    (loaded : Option ChangeFacts) : LightweightProfileEvidenceSnapshot :=
  collectLightweightProfileEvidence sha256
    ⟨call.projectId.getD "", profile.request.baselineRevision, call.apiCompatibilityPolicy⟩ workspace loaded

def ProfileCall.collected (call : ProfileCall) (profile : LightweightChangeProfile) (state : ProfileState) :
    LightweightProfileEvidenceSnapshot :=
  call.snapshot sha256 profile state.workspace (if call.loads then some state.change.facts else none)

def ProfileCall.evaluationKey (call : ProfileCall) (profile : LightweightChangeProfile) (state : ProfileState) :
    String :=
  buildLightweightProfileEvaluationKey profile.request.requestId call.phase
    (call.collected sha256 profile state).fingerprint

def ProfileCall.present (call : ProfileCall) (profile : LightweightChangeProfile) (state : ProfileState) :
    Option LightweightProfileEvaluation :=
  profile.evaluations.find? fun entry => entry.evaluationKey = call.evaluationKey sha256 profile state

def ProfileCall.evaluation (call : ProfileCall) (profile : LightweightChangeProfile) (state : ProfileState) :
    LightweightProfileEvaluation :=
  evaluateLightweightProfile
    { snapshot := call.collected sha256 profile state
      requestId := profile.request.requestId
      phase := call.phase
      evaluatedAt := call.evaluatedAt
      previousResult := profile.evaluations.getLast?.map LightweightProfileEvaluation.result
      evaluationKey := some (call.evaluationKey sha256 profile state) }

def evaluateLightweightProfileAndSignal (call : ProfileCall) (state : ProfileState) :
    Except String LightweightProfileEvaluation × ProfileState :=
  match call.reading with
  | .failed error => (.error s!"Change {changeId} not found: {error}", state)
  | .absent => (.error s!"Change {changeId} not found", state)
  | .found =>
    match state.change.lightweight_profile with
    | none => (.error s!"Change {changeId} has no lightweight profile request", state)
    | some profile =>
      if call.projectId.getD "" = "" then (.error "Could not resolve project ID", state)
      else
        match call.present sha256 profile state with
        | some evaluation => (.ok evaluation, state)
        | none =>
          let evaluation := call.evaluation sha256 profile state
          match call.fate with
          | .verified => (.ok evaluation, state.record evaluation)
          | .failed landed error => (.error error, if landed then state.record evaluation else state)

/-! ## Gate boundaries -/

/-- How a boundary failure is recorded. -/
structure FailureRecord where
  /-- `Date.now()` -/
  now : Nat
  evaluatedAt : String
  landed : Bool

def boundaryFailure (profile : LightweightChangeProfile) (phase : LightweightProfilePhase) (error : String)
    (record : FailureRecord) : LightweightProfileEvaluation :=
  let priorQualified := profile.evaluations.any fun entry => entry.result = .qualified
  { evaluationKey := s!"{profile.request.requestId}:{phase.text}:boundary_failure:{record.now}"
    phase := phase
    result := if priorQualified then .downgraded else .ineligible
    criteria := CRITERION_ORDER.map fun criterion => ⟨criterion, .unknown, s!"Boundary evaluation failed: {error}"⟩
    evidenceFingerprint := "boundary_failure"
    observedRevision := "unknown"
    evaluatedAt := record.evaluatedAt
    downgradeReason :=
      if priorQualified then some s!"Boundary evaluation failed after prior qualification: {error}" else none }

/-- One phase of `evaluateLightweightProfileAtPhases`, with the profile of the change as the gate had read it. -/
def evaluateLightweightProfileAtPhase (profile : LightweightChangeProfile) (call : ProfileCall)
    (record : FailureRecord) (state : ProfileState) : LightweightProfileResult × ProfileState :=
  match evaluateLightweightProfileAndSignal sha256 changeId call state with
  | (.ok evaluation, after) => (evaluation.result, after)
  | (.error error, after) =>
    let failure := boundaryFailure profile call.phase error record
    (failure.result, if record.landed then after.record failure else after)

/-! ## Runs -/

inductive ProfileMove where
  | evaluate (call : ProfileCall)
  | boundary (profile : LightweightChangeProfile) (call : ProfileCall) (record : FailureRecord)
  | mutate (facts : ChangeFacts)
  | work (workspace : Workspace)

def serveProfile (move : ProfileMove) (state : ProfileState) : Option LightweightProfileResult × ProfileState :=
  match move with
  | .evaluate call =>
    let (answer, after) := evaluateLightweightProfileAndSignal sha256 changeId call state
    (answer.toOption.map LightweightProfileEvaluation.result, after)
  | .boundary profile call record =>
    let (result, after) := evaluateLightweightProfileAtPhase sha256 changeId profile call record state
    (some result, after)
  | .mutate facts => (none, { state with change := { state.change with facts := facts } })
  | .work workspace => (none, { state with workspace := workspace })

/-! ## What is claimed of a run -/

def ProfileCall.criteriaHold (call : ProfileCall) (state : ProfileState) : Bool :=
  state.change.lightweight_profile.any fun profile =>
    allSatisfied (call.snapshot sha256 profile state.workspace (some state.change.facts))

def Downgraded (state : ProfileState) : Prop := ∃ evaluation ∈ state.evaluations, evaluation.result = .downgraded

abbrev ProfileStep := Record ProfileState ProfileMove (Option LightweightProfileResult)

def ProfileMove.call : ProfileMove → Option ProfileCall
  | evaluate call | boundary _ call _ => some call
  | mutate _ | work _ => none

def Qualifies (step : ProfileStep) : Prop :=
  step.response = some .qualified ∨ ∃ recorded, step.after.evaluations = step.before.evaluations ++ recorded ∧
      ∃ evaluation ∈ recorded, evaluation.result = .qualified

def QualificationHolds (moves : List ProfileMove) (state : ProfileState) : Prop :=
  ∀ front step back, trace (serveProfile sha256 changeId) moves state = front ++ step :: back → Qualifies step →
    (∃ call, step.request.call = some call ∧ call.criteriaHold sha256 step.before = true) ∧
      ¬ Downgraded state ∧ ∀ earlier ∈ front, ¬ Downgraded earlier.after

/-! ## When a call qualifies -/

structure ProfileCall.Reaches (call : ProfileCall) (state : ProfileState) (profile : LightweightChangeProfile) :
    Prop where
  reading : call.reading = .found
  requested : state.change.lightweight_profile = some profile
  project : call.projectId.getD "" ≠ ""

/-- A recorded evaluation under the key says so, or a new one does and lands. -/
def ProfileCall.CallsQualified (call : ProfileCall) (state : ProfileState) (profile : LightweightChangeProfile) :
    Prop :=
  match call.present sha256 profile state with
  | some evaluation => evaluation.result = .qualified
  | none => call.loads = true ∧ call.criteriaHold sha256 state = true ∧ call.fate.landed = true

variable {sha256 changeId} {call : ProfileCall} {state : ProfileState} {profile : LightweightChangeProfile}

theorem ProfileCall.Reaches.evaluations (reaches : call.Reaches state profile) :
    state.evaluations = profile.evaluations := by
  simp [ProfileState.evaluations, reaches.requested]

theorem record_evaluations (evaluation : LightweightProfileEvaluation) (state : ProfileState) :
    ∃ recorded, (state.record evaluation).evaluations = state.evaluations ++ recorded ∧
      (∀ entry ∈ recorded, entry = evaluation) ∧
      (state.change.lightweight_profile.isSome → recorded = [evaluation]) := by
  cases requested : state.change.lightweight_profile with
  | none => exact ⟨[], by simp [ProfileState.record, ProfileState.evaluations, requested], by simp, nofun⟩
  | some profile =>
    exact ⟨[evaluation], by simp [ProfileState.record, ProfileState.evaluations, requested], by simp, fun _ => rfl⟩

theorem collected_satisfied (reaches : call.Reaches state profile) :
    allSatisfied (call.collected sha256 profile state) = true ↔
      call.loads = true ∧ call.criteriaHold sha256 state = true := by
  unfold ProfileCall.collected ProfileCall.criteriaHold
  rw [reaches.requested]
  cases loads : call.loads with
  | true => simp
  | false =>
    refine iff_of_false (fun satisfied => ?_) (by simp)
    have tasks := (allSatisfied_iff.mp satisfied).1.1
    simp [ProfileCall.snapshot, collectLightweightProfileEvidence, extractTaskFacts] at tasks

theorem evaluate_cases (sha256 : List Char → String) (changeId : String) (call : ProfileCall) (state : ProfileState) :
    ((∀ profile, ¬ call.Reaches state profile) ∧
        ∃ error, evaluateLightweightProfileAndSignal sha256 changeId call state = (.error error, state)) ∨
      ∃ profile, call.Reaches state profile ∧ ((∃ evaluation, call.present sha256 profile state = some evaluation ∧
            evaluateLightweightProfileAndSignal sha256 changeId call state = (.ok evaluation, state)) ∨
          (call.present sha256 profile state = none ∧ call.fate = .verified ∧
            evaluateLightweightProfileAndSignal sha256 changeId call state =
              (.ok (call.evaluation sha256 profile state), state.record (call.evaluation sha256 profile state))) ∨
          ∃ landed error, call.present sha256 profile state = none ∧ call.fate = .failed landed error ∧
            evaluateLightweightProfileAndSignal sha256 changeId call state =
              (.error error, if landed then state.record (call.evaluation sha256 profile state) else state)) := by
  unfold evaluateLightweightProfileAndSignal
  cases reading : call.reading with
  | failed error => exact .inl ⟨fun _ reaches => (nomatch reading.symm.trans reaches.reading), _, rfl⟩
  | absent => exact .inl ⟨fun _ reaches => (nomatch reading.symm.trans reaches.reading), _, rfl⟩
  | found =>
    cases requested : state.change.lightweight_profile with
    | none => exact .inl ⟨fun _ reaches => (nomatch requested.symm.trans reaches.requested), _, rfl⟩
    | some profile =>
      by_cases project : call.projectId.getD "" = ""
      · exact .inl ⟨fun _ reaches => reaches.project project, _, if_pos project⟩
      · refine .inr ⟨profile, ⟨reading, requested, project⟩, ?_⟩
        simp only [if_neg project]
        cases present : call.present sha256 profile state with
        | some evaluation => exact .inl ⟨evaluation, rfl, rfl⟩
        | none =>
          cases fate : call.fate with
          | verified => exact .inr (.inl ⟨rfl, rfl, rfl⟩)
          | failed landed error => exact .inr (.inr ⟨landed, error, rfl, rfl, rfl⟩)

theorem boundaryFailure_not_qualified (profile : LightweightChangeProfile) (phase : LightweightProfilePhase)
    (error : String) (record : FailureRecord) : (boundaryFailure profile phase error record).result ≠ .qualified := by
  unfold boundaryFailure
  dsimp only
  split <;> simp

theorem qualifies_of_appends {step : ProfileStep} {recorded : List LightweightProfileEvaluation}
    (appends : step.after.evaluations = step.before.evaluations ++ recorded) :
    Qualifies step ↔ step.response = some .qualified ∨ ∃ evaluation ∈ recorded, evaluation.result = .qualified := by
  refine or_congr_right ⟨?_, fun qualified => ⟨recorded, appends, qualified⟩⟩
  rintro ⟨other, appended, qualified⟩
  rwa [List.append_cancel_left (appends.symm.trans appended)]

theorem evaluation_qualified (reaches : call.Reaches state profile) :
    (call.evaluation sha256 profile state).result = .qualified ↔
      call.loads = true ∧ call.criteriaHold sha256 state = true :=
  evaluateLightweightProfile_qualified.trans (collected_satisfied reaches)

theorem evaluate_qualifies (sha256 : List Char → String) (changeId : String) (call : ProfileCall)
    (state : ProfileState) :
    ∃ recorded, (evaluateLightweightProfileAndSignal sha256 changeId call state).2.evaluations =
        state.evaluations ++ recorded ∧
      (((∃ evaluation, (evaluateLightweightProfileAndSignal sha256 changeId call state).1 = .ok evaluation ∧
          evaluation.result = .qualified) ∨ ∃ entry ∈ recorded, entry.result = .qualified) ↔
        ∃ profile, call.Reaches state profile ∧ call.CallsQualified sha256 state profile) := by
  rcases evaluate_cases sha256 changeId call state with ⟨unreached, error, outcome⟩ | ⟨profile, reaches, reached⟩
  · refine ⟨[], by simp [outcome], iff_of_false (by simp [outcome]) ?_⟩
    rintro ⟨profile, reaches, _⟩
    exact unreached profile reaches
  · -- the profile is the one the change has
    have only : (∃ profile, call.Reaches state profile ∧ call.CallsQualified sha256 state profile) ↔
        call.CallsQualified sha256 state profile := by
      refine ⟨?_, fun qualified => ⟨profile, reaches, qualified⟩⟩
      rintro ⟨other, also, qualified⟩
      rwa [Option.some.inj (reaches.requested.symm.trans also.requested)]
    rw [only]
    unfold ProfileCall.CallsQualified
    obtain ⟨appended, after, entries, whole⟩ := record_evaluations (call.evaluation sha256 profile state) state
    have requested : state.change.lightweight_profile.isSome := by simp [reaches.requested]
    obtain rfl := whole requested
    rcases reached with ⟨evaluation, present, outcome⟩ | ⟨absent, fate, outcome⟩ |
      ⟨landed, error, absent, fate, outcome⟩
    · refine ⟨[], by simp [outcome], ?_⟩
      simp [outcome, present]
    · refine ⟨[call.evaluation sha256 profile state], by rw [outcome, after], ?_⟩
      simp [outcome, absent, fate, RecordFate.landed, evaluation_qualified reaches]
    · cases landed with
      | true =>
        refine ⟨[call.evaluation sha256 profile state], by simp [outcome, after], ?_⟩
        simp [outcome, absent, fate, RecordFate.landed, evaluation_qualified reaches]
      | false =>
        refine ⟨[], by simp [outcome], ?_⟩
        simp [outcome, absent, fate, RecordFate.landed]

theorem failure_appends (profile : LightweightChangeProfile) (phase : LightweightProfilePhase) (error : String)
    (record : FailureRecord) (state : ProfileState) :
    ∃ recorded, (if record.landed then state.record (boundaryFailure profile phase error record)
        else state).evaluations = state.evaluations ++ recorded ∧ ∀ entry ∈ recorded, entry.result ≠ .qualified := by
  by_cases landed : record.landed = true
  · obtain ⟨recorded, after, entries, _⟩ := record_evaluations (boundaryFailure profile phase error record) state
    refine ⟨recorded, by rw [if_pos landed, after], fun entry member => ?_⟩
    rw [entries entry member]
    exact boundaryFailure_not_qualified profile phase error record
  · exact ⟨[], by simp [landed], by simp⟩

theorem serve_qualifies (sha256 : List Char → String) (changeId : String) (move : ProfileMove)
    (state : ProfileState) :
    (∃ recorded, (serveProfile sha256 changeId move state).2.evaluations = state.evaluations ++ recorded) ∧
      (Qualifies (Foundation.recordOf (serveProfile sha256 changeId) move state) ↔
        ∃ call profile, move.call = some call ∧ call.Reaches state profile ∧
          call.CallsQualified sha256 state profile) := by
  cases move with
  | evaluate call =>
    obtain ⟨recorded, appends, qualifies⟩ := evaluate_qualifies sha256 changeId call state
    refine ⟨⟨recorded, appends⟩, ?_⟩
    rw [qualifies_of_appends appends]
    simp only [ProfileMove.call, Option.some.injEq, exists_and_left, exists_eq_left', ← qualifies]
    refine or_congr_left ?_
    have response : (Foundation.recordOf (serveProfile sha256 changeId) (.evaluate call) state).response =
        (evaluateLightweightProfileAndSignal sha256 changeId call state).1.toOption.map
          LightweightProfileEvaluation.result := rfl
    rw [response]
    cases (evaluateLightweightProfileAndSignal sha256 changeId call state).1 <;> simp [Except.toOption]
  | boundary profile call record =>
    obtain ⟨recorded, appends, qualifies⟩ := evaluate_qualifies sha256 changeId call state
    simp only [ProfileMove.call, Option.some.injEq, exists_and_left, exists_eq_left', ← qualifies]
    rcases answered : evaluateLightweightProfileAndSignal sha256 changeId call state with ⟨error | evaluation, after⟩
    · rw [answered] at appends
      have served : serveProfile sha256 changeId (.boundary profile call record) state =
          (some (boundaryFailure profile call.phase error record).result,
            if record.landed then after.record (boundaryFailure profile call.phase error record) else after) := by
        simp only [serveProfile, evaluateLightweightProfileAtPhase, answered]
      obtain ⟨failures, appended, unqualified⟩ := failure_appends profile call.phase error record after
      have both : (serveProfile sha256 changeId (.boundary profile call record) state).2.evaluations =
          state.evaluations ++ (recorded ++ failures) := by
        rw [served, ← List.append_assoc, ← appends]
        exact appended
      refine ⟨⟨_, both⟩, ?_⟩
      rw [qualifies_of_appends both]
      have failed : (Foundation.recordOf (serveProfile sha256 changeId) (.boundary profile call record) state).response ≠
          some .qualified := by
        simpa [Foundation.recordOf, served] using boundaryFailure_not_qualified profile call.phase error record
      simp only [failed, false_or, List.mem_append, reduceCtorEq, false_and, exists_false]
      constructor
      · rintro ⟨entry, early | late, qualified⟩
        · exact ⟨entry, early, qualified⟩
        · exact absurd qualified (unqualified entry late)
      · rintro ⟨entry, early, qualified⟩
        exact ⟨entry, .inl early, qualified⟩
    · rw [answered] at appends
      have served : serveProfile sha256 changeId (.boundary profile call record) state =
          (some evaluation.result, after) := by
        simp only [serveProfile, evaluateLightweightProfileAtPhase, answered]
      have kept : (serveProfile sha256 changeId (.boundary profile call record) state).2.evaluations =
          state.evaluations ++ recorded := by
        rw [served]
        exact appends
      refine ⟨⟨_, kept⟩, ?_⟩
      rw [qualifies_of_appends kept]
      simp [Foundation.recordOf, served]
  | mutate facts =>
    have appends : (serveProfile sha256 changeId (.mutate facts) state).2.evaluations = state.evaluations ++ [] := by
      simp [serveProfile, ProfileState.evaluations]
    refine ⟨⟨[], appends⟩, ?_⟩
    rw [qualifies_of_appends appends]
    simp [ProfileMove.call, Foundation.recordOf, serveProfile]
  | work workspace =>
    have appends : (serveProfile sha256 changeId (.work workspace) state).2.evaluations =
        state.evaluations ++ [] := by
      simp [serveProfile, ProfileState.evaluations]
    refine ⟨⟨[], appends⟩, ?_⟩
    rw [qualifies_of_appends appends]
    simp [ProfileMove.call, Foundation.recordOf, serveProfile]

/-! ## Runs -/

/-- A call that reaches its profile finds no qualified evaluation under its key unless the criteria hold, and
    nothing that says the change is qualified after a downgrade. -/
def ProfileMove.Admissible (sha256 : List Char → String) (move : ProfileMove) (state : ProfileState) : Prop :=
  ∀ call, move.call = some call → ∀ profile, call.Reaches state profile →
    match call.present sha256 profile state with
    | some evaluation =>
      evaluation.result = .qualified → call.criteriaHold sha256 state = true ∧ ¬ Downgraded state
    | none =>
      call.loads = true → call.criteriaHold sha256 state = true → call.fate.landed = true → ¬ Downgraded state

theorem admissible_iff (move : ProfileMove) (state : ProfileState) :
    move.Admissible sha256 state ↔ (Qualifies (Foundation.recordOf (serveProfile sha256 changeId) move state) →
      (∃ call, move.call = some call ∧ call.criteriaHold sha256 state = true) ∧ ¬ Downgraded state) := by
  rw [(serve_qualifies sha256 changeId move state).2]
  constructor
  · rintro admissible ⟨call, profile, called, reaches, qualified⟩
    have allowed := admissible call called profile reaches
    unfold ProfileCall.CallsQualified at qualified
    cases present : call.present sha256 profile state with
    | some evaluation =>
      rw [present] at allowed qualified
      exact ⟨⟨call, called, (allowed qualified).1⟩, (allowed qualified).2⟩
    | none =>
      rw [present] at allowed qualified
      exact ⟨⟨call, called, qualified.2.1⟩, allowed qualified.1 qualified.2.1 qualified.2.2⟩
  · intro allowed call called profile reaches
    have here : call.CallsQualified sha256 state profile →
        call.criteriaHold sha256 state = true ∧ ¬ Downgraded state := by
      intro qualified
      obtain ⟨⟨other, also, hold⟩, never⟩ := allowed ⟨call, profile, called, reaches, qualified⟩
      obtain rfl := Option.some.inj (also.symm.trans called)
      exact ⟨hold, never⟩
    unfold ProfileCall.CallsQualified at here
    cases present : call.present sha256 profile state with
    | some evaluation => simpa [present] using here
    | none =>
      rw [present] at here
      exact fun loads hold landed => (here ⟨loads, hold, landed⟩).2

theorem downgraded_persists (move : ProfileMove) (state : ProfileState) (downgraded : Downgraded state) :
    Downgraded (serveProfile sha256 changeId move state).2 := by
  obtain ⟨evaluation, member, result⟩ := downgraded
  obtain ⟨recorded, appends⟩ := (serve_qualifies sha256 changeId move state).1
  exact ⟨evaluation, appends ▸ List.mem_append_left _ member, result⟩

end

/-! ## Fixed runs -/

def cleanWorkspace : Workspace where
  tree :=
    { workdir := ["repo".toList]
      entries :=
        [(["repo".toList, "index.ts".toList], .file "export const api = 1;".toList),
          (["repo".toList, "tool.ts".toList], .file "export const tool = 1;".toList)] }
  git := fun args =>
    if args.head? = some "rev-parse" then .ok "4f2a\n".toList
    else if args.head? = some "diff" then .ok "M\ttool.ts\n".toList
    else .ok []

def untrackedWorkspace : Workspace :=
  { cleanWorkspace with
    git := fun args => if args.head? = some "status" then .ok "?? note\n".toList else cleanWorkspace.git args }

def codeTasks (number : Nat) : ChangeFacts := ⟨List.replicate number (some .code), [], none⟩

def requestedState : ProfileState where
  change := ⟨codeTasks 1, some ⟨⟨"request-1", "9c0d"⟩, []⟩⟩
  workspace := cleanWorkspace

def initialCall : ProfileCall :=
  ⟨.initial, some ⟨["index.ts".toList]⟩, .found, some "project-1", true, "2026-01-01T00:00:00.000Z", .verified⟩

def disqualifiedMoves : List ProfileMove :=
  [.evaluate initialCall, .work untrackedWorkspace, .evaluate initialCall, .work cleanWorkspace, .mutate (codeTasks 2)]

example : (trace (serveProfile String.ofList "change") (disqualifiedMoves ++ [.evaluate initialCall])
    requestedState).map Record.response =
      [some .qualified, none, some .downgraded, none, none, some .qualified] := by decide +kernel

end Advance.Tools
