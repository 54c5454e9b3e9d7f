import Advance.Foundation.SharedValue
import Advance.Tools.ChangeMutationCoordinator

/-! # The record of finalization

An archive attempt reads the change, talks to git at length, and then stores a finalization status with the evidence
of the status it had read, or completes the change with the evidence of the one it finds.
-/

namespace Advance.Tools.Change

open Advance.Foundation

/-! ## Statuses -/

inductive Phase9State where
  | pending
  | pending_merge
  | done
  | failed
  deriving DecidableEq

inductive EvidenceField where
  | repo
  | prNumber
  | prUrl
  | route
  | changeTipSha
  | preArchiveTipSha
  | prHeadSha
  | mergeCommitSha
  | defaultBranchSha
  | autoMergeArmed
  deriving DecidableEq

inductive EvidenceValue where
  | text (held : String)
  | number (held : Nat)
  | flag (held : Bool)
  deriving DecidableEq

def EvidenceValue.truthy : EvidenceValue → Bool
  | text held => held ≠ ""
  | number held => held ≠ 0
  | flag held => held

/-- The optional members of a status; one that is absent is `undefined`. -/
abbrev Phase9Evidence := EvidenceField → Option EvidenceValue

structure Phase9FinalizationStatus where
  status : Phase9State
  startedAt : String
  completedAt : Option String
  error : Option String
  evidence : Phase9Evidence

/-- What later checks of the release rely on. -/
def releaseFields : List EvidenceField :=
  [.repo, .prNumber, .prHeadSha, .changeTipSha, .preArchiveTipSha, .mergeCommitSha, .defaultBranchSha]

def preservePhase9Evidence (previous : Option Phase9FinalizationStatus) (next : Phase9FinalizationStatus) :
    Phase9FinalizationStatus :=
  match previous with
  | none => next
  | some previous => { next with evidence := fun field => (next.evidence field).or (previous.evidence field) }

/-- What a finalization has of some fields. -/
def Phase9Evidence.restrict (evidence : Phase9Evidence) (fields : List EvidenceField) : Phase9Evidence :=
  fun field => if field ∈ fields then evidence field else none

def Phase9Evidence.empty : Phase9Evidence := fun _ => none

def startedAt (seen : Option Phase9FinalizationStatus) (now : String) : String :=
  (seen.map Phase9FinalizationStatus.startedAt).getD now

def buildPendingMergePhase9Status (finalization : Phase9Evidence) (startedAt : String)
    (previous : Option Phase9FinalizationStatus) : Phase9FinalizationStatus :=
  preservePhase9Evidence previous
    { status := .pending_merge
      startedAt := startedAt
      completedAt := none
      error := none
      evidence := finalization.restrict
        [.prNumber, .prUrl, .autoMergeArmed, .route, .changeTipSha, .preArchiveTipSha] }

/-- The status of an attempt whose finalization threw. -/
def failedStatus (message now : String) (previous : Option Phase9FinalizationStatus) : Phase9FinalizationStatus :=
  preservePhase9Evidence previous
    { status := .failed
      startedAt := startedAt previous now
      completedAt := some now
      error := some message
      evidence := .empty }

/-- A completion by the attempt itself, or by the recovery of a shipped archive. -/
inductive CompletionKind where
  | shipped
  | recovered
  deriving DecidableEq

def CompletionKind.evidence (kind : CompletionKind) (finalization : Phase9Evidence) : Phase9Evidence :=
  fun field =>
    match kind, field with
    | .shipped, .autoMergeArmed => none
    | .shipped, .mergeCommitSha => (finalization field).filter EvidenceValue.truthy
    | .shipped, _ => finalization field
    | .recovered, .autoMergeArmed => some (.flag false)
    | .recovered, .repo => none
    | .recovered, .route => finalization field
    | .recovered, _ => (finalization field).filter EvidenceValue.truthy

def doneStatus (kind : CompletionKind) (finalization : Phase9Evidence) (archivedAt : String)
    (latest : Option Phase9FinalizationStatus) : Phase9FinalizationStatus :=
  preservePhase9Evidence latest
    { status := .done
      startedAt := startedAt latest archivedAt
      completedAt := some archivedAt
      error := none
      evidence := kind.evidence finalization }

/-! ## Attempts -/

structure Phase9Projection where
  phase9_status : Option Phase9FinalizationStatus

/-- What an attempt records without completing the change. -/
inductive Attempted where
  | threw (message : String)
  | pendingMerge (finalization : Phase9Evidence)

def Attempted.status (attempted : Attempted) (now : String) (seen : Option Phase9FinalizationStatus) :
    Phase9FinalizationStatus :=
  match attempted with
  | .threw message => failedStatus message now seen
  | .pendingMerge finalization => buildPendingMergePhase9Status finalization (startedAt seen now) seen

def Attempted.obtained : Attempted → Phase9Evidence
  | .threw _ => .empty
  | .pendingMerge finalization => finalization

inductive AttemptPhase where
  | idle
  | read (seen : Option Phase9FinalizationStatus)
  | recording (seen : Option Phase9FinalizationStatus) (attempted : Attempted) (now : String)
  | completing (kind : CompletionKind) (finalization : Phase9Evidence) (archivedAt : String)
  | finished

/-- A finalization ends, a commit has its fate, or a check stops the attempt. -/
inductive AttemptChoice where
  | goesOn (fate : MutationFate)
  | attempted (attempted : Attempted) (now : String)
  | shipped (kind : CompletionKind) (finalization : Phase9Evidence) (archivedAt : String)
  | stops

/-- The active record, where there is one. -/
abbrev Phase9Store := Option Phase9Projection

/-- A mutation of the active record. -/
def Phase9Store.commit (store : Phase9Store) (fate : MutationFate)
    (status : Option Phase9FinalizationStatus → Phase9FinalizationStatus) : Phase9Store :=
  store.map fun latest =>
    (fate.commit (fun latest => some { latest with phase9_status := some (status latest.phase9_status) })
      (fun readback => readback.phase9_status.any fun stored =>
        stored.status = (status latest.phase9_status).status) latest).1

def attemptAdvance (choice : AttemptChoice) (phase : AttemptPhase) (store : Phase9Store) : AttemptPhase × Phase9Store :=
  match phase, choice with
  | .idle, .goesOn _ =>
    (match store with
      | none => .finished
      | some change => .read change.phase9_status, store)
  | .read seen, .attempted attempted now => (.recording seen attempted now, store)
  | .read _, .shipped kind finalization archivedAt => (.completing kind finalization archivedAt, store)
  | .recording seen attempted now, .goesOn fate =>
    -- What is latest is not looked at.
    (.finished, store.commit fate fun _ => attempted.status now seen)
  | .completing kind finalization archivedAt, .goesOn fate =>
    (.finished, store.commit fate (doneStatus kind finalization archivedAt))
  | _, _ => (.finished, store)

section

variable {ι : Type} [DecidableEq ι]

abbrev Phase9Race (ι : Type) := Shared ι Phase9Store AttemptPhase

abbrev Phase9Move (ι : Type) := SharedMove ι AttemptChoice (Phase9Store → Phase9Store)

def phase9Step : Phase9Move ι → Phase9Race ι → Unit × Phase9Race ι :=
  sharedStep (fun _ => attemptAdvance) fun event store => event store

abbrev Phase9Record (ι : Type) := Record (Phase9Race ι) (Phase9Move ι) Unit

end

/-! ## What is claimed -/

def storedStatus (store : Phase9Store) : Option Phase9FinalizationStatus := store.bind Phase9Projection.phase9_status

def AttemptPhase.obtained : AttemptPhase → Phase9Evidence
  | .recording _ attempted _ => attempted.obtained
  | .completing _ finalization _ => finalization
  | _ => .empty

/-- A write leaves done as done, and release evidence that the attempt has not obtained itself. -/
def Keeps (obtained : Phase9Evidence) (before after : Phase9Store) : Prop :=
  ∀ stored, storedStatus before = some stored →
    (stored.status = .done → (storedStatus after).map Phase9FinalizationStatus.status = some .done) ∧
      ∀ field ∈ releaseFields, obtained field = none → ∀ value, stored.evidence field = some value →
        (storedStatus after).bind (fun status => status.evidence field) = some value

def Monotone {ι : Type} (step : Phase9Record ι) : Prop :=
  ∀ i choice, step.request = .party i choice → Keeps (step.before.party i).obtained step.before.value step.after.value

/-- A status is recorded where done is not stored yet, and every stored piece of release evidence that the
    finalization has not obtained is as the attempt read it. -/
def RecordsCurrent {ι : Type} (step : Phase9Record ι) : Prop :=
  ∀ i fate seen attempted now, step.request = .party i (.goesOn fate) →
    step.before.party i = .recording seen attempted now → fate ≠ .untouched →
    ∀ stored, storedStatus step.before.value = some stored →
      stored.status ≠ .done ∧ ∀ field ∈ releaseFields, attempted.obtained field = none →
        ∀ value, stored.evidence field = some value → seen.bind (fun status => status.evidence field) = some value

/-! ## Writes -/

theorem preserved_evidence (previous : Option Phase9FinalizationStatus) (next : Phase9FinalizationStatus)
    (field : EvidenceField) : (preservePhase9Evidence previous next).evidence field =
      (next.evidence field).or (previous.bind fun status => status.evidence field) := by
  cases previous with
  | none => simp [preservePhase9Evidence]
  | some previous => rfl

@[simp] theorem preserved_status (previous : Option Phase9FinalizationStatus) (next : Phase9FinalizationStatus) :
    (preservePhase9Evidence previous next).status = next.status := by
  cases previous <;> rfl

theorem Attempted.status_evidence {attempted : Attempted} {field : EvidenceField}
    (missing : attempted.obtained field = none) (now : String) (seen : Option Phase9FinalizationStatus) :
    (attempted.status now seen).evidence field = seen.bind fun status => status.evidence field := by
  cases attempted with
  | threw message =>
    rw [Attempted.status, failedStatus, preserved_evidence]
    exact Option.none_or
  | pendingMerge finalization =>
    have restricted : finalization.restrict
        [.prNumber, .prUrl, .autoMergeArmed, .route, .changeTipSha, .preArchiveTipSha] field = none := by
      have same : finalization field = none := missing
      simp [Phase9Evidence.restrict, same]
    rw [Attempted.status, buildPendingMergePhase9Status, preserved_evidence]
    dsimp only
    rw [restricted, Option.none_or]

theorem Attempted.status_open (attempted : Attempted) (now : String) (seen : Option Phase9FinalizationStatus) :
    (attempted.status now seen).status ≠ .done := by
  cases attempted <;> simp [Attempted.status, failedStatus, buildPendingMergePhase9Status]

theorem CompletionKind.evidence_missing {kind : CompletionKind} {finalization : Phase9Evidence} {field : EvidenceField}
    (release : field ∈ releaseFields) (missing : finalization field = none) :
    kind.evidence finalization field = none := by
  cases kind <;> cases field <;> first | exact absurd release (by decide) | simp [CompletionKind.evidence, missing]

theorem commit_stored (store : Phase9Store) (fate : MutationFate)
    (status : Option Phase9FinalizationStatus → Phase9FinalizationStatus) : store.commit fate status = store ∨
      (fate ≠ .untouched ∧ ∀ stored, storedStatus store = some stored →
        storedStatus (store.commit fate status) = some (status (some stored))) := by
  cases store with
  | none => exact .inl rfl
  | some latest =>
    cases fate with
    | untouched => exact .inl rfl
    | unreported | verified =>
      refine .inr ⟨nofun, fun stored same => ?_⟩
      have status : latest.phase9_status = some stored := same
      simp [Phase9Store.commit, MutationFate.commit, storedStatus, status]

theorem commit_touched {store : Phase9Store} {fate : MutationFate} (touched : fate ≠ .untouched)
    (status : Option Phase9FinalizationStatus → Phase9FinalizationStatus) {stored : Phase9FinalizationStatus}
    (found : storedStatus store = some stored) :
    storedStatus (store.commit fate status) = some (status (some stored)) := by
  obtain ⟨latest, rfl, same⟩ := Option.bind_eq_some_iff.mp found
  cases fate with
  | untouched => exact absurd rfl touched
  | unreported | verified => simp [Phase9Store.commit, MutationFate.commit, storedStatus, same]

theorem Keeps.refl (obtained : Phase9Evidence) (store : Phase9Store) : Keeps obtained store store := by
  intro stored found
  rw [found]
  exact ⟨fun done => congrArg some done, fun _ _ _ value held => held⟩

theorem completion_keeps (kind : CompletionKind) (finalization : Phase9Evidence) (archivedAt : String)
    (fate : MutationFate) (store : Phase9Store) :
    Keeps finalization store (store.commit fate (doneStatus kind finalization archivedAt)) := by
  rcases commit_stored store fate (doneStatus kind finalization archivedAt) with same | ⟨_, written⟩
  · rw [same]
    exact Keeps.refl finalization store
  · intro stored found
    rw [written stored found]
    refine ⟨fun _ => by simp [doneStatus], fun field release missing value held => ?_⟩
    simp [doneStatus, preserved_evidence, CompletionKind.evidence_missing release missing, held]

theorem recording_keeps_iff {attempted : Attempted} {fate : MutationFate} {seen : Option Phase9FinalizationStatus}
    (now : String) (store : Phase9Store) :
    Keeps attempted.obtained store (store.commit fate fun _ => attempted.status now seen) ↔
      (fate ≠ .untouched → ∀ stored, storedStatus store = some stored →
        stored.status ≠ .done ∧ ∀ field ∈ releaseFields, attempted.obtained field = none →
          ∀ value, stored.evidence field = some value →
            seen.bind (fun status => status.evidence field) = some value) := by
  constructor
  · intro keeps touched stored found
    obtain ⟨done, kept⟩ := keeps stored found
    rw [commit_touched touched _ found] at done kept
    refine ⟨fun isDone => attempted.status_open now seen (Option.some.inj (done isDone)), ?_⟩
    intro field release missing value held
    have written := kept field release missing value held
    rwa [Option.bind_some, attempted.status_evidence missing] at written
  · intro current
    rcases commit_stored store fate fun _ => attempted.status now seen with same | ⟨touched, written⟩
    · rw [same]
      exact Keeps.refl attempted.obtained store
    · intro stored found
      obtain ⟨open', read⟩ := current touched stored found
      rw [written stored found]
      refine ⟨fun isDone => absurd isDone open', fun field release missing value held => ?_⟩
      rw [Option.bind_some, attempted.status_evidence missing]
      exact read field release missing value held

/-! ## Runs -/

theorem attempt_keeps_iff (choice : AttemptChoice) (phase : AttemptPhase) (store : Phase9Store) :
    Keeps phase.obtained store (attemptAdvance choice phase store).2 ↔
      ∀ fate seen attempted now, choice = .goesOn fate → phase = .recording seen attempted now → fate ≠ .untouched →
        ∀ stored, storedStatus store = some stored →
          stored.status ≠ .done ∧ ∀ field ∈ releaseFields, attempted.obtained field = none →
            ∀ value, stored.evidence field = some value →
              seen.bind (fun status => status.evidence field) = some value := by
  unfold attemptAdvance
  split
  next => exact iff_of_true (Keeps.refl _ store) (by rintro _ _ _ _ _ ⟨⟩)
  next => exact iff_of_true (Keeps.refl _ store) (by rintro _ _ _ _ ⟨⟩)
  next => exact iff_of_true (Keeps.refl _ store) (by rintro _ _ _ _ ⟨⟩)
  next seen attempted now fate =>
    refine (recording_keeps_iff now store).trans ⟨?_, fun current => current fate seen attempted now rfl rfl⟩
    rintro current _ _ _ _ ⟨⟩ ⟨⟩
    exact current
  next kind finalization archivedAt fate =>
    exact iff_of_true (completion_keeps kind finalization archivedAt fate store) (by rintro _ _ _ _ _ ⟨⟩)
  next unrecorded _ =>
    refine iff_of_true (Keeps.refl _ store) ?_
    rintro fate seen attempted now rfl rfl
    exact (unrecorded seen attempted now fate rfl rfl).elim

/-- In a run of attempts done stays and no evidence is lost, just if every status is recorded where done is not
    stored and the evidence is as its attempt has read it. -/
theorem monotone_iff {ι : Type} [DecidableEq ι] (store : Phase9Store) (moves : List (Phase9Move ι)) :
    (∀ step ∈ trace phase9Step moves ⟨store, fun _ => .idle⟩, Monotone step) ↔
      ∀ step ∈ trace phase9Step moves ⟨store, fun _ => .idle⟩, RecordsCurrent step := by
  refine forall₂_congr fun step member => ?_
  rw [trace_step member]
  generalize step.before = race
  cases step.request with
  | outside event => exact iff_of_true (fun _ _ request => nomatch request) fun _ _ _ _ _ request => nomatch request
  | party i choice =>
    have after : (Foundation.recordOf phase9Step (.party i choice) race).after.value =
        (attemptAdvance choice (race.party i) race.value).2 := rfl
    refine Iff.trans ⟨fun keeps => ?_, ?_⟩ ((attempt_keeps_iff choice (race.party i) race.value).trans ⟨?_, ?_⟩)
    · rw [← after]
      exact keeps i choice rfl
    · rintro keeps _ _ ⟨⟩
      rw [after]
      exact keeps
    · rintro current _ fate seen attempted now ⟨⟩
      exact current fate seen attempted now rfl
    · rintro current fate seen attempted now rfl
      exact current i fate seen attempted now rfl

/-! ## Fixed runs -/

def overtaken : List (Phase9Move Bool) :=
  [.party false (.goesOn .verified), .party true (.goesOn .verified),
    .party true (.shipped .shipped .empty "2026-01-02T00:00:00.000Z"), .party true (.goesOn .verified),
    .party false (.attempted (.threw "push rejected") "2026-01-02T00:00:01.000Z")]

/-- The other attempt fails and replaces done by failed. -/
theorem done_replaced :
    ¬ ∀ step ∈ trace phase9Step (overtaken ++ [.party false (.goesOn .verified)]) ⟨some ⟨none⟩, fun _ => .idle⟩,
      Monotone step := by
  intro monotone
  have keeps := monotone (Foundation.recordOf phase9Step (.party false (.goesOn .verified))
    (stateAfter phase9Step overtaken ⟨some ⟨none⟩, fun _ => .idle⟩))
    (by rw [trace_append]; exact List.mem_append_right _ List.mem_cons_self) false (.goesOn .verified) rfl
  have isDone := (keeps _ rfl).1 rfl
  cases isDone

end Advance.Tools.Change
