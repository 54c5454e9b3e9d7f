import Advance.Tools.Change.CreateGuards

/-! # Calls that create changes for one issue

Any number of calls, interleaved check by check.
-/

namespace Advance.Tools.Change

open Advance.Types Advance.Utils

/-! ## The listing -/

theorem statusText_ne_active (status : ChangeStatus) : statusText status ≠ "active" := by
  cases status <;> decide

/-- Open changes are drafts, so none is listed as active. -/
theorem listChanges_active (store : CreateStore) : listChanges store activeFilter = [] := by
  have dropped : ∀ change, activeFilter.keeps change = false := by
    intro change
    simp [ChangeListFilter.keeps, activeFilter, Option.filter, statusText_ne_active]
  simp [listChanges, dropped]

theorem listIssueClaims_none (store : CreateStore) (issueNumber : Int) : listIssueClaims store issueNumber = [] := by
  simp [listIssueClaims, listChanges_active]

theorem checkActiveDuplicateChange_none (store : CreateStore) (summary : String) (forceRecreate : Bool) :
    checkActiveDuplicateChange store summary forceRecreate = (generateChangeId summary).map fun _ => none := by
  simp [checkActiveDuplicateChange, listChanges_active]

/-! ## What is claimed of a call -/

def CreateStore.IsOpen (store : CreateStore) (change : ChangeRecord) : Prop :=
  change ∈ store.active ∧ change.status ≠ .archived ∧ change.status ≠ .closed

def SameName (call : CreateCall) (change : ChangeRecord) : Prop :=
  generateChangeId call.summary = some change.id ∨ change.title = call.summary

def Carries (issueNumber : Int) (change : ChangeRecord) : Prop :=
  change.origin.bind ChangeOrigin.issue_number = some issueNumber

/-- A call of the name of an open change is refused as its duplicate, one for the issue of an open change as a claim
    conflict. -/
structure GuardsSee (call : CreateCall) (store : CreateStore) (response : CreateResponse) : Prop where
  duplicate : (∃ change, store.IsOpen change ∧ SameName call change) → ∃ existing, response = .duplicate existing
  claim : ∀ issueNumber, call.origin_issue_number = some issueNumber → 0 < issueNumber →
    (∃ change, store.IsOpen change ∧ Carries issueNumber change) → ∃ conflict, response = .claimConflict conflict

structure NothingOpen (call : CreateCall) (store : CreateStore) : Prop where
  name : ∀ change, store.IsOpen change → ¬ SameName call change
  issue : ∀ issueNumber, call.origin_issue_number = some issueNumber → 0 < issueNumber →
    ∀ change, store.IsOpen change → ¬ Carries issueNumber change

/-! ## Calls at one store -/

/-- Where a call is, with what it goes on with. -/
inductive CreatePhase where
  | idle
  | claimChecked
  | guarded (baseId : String)
  | written (baseId changeId : String)
  | finished (response : CreateResponse)
  deriving DecidableEq

structure CreationRace (ι : Type) where
  store : CreateStore
  phase : ι → CreatePhase

def CreateResponse.HasCreated : CreateResponse → Prop
  | .unread _ _ | .notLinked _ _ | .created _ => True
  | .epicTool _ | .refused _ | .claimConflict _ | .duplicate _ | .threw => False

def CreatePhase.HasCreated : CreatePhase → Prop
  | .written _ _ => True
  | .finished response => response.HasCreated
  | .idle | .claimChecked | .guarded _ => False

section

variable {ι : Type} [DecidableEq ι] (checks : ι → OtherChecks) (calls : ι → CreateCall)

def CreationRace.goto (race : CreationRace ι) (i : ι) (phase : CreatePhase) : CreationRace ι :=
  { race with phase := Function.update race.phase i phase }

def creationStep (race : CreationRace ι) (i : ι) : CreationRace ι :=
  match race.phase i with
  | .idle =>
    match claimStep (checks i) (calls i) race.store with
    | some response => race.goto i (.finished response)
    | none => race.goto i .claimChecked
  | .claimChecked =>
    match duplicateStep (checks i) (calls i) race.store, generateChangeId (calls i).summary with
    | some response, _ => race.goto i (.finished response)
    | none, none => race.goto i (.finished .threw)
    | none, some baseId => race.goto i (.guarded baseId)
  | .guarded baseId =>
    if (checks i).writeFails race.store then race.goto i (.finished .threw)
    else
      let created := createStep (calls i) baseId race.store
      { race.goto i (.written baseId created.1) with store := created.2 }
  | .written baseId changeId =>
    race.goto i (.finished (afterStep (checks i) (calls i) baseId changeId race.store))
  | .finished _ => race

def startRace (store : CreateStore) : CreationRace ι := ⟨store, fun _ => .idle⟩

/-- A schedule names the call that moves next. -/
def raceAfter (store : CreateStore) (schedule : List ι) : CreationRace ι :=
  schedule.foldl (creationStep checks calls) (startRace store)

def ReportsRace (issueNumber : Int) (store : CreateStore) (schedule : List ι) : Prop :=
  ∃ early i late baseId changeId output race, schedule = early ++ i :: late ∧
    (raceAfter checks calls store early).phase i = .written baseId changeId ∧
    (raceAfter checks calls store (early ++ [i])).phase i = .finished (.created output) ∧ output.race = some race ∧
    ∀ id, id ∈ race.race_change_ids ↔
      ∃ change, (raceAfter checks calls store early).store.IsOpen change ∧ Carries issueNumber change ∧ change.id = id

def RaceSeen (issueNumber : Int) (store : CreateStore) (schedule : List ι) : Prop :=
  (∃ i j, i ≠ j ∧ ((raceAfter checks calls store schedule).phase i).HasCreated ∧
    ((raceAfter checks calls store schedule).phase j).HasCreated) →
  ReportsRace checks calls issueNumber store schedule

/-- The call is about to write its change. -/
def CreationRace.AboutToCreate (race : CreationRace ι) (i : ι) : Prop :=
  ∃ baseId, race.phase i = .guarded baseId ∧ (checks i).writeFails race.store = false

/-- No call writes its change after another one has. -/
def CreatesAlone (store : CreateStore) (schedule : List ι) : Prop :=
  ∀ early i late, schedule = early ++ i :: late → (raceAfter checks calls store early).AboutToCreate checks i →
    ∀ j, ¬ ((raceAfter checks calls store early).phase j).HasCreated

end

/-! ## What the steps answer -/

/-- The call ended by something else than the guards, and created nothing. -/
def CreateResponse.IsOther : CreateResponse → Prop
  | .epicTool _ | .refused _ | .threw => True
  | .claimConflict _ | .duplicate _ | .unread _ _ | .notLinked _ _ | .created _ => False

variable {response : CreateResponse}

theorem CreateResponse.IsOther.not_created (other : response.IsOther) : ¬ response.HasCreated := by
  cases response <;> simp_all [IsOther, HasCreated]

variable {checks : OtherChecks} {call : CreateCall}

theorem argumentsResponse_other (ended : argumentsResponse checks call = some response) : response.IsOther := by
  unfold argumentsResponse at ended
  split_ifs at ended
  · obtain rfl := Option.some.inj ended
    trivial
  · obtain rfl := Option.some.inj ended
    trivial
  · obtain rfl := Option.some.inj ended
    trivial
  · obtain rfl := Option.some.inj ended
    trivial
  · obtain ⟨error, _, rfl⟩ := Option.map_eq_some_iff.mp ended
    trivial
  · obtain rfl := Option.some.inj ended
    trivial
  · obtain ⟨error, _, rfl⟩ := Option.map_eq_some_iff.mp ended
    trivial

theorem claimStep_other {store : CreateStore}
    (ended : claimStep checks call store = some response) : response.IsOther := by
  rw [claimStep, Option.or_eq_some_iff, Option.or_eq_some_iff] at ended
  rcases ended with byArguments | ⟨_, byDependencies | ⟨_, byClaim⟩⟩
  · exact argumentsResponse_other byArguments
  · obtain ⟨error, _, rfl⟩ := Option.map_eq_some_iff.mp byDependencies
    trivial
  · obtain ⟨issueNumber, _, first⟩ := Option.bind_eq_some_iff.mp byClaim
    simp [listIssueClaims_none] at first

theorem duplicateStep_other {store : CreateStore}
    (ended : duplicateStep checks call store = some response) : response.IsOther := by
  rw [duplicateStep, Option.or_eq_some_iff, checkActiveDuplicateChange_none] at ended
  rcases ended with late | ⟨_, guard⟩
  · obtain ⟨error, _, rfl⟩ := Option.map_eq_some_iff.mp late
    trivial
  · cases named : generateChangeId call.summary with
    | none =>
      rw [named] at guard
      obtain rfl := Option.some.inj guard
      trivial
    | some baseId => simp [named] at guard

theorem raceCheck_none (call : CreateCall) (store : CreateStore) : raceCheck call store = none := by
  simp [raceCheck, listIssueClaims_none]

theorem afterStep_cases (checks : OtherChecks) (call : CreateCall) (baseId changeId : String) (store : CreateStore) :
    (∃ error, afterStep checks call baseId changeId store = .unread changeId error) ∨
      (∃ error, afterStep checks call baseId changeId store = .notLinked changeId error) ∨
      ∃ output, afterStep checks call baseId changeId store = .created output ∧ output.race = none := by
  rw [afterStep]
  split
  next error _ => exact .inl ⟨error, rfl⟩
  next =>
    split
    next error _ => exact .inr (.inl ⟨error, rfl⟩)
    next => exact .inr (.inr ⟨_, rfl, raceCheck_none call store⟩)

theorem afterStep_created (checks : OtherChecks) (call : CreateCall) (baseId changeId : String)
    (store : CreateStore) : (afterStep checks call baseId changeId store).HasCreated := by
  rcases afterStep_cases checks call baseId changeId store with ⟨error, eq⟩ | ⟨error, eq⟩ | ⟨output, eq, _⟩
  · rw [eq]; trivial
  · rw [eq]; trivial
  · rw [eq]; trivial

theorem handler_unguarded (checks : OtherChecks) (call : CreateCall) (store : CreateStore) :
    (∀ existing, (advChangeCreateHandler checks call store).1 ≠ .duplicate existing) ∧
      ∀ conflict, (advChangeCreateHandler checks call store).1 ≠ .claimConflict conflict := by
  have passes : ∀ response : CreateResponse, response.IsOther ∨ response.HasCreated →
      (∀ existing, response ≠ .duplicate existing) ∧ ∀ conflict, response ≠ .claimConflict conflict := by
    intro response either
    cases response <;> simp_all [CreateResponse.IsOther, CreateResponse.HasCreated]
  refine passes _ ?_
  rw [advChangeCreateHandler]
  split
  next response ended => exact .inl (claimStep_other ended)
  next =>
    split
    next response _ ended => exact .inl (duplicateStep_other ended)
    next => exact .inl trivial
    next =>
      split_ifs
      · exact .inl trivial
      · exact .inr (afterStep_created _ _ _ _ _)

theorem guardsSee_iff (checks : OtherChecks) (call : CreateCall) (store : CreateStore) :
    GuardsSee call store (advChangeCreateHandler checks call store).1 ↔ NothingOpen call store := by
  obtain ⟨neverDuplicate, neverConflict⟩ := handler_unguarded checks call store
  constructor
  · intro sees
    refine ⟨fun change isOpen same => ?_, fun issueNumber asked positive change isOpen carries => ?_⟩
    · obtain ⟨existing, refused⟩ := sees.duplicate ⟨change, isOpen, same⟩
      exact neverDuplicate existing refused
    · obtain ⟨conflict, refused⟩ := sees.claim issueNumber asked positive ⟨change, isOpen, carries⟩
      exact neverConflict conflict refused
  · intro nothing
    constructor
    · rintro ⟨change, isOpen, same⟩
      exact absurd same (nothing.name change isOpen)
    · rintro issueNumber asked positive ⟨change, isOpen, carries⟩
      exact absurd carries (nothing.issue issueNumber asked positive change isOpen)

/-! ## Runs -/

section

variable {ι : Type} [DecidableEq ι] {checks : ι → OtherChecks} {calls : ι → CreateCall}

@[simp] theorem goto_self (race : CreationRace ι) (i : ι) (phase : CreatePhase) :
    (race.goto i phase).phase i = phase := by
  simp [CreationRace.goto]

theorem goto_apart (race : CreationRace ι) {i j : ι} (apart : j ≠ i) (phase : CreatePhase) :
    (race.goto i phase).phase j = race.phase j := by
  simp [CreationRace.goto, apart]

theorem creationStep_apart (race : CreationRace ι) {i j : ι} (apart : j ≠ i) :
    (creationStep checks calls race i).phase j = race.phase j := by
  rw [creationStep]
  split
  next =>
    split
    next => exact goto_apart race apart _
    next => exact goto_apart race apart _
  next =>
    split
    next => exact goto_apart race apart _
    next => exact goto_apart race apart _
    next => exact goto_apart race apart _
  next =>
    split_ifs
    · exact goto_apart race apart _
    · exact goto_apart race apart _
  next => exact goto_apart race apart _
  next => rfl

theorem creationStep_own (race : CreationRace ι) (i : ι) : ((creationStep checks calls race i).phase i).HasCreated ↔
      (race.phase i).HasCreated ∨ race.AboutToCreate checks i := by
  unfold CreationRace.AboutToCreate creationStep
  cases here : race.phase i with
  | idle =>
    cases ended : claimStep (checks i) (calls i) race.store with
    | some response => simpa [CreatePhase.HasCreated] using (claimStep_other ended).not_created
    | none => simp [CreatePhase.HasCreated]
  | claimChecked =>
    cases ended : duplicateStep (checks i) (calls i) race.store with
    | some response => simpa [CreatePhase.HasCreated] using (duplicateStep_other ended).not_created
    | none => cases generateChangeId (calls i).summary <;> simp [CreatePhase.HasCreated, CreateResponse.HasCreated]
  | guarded baseId =>
    by_cases fails : (checks i).writeFails race.store = true
    · simp [fails, CreatePhase.HasCreated, CreateResponse.HasCreated]
    · simp [fails, CreatePhase.HasCreated, CreationRace.goto]
  | written baseId changeId => simpa [CreatePhase.HasCreated] using afterStep_created _ _ _ _ _
  | finished response => simp [here]

theorem created_stays (race : CreationRace ι) (schedule : List ι) {j : ι} (created : (race.phase j).HasCreated) :
    ((schedule.foldl (creationStep checks calls) race).phase j).HasCreated := by
  induction schedule generalizing race with
  | nil => exact created
  | cons i schedule ih =>
    refine ih _ ?_
    by_cases same : j = i
    · subst same
      exact (creationStep_own race j).mpr (.inl created)
    · rwa [creationStep_apart race same]

theorem raceAfter_concat (store : CreateStore) (schedule : List ι) (i : ι) :
    raceAfter checks calls store (schedule ++ [i]) = creationStep checks calls (raceAfter checks calls store schedule) i := by
  rw [raceAfter, List.foldl_append]
  rfl

/-- At most one call of the run has created. -/
def AtMostOne (race : CreationRace ι) : Prop :=
  ∀ i j, (race.phase i).HasCreated → (race.phase j).HasCreated → i = j

theorem AtMostOne.step {race : CreationRace ι} (one : AtMostOne race) {i : ι}
    (alone : race.AboutToCreate checks i → ∀ j, ¬ (race.phase j).HasCreated) :
    AtMostOne (creationStep checks calls race i) := by
  have came : ∀ j, ((creationStep checks calls race i).phase j).HasCreated →
      (race.phase j).HasCreated ∨ (j = i ∧ race.AboutToCreate checks i) := by
    intro j created
    by_cases same : j = i
    · subst same
      exact ((creationStep_own race j).mp created).imp id fun about => ⟨rfl, about⟩
    · rw [creationStep_apart race same] at created
      exact .inl created
  intro j k first second
  rcases came j first with before | ⟨rfl, about⟩
  · rcases came k second with other | ⟨rfl, about⟩
    · exact one j k before other
    · exact absurd before (alone about j)
  · rcases came k second with other | ⟨rfl, _⟩
    · exact absurd other (alone about k)
    · rfl

theorem createsAlone_iff (store : CreateStore) (schedule : List ι) :
    CreatesAlone checks calls store schedule ↔ AtMostOne (raceAfter checks calls store schedule) := by
  constructor
  · intro alone
    induction schedule using List.reverseRecOn with
    | nil => exact fun _ _ created => created.elim
    | append_singleton schedule i ih =>
      rw [raceAfter_concat]
      refine AtMostOne.step (ih fun early j late split => ?_) (alone schedule i [] rfl)
      exact alone early j (late ++ [i]) (by rw [split, List.append_assoc]; rfl)
  · rintro one early i late rfl about j created
    have writes := (@creationStep_own _ _ checks calls (raceAfter checks calls store early) i).mpr (.inr about)
    have apart : j ≠ i := by
      rintro rfl
      obtain ⟨baseId, guarded, _⟩ := about
      rw [guarded] at created
      exact created
    have whole : raceAfter checks calls store (early ++ i :: late) =
        late.foldl (creationStep checks calls) (creationStep checks calls (raceAfter checks calls store early) i) := by
      rw [raceAfter, List.foldl_append, List.foldl_cons]
      rfl
    rw [whole] at one
    refine apart (one j i (created_stays _ late ?_) (created_stays _ late writes))
    rwa [creationStep_apart _ apart]

theorem reportsRace_never (issueNumber : Int) (store : CreateStore) (schedule : List ι) :
    ¬ ReportsRace checks calls issueNumber store schedule := by
  rintro ⟨early, i, late, baseId, changeId, output, race, _, written, finished, reported, _⟩
  rw [raceAfter_concat, creationStep, written] at finished
  simp only [goto_self, CreatePhase.finished.injEq] at finished
  rcases afterStep_cases (checks i) (calls i) baseId changeId (raceAfter checks calls store early).store with
    ⟨error, eq⟩ | ⟨error, eq⟩ | ⟨own, eq, silent⟩
  · rw [eq] at finished; cases finished
  · rw [eq] at finished; cases finished
  · rw [eq] at finished
    obtain rfl := CreateResponse.created.inj finished
    rw [silent] at reported
    cases reported

theorem raceSeen_iff (issueNumber : Int) (store : CreateStore) (schedule : List ι) :
    RaceSeen checks calls issueNumber store schedule ↔ CreatesAlone checks calls store schedule := by
  rw [createsAlone_iff]
  constructor
  · intro seen i j first second
    by_contra apart
    exact reportsRace_never issueNumber store schedule (seen ⟨i, j, apart, first, second⟩)
  · rintro one ⟨i, j, apart, first, second⟩
    exact absurd (one i j first second) apart

/-- The guards refuse a call where they should just if there is nothing they should see, and a race is reported just
    if there is none. -/
theorem creation_guards_iff (checks : ι → OtherChecks) (calls : ι → CreateCall) (issueNumber : Int)
    (store : CreateStore) : (∀ i, GuardsSee (calls i) store (advChangeCreateHandler (checks i) (calls i) store).1 ↔
      NothingOpen (calls i) store) ∧
    ∀ schedule, RaceSeen checks calls issueNumber store schedule ↔ CreatesAlone checks calls store schedule :=
  ⟨fun i => guardsSee_iff (checks i) (calls i) store, raceSeen_iff issueNumber store⟩

end

/-! ## Fixed runs -/

def noChecks : OtherChecks := ⟨none, fun _ => none, fun _ => none, fun _ => false, fun _ => none, fun _ => none⟩

def triageCall (summary : String) (issueNumber : Int) : CreateCall where
  summary
  proposal := none
  problemStatement := none
  agreement := none
  design := none
  executiveSummary := none
  epic_id := none
  entry_id := none
  epic_title := none
  origin_kind := some .triage
  origin_issue_number := some issueNumber
  origin_source_artifact := none
  forceRecreate := false
  kind := .change
  parent_epic_id := none
  shell := false
  now := "2026-09-01"

def claimedRecord : ChangeRecord :=
  ⟨"addSearch", "Add search", .draft, some .opened, "2026-08-01", some ⟨.triage, some 7, none⟩⟩

def claimedStore : CreateStore := ⟨[⟨"addSearch", some claimedRecord⟩], [], []⟩

def searchAndFilter (second : Bool) : CreateCall := triageCall (if second then "Add filter" else "Add search") 7

/-- The same summary and issue once more, and two calls for one issue at an empty store, step by step in turn. -/
theorem claimed_issue_unseen : ¬ GuardsSee (triageCall "Add search" 7) claimedStore
        (advChangeCreateHandler noChecks (triageCall "Add search" 7) claimedStore).1 ∧
      ¬ RaceSeen (fun _ : Bool => noChecks) searchAndFilter 7 ⟨[], [], []⟩
        [false, true, false, true, false, true, false, true] := by
  constructor
  · intro sees
    obtain ⟨existing, refused⟩ := sees.duplicate ⟨claimedRecord, ⟨by decide, by decide, by decide⟩, .inr rfl⟩
    exact (handler_unguarded noChecks _ claimedStore).1 existing refused
  · intro seen
    have ends : ∀ second, (raceAfter (fun _ : Bool => noChecks) searchAndFilter ⟨[], [], []⟩
        [false, true, false, true, false, true, false, true]).phase second =
          .finished (.created ⟨if second then "addFilter" else "addSearch", none, some ⟨.triage, some 7, none⟩, none⟩) := by
      decide +kernel
    refine reportsRace_never 7 _ _ (seen ⟨false, true, by decide, ?_, ?_⟩)
    · rw [ends]; trivial
    · rw [ends]; trivial

end Advance.Tools.Change
