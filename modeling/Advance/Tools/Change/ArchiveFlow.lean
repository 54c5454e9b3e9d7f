import Advance.Archive.ProjectionProof
import Advance.Tools.Change.BundleWriters

/-! # The ways to an archived change

A call of `adv_change_archive` writes the bundle, finalizes the change, completes its release gate, proves the
projection at the released commit and archives the record.  A merged replay, the retry of an archived change and a
repair take other ways through the same steps.
-/

namespace Advance.Tools.Change

open Advance.Foundation Advance.Types

/-! ## Calls and answers -/

inductive Phase9Option where
  | run
  | skip
  deriving DecidableEq

structure ArchiveCall where
  dryRun : Bool
  worktreePath : Option String
  phase9 : Option Phase9Option
  confirmationEvidence : Option String

/-- A finalization that shipped, with the evidence built from it. -/
structure Finalization where
  evidence : Phase9Evidence
  completionEvidence : String
  releasedCommitSha : Option String

inductive FinalizeAnswer where
  | threw (message : String)
  | blocked
  | pendingMerge (evidence : Phase9Evidence)
  | shipped (finalization : Finalization)

/-- What git, gh, the file system and the earlier checks say during one step. -/
structure ArchiveAnswers where
  preflight : Bool
  /-- `verifyReleaseEvidenceFromMain`, nothing where it is blocked. -/
  mainEvidence : Option Finalization
  /-- The finalization with what an exact proof of its merged request adds. -/
  replayFinalization : Option Finalization
  committedBundle : Bool
  bundleIdentity : Bool
  committedManifest : Bool
  manifest : Bool
  projectionProof : Archive.ProjectionProofResult
  approvals : Bool
  repairWorktree : Bool
  changeWorktree : Bool
  activeReadable : Bool
  archived : Bool
  finalizeRelease : FinalizeAnswer
  refreshed : Bool
  now : String
  fate : MutationFate

/-- The active record and the bundle of a change. -/
structure ArchiveStore where
  active : Option BundleDocument
  bundle : Option BundleDocument

inductive ArchivePhase where
  | idle
  | detecting (change : BundleDocument) (skipFinalization : Option Finalization)
  | replaying (change : BundleDocument) (finalization : Finalization)
  | replayed (change : BundleDocument) (finalization : Finalization) (gate : GateCompletion)
  | choosing (change : BundleDocument) (skipFinalization : Option Finalization)
  | archiving (change : BundleDocument) (skipFinalization : Option Finalization)
  | finalizing (change : BundleDocument)
  | releasing (change : BundleDocument) (finalization : Finalization)
  | verifying (change : BundleDocument) (finalization : Finalization) (recoveryMutation : Bool)
  | proving (change : BundleDocument) (finalization : Finalization) (gate : Option GateCompletion)
  | completing (change : BundleDocument) (finalization : Finalization) (gate : Option GateCompletion)
  | refreshing (terminal : BundleDocument)
  | cleaning
  | reconciling (change : BundleDocument)
  | recovering (finalization : Finalization)
  | finished

/-- Where a call is, and what it has been told: that the change is shipped, and that its projection is proven. -/
structure ArchiveProgress where
  phase : ArchivePhase
  shipped : Bool
  proven : Bool

def ArchiveProgress.goTo (progress : ArchiveProgress) (phase : ArchivePhase) : ArchiveProgress :=
  { progress with phase := phase }

def ArchiveProgress.start : ArchiveProgress := ⟨.idle, false, false⟩

/-! ## Checks -/

def BundleDocument.isArchived (document : BundleDocument) : Bool := document.intake.status = .archived

def BundleDocument.isReleased (document : BundleDocument) : Bool := (document.gates .release).status = .done

/-- `changes.get`: a bundle makes the change archived. -/
def ArchiveStore.view (store : ArchiveStore) : Option BundleDocument :=
  match store.bundle with
  | none => store.active
  | some bundle => some ((store.active.getD bundle).withStatus .archived)

def hasAcceptedDeltas (deltas : ChangeDeltas) : Bool := deltas.entries.any fun entry => 0 < entry.2.length

def isClosedLifecycle (change : BundleDocument) : Bool :=
  change.intake.status = .closed || change.lifecycleState = some .closed

def hasPriorPhase9ArchiveEvidence (change : BundleDocument) : Bool :=
  change.phase9_status.any fun status => status.status = .failed || status.status = .pending_merge

def projectionFailureRoutesToReconcile (code : Archive.ProjectionProofFailureCode) : Bool := code = .manifestAbsent

def ArchiveCall.confirmed (call : ArchiveCall) : Bool :=
  call.confirmationEvidence.any fun evidence => !(Utils.trim evidence.toList).isEmpty

def Phase9FinalizationStatus.has (status : Phase9FinalizationStatus) (field : EvidenceField) : Bool :=
  (status.evidence field).any EvidenceValue.truthy

/-- `detectMergedArchiveReplay`; with deltas the committed manifest is compared, and nothing it speaks of. -/
def detectMergedArchiveReplay (deltas : ChangeDeltas) (answers : ArchiveAnswers) (change : BundleDocument)
    (store : ArchiveStore) : Option Finalization :=
  if (change.phase9_status.any fun status => status.status ≠ .pending && status.has .repo && status.has .prNumber &&
        (status.has .changeTipSha || status.has .preArchiveTipSha)) &&
      answers.mainEvidence.isSome && (store.bundle.any BundleDocument.isArchived) && answers.committedBundle &&
      (!hasAcceptedDeltas deltas || (answers.bundleIdentity && answers.committedManifest)) then
    answers.replayFinalization
  else none

def completeBundle (finalization : Finalization) (answers : ArchiveAnswers) (bundle : BundleDocument) :
    BundleDocument :=
  if bundle.terminalCommitted then bundle
  else ReleaseCall.recovered ⟨finalization.evidence, finalization.completionEvidence, answers.now, false⟩ bundle

/-- The mutation of `completeReleaseGateAfterFinalization`. -/
def releaseCompleted (finalization : Finalization) (answers : ArchiveAnswers) (latest : BundleDocument) :
    BundleDocument :=
  if latest.isReleased then latest
  else
    { latest with
      gates := Function.update latest.gates .release
        ⟨.done, some answers.now, some "adv-archive", some finalization.completionEvidence⟩ }

/-- The mutation of `completeShippedChange`. -/
def shippedChange (finalization : Finalization) (gate : Option GateCompletion) (answers : ArchiveAnswers) :
    BundleDocument → BundleDocument :=
  ShippedCall.archived ⟨finalization.evidence, gate, answers.now, false⟩

/-- `recordPhase9Status`, with the evidence of the change as the call has read it. -/
def ArchiveStore.recordPhase9Status (store : ArchiveStore) (change : BundleDocument) (attempted : Attempted)
    (now : String) : ArchiveStore :=
  { store with
    active := store.active.map fun latest =>
      { latest with phase9_status := some (attempted.status now change.phase9_status) } }

/-! ## Routes -/

/-- What the checks before the first write decide. -/
inductive ArchiveRoute where
  | stopped
  | proven
  | archived
  | archive
  deriving DecidableEq

variable (deltas : ChangeDeltas) (call : ArchiveCall) (answers : ArchiveAnswers)

/-- The conditions of a repair of the projection. -/
def repairRoute : ArchiveRoute :=
  if call.phase9 = some .run && answers.approvals && call.confirmed && call.worktreePath.isSome &&
      answers.repairWorktree then
    .archive
  else .stopped

/-- The retry of an archived change with deltas starts with their proof. -/
def archivedDeltaRoute : ArchiveRoute :=
  if answers.manifest && answers.mainEvidence.any fun finalization => finalization.releasedCommitSha.isSome then
    match answers.projectionProof with
    | .verified _ => .proven
    | .failed failure =>
      if projectionFailureRoutesToReconcile failure.code then repairRoute call answers else .stopped
  else .stopped

def archiveRoute (change : BundleDocument) (store : ArchiveStore) : ArchiveRoute :=
  let existing := !call.dryRun && store.bundle.isSome
  if !call.dryRun && call.worktreePath.isNone && hasAcceptedDeltas deltas && !(change.isArchived && existing) then
    .stopped
  else if !call.dryRun && call.worktreePath.isNone && call.phase9 ≠ some .skip && !existing then .stopped
  else if existing && hasAcceptedDeltas deltas then
    if change.isArchived then archivedDeltaRoute call answers
    else if isClosedLifecycle change || !answers.bundleIdentity || !hasPriorPhase9ArchiveEvidence change then .stopped
    else repairRoute call answers
  else if !call.dryRun && call.worktreePath.isSome && !answers.changeWorktree then .stopped
  else if change.isArchived && existing then
    if !answers.activeReadable then .stopped
    else if store.active.isNone || change.lifecycleState = some .archived then .archived
    else .archive
  else .archive

/-! ## Steps -/

/-- The change is read, and what later steps rely on is checked. -/
def ArchiveProgress.load (progress : ArchiveProgress) (store : ArchiveStore) : ArchiveProgress :=
  match store.view with
  | none => progress.goTo .finished
  | some change =>
    if !answers.preflight then progress.goTo .finished
    else if !call.dryRun && call.phase9 = some .skip then
      match answers.mainEvidence with
      | none => progress.goTo .finished
      | some finalization => { progress with phase := .detecting change (some finalization), shipped := true }
    else progress.goTo (.detecting change none)

def ArchiveProgress.detect (progress : ArchiveProgress) (change : BundleDocument)
    (skipFinalization : Option Finalization) (store : ArchiveStore) : ArchiveProgress :=
  match detectMergedArchiveReplay deltas answers change store with
  | none => progress.goTo (.choosing change skipFinalization)
  | some finalization =>
    if call.dryRun then progress.goTo .finished
    else { progress with phase := .replaying change finalization, shipped := true }

def ArchiveProgress.choose (progress : ArchiveProgress) (change : BundleDocument)
    (skipFinalization : Option Finalization) (store : ArchiveStore) : ArchiveProgress :=
  match archiveRoute deltas call answers change store with
  | .stopped => progress.goTo .finished
  | .proven => { progress with phase := .reconciling change, proven := true }
  | .archived => progress.goTo (.reconciling change)
  | .archive => progress.goTo (.archiving change skipFinalization)

/-- `finalizeRelease` in a worktree; without one the release is looked up. -/
def finalizeAnswer : FinalizeAnswer :=
  if call.worktreePath.isSome then answers.finalizeRelease
  else
    match answers.mainEvidence with
    | none => .blocked
    | some finalization => .shipped finalization

def ArchiveProgress.finalize (progress : ArchiveProgress) (change : BundleDocument) (store : ArchiveStore) :
    ArchiveProgress × ArchiveStore :=
  match finalizeAnswer call answers with
  | .threw message => (progress.goTo .finished, store.recordPhase9Status change (.threw message) answers.now)
  | .blocked => (progress.goTo .finished, store)
  | .pendingMerge evidence =>
    (progress.goTo .finished, store.recordPhase9Status change (.pendingMerge evidence) answers.now)
  | .shipped finalization => ({ progress with phase := .releasing change finalization, shipped := true }, store)

/-- The next phase where a write is reported. -/
def ArchiveProgress.told (progress : ArchiveProgress) (phase : ArchivePhase) : ArchiveProgress :=
  progress.goTo (if answers.fate = .verified then phase else .finished)

/-- `completeReleaseGateAfterFinalization`: the bundle is completed where there is no record.  What follows depends
    on whether it was. -/
def ArchiveProgress.release (progress : ArchiveProgress) (finalization : Finalization)
    (next : Bool → ArchivePhase) (store : ArchiveStore) : ArchiveProgress × ArchiveStore :=
  match store.active with
  | some latest =>
    (progress.told answers (next false), { store with active := some (releaseCompleted finalization answers latest) })
  | none =>
    match store.bundle with
    | some bundle =>
      (progress.told answers (next true), { store with bundle := some (completeBundle finalization answers bundle) })
    | none => (progress.goTo .finished, store)

/-- `verifyReleaseGateDurableForArchive`; a shipped finalization needs no matching evidence. -/
def ArchiveProgress.verify (progress : ArchiveProgress) (change : BundleDocument) (finalization : Finalization)
    (recoveryMutation : Bool) (store : ArchiveStore) : ArchiveProgress :=
  match if recoveryMutation then store.bundle else store.active with
  | none => progress.goTo .finished
  | some document =>
    if !document.isReleased then progress.goTo .finished
    else if recoveryMutation then progress.goTo (.reconciling change)
    else progress.goTo (.proving change finalization (some (document.gates .release)))

def ArchiveProgress.prove (progress : ArchiveProgress) (change : BundleDocument) (finalization : Finalization)
    (gate : Option GateCompletion) : ArchiveProgress :=
  if !hasAcceptedDeltas deltas then progress.goTo (.completing change finalization gate)
  else if !answers.committedBundle || finalization.releasedCommitSha.isNone then progress.goTo .finished
  else
    match answers.projectionProof with
    | .verified _ => { progress with phase := .completing change finalization gate, proven := true }
    | .failed _ => progress.goTo .finished

/-- `completeShippedChange` up to the refresh of the bundle. -/
def ArchiveProgress.complete (progress : ArchiveProgress) (change : BundleDocument) (finalization : Finalization)
    (gate : Option GateCompletion) (terminalRefreshCompleted : Bool) (store : ArchiveStore) :
    ArchiveProgress × ArchiveStore :=
  if change.terminalCommitted then
    (progress.goTo (if terminalRefreshCompleted then .finished else .refreshing change), store)
  else
    match store.active with
    | none => (progress.goTo .finished, store)
    | some latest =>
      let terminal := shippedChange finalization gate answers latest
      (progress.told answers (if terminalRefreshCompleted then .cleaning else .refreshing terminal),
        { store with active := some terminal })

/-- `completeMergedArchiveReplay` -/
def ArchiveProgress.replay (progress : ArchiveProgress) (change : BundleDocument) (finalization : Finalization)
    (store : ArchiveStore) : ArchiveProgress × ArchiveStore :=
  match store.bundle with
  | none => (progress.goTo .finished, store)
  | some bundle =>
    let completed := completeBundle finalization answers bundle
    (progress.told answers (.replayed change finalization (completed.gates .release)),
      { store with bundle := some completed })

/-- `archiveChange` writes the bundle of what the call has read. -/
def ArchiveProgress.writeBundle (progress : ArchiveProgress) (change : BundleDocument)
    (skipFinalization : Option Finalization) (store : ArchiveStore) : ArchiveProgress × ArchiveStore :=
  if call.dryRun || !answers.archived then (progress.goTo .finished, store)
  else
    (match skipFinalization with
      | some finalization => progress.told answers (.proving change finalization none)
      | none => progress.told answers (.finalizing change),
      { store with bundle := some (change.withStatus .archived) })

/-- `reconcileArchivedBundleRetry` -/
def ArchiveProgress.reconcile (progress : ArchiveProgress) : ArchiveProgress :=
  if call.phase9 = some .skip then progress.goTo .finished
  else
    match answers.mainEvidence with
    | none => progress.goTo .finished
    | some finalization => { progress with phase := .recovering finalization, shipped := true }

/-- A step that is not taken, as one that cannot read its document, ends the call. -/
def archiveAdvance (progress : ArchiveProgress) (store : ArchiveStore) : ArchiveProgress × ArchiveStore :=
  if answers.fate = .untouched then (progress.goTo .finished, store)
  else
    match progress.phase with
    | .idle => (progress.load call answers store, store)
    | .detecting change skipFinalization => (progress.detect deltas call answers change skipFinalization store, store)
    | .replaying change finalization => progress.replay answers change finalization store
    | .replayed change finalization gate => progress.complete answers change finalization (some gate) true store
    | .choosing change skipFinalization => (progress.choose deltas call answers change skipFinalization store, store)
    | .archiving change skipFinalization => progress.writeBundle call answers change skipFinalization store
    | .finalizing change => progress.finalize call answers change store
    | .releasing change finalization => progress.release answers finalization (.verifying change finalization) store
    | .verifying change finalization recoveryMutation =>
      (progress.verify change finalization recoveryMutation store, store)
    | .proving change finalization gate => (progress.prove deltas answers change finalization gate, store)
    | .completing change finalization gate => progress.complete answers change finalization gate false store
    | .refreshing terminal =>
      (progress.goTo (if answers.refreshed then .cleaning else .finished),
        { store with bundle := some (terminal.withStatus .archived) })
    | .cleaning => (progress.goTo .finished, { store with active := none })
    | .reconciling _ => (progress.reconcile call answers, store)
    | .recovering finalization => progress.release answers finalization (fun _ => .finished) store
    | .finished => (progress, store)

section

variable {ι : Type} [DecidableEq ι]

abbrev ArchiveRace (ι : Type) := Shared ι ArchiveStore ArchiveProgress

/-- A step of a call, or what others make of the records. -/
abbrev ArchiveMove (ι : Type) := SharedMove ι ArchiveAnswers ArchiveStore

def archiveFlowStep (calls : ι → ArchiveCall) : ArchiveMove ι → ArchiveRace ι → Unit × ArchiveRace ι :=
  sharedStep (fun i answers => archiveAdvance deltas (calls i) answers) fun store _ => store

abbrev ArchiveRecord (ι : Type) := Record (ArchiveRace ι) (ArchiveMove ι) Unit

end

/-! ## What is claimed -/

def Gains (holds : BundleDocument → Bool) (before after : Option BundleDocument) : Prop :=
  before.any holds = false ∧ after.any holds = true

/-- A bundle that is written from the change has what the change has. -/
def ArchivePhase.copies : ArchivePhase → Prop
  | .archiving _ _ => True
  | _ => False

/-- The record becomes archived, or a release gate done. -/
def Completes (phase : ArchivePhase) (before after : ArchiveStore) : Prop :=
  Gains BundleDocument.isArchived before.active after.active ∨
    Gains BundleDocument.isReleased before.active after.active ∨
      (¬ phase.copies ∧ Gains BundleDocument.isReleased before.bundle after.bundle)

/-- The call was told that the change is shipped, and with deltas that its projection is proven. -/
def ArchiveProgress.Informed (progress : ArchiveProgress) : Prop :=
  progress.shipped = true ∧ (hasAcceptedDeltas deltas = true → progress.proven = true)

def ShippedAndProven {ι : Type} (step : ArchiveRecord ι) : Prop :=
  ∀ i answers, step.request = .party i answers →
    Completes (step.before.party i).phase step.before.value step.after.value → (step.before.party i).Informed deltas

/-- Nothing is left to complete for a replay, and no release gate for the completion that precedes the proof. -/
def ArchivePhase.Settled (store : ArchiveStore) : ArchivePhase → Prop
  | .replaying _ _ => store.bundle.all BundleDocument.isReleased = true
  | .replayed change _ _ =>
    change.terminalCommitted = true ∨ store.active.all (fun latest => latest.isArchived && latest.isReleased) = true
  | .releasing _ _ | .recovering _ => (store.active.or store.bundle).all BundleDocument.isReleased = true
  | _ => True

/-- With deltas, a step before the proof finds nothing to complete. -/
def ProvenFirst {ι : Type} (step : ArchiveRecord ι) : Prop :=
  ∀ i answers, step.request = .party i answers → answers.fate ≠ .untouched → hasAcceptedDeltas deltas = true →
    (step.before.party i).proven = false → (step.before.party i).phase.Settled step.before.value

/-! ## Documents -/

section

variable {deltas : ChangeDeltas} {call : ArchiveCall} {answers : ArchiveAnswers}
variable {progress : ArchiveProgress} {phase : ArchivePhase} {store : ArchiveStore}
variable {change : BundleDocument} {finalization : Finalization} {gate : GateCompletion}

@[simp] theorem completeBundle_isReleased (bundle : BundleDocument) :
    (completeBundle finalization answers bundle).isReleased = true := by
  unfold completeBundle
  split
  next committed =>
    simp only [BundleDocument.terminalCommitted, Bool.and_eq_true] at committed
    exact committed.2
  next =>
    by_cases done : (bundle.gates .release).status = .done
    · simp [BundleDocument.isReleased, ReleaseCall.recovered, done]
    · simp [BundleDocument.isReleased, ReleaseCall.recovered, ReleaseCall.completion, done]

@[simp] theorem releaseCompleted_isReleased (latest : BundleDocument) :
    (releaseCompleted finalization answers latest).isReleased = true := by
  unfold releaseCompleted
  split
  next done => exact done
  next => simp [BundleDocument.isReleased]

@[simp] theorem releaseCompleted_isArchived (latest : BundleDocument) :
    (releaseCompleted finalization answers latest).isArchived = latest.isArchived := by
  unfold releaseCompleted
  split <;> rfl

@[simp] theorem shippedChange_isArchived (gate : Option GateCompletion) (latest : BundleDocument) :
    (shippedChange finalization gate answers latest).isArchived = true := rfl

theorem shippedChange_isReleased (done : gate.status = .done) (latest : BundleDocument) :
    (shippedChange finalization (some gate) answers latest).isReleased = true := by
  simp [BundleDocument.isReleased, shippedChange, ShippedCall.archived, done]

/-! ## What a step completes -/

@[simp] theorem gains_some_iff (holds : BundleDocument → Bool) (before after : BundleDocument) :
    Gains holds (some before) (some after) ↔ holds before = false ∧ holds after = true := by
  simp [Gains]

@[simp] theorem not_gains_self (holds : BundleDocument → Bool) (document : Option BundleDocument) :
    ¬ Gains holds document document := by
  intro gained
  have lost := gained.1
  rw [gained.2] at lost
  cases lost

@[simp] theorem not_gains_none (holds : BundleDocument → Bool) (before : Option BundleDocument) :
    ¬ Gains holds before none := by
  intro gained
  cases gained.2

@[simp] theorem not_completes_self : ¬ Completes phase store store := by simp [Completes]

theorem not_completes_recorded {attempted : Attempted} {now : String} :
    ¬ Completes phase store (store.recordPhase9Status change attempted now) := by
  -- Only the status of finalization changes.
  cases found : store.active with
  | none => simp [Completes, ArchiveStore.recordPhase9Status, found]
  | some latest =>
    simp [Completes, ArchiveStore.recordPhase9Status, found, BundleDocument.isArchived, BundleDocument.isReleased]

theorem replay_completes_iff : Completes (.replaying change finalization) store
    (progress.replay answers change finalization store).2 ↔
      ¬ (ArchivePhase.replaying change finalization).Settled store := by
  unfold ArchiveProgress.replay
  cases found : store.bundle with
  | none => simp [ArchivePhase.Settled, found]
  | some bundle => simp [Completes, ArchivePhase.copies, ArchivePhase.Settled, found]

theorem replayed_completes_iff (done : gate.status = .done) : Completes (.replayed change finalization gate) store
    (progress.complete answers change finalization (some gate) true store).2 ↔
      ¬ (ArchivePhase.replayed change finalization gate).Settled store := by
  unfold ArchiveProgress.complete
  split
  next committed => simp [ArchivePhase.Settled, committed]
  next uncommitted =>
    cases found : store.active with
    | none => simp [ArchivePhase.Settled, found]
    | some latest =>
      simp only [Completes, ArchivePhase.Settled, found, gains_some_iff, shippedChange_isArchived,
        shippedChange_isReleased done, not_gains_self, Option.all_some, Bool.and_eq_true, and_true, and_false, or_false,
        uncommitted]
      cases latest.isArchived <;> cases latest.isReleased <;> simp

theorem release_completes_iff (writes : ¬ phase.copies) (next : Bool → ArchivePhase) :
    Completes phase store (progress.release answers finalization next store).2 ↔
      ¬ (store.active.or store.bundle).all BundleDocument.isReleased = true := by
  unfold ArchiveProgress.release
  cases active : store.active with
  | some latest => simp [Completes, active]
  | none =>
    cases bundle : store.bundle with
    | none => simp
    | some document => simp [Completes, active, bundle, writes]

/-! ## Steps -/

variable (deltas) in
/-- What a call has been told by the phase it is in. -/
def ArchiveProgress.Known (progress : ArchiveProgress) : Prop :=
  match progress.phase with
  | .detecting _ skip | .choosing _ skip | .archiving _ skip => skip.isSome = true → progress.shipped = true
  | .replaying _ _ | .releasing _ _ | .verifying _ _ _ | .proving _ _ _ | .recovering _ => progress.shipped = true
  | .replayed _ _ gate => progress.shipped = true ∧ gate.status = .done
  | .completing _ _ _ | .refreshing _ => progress.Informed deltas
  | _ => True

@[simp] theorem ArchiveProgress.known_finished (progress : ArchiveProgress) :
    (progress.goTo .finished).Known deltas := trivial

theorem ArchiveProgress.Known.told (known : (progress.goTo phase).Known deltas) :
    (progress.told answers phase).Known deltas := by
  unfold ArchiveProgress.told
  split
  · exact known
  · exact progress.known_finished

theorem ArchiveProgress.release_known {next : Bool → ArchivePhase}
    (known : ∀ recoveryMutation, (progress.goTo (next recoveryMutation)).Known deltas) :
    (progress.release answers finalization next store).1.Known deltas := by
  unfold ArchiveProgress.release
  split
  · exact (known false).told
  · split
    · exact (known true).told
    · exact progress.known_finished

theorem ArchiveProgress.complete_known {gate : Option GateCompletion} {refreshed : Bool}
    (informed : refreshed = false → progress.Informed deltas) :
    (progress.complete answers change finalization gate refreshed store).1.Known deltas := by
  unfold ArchiveProgress.complete
  cases refreshed with
  | true =>
    split
    · trivial
    · split
      · trivial
      · exact ArchiveProgress.Known.told trivial
  | false =>
    split
    · exact informed rfl
    · split
      · trivial
      · exact ArchiveProgress.Known.told (informed rfl)

theorem archiveAdvance_known (known : progress.Known deltas) :
    (archiveAdvance deltas call answers progress store).1.Known deltas := by
  obtain ⟨phase, shipped, proven⟩ := progress
  unfold archiveAdvance
  split
  next => trivial
  next =>
    cases phase with
    | idle =>
      simp only [ArchiveProgress.load]
      split
      next => trivial
      next =>
        split
        next => trivial
        next =>
          split
          next =>
            split
            next => trivial
            next => exact fun _ => rfl
          next => exact fun skipped => absurd skipped (by decide)
    | detecting change skip =>
      simp only [ArchiveProgress.detect]
      split
      next => exact known
      next =>
        split
        next => trivial
        next => exact rfl
    | replaying change finalization =>
      simp only [ArchiveProgress.replay]
      split
      next => trivial
      next bundle _ =>
        refine ArchiveProgress.Known.told ⟨known, ?_⟩
        simpa [BundleDocument.isReleased] using @completeBundle_isReleased answers finalization bundle
    | replayed change finalization gate => exact ArchiveProgress.complete_known (fun impossible => by cases impossible)
    | choosing change skip =>
      simp only [ArchiveProgress.choose]
      split
      next => trivial
      next => trivial
      next => trivial
      next => exact known
    | archiving change skip =>
      simp only [ArchiveProgress.writeBundle]
      split
      next => trivial
      next =>
        cases skip with
        | none => exact ArchiveProgress.Known.told trivial
        | some finalization => exact ArchiveProgress.Known.told (known rfl)
    | finalizing change =>
      simp only [ArchiveProgress.finalize]
      split
      next => trivial
      next => trivial
      next => trivial
      next => exact rfl
    | releasing change finalization => exact ArchiveProgress.release_known fun _ => known
    | verifying change finalization recoveryMutation =>
      simp only [ArchiveProgress.verify]
      split
      next => trivial
      next =>
        split
        next => trivial
        next =>
          split
          next => trivial
          next => exact known
    | proving change finalization gate =>
      simp only [ArchiveProgress.prove]
      split
      next plain => exact ⟨known, fun accepted => by simp [accepted] at plain⟩
      next =>
        split
        next => trivial
        next =>
          split
          next => exact ⟨known, fun _ => rfl⟩
          next => trivial
    | completing change finalization gate => exact ArchiveProgress.complete_known fun _ => known
    | refreshing terminal =>
      dsimp only
      split <;> trivial
    | reconciling change =>
      simp only [ArchiveProgress.reconcile]
      split
      next => trivial
      next =>
        split
        next => trivial
        next => exact rfl
    | recovering finalization => exact ArchiveProgress.release_known fun _ => trivial
    | cleaning => trivial
    | finished => trivial

theorem informed_iff {completes settled : Prop} (exact : completes ↔ ¬ settled) (shipped : progress.shipped = true) :
    (completes → progress.Informed deltas) ↔
      (hasAcceptedDeltas deltas = true → progress.proven = false → settled) := by
  constructor
  · intro informed accepted unproven
    by_contra unsettled
    have proven := (informed (exact.mpr unsettled)).2 accepted
    rw [unproven] at proven
    cases proven
  · intro first completed
    refine ⟨shipped, fun accepted => ?_⟩
    by_contra unproven
    exact exact.mp completed (first accepted (Bool.eq_false_of_not_eq_true unproven))

theorem archiveAdvance_informed_iff (known : progress.Known deltas) :
    (Completes progress.phase store (archiveAdvance deltas call answers progress store).2 →
        progress.Informed deltas) ↔
      (answers.fate ≠ .untouched → hasAcceptedDeltas deltas = true → progress.proven = false →
        progress.phase.Settled store) := by
  obtain ⟨phase, shipped, proven⟩ := progress
  unfold archiveAdvance
  split
  next untaken =>
    exact iff_of_true (fun completed => absurd completed not_completes_self) fun taken => absurd untaken taken
  next taken =>
    rw [forall_prop_of_true taken]
    -- Four phases complete something that may not be proven; two have been told of the proof.
    cases phase with
    | replaying change finalization => exact informed_iff replay_completes_iff known
    | replayed change finalization gate => exact informed_iff (replayed_completes_iff known.2) known.1
    | releasing change finalization =>
      have writes : ¬ (ArchivePhase.releasing change finalization).copies := id
      exact informed_iff (release_completes_iff writes _) known
    | recovering finalization =>
      have writes : ¬ (ArchivePhase.recovering finalization).copies := id
      exact informed_iff (release_completes_iff writes _) known
    | completing change finalization gate => exact iff_of_true (fun _ => known) fun _ _ => trivial
    | refreshing terminal => exact iff_of_true (fun _ => known) fun _ _ => trivial
    | archiving change skip =>
      refine iff_of_true (fun completed => ?_) fun _ _ => trivial
      simp only [ArchiveProgress.writeBundle] at completed
      split at completed
      · exact absurd completed not_completes_self
      · simp [Completes, ArchivePhase.copies] at completed
    | finalizing change =>
      refine iff_of_true (fun completed => absurd completed ?_) fun _ _ => trivial
      simp only [ArchiveProgress.finalize]
      split
      · exact not_completes_recorded
      · exact not_completes_self
      · exact not_completes_recorded
      · exact not_completes_self
    | cleaning => exact iff_of_true (fun completed => by simp [Completes] at completed) fun _ _ => trivial
    | _ => exact iff_of_true (fun completed => absurd completed not_completes_self) fun _ _ => trivial

end

/-! ## Runs -/

/-- However many calls, with whatever options and answers, a change is completed only by calls that were told of its
    release and, with deltas, of their proof, just if the steps before the proof find nothing to complete. -/
theorem shippedAndProven_iff {ι : Type} [DecidableEq ι] (deltas : ChangeDeltas) (calls : ι → ArchiveCall)
    (store : ArchiveStore) (moves : List (ArchiveMove ι)) :
    (∀ step ∈ trace (archiveFlowStep deltas calls) moves ⟨store, fun _ => .start⟩, ShippedAndProven deltas step) ↔
      ∀ step ∈ trace (archiveFlowStep deltas calls) moves ⟨store, fun _ => .start⟩, ProvenFirst deltas step := by
  have held : ∀ step ∈ trace (archiveFlowStep deltas calls) moves ⟨store, fun _ => .start⟩,
      Held (fun _ => True) (fun _ _ progress => progress.Known deltas) step.before := by
    intro step member
    have free : ∀ step ∈ trace (archiveFlowStep deltas calls) moves ⟨store, fun _ => .start⟩,
        (fun _ => True) step := fun _ _ => trivial
    refine ((held_run ?_ ?_ free ⟨trivial, fun _ => trivial⟩).1 step member).1
    · intro i answers race _ held
      exact held.moved trivial (archiveAdvance_known (held.parties i)) fun _ _ known => known
    · intro event race _ held
      exact ⟨trivial, held.parties⟩
  refine forall₂_congr fun step member => ?_
  have known := (held step member).parties
  rw [trace_step member]
  generalize step.before = race at known ⊢
  cases step.request with
  | outside event =>
    refine iff_of_true ?_ ?_
    · intro i answers impossible
      cases impossible
    · intro i answers impossible
      cases impossible
  | party i answers =>
    have informed : (Completes (race.party i).phase race.value
        (archiveAdvance deltas (calls i) answers (race.party i) race.value).2 →
          (race.party i).Informed deltas) ↔ _ := archiveAdvance_informed_iff (known i)
    constructor
    · intro shipped j others same
      cases same
      exact informed.mp (shipped i answers rfl)
    · intro first j others same
      cases same
      exact informed.mpr (first i answers rfl)

/-! ## Fixed runs -/

def removingDeltas : ChangeDeltas :=
  ⟨[("search", [.remove ⟨"dl-1", "rq-1", "superseded", none⟩])], List.nodup_singleton _⟩

def mergedChange : BundleDocument where
  intake := ⟨.draft, [], none, none⟩
  lifecycleState := some .opened
  gates := createDefaultGates
  phase9_status := some
    { status := .pending_merge
      startedAt := "2026-01-01T00:00:00.000Z"
      completedAt := none
      error := none
      evidence := fun field =>
        match field with
        | .repo => some (.text "owner/project")
        | .prNumber => some (.number 7)
        | .changeTipSha => some (.text "a1")
        | _ => none }

def mergedFinalization : Finalization := ⟨.empty, "Phase 9 finalization shipped", some "b2"⟩

def mergedAnswers : ArchiveAnswers where
  preflight := true
  mainEvidence := some mergedFinalization
  replayFinalization := some mergedFinalization
  committedBundle := true
  bundleIdentity := true
  committedManifest := true
  manifest := true
  projectionProof := .failed ⟨.specMismatch, some "search", "Released specification differs"⟩
  approvals := true
  repairWorktree := true
  changeWorktree := true
  activeReadable := true
  archived := true
  finalizeRelease := .blocked
  refreshed := true
  now := "2026-01-02T00:00:00.000Z"
  fate := .verified

def waitingForMerge : ArchiveStore := ⟨some mergedChange, some (mergedChange.withStatus .archived)⟩

def replayCall : ArchiveCall := ⟨false, none, some .run, none⟩

/-- A replay releases the bundle and archives the record without a look at the released specs. -/
theorem replay_unproven : ¬ ∀ step ∈ trace (archiveFlowStep removingDeltas fun _ : Unit => replayCall)
      (List.replicate 4 (.party () mergedAnswers)) ⟨waitingForMerge, fun _ => .start⟩,
      ShippedAndProven removingDeltas step := by
  intro each
  have told := each (Foundation.recordOf (archiveFlowStep removingDeltas fun _ : Unit => replayCall)
    (.party () mergedAnswers) (stateAfter (archiveFlowStep removingDeltas fun _ : Unit => replayCall)
      (List.replicate 3 (.party () mergedAnswers)) ⟨waitingForMerge, fun _ => .start⟩))
    (by exact List.mem_cons_of_mem _ (List.mem_cons_of_mem _ (List.mem_cons_of_mem _ List.mem_cons_self)))
    () mergedAnswers rfl (.inl ⟨rfl, rfl⟩)
  have proven := told.2 rfl
  cases proven

end Advance.Tools.Change
