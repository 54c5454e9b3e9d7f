import Advance.Tools.Change.Phase9Status
import Advance.Tools.ReportIntake

/-! # The writers of an archive bundle

Recovered reports, the completion of a release and the refresh after archiving all replace the `change.json` of one
bundle.  A recovered report loads and overwrites it without a lock; the others hold the project's archive lock, but
write what they have read before.
-/

namespace Advance.Tools.Change

open Advance.Foundation Advance.Types

/-! ## Documents -/

/-- A bundle's `change.json`, or the active record, as far as the writers look at it. -/
structure BundleDocument where
  intake : IntakeProjection
  lifecycleState : Option ChangeLifecycleState
  gates : Gates
  phase9_status : Option Phase9FinalizationStatus

def BundleDocument.withStatus (document : BundleDocument) (status : ChangeStatus) : BundleDocument :=
  { document with intake := { document.intake with status := status } }

/-- Nothing is left to complete. -/
def BundleDocument.terminalCommitted (document : BundleDocument) : Bool :=
  document.intake.status = .archived && document.lifecycleState = some .archived &&
    document.phase9_status.any (·.status = .done) && (document.gates .release).status = .done

structure ReleaseCall where
  finalization : Phase9Evidence
  evidence : String
  completedAt : String
  skipTerminalRefresh : Bool

def ReleaseCall.completion (call : ReleaseCall) : GateCompletion :=
  ⟨.done, some call.completedAt, some "adv-archive", some call.evidence⟩

/-- The mutation of `completeArchivedBundleRelease`. -/
def ReleaseCall.recovered (call : ReleaseCall) (latest : BundleDocument) : BundleDocument where
  intake := { latest.intake with status := .archived }
  lifecycleState := some .archived
  gates := Function.update latest.gates .release
    (if (latest.gates .release).status = .done then latest.gates .release else call.completion)
  phase9_status := some (doneStatus .shipped call.finalization call.completedAt latest.phase9_status)

structure ShippedCall where
  finalization : Phase9Evidence
  releaseGateCompletion : Option GateCompletion
  archivedAt : String
  terminalRefreshCompleted : Bool

/-- The mutation of `completeShippedChange`. -/
def ShippedCall.archived (call : ShippedCall) (latest : BundleDocument) : BundleDocument where
  intake := { latest.intake with status := .archived }
  lifecycleState := some .archived
  gates := (call.releaseGateCompletion.map (Function.update latest.gates .release)).getD latest.gates
  phase9_status := some (doneStatus .shipped call.finalization call.archivedAt latest.phase9_status)

/-! ## Calls -/

/-- The active record, the bundle and who has the archive lock. -/
structure BundleStore (ι : Type) where
  active : Option BundleDocument
  bundle : BundleDocument
  holder : Option ι

inductive BundleCall where
  | report (report : IntakeReport)
  | release (call : ReleaseCall)
  | ship (call : ShippedCall)

/-- Where a call is, with what it has read. -/
inductive BundlePhase where
  | idle
  | rewriting (report : IntakeReport) (copy : BundleDocument) (next : IntakeProjection)
  | holding
  | loading
  | committing (latest : BundleDocument)
  | reading
  | shipping (seen : BundleDocument)
  | waiting (terminal : BundleDocument)
  | refreshing (copy : BundleDocument)
  | cleaning
  | finished (accepted : Option IntakeReport)

section

variable {ι : Type} [DecidableEq ι]

def BundleStore.released (store : BundleStore ι) (i : ι) : BundleStore ι :=
  if store.holder = some i then { store with holder := none } else store

/-- What `changes.get` presents beside a bundle. -/
def BundleStore.view (store : BundleStore ι) : BundleDocument :=
  (store.active.getD store.bundle).withStatus .archived

/-- `saveRecoveredSubagentReport`; the report carries its recovery audit. -/
def reportAdvance (report : IntakeReport) (told : Bool) (phase : BundlePhase) (store : BundleStore ι) :
    BundlePhase × BundleStore ι :=
  match phase with
  | .idle =>
    match recoverReport report store.bundle.intake with
    | .noTask => (.finished none, store)
    | .present => (.finished (some report), store)
    | .added next => (.rewriting report store.bundle next, store)
  | .rewriting report copy next =>
    -- the whole document is overwritten, whoever has the lock
    (.finished (if told then some report else none), { store with bundle := { copy with intake := next } })
  | phase => (phase, store)

/-- `completeArchivedBundleRelease` -/
def ReleaseCall.advance (call : ReleaseCall) (i : ι) (phase : BundlePhase) (store : BundleStore ι) :
    BundlePhase × BundleStore ι :=
  match phase with
  | .idle => if store.holder = none then (.holding, { store with holder := some i }) else (.idle, store)
  | .holding =>
    if store.bundle.terminalCommitted then
      if call.skipTerminalRefresh then (.finished none, store.released i) else (.refreshing store.bundle, store)
    else (.loading, store)
  -- The transaction reads once more; its own lock stops no writer that does not take it.
  | .loading => (.committing store.bundle, store)
  | .committing latest => (.reading, { store with bundle := call.recovered latest })
  | .reading =>
    if store.bundle.terminalCommitted then (.refreshing store.bundle, store)
    else (.finished none, store.released i)
  | .refreshing copy => (.finished none, { store with bundle := copy.withStatus .archived }.released i)
  | phase => (phase, store)

/-- `completeShippedChange` -/
def ShippedCall.advance (call : ShippedCall) (i : ι) (told : Bool) (phase : BundlePhase) (store : BundleStore ι) :
    BundlePhase × BundleStore ι :=
  match phase with
  | .idle => (.shipping store.view, store)
  | .shipping seen =>
    if seen.terminalCommitted then
      (if call.terminalRefreshCompleted then .finished none else .waiting seen, store)
    else
      match store.active with
      | none => (.finished none, store)
      | some latest =>
        let terminal := call.archived latest
        (if told then if call.terminalRefreshCompleted then .cleaning else .waiting terminal else .finished none,
          { store with active := some terminal })
  | .waiting terminal =>
    if store.holder = none then (.refreshing terminal, { store with holder := some i }) else (.waiting terminal, store)
  | .refreshing copy => (.cleaning, { store with bundle := copy.withStatus .archived }.released i)
  | .cleaning => (.finished none, { store with active := none })
  | phase => (phase, store)

variable (calls : ι → BundleCall)

/-- A step that is not taken ends the call, and frees the lock. -/
def bundleAdvance (i : ι) (fate : MutationFate) (phase : BundlePhase) (store : BundleStore ι) :
    BundlePhase × BundleStore ι :=
  match phase with
  | .finished accepted => (.finished accepted, store)
  | phase =>
    if fate = .untouched then (.finished none, store.released i)
    else
      match calls i with
      | .report report => reportAdvance report (fate = .verified) phase store
      | .release call => call.advance i phase store
      | .ship call => call.advance i (fate = .verified) phase store

/-! ## What is claimed -/

abbrev BundleRace (ι : Type) := Shared ι (BundleStore ι) BundlePhase

/-- A step of a call, or what others make of the active record. -/
abbrev BundleMove (ι : Type) := SharedMove ι MutationFate (Option BundleDocument)

def bundleStep : BundleMove ι → BundleRace ι → Unit × BundleRace ι :=
  sharedStep (bundleAdvance calls) fun active store => { store with active := active }

abbrev BundleRecord (ι : Type) := Record (BundleRace ι) (BundleMove ι) Unit

end

structure BundleDocument.Extends (before after : BundleDocument) : Prop where
  keys : before.intake.reportKeys ⊆ after.intake.reportKeys
  gates : ∀ gateId, (before.gates gateId).status = .done → after.gates gateId = before.gates gateId

structure BundleDocument.Sound (document : BundleDocument) : Prop where
  archived : document.intake.status = .archived
  once : document.intake.reportKeys.Nodup

structure NothingLost {ι : Type} (before after : BundleRace ι) : Prop where
  sound : after.value.bundle.Sound
  kept : before.value.bundle.Extends after.value.bundle
  accepted : ∀ i report, after.party i = .finished (some report) →
    reportId report ∈ after.value.bundle.intake.reportKeys

/-- Before a step of a call that overwrites the bundle: the call has read all that the bundle holds; a recovered
    report did not see its key at another place, and a copy that is written as it is holds no key twice. -/
def BundlePhase.Current (bundle : BundleDocument) : BundlePhase → Prop
  | .rewriting report copy _ => bundle.Extends copy ∧ reportId report ∉ copy.intake.reportKeys
  | .committing latest => bundle.Extends latest
  | .refreshing copy => bundle.Extends copy ∧ copy.intake.reportKeys.Nodup
  | _ => True

def Current {ι : Type} (step : BundleRecord ι) : Prop :=
  match step.request with
  | .outside _ => True
  | .party i fate => fate ≠ .untouched → (step.before.party i).Current step.before.value.bundle

/-! ## Documents that grow -/

@[simp] theorem BundleDocument.Extends.refl (document : BundleDocument) : document.Extends document :=
  ⟨fun _ => id, fun _ _ => rfl⟩

theorem BundleDocument.withStatus_extends (document : BundleDocument) (status : ChangeStatus) :
    document.Extends (document.withStatus status) := ⟨fun _ => id, fun _ _ => rfl⟩

theorem BundleDocument.Extends.trans {first second third : BundleDocument} (left : first.Extends second)
    (right : second.Extends third) : first.Extends third where
  keys := fun _ held => right.keys (left.keys held)
  gates gateId done := by
    have kept := left.gates gateId done
    rw [← kept]
    apply right.gates
    rw [kept]
    exact done

theorem updateFirst_keys {taskId : String} {report : IntakeReport} {tasks : List IntakeTask} {task : IntakeTask}
    (found : tasks.find? (fun task => task.id = taskId) = some task) :
    ((updateFirst taskId (IntakeTask.withReport report) tasks).flatMap IntakeTask.reports).Perm
      (report :: tasks.flatMap IntakeTask.reports) := by
  induction tasks with
  | nil => cases found
  | cons head rest ih =>
    unfold updateFirst
    by_cases named : head.id = taskId
    · rw [if_pos named]
      simp only [List.flatMap_cons, IntakeTask.withReport, IntakeTask.reports, Option.getD_some, List.append_assoc]
      exact List.perm_middle
    · rw [if_neg named]
      have inRest : rest.find? (fun task => task.id = taskId) = some task := by simpa [named] using found
      simp only [List.flatMap_cons]
      exact ((ih inRest).append_left _).trans List.perm_middle

theorem recoverReport_keys {report : IntakeReport} {base next : IntakeProjection}
    (added : recoverReport report base = .added next) :
    next.reportKeys.Perm (reportId report :: base.reportKeys) ∧ next.status = base.status := by
  unfold recoverReport at added
  split at added
  next taskId _ =>
    cases found : findTask base taskId with
    | none => simp [found] at added
    | some task =>
      simp only [found] at added
      split at added
      next => cases added
      next =>
        cases added
        refine ⟨?_, rfl⟩
        have grown : (base.reports ++ (updateFirst taskId (IntakeTask.withReport report) base.tasks).flatMap
            IntakeTask.reports).Perm (base.reports ++ report :: base.tasks.flatMap IntakeTask.reports) :=
          (updateFirst_keys found).append_left _
        exact (grown.trans List.perm_middle).map reportId
  next =>
    split at added
    next => cases added
    next =>
      cases added
      refine ⟨?_, rfl⟩
      simp only [IntakeProjection.reportKeys, IntakeProjection.reports, Option.getD_some, List.append_assoc]
      exact List.Perm.map reportId List.perm_middle

theorem ReleaseCall.recovered_extends (call : ReleaseCall) (latest : BundleDocument) :
    latest.Extends (call.recovered latest) where
  keys := fun _ held => held
  gates gateId done := by
    by_cases release : gateId = .release
    · subst release
      simp [ReleaseCall.recovered, done]
    · simp [ReleaseCall.recovered, release]

/-! ## Steps -/

/-- What a call knows of what it has read, and what it has said is so. -/
def BundlePhase.Known (bundle : BundleDocument) : BundlePhase → Prop
  | .rewriting report copy next => recoverReport report copy.intake = .added next ∧ copy.Sound
  | .committing latest => latest.Sound
  | .finished (some report) => reportId report ∈ bundle.intake.reportKeys
  | _ => True

theorem BundlePhase.Known.grown {before after : BundleDocument} {phase : BundlePhase} (known : phase.Known before)
    (kept : before.Extends after) : phase.Known after := by
  cases phase with
  | finished accepted =>
    cases accepted with
    | none => trivial
    | some report => exact kept.keys known
  | _ => exact known

/-- What a step that meets the condition leaves. -/
structure BundleKept {ι : Type} (before : BundleDocument) (outcome : BundlePhase × BundleStore ι) : Prop where
  sound : outcome.2.bundle.Sound
  kept : before.Extends outcome.2.bundle
  known : outcome.1.Known outcome.2.bundle

section

variable {ι : Type} {store after : BundleStore ι} {phase next : BundlePhase}

theorem BundleKept.same (sound : store.bundle.Sound) (same : after.bundle = store.bundle)
    (known : next.Known store.bundle) : BundleKept store.bundle (next, after) where
  sound := by rw [same]; exact sound
  kept := by rw [same]; exact .refl _
  known := by rw [same]; exact known

variable [DecidableEq ι]

@[simp] theorem BundleStore.released_bundle (store : BundleStore ι) (i : ι) :
    (store.released i).bundle = store.bundle := by
  unfold BundleStore.released
  split <;> rfl

variable (sound : store.bundle.Sound) (known : phase.Known store.bundle) (current : phase.Current store.bundle)

include sound known current

omit [DecidableEq ι] in
theorem reportAdvance_kept (report : IntakeReport) (told : Bool) :
    BundleKept store.bundle (reportAdvance report told phase store) := by
  cases phase with
  | idle =>
    simp only [reportAdvance]
    cases result : recoverReport report store.bundle.intake with
    | noTask => exact .same sound rfl trivial
    | present => exact .same sound rfl (recoverReport_present result)
    | added next => exact .same sound rfl ⟨result, sound⟩
  | rewriting stored copy next =>
    obtain ⟨added, copied⟩ := known
    obtain ⟨covered, fresh⟩ := current
    obtain ⟨keys, status⟩ := recoverReport_keys added
    have grown : copy.Extends { copy with intake := next } :=
      ⟨fun key held => keys.mem_iff.mpr (List.mem_cons_of_mem _ held), fun _ _ => rfl⟩
    have once : next.reportKeys.Nodup := keys.nodup_iff.mpr (List.nodup_cons.mpr ⟨fresh, copied.once⟩)
    refine ⟨⟨status.trans copied.archived, once⟩, covered.trans grown, ?_⟩
    cases told with
    | false => trivial
    | true => exact keys.mem_iff.mpr List.mem_cons_self
  | _ => exact .same sound rfl known

theorem ReleaseCall.advance_kept (call : ReleaseCall) (i : ι) :
    BundleKept store.bundle (call.advance i phase store) := by
  cases phase with
  | idle =>
    simp only [ReleaseCall.advance]
    split
    · exact .same sound rfl trivial
    · exact .same sound rfl trivial
  | holding =>
    simp only [ReleaseCall.advance]
    split
    · split
      · exact .same sound (store.released_bundle i) trivial
      · exact .same sound rfl trivial
    · exact .same sound rfl trivial
  | loading => exact .same sound rfl sound
  | committing latest =>
    -- Only the report lists of what was read are written, and the gates grow.
    exact ⟨⟨rfl, known.once⟩, current.trans (call.recovered_extends latest), trivial⟩
  | reading =>
    simp only [ReleaseCall.advance]
    split
    · exact .same sound rfl trivial
    · exact .same sound (store.released_bundle i) trivial
  | refreshing copy =>
    obtain ⟨covered, once⟩ := current
    refine ⟨?_, ?_, trivial⟩
    · simp only [ReleaseCall.advance, BundleStore.released_bundle]
      exact ⟨rfl, once⟩
    · simp only [ReleaseCall.advance, BundleStore.released_bundle]
      exact covered.trans (copy.withStatus_extends .archived)
  | _ => exact .same sound rfl known

theorem ShippedCall.advance_kept (call : ShippedCall) (i : ι) (told : Bool) :
    BundleKept store.bundle (call.advance i told phase store) := by
  cases phase with
  | shipping seen =>
    simp only [ShippedCall.advance]
    split
    next =>
      split
      · exact .same sound rfl trivial
      · exact .same sound rfl trivial
    next =>
      split
      · exact .same sound rfl trivial
      · -- The active record is archived by the commit.
        refine .same sound rfl ?_
        split
        · split <;> trivial
        · trivial
  | waiting terminal =>
    simp only [ShippedCall.advance]
    split
    · exact .same sound rfl trivial
    · exact .same sound rfl trivial
  | refreshing copy =>
    obtain ⟨covered, once⟩ := current
    refine ⟨?_, ?_, trivial⟩
    · simp only [ShippedCall.advance, BundleStore.released_bundle]
      exact ⟨rfl, once⟩
    · simp only [ShippedCall.advance, BundleStore.released_bundle]
      exact covered.trans (copy.withStatus_extends .archived)
  | idle => exact .same sound rfl trivial
  | cleaning => exact .same sound rfl trivial
  | _ => exact .same sound rfl known

end

section

variable {ι : Type} [DecidableEq ι] {calls : ι → BundleCall} {store : BundleStore ι} {phase : BundlePhase}

theorem bundleAdvance_kept {i : ι} {fate : MutationFate} (sound : store.bundle.Sound)
    (known : phase.Known store.bundle) (current : fate ≠ .untouched → phase.Current store.bundle) :
    BundleKept store.bundle (bundleAdvance calls i fate phase store) := by
  unfold bundleAdvance
  split
  next accepted => exact .same sound rfl known
  next =>
    split
    next => exact .same sound (store.released_bundle i) trivial
    next taken =>
      split
      · exact reportAdvance_kept sound known (current taken) _ _
      · exact ReleaseCall.advance_kept sound known (current taken) _ _
      · exact ShippedCall.advance_kept sound known (current taken) _ _ _

/-- However many calls, in whatever order their steps are taken and wherever they stop, the bundle loses nothing as
    long as whoever overwrites it had read all it holds. -/
theorem nothing_lost (calls : ι → BundleCall) (store : BundleStore ι) (moves : List (BundleMove ι))
    (sound : store.bundle.Sound)
    (good : ∀ step ∈ trace (bundleStep calls) moves ⟨store, fun _ => .idle⟩, Current step) :
    NothingLost ⟨store, fun _ => .idle⟩ (stateAfter (bundleStep calls) moves ⟨store, fun _ => .idle⟩) := by
  have held : Held (fun now : BundleStore ι => now.bundle.Sound ∧ store.bundle.Extends now.bundle)
      (fun _ now phase => phase.Known now.bundle)
      (stateAfter (bundleStep calls) moves ⟨store, fun _ => .idle⟩) := by
    refine (held_run ?_ ?_ good ⟨⟨sound, .refl _⟩, fun _ => trivial⟩).2
    · intro i fate race good held
      have kept : BundleKept race.value.bundle (bundleAdvance calls i fate (race.party i) race.value) :=
        bundleAdvance_kept held.value.1 (held.parties i) good
      exact held.moved ⟨kept.sound, held.value.2.trans kept.kept⟩ kept.known
        fun j _ known => known.grown kept.kept
    · intro event race good held
      exact ⟨held.value, held.parties⟩
  refine ⟨held.value.1, held.value.2, fun i report reached => ?_⟩
  have known := held.parties i
  rw [reached] at known
  exact known

end

/-! ## Fixed runs -/

def archivedDocument : BundleDocument :=
  ⟨⟨.archived, [⟨"tk-1", none, none⟩, ⟨"tk-2", none, none⟩], none, none⟩, some .archived, createDefaultGates, none⟩

def twoReports : Bool → BundleCall
  | false => .report engineerReport
  | true => .report { engineerReport with task_id := some "tk-2", scope := .task "tk-2" }

def retired : BundleStore Bool := ⟨none, archivedDocument, none⟩

/-- Both load before either writes: the first one is accepted and overwritten. -/
theorem accepted_lost : ¬ NothingLost ⟨retired, fun _ => .idle⟩ (stateAfter (bundleStep twoReports)
      [.party false .verified, .party true .verified, .party false .verified, .party true .verified]
      ⟨retired, fun _ => .idle⟩) := by
  intro kept
  have held := kept.accepted false engineerReport rfl
  revert held
  decide

/-- One after the other. -/
theorem both_held : NothingLost ⟨retired, fun _ => .idle⟩ (stateAfter (bundleStep twoReports)
      [.party false .verified, .party false .verified, .party true .verified, .party true .verified]
      ⟨retired, fun _ => .idle⟩) :=
  nothing_lost twoReports retired
    [.party false .verified, .party false .verified, .party true .verified, .party true .verified]
    ⟨rfl, by decide⟩ (by
      intro step member
      rcases List.mem_cons.mp member with rfl | member
      · exact fun _ => trivial
      rcases List.mem_cons.mp member with rfl | member
      · exact fun _ => ⟨.refl _, by decide⟩
      rcases List.mem_cons.mp member with rfl | member
      · exact fun _ => trivial
      rcases List.mem_cons.mp member with rfl | member
      · exact fun _ => ⟨.refl _, by decide⟩
      · cases member)

end Advance.Tools.Change
