import Advance.Storage.ProjectionHealth

/-! # The completion proof of a reconciliation
-/

namespace Advance.Storage

open Advance.Types

structure ReconcileProofWhitelistEntry where
  changeId : String
  reason : String
  deriving DecidableEq

structure ProofScanSummary where
  divergences : List ProjectionDivergence
  divergenceCount : Nat
  scanned : Nat
  omitted : Nat
  truncated : Bool
  budgetExceeded : Bool
  scanError : Option String := none

inductive CompletionStatus where
  | complete
  | incomplete
  | error
  deriving DecidableEq

structure ReconcileCompletionProof where
  status : CompletionStatus
  complete : Bool
  before : ProofScanSummary
  after : ProofScanSummary
  beforeDivergenceCount : Nat
  afterDivergenceCount : Nat
  whitelistedDivergenceCount : Nat
  residualDivergences : List ProjectionDivergence
  documentedWhitelist : List ReconcileProofWhitelistEntry
  error : Option String := none

def emptySummary : ProofScanSummary := ⟨[], 0, 0, 0, false, false, none⟩

def toSummary (scan : ProjectionDivergenceScan) : ProofScanSummary where
  divergences := scan.divergences
  divergenceCount := scan.divergences.length
  scanned := scan.scanned
  omitted := scan.omitted
  truncated := scan.truncated
  budgetExceeded := scan.budgetExceeded

def isWhitelisted (whitelist : List ReconcileProofWhitelistEntry) (divergence : ProjectionDivergence) : Bool :=
  whitelist.any fun entry =>
    decide (entry.changeId = divergence.changeId) && divergence.reasons.contains entry.reason

def residual (whitelist : List ReconcileProofWhitelistEntry) (after : ProofScanSummary) : List ProjectionDivergence :=
  after.divergences.filter fun divergence => !isWhitelisted whitelist divergence

def failedProof (before after : ProofScanSummary) (whitelist : List ReconcileProofWhitelistEntry)
    (status : CompletionStatus) (error : String) : ReconcileCompletionProof where
  status := status
  complete := false
  before := before
  after := after
  beforeDivergenceCount := before.divergenceCount
  afterDivergenceCount := after.divergenceCount
  whitelistedDivergenceCount := after.divergenceCount - (residual whitelist after).length
  residualDivergences := residual whitelist after
  documentedWhitelist := whitelist
  error := some error

section

variable (runtime : Runtime) (paths : SummaryIndexPaths)

/-- The scan before a run is the supplied one, or one of the store as it is found first. -/
def beforeScan (supplied : Option ProjectionDivergenceScan) (store : StoreContent) :
    Except String ProjectionDivergenceScan :=
  match supplied with
  | some scan => .ok scan
  | none => findProjectionDivergences runtime paths store .unbounded

def computeReconcileCompletionProof (supplied : Option ProjectionDivergenceScan)
    (whitelist : List ReconcileProofWhitelistEntry) (storeBefore store : StoreContent) : ReconcileCompletionProof :=
  match beforeScan runtime paths supplied storeBefore with
  | .error error =>
    failedProof emptySummary { emptySummary with scanError := some error } whitelist .error
      s!"before proof scan failed: {error}"
  | .ok before =>
    match findProjectionDivergences runtime paths store .unbounded with
    | .error error =>
      failedProof (toSummary before) { emptySummary with scanError := some error } whitelist .error
        s!"after proof scan failed: {error}"
    | .ok scan =>
      let after := toSummary scan
      let residualDivergences := residual whitelist after
      if after.truncated || after.omitted != 0 || after.budgetExceeded then
        failedProof (toSummary before) after whitelist .incomplete
          "unbounded proof scan did not return an exhaustive result"
      else
        { status := if residualDivergences.isEmpty then .complete else .incomplete
          complete := residualDivergences.isEmpty
          before := toSummary before
          after := after
          beforeDivergenceCount := before.divergences.length
          afterDivergenceCount := after.divergenceCount
          whitelistedDivergenceCount := after.divergenceCount - residualDivergences.length
          residualDivergences := residualDivergences
          documentedWhitelist := whitelist }

/-! ## Soundness -/

def Excused (whitelist : List ReconcileProofWhitelistEntry) (changeId reason : String) : Prop :=
  (⟨changeId, reason⟩ : ReconcileProofWhitelistEntry) ∈ whitelist

def SoundOrExcused (whitelist : List ReconcileProofWhitelistEntry) (files : Files) (changeId : String) : Prop :=
  ChangeSound runtime paths files changeId ∨
    ∃ divergence, checkChange runtime paths files changeId = .ok (some divergence) ∧
      ∀ reason ∈ divergence.reasons, Excused whitelist changeId reason

/-- No divergence of the change is excused for some of its reasons only, and without a divergence
    its envelope is not ahead of it. -/
structure Unswallowed (whitelist : List ReconcileProofWhitelistEntry) (files : Files) (changeId : String) : Prop where
  wholly : ∀ divergence, checkChange runtime paths files changeId = .ok (some divergence) →
    (∃ reason ∈ divergence.reasons, Excused whitelist changeId reason) →
      ∀ reason ∈ divergence.reasons, Excused whitelist changeId reason
  notAhead : checkChange runtime paths files changeId = .ok none → ¬LegacyAhead runtime paths files changeId

/-- What keeps a proof from being complete: a scan that throws, or a divergence without any
    whitelisted reason. -/
def Withheld (supplied : Option ProjectionDivergenceScan) (whitelist : List ReconcileProofWhitelistEntry)
    (storeBefore store : StoreContent) : Prop :=
  (∃ error, beforeScan runtime paths supplied storeBefore = .error error) ∨ ∃ changeId ∈ store.listChangeDirs,
      (∃ error, checkChange runtime paths store.files changeId = .error error) ∨
      ∃ divergence, checkChange runtime paths store.files changeId = .ok (some divergence) ∧
        ∀ reason ∈ divergence.reasons, ¬Excused whitelist changeId reason

variable {runtime paths} {supplied : Option ProjectionDivergenceScan} {whitelist : List ReconcileProofWhitelistEntry}
  {storeBefore store : StoreContent}

theorem isWhitelisted_iff {divergence : ProjectionDivergence} : isWhitelisted whitelist divergence = true ↔
      ∃ reason ∈ divergence.reasons, Excused whitelist divergence.changeId reason := by
  simp only [isWhitelisted, List.any_eq_true, Bool.and_eq_true, decide_eq_true_eq, List.contains_iff_mem]
  constructor
  · rintro ⟨⟨changeId, reason⟩, member, rfl, among⟩
    exact ⟨reason, among, member⟩
  · rintro ⟨reason, among, member⟩
    exact ⟨_, member, rfl, among⟩

theorem complete_iff :
    (computeReconcileCompletionProof runtime paths supplied whitelist storeBefore store).complete = true ↔
      ¬Withheld runtime paths supplied whitelist storeBefore store := by
  unfold computeReconcileCompletionProof
  cases first : beforeScan runtime paths supplied storeBefore with
  | error error =>
    have withheld : Withheld runtime paths supplied whitelist storeBefore store := .inl ⟨error, first⟩
    simp [failedProof, withheld]
  | ok before =>
    cases scanned : findProjectionDivergences runtime paths store .unbounded with
    | error error =>
      obtain ⟨changeId, member, thrown⟩ := unbounded_error scanned
      have withheld : Withheld runtime paths supplied whitelist storeBefore store :=
        .inr ⟨changeId, member, .inl thrown⟩
      simp [failedProof, withheld]
    | ok scan =>
      have exhaustive := unbounded_ok scanned
      simp only [toSummary, exhaustive.whole, exhaustive.none_omitted, exhaustive.inTime, bne_self_eq_false,
        Bool.or_self, Bool.false_eq_true, if_false, List.isEmpty_iff, residual, List.filter_eq_nil_iff,
        Bool.not_eq_true', Bool.not_eq_false]
      constructor
      · rintro covered (⟨error, thrown⟩ | ⟨changeId, member, ⟨error, thrown⟩ | ⟨divergence, found, uncovered⟩⟩)
        · cases first.symm.trans thrown
        · obtain ⟨found, checked⟩ := exhaustive.checked changeId member
          cases checked.symm.trans thrown
        · have reported := (exhaustive.reported divergence).mpr ⟨changeId, member, found⟩
          obtain ⟨reason, among, excused⟩ := isWhitelisted_iff.mp (covered divergence reported)
          rw [(checkChange_reasons found).1] at excused
          exact uncovered reason among excused
      · intro free divergence reported
        obtain ⟨changeId, member, found⟩ := (exhaustive.reported divergence).mp reported
        refine isWhitelisted_iff.mpr ?_
        rw [(checkChange_reasons found).1]
        by_contra uncovered
        refine free (.inr ⟨changeId, member, .inr ⟨divergence, found, fun reason among excused => ?_⟩⟩)
        exact uncovered ⟨reason, among, excused⟩

section

variable (free : ¬Withheld runtime paths supplied whitelist storeBefore store) {changeId : String}
  (listed : changeId ∈ store.listChangeDirs)
include free changeId listed

theorem found_of_complete : checkChange runtime paths store.files changeId = .ok none ∨
      ∃ divergence, checkChange runtime paths store.files changeId = .ok (some divergence) ∧
        ∃ reason ∈ divergence.reasons, Excused whitelist changeId reason := by
  cases checked : checkChange runtime paths store.files changeId with
  | error error => exact absurd (.inr ⟨changeId, listed, .inl ⟨error, checked⟩⟩) free
  | ok found =>
    cases found with
    | none => exact .inl rfl
    | some divergence =>
      refine .inr ⟨divergence, rfl, ?_⟩
      by_contra uncovered
      exact free (.inr ⟨changeId, listed, .inr ⟨divergence, checked, fun reason among excused =>
        uncovered ⟨reason, among, excused⟩⟩⟩)

theorem sound_iff_unswallowed : SoundOrExcused runtime paths whitelist store.files changeId ↔
      Unswallowed runtime paths whitelist store.files changeId := by
  constructor
  · rintro (sound | ⟨divergence, found, excused⟩)
    · refine ⟨fun divergence found _ => ?_, fun _ => sound.not_ahead⟩
      cases sound.unreported.symm.trans found
    · refine ⟨fun other same _ => ?_, fun without => ?_⟩
      · cases found.symm.trans same
        exact excused
      · cases found.symm.trans without
  · intro unswallowed
    rcases found_of_complete free listed with without | ⟨divergence, found, some⟩
    · exact .inl (sound_of_unreported without (unswallowed.notAhead without))
    · exact .inr ⟨divergence, found, unswallowed.wholly divergence found some⟩

end

end

/-- A complete proof has found every change of the store sound or excused exactly where something
    withholds it, or nothing is swallowed: neither by the listing, nor by one whitelisted reason
    among others, nor by an envelope that is ahead. -/
theorem completion_sound_iff (runtime : Runtime) (paths : SummaryIndexPaths)
    (supplied : Option ProjectionDivergenceScan) (whitelist : List ReconcileProofWhitelistEntry)
    (storeBefore store : StoreContent) :
    ((computeReconcileCompletionProof runtime paths supplied whitelist storeBefore store).complete = true →
        ∀ changeId ∈ store.changeDirs, SoundOrExcused runtime paths whitelist store.files changeId) ↔
      Withheld runtime paths supplied whitelist storeBefore store ∨
        if store.listable then ∀ changeId ∈ store.changeDirs, Unswallowed runtime paths whitelist store.files changeId
        else ∀ changeId ∈ store.changeDirs, SoundOrExcused runtime paths whitelist store.files changeId := by
  rw [complete_iff]
  by_cases withheld : Withheld runtime paths supplied whitelist storeBefore store
  · exact ⟨fun _ => .inl withheld, fun _ free => absurd withheld free⟩
  · simp only [withheld, not_false_eq_true, true_implies, false_or]
    split
    next listable =>
      have listed : store.listChangeDirs = store.changeDirs := if_pos listable
      refine forall₂_congr fun changeId member => sound_iff_unswallowed withheld ?_
      rw [listed]
      exact member
    · exact Iff.rfl

/-! ## Fixed runs -/

def rootPaths : SummaryIndexPaths := ⟨"root/changes", "root/summaries"⟩

def unindexedStore : StoreContent where
  changeEntries := [⟨"addSearch", true⟩]
  listable := true
  files path :=
    if path = "root/changes/addSearch/change.json" then .ofJson (bareChange "addSearch")
    else if path = "root/changes/addSearch.json" then .unreadable "EACCES"
    else .absent

def summaryExcused : List ReconcileProofWhitelistEntry :=
  [⟨"addSearch", "summary index degraded: missing current summary pointer"⟩]

def reasonsOf : Except String (Option ProjectionDivergence) → List String
  | .ok (some divergence) => divergence.reasons
  | _ => []

theorem unindexed_reasons : reasonsOf (checkChange .permissive rootPaths unindexedStore.files "addSearch") =
    ["legacy envelope unreadable", "summary index degraded: missing current summary pointer"] := by
  decide

/-- The proof is complete although the unreadable envelope is not on the whitelist. -/
theorem swallowed_reason : ¬((computeReconcileCompletionProof .permissive rootPaths none summaryExcused unindexedStore
        unindexedStore).complete = true →
      ∀ changeId ∈ unindexedStore.changeDirs,
        SoundOrExcused .permissive rootPaths summaryExcused unindexedStore.files changeId) := by
  intro sound
  have complete : (computeReconcileCompletionProof .permissive rootPaths none summaryExcused unindexedStore
      unindexedStore).complete = true := by rfl
  have reasons := unindexed_reasons
  rcases sound complete "addSearch" (by decide) with agrees | ⟨divergence, found, excused⟩
  · rw [agrees.unreported] at reasons
    cases reasons
  · rw [found] at reasons
    have member : "legacy envelope unreadable" ∈ divergence.reasons := by
      rw [show divergence.reasons = _ from reasons]
      exact List.mem_cons_self
    have excuses : ⟨"addSearch", "legacy envelope unreadable"⟩ ∈ summaryExcused := excused _ member
    exact absurd excuses (by decide)

end Advance.Storage
