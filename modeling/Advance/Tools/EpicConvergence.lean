import Advance.Tools.EpicEntries
import Advance.Types.ChangeStatus

/-! # Convergence of Epic membership

An Epic entry owns the membership of its child; the projection the child carries is derived and
can be rebuilt.  `convergeEpicMembership` compares the two and proposes at most one repair.
-/

namespace Advance.Tools

open Advance.JavaScript Advance.Types

/-! ## What is observed -/

/-- What the Epic paths read of a child; the times come through the passthrough of `ChangeSchema`. -/
structure ChildChange where
  id : String
  status : ChangeStatus
  epic_membership : Option EpicMembership
  archived_at : JsVal
  closed_at : JsVal
  updated_at : JsVal
  deriving DecidableEq

inductive ChildObservation where
  | present (change : ChildChange)
  | absent
  | unreachable

inductive ConvergenceStatus where
  | ok
  | stale
  | targetUnreachable
  | projectionMissing
  | conflict
  deriving DecidableEq

structure ConvergenceObservation where
  epic_entry_status : Option EpicMembershipStatus
  child_epic_membership : Option EpicMembership
  child_terminal : Option TerminalSummary

inductive ConvergenceRepairTarget where
  | epicEntry
  | child
  deriving DecidableEq

inductive ConvergenceRepair where
  | markEntryLinked
  | markEntryTerminal (terminal_summary : TerminalSummary)
  | syncChildProjection (expected_membership : EpicMembership)
  | clearChildProjection
  deriving DecidableEq

def ConvergenceRepair.target : ConvergenceRepair → ConvergenceRepairTarget
  | markEntryLinked | markEntryTerminal _ => .epicEntry
  | syncChildProjection _ | clearChildProjection => .child

structure EpicMembershipConvergenceInput where
  entry : EpicChangeEntry
  epic_id : String
  child : ChildObservation
  checkedAt : Option String

structure EpicMembershipConvergenceResult where
  status : ConvergenceStatus
  last_checked_at : String
  message : String
  observed : ConvergenceObservation
  repair : Option ConvergenceRepair

def terminalStatus : ChangeStatus → Option TerminalStatus
  | .draft => none
  | .archived => some .archived
  | .closed => some .closed

/-- `archived_at ?? closed_at ?? updated_at` -/
def ChildChange.completionTime (change : ChildChange) : JsVal :=
  change.archived_at.orElse (change.closed_at.orElse change.updated_at)

def childTerminal (change : ChildChange) (checkedAt : String) : Option TerminalSummary :=
  (terminalStatus change.status).map fun status =>
    { status
      completed_at := match change.completionTime.orElse (.str checkedAt) with
        | .str time => time
        | _ => checkedAt }

def observe (entry : EpicChangeEntry) (child : ChildObservation) (checkedAt : String) : ConvergenceObservation :=
  match child with
  | .present change =>
    ⟨entry.membership_status, change.epic_membership, childTerminal change checkedAt⟩
  | .absent | .unreachable => ⟨entry.membership_status, none, none⟩

/-! ## The classifier -/

def buildExpectedMembership (entry : EpicChangeEntry) (epicId linkedAt : String) : EpicMembership where
  epic_id := epicId
  entry_id := entry.entry_id
  order := entry.order
  title := entry.title.getD "Linked Change"
  linked_at := linkedAt
  epic_project_id := none
  repo_id := none
  source := none

def convergeAbsent (entry : EpicChangeEntry) : ConvergenceStatus × String :=
  match entry.membership_status with
  | some .linked | some .terminal =>
    (.conflict,
      "Epic entry claims linked/terminal membership but the child change cannot be found; resolve explicitly.")
  | some .unlinked => (.ok, "Child change absent and Epic entry is unlinked; consistent.")
  | _ => (.projectionMissing, "Child change not found; Epic membership cannot be verified or rebuilt.")

def convergePresent (entry : EpicChangeEntry) (epic_id checkedAt : String)
    (childMembership : Option EpicMembership) (childTerminal : Option TerminalSummary) :
    ConvergenceStatus × String × Option ConvergenceRepair :=
  let status := entry.membership_status
  if status = some .unlinked then
    -- Only the entry id is compared here, not the Epic.
    if childMembership.any (·.entry_id = entry.entry_id) then
      (.conflict, "Epic entry is unlinked but child still carries a projection; clear child or relink explicitly.",
        some .clearChildProjection)
    else
      (.ok, "Epic entry is unlinked and child has no matching projection; consistent.", none)
  else if childTerminal.isSome && status ≠ some .terminal && childMembership.any (·.entry_id = entry.entry_id) then
    (.stale, "Child is terminal but Epic entry has not adopted terminal status; backfill available.",
      childTerminal.map .markEntryTerminal)
  else if childMembership.any fun m => m.entry_id = entry.entry_id && m.epic_id = epic_id then
    if status = some .linked then
      (.ok, "Child projection is linked.", none)
    else if status = some .terminal && childTerminal.isSome then
      (.ok, "Child projection is terminal and matches Epic entry.", none)
    else
      (.stale, "Child projection matches Epic entry but entry status is stale; mark entry linked.",
        some .markEntryLinked)
  else if childMembership.any fun m => m.entry_id ≠ entry.entry_id || m.epic_id ≠ epic_id then
    (.conflict, "Child projection references a different Epic entry or Epic; refusing to overwrite child membership.",
      none)
  else if childMembership.isNone &&
      (status = some .linked || status = some .terminal || status = some .projectionPending ||
        status = some .projectionStale || status = some .targetUnreachable) then
    (.projectionMissing, "Child is present but epic_membership projection is absent; rebuild from Epic entry.",
      some (.syncChildProjection (buildExpectedMembership entry epic_id (entry.linked_at.getD checkedAt))))
  else
    (.conflict, "Epic membership state could not be classified automatically; resolve explicitly.", none)

def convergeEpicMembership (input : EpicMembershipConvergenceInput) (now : String) :
    EpicMembershipConvergenceResult :=
  let checkedAt := input.checkedAt.getD now
  let observed := observe input.entry input.child checkedAt
  match input.child with
  | .unreachable =>
    { status := .targetUnreachable, last_checked_at := checkedAt
      message := "Target project is unreachable; convergence deferred until next access."
      observed, repair := none }
  | .absent =>
    let (status, message) := convergeAbsent input.entry
    { status, last_checked_at := checkedAt, message, observed, repair := none }
  | .present _ =>
    let (status, message, repair) := convergePresent input.entry input.epic_id checkedAt
      observed.child_epic_membership observed.child_terminal
    { status, last_checked_at := checkedAt, message, observed, repair }

/-! ## Applying repairs -/

structure LinkedPair where
  entry : EpicChangeEntry
  change : ChildChange

/-- Writes what the repair names to its target. -/
def ConvergenceRepair.apply : ConvergenceRepair → LinkedPair → LinkedPair
  | markEntryLinked, pair =>
    { pair with entry := { pair.entry with membership_status := some .linked } }
  | markEntryTerminal summary, pair =>
    { pair with
      entry := { pair.entry with membership_status := some .terminal, terminal_summary := some summary } }
  | syncChildProjection expected, pair =>
    { pair with change := { pair.change with epic_membership := some expected } }
  | clearChildProjection, pair =>
    { pair with change := { pair.change with epic_membership := none } }

/-- One evaluation of a pair; each reads the clock anew. -/
def LinkedPair.converge (pair : LinkedPair) (epicId now : String) : EpicMembershipConvergenceResult :=
  convergeEpicMembership ⟨pair.entry, epicId, .present pair.change, none⟩ now

def LinkedPair.round (pair : LinkedPair) (epicId now : String) : LinkedPair :=
  match (pair.converge epicId now).repair with
  | some repair => repair.apply pair
  | none => pair

def after (epicId : String) (clock : Nat → String) (start : LinkedPair) : Nat → LinkedPair
  | 0 => start
  | n + 1 => (after epicId clock start n).round epicId (clock n)

namespace LinkedPair

variable {pair : LinkedPair} {epicId now : String}

def Own (pair : LinkedPair) (epicId : String) (membership : EpicMembership) : Prop :=
  membership.entry_id = pair.entry.entry_id ∧ membership.epic_id = epicId

def childFinished (pair : LinkedPair) : Bool := (terminalStatus pair.change.status).isSome

@[simp] theorem childTerminal_isSome (change : ChildChange) (checkedAt : String) :
    (childTerminal change checkedAt).isSome = (terminalStatus change.status).isSome := by
  simp [childTerminal]

theorem converge_repair_eq : (pair.converge epicId now).repair =
    (convergePresent pair.entry epicId now pair.change.epic_membership (childTerminal pair.change now)).2.2 := by
  simp [converge, convergeEpicMembership, observe]

/-! ## The repair that is proposed -/

inductive Proposed (pair : LinkedPair) (epicId : String) : ConvergenceRepair → Prop where
  | clear {membership : EpicMembership} (unlinked : pair.entry.membership_status = some .unlinked)
      (carried : pair.change.epic_membership = some membership)
      (same_entry : membership.entry_id = pair.entry.entry_id) : Proposed pair epicId .clearChildProjection
  | terminal {membership : EpicMembership} (summary : TerminalSummary)
      (not_unlinked : pair.entry.membership_status ≠ some .unlinked)
      (not_terminal : pair.entry.membership_status ≠ some .terminal)
      (finished : pair.childFinished) (carried : pair.change.epic_membership = some membership)
      (same_entry : membership.entry_id = pair.entry.entry_id) :
      Proposed pair epicId (.markEntryTerminal summary)
  | linked {membership : EpicMembership} (not_unlinked : pair.entry.membership_status ≠ some .unlinked)
      (unfinished : pair.childFinished = false) (carried : pair.change.epic_membership = some membership)
      (own : pair.Own epicId membership) : Proposed pair epicId .markEntryLinked
  | sync (linkedAt : String) (not_unlinked : pair.entry.membership_status ≠ some .unlinked)
      (absent : pair.change.epic_membership = none) :
      Proposed pair epicId (.syncChildProjection (buildExpectedMembership pair.entry epicId linkedAt))

variable {repair : ConvergenceRepair}

theorem proposed_of_repair
    (repairs : (pair.converge epicId now).repair = some repair) : Proposed pair epicId repair := by
  rw [converge_repair_eq] at repairs
  unfold convergePresent at repairs
  dsimp only at repairs
  split at repairs
  next unlinked =>
    split at repairs
    next carries =>
      obtain ⟨membership, carried, same⟩ := Option.any_eq_true .. |>.mp carries
      cases repairs
      exact .clear unlinked carried (of_decide_eq_true same)
    next => cases repairs
  next not_unlinked =>
    split at repairs
    next backfill =>
      simp only [childTerminal_isSome, Bool.and_eq_true, decide_eq_true_eq, Option.any_eq_true] at backfill
      obtain ⟨⟨finished, not_terminal⟩, membership, carried, same⟩ := backfill
      simp only [Option.map_eq_some_iff] at repairs
      obtain ⟨summary, -, rfl⟩ := repairs
      exact .terminal summary not_unlinked not_terminal finished carried same
    next no_backfill =>
      split at repairs
      next matching =>
        simp only [Option.any_eq_true, Bool.and_eq_true, decide_eq_true_eq] at matching
        obtain ⟨membership, carried, own⟩ := matching
        split at repairs
        next => cases repairs
        next =>
          split at repairs
          next => cases repairs
          next not_both =>
            cases repairs
            refine .linked not_unlinked ?_ carried own
            -- a finished child would have been backfilled, or the entry is terminal already
            by_cases terminal : pair.entry.membership_status = some .terminal
            · simpa [terminal, childFinished] using not_both
            · simpa [terminal, carried, own.1, childFinished] using no_backfill
      next =>
        split at repairs
        next => cases repairs
        next =>
          split at repairs
          next rebuild =>
            cases repairs
            simp only [Bool.and_eq_true, Option.isNone_iff_eq_none] at rebuild
            exact .sync _ not_unlinked rebuild.1
          next => cases repairs

/-! ## Settling -/

theorem round_of_repair
    (repairs : (pair.converge epicId now).repair = some repair) : pair.round epicId now = repair.apply pair := by
  simp [round, repairs]

theorem settled_of_applied (proposed : Proposed pair epicId repair)
    (not_sync : ∀ expected, repair ≠ .syncChildProjection expected) (later : String) :
    ((repair.apply pair).converge epicId later).repair = none := by
  rw [converge_repair_eq]
  cases proposed with
  | clear unlinked carried same => simp [ConvergenceRepair.apply, convergePresent, unlinked]
  | @terminal membership summary _ _ finished carried same =>
    have finished : (terminalStatus pair.change.status).isSome := finished
    by_cases own_epic : membership.epic_id = epicId <;>
      simp [ConvergenceRepair.apply, convergePresent, carried, same, own_epic, finished]
  | linked _ unfinished carried own =>
    have unfinished : (terminalStatus pair.change.status).isSome = false := unfinished
    simp [ConvergenceRepair.apply, convergePresent, carried, own.1, own.2, unfinished]
  | sync linkedAt _ _ => exact absurd rfl (not_sync _)

end LinkedPair

open LinkedPair

theorem settles_within_two (epicId : String) (clock : Nat → String) (start : LinkedPair) :
    ∃ n ≤ 2, ((after epicId clock start n).converge epicId (clock n)).repair = none := by
  cases first : (start.converge epicId (clock 0)).repair with
  | none => exact ⟨0, by omega, first⟩
  | some repair =>
    have once : after epicId clock start 1 = repair.apply start := round_of_repair first
    cases proposed : proposed_of_repair first with
    | clear => exact ⟨1, by omega, once ▸ settled_of_applied (proposed_of_repair first) (by simp) _⟩
    | terminal => exact ⟨1, by omega, once ▸ settled_of_applied (proposed_of_repair first) (by simp) _⟩
    | linked => exact ⟨1, by omega, once ▸ settled_of_applied (proposed_of_repair first) (by simp) _⟩
    | sync linkedAt not_unlinked absent =>
      -- The projection now exists, so only the entry can be left to mark.
      cases second : ((after epicId clock start 1).converge epicId (clock 1)).repair with
      | none => exact ⟨1, by omega, second⟩
      | some next =>
        have twice : after epicId clock start 2 = next.apply (after epicId clock start 1) :=
          round_of_repair second
        refine ⟨2, le_rfl, twice ▸ settled_of_applied (proposed_of_repair second) ?_ _⟩
        rintro expected rfl
        cases proposed_of_repair second with
        | sync _ _ absent => simp [once, ConvergenceRepair.apply] at absent

/-! ## Staying on its own side -/

/-- A membership of another Epic under the same entry id is left alone, and a terminal entry has a
    finished child unless the child belongs elsewhere. -/
structure RepairSafe (pair : LinkedPair) (epicId : String) : Prop where
  foreign : ∀ membership, pair.change.epic_membership = some membership →
    membership.entry_id = pair.entry.entry_id → membership.epic_id ≠ epicId →
      pair.entry.membership_status ≠ some .unlinked ∧
        (pair.childFinished → pair.entry.membership_status = some .terminal)
  reopened : pair.entry.membership_status = some .terminal → pair.childFinished ∨
    ∃ membership, pair.change.epic_membership = some membership ∧ ¬ pair.Own epicId membership

/-- A whole run of repairs settles and neither touches a membership of another entry, nor takes the
    end of a foreign child for its own, nor reopens a terminal entry. -/
structure ConvergesSafely (epicId : String) (clock : Nat → String) (start : LinkedPair) : Prop where
  settles : ∃ n ≤ 2, ((after epicId clock start n).converge epicId (clock n)).repair = none
  keeps_foreign : ∀ n membership, (after epicId clock start n).change.epic_membership = some membership →
    ¬ (after epicId clock start n).Own epicId membership →
      (after epicId clock start (n + 1)).change.epic_membership = some membership
  marks_own : ∀ n summary membership,
    ((after epicId clock start n).converge epicId (clock n)).repair = some (.markEntryTerminal summary) →
      (after epicId clock start n).change.epic_membership = some membership → membership.epic_id = epicId
  stays_terminal : ∀ n later, n ≤ later → (after epicId clock start n).entry.membership_status = some .terminal →
      (after epicId clock start later).entry.membership_status ≠ some .linked

namespace RepairSafe

variable {pair : LinkedPair} {epicId now : String}

variable {membership : EpicMembership}

theorem own_of_proposed (safe : RepairSafe pair epicId) {repair : ConvergenceRepair}
    (proposed : Proposed pair epicId repair)
    (carried : pair.change.epic_membership = some membership) : pair.Own epicId membership := by
  cases proposed with
  | clear unlinked carried' same =>
    cases carried.symm.trans carried'
    exact ⟨same, by_contra fun other => (safe.foreign _ carried same other).1 unlinked⟩
  | terminal _ _ not_terminal finished carried' same =>
    cases carried.symm.trans carried'
    exact ⟨same, by_contra fun other => not_terminal ((safe.foreign _ carried same other).2 finished)⟩
  | linked _ _ carried' own =>
    cases carried.symm.trans carried'
    exact own
  | sync _ _ absent => cases carried.symm.trans absent

theorem round (safe : RepairSafe pair epicId) : RepairSafe (pair.round epicId now) epicId := by
  cases repairs : (pair.converge epicId now).repair with
  | none => simpa [LinkedPair.round, repairs] using safe
  | some repair =>
    rw [round_of_repair repairs]
    have proposed := proposed_of_repair repairs
    have own := fun m => @own_of_proposed _ _ m safe _ proposed
    cases proposed with
    | clear unlinked _ _ =>
      exact ⟨by simp [ConvergenceRepair.apply], by simp [ConvergenceRepair.apply, unlinked]⟩
    | terminal _ _ _ finished carried _ =>
      refine ⟨fun m carried' _ other => absurd (own m carried').2 other, fun _ => .inl finished⟩
    | linked _ _ carried _ =>
      refine ⟨fun m carried' _ other => absurd (own m carried').2 other, ?_⟩
      simp [ConvergenceRepair.apply]
    | sync linkedAt _ absent =>
      refine ⟨fun m carried _ other => ?_, fun terminal => ?_⟩
      · cases carried
        exact absurd rfl other
      · rcases safe.reopened terminal with finished | ⟨m, carried, -⟩
        · exact .inl finished
        · cases absent.symm.trans carried

theorem after {start : LinkedPair} (safe : RepairSafe start epicId) (clock : Nat → String) :
    ∀ n, RepairSafe (after epicId clock start n) epicId
  | 0 => safe
  | n + 1 => (safe.after clock n).round

theorem keeps_foreign (safe : RepairSafe pair epicId)
    (carried : pair.change.epic_membership = some membership) (foreign : ¬ pair.Own epicId membership) :
    (pair.round epicId now).change.epic_membership = some membership := by
  cases repairs : (pair.converge epicId now).repair with
  | none => simpa [LinkedPair.round, repairs] using carried
  | some repair => exact absurd (safe.own_of_proposed (proposed_of_repair repairs) carried) foreign

theorem stays_terminal (safe : RepairSafe pair epicId) (terminal : pair.entry.membership_status = some .terminal) :
    (pair.round epicId now).entry.membership_status = some .terminal := by
  cases repairs : (pair.converge epicId now).repair with
  | none => simpa [LinkedPair.round, repairs] using terminal
  | some repair =>
    rw [round_of_repair repairs]
    cases proposed_of_repair repairs with
    | clear unlinked _ _ => cases unlinked.symm.trans terminal
    | terminal _ _ _ _ _ _ => rfl
    | linked _ unfinished carried own =>
      rcases safe.reopened terminal with finished | ⟨m, carried', foreign⟩
      · simp [unfinished] at finished
      · cases carried.symm.trans carried'
        exact absurd own foreign
    | sync _ _ _ => exact terminal

theorem convergesSafely {start : LinkedPair} (safe : RepairSafe start epicId) (clock : Nat → String) :
    ConvergesSafely epicId clock start where
  settles := settles_within_two epicId clock start
  keeps_foreign n _ carried foreign := (safe.after clock n).keeps_foreign carried foreign
  marks_own n _ _ repairs carried :=
    ((safe.after clock n).own_of_proposed (proposed_of_repair repairs) carried).2
  stays_terminal n later le terminal := by
    have stays : (Tools.after epicId clock start later).entry.membership_status = some .terminal := by
      induction later, le using Nat.le_induction with
      | base => exact terminal
      | succ m _ ih => exact (safe.after clock m).stays_terminal ih
    simp [stays]

end RepairSafe

namespace ConvergesSafely

variable {epicId : String} {clock : Nat → String} {start : LinkedPair}

theorem foreign (safely : ConvergesSafely epicId clock start) {membership : EpicMembership}
    (carried : start.change.epic_membership = some membership)
    (same : membership.entry_id = start.entry.entry_id) (other : membership.epic_id ≠ epicId) :
    start.entry.membership_status ≠ some .unlinked ∧
      (start.childFinished → start.entry.membership_status = some .terminal) := by
  have not_unlinked : start.entry.membership_status ≠ some .unlinked := by
    intro unlinked
    have clears : (start.converge epicId (clock 0)).repair = some .clearChildProjection := by
      simp [converge_repair_eq, convergePresent, unlinked, carried, same]
    have kept := safely.keeps_foreign 0 membership carried fun own => other own.2
    simp [Tools.after, round_of_repair clears, ConvergenceRepair.apply] at kept
  refine ⟨not_unlinked, fun finished => by_contra fun not_terminal => ?_⟩
  have finished : (childTerminal start.change (clock 0)).isSome := by simpa [childFinished] using finished
  obtain ⟨summary, terminal⟩ := Option.isSome_iff_exists.mp finished
  have marks : (start.converge epicId (clock 0)).repair = some (.markEntryTerminal summary) := by
    simp [converge_repair_eq, convergePresent, not_unlinked, not_terminal, carried, same, terminal]
  exact other (safely.marks_own 0 summary membership marks carried)

theorem reopened (safely : ConvergesSafely epicId clock start)
    (terminal : start.entry.membership_status = some .terminal) : start.childFinished ∨
      ∃ membership, start.change.epic_membership = some membership ∧ ¬ start.Own epicId membership := by
  by_contra none_of_these
  push Not at none_of_these
  obtain ⟨unfinished, all_own⟩ := none_of_these
  have unfinished : terminalStatus start.change.status = none := by simpa [childFinished] using unfinished
  cases carried : start.change.epic_membership with
  | some membership =>
    obtain ⟨same, own⟩ := all_own membership carried
    have marks : (start.converge epicId (clock 0)).repair = some .markEntryLinked := by
      simp [converge_repair_eq, convergePresent, terminal, carried, same, own, childTerminal, unfinished]
    have linked : (Tools.after epicId clock start 1).entry.membership_status = some .linked := by
      simp [Tools.after, round_of_repair marks, ConvergenceRepair.apply]
    exact safely.stays_terminal 0 1 (by omega) terminal linked
  | none =>
    have rebuilds : (start.converge epicId (clock 0)).repair = some (.syncChildProjection
        (buildExpectedMembership start.entry epicId (start.entry.linked_at.getD (clock 0)))) := by
      simp [converge_repair_eq, convergePresent, terminal, carried]
    have marks : ((Tools.after epicId clock start 1).converge epicId (clock 1)).repair = some .markEntryLinked := by
      simp [converge_repair_eq, convergePresent, Tools.after, round_of_repair rebuilds, ConvergenceRepair.apply,
        buildExpectedMembership, terminal, childTerminal, unfinished]
    have linked : (Tools.after epicId clock start 2).entry.membership_status = some .linked := by
      rw [Tools.after, round_of_repair marks]
      rfl
    exact safely.stays_terminal 0 2 (by omega) terminal linked

end ConvergesSafely

/-- The runs that converge and stay on their own side are those from a safe pair. -/
theorem convergesSafely_iff (epicId : String) (clock : Nat → String) (start : LinkedPair) :
    ConvergesSafely epicId clock start ↔ RepairSafe start epicId :=
  ⟨fun safely => ⟨fun _ => safely.foreign, safely.reopened⟩, fun safe => safe.convergesSafely clock⟩

/-! ## Fixed runs -/

def unlinkedHere : LinkedPair where
  entry :=
    { entry_id := "entry-1", order := 0, change_id := some "change-A", change_ref := none
      title := some "Test change", membership_status := some .unlinked, linked_at := none, linked_by := none
      link_evidence := none, promotion := none, terminal_summary := none, retargeted_from_change_id := none
      retargeted_at := none, retargeted_by := none, retarget_evidence := none }
  change :=
    { id := "change-A", status := .draft
      epic_membership := some
        { epic_id := "other-epic", entry_id := "entry-1", order := 0, title := "Other"
          linked_at := "2026-07-01T00:00:00.000Z", epic_project_id := none, repo_id := none, source := none }
      archived_at := .undefined, closed_at := .undefined, updated_at := .undefined }

/-- The membership of the other Epic is cleared. -/
theorem foreign_membership_cleared :
    ¬ ConvergesSafely "epic-X" (fun _ => "2026-07-02T00:00:00.000Z") unlinkedHere := by
  intro safely
  obtain ⟨membership, carried⟩ : ∃ m, unlinkedHere.change.epic_membership = some m := ⟨_, rfl⟩
  have kept := safely.keeps_foreign 0 membership carried (by cases carried; simp [LinkedPair.Own])
  simp [Tools.after, LinkedPair.round, converge_repair_eq, convergePresent, unlinkedHere,
    ConvergenceRepair.apply] at kept

end Advance.Tools
