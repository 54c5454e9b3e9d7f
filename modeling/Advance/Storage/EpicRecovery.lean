import Advance.Foundation.KeyedList
import Advance.Storage.EpicsDisk
import Advance.Storage.StoreDisk
import Advance.Tools.EpicConvergence

/-! # Rebuilding an Epic from its children

When the projection of an Epic is lost, the memberships its children still carry are put
together into a new one.
-/

namespace Advance.Storage

open Advance.Foundation Advance.JavaScript Advance.Tools Advance.Types Advance.Utils

/-! ## Fragments -/

structure EpicRecoveryFragment where
  change : ChildChange
  membership : EpicMembership
  deriving DecidableEq

structure EpicReconstructionProvenance where
  reconstructed : Bool
  source : String
  timestamp : String
  run_id : String
  gap_flags : List String
  deriving DecidableEq

structure ReconstructedEpic extends Epic where
  reconstruction : EpicReconstructionProvenance
  deriving DecidableEq

/-- What the language and the schema library answer. -/
structure RecoveryRuntime where
  localeCompare : String → String → Ordering
  isDatetime : String → Bool
  schemaMessage : ReconstructedEpic → String

def fragmentSource : String := "child_epic_membership_fragments"

def gapFlags : List String :=
  ["narrative", "metadata", "epic_scope", "merged_into", "linked_by", "link_evidence", "terminal_summary"]

def blank (text : String) : Bool := (trim text.toList).isEmpty

def lacksEntryFields (membership : EpicMembership) : Bool :=
  blank membership.entry_id || blank membership.title || blank membership.linked_at ||
    membership.order.den ≠ 1 || membership.order < 0

/-- What the fragments of one entry are compared by. -/
abbrev Fingerprint := JsNumber × String × String

def fragmentFingerprint (membership : EpicMembership) : Fingerprint :=
  (membership.order, membership.title, membership.linked_at)

def failureAfter (seen : List (String × Fingerprint)) : List EpicRecoveryFragment → Option String
  | [] => none
  | fragment :: rest =>
    let membership := fragment.membership
    if lacksEntryFields membership then some "one or more child fragments lack recoverable entry fields"
    else
      match seen.lookup membership.entry_id with
      | some prior =>
        some (if prior = fragmentFingerprint membership then
          s!"duplicate surviving fragments for entry {membership.entry_id}"
        else s!"conflicting surviving fragments for entry {membership.entry_id}")
      | none => failureAfter ((membership.entry_id, fragmentFingerprint membership) :: seen) rest

def fragmentFailureReason (fragments : List EpicRecoveryFragment) : Option String :=
  if fragments.isEmpty then some "no surviving child membership fragments" else failureAfter [] fragments

/-! ## The entry of a fragment -/

def EpicRecoveryFragment.finished (fragment : EpicRecoveryFragment) : Bool :=
  (terminalStatus fragment.change.status).isSome

def recoveredSummary (change : ChildChange) : Option (Option TerminalSummary) :=
  match terminalStatus change.status with
  | none => some none
  | some status =>
    match change.completionTime with
    | .str completed_at => some (some { status, completed_at })
    | _ => none

def recoveredRef (fragment : EpicRecoveryFragment) : Option EpicChangeRef :=
  (fragment.membership.epic_project_id.filter (· ≠ "")).map fun project_id =>
    { change_id := fragment.change.id, project_id, repo_id := none, target_path := none }

def childEntry (fragment : EpicRecoveryFragment) : Option EpicChangeEntry :=
  (recoveredSummary fragment.change).map fun terminal_summary =>
    { entry_id := fragment.membership.entry_id
      order := fragment.membership.order
      change_id := some fragment.change.id
      change_ref := recoveredRef fragment
      title := some fragment.membership.title
      membership_status := some (if fragment.finished then .terminal else .linked)
      linked_at := some fragment.membership.linked_at
      linked_by := (recoveredRef fragment).map fun _ => "store-reconcile-recovery"
      link_evidence := (recoveredRef fragment).map fun _ => s!"reconstructed from {fragmentSource}"
      promotion := none
      terminal_summary
      retargeted_from_change_id := none
      retargeted_at := none
      retargeted_by := none
      retarget_evidence := none }

/-! ## The Epic -/

inductive EpicReconstruction where
  | ok (epic : ReconstructedEpic)
  | insufficient (reason : String)
  /-- The provenance does not parse; the call throws. -/
  | zodError
  deriving DecidableEq

section

variable (runtime : RecoveryRuntime)

/-- `left.order - right.order || left.entry_id.localeCompare(right.entry_id)` is not positive. -/
def fragmentBefore (left right : EpicRecoveryFragment) : Prop :=
  left.membership.order < right.membership.order ∨ (left.membership.order = right.membership.order ∧
      (runtime.localeCompare left.membership.entry_id right.membership.entry_id).isLE = true)

instance : DecidableRel (fragmentBefore runtime) :=
  fun left right => inferInstanceAs (Decidable (left.membership.order < right.membership.order ∨
    (left.membership.order = right.membership.order ∧
      (runtime.localeCompare left.membership.entry_id right.membership.entry_id).isLE = true)))

def sortedFragments (fragments : List EpicRecoveryFragment) : List EpicRecoveryFragment :=
  fragments.insertionSort (fragmentBefore runtime)

end

/-- `times.sort()` -/
def sortedTimes (times : List String) : List String :=
  times.insertionSort fun left right => textBefore right left = false

def recoveryProvenance (runId timestamp : String) : EpicReconstructionProvenance where
  reconstructed := true
  source := fragmentSource
  timestamp := timestamp
  run_id := runId
  gap_flags := gapFlags

/-- What `EpicReconstructionProvenanceSchema` accepts. -/
def provenanceValid (runtime : RecoveryRuntime) (provenance : EpicReconstructionProvenance) : Bool :=
  provenance.reconstructed && provenance.source ≠ "" && runtime.isDatetime provenance.timestamp &&
    provenance.run_id ≠ "" && provenance.gap_flags.all (· ≠ "") && !provenance.gap_flags.isEmpty

def reconstructionCandidate (epicId runId timestamp : String) (sorted : List EpicRecoveryFragment)
    (entries : List EpicChangeEntry) : ReconstructedEpic :=
  let completedEntries := (sorted.filter EpicRecoveryFragment.finished).length
  let linkedTimes := sorted.map fun fragment => fragment.membership.linked_at
  let updatedAt := (sortedTimes linkedTimes).getLast?.getD timestamp
  { id := epicId
    title := epicId
    narrative := ""
    epic_scope := none
    merged_into := none
    entries := entries.map .change
    progress :=
      { status := .active
        total_entries := entries.length
        completed_entries := completedEntries
        active_entries := entries.length - completedEntries
        next_entry_id :=
          (entries.find? fun entry => entry.membership_status ≠ some .terminal).map EpicChangeEntry.entry_id
        updated_at := updatedAt }
    created_at := (sortedTimes linkedTimes).head?.getD timestamp
    updated_at := updatedAt
    version := 0
    reconstruction := recoveryProvenance runId timestamp }

def buildReconstructedEpic (runtime : RecoveryRuntime) (epicId : String)
    (fragments : List EpicRecoveryFragment) (runId timestamp : String) : EpicReconstruction :=
  match fragmentFailureReason fragments with
  | some reason => .insufficient reason
  | none =>
    let sorted := sortedFragments runtime fragments
    if (sorted.map childEntry).any Option.isNone then
      .insufficient "one or more terminal child fragments lack a usable completion timestamp"
    else if !provenanceValid runtime (recoveryProvenance runId timestamp) then .zodError
    else
      let candidate := reconstructionCandidate epicId runId timestamp sorted (sorted.filterMap childEntry)
      if candidate.toEpic.valid then .ok candidate
      else .insufficient ("reconstructed owner failed EpicSchema validation: " ++ runtime.schemaMessage candidate)

/-! ## What a fragment gives -/

section

variable {runtime : RecoveryRuntime} {fragment : EpicRecoveryFragment} {entry : EpicChangeEntry}

/-- What the invariant reads of the entry of a fragment. -/
structure EntryOf (fragment : EpicRecoveryFragment) (entry : EpicChangeEntry) : Prop where
  entry_id : entry.entry_id = fragment.membership.entry_id
  order : entry.order = fragment.membership.order
  change_id : entryChangeId (.change entry) = some fragment.change.id
  summary : entry.terminal_summary.isSome = fragment.finished
  status : entry.membership_status = some .terminal ↔ fragment.finished

theorem recoveredSummary_isSome {change : ChildChange} {summary : Option TerminalSummary}
    (recovered : recoveredSummary change = some summary) :
    summary.isSome = (terminalStatus change.status).isSome := by
  unfold recoveredSummary at recovered
  split at recovered
  next unfinished =>
    obtain rfl := Option.some.inj recovered
    simp [unfinished]
  next status finished =>
    split at recovered
    next completed_at _ =>
      obtain rfl := Option.some.inj recovered
      simp [finished]
    next => cases recovered

theorem entryOf_of_childEntry (built : childEntry fragment = some entry) : EntryOf fragment entry := by
  obtain ⟨summary, recovered, rfl⟩ := Option.map_eq_some_iff.mp built
  exact
    { entry_id := rfl
      order := rfl
      change_id := rfl
      summary := recoveredSummary_isSome recovered
      status := by
        dsimp only
        split <;> simp_all }

end

theorem map_filterMap_of {α β γ : Type} {f : α → Option β} {onResult : β → γ} {onArgument : α → γ}
    {list : List α} (total : ∀ x ∈ list, (f x).isSome) (agree : ∀ x y, f x = some y → onResult y = onArgument x) :
    (list.filterMap f).map onResult = list.map onArgument := by
  induction list with
  | nil => rfl
  | cons x rest ih =>
    obtain ⟨y, result⟩ := Option.isSome_iff_exists.mp (total x (List.mem_cons_self ..))
    rw [List.filterMap_cons_some result, List.map_cons, List.map_cons, agree x y result,
      ih fun z member => total z (List.mem_cons_of_mem _ member)]

theorem filter_length_of_map {α β : Type} {p : α → Bool} {q : β → Bool} {left : List α} {right : List β}
    (agree : left.map p = right.map q) : (left.filter p).length = (right.filter q).length := by
  have counted := congrArg (List.countP id) agree
  rw [List.countP_map, List.countP_map] at counted
  simpa [List.countP_eq_length_filter] using counted

/-! ## The fragments that are accepted -/

theorem failureAfter_none {fragments : List EpicRecoveryFragment} {seen : List (String × Fingerprint)}
    (accepted : failureAfter seen fragments = none) :
    (fragments.map fun fragment => fragment.membership.entry_id).Nodup ∧
      ∀ fragment ∈ fragments, seen.lookup fragment.membership.entry_id = none := by
  induction fragments generalizing seen with
  | nil => simp
  | cons fragment rest ih =>
    unfold failureAfter at accepted
    dsimp only at accepted
    split at accepted
    next => cases accepted
    next =>
      split at accepted
      next => cases accepted
      next unseen =>
        obtain ⟨distinct, fresh⟩ := ih accepted
        -- the loop has recorded this entry id, so no later fragment has it
        have later : ∀ other ∈ rest, other.membership.entry_id ≠ fragment.membership.entry_id ∧
            seen.lookup other.membership.entry_id = none := by
          intro other member
          have unrecorded := fresh other member
          rw [List.lookup_cons] at unrecorded
          by_cases same : other.membership.entry_id = fragment.membership.entry_id
          · simp [same] at unrecorded
          · have differs : (other.membership.entry_id == fragment.membership.entry_id) = false := by simpa using same
            exact ⟨same, by simpa [differs] using unrecorded⟩
        refine ⟨?_, ?_⟩
        · rw [List.map_cons, List.nodup_cons]
          refine ⟨fun repeated => ?_, distinct⟩
          obtain ⟨other, member, same⟩ := List.mem_map.mp repeated
          exact (later other member).1 same
        · intro other member
          rcases List.mem_cons.mp member with rfl | member
          · exact unseen
          · exact (later other member).2

/-- What a returned Epic tells of the call. -/
structure Rebuilt (runtime : RecoveryRuntime) (fragments : List EpicRecoveryFragment)
    (epic : ReconstructedEpic) : Prop where
  nonempty : fragments ≠ []
  distinct : (fragments.map fun fragment => fragment.membership.entry_id).Nodup
  total : ∀ fragment ∈ sortedFragments runtime fragments, (childEntry fragment).isSome
  candidate : ∃ epicId runId timestamp, epic = reconstructionCandidate epicId runId timestamp
    (sortedFragments runtime fragments) ((sortedFragments runtime fragments).filterMap childEntry)

theorem rebuilt_of_ok {runtime : RecoveryRuntime} {epicId runId timestamp : String}
    {fragments : List EpicRecoveryFragment} {epic : ReconstructedEpic}
    (built : buildReconstructedEpic runtime epicId fragments runId timestamp = .ok epic) :
    Rebuilt runtime fragments epic := by
  unfold buildReconstructedEpic at built
  split at built
  next => cases built
  next accepted =>
    dsimp only at built
    split at built
    next => cases built
    next complete =>
      split at built
      next => cases built
      next =>
        split at built
        next =>
          unfold fragmentFailureReason at accepted
          split at accepted
          next => cases accepted
          next nonempty =>
            refine ⟨by simpa using nonempty, (failureAfter_none accepted).1, ?_, epicId, runId, timestamp,
              (EpicReconstruction.ok.inj built).symm⟩
            intro fragment member
            by_contra missing
            refine complete (List.any_eq_true.mpr ⟨childEntry fragment, List.mem_map_of_mem member, ?_⟩)
            simpa using missing
        next => cases built

/-! ## Order -/

theorem sortedFragments_perm (runtime : RecoveryRuntime) (fragments : List EpicRecoveryFragment) :
    (sortedFragments runtime fragments).Perm fragments :=
  List.perm_insertionSort _ fragments

theorem orderedInsert_byOrder (runtime : RecoveryRuntime) (fragment : EpicRecoveryFragment)
    {sorted : List EpicRecoveryFragment}
    (ordered : sorted.Pairwise fun left right => left.membership.order ≤ right.membership.order) :
    (sorted.orderedInsert (fragmentBefore runtime) fragment).Pairwise fun left right =>
      left.membership.order ≤ right.membership.order := by
  induction sorted with
  | nil => simp
  | cons first rest ih =>
    obtain ⟨least, ordered⟩ := List.pairwise_cons.mp ordered
    rw [List.orderedInsert_cons]
    split
    next before =>
      have leads : fragment.membership.order ≤ first.membership.order := by
        rcases before with less | ⟨same, -⟩
        · exact le_of_lt less
        · exact le_of_eq same
      refine List.pairwise_cons.mpr ⟨fun other member => ?_, List.pairwise_cons.mpr ⟨least, ordered⟩⟩
      rcases List.mem_cons.mp member with rfl | member
      · exact leads
      · exact le_trans leads (least other member)
    next not_before =>
      have follows : first.membership.order ≤ fragment.membership.order :=
        not_lt.mp fun less => not_before (.inl less)
      refine List.pairwise_cons.mpr ⟨fun other member => ?_, ih ordered⟩
      rcases (List.mem_orderedInsert _).mp member with rfl | member
      · exact follows
      · exact least other member

theorem sortedFragments_byOrder (runtime : RecoveryRuntime) (fragments : List EpicRecoveryFragment) :
    (sortedFragments runtime fragments).Pairwise fun left right =>
      left.membership.order ≤ right.membership.order := by
  induction fragments with
  | nil => exact List.Pairwise.nil
  | cons fragment rest ih => exact orderedInsert_byOrder runtime fragment ih

/-! ## The invariant of the mutations -/

/-- What the mutations of an Epic keep, and that the children are all in it. -/
structure MutatorInvariant (epic : Epic) (fragments : List EpicRecoveryFragment) : Prop where
  entryIds : (epic.entries.map EpicEntry.entry_id).Nodup
  changeIds : KeyedApart entryChangeId epic.entries
  ordered : epic.entries.Pairwise orderBefore
  represented : ∀ fragment ∈ fragments, ∃ entry,
    epic.entries.filter (fun entry => entryChangeId entry = some fragment.change.id) = [entry] ∧
      entry.entry_id = fragment.membership.entry_id
  progress : ∀ stamps, (recomputeProgress stamps epic).progress = { epic.progress with updated_at := stamps.progress }

namespace Rebuilt

variable {runtime : RecoveryRuntime} {fragments : List EpicRecoveryFragment} {epic : ReconstructedEpic}

section

variable (rebuilt : Rebuilt runtime fragments epic)
include rebuilt

theorem entries_eq : epic.entries = ((sortedFragments runtime fragments).filterMap childEntry).map .change := by
  obtain ⟨epicId, runId, timestamp, rfl⟩ := rebuilt.candidate
  rfl

theorem map_entries {γ : Type} {onEntry : EpicEntry → γ} {onFragment : EpicRecoveryFragment → γ}
    (agree : ∀ fragment entry, EntryOf fragment entry → onEntry (.change entry) = onFragment fragment) :
    epic.entries.map onEntry = (sortedFragments runtime fragments).map onFragment := by
  rw [rebuilt.entries_eq, List.map_map]
  exact map_filterMap_of rebuilt.total fun fragment entry built => agree _ _ (entryOf_of_childEntry built)

theorem entryIds : (epic.entries.map EpicEntry.entry_id).Nodup := by
  rw [rebuilt.map_entries fun _ _ entryOf => entryOf.entry_id]
  exact ((sortedFragments_perm runtime fragments).map _).nodup_iff.mpr rebuilt.distinct

theorem ordered : epic.entries.Pairwise orderBefore := by
  have orders : epic.entries.map EpicEntry.order =
      (sortedFragments runtime fragments).map fun fragment => fragment.membership.order :=
    rebuilt.map_entries fun _ _ entryOf => entryOf.order
  have sorted : (epic.entries.map EpicEntry.order).Pairwise (· ≤ ·) :=
    orders ▸ List.pairwise_map.mpr (sortedFragments_byOrder runtime fragments)
  exact (List.pairwise_map (f := EpicEntry.order)).mp sorted

theorem changeIds_perm :
    (epic.entries.filterMap entryChangeId).Perm (fragments.map fun fragment => fragment.change.id) := by
  have ids : epic.entries.map entryChangeId =
      (sortedFragments runtime fragments).map fun fragment => some fragment.change.id :=
    rebuilt.map_entries fun _ _ entryOf => entryOf.change_id
  have named : epic.entries.filterMap entryChangeId =
      (sortedFragments runtime fragments).map fun fragment => fragment.change.id := by
    have through := congrArg (List.filterMap id) ids
    simpa [List.filterMap_map] using through
  exact named ▸ (sortedFragments_perm runtime fragments).map _

theorem keyedApart_iff :
    KeyedApart entryChangeId epic.entries ↔ (fragments.map fun fragment => fragment.change.id).Nodup :=
  rebuilt.changeIds_perm.nodup_iff

theorem represented (distinct : (fragments.map fun fragment => fragment.change.id).Nodup)
    {fragment : EpicRecoveryFragment} (member : fragment ∈ fragments) :
    ∃ entry, epic.entries.filter (fun entry => entryChangeId entry = some fragment.change.id) = [entry] ∧
      entry.entry_id = fragment.membership.entry_id := by
  have sorted := (sortedFragments_perm runtime fragments).mem_iff.mpr member
  obtain ⟨entry, built⟩ := Option.isSome_iff_exists.mp (rebuilt.total fragment sorted)
  have entryOf := entryOf_of_childEntry built
  have held : .change entry ∈ epic.entries := by
    rw [rebuilt.entries_eq]
    exact List.mem_map_of_mem (List.mem_filterMap.mpr ⟨fragment, sorted, built⟩)
  exact ⟨.change entry, (rebuilt.keyedApart_iff.mpr distinct).filter_eq held entryOf.change_id, entryOf.entry_id⟩

end

/-! ## Progress -/

section

variable (rebuilt : Rebuilt runtime fragments epic)
include rebuilt

theorem unmerged : epic.merged_into = none ∧ epic.progress.status = .active := by
  obtain ⟨epicId, runId, timestamp, rfl⟩ := rebuilt.candidate
  exact ⟨rfl, rfl⟩

theorem completed_eq : (epic.entries.filter EpicEntry.terminal).length =
      ((sortedFragments runtime fragments).filter EpicRecoveryFragment.finished).length :=
  filter_length_of_map (rebuilt.map_entries fun _ _ entryOf => entryOf.summary)

theorem active_eq : (epic.entries.filter EpicEntry.inFlight).length =
      epic.entries.length - (epic.entries.filter EpicEntry.terminal).length := by
  have others : epic.entries.filter EpicEntry.inFlight =
      epic.entries.filter fun entry => !EpicEntry.terminal entry := by
    rw [rebuilt.entries_eq]
    refine List.filter_congr fun entry member => ?_
    obtain ⟨change, -, rfl⟩ := List.mem_map.mp member
    simp [EpicEntry.inFlight, EpicEntry.terminal]
  have split := List.length_eq_length_filter_add EpicEntry.terminal (l := epic.entries)
  rw [others, split]
  omega

theorem next_eq : localNextEntryId epic.entries = epic.progress.next_entry_id := by
  obtain ⟨epicId, runId, timestamp, candidate⟩ := rebuilt.candidate
  have sorted : epic.entries.insertionSort orderBefore = epic.entries := rebuilt.ordered.insertionSort_eq
  unfold localNextEntryId
  rw [sorted, rebuilt.entries_eq, List.find?_map, candidate]
  simp only [reconstructionCandidate, ← List.head?_filter, Option.map_map]
  -- an entry is marked terminal exactly when it carries a summary
  have same : ∀ entry ∈ (sortedFragments runtime fragments).filterMap childEntry,
      entry.terminal_summary.isNone = decide (entry.membership_status ≠ some .terminal) := by
    intro entry member
    obtain ⟨fragment, -, built⟩ := List.mem_filterMap.mp member
    have entryOf := entryOf_of_childEntry built
    rw [← Option.not_isSome, entryOf.summary]
    cases finished : fragment.finished <;> simp [entryOf.status, finished]
  exact congrArg (fun kept => (List.head? kept).map EpicChangeEntry.entry_id) (List.filter_congr same)

theorem recomputed (stamps : Stamps) : (recomputeProgress stamps epic.toEpic).progress =
      { epic.progress with
        status := if ∀ fragment ∈ fragments, fragment.finished then .completed else .active
        updated_at := stamps.progress } := by
  obtain ⟨unmerged, active⟩ := rebuilt.unmerged
  have completed := rebuilt.completed_eq
  have others := rebuilt.active_eq
  have next := rebuilt.next_eq
  have perm := sortedFragments_perm runtime fragments
  have orders : epic.entries.map EpicEntry.order =
      (sortedFragments runtime fragments).map fun fragment => fragment.membership.order :=
    rebuilt.map_entries fun _ _ entryOf => entryOf.order
  have size : epic.entries.length = (sortedFragments runtime fragments).length := by
    simpa using congrArg List.length orders
  have nonempty : 0 < epic.entries.length := by
    rw [size, perm.length_eq]
    exact List.length_pos_iff.mpr rebuilt.nonempty
  -- every entry is complete exactly when every fragment is finished
  have all : (epic.entries.filter EpicEntry.terminal).length = epic.entries.length ↔
      ∀ fragment ∈ fragments, fragment.finished := by
    rw [completed, size, List.length_filter_eq_length_iff]
    exact forall_congr' fun fragment => by rw [perm.mem_iff]
  obtain ⟨epicId, runId, timestamp, candidate⟩ := rebuilt.candidate
  have counts : epic.progress.total_entries = epic.entries.length ∧
      epic.progress.completed_entries = (epic.entries.filter EpicEntry.terminal).length ∧
      epic.progress.active_entries = (epic.entries.filter EpicEntry.inFlight).length := by
    rw [others, completed, candidate]
    simp [reconstructionCandidate]
  obtain ⟨total, done, inFlight⟩ := counts
  simp only [recomputeProgress, unmerged, active, next, total, done, inFlight, all, nonempty]
  simp

theorem progress_iff : (∀ stamps, (recomputeProgress stamps epic.toEpic).progress =
      { epic.progress with updated_at := stamps.progress }) ↔
      ∃ fragment ∈ fragments, fragment.finished = false := by
  have active := rebuilt.unmerged.2
  constructor
  · intro agrees
    by_contra all
    have finished : ∀ fragment ∈ fragments, fragment.finished := by simpa using all
    have progress := (rebuilt.recomputed ⟨"", "", ""⟩).symm.trans (agrees ⟨"", "", ""⟩)
    have status : (if ∀ fragment ∈ fragments, fragment.finished then EpicStatus.completed else .active) =
        epic.progress.status := congrArg EpicProgressSummary.status progress
    rw [if_pos finished, active] at status
    cases status
  · rintro ⟨fragment, member, unfinished⟩ stamps
    have not_all : ¬ ∀ fragment ∈ fragments, fragment.finished := fun finished => by
      simp [finished fragment member] at unfinished
    rw [rebuilt.recomputed stamps, if_neg not_all, ← active]

end

end Rebuilt

/-- A rebuilt Epic is one the mutations could have left exactly when a child is unfinished and no two
    fragments are of one change. -/
theorem reconstructed_iff (runtime : RecoveryRuntime) (epicId runId timestamp : String)
    (fragments : List EpicRecoveryFragment) (epic : ReconstructedEpic)
    (built : buildReconstructedEpic runtime epicId fragments runId timestamp = .ok epic) :
    MutatorInvariant epic.toEpic fragments ↔ (∃ fragment ∈ fragments, fragment.finished = false) ∧
        (fragments.map fun fragment => fragment.change.id).Nodup := by
  have rebuilt := rebuilt_of_ok built
  constructor
  · intro invariant
    exact ⟨rebuilt.progress_iff.mp invariant.progress, rebuilt.keyedApart_iff.mp invariant.changeIds⟩
  · rintro ⟨unfinished, distinct⟩
    exact
      { entryIds := rebuilt.entryIds
        changeIds := rebuilt.keyedApart_iff.mpr distinct
        ordered := rebuilt.ordered
        represented := fun _ member => rebuilt.represented distinct member
        progress := rebuilt.progress_iff.mpr unfinished }

/-! ## Fixed runs -/

def plainRuntime : RecoveryRuntime where
  localeCompare := compare
  isDatetime _ := true
  schemaMessage _ := "invalid"

def childFragment (changeId entryId : String) (order : JsNumber) (status : ChangeStatus) : EpicRecoveryFragment where
  change :=
    { id := changeId, status, epic_membership := none
      archived_at := .str "2026-08-08T00:00:00.000Z", closed_at := .undefined, updated_at := .undefined }
  membership :=
    { epic_id := "lostEpic", entry_id := entryId, order, title := "Child"
      linked_at := "2026-08-07T00:00:00.000Z", epic_project_id := none, repo_id := none, source := none }

def mixedFragments : List EpicRecoveryFragment :=
  [childFragment "child-two" "entry-2" 1 .draft, childFragment "child-one" "entry-1" 0 .archived]

def finishedFragments : List EpicRecoveryFragment := [childFragment "child-one" "entry-1" 0 .archived]

def reconstructionOf (fragments : List EpicRecoveryFragment) : ReconstructedEpic :=
  reconstructionCandidate "lostEpic" "run-1" "2026-08-09T00:00:00.000Z" (sortedFragments plainRuntime fragments)
    ((sortedFragments plainRuntime fragments).filterMap childEntry)

theorem mixedFragments_rebuilt : MutatorInvariant (reconstructionOf mixedFragments).toEpic mixedFragments ↔
    (∃ fragment ∈ mixedFragments, fragment.finished = false) ∧
      (mixedFragments.map fun fragment => fragment.change.id).Nodup :=
  reconstructed_iff plainRuntime "lostEpic" "run-1" "2026-08-09T00:00:00.000Z" mixedFragments _ (by rfl)

/-- An Epic whose children are all archived is called active. -/
theorem finished_called_active :
    buildReconstructedEpic plainRuntime "lostEpic" finishedFragments "run-1" "2026-08-09T00:00:00.000Z" =
        .ok (reconstructionOf finishedFragments) ∧
      ¬ MutatorInvariant (reconstructionOf finishedFragments).toEpic finishedFragments := by
  refine ⟨by rfl, fun invariant => ?_⟩
  have status : (recomputeProgress ⟨"", "", ""⟩ (reconstructionOf finishedFragments).toEpic).progress.status =
      (reconstructionOf finishedFragments).progress.status := by
    rw [invariant.progress]
  have differ : (recomputeProgress ⟨"", "", ""⟩ (reconstructionOf finishedFragments).toEpic).progress.status ≠
      (reconstructionOf finishedFragments).progress.status := by decide
  exact differ status

end Advance.Storage
