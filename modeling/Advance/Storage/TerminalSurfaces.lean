import Mathlib.Data.List.Sort
import Advance.Storage.ChangeSummaryShard
import Advance.Types.ChangeStatus

/-! # The readers of terminal changes

`changes.get`, `changes.list`, the terminal history and the launcher aggregate read the same directories, each with
its own precedence.
-/

namespace Advance.Storage

open Advance.Types

/-! ## Directories -/

/-- A record, or a summary, as far as the readers look at it. -/
structure StoredChange where
  id : String
  title : String
  status : ChangeStatus
  last_activity_at : String
  deriving DecidableEq

structure ArchiveBundle where
  dir : String
  change : StoredChange
  archived : change.status = .archived

/-- The directories of `changes/`, the summary shards, the bundles and the closed records.  An active or closed
    record stands under its own id. -/
structure StoreState where
  active : List StoredChange
  shards : List StoredChange
  archive : List ArchiveBundle
  closed : List StoredChange
  activeDistinct : (active.map StoredChange.id).Nodup
  closedStatus : ∀ record ∈ closed, record.status = .closed

structure SurfaceRuntime where
  toLowerCase : String → String
  localeCompare : String → String → Ordering

section

variable (runtime : SurfaceRuntime) (state : StoreState)

def StoreState.loadActive (id : String) : Option StoredChange := state.active.find? (·.id = id)

def loadClosedChange (id : String) : Option StoredChange := state.closed.find? (·.id = id)

/-- A file at the plain path, or a bundle of that id in a directory whose name contains it. -/
def StoreState.hasArchiveBundle (changeId : String) : Bool :=
  state.archive.any (·.dir = changeId) || state.archive.any fun bundle =>
      bundle.dir ≠ changeId && includes bundle.dir changeId && bundle.change.id = changeId

def loadArchivedChanges : List StoredChange :=
  (state.archive.map ArchiveBundle.change).filter fun change => change.status = .archived

/-! ## `changes.get` -/

inductive ResolvedId where
  | found (id : String)
  | ambiguous (candidates : List String)
  | missing

def beginsWith (text part : String) : Bool := part.toList.isPrefixOf text.toList

def prefixMatches (partialId : String) : List String :=
  (state.active.map StoredChange.id).filter fun dir =>
    beginsWith (runtime.toLowerCase dir) (runtime.toLowerCase partialId)

def resolveChangeId (partialId : String) : ResolvedId :=
  if partialId ∈ state.active.map StoredChange.id then .found partialId
  else
    match prefixMatches runtime state partialId with
    | [] => .missing
    | [id] => .found id
    | candidates => .ambiguous candidates

def changesGet (changeId : String) : Option StoredChange :=
  match resolveChangeId runtime state changeId with
  | .found id =>
    (state.loadActive id).map fun loaded =>
      if loaded.status ≠ .archived && state.hasArchiveBundle changeId then { loaded with status := .archived }
      else loaded
  | .ambiguous _ => none
  | .missing =>
    match if state.hasArchiveBundle changeId then (loadArchivedChanges state).find? (·.id = changeId) else none with
    | some archived => some { archived with status := .archived }
    | none => (loadClosedChange state changeId).filter fun closed => closed.status = .closed

/-! ## `changes.list` -/

/-- The changes whose id is not there yet. -/
def newcomers (changes more : List StoredChange) : List StoredChange :=
  more.filter fun change => change.id ∉ changes.map StoredChange.id

def changesList (includeArchived includeClosed : Bool) : List StoredChange :=
  let withArchived :=
    if includeArchived then state.active ++ newcomers state.active (loadArchivedChanges state) else state.active
  let withClosed := if includeClosed then withArchived ++ newcomers withArchived state.closed else withArchived
  -- Only the status that is stored is looked at, not the bundles.
  (withClosed.filter fun change => includeArchived || change.status ≠ .archived).filter fun change =>
    includeClosed || change.status ≠ .closed

/-! ## The terminal history -/

def descending (left right : ArchiveBundle) : Prop := runtime.localeCompare right.dir left.dir ≠ .gt

instance : DecidableRel (descending runtime) :=
  fun left right => inferInstanceAs (Decidable (runtime.localeCompare right.dir left.dir ≠ .gt))

def sortedBundles : List ArchiveBundle := state.archive.insertionSort (descending runtime)

/-- The row of a record; the terminal summary of a bundle, where its hash fits, is of the same record. -/
def changeToRow (change : StoredChange) : StoredChange :=
  { change with status := if change.status = .closed then .closed else .archived }

def bundleMatches (changeId dir : String) : Bool :=
  dir = changeId || ('-' :: changeId.toList).isSuffixOf dir.toList

def findLatestMatchingBundle (changeId : String) : Option ArchiveBundle :=
  (((sortedBundles runtime state).filter fun bundle => bundleMatches changeId bundle.dir).insertionSort
    (descending runtime)).head?

def loadDiskTerminalRow (change : StoredChange) : Option StoredChange :=
  match change.status with
  | .draft => none
  | .closed => some (changeToRow change)
  | .archived =>
    match findLatestMatchingBundle runtime state change.id with
    | some bundle => some (changeToRow bundle.change)
    | none => some (changeToRow change)

def addRows (rows more : List StoredChange) : List StoredChange :=
  more.foldl (fun rows row => if rows.any (·.id = row.id) then rows else rows ++ [row]) rows

def renderTerminalHistory : List StoredChange :=
  addRows (addRows [] ((sortedBundles runtime state).map fun bundle => changeToRow bundle.change))
    (state.active.filterMap (loadDiskTerminalRow runtime state))

/-! ## The launcher -/

def moreRecent (left right : StoredChange) : Prop :=
  (runtime.localeCompare right.last_activity_at left.last_activity_at).then
    (runtime.localeCompare left.id right.id) ≠ .gt

instance : DecidableRel (moreRecent runtime) := fun left right =>
  inferInstanceAs (Decidable ((runtime.localeCompare right.last_activity_at left.last_activity_at).then
    (runtime.localeCompare left.id right.id) ≠ .gt))

def candidateSummaries : List StoredChange :=
  state.shards.filter fun summary => (state.loadActive summary.id).any fun change => !change.status.isTerminal

def reconciled (summary : StoredChange) : StoredChange :=
  if summary.status = .draft && state.hasArchiveBundle summary.id then { summary with status := .archived }
  else summary

def launcherChanges : List StoredChange :=
  ((((candidateSummaries state).map (reconciled state)).filter fun summary => summary.status = .draft).insertionSort
    (moreRecent runtime)).take 50

/-! ## What is claimed -/

structure ShownAs (rows : List StoredChange) (changeId : String) (status : ChangeStatus) : Prop where
  present : ∃ row ∈ rows, row.id = changeId
  same : ∀ row ∈ rows, row.id = changeId → row.status = status

/-- Every reader shows the change with one terminal status, the launcher and the default list do not show it. -/
structure TerminalEverywhere (changeId : String) (status : ChangeStatus) : Prop where
  terminal : status.isTerminal = true
  got : ∃ change, changesGet runtime state changeId = some change ∧ change.id = changeId ∧ change.status = status
  listed : ShownAs (changesList state true true) changeId status
  history : ShownAs (renderTerminalHistory runtime state) changeId status
  launcher : ∀ row ∈ launcherChanges runtime state, row.id ≠ changeId
  unlisted : ∀ row ∈ changesList state false false, row.id ≠ changeId

def Agreed (changeId : String) : Prop := ∃ status, TerminalEverywhere runtime state changeId status

def HasBundle (changeId : String) : Prop := ∃ bundle ∈ state.archive, bundle.change.id = changeId

def HasTerminalCopy (changeId : String) : Prop :=
  HasBundle state changeId ∨ ∃ record ∈ state.closed, record.id = changeId

/-- Of a change with a bundle: its active record is archived, or there is none, nor another whose id begins with
    this one, and the bundle is found by its directory.  Of any other: its active record is closed and the archive
    has no file at its plain path, or it is archived and no directory of the archive ends with the id. -/
def CopiesAgree (changeId : String) : Prop :=
  (HasBundle state changeId ∧ ((∃ change ∈ state.active, change.id = changeId ∧ change.status = .archived) ∨
      (prefixMatches runtime state changeId = [] ∧ changeId ∉ state.active.map StoredChange.id ∧
        state.hasArchiveBundle changeId = true))) ∨
  (¬ HasBundle state changeId ∧ ∃ change ∈ state.active, change.id = changeId ∧
    ((change.status = .closed ∧ state.hasArchiveBundle changeId = false) ∨
      (change.status = .archived ∧ ∀ bundle ∈ state.archive, bundleMatches changeId bundle.dir = false)))

end

/-! ## Rows -/

variable {rows more : List StoredChange}

theorem mem_addRows {row : StoredChange} (member : row ∈ addRows rows more) : row ∈ rows ∨ row ∈ more := by
  induction more generalizing rows with
  | nil => exact .inl member
  | cons next more ih =>
    simp only [addRows, List.foldl_cons] at member ih
    split at member
    · exact (ih member).imp_right (List.mem_cons_of_mem _)
    · rcases ih member with held | held
      · rcases List.mem_append.mp held with held | held
        · exact .inl held
        · exact .inr (by rw [List.mem_singleton.mp held]; exact List.mem_cons_self)
      · exact .inr (List.mem_cons_of_mem _ held)

theorem subset_addRows (rows more : List StoredChange) : rows ⊆ addRows rows more := by
  induction more generalizing rows with
  | nil => exact fun _ member => member
  | cons next more ih =>
    simp only [addRows, List.foldl_cons] at ih ⊢
    split
    · exact ih rows
    · exact fun row member => ih _ (List.mem_append_left _ member)

theorem addRows_covers {row : StoredChange} (member : row ∈ more) :
    ∃ shown ∈ addRows rows more, shown.id = row.id := by
  induction more generalizing rows with
  | nil => cases member
  | cons next more ih =>
    simp only [addRows, List.foldl_cons] at ih ⊢
    rcases List.mem_cons.mp member with rfl | member
    · split
      next held =>
        obtain ⟨shown, inside, same⟩ := List.any_eq_true.mp held
        exact ⟨shown, subset_addRows rows more inside, of_decide_eq_true same⟩
      next => exact ⟨row, subset_addRows _ more (List.mem_append_right _ (List.mem_singleton.mpr rfl)), rfl⟩
    · exact ih member

theorem addRows_first {row shown : StoredChange} (held : row ∈ rows)
    (member : shown ∈ addRows rows more) (same : shown.id = row.id) : shown ∈ rows := by
  induction more generalizing rows with
  | nil => exact member
  | cons next more ih =>
    simp only [addRows, List.foldl_cons] at member ih
    split at member
    next => exact ih held member
    next fresh =>
      rcases List.mem_append.mp (ih (List.mem_append_left _ held) member) with inside | inside
      · exact inside
      · cases List.mem_singleton.mp inside
        exact absurd (List.any_eq_true.mpr ⟨row, held, decide_eq_true same.symm⟩) fresh

theorem ShownAs.unique {rows : List StoredChange} {changeId : String} {left right : ChangeStatus}
    (first : ShownAs rows changeId left) (second : ShownAs rows changeId right) : left = right := by
  obtain ⟨row, member, here⟩ := first.present
  exact (first.same row member here).symm.trans (second.same row member here)

/-! ## The readers of one change -/

section

variable {runtime : SurfaceRuntime} {state : StoreState} {changeId : String} {change : StoredChange}

theorem active_unique {other : StoredChange} (member : change ∈ state.active) (second : other ∈ state.active)
    (same : change.id = other.id) : change = other :=
  List.inj_on_of_nodup_map state.activeDistinct member second same

theorem loadActive_of_mem (member : change ∈ state.active) : state.loadActive change.id = some change := by
  unfold StoreState.loadActive
  cases found : state.active.find? (·.id = change.id) with
  | none =>
    have differs := List.find?_eq_none.mp found change member
    simp at differs
  | some other =>
    have same : other.id = change.id := by simpa using List.find?_some found
    rw [active_unique (List.mem_of_find?_eq_some found) member same]

theorem loadActive_id {id : String} (found : state.loadActive id = some change) :
    change ∈ state.active ∧ change.id = id :=
  ⟨List.mem_of_find?_eq_some found, by simpa using List.find?_some found⟩

theorem get_active (member : change ∈ state.active) (here : change.id = changeId) :
    changesGet runtime state changeId = some (if change.status ≠ .archived && state.hasArchiveBundle changeId
      then { change with status := .archived } else change) := by
  subst here
  have inside : change.id ∈ state.active.map StoredChange.id := List.mem_map_of_mem member
  simp [changesGet, resolveChangeId, inside, loadActive_of_mem member]

theorem prefixMatches_of_get (absent : changeId ∉ state.active.map StoredChange.id)
    (got : changesGet runtime state changeId = some change) (here : change.id = changeId) :
    prefixMatches runtime state changeId = [] := by
  unfold changesGet resolveChangeId at got
  rw [if_neg absent] at got
  cases begun : prefixMatches runtime state changeId with
  | nil => rfl
  | cons id more =>
    rw [begun] at got
    cases more with
    | nil =>
      -- The record of the longer id is shown.
      obtain ⟨loaded, found, shown⟩ := Option.map_eq_some_iff.mp got
      have sameId : change.id = loaded.id := by
        rw [← shown]
        split <;> rfl
      obtain ⟨inside, _⟩ := loadActive_id found
      exact absurd (here ▸ sameId ▸ List.mem_map_of_mem inside) absent
    | cons _ _ => cases got

theorem get_absent (absent : changeId ∉ state.active.map StoredChange.id)
    (alone : prefixMatches runtime state changeId = []) : changesGet runtime state changeId =
      match if state.hasArchiveBundle changeId then (loadArchivedChanges state).find? (·.id = changeId) else none with
      | some archived => some { archived with status := .archived }
      | none => (loadClosedChange state changeId).filter fun closed => closed.status = .closed := by
  unfold changesGet resolveChangeId
  rw [if_neg absent, alone]

theorem mem_loadArchivedChanges : change ∈ loadArchivedChanges state ↔ ∃ bundle ∈ state.archive, bundle.change = change := by
  unfold loadArchivedChanges
  constructor
  · intro member
    exact List.mem_map.mp (List.mem_filter.mp member).1
  · rintro ⟨bundle, member, rfl⟩
    exact List.mem_filter.mpr ⟨List.mem_map_of_mem member, decide_eq_true bundle.archived⟩

theorem mem_newcomers {changes more : List StoredChange} :
    change ∈ newcomers changes more ↔ change ∈ more ∧ change.id ∉ changes.map StoredChange.id := by
  simp [newcomers]

theorem mem_list_all : change ∈ changesList state true true ↔
    change ∈ state.active ∨ change ∈ newcomers state.active (loadArchivedChanges state) ∨
      change ∈ newcomers (state.active ++ newcomers state.active (loadArchivedChanges state)) state.closed := by
  simp [changesList]

theorem list_active (member : change ∈ state.active) (here : change.id = changeId) :
    ShownAs (changesList state true true) changeId change.status := by
  have listed : change.id ∈ state.active.map StoredChange.id := List.mem_map_of_mem member
  refine ⟨⟨change, mem_list_all.mpr (.inl member), here⟩, fun row shown same => ?_⟩
  have sameId : row.id = change.id := same.trans here.symm
  rcases mem_list_all.mp shown with active | archived | closed
  · rw [active_unique active member sameId]
  · exact absurd (sameId ▸ listed) (mem_newcomers.mp archived).2
  · refine absurd ?_ (mem_newcomers.mp closed).2
    rw [List.map_append, sameId]
    exact List.mem_append_left _ listed

theorem list_bundle (absent : changeId ∉ state.active.map StoredChange.id) (bundled : HasBundle state changeId) :
    ShownAs (changesList state true true) changeId .archived := by
  obtain ⟨bundle, member, here⟩ := bundled
  have archived : bundle.change ∈ newcomers state.active (loadArchivedChanges state) :=
    mem_newcomers.mpr ⟨mem_loadArchivedChanges.mpr ⟨bundle, member, rfl⟩, here ▸ absent⟩
  refine ⟨⟨bundle.change, mem_list_all.mpr (.inr (.inl archived)), here⟩, fun row shown same => ?_⟩
  rcases mem_list_all.mp shown with active | copied | closed
  · exact absurd (same ▸ List.mem_map_of_mem active) absent
  · obtain ⟨other, _, rfl⟩ := mem_loadArchivedChanges.mp (mem_newcomers.mp copied).1
    exact other.archived
  · refine absurd ?_ (mem_newcomers.mp closed).2
    rw [List.map_append, same, ← here]
    exact List.mem_append_right _ (List.mem_map_of_mem archived)

theorem unlisted_iff : (∀ row ∈ changesList state false false, row.id ≠ changeId) ↔
    ∀ change ∈ state.active, change.id = changeId → change.status.isTerminal = true := by
  constructor
  · intro hidden change member here
    cases stored : change.status with
    | draft =>
      refine absurd here (hidden change ?_)
      simp [changesList, member, stored]
    | archived => rfl
    | closed => rfl
  · intro terminal row shown here
    have listed : row ∈ state.active ∧ row.status ≠ .closed ∧ row.status ≠ .archived := by
      simpa [changesList] using shown
    have finished := terminal row listed.1 here
    cases stored : row.status with
    | draft => simp [stored, ChangeStatus.isTerminal] at finished
    | archived => exact listed.2.2 stored
    | closed => exact listed.2.1 stored

theorem launcher_silent (terminal : ∀ change ∈ state.active, change.id = changeId → change.status.isTerminal = true) :
    ∀ row ∈ launcherChanges runtime state, row.id ≠ changeId := by
  intro row shown here
  have sorted := List.mem_of_mem_take shown
  rw [List.mem_insertionSort] at sorted
  obtain ⟨summary, candidate, rfl⟩ := List.mem_map.mp (List.mem_filter.mp sorted).1
  have sameId : summary.id = changeId := by
    rw [← here]
    unfold reconciled
    split <;> rfl
  obtain ⟨change, found, unfinished⟩ := (Option.any_eq_true ..).mp (List.mem_filter.mp candidate).2
  obtain ⟨member, here⟩ := loadActive_id found
  simp [terminal change member (here.trans sameId)] at unfinished

/-! ## The rows of the terminal history -/

theorem mem_sortedBundles {bundle : ArchiveBundle} : bundle ∈ sortedBundles runtime state ↔ bundle ∈ state.archive :=
  List.mem_insertionSort _

theorem history_bundle (bundled : HasBundle state changeId) :
    ShownAs (renderTerminalHistory runtime state) changeId .archived := by
  obtain ⟨bundle, member, here⟩ := bundled
  have listed : changeToRow bundle.change ∈ (sortedBundles runtime state).map fun bundle => changeToRow bundle.change :=
    List.mem_map_of_mem (f := fun bundle : ArchiveBundle => changeToRow bundle.change) (mem_sortedBundles.mpr member)
  obtain ⟨first, shown, same⟩ : ∃ first ∈ addRows [] _, first.id = (changeToRow bundle.change).id :=
    addRows_covers listed
  have firstHere : first.id = changeId := same.trans here
  refine ⟨⟨first, subset_addRows _ _ shown, firstHere⟩, fun row inside sameRow => ?_⟩
  have fromBundle := addRows_first shown inside (sameRow.trans firstHere.symm)
  rcases mem_addRows fromBundle with nothing | held
  · cases nothing
  · obtain ⟨other, _, rfl⟩ := List.mem_map.mp held
    simp [changeToRow, other.archived]

variable {row : StoredChange}

theorem history_active (unbundled : ¬ HasBundle state row.id) (shown : row ∈ renderTerminalHistory runtime state) :
    ∃ change ∈ state.active, loadDiskTerminalRow runtime state change = some row := by
  rcases mem_addRows shown with held | held
  · rcases mem_addRows held with nothing | held
    · cases nothing
    · obtain ⟨bundle, member, rfl⟩ := List.mem_map.mp held
      exact absurd ⟨bundle, mem_sortedBundles.mp member, rfl⟩ unbundled
  · exact List.mem_filterMap.mp held

theorem history_of_active (member : change ∈ state.active)
    (loaded : loadDiskTerminalRow runtime state change = some row) :
    ∃ shown ∈ renderTerminalHistory runtime state, shown.id = row.id :=
  addRows_covers (List.mem_filterMap.mpr ⟨change, member, loaded⟩)

theorem findLatestMatchingBundle_none : findLatestMatchingBundle runtime state changeId = none ↔
    ∀ bundle ∈ state.archive, bundleMatches changeId bundle.dir = false := by
  unfold findLatestMatchingBundle
  rw [List.head?_eq_none_iff, ← List.length_eq_zero_iff, List.length_insertionSort, List.length_eq_zero_iff,
    List.filter_eq_nil_iff]
  simp [mem_sortedBundles]

theorem mem_of_findLatestMatchingBundle {bundle : ArchiveBundle}
    (found : findLatestMatchingBundle runtime state changeId = some bundle) : bundle ∈ state.archive := by
  have sorted := List.mem_of_head? found
  rw [List.mem_insertionSort] at sorted
  exact mem_sortedBundles.mp (List.mem_filter.mp sorted).1

theorem loadDiskTerminalRow_cases (unbundled : ¬ HasBundle state row.id)
    (loaded : loadDiskTerminalRow runtime state change = some row) :
    row = changeToRow change ∧ (change.status = .closed ∨
      (change.status = .archived ∧ ∀ bundle ∈ state.archive, bundleMatches change.id bundle.dir = false)) := by
  unfold loadDiskTerminalRow at loaded
  cases stored : change.status with
  | draft => simp [stored] at loaded
  | closed =>
    simp only [stored, Option.some.injEq] at loaded
    exact ⟨loaded.symm, .inl rfl⟩
  | archived =>
    simp only [stored] at loaded
    cases found : findLatestMatchingBundle runtime state change.id with
    | none =>
      simp only [found, Option.some.injEq] at loaded
      exact ⟨loaded.symm, .inr ⟨rfl, findLatestMatchingBundle_none.mp found⟩⟩
    | some bundle =>
      -- The row of that bundle is of another id.
      simp only [found, Option.some.injEq] at loaded
      exact absurd ⟨bundle, mem_of_findLatestMatchingBundle found, by rw [← loaded]; rfl⟩ unbundled

theorem history_unbundled (unbundled : ¬ HasBundle state changeId) (member : change ∈ state.active)
    (here : change.id = changeId) (terminal : change.status.isTerminal = true)
    (loaded : loadDiskTerminalRow runtime state change = some (changeToRow change)) :
    ShownAs (renderTerminalHistory runtime state) changeId change.status := by
  obtain ⟨shown, inside, same⟩ := history_of_active member loaded
  refine ⟨⟨shown, inside, same.trans here⟩, fun row rowIn rowHere => ?_⟩
  have free : ¬ HasBundle state row.id := rowHere ▸ unbundled
  obtain ⟨other, second, otherLoaded⟩ := history_active free rowIn
  obtain ⟨rfl, _⟩ := loadDiskTerminalRow_cases free otherLoaded
  have one : change = other := active_unique member second (here.trans rowHere.symm)
  subst one
  cases stored : change.status with
  | draft => simp [stored, ChangeStatus.isTerminal] at terminal
  | archived => simp [changeToRow, stored]
  | closed => simp [changeToRow, stored]

end

/-! ## Agreement -/

section

variable {runtime : SurfaceRuntime} {state : StoreState} {changeId : String} {change : StoredChange}

theorem terminal_by_active (member : change ∈ state.active) (here : change.id = changeId)
    (terminal : change.status.isTerminal = true)
    (kept : change.status = .archived ∨ state.hasArchiveBundle changeId = false)
    (history : ShownAs (renderTerminalHistory runtime state) changeId change.status) :
    TerminalEverywhere runtime state changeId change.status := by
  have others : ∀ other ∈ state.active, other.id = changeId → other.status.isTerminal = true := by
    intro other second same
    rw [← active_unique member second (here.trans same.symm)]
    exact terminal
  refine ⟨terminal, ⟨change, ?_, here, rfl⟩, list_active member here, history, launcher_silent others,
    unlisted_iff.mpr others⟩
  rw [get_active member here]
  rcases kept with archived | free
  · simp [archived]
  · simp [free]

theorem terminal_by_bundle (bundled : HasBundle state changeId) (absent : changeId ∉ state.active.map StoredChange.id)
    (alone : prefixMatches runtime state changeId = []) (held : state.hasArchiveBundle changeId = true) :
    TerminalEverywhere runtime state changeId .archived := by
  have nobody : ∀ other ∈ state.active, other.id = changeId → other.status.isTerminal = true :=
    fun other member same => absurd (same ▸ List.mem_map_of_mem member) absent
  refine ⟨rfl, ?_, list_bundle absent bundled, history_bundle bundled, launcher_silent nobody,
    unlisted_iff.mpr nobody⟩
  rw [get_absent absent alone, if_pos held]
  obtain ⟨bundle, member, here⟩ := bundled
  cases found : (loadArchivedChanges state).find? (·.id = changeId) with
  | none =>
    have differs := List.find?_eq_none.mp found bundle.change (mem_loadArchivedChanges.mpr ⟨bundle, member, rfl⟩)
    simp [here] at differs
  | some archived => exact ⟨_, rfl, by simpa using List.find?_some found, rfl⟩

theorem CopiesAgree.agreed (copies : CopiesAgree runtime state changeId) : Agreed runtime state changeId := by
  rcases copies with ⟨bundled, ⟨change, member, here, archived⟩ | ⟨alone, absent, held⟩⟩ |
    ⟨unbundled, change, member, here, ⟨closed, free⟩ | ⟨archived, apart⟩⟩
  · have history : ShownAs (renderTerminalHistory runtime state) changeId .archived := history_bundle bundled
    rw [← archived] at history
    exact ⟨_, terminal_by_active member here (by rw [archived]; rfl) (.inl archived) history⟩
  · exact ⟨_, terminal_by_bundle bundled absent alone held⟩
  · have loaded : loadDiskTerminalRow runtime state change = some (changeToRow change) := by
      simp [loadDiskTerminalRow, closed]
    exact ⟨_, terminal_by_active member here (by rw [closed]; rfl) (.inr free)
      (history_unbundled unbundled member here (by rw [closed]; rfl) loaded)⟩
  · have loaded : loadDiskTerminalRow runtime state change = some (changeToRow change) := by
      simp [loadDiskTerminalRow, archived, findLatestMatchingBundle_none.mpr (here ▸ apart)]
    exact ⟨_, terminal_by_active member here (by rw [archived]; rfl) (.inl archived)
      (history_unbundled unbundled member here (by rw [archived]; rfl) loaded)⟩

theorem Agreed.copiesAgree (agreed : Agreed runtime state changeId) : CopiesAgree runtime state changeId := by
  obtain ⟨status, shown⟩ := agreed
  by_cases bundled : HasBundle state changeId
  · -- The history shows the bundle, so the others must show it as archived.
    have archived : status = .archived := shown.history.unique (history_bundle bundled)
    refine .inl ⟨bundled, ?_⟩
    by_cases active : changeId ∈ state.active.map StoredChange.id
    · obtain ⟨change, member, here⟩ := List.mem_map.mp active
      have same : change.status = status := (list_active member here).unique shown.listed
      exact .inl ⟨change, member, here, same.trans archived⟩
    · obtain ⟨change, got, here, same⟩ := shown.got
      have alone := prefixMatches_of_get active got here
      refine .inr ⟨alone, active, ?_⟩
      cases held : state.hasArchiveBundle changeId with
      | true => rfl
      | false =>
        -- Then only a closed record is found.
        rw [get_absent active alone] at got
        simp only [held, Bool.false_eq_true, if_false, Option.filter_eq_some_iff, decide_eq_true_eq] at got
        rw [archived, got.2] at same
        cases same
  · -- The row of the history is of the active record.
    obtain ⟨row, inside, here⟩ := shown.history.present
    subst here
    obtain ⟨change, member, loaded⟩ := history_active bundled inside
    obtain ⟨rfl, kinds⟩ := loadDiskTerminalRow_cases bundled loaded
    have same : change.status = status := (list_active member rfl).unique shown.listed
    refine .inr ⟨bundled, change, member, rfl, ?_⟩
    rcases kinds with closed | ⟨archived, apart⟩
    · refine .inl ⟨closed, ?_⟩
      obtain ⟨got, found, _, gotStatus⟩ := shown.got
      have found := (get_active member rfl).symm.trans found
      cases held : state.hasArchiveBundle change.id with
      | false => exact held
      | true =>
        simp [held, closed] at found
        subst found
        rw [← same, closed] at gotStatus
        cases gotStatus
    · exact .inr ⟨archived, apart⟩

theorem agreed_iff : Agreed runtime state changeId ↔ CopiesAgree runtime state changeId :=
  ⟨Agreed.copiesAgree, CopiesAgree.agreed⟩

end

theorem terminality_iff (runtime : SurfaceRuntime) (state : StoreState) (changeId : String) :
    (HasTerminalCopy state changeId → Agreed runtime state changeId) ↔
      (HasTerminalCopy state changeId → CopiesAgree runtime state changeId) :=
  imp_congr_right fun _ => agreed_iff

/-! ## Fixed runs -/

def staleActive : StoredChange := ⟨"a", "A", .draft, "2026-08-01"⟩

def interruptedArchive : StoreState where
  active := [staleActive]
  shards := []
  archive := [⟨"2026-08-01-a", { staleActive with status := .archived }, rfl⟩]
  closed := []
  activeDistinct := by decide
  closedStatus := by simp

def asciiSurfaces : SurfaceRuntime := ⟨String.toLower, compare⟩

theorem stale_listed : HasTerminalCopy interruptedArchive "a" ∧ ¬ Agreed asciiSurfaces interruptedArchive "a" := by
  refine ⟨.inl ⟨_, List.mem_singleton.mpr rfl, rfl⟩, fun ⟨_, shown⟩ => ?_⟩
  exact shown.unlisted staleActive (by decide) rfl

end Advance.Storage
