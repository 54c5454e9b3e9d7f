import Advance.Storage.LauncherProjection
import Advance.Storage.TerminalSurfaces

/-! # Looking a change up

`changes.get` takes an id or the first letters of one and looks through `changes/`, the
archive bundles and the closed records.
-/

namespace Advance.Storage

open Advance.JavaScript

/-! ## Directories -/

/-- A directory of records: what a listing of it gives, and the `change.json` under each name. -/
structure RecordDirectory where
  path : String
  listing : Listing
  file : String → FileState

structure StoreDirectories where
  changes : RecordDirectory
  archive : RecordDirectory
  closed : RecordDirectory

structure LookupRuntime where
  base : Runtime
  toLowerCase : String → String

def FileState.isThere : FileState → Bool
  | .absent => false
  | .text _ => true
  | .unreadable _ => true

def namedDirectories (entries : List DirEntry) : List String :=
  (entries.filter fun entry => entry.isDirectory && !(".".toList.isPrefixOf entry.name.toList)).map DirEntry.name

def RecordDirectory.listChangeDirs (directory : RecordDirectory) : List String :=
  match directory.listing with
  | .entries entries => namedDirectories entries
  | .noEntry => []
  | .failed _ => []

structure ResolvedChange where
  id : Option String
  candidates : List String
  deriving DecidableEq

def archivedText : JsVal := .str "archived"

def closedText : JsVal := .str "closed"

section

variable (runtime : LookupRuntime)

def RecordDirectory.load (directory : RecordDirectory) (name : String) : LoadResult :=
  loadChange runtime.base directory.path name (directory.file name) none

/-- `loaded.success && loaded.data` -/
def LoadResult.change? : LoadResult → Option JsVal
  | .success data => data
  | .failure _ _ => none

def resolveIn (changes : RecordDirectory) (partialId : String) : ResolvedChange :=
  let dirs := changes.listChangeDirs
  if partialId ∈ dirs then ⟨some partialId, [partialId]⟩
  else
    match dirs.filter fun dir => beginsWith (runtime.toLowerCase dir) (runtime.toLowerCase partialId) with
    | [] => ⟨none, []⟩
    | [id] => ⟨some id, [id]⟩
    | candidates => ⟨none, candidates⟩

/-- A bundle in another directory whose name contains the id, with a readable record of that id. -/
def isBundleOf (archive : RecordDirectory) (changeId dir : String) : Bool :=
  dir ≠ changeId && includes dir changeId &&
    ((archive.load runtime dir).change?.any fun change => change.get "id" = .str changeId)

def RecordDirectory.hasArchiveBundle (archive : RecordDirectory) (changeId : String) : Bool :=
  (archive.file changeId).isThere || archive.listChangeDirs.any (isBundleOf runtime archive changeId)

def RecordDirectory.archivedChanges (archive : RecordDirectory) : List JsVal :=
  (archive.listChangeDirs.filterMap fun dir => (archive.load runtime dir).change?).filter fun change =>
    change.get "status" = archivedText

/-! ## The lookup -/

def ambiguousId (changeId : String) (candidates : List String) : LoadResult :=
  .failure ("Ambiguous change ID \"" ++ changeId ++ "\". Matches: " ++ ", ".intercalate candidates) .notFound

def noChangeFound (changeId : String) : LoadResult := .failure ("Change not found: " ++ changeId) .notFound

/-- The record of the id that was resolved; the bundle is looked for under the id that was asked for. -/
def loadResolved (store : StoreDirectories) (changeId id : String) : LoadResult :=
  match store.changes.load runtime id with
  | .success (some change) =>
    if change.get "status" ≠ archivedText && store.archive.hasArchiveBundle runtime changeId then
      .success (some (change.set "status" archivedText))
    else .success (some change)
  | loaded => loaded

def closedOrMissing (store : StoreDirectories) (changeId : String) : LoadResult :=
  match store.closed.load runtime changeId with
  | .success (some closed) =>
    if closed.get "status" = closedText then .success (some closed) else noChangeFound changeId
  | _ => noChangeFound changeId

/-- No record in `changes/`: a bundle, or a closed record. -/
def loadUnresolved (store : StoreDirectories) (changeId : String) : LoadResult :=
  match if store.archive.hasArchiveBundle runtime changeId then
      (store.archive.archivedChanges runtime).find? fun change => change.get "id" = .str changeId
    else none with
  | some archived => .success (some (archived.set "status" archivedText))
  | none => closedOrMissing runtime store changeId

def StoreDirectories.get (store : StoreDirectories) (changeId : String) : LoadResult :=
  match resolveIn runtime store.changes changeId with
  | ⟨some id, _⟩ => loadResolved runtime store changeId id
  | ⟨none, candidates⟩ =>
    if candidates.length ≤ 1 then loadUnresolved runtime store changeId else ambiguousId changeId candidates

/-! ## What is claimed -/

def reportedStatus (result : LoadResult) : Option JsVal := result.change?.map fun change => change.get "status"

/-- The id of the change a lookup is about. -/
def askedId (store : StoreDirectories) (changeId : String) : String :=
  (resolveIn runtime store.changes changeId).id.getD changeId

/-- A readable bundle of another change. -/
def Foreign (archive : RecordDirectory) (owner dir : String) : Prop :=
  ∃ bundle, (archive.load runtime dir).change? = some bundle ∧ bundle.get "id" ≠ .str owner

end

def RecordDirectory.without (directory : RecordDirectory) (removed : List String) : RecordDirectory where
  path := directory.path
  listing :=
    match directory.listing with
    | .entries entries => .entries (entries.filter fun entry => entry.name ∉ removed)
    | listing => listing
  file := fun name => if name ∈ removed then .absent else directory.file name

def StoreDirectories.withoutBundles (store : StoreDirectories) (removed : List String) : StoreDirectories :=
  { store with archive := store.archive.without removed }

structure Transparent (runtime : LookupRuntime) (store : StoreDirectories) (changeId : String) : Prop where
  full : ∀ id, (resolveIn runtime store.changes changeId).id = some id →
    store.get runtime changeId = store.get runtime id
  unaffected : ∀ removed, (∀ dir ∈ removed, Foreign runtime store.archive (askedId runtime store changeId) dir) →
      reportedStatus ((store.withoutBundles removed).get runtime changeId) =
        reportedStatus (store.get runtime changeId)

/-! ## When it holds -/

/-- What a search for bundles under an id finds has a bundle of the owner in it: the file at the plain
path, unless that is a record of another change, or a bundle in another directory. -/
def OwnBundle (runtime : LookupRuntime) (archive : RecordDirectory) (owner changeId : String) : Prop :=
  ((archive.file changeId).isThere = true ∧ ¬ Foreign runtime archive owner changeId) ∨
    (changeId = owner ∧ ∃ dir ∈ archive.listChangeDirs, isBundleOf runtime archive changeId dir = true)

/-- Where bundles are looked for at all, what is found under the id that was asked for is found under the
full id, and the other way round, and is not of other changes alone. -/
structure BundlesFit (runtime : LookupRuntime) (store : StoreDirectories) (changeId : String) : Prop where
  resolved : ∀ id change, (resolveIn runtime store.changes changeId).id = some id →
    (store.changes.load runtime id).change? = some change → change.get "status" ≠ archivedText →
      store.archive.hasArchiveBundle runtime changeId = store.archive.hasArchiveBundle runtime id ∧
        (store.archive.hasArchiveBundle runtime changeId = true → OwnBundle runtime store.archive id changeId)
  unresolved : resolveIn runtime store.changes changeId = ⟨none, []⟩ →
    (∃ change ∈ store.archive.archivedChanges runtime, change.get "id" = .str changeId) →
      store.archive.hasArchiveBundle runtime changeId = true → OwnBundle runtime store.archive changeId changeId

/-! ## Resolution -/

section

variable {runtime : LookupRuntime} {store : StoreDirectories} {changeId id owner : String}

theorem resolveIn_full {changes : RecordDirectory} (listed : id ∈ changes.listChangeDirs) :
    resolveIn runtime changes id = ⟨some id, [id]⟩ := by
  simp [resolveIn, listed]

theorem resolveIn_listed {changes : RecordDirectory} (resolved : (resolveIn runtime changes changeId).id = some id) :
    id ∈ changes.listChangeDirs := by
  unfold resolveIn at resolved
  by_cases listed : changeId ∈ changes.listChangeDirs
  · rw [if_pos listed] at resolved
    exact Option.some.inj resolved ▸ listed
  · rw [if_neg listed] at resolved
    split at resolved
    · cases resolved
    · next only same =>
      obtain rfl := Option.some.inj resolved
      have inside : only ∈ [only] := List.mem_singleton_self only
      rw [← same] at inside
      exact (List.mem_filter.mp inside).1
    · cases resolved

theorem get_resolved (resolved : (resolveIn runtime store.changes changeId).id = some id) :
    store.get runtime changeId = loadResolved runtime store changeId id := by
  unfold StoreDirectories.get
  cases found : resolveIn runtime store.changes changeId with
  | mk resolvedId candidates =>
    rw [found] at resolved
    obtain rfl := resolved
    rfl

theorem get_full (resolved : (resolveIn runtime store.changes changeId).id = some id) :
    store.get runtime id = loadResolved runtime store id id :=
  get_resolved (by rw [resolveIn_full (resolveIn_listed resolved)])

theorem get_unresolved (unresolved : resolveIn runtime store.changes changeId = ⟨none, []⟩) :
    store.get runtime changeId = loadUnresolved runtime store changeId := by
  unfold StoreDirectories.get
  rw [unresolved]
  rfl

theorem askedId_resolved (resolved : (resolveIn runtime store.changes changeId).id = some id) :
    askedId runtime store changeId = id := by
  rw [askedId, resolved, Option.getD_some]

theorem askedId_unresolved (unresolved : resolveIn runtime store.changes changeId = ⟨none, []⟩) :
    askedId runtime store changeId = changeId := by
  rw [askedId, unresolved, Option.getD_none]

theorem resolveIn_cases (runtime : LookupRuntime) (changes : RecordDirectory) (changeId : String) :
    (∃ id, (resolveIn runtime changes changeId).id = some id) ∨ resolveIn runtime changes changeId = ⟨none, []⟩ ∨
        ∃ first second more, resolveIn runtime changes changeId = ⟨none, first :: second :: more⟩ := by
  unfold resolveIn
  by_cases listed : changeId ∈ changes.listChangeDirs
  · exact .inl ⟨changeId, by simp [listed]⟩
  · simp only [if_neg listed]
    cases changes.listChangeDirs.filter fun dir =>
        beginsWith (runtime.toLowerCase dir) (runtime.toLowerCase changeId) with
    | nil => exact .inr (.inl rfl)
    | cons first more =>
      cases more with
      | nil => exact .inl ⟨first, rfl⟩
      | cons second more => exact .inr (.inr ⟨first, second, more, rfl⟩)

/-! ## Statuses -/

theorem loadResolved_of_absent (absent : (store.changes.load runtime id).change? = none) (archive : RecordDirectory) :
    loadResolved runtime { store with archive := archive } changeId id = store.changes.load runtime id := by
  unfold loadResolved
  split
  · next change loaded => simp [loaded, LoadResult.change?] at absent
  · rfl

theorem loadResolved_of_change {change : JsVal} (loads : (store.changes.load runtime id).change? = some change) :
    loadResolved runtime store changeId id = .success (some
        (if change.get "status" ≠ archivedText ∧ store.archive.hasArchiveBundle runtime changeId = true then
          change.set "status" archivedText
        else change)) := by
  cases loaded : store.changes.load runtime id with
  | failure error type => simp [loaded, LoadResult.change?] at loads
  | success data =>
    rw [loaded] at loads
    obtain rfl : data = some change := loads
    simp only [loadResolved, loaded]
    split <;> split <;> simp_all

theorem reportedStatus_archived {change : JsVal} (loads : (store.changes.load runtime id).change? = some change)
    (live : change.get "status" ≠ archivedText) :
    reportedStatus (loadResolved runtime store changeId id) = some archivedText ↔
      store.archive.hasArchiveBundle runtime changeId = true := by
  rw [loadResolved_of_change loads]
  by_cases held : store.archive.hasArchiveBundle runtime changeId = true
  · simp [held, live, reportedStatus, LoadResult.change?]
  · simp [held, live, reportedStatus, LoadResult.change?]

end

/-! ## Taking bundles away -/

section

variable {runtime : LookupRuntime} {archive : RecordDirectory} {removed : List String} {changeId owner : String}

theorem without_load (dir : String) : ((archive.without removed).load runtime dir).change? =
    if dir ∈ removed then none else (archive.load runtime dir).change? := by
  by_cases gone : dir ∈ removed
  · simp [RecordDirectory.load, RecordDirectory.without, gone, loadChange, readBoundedProjectionDocument,
      LoadResult.change?]
  · simp [RecordDirectory.load, RecordDirectory.without, gone]

theorem without_isThere (name : String) : ((archive.without removed).file name).isThere = true ↔
    name ∉ removed ∧ (archive.file name).isThere = true := by
  by_cases gone : name ∈ removed
  · simp [RecordDirectory.without, gone, FileState.isThere]
  · simp [RecordDirectory.without, gone]

theorem without_listChangeDirs :
    (archive.without removed).listChangeDirs = archive.listChangeDirs.filter fun dir => dir ∉ removed := by
  unfold RecordDirectory.listChangeDirs RecordDirectory.without
  cases archive.listing with
  | noEntry => rfl
  | failed error => rfl
  | entries entries =>
    simp only [namedDirectories, List.filter_filter, List.filter_map]
    congr 1
    exact List.filter_congr fun entry _ => by simp [Bool.and_comm]

theorem isBundleOf_without (dir : String) (kept : dir ∉ removed) :
    isBundleOf runtime (archive.without removed) changeId dir = isBundleOf runtime archive changeId dir := by
  rw [isBundleOf, isBundleOf, without_load, if_neg kept]

theorem isBundleOf_id {dir : String} (found : isBundleOf runtime archive changeId dir = true) :
    ∃ bundle, (archive.load runtime dir).change? = some bundle ∧ bundle.get "id" = .str changeId := by
  simp only [isBundleOf, Bool.and_eq_true, Option.any_eq_true, decide_eq_true_eq] at found
  exact found.2

theorem hasArchiveBundle_iff : archive.hasArchiveBundle runtime changeId = true ↔
    (archive.file changeId).isThere = true ∨
      ∃ dir ∈ archive.listChangeDirs, isBundleOf runtime archive changeId dir = true := by
  rw [RecordDirectory.hasArchiveBundle, Bool.or_eq_true, List.any_eq_true]

theorem without_hasArchiveBundle : (archive.without removed).hasArchiveBundle runtime changeId = true ↔
    (changeId ∉ removed ∧ (archive.file changeId).isThere = true) ∨
      ∃ dir ∈ archive.listChangeDirs, dir ∉ removed ∧ isBundleOf runtime archive changeId dir = true := by
  rw [hasArchiveBundle_iff, without_isThere, without_listChangeDirs]
  refine or_congr Iff.rfl ⟨?_, ?_⟩
  · rintro ⟨dir, member, found⟩
    obtain ⟨listed, kept⟩ := List.mem_filter.mp member
    have here := of_decide_eq_true kept
    exact ⟨dir, listed, here, isBundleOf_without dir here ▸ found⟩
  · rintro ⟨dir, listed, kept, found⟩
    exact ⟨dir, List.mem_filter.mpr ⟨listed, decide_eq_true kept⟩, (isBundleOf_without dir kept).symm ▸ found⟩

theorem hasArchiveBundle_of_without (held : (archive.without removed).hasArchiveBundle runtime changeId = true) :
    archive.hasArchiveBundle runtime changeId = true := by
  rw [without_hasArchiveBundle] at held
  refine hasArchiveBundle_iff.mpr (held.imp And.right ?_)
  rintro ⟨dir, listed, _, found⟩
  exact ⟨dir, listed, found⟩

theorem OwnBundle.kept (own : OwnBundle runtime archive owner changeId)
    (foreign : ∀ dir ∈ removed, Foreign runtime archive owner dir) :
    (archive.without removed).hasArchiveBundle runtime changeId = true := by
  refine without_hasArchiveBundle.mpr ?_
  cases own with
  | inl plain => exact .inl ⟨fun gone => plain.2 (foreign changeId gone), plain.1⟩
  | inr other =>
    obtain ⟨rfl, dir, listed, found⟩ := other
    refine .inr ⟨dir, listed, fun gone => ?_, found⟩
    obtain ⟨bundle, loads, sameId⟩ := isBundleOf_id found
    obtain ⟨loaded, loadsToo, differs⟩ := foreign dir gone
    obtain rfl := Option.some.inj (loads.symm.trans loadsToo)
    exact differs sameId

theorem ownBundle_of_kept (kept : ∀ removed, (∀ dir ∈ removed, Foreign runtime archive owner dir) →
    (archive.without removed).hasArchiveBundle runtime changeId = true) :
    OwnBundle runtime archive owner changeId := by
  classical
  have held := kept ((changeId :: archive.listChangeDirs).filter fun dir => Foreign runtime archive owner dir)
    fun dir member => of_decide_eq_true (List.mem_filter.mp member).2
  have stays : ∀ dir ∈ changeId :: archive.listChangeDirs,
      dir ∉ (changeId :: archive.listChangeDirs).filter (fun dir => Foreign runtime archive owner dir) →
        ¬ Foreign runtime archive owner dir :=
    fun dir member absent foreign => absent (List.mem_filter.mpr ⟨member, decide_eq_true foreign⟩)
  rcases without_hasArchiveBundle.mp held with ⟨kept, there⟩ | ⟨dir, listed, kept, found⟩
  · exact .inl ⟨there, stays changeId List.mem_cons_self kept⟩
  · obtain ⟨bundle, loads, sameId⟩ := isBundleOf_id found
    have native := stays dir (List.mem_cons_of_mem _ listed) kept
    refine .inr ⟨?_, dir, listed, found⟩
    by_contra differ
    exact native ⟨bundle, loads, fun same => differ (JsVal.str.inj (sameId.symm.trans same))⟩

theorem find_archived_without (foreign : ∀ dir ∈ removed, Foreign runtime archive owner dir) :
    (((archive.without removed).archivedChanges runtime).find? fun change => change.get "id" = .str owner) =
      (archive.archivedChanges runtime).find? fun change => change.get "id" = .str owner := by
  unfold RecordDirectory.archivedChanges
  rw [without_listChangeDirs]
  induction archive.listChangeDirs with
  | nil => rfl
  | cons dir dirs ih =>
    by_cases gone : dir ∈ removed
    · obtain ⟨bundle, loads, differs⟩ := foreign dir gone
      rw [List.filter_cons_of_neg (by simpa using gone), ih, List.filterMap_cons]
      simp only [loads]
      by_cases archived : bundle.get "status" = archivedText
      · rw [List.filter_cons_of_pos (by simpa using archived), List.find?_cons_of_neg (by simpa using differs)]
      · rw [List.filter_cons_of_neg (by simpa using archived)]
    · rw [List.filter_cons_of_pos (by simpa using gone), List.filterMap_cons, List.filterMap_cons, without_load,
        if_neg gone]
      cases (archive.load runtime dir).change? with
      | none => exact ih
      | some bundle =>
        by_cases archived : bundle.get "status" = archivedText
        · rw [List.filter_cons_of_pos (by simpa using archived), List.filter_cons_of_pos (by simpa using archived),
            List.find?_cons, List.find?_cons, ih]
        · rw [List.filter_cons_of_neg (by simpa using archived), List.filter_cons_of_neg (by simpa using archived), ih]

end

/-! ## Bundles that fit -/

section

variable {runtime : LookupRuntime} {store : StoreDirectories} {changeId id : String}

theorem loadResolved_congr {other : StoreDirectories} {otherId : String} (sameChanges : other.changes = store.changes)
    (sameHeld : ∀ change, (store.changes.load runtime id).change? = some change → change.get "status" ≠ archivedText →
        (other.archive.hasArchiveBundle runtime otherId = store.archive.hasArchiveBundle runtime changeId)) :
    loadResolved runtime other otherId id = loadResolved runtime store changeId id := by
  cases loads : (store.changes.load runtime id).change? with
  | none =>
    have here := @loadResolved_of_absent runtime store changeId id loads store.archive
    have there := @loadResolved_of_absent runtime other otherId id (sameChanges ▸ loads) other.archive
    exact there.trans ((congrArg (fun changes => RecordDirectory.load runtime changes id) sameChanges).trans here.symm)
  | some change =>
    rw [loadResolved_of_change loads, loadResolved_of_change (sameChanges ▸ loads)]
    by_cases live : change.get "status" ≠ archivedText
    · rw [sameHeld change loads live]
    · rw [if_neg fun both => live both.1, if_neg fun both => live both.1]

theorem closedOrMissing_status : reportedStatus (closedOrMissing runtime store changeId) ≠ some archivedText := by
  unfold closedOrMissing
  split
  · next closed _ =>
    by_cases isClosed : closed.get "status" = closedText
    · simp [isClosed, reportedStatus, LoadResult.change?, closedText, archivedText]
    · simp [isClosed, reportedStatus, LoadResult.change?, noChangeFound]
  · simp [reportedStatus, LoadResult.change?, noChangeFound]

theorem loadUnresolved_status {archived : JsVal}
    (found : ((store.archive.archivedChanges runtime).find? fun change => change.get "id" = .str changeId) =
      some archived) : reportedStatus (loadUnresolved runtime store changeId) = some archivedText ↔
      store.archive.hasArchiveBundle runtime changeId = true := by
  by_cases held : store.archive.hasArchiveBundle runtime changeId = true
  · simp [loadUnresolved, held, found, reportedStatus, LoadResult.change?]
  · refine iff_of_false ?_ held
    rw [loadUnresolved, if_neg held]
    exact closedOrMissing_status

theorem loadUnresolved_none
    (missing : ((store.archive.archivedChanges runtime).find? fun change => change.get "id" = .str changeId) = none) :
    loadUnresolved runtime store changeId = closedOrMissing runtime store changeId := by
  simp [loadUnresolved, missing]

theorem Transparent.bundlesFit (transparent : Transparent runtime store changeId) :
    BundlesFit runtime store changeId := by
  refine ⟨fun id change resolved loads live => ⟨?_, fun held => ?_⟩, fun unresolved present held => ?_⟩
  · have same := transparent.full id resolved
    rw [get_resolved resolved, get_full resolved] at same
    have here := @reportedStatus_archived runtime store changeId id change loads live
    have there := @reportedStatus_archived runtime store id id change loads live
    rw [same] at here
    exact Bool.eq_iff_iff.mpr (here.symm.trans there)
  · refine ownBundle_of_kept fun removed foreign => ?_
    have same := transparent.unaffected removed ((askedId_resolved resolved).symm ▸ foreign)
    rw [get_resolved resolved, @get_resolved runtime (store.withoutBundles removed) changeId id resolved] at same
    have shown := (reportedStatus_archived loads live).mpr held
    exact (@reportedStatus_archived runtime (store.withoutBundles removed) changeId id change loads live).mp (same.trans shown)
  · refine ownBundle_of_kept fun removed foreign => ?_
    have same := transparent.unaffected removed ((askedId_unresolved unresolved).symm ▸ foreign)
    rw [get_unresolved unresolved, @get_unresolved runtime (store.withoutBundles removed) changeId unresolved] at same
    cases found : (store.archive.archivedChanges runtime).find? fun change => change.get "id" = .str changeId with
    | none =>
      obtain ⟨change, member, sameId⟩ := present
      have differs := List.find?_eq_none.mp found change member
      simp [sameId] at differs
    | some archived =>
      have shown := (loadUnresolved_status found).mpr held
      have foundToo := (find_archived_without foreign).trans found
      exact (@loadUnresolved_status runtime (store.withoutBundles removed) changeId archived foundToo).mp (same.trans shown)

theorem BundlesFit.transparent (fit : BundlesFit runtime store changeId) : Transparent runtime store changeId := by
  refine ⟨fun id resolved => ?_, fun removed foreign => ?_⟩
  · rw [get_resolved resolved, get_full resolved]
    exact loadResolved_congr rfl fun change loads live => (fit.resolved id change resolved loads live).1
  · obtain ⟨id, resolved⟩ | unresolved | ⟨first, second, more, ambiguous⟩ :=
      resolveIn_cases runtime store.changes changeId
    · rw [get_resolved resolved, @get_resolved runtime (store.withoutBundles removed) changeId id resolved]
      rw [askedId_resolved resolved] at foreign
      have same : loadResolved runtime (store.withoutBundles removed) changeId id =
          loadResolved runtime store changeId id := by
        refine loadResolved_congr rfl fun change loads live => Bool.eq_iff_iff.mpr ?_
        have own := (fit.resolved id change resolved loads live).2
        exact ⟨hasArchiveBundle_of_without, fun held => (own held).kept foreign⟩
      rw [same]
    · rw [get_unresolved unresolved, @get_unresolved runtime (store.withoutBundles removed) changeId unresolved]
      rw [askedId_unresolved unresolved] at foreign
      have without := @find_archived_without runtime store.archive removed changeId foreign
      cases found : (store.archive.archivedChanges runtime).find? fun change => change.get "id" = .str changeId with
      | none =>
        rw [loadUnresolved_none found,
          @loadUnresolved_none runtime (store.withoutBundles removed) changeId (without.trans found)]
        rfl
      | some archived =>
        have present := List.mem_of_find?_eq_some found
        have sameId : archived.get "id" = .str changeId := by simpa using List.find?_some found
        by_cases held : store.archive.hasArchiveBundle runtime changeId = true
        · have kept := (fit.unresolved unresolved ⟨archived, present, sameId⟩ held).kept foreign
          rw [(loadUnresolved_status found).mpr held]
          exact (@loadUnresolved_status runtime (store.withoutBundles removed) changeId archived (without.trans found)).mpr kept
        · have heldNot : ¬ (store.withoutBundles removed).archive.hasArchiveBundle runtime changeId = true :=
            fun kept => held (hasArchiveBundle_of_without kept)
          rw [loadUnresolved, loadUnresolved, if_neg held, if_neg heldNot]
          rfl
    · have ambiguousToo : resolveIn runtime (store.withoutBundles removed).changes changeId =
          ⟨none, first :: second :: more⟩ := ambiguous
      simp [StoreDirectories.get, ambiguous, ambiguousToo]

end

theorem transparent_iff (runtime : LookupRuntime) (store : StoreDirectories) (changeId : String) :
    Transparent runtime store changeId ↔ BundlesFit runtime store changeId :=
  ⟨Transparent.bundlesFit, BundlesFit.transparent⟩

/-! ## Fixed runs -/

def changeOf (id status : String) : JsVal :=
  .obj [("id", .str id), ("title", .str id), ("status", .str status), ("created_at", .str "2026-01-01T00:00:00.000Z"),
    ("tasks", .arr []), ("deltas", .obj [])]

def oneRecord (path dir id status : String) : RecordDirectory where
  path := path
  listing := .entries [⟨dir, true⟩]
  file := fun name => if name = dir then .ofJson (changeOf id status) else .absent

def draftAndBundle (bundleDir bundleId : String) : StoreDirectories where
  changes := oneRecord "/store/changes" "addSearch" "addSearch" "draft"
  archive := oneRecord "/store/archive" bundleDir bundleId "archived"
  closed := ⟨"/store/closed", .noEntry, fun _ => .absent⟩

def asciiLookup : LookupRuntime := ⟨.permissive, fun text => String.ofList (text.toList.map Char.toLower)⟩

/-- Under its full id the change is archived by its bundle, under its first letters it is a draft; and under the id
of another change that has a bundle it is archived by that bundle. -/
theorem partial_id_misses_bundle :
    ¬ Transparent asciiLookup (draftAndBundle "2026-01-02-addSearch" "addSearch") "add" ∧
      ¬ Transparent asciiLookup (draftAndBundle "add" "add") "add" := by
  constructor
  · intro transparent
    have same := congrArg reportedStatus (transparent.full "addSearch" (by rfl))
    exact absurd same (by decide +kernel)
  · intro transparent
    have same := congrArg reportedStatus (transparent.full "addSearch" (by rfl))
    exact absurd same (by decide)

end Advance.Storage
