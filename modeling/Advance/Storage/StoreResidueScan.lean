import Advance.JavaScript.Collections
import Advance.JavaScript.Path
import Advance.Storage.ProjectionHealth
import Advance.Tools.EpicEntries

/-! # The residue of a store

The bounded scan of a store: the records of its changes and archive, of its quarantine, and
what is in its root that no path of the store accounts for.
-/

namespace Advance.Storage

open Advance.JavaScript Advance.Types Advance.Tools

/-! ## Classes -/

inductive ResidueClass where
  | schemaDriftRetiredEnum
  | summaryPointerMissing
  | summaryPointerStale
  | legacyDivergentBehind
  | legacyNewerThanCanonical
  | unmigratedArtifactMetadata
  | unmigratedWorktreeMarker
  | epicOwnerMissing
  | epicOwnerForeign
  | epicEntryMissing
  | quarantinedRecord
  | unknownStoreNoise
  | storeArtifactMissing
  | healthy
  deriving DecidableEq

structure Signal where
  residueClass : ResidueClass
  evidence : String

structure StoreResidueRecord where
  recordId : String
  sourcePath : String
  residueClass : ResidueClass
  alsoMatches : List ResidueClass
  evidence : List String
  deriving DecidableEq

def PRIMARY_PRECEDENCE : List ResidueClass :=
  [.schemaDriftRetiredEnum, .summaryPointerMissing, .summaryPointerStale, .legacyDivergentBehind,
   .legacyNewerThanCanonical, .unmigratedArtifactMetadata, .unmigratedWorktreeMarker, .epicOwnerMissing,
   .epicOwnerForeign, .epicEntryMissing, .quarantinedRecord, .unknownStoreNoise, .storeArtifactMissing, .healthy]

/-- The signals with the first of each class kept. -/
def uniqueSignals (signals : List Signal) : List Signal :=
  signals.foldl (fun unique signal =>
      if unique.any fun other => other.residueClass = signal.residueClass then unique else unique ++ [signal]) []

def healthySignal : Signal := ⟨.healthy, "canonical projection is readable and all residue checks passed"⟩

def signalsToRecord (recordId sourcePath : String) (signals : List Signal) : StoreResidueRecord :=
  let unique := if (uniqueSignals signals).isEmpty then [healthySignal] else uniqueSignals signals
  let has := fun candidate => unique.any fun signal => decide (signal.residueClass = candidate)
  let className := (PRIMARY_PRECEDENCE.find? has).getD .healthy
  { recordId := recordId
    sourcePath := sourcePath
    residueClass := className
    alsoMatches := PRIMARY_PRECEDENCE.filter fun candidate => decide (candidate ≠ className) && has candidate
    evidence := unique.map Signal.evidence }

/-! ## Retired evidence -/

def RETIRED_EVIDENCE_VALUES : List String := ["build_worker", "replay_determinism"]

/-- The evidence one entry of an object gives by itself. -/
def retiredEvidence (key : String) (nested : JsVal) : List String :=
  match nested with
  | .str text =>
    if key = "evidence_kind" ∧ text ∈ RETIRED_EVIDENCE_VALUES then [s!"evidence_kind={text} not in current enum"]
    else []
  | _ => []

mutual
def collectRetiredEvidence : JsVal → List String
  | .arr values => collectRetiredList values
  | .obj entries => collectRetiredEntries entries
  | _ => []

def collectRetiredList : List JsVal → List String
  | [] => []
  | value :: rest => collectRetiredEvidence value ++ collectRetiredList rest

def collectRetiredEntries : List (String × JsVal) → List String
  | [] => []
  | (key, nested) :: rest =>
    retiredEvidence key nested ++ collectRetiredEvidence nested ++ collectRetiredEntries rest
end

/-! ## The store -/

/-- The directories of one kind of Epic projection, and the projection under each name. -/
structure EpicDirectory (α : Type) where
  listing : Listing
  load : String → Except String (Option α)

/-- What a scan can ask for. -/
structure ResidueStore where
  changes : Listing
  archive : Listing
  quarantine : Listing
  root : Listing
  activeEpics : EpicDirectory Epic
  retiredEpics : EpicDirectory RetiredEpicProjection
  files : Files
  accessible : String → Bool

structure ProjectPaths where
  changes : String
  summariesDir : String
  archive : String
  closed : String
  activeEpics : String
  retiredEpics : String
  wisdom : String
  reflections : String
  projectMetadata : String
  artifactMetadataMigrationMarker : String
  snapshotRepairAudit : String
  quarantineChanges : String
  reconcileDir : String

def ProjectPaths.summaryIndex (paths : ProjectPaths) : SummaryIndexPaths := ⟨paths.changes, paths.summariesDir⟩

/-- `base` with the locale's order of texts and the working directory. -/
structure ResidueRuntime where
  base : Runtime
  localeCompare : String → String → Ordering
  workingDirectory : String

/-- `path.dirname(path)` -/
def dirname (path : String) : String :=
  match (path.toList.reverse.dropWhile (· = '/')).dropWhile (· ≠ '/') with
  | [] => if path.toList.head? = some '/' then "/" else "."
  | _ :: [] => "/"
  | _ :: parent => String.ofList parent.reverse

def isAbsolute (path : String) : Bool := path.toList.head? = some '/'

/-- The names that lead from one place to another. -/
def relativeNames : List (List Char) → List (List Char) → List (List Char)
  | here :: source, there :: target =>
    if here = there then relativeNames source target
    else (here :: source).map (fun _ => ['.', '.']) ++ there :: target
  | source, target => source.map (fun _ => ['.', '.']) ++ target

/-- `path.relative(source, target)` -/
def relative (workingDirectory source target : String) : String :=
  String.ofList (['/'].intercalate
    (relativeNames (resolvedNames workingDirectory source) (resolvedNames workingDirectory target)))

def isUnder (workingDirectory path parent : String) : Bool :=
  let rel := (relative workingDirectory parent path).toList
  rel = [] || (rel ≠ "..".toList && !"../".toList.isPrefixOf rel && !"..\\".toList.isPrefixOf rel)

section

variable (runtime : ResidueRuntime)

/-- A listing in the locale's order; one that fails is empty. -/
def listEntries (listing : Listing) : List DirEntry :=
  match listing with
  | .entries entries =>
    entries.insertionSort fun left right => (runtime.localeCompare left.name right.name).isLE = true
  | .noEntry | .failed _ => []

def epicBefore (left right : Epic) : Bool :=
  ((runtime.localeCompare right.created_at left.created_at).then (runtime.localeCompare left.id right.id)).isLE

/-- `listActiveEpicProjections` and `listRetiredEpicProjections`: what loads, in order. -/
def listEpicProjections {α : Type} (snapshot : α → Epic) (directory : EpicDirectory α) : Except String (List Epic) :=
  match directory.listing with
  | .noEntry => .ok []
  | .failed error => .error error
  | .entries entries =>
    let loaded := (entries.filter DirEntry.isDirectory).filterMap fun entry =>
      match directory.load entry.name with
      | .ok (some projection) => some (snapshot projection)
      | .ok none | .error _ => none
    .ok (loaded.insertionSort fun left right => epicBefore runtime left right = true)

structure IndexedEpic where
  entries : List EpicEntry
  retired : Bool

/-- Active Epics, then retired ones under the same ids; a failing listing counts as empty. -/
def epicIndex (store : ResidueStore) : List (String × IndexedEpic) :=
  let indexed := fun (retired : Bool) (listed : Except String (List Epic)) =>
    (listed.toOption.getD []).map fun epic => (epic.id, IndexedEpic.mk epic.entries retired)
  fromEntries (indexed false (listEpicProjections runtime id store.activeEpics) ++
      indexed true (listEpicProjections runtime RetiredEpicProjection.epic_snapshot store.retiredEpics))

end

/-! ## Canonical records -/

inductive JsonRead where
  | ok (value : JsVal)
  | missing (reason : String)
  | corrupt (reason : String)

def readJson (file : FileState) : JsonRead :=
  match readBoundedProjectionDocument file none with
  | .notFound => .missing "projection not found"
  | .oversized limit _ => .corrupt s!"projection exceeds {limit} bytes"
  | .corrupt error => .corrupt s!"corrupt: {error}"
  | .unreadable error => .corrupt s!"unreadable: {error}"
  | .ok content =>
    match content.json with
    | .ok value => .ok value
    | .error error => .corrupt s!"JSON parse failed: {error}"

structure AutoManagedCensus where
  auto : Nat
  legacy : Nat
  unmigrated : Nat

def computeAutoManagedCensus (markers : List (Option Bool)) : AutoManagedCensus :=
  ⟨markers.count (some true), markers.count (some false), markers.count none⟩

def markerOf : JsVal → Option Bool
  | .bool marker => some marker
  | _ => none

section

variable (runtime : ResidueRuntime) (paths : ProjectPaths) (store : ResidueStore) (localProjectId : Option String)

def summarySignals (id : String) : List Signal :=
  let disk : Disk Files := ⟨store.files (changePath paths.changes id), store.files⟩
  match readCurrentSummaryShard runtime.base paths.summaryIndex id disk .none with
  | .ok (.degraded reason) =>
    [⟨if includes reason "missing current summary pointer" then .summaryPointerMissing else .summaryPointerStale,
      reason⟩]
  | .ok .notFound => [⟨.summaryPointerMissing, "no current summary pointer"⟩]
  | .ok (.ok _ _ _) => []
  | .error error => [⟨.summaryPointerStale, s!"summary pointer read failed: {error}"⟩]

def legacySignals (id : String) (document : JsVal) : List Signal :=
  match extractProjectionCounters document, readLegacyCounters paths.changes id store.files with
  | some canonical, .ok counters =>
    let direction := compareProjectionCounters counters canonical
    let revision := runtime.base.numberText canonical.projectionRevision
    if direction < 0 then
      [⟨.legacyDivergentBehind, s!"envelope counters < canonical revision {revision}"⟩]
    else if 0 < direction then
      [⟨.legacyNewerThanCanonical, s!"envelope counters > canonical revision {revision}"⟩]
    else []
  | _, .degraded reason => [⟨.quarantinedRecord, s!"legacy envelope unreadable: {reason}"⟩]
  | _, _ => []

def artifactSignal (sourcePath kind : String) (metadata : JsVal) : List Signal :=
  match metadata with
  | .obj _ =>
    (if metadata.get "source" = .str "temporal" then
      [⟨.unmigratedArtifactMetadata, s!"artifacts.{kind}.source=temporal requires migration"⟩]
    else []) ++
    match metadata.get "path" with
    | .str path =>
      let artifactPath := if isAbsolute path then path else join [dirname sourcePath, path]
      if store.accessible artifactPath then []
      else [⟨.storeArtifactMissing, s!"artifact {kind} missing at {artifactPath}"⟩]
    | _ => []
  | _ => []

def artifactSignals (sourcePath : String) (raw : JsVal) : List Signal :=
  match raw.get "artifacts" with
  | .obj artifacts => artifacts.flatMap fun (kind, metadata) => artifactSignal store sourcePath kind metadata
  | _ => []

def markerSignals (raw : JsVal) : List Signal :=
  if 0 < (computeAutoManagedCensus [markerOf (raw.get "worktree_auto_managed")]).unmigrated then
    [⟨.unmigratedWorktreeMarker, "worktree_auto_managed marker absent"⟩]
  else []

/-- An owner in another project, by the texts of both ids. -/
def foreignOwner (membership : JsVal) : Bool :=
  match membership.get "epic_project_id", localProjectId with
  | .str epicProjectId, some local_ => epicProjectId ≠ "" && epicProjectId ≠ local_
  | _, _ => false

def textOf : JsVal → Option String
  | .str text => some text
  | _ => none

def membershipSignals (id : String) (membership : JsVal) : List Signal :=
  match membership.get "epic_id" with
  | .str epicId =>
    if foreignOwner localProjectId membership then
      let epicProjectId := (membership.get "epic_project_id").textD ""
      [⟨.epicOwnerForeign, s!"epic_membership references foreign epic project {epicProjectId}"⟩]
    else
      match mapGet (epicIndex runtime store) epicId with
      | none => [⟨.epicOwnerMissing, s!"epic_membership references missing epic {epicId}"⟩]
      | some epic =>
        let entry := findChangeEntry epic.entries (.entryIdOrChangeId (textOf (membership.get "entry_id")) id)
        if !epic.retired && entry.isNone then
          [⟨.epicEntryMissing, s!"epic_membership has no matching entry in active epic {epicId}"⟩]
        else []
  | _ => []

def classifyCanonical (id sourcePath : String) : StoreResidueRecord :=
  match readJson (store.files sourcePath) with
  | .missing reason | .corrupt reason =>
    signalsToRecord id sourcePath [⟨.quarantinedRecord, s!"bounded read failed: {reason}"⟩]
  | .ok raw =>
    match raw with
    | .obj _ =>
      let normalized := normalizeProjectionDocument raw
      let validation := ChangeSchema runtime.base.fields normalized
      signalsToRecord id sourcePath ((collectRetiredEvidence raw).map (⟨.schemaDriftRetiredEnum, ·⟩) ++
          (if validation.toOption.isNone then
            [⟨.quarantinedRecord, "projection failed current ChangeSchema validation"⟩] else []) ++
          summarySignals runtime paths store id ++
          legacySignals runtime paths store id (validation.toOption.getD normalized) ++
          artifactSignals store sourcePath raw ++ markerSignals raw ++
          membershipSignals runtime store localProjectId id (raw.get "epic_membership"))
    | _ => signalsToRecord id sourcePath [⟨.quarantinedRecord, "projection root is not an object"⟩]

/-! ## Entries -/

/-- `entry.name.slice(0, -5)` for a name that ends so. -/
def withoutJson (name : String) : Option String :=
  if ".json".toList <:+ name.toList then some (String.ofList (name.toList.take (name.length - ".json".length)))
  else none

def canonicalEntry (parent : String) (entry : DirEntry) : Option StoreResidueRecord :=
  let entryPath := join [parent, entry.name]
  if entry.isDirectory then
    some (classifyCanonical runtime paths store localProjectId entry.name (join [parent, entry.name, "change.json"]))
  else
    match withoutJson entry.name with
    | some id =>
      if store.accessible (join [parent, id]) then none
      else some (signalsToRecord s!"legacy:{entry.name}" entryPath
        [⟨.quarantinedRecord, "legacy envelope has no canonical record"⟩])
    | none => some (signalsToRecord (relative runtime.workingDirectory (dirname parent) entryPath) entryPath
        [⟨.unknownStoreNoise, "non-record entry in store path"⟩])

def quarantineEntry (entry : DirEntry) : Option StoreResidueRecord :=
  some (signalsToRecord s!"quarantine:{entry.name}" (join [paths.quarantineChanges, entry.name])
    [⟨.quarantinedRecord, "record is present under the quarantine store"⟩])

def configured (storeRoot : String) : List String :=
  [paths.changes, paths.summariesDir, paths.archive, paths.closed, paths.activeEpics, paths.retiredEpics,
   paths.wisdom, paths.reflections, paths.projectMetadata, paths.artifactMetadataMigrationMarker,
   paths.snapshotRepairAudit, paths.quarantineChanges, paths.reconcileDir,
   join [storeRoot, "active-launcher-state.json"]]

def noiseEntry (entry : DirEntry) : Option StoreResidueRecord :=
  let storeRoot := dirname paths.changes
  let candidate := join [storeRoot, entry.name]
  if (configured paths storeRoot).any fun path =>
      decide (path = candidate) || isUnder runtime.workingDirectory path candidate then none
  else some (signalsToRecord s!"noise:{entry.name}" candidate
    [⟨.unknownStoreNoise, "unknown non-record store entry"⟩])

end

/-! ## One call -/

def RECONCILE_START_CURSOR : String := "__reconcile_start__"

structure StoreResidueScanOptions where
  maxRecords : Option JsNumber
  resumeAfter : Option String
  localProjectId : Option String

/-- Whether the deadline has passed, at each look at the clock; it does not come back. -/
structure Budget where
  expired : Nat → Bool
  stays : ∀ i j, i ≤ j → expired i = true → expired j = true

/-- `budgetMs` left out. -/
def Budget.unlimited : Budget := ⟨fun _ => false, fun _ _ _ past => past⟩

structure ScanState where
  records : List StoreResidueRecord
  counters : ResidueClass → Nat
  pastResumeCursor : Bool
  resumeCursorFound : Bool
  looks : Nat

structure StoreResidueScan where
  records : List StoreResidueRecord
  counters : ResidueClass → Nat
  scanned : Nat
  omitted : Nat
  truncated : Bool
  budgetExceeded : Bool
  continuationCursor : Option String
  resumeCursorFound : Bool

/-- `Math.max(1, Math.floor(options.maxRecords ?? Number.MAX_SAFE_INTEGER))` -/
def StoreResidueScanOptions.limit (options : StoreResidueScanOptions) : Nat :=
  max 1 (options.maxRecords.getD Schema.maxSafeInteger).floor.toNat

/-- A scan that starts with the first record. -/
def StoreResidueScanOptions.fromStart (options : StoreResidueScanOptions) : Bool :=
  options.resumeAfter.all (· = RECONCILE_START_CURSOR)

def ScanState.start (options : StoreResidueScanOptions) : ScanState :=
  ⟨[], fun _ => 0, options.fromStart, options.fromStart, 0⟩

section

variable (options : StoreResidueScanOptions) (budget : Budget)

def shouldStop (state : ScanState) : Bool :=
  decide (options.limit ≤ state.records.length) || budget.expired state.looks

def ScanState.add (state : ScanState) (record : StoreResidueRecord) : ScanState :=
  if !state.pastResumeCursor then
    if options.resumeAfter = some record.recordId then
      { state with pastResumeCursor := true, resumeCursorFound := true }
    else state
  else if options.limit ≤ state.records.length then state
  else
    { state with
      records := state.records ++ [record]
      counters := Function.update state.counters record.residueClass (state.counters record.residueClass + 1) }

/-- One loop over entries, with the record of each where it has one; it ends where the scan stops. -/
def enumerate {α : Type} (recordOf : α → Option StoreResidueRecord) : List α → ScanState → ScanState
  | [], state => state
  | entry :: rest, state =>
    let looked := { state with looks := state.looks + 1 }
    if shouldStop options budget state then looked
    else
      match recordOf entry with
      | none => enumerate recordOf rest looked
      | some record => enumerate recordOf rest (looked.add options record)

variable (runtime : ResidueRuntime) (paths : ProjectPaths) (store : ResidueStore)

def canonicalEntries : List (String × DirEntry) :=
  (listEntries runtime store.changes).map (paths.changes, ·) ++
    (listEntries runtime store.archive).map (paths.archive, ·)

def enumerateCanonicalRecords (state : ScanState) : ScanState :=
  enumerate options budget
    (fun (parent, entry) => canonicalEntry runtime paths store options.localProjectId parent entry)
    (canonicalEntries runtime paths store) state

def enumerateQuarantine (state : ScanState) : ScanState :=
  enumerate options budget (quarantineEntry paths) (listEntries runtime store.quarantine) state

def enumerateUnknownStoreNoise (state : ScanState) : ScanState :=
  enumerate options budget (noiseEntry runtime paths) (listEntries runtime store.root) state

def runStoreResidueScan : StoreResidueScan :=
  let state := enumerateUnknownStoreNoise options budget runtime paths store
    (enumerateQuarantine options budget runtime paths store
      (enumerateCanonicalRecords options budget runtime paths store (.start options)))
  let budgetExceeded := budget.expired state.looks
  let missingResumeCursor := options.resumeAfter.isSome && !state.resumeCursorFound
  let full := decide (options.limit ≤ state.records.length)
  let truncated := missingResumeCursor || budgetExceeded || full
  { records := state.records
    counters := state.counters
    scanned := state.records.length
    omitted := if truncated then 1 else 0
    truncated := truncated
    budgetExceeded := budgetExceeded
    continuationCursor :=
      if full || budgetExceeded then
        some ((state.records.getLast?.map StoreResidueRecord.recordId).getD RECONCILE_START_CURSOR)
      else none
    resumeCursorFound := state.resumeCursorFound }

end

end Advance.Storage
