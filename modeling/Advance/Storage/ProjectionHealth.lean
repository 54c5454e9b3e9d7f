import Advance.Storage.LauncherProjection

/-! # Comparing the projections of a change

The counters of a canonical projection against those of its retired flat envelope and of its
current summary shard.
-/

namespace Advance.Storage

open Advance.JavaScript

/-! ## Counters -/

structure ProjectionCounters where
  projectionRevision : JsNumber
  stateRevision : JsNumber
  taskCount : JsNumber
  deriving DecidableEq

def extractProjectionCounters (value : JsVal) : Option ProjectionCounters :=
  match value with
  | .obj _ => some
      { projectionRevision := (value.get "projection_revision").numberD 0
        stateRevision := (value.get "state_revision").numberD 0
        taskCount := (value.get "tasks").elements.length }
  | _ => none

/-- The first counter that differs decides. -/
def compareCounters (left right : ProjectionCounters) : List (ProjectionCounters → JsNumber) → Int
  | [] => 0
  | key :: rest =>
    if key left ≠ key right then if key right < key left then 1 else -1
    else compareCounters left right rest

def compareProjectionCounters (left right : ProjectionCounters) : Int :=
  compareCounters left right [ProjectionCounters.projectionRevision, ProjectionCounters.stateRevision, ProjectionCounters.taskCount]

inductive LegacyRead where
  | missing
  | ok (counters : ProjectionCounters)
  | degraded (reason : String)

def legacyCounters (parsed : JsVal) : LegacyRead :=
  match extractProjectionCounters ((parsed.get "state").orElse parsed) with
  | some counters => .ok counters
  | none => .degraded "legacy envelope has no state object"

def readLegacyCounters (changesDir changeId : String) (files : Files) : LegacyRead :=
  match readBoundedProjectionDocument (files (join [changesDir, changeId ++ ".json"])) none with
  | .notFound => .missing
  | .ok content =>
    match content.json with
    | .ok parsed => legacyCounters parsed
    | .error error => .degraded s!"legacy envelope parse failed: {error}"
  | refused =>
    let kind := refused.kind
    .degraded s!"legacy envelope {kind}"

/-! ## Divergences -/

inductive CanonicalProjectionFailureType where
  | notFound
  | schemaError
  | readError
  | oversized
  | corrupt
  | unreadable
  | counterExtraction
  deriving DecidableEq

def CanonicalProjectionFailureType.name : CanonicalProjectionFailureType → String
  | notFound => "not_found"
  | schemaError => "schema_error"
  | readError => "read_error"
  | oversized => "oversized"
  | corrupt => "corrupt"
  | unreadable => "unreadable"
  | counterExtraction => "counter_extraction"

def LoadFailureType.canonical : LoadFailureType → CanonicalProjectionFailureType
  | notFound => .notFound
  | schemaError => .schemaError
  | readError => .readError
  | oversized => .oversized
  | corrupt => .corrupt
  | unreadable => .unreadable

structure CanonicalProjectionError where
  type : CanonicalProjectionFailureType
  reason : String

structure ProjectionDivergence where
  changeId : String
  canonical : Option ProjectionCounters := none
  canonicalError : Option CanonicalProjectionError := none
  legacy : Option ProjectionCounters := none
  summary : Option ProjectionCounters := none
  reasons : List String

structure ProjectionDivergenceScan where
  divergences : List ProjectionDivergence
  scanned : Nat
  omitted : Nat
  truncated : Bool
  budgetExceeded : Bool

/-- A cap on the changes, and what the clock says before each of them. -/
structure ProjectionDivergenceScanOptions where
  maxChanges : Option Nat
  deadlinePassed : Nat → Bool

def ProjectionDivergenceScanOptions.unbounded : ProjectionDivergenceScanOptions := ⟨none, fun _ => false⟩

def canonicalFailure (changeId : String) (error : CanonicalProjectionError) : ProjectionDivergence :=
  let type := error.type.name
  let reason := error.reason
  { changeId := changeId
    canonicalError := some error
    reasons := [s!"canonical projection {type}: {reason}"] }

/-- What is in the changes directory, whether it can be listed, and the files of the store. -/
structure StoreContent where
  changeEntries : List DirEntry
  listable : Bool
  files : Files

def isChangeDir (entry : DirEntry) : Bool := entry.isDirectory && !(".".toList.isPrefixOf entry.name.toList)

def StoreContent.changeDirs (store : StoreContent) : List String :=
  (store.changeEntries.filter isChangeDir).map DirEntry.name

/-- The listing of the changes directory; one that fails is empty. -/
def StoreContent.listChangeDirs (store : StoreContent) : List String :=
  if store.listable then store.changeDirs else []

section

variable (runtime : Runtime) (paths : SummaryIndexPaths)

def countersText (counters : ProjectionCounters) : String :=
  let revision := runtime.numberText counters.projectionRevision
  let tasks := runtime.numberText counters.taskCount
  s!"revision {revision}, {tasks} tasks"

def legacyReasons (canonical : ProjectionCounters) : LegacyRead → List String
  | .missing => []
  | .ok counters =>
    if compareProjectionCounters counters canonical < 0 then
      let canonicalText := countersText runtime canonical
      let legacyText := countersText runtime counters
      [s!"legacy envelope is behind or differs (canonical {canonicalText}; legacy {legacyText})"]
    else []
  | .degraded reason => [reason]

def shardCounters (shard : JsVal) : ProjectionCounters :=
  { projectionRevision := (shard.get "projection_revision").numberD 0
    stateRevision := (shard.get "state_revision").numberD 0
    taskCount := (shard.get "task_count").numberD 0 }

def summaryReasons (canonical : ProjectionCounters) : SummaryReadResult → List String
  | .ok shard _ _ =>
    if compareProjectionCounters canonical (shardCounters shard) ≠ 0 then
      let canonicalText := countersText runtime canonical
      let summaryText := countersText runtime (shardCounters shard)
      [s!"summary pointer/shard is behind or differs (canonical {canonicalText}; summary {summaryText})"]
    else []
  | .notFound => ["summary pointer is missing"]
  | .degraded reason => [s!"summary index degraded: {reason}"]

def LegacyRead.counters : LegacyRead → Option ProjectionCounters
  | .ok counters => some counters
  | _ => none

def SummaryReadResult.counters : SummaryReadResult → Option ProjectionCounters
  | .ok shard _ _ => some (shardCounters shard)
  | _ => none

/-- One change of the scan; reading its summary may throw. -/
def checkChange (files : Files) (changeId : String) : Except String (Option ProjectionDivergence) :=
  let file := files (changePath paths.changesDir changeId)
  match loadChange runtime paths.changesDir changeId file none with
  | .failure error type => .ok (some (canonicalFailure changeId ⟨type.canonical, error⟩))
  | .success none =>
    .ok (some (canonicalFailure changeId ⟨.notFound, "canonical change projection is missing"⟩))
  | .success (some change) =>
    match extractProjectionCounters change with
    | none =>
      .ok (some (canonicalFailure changeId ⟨.counterExtraction, "canonical projection counters are unavailable"⟩))
    | some canonical => do
      let legacy := readLegacyCounters paths.changesDir changeId files
      let summary ← readCurrentSummaryShard runtime paths changeId ⟨file, files⟩ .none
      let reasons := legacyReasons runtime canonical legacy ++ summaryReasons runtime canonical summary
      .ok <|
        if reasons.isEmpty then none
        else some
          { changeId := changeId
            canonical := some canonical
            legacy := legacy.counters
            summary := summary.counters
            reasons := reasons }

/-- The divergences of the candidates, how many were scanned, and whether time ran out. -/
def scanCandidates (files : Files) (deadlinePassed : Nat → Bool) :
    Nat → List String → Except String (List ProjectionDivergence × Nat × Bool)
  | scanned, [] => .ok ([], scanned, false)
  | scanned, changeId :: rest =>
    if deadlinePassed scanned then .ok ([], scanned, true)
    else do
      let divergence ← checkChange runtime paths files changeId
      let (divergences, scanned, budgetExceeded) ← scanCandidates files deadlinePassed (scanned + 1) rest
      .ok (divergence.toList ++ divergences, scanned, budgetExceeded)

def findProjectionDivergences (store : StoreContent) (options : ProjectionDivergenceScanOptions) :
    Except String ProjectionDivergenceScan := do
  let changeIds := store.listChangeDirs
  let candidates := changeIds.take (max 1 (options.maxChanges.getD changeIds.length))
  let (divergences, scanned, budgetExceeded) ←
    scanCandidates runtime paths store.files options.deadlinePassed 0 candidates
  .ok
    { divergences := divergences
      scanned := scanned
      omitted := changeIds.length - scanned
      truncated := decide (scanned < changeIds.length)
      budgetExceeded := budgetExceeded }

end

/-! ## What a check finds -/

variable {left right : ProjectionCounters}

theorem compareCounters_eq_zero {keys : List (ProjectionCounters → JsNumber)} :
    compareCounters left right keys = 0 ↔ ∀ key ∈ keys, key left = key right := by
  induction keys with
  | nil => simp [compareCounters]
  | cons key keys ih =>
    by_cases same : key left = key right
    · simp [compareCounters, same, ih]
    · have decided : compareCounters left right (key :: keys) ≠ 0 := by
        rw [compareCounters, if_pos same]
        split <;> decide
      simp [decided, same]

theorem compareProjectionCounters_eq_zero :
    compareProjectionCounters left right = 0 ↔ left = right := by
  rw [compareProjectionCounters, compareCounters_eq_zero]
  constructor
  · intro same
    cases left
    cases right
    simp only [List.mem_cons, List.not_mem_nil, or_false, forall_eq_or_imp, forall_eq] at same
    obtain ⟨rfl, rfl, rfl⟩ := same
    rfl
  · rintro rfl key _
    rfl

section

variable {runtime : Runtime} {paths : SummaryIndexPaths} {files : Files} {changeId : String}

/-- The retired envelope of a change has higher counters than the change. -/
def LegacyAhead (runtime : Runtime) (paths : SummaryIndexPaths) (files : Files) (changeId : String) : Prop :=
  ∃ change canonical counters,
    loadChange runtime paths.changesDir changeId (files (changePath paths.changesDir changeId)) none =
      .success (some change) ∧
    extractProjectionCounters change = some canonical ∧
    readLegacyCounters paths.changesDir changeId files = .ok counters ∧
    0 < compareProjectionCounters counters canonical

/-- The projections of a change agree: it loads, its summary is current with its counters, and its
    retired envelope, where there is one, has them too. -/
structure Agreeing (runtime : Runtime) (paths : SummaryIndexPaths) (files : Files) (changeId : String)
    (change : JsVal) (canonical : ProjectionCounters) : Prop where
  loaded : loadChange runtime paths.changesDir changeId (files (changePath paths.changesDir changeId)) none =
    .success (some change)
  counted : extractProjectionCounters change = some canonical
  summary : ∃ shard pointer revision,
    readCurrentSummaryShard runtime paths changeId ⟨files (changePath paths.changesDir changeId), files⟩ .none =
      .ok (.ok shard pointer revision) ∧ shardCounters shard = canonical
  legacy : readLegacyCounters paths.changesDir changeId files = .missing ∨
    readLegacyCounters paths.changesDir changeId files = .ok canonical

def ChangeSound (runtime : Runtime) (paths : SummaryIndexPaths) (files : Files) (changeId : String) : Prop :=
  ∃ change canonical, Agreeing runtime paths files changeId change canonical

variable {canonical : ProjectionCounters}

theorem summaryReasons_nil {summary : SummaryReadResult} :
    summaryReasons runtime canonical summary = [] ↔
      ∃ shard pointer revision, summary = .ok shard pointer revision ∧ shardCounters shard = canonical := by
  cases summary with
  | ok shard pointer revision =>
    simp only [summaryReasons, ite_eq_right_iff, List.cons_ne_nil, imp_false, not_not, ne_eq,
      compareProjectionCounters_eq_zero, SummaryReadResult.ok.injEq]
    exact ⟨fun same => ⟨shard, pointer, revision, ⟨rfl, rfl, rfl⟩, same.symm⟩,
      fun ⟨_, _, _, ⟨same, _, _⟩, counted⟩ => by rw [same, counted]⟩
  | notFound => simp [summaryReasons]
  | degraded reason => simp [summaryReasons]

theorem legacyReasons_nil {legacy : LegacyRead} :
    legacyReasons runtime canonical legacy = [] ↔ legacy = .missing ∨ legacy = .ok canonical ∨
        ∃ counters, legacy = .ok counters ∧ 0 < compareProjectionCounters counters canonical := by
  cases legacy with
  | missing => simp [legacyReasons]
  | ok counters =>
    simp only [legacyReasons, ite_eq_right_iff, List.cons_ne_nil, imp_false, not_lt, reduceCtorEq, false_or,
      LegacyRead.ok.injEq]
    rw [← compareProjectionCounters_eq_zero]
    constructor
    · intro least
      rcases eq_or_lt_of_le least with same | more
      · exact .inl same.symm
      · exact .inr ⟨counters, rfl, more⟩
    · rintro (same | ⟨_, rfl, more⟩)
      · exact same.ge
      · exact more.le
  | degraded reason => simp [legacyReasons]

theorem checkChange_none : checkChange runtime paths files changeId = .ok none ↔ ∃ change canonical summary,
        loadChange runtime paths.changesDir changeId (files (changePath paths.changesDir changeId)) none =
          .success (some change) ∧
        extractProjectionCounters change = some canonical ∧
        readCurrentSummaryShard runtime paths changeId ⟨files (changePath paths.changesDir changeId), files⟩ .none =
          .ok summary ∧
        summaryReasons runtime canonical summary = [] ∧
        legacyReasons runtime canonical (readLegacyCounters paths.changesDir changeId files) = [] := by
  cases loaded : loadChange runtime paths.changesDir changeId (files (changePath paths.changesDir changeId)) none with
  | failure error type => simp [checkChange, loaded]
  | success data =>
    cases data with
    | none => simp [checkChange, loaded]
    | some change =>
      cases counted : extractProjectionCounters change with
      | none => simp [checkChange, loaded, counted]
      | some canonical =>
        cases read : readCurrentSummaryShard runtime paths changeId
            ⟨files (changePath paths.changesDir changeId), files⟩ .none with
        | error error => simp [checkChange, loaded, counted, read, bind, Except.bind]
        | ok summary =>
          simp only [checkChange, loaded, counted, read, bind, Except.bind, Except.ok.injEq,
            LoadResult.success.injEq, Option.some.injEq]
          constructor
          · intro without
            split at without
            next empty =>
              obtain ⟨legacy, current⟩ := List.append_eq_nil_iff.mp (List.isEmpty_iff.mp empty)
              exact ⟨change, canonical, summary, rfl, counted, rfl, current, legacy⟩
            · cases without
          · rintro ⟨_, _, _, rfl, same, rfl, current, legacy⟩
            cases counted.symm.trans same
            rw [current, legacy]
            rfl

theorem ChangeSound.unreported (sound : ChangeSound runtime paths files changeId) :
    checkChange runtime paths files changeId = .ok none := by
  obtain ⟨change, canonical, agreeing⟩ := sound
  obtain ⟨shard, pointer, revision, read, counted⟩ := agreeing.summary
  refine checkChange_none.mpr ⟨change, canonical, _, agreeing.loaded, agreeing.counted, read, ?_, ?_⟩
  · exact summaryReasons_nil.mpr ⟨shard, pointer, revision, rfl, counted⟩
  · exact legacyReasons_nil.mpr (agreeing.legacy.imp id .inl)

/-- A change without a divergence is sound, unless its envelope is ahead of it. -/
theorem sound_of_unreported (unreported : checkChange runtime paths files changeId = .ok none)
    (notAhead : ¬LegacyAhead runtime paths files changeId) : ChangeSound runtime paths files changeId := by
  obtain ⟨change, canonical, summary, loaded, counted, read, current, legacy⟩ := checkChange_none.mp unreported
  obtain ⟨shard, pointer, revision, rfl, same⟩ := summaryReasons_nil.mp current
  refine ⟨change, canonical, loaded, counted, ⟨shard, pointer, revision, read, same⟩, ?_⟩
  rcases legacyReasons_nil.mp legacy with missing | agrees | ⟨counters, found, ahead⟩
  · exact .inl missing
  · exact .inr agrees
  · exact absurd ⟨change, canonical, counters, loaded, counted, found, ahead⟩ notAhead

theorem ChangeSound.not_ahead (sound : ChangeSound runtime paths files changeId) :
    ¬LegacyAhead runtime paths files changeId := by
  rintro ⟨change, canonical, counters, loaded, counted, found, ahead⟩
  obtain ⟨_, _, agreeing⟩ := sound
  cases agreeing.loaded.symm.trans loaded
  cases agreeing.counted.symm.trans counted
  rcases agreeing.legacy with missing | agrees
  · rw [missing] at found
    cases found
  · rw [agrees] at found
    cases found
    rw [compareProjectionCounters_eq_zero.mpr rfl] at ahead
    exact absurd ahead (lt_irrefl 0)

/-! ## What a scan without a bound finds -/

theorem checkChange_reasons {divergence : ProjectionDivergence}
    (found : checkChange runtime paths files changeId = .ok (some divergence)) :
    divergence.changeId = changeId ∧ divergence.reasons ≠ [] := by
  simp only [checkChange] at found
  split at found
  · cases found
    exact ⟨rfl, by simp [canonicalFailure]⟩
  · cases found
    exact ⟨rfl, by simp [canonicalFailure]⟩
  next change _ =>
    split at found
    · cases found
      exact ⟨rfl, by simp [canonicalFailure]⟩
    next canonical _ =>
      cases read : readCurrentSummaryShard runtime paths changeId
          ⟨files (changePath paths.changesDir changeId), files⟩ .none with
      | error error => simp [read, bind, Except.bind] at found
      | ok summary =>
        simp only [read, bind, Except.bind, Except.ok.injEq] at found
        split at found
        · cases found
        next some =>
          cases found
          exact ⟨rfl, fun empty => some (by simpa using empty)⟩

theorem scanCandidates_ok {scanned total : Nat} {changeIds : List String} {exceeded : Bool}
    {divergences : List ProjectionDivergence}
    (done : scanCandidates runtime paths files (fun _ => false) scanned changeIds =
      .ok (divergences, total, exceeded)) : total = scanned + changeIds.length ∧ exceeded = false ∧
      (∀ changeId ∈ changeIds, ∃ found, checkChange runtime paths files changeId = .ok found) ∧
      ∀ divergence, divergence ∈ divergences ↔
        ∃ changeId ∈ changeIds, checkChange runtime paths files changeId = .ok (some divergence) := by
  induction changeIds generalizing scanned divergences with
  | nil =>
    cases done
    exact ⟨rfl, rfl, fun _ member => (nomatch member), fun divergence => by simp⟩
  | cons changeId changeIds ih =>
    simp only [scanCandidates, Bool.false_eq_true, if_false, bind, Except.bind] at done
    cases checked : checkChange runtime paths files changeId with
    | error error => simp [checked] at done
    | ok found =>
      simp only [checked] at done
      cases rest : scanCandidates runtime paths files (fun _ => false) (scanned + 1) changeIds with
      | error error => simp [rest] at done
      | ok result =>
        obtain ⟨more, count, late⟩ := result
        simp only [rest, Except.ok.injEq, Prod.mk.injEq] at done
        obtain ⟨rfl, rfl, rfl⟩ := done
        obtain ⟨counted, inTime, each, members⟩ := ih rest
        refine ⟨by rw [counted, List.length_cons]; omega, inTime, ?_, fun divergence => ?_⟩
        · exact List.forall_mem_cons.mpr ⟨⟨found, checked⟩, each⟩
        · simp only [List.mem_append, Option.mem_toList, members, List.mem_cons, exists_eq_or_imp, checked,
            Except.ok.injEq]

theorem scanCandidates_error {scanned : Nat} {changeIds : List String} {error : String}
    (failed : scanCandidates runtime paths files (fun _ => false) scanned changeIds = .error error) :
    ∃ changeId ∈ changeIds, ∃ error, checkChange runtime paths files changeId = .error error := by
  induction changeIds generalizing scanned error with
  | nil => cases failed
  | cons changeId changeIds ih =>
    simp only [scanCandidates, Bool.false_eq_true, if_false, bind, Except.bind] at failed
    cases checked : checkChange runtime paths files changeId with
    | error error => exact ⟨changeId, List.mem_cons_self, error, checked⟩
    | ok found =>
      simp only [checked] at failed
      cases rest : scanCandidates runtime paths files (fun _ => false) (scanned + 1) changeIds with
      | error error =>
        obtain ⟨id, member, thrown⟩ := ih rest
        exact ⟨id, List.mem_cons_of_mem _ member, thrown⟩
      | ok result => simp [rest] at failed

/-- Everything a scan without a bound reports. -/
structure Exhaustive (runtime : Runtime) (paths : SummaryIndexPaths) (store : StoreContent)
    (scan : ProjectionDivergenceScan) : Prop where
  inTime : scan.budgetExceeded = false
  whole : scan.truncated = false
  none_omitted : scan.omitted = 0
  checked : ∀ changeId ∈ store.listChangeDirs, ∃ found, checkChange runtime paths store.files changeId = .ok found
  reported : ∀ divergence, divergence ∈ scan.divergences ↔
    ∃ changeId ∈ store.listChangeDirs, checkChange runtime paths store.files changeId = .ok (some divergence)

theorem unbounded_ok {store : StoreContent} {scan : ProjectionDivergenceScan}
    (done : findProjectionDivergences runtime paths store .unbounded = .ok scan) :
    Exhaustive runtime paths store scan := by
  have all : store.listChangeDirs.take (max 1 store.listChangeDirs.length) = store.listChangeDirs :=
    List.take_of_length_le (le_max_right _ _)
  simp only [findProjectionDivergences, ProjectionDivergenceScanOptions.unbounded, Option.getD_none, all, bind,
    Except.bind] at done
  cases scanned : scanCandidates runtime paths store.files (fun _ => false) 0 store.listChangeDirs with
  | error error => simp [scanned] at done
  | ok result =>
    obtain ⟨divergences, total, exceeded⟩ := result
    simp only [scanned, Except.ok.injEq] at done
    subst done
    obtain ⟨rfl, rfl, each, members⟩ := scanCandidates_ok scanned
    exact ⟨rfl, by simp, by simp, each, members⟩

theorem unbounded_error {store : StoreContent} {error : String}
    (failed : findProjectionDivergences runtime paths store .unbounded = .error error) :
    ∃ changeId ∈ store.listChangeDirs, ∃ error, checkChange runtime paths store.files changeId = .error error := by
  have all : store.listChangeDirs.take (max 1 store.listChangeDirs.length) = store.listChangeDirs :=
    List.take_of_length_le (le_max_right _ _)
  simp only [findProjectionDivergences, ProjectionDivergenceScanOptions.unbounded, Option.getD_none, all, bind,
    Except.bind] at failed
  cases scanned : scanCandidates runtime paths store.files (fun _ => false) 0 store.listChangeDirs with
  | error error => exact scanCandidates_error scanned
  | ok result => simp [scanned] at failed

end

end Advance.Storage
