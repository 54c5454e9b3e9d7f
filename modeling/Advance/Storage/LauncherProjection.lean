import Advance.Foundation.Rebuild
import Advance.Storage.StoreDisk
import Advance.Storage.SummaryReader
import Mathlib.Data.List.Sort

/-! # The launcher aggregate

After a commit a process rebuilds the list of active changes from the summaries on disk, file
by file, and writes it over the aggregate that is there.
-/

namespace Advance.Storage

open Advance.JavaScript Advance.Foundation Advance.Types

/-! ## Reads -/

structure DirEntry where
  name : String
  isDirectory : Bool
  deriving DecidableEq

inductive Listing where
  | entries (entries : List DirEntry)
  | noEntry
  | failed (error : String)

inductive LauncherRead where
  | readdir (path : String)
  | readFile (path : String)
  | access (path : String)

abbrev LauncherAnswer : LauncherRead → Type
  | .readdir _ => Listing
  | .readFile _ => FileState
  | .access _ => Bool

/-- What the files hold that a rebuild can ask for. -/
abbrev LauncherFiles := ∀ read, LauncherAnswer read

abbrev LauncherReading := Attempt LauncherAnswer String

def readdir (path : String) : LauncherReading Listing := .question (LauncherRead.readdir path)

def readFile (path : String) : LauncherReading FileState := .question (LauncherRead.readFile path)

def access (path : String) : LauncherReading Bool := .question (LauncherRead.access path)

/-- `runtime` with the locale's order of texts and the time a text stands for. -/
structure LauncherRuntime where
  base : Runtime
  localeCompare : String → String → Ordering
  timeOf : String → Option Int

structure LauncherPaths where
  changesDir : String
  summariesDir : String
  archiveDir : Option String

structure LauncherCall where
  generatedAt : String
  degradedThresholdMs : Nat
  nowMs : Int

/-! ## Summaries -/

/-- The warning a read that gave no content leaves, and none for content of another kind. -/
def outcomeToWarning (path : String) : ProjectionDocumentReadOutcome → List JsVal
  | .oversized limit actual =>
    [.obj [("path", .str path), ("kind", .str "oversized"), ("limit", .num limit), ("actual", .num actual)]]
  | .corrupt error => [.obj [("path", .str path), ("kind", .str "corrupt"), ("error", .str error)]]
  | .unreadable error => [.obj [("path", .str path), ("kind", .str "unreadable"), ("error", .str error)]]
  | .ok _ | .notFound => []

def corruptWarning (path error : String) : List JsVal :=
  [.obj [("path", .str path), ("kind", .str "corrupt"), ("error", .str error)]]

section

variable (runtime : LauncherRuntime) (paths : LauncherPaths)

def readSummary (entry : DirEntry) : LauncherReading (List JsVal × List JsVal) :=
  let changeId := entry.name
  if !entry.isDirectory || changeId = "." || changeId = ".." || includes changeId "/" || includes changeId "\\" then
    pure ([], [])
  else
    match summaryPaths ⟨paths.changesDir, paths.summariesDir⟩ changeId with
    | .error error => .fail error
    | .ok summary => do
      let pointerFile ← readFile summary.pointerPath
      match readBoundedSummaryJson runtime.base ChangeSummaryPointerSchema "summary pointer" changeId pointerFile
          none with
      | .notFound => pure ([], [])
      | .degraded _ => pure ([], outcomeToWarning summary.pointerPath (readBoundedProjectionDocument pointerFile none))
      | .ok pointer =>
        let pointerId := (pointer.get "change_id").textD ""
        let shardPath := (pointer.get "shard_path").textD ""
        if pointerId ≠ changeId then
          pure ([], corruptWarning summary.pointerPath s!"pointer change_id mismatch: {pointerId} !== {changeId}")
        else if !isPathUnder (join [paths.summariesDir, changeId, "revisions"]) shardPath then
          pure ([], corruptWarning summary.pointerPath "pointer shard_path escapes allowed directory")
        else do
          let shardFile ← readFile shardPath
          match readBoundedSummaryJson runtime.base ChangeSummaryShardSchema "summary shard" changeId shardFile
              none with
          | .notFound => pure ([], [])
          | .degraded _ => pure ([], outcomeToWarning shardPath (readBoundedProjectionDocument shardFile none))
          | .ok shard =>
            let shardId := (shard.get "id").textD ""
            if shardId ≠ changeId then
              pure ([], corruptWarning shardPath s!"shard id mismatch: {shardId} !== {changeId}")
            else pure ([shard], [])

def readSummaries : List DirEntry → LauncherReading (List JsVal × List JsVal)
  | [] => pure ([], [])
  | entry :: rest => do
    let (summaries, warnings) ← readSummary runtime paths entry
    let (more, moreWarnings) ← readSummaries rest
    pure (summaries ++ more, warnings ++ moreWarnings)

def listSummaryChanges : LauncherReading (List JsVal × List JsVal) := do
  let listing ← readdir paths.summariesDir
  match listing with
  | .entries entries => readSummaries runtime paths entries
  | .noEntry => pure ([], [])
  | .failed error =>
    .fail s!"Unable to read launcher summary pointers: failed to read summaries directory: {error}"

/-! ## Candidates -/

/-- Whether the change itself loads and is neither archived nor closed. -/
def isValidCandidate (id : String) : LauncherReading Bool := do
  let file ← readFile (changePath paths.changesDir id)
  match loadChange runtime.base paths.changesDir id file none with
  | .success (some change) =>
    pure (!(change.get "status" = .str "archived" || change.get "status" = .str "closed"))
  | _ => pure false

def classifySummaryCandidates : List String → LauncherReading (List String)
  | [] => pure []
  | id :: rest => do
    let valid ← isValidCandidate runtime paths id
    let more ← classifySummaryCandidates rest
    pure (if valid then id :: more else more)

def listChangeDirs (dir : String) : LauncherReading (List String) := do
  let listing ← readdir dir
  match listing with
  | .entries entries =>
    pure ((entries.filter fun entry => entry.isDirectory && !(".".toList.isPrefixOf entry.name.toList)).map DirEntry.name)
  | _ => pure []

/-- Whether a bundle whose directory name contains the id is of this change. -/
def anyBundle (archivePath changeId : String) : List String → LauncherReading Bool
  | [] => pure false
  | dir :: rest =>
    if dir = changeId || !includes dir changeId then anyBundle archivePath changeId rest
    else do
      let file ← readFile (changePath archivePath dir)
      match loadChange runtime.base archivePath dir file none with
      | .success (some change) =>
        if change.get "id" = .str changeId then pure true else anyBundle archivePath changeId rest
      | _ => anyBundle archivePath changeId rest

def hasArchiveBundle (archivePath changeId : String) : LauncherReading Bool := do
  let exists_ ← access (changePath archivePath changeId)
  if exists_ then pure true
  else do
    let dirs ← listChangeDirs archivePath
    anyBundle runtime archivePath changeId dirs

/-- The candidates that are drafts without an archive bundle.  The source looks for the bundles
    of all candidates at once; here one after another. -/
def draftsWithoutBundle : List JsVal → LauncherReading (List JsVal)
  | [] => pure []
  | summary :: rest => do
    let bundled ← (match paths.archiveDir with
      | some archiveDir =>
        if summary.get "status" = .str "draft" then
          hasArchiveBundle runtime archiveDir ((summary.get "id").textD "")
        else pure false
      | none => pure false)
    let more ← draftsWithoutBundle rest
    pure (if summary.get "status" = .str "draft" && !bundled then summary :: more else more)

/-! ## The document -/

def launcherSummary (summary : JsVal) : JsVal :=
  .obj <|
    (["id", "title", "status", "phase", "created_at", "last_activity_at", "task_count", "completed_tasks",
      "projection_revision"].map fun key => (key, summary.get key)) ++
    (if (summary.get "epic_membership").isTruthy then [("epic_membership", summary.get "epic_membership")] else [])

/-- `right.last_activity_at.localeCompare(left.last_activity_at) || left.id.localeCompare(right.id)` -/
def launcherOrder (left right : JsVal) : Ordering :=
  (runtime.localeCompare ((right.get "last_activity_at").textD "") ((left.get "last_activity_at").textD "")).then
    (runtime.localeCompare ((left.get "id").textD "") ((right.get "id").textD ""))

def shownBefore (left right : JsVal) : Prop := (launcherOrder runtime left right).isLE = true

instance : DecidableRel (shownBefore runtime) :=
  fun left right => inferInstanceAs (Decidable ((launcherOrder runtime left right).isLE = true))

def gatherActive : LauncherReading (List JsVal × List JsVal) := do
  let (summaries, warnings) ← listSummaryChanges runtime paths
  let validIds ← classifySummaryCandidates runtime paths (summaries.map fun summary => (summary.get "id").textD "")
  let drafts ← draftsWithoutBundle runtime paths
    (summaries.filter fun summary => validIds.contains ((summary.get "id").textD ""))
  pure ((drafts.map launcherSummary).insertionSort (shownBefore runtime), warnings)

def latestActivity (latest : Option String) (summary : JsVal) : Option String :=
  let activity := (summary.get "last_activity_at").textD ""
  if latest.all fun latest => textBefore latest activity then some activity else latest

def launcherDocument (call : LauncherCall) (active warnings : List JsVal) : JsVal :=
  let freshness := active.foldl latestActivity none
  let degraded := freshness.any fun freshness =>
    (runtime.timeOf freshness).any fun time => call.degradedThresholdMs < call.nowMs - time
  .obj <|
    [("schema_version", .num 1), ("generated_at", .str call.generatedAt), ("source", .str "disk_projection"),
      ("freshness", match freshness with | some freshness => .str freshness | none => .null),
      ("degraded", .bool degraded), ("degraded_threshold_ms", .num call.degradedThresholdMs),
      ("epics_available", .bool false), ("active_count", .num active.length),
      ("changes", .arr (active.take 50))] ++
    (if warnings.isEmpty then [] else [("warnings", .arr warnings)])

def buildLauncherProjection (call : LauncherCall) : LauncherReading JsVal := do
  let (active, warnings) ← gatherActive runtime paths
  pure (launcherDocument runtime call active warnings)

end

/-! ## Refreshes -/

section

variable (runtime : LauncherRuntime) (externalRoot changesDir : String)

/-- The paths of a refresh beside a changes directory in the given root. -/
def aggregatePaths : LauncherPaths :=
  { changesDir := changesDir
    summariesDir := join [externalRoot, "summaries"]
    archiveDir := some (join [externalRoot, "archive"]) }

/-- The reads of a refresh after a commit; its end is the write of the aggregate. -/
def refreshReading (call : LauncherCall) : Dialogue LauncherAnswer (Except String JsVal) :=
  buildLauncherProjection runtime (aggregatePaths externalRoot changesDir) { call with degradedThresholdMs := 300000 }

abbrev LauncherSystem := RebuildSystem LauncherAnswer LauncherCall String JsVal

abbrev LauncherMove := RebuildMove LauncherAnswer LauncherCall

/-- The aggregate is what a rebuild makes of the files as they are. -/
def UpToDate (files : LauncherFiles) (aggregate : Option JsVal) : Prop :=
  ∃ call document, aggregate = some document ∧
    (refreshReading runtime externalRoot changesDir call).answered files = .ok document

variable {runtime externalRoot changesDir}

/-- In every run whose refreshes write in order, once all have ended and the last one wrote, the
    aggregate is up to date. -/
theorem launcher_converges {moves : List LauncherMove} {files : LauncherFiles} {aggregate : Option JsVal}
    (inOrder : ∀ step ∈ trace (rebuildStep (refreshReading runtime externalRoot changesDir)) moves
      (RebuildSystem.initial files aggregate), InOrder step)
    (quiet : ∀ client, (stateAfter (rebuildStep (refreshReading runtime externalRoot changesDir)) moves
      (RebuildSystem.initial files aggregate)).phase client = .idle)
    (wrote : (stateAfter (rebuildStep (refreshReading runtime externalRoot changesDir)) moves
      (RebuildSystem.initial files aggregate)).wrote = true) : UpToDate runtime externalRoot changesDir
      (stateAfter (rebuildStep (refreshReading runtime externalRoot changesDir)) moves
        (RebuildSystem.initial files aggregate)).sources
      (stateAfter (rebuildStep (refreshReading runtime externalRoot changesDir)) moves
        (RebuildSystem.initial files aggregate)).stored :=
  converged (invariant_initial files aggregate) inOrder quiet wrote

end

/-! ## Fixed runs -/

def plainLauncher : LauncherRuntime := ⟨.permissive, compare, fun _ => none⟩

def noFiles : LauncherFiles
  | .readdir _ => .noEntry
  | .readFile _ => .absent
  | .access _ => false

def oneShard : JsVal := deriveSummaryShard (bareChange "addSearch") "op" 1

def onePointer : JsVal :=
  .obj [("schema_version", .num 1), ("change_id", .str "addSearch"), ("state_revision", .num 0),
    ("projection_revision", .num 1), ("operation_id", .str "op"),
    ("shard_path", .str "root/summaries/addSearch/revisions/1.json"),
    ("snapshot_path", .str "root/changes/addSearch/change.json"), ("committed_at", .str "now")]

def oneChange : LauncherFiles
  | .readdir path => if path = "root/summaries" then .entries [⟨"addSearch", true⟩] else .noEntry
  | .readFile path =>
    if path = "root/summaries/addSearch/current.json" then .ofJson onePointer
    else if path = "root/summaries/addSearch/revisions/1.json" then .ofJson oneShard
    else if path = "root/changes/addSearch/change.json" then .ofJson (bareChange "addSearch")
    else .absent
  | .access _ => false

def launcherCall : LauncherCall := ⟨"now", 300000, 0⟩

abbrev plainRefresh := refreshReading plainLauncher "root" "root/changes"

abbrev launcherStart : LauncherSystem := RebuildSystem.initial noFiles none

abbrev afterLauncher (moves : List LauncherMove) : LauncherSystem :=
  stateAfter (rebuildStep plainRefresh) moves launcherStart

def refreshed (client : Nat) (files : LauncherFiles) : List LauncherMove :=
  [.change client files, .start client launcherCall] ++ List.replicate 7 (.read client)

def allIdle (moves : List LauncherMove) : Bool :=
  moves.all fun move => ((afterLauncher moves).phase move.client).isIdle

theorem quiet_of_allIdle {moves : List LauncherMove} (idle : allIdle moves = true) (client : Nat) :
    (afterLauncher moves).phase client = .idle :=
  quiet_of_clients plainRefresh (fun _ => rfl) (List.all_eq_true.mp idle) client

def refreshedOnce : List LauncherMove := refreshed 1 oneChange ++ [.store 1]

theorem refreshedOnce_idle : allIdle refreshedOnce = true := by rfl

theorem launcher_converges_once : UpToDate plainLauncher "root" "root/changes" (afterLauncher refreshedOnce).sources
      (afterLauncher refreshedOnce).stored := by
  have first : ((trace (rebuildStep plainRefresh) refreshedOnce launcherStart).all
      fun step => step.before.latest == 0) = true := by rfl
  have wrote : (afterLauncher refreshedOnce).wrote = true := by rfl
  refine launcher_converges ?_ (quiet_of_allIdle refreshedOnce_idle) wrote
  intro step member client start call derived _ _
  rw [eq_of_beq (List.all_eq_true.mp first step member)]
  exact Nat.zero_le start

def overtakenMoves : List LauncherMove := refreshed 1 noFiles ++ refreshed 2 oneChange ++ [.store 2, .store 1]

theorem gathered_oneChange : (gatherActive plainLauncher (aggregatePaths "root" "root/changes")).outcome oneChange =
      .ok ([launcherSummary oneShard], []) := by
  rfl

theorem refreshed_oneChange (call : LauncherCall) {document : JsVal}
    (made : (plainRefresh call).answered oneChange = .ok document) : document.get "active_count" = .num 1 := by
  obtain ⟨gathered, found, written⟩ := (Attempt.outcome_bind _ _ _ _).mp made
  cases gathered_oneChange.symm.trans found
  obtain rfl := Except.ok.inj written
  rfl

theorem overtaken_idle : allIdle overtakenMoves = true := by rfl

theorem overtaken_wrote : (afterLauncher overtakenMoves).wrote = true := by rfl

theorem overtaken_shown :
    (afterLauncher overtakenMoves).stored.map (fun document => document.get "active_count") = some (.num 0) := by
  rfl

theorem overtaken_sources : (afterLauncher overtakenMoves).sources = oneChange := by
  have split : overtakenMoves = refreshed 1 noFiles ++ .change 2 oneChange ::
      (.start 2 launcherCall :: List.replicate 7 (.read 2) ++ [.store 2, .store 1]) := rfl
  have unnamed : ∀ move ∈ refreshed 1 noFiles, 2 ≠ move.client := by
    refine List.forall_mem_append.mpr ⟨?_, fun move member => ?_⟩
    · exact List.forall_mem_cons.mpr ⟨by decide, List.forall_mem_singleton.mpr (by decide)⟩
    · rw [List.eq_of_mem_replicate member]
      decide
  have idle : (afterLauncher (refreshed 1 noFiles)).phase 2 = .idle :=
    stateAfter_other plainRefresh unnamed launcherStart
  have others : ∀ move ∈ (RebuildMove.start 2 launcherCall :: List.replicate 7 (.read 2) ++ [.store 2, .store 1] :
      List LauncherMove), move.isChange = false := by
    refine List.forall_mem_append.mpr ⟨List.forall_mem_cons.mpr ⟨rfl, fun move member => ?_⟩, ?_⟩
    · rw [List.eq_of_mem_replicate member]
      rfl
    · exact List.forall_mem_cons.mpr ⟨rfl, List.forall_mem_singleton.mpr rfl⟩
  rw [split]
  exact sources_of_change plainRefresh idle others

/-- The refresh of the first commit writes last, what it read before the second. -/
theorem overtaken_refresh : ¬∀ moves : List LauncherMove, (∀ client, (afterLauncher moves).phase client = .idle) →
    (afterLauncher moves).wrote = true →
      UpToDate plainLauncher "root" "root/changes" (afterLauncher moves).sources (afterLauncher moves).stored := by
  intro upToDate
  obtain ⟨call, document, stored, made⟩ :=
    upToDate overtakenMoves (quiet_of_allIdle overtaken_idle) overtaken_wrote
  rw [overtaken_sources] at made
  have shown := overtaken_shown
  rw [stored, Option.map_some, refreshed_oneChange call made] at shown
  exact absurd shown (by decide)

end Advance.Storage
