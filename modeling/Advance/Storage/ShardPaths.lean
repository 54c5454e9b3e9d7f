import Advance.JavaScript.Path
import Advance.Storage.LauncherProjection

/-! # The paths of summary shards

A summary pointer names the file of its shard.  Both readers open that file once they have
accepted the pointer and found that its path begins with that of the revisions directory.
-/

namespace Advance.Storage

open Advance.Foundation Advance.Foundation.Dialogue Advance.JavaScript

/-! ## Reads -/

section

variable (runtime : LauncherRuntime) (paths : LauncherPaths) (changeId : String)

abbrev LauncherPaths.index (paths : LauncherPaths) : SummaryIndexPaths := ⟨paths.changesDir, paths.summariesDir⟩

/-- `join(paths.summariesDir, changeId, "revisions")` -/
def revisionsDir : String := join [paths.summariesDir, changeId, "revisions"]

def shardPathOfPointer (pointer : JsVal) : String := (pointer.get "shard_path").textD ""

/-- The pointer whose shard is to be read, or the result without one. -/
def acceptPointer (summary : SummaryPaths) (snapshot : Option JsVal) (pointerFile : FileState) :
    Except SummaryReadResult JsVal :=
  match readBoundedSummaryJson runtime.base ChangeSummaryPointerSchema "summary pointer" changeId pointerFile none with
  | .notFound => .error (if snapshot.isSome then .degraded "missing current summary pointer" else .notFound)
  | .degraded reason => .error (.degraded reason)
  | .ok pointer =>
    if pointer.get "change_id" ≠ .str changeId then .error (.degraded "pointer change_id mismatch")
    else if pointer.get "snapshot_path" ≠ .str summary.snapshotPath then
      .error (.degraded "pointer snapshot_path mismatch")
    else if !isPathUnder (revisionsDir paths changeId) (shardPathOfPointer pointer) then
      .error (.degraded "pointer shard_path escapes allowed directory")
    else
      match snapshot.bind (pointerFreshness pointer) with
      | some reason => .error (.degraded reason)
      | none => .ok pointer

def currentSummaryReading : LauncherReading SummaryReadResult :=
  match summaryPaths paths.index changeId with
  | .error error => .fail error
  | .ok summary => do
    let recordFile ← readFile (changePath paths.changesDir changeId)
    let (snapshot, snapshotError) := snapshotOf (loadChange runtime.base paths.changesDir changeId recordFile none)
    let pointerFile ← readFile summary.pointerPath
    match acceptPointer runtime paths changeId summary snapshot pointerFile with
    | .error result => pure result
    | .ok pointer => do
      let shardFile ← readFile (shardPathOfPointer pointer)
      pure (readReferencedShard runtime.base changeId pointer snapshot snapshotError (fun _ => shardFile) none)

/-! ## Opened shards -/

def CurrentOpens (recordFile pointerFile : FileState) (path : String) : Prop :=
  ∃ summary, summaryPaths paths.index changeId = .ok summary ∧ Asks (currentSummaryReading runtime paths changeId)
      [⟨.readFile (changePath paths.changesDir changeId), recordFile⟩, ⟨.readFile summary.pointerPath, pointerFile⟩]
      (.readFile path)

def ListOpens (pointerFile : FileState) (path : String) : Prop :=
  ∃ summary, summaryPaths paths.index changeId = .ok summary ∧
    Asks (readSummary runtime paths ⟨changeId, true⟩) [⟨.readFile summary.pointerPath, pointerFile⟩] (.readFile path)

/-- The path leads to below the directory. -/
def LiesInside (workingDirectory directory path : String) : Prop :=
  resolvedNames workingDirectory directory <+: resolvedNames workingDirectory path ∧
    resolvedNames workingDirectory directory ≠ resolvedNames workingDirectory path

structure ShardsContained (workingDirectory : String) (recordFile pointerFile : FileState) : Prop where
  current : ∀ path, CurrentOpens runtime paths changeId recordFile pointerFile path →
    LiesInside workingDirectory (revisionsDir paths changeId) path
  listed : ∀ path, ListOpens runtime paths changeId pointerFile path →
    LiesInside workingDirectory (revisionsDir paths changeId) path

/-! ## When they lie inside -/

def pointerIn (pointerFile : FileState) : Option JsVal :=
  match readBoundedSummaryJson runtime.base ChangeSummaryPointerSchema "summary pointer" changeId pointerFile none with
  | .ok pointer => some pointer
  | _ => none

/-- Where the shard path goes on after the revisions directory, what it climbs over of it it enters again. -/
def ShardComesBack (workingDirectory : String) (pointer : JsVal) : Prop :=
  ∀ rest, shardPathOfPointer pointer = revisionsDir paths changeId ++ "/" ++ rest →
    ComesBack (resolvedNames workingDirectory (revisionsDir paths changeId)) (pathNames rest.toList)

def pointerChangeId (pointer : JsVal) : String := (pointer.get "change_id").textD ""

def FitsRecord (recordFile : FileState) (pointer : JsVal) : Prop :=
  pointer.get "change_id" = .str changeId ∧
    pointer.get "snapshot_path" = .str (changePath paths.changesDir changeId) ∧
      (snapshotOf (loadChange runtime.base paths.changesDir changeId recordFile none)).1.bind
        (pointerFreshness pointer) = none

structure PathsComeBack (workingDirectory : String) (recordFile pointerFile : FileState) : Prop where
  current : assertSafeChangeId changeId = .ok () → ∀ pointer, pointerIn runtime changeId pointerFile = some pointer →
    FitsRecord runtime paths changeId recordFile pointer → ShardComesBack paths changeId workingDirectory pointer
  listed : assertSafeChangeId changeId = .ok () → changeId ≠ "." → ∀ pointer,
    pointerIn runtime changeId pointerFile = some pointer → pointerChangeId pointer = changeId →
      ShardComesBack paths changeId workingDirectory pointer

end

/-! ## The text of a shard path -/

section

variable {runtime : LauncherRuntime} {paths : LauncherPaths} {changeId workingDirectory path : String}
  {recordFile pointerFile : FileState}

theorem revisionsDir_toList : (revisionsDir paths changeId).toList =
    paths.summariesDir.toList ++ '/' :: (changeId.toList ++ '/' :: "revisions".toList) := by
  simp [revisionsDir, join]

theorem isPathUnder_revisionsDir {target : String} : isPathUnder (revisionsDir paths changeId) target = true ↔
    ∃ rest, target = revisionsDir paths changeId ++ "/" ++ rest := by
  have open' : ¬ "/".toList <:+ (revisionsDir paths changeId).toList := by
    have ends : (revisionsDir paths changeId).toList =
        (paths.summariesDir.toList ++ '/' :: (changeId.toList ++ "/revision".toList)) ++ ['s'] := by
      simp [revisionsDir_toList]
    rintro ⟨front, same⟩
    rw [ends] at same
    exact absurd (List.append_inj' same rfl).2 (by decide)
  unfold isPathUnder
  rw [if_neg open', decide_eq_true_eq]
  constructor
  · rintro ⟨rest, same⟩
    refine ⟨String.ofList rest, String.toList_inj.mp ?_⟩
    rw [← same]
    simp
  · rintro ⟨rest, rfl⟩
    exact ⟨rest.toList, by simp⟩

theorem liesInside_iff {rest : String} :
    LiesInside workingDirectory (revisionsDir paths changeId) (revisionsDir paths changeId ++ "/" ++ rest) ↔
      ComesBack (resolvedNames workingDirectory (revisionsDir paths changeId)) (pathNames rest.toList) := by
  have named : (revisionsDir paths changeId).toList ≠ [] := by simp [revisionsDir_toList]
  rw [LiesInside, resolvedNames_below workingDirectory rest named, stays_iff_comesBack]

theorem shardComesBack_iff {pointer : JsVal}
    (under : isPathUnder (revisionsDir paths changeId) (shardPathOfPointer pointer) = true) :
    ShardComesBack paths changeId workingDirectory pointer ↔
      LiesInside workingDirectory (revisionsDir paths changeId) (shardPathOfPointer pointer) := by
  obtain ⟨rest, same⟩ := isPathUnder_revisionsDir.mp under
  rw [same, liesInside_iff]
  constructor
  · exact fun back => back rest same
  · intro back other sameToo
    have texts : (revisionsDir paths changeId ++ "/").toList ++ rest.toList =
        (revisionsDir paths changeId ++ "/").toList ++ other.toList := by
      simpa using congrArg String.toList (same.symm.trans sameToo)
    rwa [← String.toList_inj.mp (List.append_cancel_left texts)]

/-! ## Accepted pointers -/

theorem accept_iff {summary : SummaryPaths} {snapshot : Option JsVal} {pointer : JsVal} :
    acceptPointer runtime paths changeId summary snapshot pointerFile = .ok pointer ↔
      pointerIn runtime changeId pointerFile = some pointer ∧ pointer.get "change_id" = .str changeId ∧
        pointer.get "snapshot_path" = .str summary.snapshotPath ∧
          isPathUnder (revisionsDir paths changeId) (shardPathOfPointer pointer) = true ∧
            snapshot.bind (pointerFreshness pointer) = none := by
  unfold acceptPointer pointerIn
  cases readBoundedSummaryJson runtime.base ChangeSummaryPointerSchema "summary pointer" changeId pointerFile none with
  | notFound => simp
  | degraded reason => simp
  | ok held =>
    constructor
    · intro accepted
      simp only at accepted
      split at accepted
      · cases accepted
      next own =>
        split at accepted
        · cases accepted
        next placed =>
          split at accepted
          · cases accepted
          next under =>
            split at accepted
            · cases accepted
            next fresh =>
              obtain rfl := Except.ok.inj accepted
              exact ⟨rfl, not_not.mp own, not_not.mp placed, by simpa using under, fresh⟩
    · rintro ⟨same, own, placed, under, fresh⟩
      obtain rfl := Option.some.inj same
      simp [own, placed, under, fresh]

/-! ## Opened paths -/

theorem summaryPaths_eq {summary : SummaryPaths} (resolved : summaryPaths paths.index changeId = .ok summary) :
    summary.snapshotPath = changePath paths.changesDir changeId := by
  unfold summaryPaths at resolved
  rw [assertSafe_of_paths resolved] at resolved
  cases resolved
  rfl

theorem summaryPaths_of_safe (paths : LauncherPaths) (safe : assertSafeChangeId changeId = .ok ()) :
    ∃ summary, summaryPaths paths.index changeId = .ok summary := by
  rw [summaryPaths, safe]
  exact ⟨_, rfl⟩

theorem currentOpens_iff : CurrentOpens runtime paths changeId recordFile pointerFile path ↔
    assertSafeChangeId changeId = .ok () ∧ ∃ pointer, pointerIn runtime changeId pointerFile = some pointer ∧
      FitsRecord runtime paths changeId recordFile pointer ∧
        isPathUnder (revisionsDir paths changeId) (shardPathOfPointer pointer) = true ∧
          path = shardPathOfPointer pointer := by
  constructor
  · rintro ⟨summary, resolved, next, spoken⟩
    refine ⟨assertSafe_of_paths resolved, ?_⟩
    rw [currentSummaryReading, resolved] at spoken
    simp only [bind, Attempt.bind, readFile, Attempt.question, andThen] at spoken
    have opened := spoken_nil.mp (spoken_ask.mp (spoken_ask.mp spoken))
    split at opened
    · cases opened
    next pointer accepted =>
      cases opened
      obtain ⟨held, own, placed, under, fresh⟩ := accept_iff.mp accepted
      exact ⟨pointer, held, ⟨own, summaryPaths_eq resolved ▸ placed, fresh⟩, under, rfl⟩
  · rintro ⟨safe, pointer, held, ⟨own, placed, fresh⟩, under, rfl⟩
    obtain ⟨summary, resolved⟩ := summaryPaths_of_safe paths safe
    have accepted : acceptPointer runtime paths changeId summary
        (snapshotOf (loadChange runtime.base paths.changesDir changeId recordFile none)).1 pointerFile = .ok pointer :=
      accept_iff.mpr ⟨held, own, (summaryPaths_eq resolved).symm ▸ placed, under, fresh⟩
    refine ⟨summary, resolved, ?_⟩
    apply Exists.intro
    rw [currentSummaryReading, resolved]
    simp only [bind, Attempt.bind, readFile, Attempt.question, andThen]
    refine spoken_ask.mpr (spoken_ask.mpr (spoken_nil.mpr ?_))
    rw [accepted]
    rfl

theorem listed_iff (safe : assertSafeChangeId changeId = .ok ()) :
    (!(DirEntry.mk changeId true).isDirectory || changeId = "." || changeId = ".." || includes changeId "/" ||
      includes changeId "\\") = true ↔ changeId = "." := by
  unfold assertSafeChangeId at safe
  split at safe
  · cases safe
  next harmless =>
    simp only [Bool.or_eq_true, decide_eq_true_eq, not_or] at harmless
    obtain ⟨⟨⟨⟨noSlash, noBackslash⟩, notParent⟩, _⟩, _⟩ := harmless
    simp [noSlash, noBackslash, notParent]

theorem listOpens_iff : ListOpens runtime paths changeId pointerFile path ↔
    assertSafeChangeId changeId = .ok () ∧ changeId ≠ "." ∧ ∃ pointer,
      pointerIn runtime changeId pointerFile = some pointer ∧ pointerChangeId pointer = changeId ∧
        isPathUnder (revisionsDir paths changeId) (shardPathOfPointer pointer) = true ∧
          path = shardPathOfPointer pointer := by
  constructor
  · rintro ⟨summary, resolved, next, spoken⟩
    have safe := assertSafe_of_paths resolved
    refine ⟨safe, ?_⟩
    unfold readSummary at spoken
    by_cases itself : changeId = "."
    · simp only [(listed_iff safe).mpr itself, if_true] at spoken
      cases spoken
    · refine ⟨itself, ?_⟩
      simp only [if_neg (mt (listed_iff safe).mp itself), LauncherPaths.index] at spoken resolved
      rw [resolved] at spoken
      simp only [bind, Attempt.bind, readFile, Attempt.question, andThen] at spoken
      have opened := spoken_nil.mp (spoken_ask.mp spoken)
      unfold pointerIn
      split at opened
      · cases opened
      · cases opened
      next pointer read =>
        rw [read]
        split at opened
        · cases opened
        next own =>
          cases under : isPathUnder (join [paths.summariesDir, changeId, "revisions"])
              ((pointer.get "shard_path").textD "") with
          | false =>
            rw [under] at opened
            cases opened
          | true =>
            rw [under] at opened
            cases opened
            exact ⟨pointer, rfl, not_not.mp own, under, rfl⟩
  · rintro ⟨safe, itself, pointer, held, own, under, rfl⟩
    obtain ⟨summary, resolved⟩ := summaryPaths_of_safe paths safe
    have read : readBoundedSummaryJson runtime.base ChangeSummaryPointerSchema "summary pointer" changeId pointerFile
        none = .ok pointer := by
      unfold pointerIn at held
      split at held
      next other same => rw [same, Option.some.inj held]
      · cases held
    unfold revisionsDir shardPathOfPointer at under
    unfold pointerChangeId at own
    refine ⟨summary, resolved, ?_⟩
    apply Exists.intro
    unfold readSummary
    simp only [if_neg (mt (listed_iff safe).mp itself), LauncherPaths.index] at resolved ⊢
    rw [resolved]
    simp only [bind, Attempt.bind, readFile, Attempt.question, andThen]
    refine spoken_ask.mpr (spoken_nil.mpr ?_)
    simp only [read, own, under, ne_eq, not_true_eq_false, if_false, Bool.not_true, Bool.false_eq_true]
    rfl

/-! ## The claim -/

theorem current_contained_iff : (∀ path, CurrentOpens runtime paths changeId recordFile pointerFile path →
        LiesInside workingDirectory (revisionsDir paths changeId) path) ↔
      (assertSafeChangeId changeId = .ok () → ∀ pointer, pointerIn runtime changeId pointerFile = some pointer →
        FitsRecord runtime paths changeId recordFile pointer →
          ShardComesBack paths changeId workingDirectory pointer) := by
  constructor
  · intro contained safe pointer held fits rest same
    have under := isPathUnder_revisionsDir.mpr ⟨rest, same⟩
    have inside := contained _ (currentOpens_iff.mpr ⟨safe, pointer, held, fits, under, rfl⟩)
    exact (shardComesBack_iff under).mpr inside rest same
  · intro back path opens
    obtain ⟨safe, pointer, held, fits, under, rfl⟩ := currentOpens_iff.mp opens
    exact (shardComesBack_iff under).mp (back safe pointer held fits)

theorem listed_contained_iff : (∀ path, ListOpens runtime paths changeId pointerFile path →
        LiesInside workingDirectory (revisionsDir paths changeId) path) ↔
      (assertSafeChangeId changeId = .ok () → changeId ≠ "." → ∀ pointer,
        pointerIn runtime changeId pointerFile = some pointer → pointerChangeId pointer = changeId →
          ShardComesBack paths changeId workingDirectory pointer) := by
  constructor
  · intro contained safe itself pointer held own rest same
    have under := isPathUnder_revisionsDir.mpr ⟨rest, same⟩
    have inside := contained _ (listOpens_iff.mpr ⟨safe, itself, pointer, held, own, under, rfl⟩)
    exact (shardComesBack_iff under).mpr inside rest same
  · intro back path opens
    obtain ⟨safe, itself, pointer, held, own, under, rfl⟩ := listOpens_iff.mp opens
    exact (shardComesBack_iff under).mp (back safe itself pointer held own)

theorem shardsContained_iff : ShardsContained runtime paths changeId workingDirectory recordFile pointerFile ↔
    PathsComeBack runtime paths changeId workingDirectory recordFile pointerFile :=
  ⟨fun contained => ⟨current_contained_iff.mp contained.current, listed_contained_iff.mp contained.listed⟩,
    fun back => ⟨current_contained_iff.mpr back.current, listed_contained_iff.mpr back.listed⟩⟩

end

/-! ## Fixed runs -/

def climbingPointer : JsVal :=
  .obj [("schema_version", .num 1), ("change_id", .str "addSearch"), ("state_revision", .num 0),
    ("projection_revision", .num 1), ("operation_id", .str "op"),
    ("shard_path", .str "/store/summaries/addSearch/revisions/../../../secret.json"),
    ("snapshot_path", .str "/store/changes/addSearch/change.json"), ("committed_at", .str "now")]

def storePaths : LauncherPaths := ⟨"/store/changes", "/store/summaries", none⟩

theorem climbingPointer_read :
    pointerIn plainLauncher "addSearch" (.ofJson climbingPointer) = some climbingPointer := by
  rfl

theorem addSearch_safe : assertSafeChangeId "addSearch" = .ok () := by
  rw [assertSafeChangeId, if_neg (by decide)]

/-- Both readers open a file beside the store's directories. -/
theorem climbing_pointer_followed :
    CurrentOpens plainLauncher storePaths "addSearch" .absent (.ofJson climbingPointer)
        "/store/summaries/addSearch/revisions/../../../secret.json" ∧
      ListOpens plainLauncher storePaths "addSearch" (.ofJson climbingPointer)
        "/store/summaries/addSearch/revisions/../../../secret.json" ∧
      resolve "/" "/store/summaries/addSearch/revisions/../../../secret.json" = "/store/secret.json" ∧
        ¬ ShardsContained plainLauncher storePaths "addSearch" "/" .absent (.ofJson climbingPointer) := by
  have under : isPathUnder (revisionsDir storePaths "addSearch") (shardPathOfPointer climbingPointer) = true := by
    rfl
  have fits : FitsRecord plainLauncher storePaths "addSearch" .absent climbingPointer := by
    exact ⟨by rfl, by rfl, by rfl⟩
  have opened := currentOpens_iff.mpr ⟨addSearch_safe, _, climbingPointer_read, fits, under, rfl⟩
  have listed := listOpens_iff.mpr ⟨addSearch_safe, by decide, _, climbingPointer_read, by rfl, under, rfl⟩
  refine ⟨opened, listed, by rfl, fun contained => ?_⟩
  exact absurd (contained.current _ opened).1 (by decide)

end Advance.Storage
