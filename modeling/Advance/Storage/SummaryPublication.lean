import Advance.Storage.ChangeSummaryShard
import Advance.Storage.StoredProjection

/-! # One publication and reading it back
-/

namespace Advance.Storage

open Advance.JavaScript Advance.JavaScript.JsVal Advance.JavaScript.Schema Advance.Types
open Advance.Foundation

/-! ## Parsing what was published -/

theorem array_string {values : List JsVal} {out : JsVal}
    (parsed : array string (.arr values) = .ok out) : out = .arr values := by
  obtain ⟨_, parsedValues, same, rfl, each⟩ := array_ok parsed
  cases same
  congr 1
  clear parsed
  induction each with
  | nil => rfl
  | cons head _ ih => rw [(string_ok head).1, ih]

variable {key : String}

theorem derived_optional (change : JsVal) (operationId : String) (projectionRevision : JsNumber)
    (optionalKey : key = "epic_membership" ∨ key = "fast_follow_of") :
    (deriveSummaryShard change operationId projectionRevision).get key =
      if (change.get key).isTruthy then change.get key else .undefined := by
  by_cases epic : (change.get "epic_membership").isTruthy = true <;>
    by_cases follow : (change.get "fast_follow_of").isTruthy = true <;>
    rcases optionalKey with rfl | rfl <;>
    simp [deriveSummaryShard, lookup, epic, follow] <;>
    intro missing <;> exact missing.symm

theorem derived_id (change : JsVal) (operationId : String) (projectionRevision : JsNumber) :
    (deriveSummaryShard change operationId projectionRevision).get "id" = change.get "id" := by
  by_cases absent : change.get "id" = .undefined <;>
    by_cases epic : (change.get "epic_membership").isTruthy = true <;>
    by_cases follow : (change.get "fast_follow_of").isTruthy = true <;>
    simp [deriveSummaryShard, lookup, absent, epic, follow]

variable {projectionRevision : JsNumber} {operationId : String} {schema : Schema}

theorem optional_parsed {fields : FieldSchemas} {source change w : JsVal}
    (valid : ChangeSchema fields source = .ok change) (stable : Stable schema)
    (optionalKey : key = "epic_membership" ∨ key = "fast_follow_of")
    (member : (key, optional schema) ∈ changeShape fields) (parsed : optional schema
      ((deriveSummaryShard change operationId projectionRevision).toJson.get key) = .ok w) :
    w = (deriveSummaryShard change operationId projectionRevision).get key := by
  have derived := derived_optional change operationId projectionRevision optionalKey
  by_cases truthy : (change.get key).isTruthy = true
  · rw [if_pos truthy] at derived
    have made : optional schema (source.get key) =
        .ok ((deriveSummaryShard change operationId projectionRevision).get key) := by
      rw [derived]
      exact ChangeSchema_get valid member
    exact parsed_stable (stable_optional stable) made parsed
  · rw [if_neg truthy] at derived
    have made : optional schema .undefined =
        .ok ((deriveSummaryShard change operationId projectionRevision).get key) := by
      rw [derived]
      rfl
    exact parsed_stable (stable_optional stable) made parsed

theorem derived_capabilities (change : JsVal) (operationId : String) (projectionRevision : JsNumber) :
    (deriveSummaryShard change operationId projectionRevision).toJson.get "capabilities" =
      .arr ((change.get "deltas").keys.map .str) := by
  have derived : (deriveSummaryShard change operationId projectionRevision).get "capabilities" =
      .arr ((change.get "deltas").keys.map .str) := by
    simp [deriveSummaryShard, lookup]
  rw [get_toJson, derived, if_neg (by simp), toJson, toJsonList_eq_map, List.map_map]
  rfl

theorem shard_keys {change : JsVal}
    (unlisted : key ∉ ["schema_version", "id", "title", "status", "phase", "created_at",
      "last_activity_at", "task_count", "completed_tasks", "state_revision", "operation_id",
      "projection_revision", "capabilities", "fast_follow_of", "epic_membership"]) :
    (deriveSummaryShard change operationId projectionRevision).get key = .undefined := by
  apply lookup_of_absent
  intro entry member same
  apply unlisted
  rw [← same]
  rcases List.mem_append.mp member with required | follow
  · rcases List.mem_append.mp required with required | epic
    · exact List.mem_of_mem_take (i := 13) (List.mem_map_of_mem (f := Prod.fst) required)
    · split at epic
      · rw [List.mem_singleton.mp epic]
        simp
      · cases epic
  · split at follow
    · rw [List.mem_singleton.mp follow]
      simp
    · cases follow

theorem shard_parsed {fields : FieldSchemas} {source change shard : JsVal}
    (valid : ChangeSchema fields source = .ok change) (parsed : ChangeSummaryShardSchema
      (deriveSummaryShard change operationId projectionRevision).toJson = .ok shard) (key : String) :
    shard.get key = (deriveSummaryShard change operationId projectionRevision).get key := by
  refine strip_parsed (by decide) ?_ ?_ parsed key
  · intro key unlisted
    exact shard_keys unlisted
  intro key schema w member parsedField
  simp only [List.mem_cons, Prod.mk.injEq, List.not_mem_nil, or_false] at member
  -- twelve atomic fields, the capabilities, and the two optional records
  rcases member with ⟨rfl, rfl⟩ | ⟨rfl, rfl⟩ | ⟨rfl, rfl⟩ | ⟨rfl, rfl⟩ | ⟨rfl, rfl⟩ | ⟨rfl, rfl⟩ |
    ⟨rfl, rfl⟩ | ⟨rfl, rfl⟩ | ⟨rfl, rfl⟩ | ⟨rfl, rfl⟩ | ⟨rfl, rfl⟩ | ⟨rfl, rfl⟩ | ⟨rfl, rfl⟩ |
    ⟨rfl, rfl⟩ | ⟨rfl, rfl⟩
  · exact parsed_atom (keepsAtoms_literalNum 1) parsedField
  · exact parsed_atom keepsAtoms_string parsedField
  · exact parsed_atom keepsAtoms_string parsedField
  · exact parsed_atom (keepsAtoms_enum _) parsedField
  · exact parsed_atom keepsAtoms_string parsedField
  · exact parsed_atom keepsAtoms_string parsedField
  · exact parsed_atom keepsAtoms_string parsedField
  · exact parsed_atom (keepsAtoms_intMin 0) parsedField
  · exact parsed_atom (keepsAtoms_intMin 0) parsedField
  · exact parsed_atom (keepsAtoms_intMin 0) parsedField
  · exact parsed_atom keepsAtoms_string parsedField
  · exact parsed_atom (keepsAtoms_intMin 0) parsedField
  · rw [derived_capabilities] at parsedField
    rw [array_string parsedField]
    simp [deriveSummaryShard, lookup]
  · exact optional_parsed valid stable_fastFollowOf (.inr rfl) (by simp [changeShape]) parsedField
  · exact optional_parsed valid stable_epicMembership (.inl rfl) (by simp [changeShape]) parsedField

variable {summary : SummaryPaths} {runtime : Runtime}

/-- A published pointer that parses holds field by field what was written. -/
theorem pointer_parsed {shard changeId pointer : JsVal} {operationId committedAt : String}
    (parsed : ChangeSummaryPointerSchema
      (summaryPointer runtime summary shard changeId projectionRevision operationId committedAt).toJson =
        .ok pointer) (key : String) : pointer.get key =
      (summaryPointer runtime summary shard changeId projectionRevision operationId committedAt).get key := by
  refine strip_parsed (by decide) ?_ ?_ parsed key
  · intro key unlisted
    apply lookup_of_absent
    intro entry member same
    exact unlisted (same ▸ List.mem_map_of_mem (f := Prod.fst) member)
  · intro key schema w member parsedField
    simp only [List.mem_cons, Prod.mk.injEq, List.not_mem_nil, or_false] at member
    rcases member with ⟨rfl, rfl⟩ | ⟨rfl, rfl⟩ | ⟨rfl, rfl⟩ | ⟨rfl, rfl⟩ | ⟨rfl, rfl⟩ | ⟨rfl, rfl⟩ |
      ⟨rfl, rfl⟩ | ⟨rfl, rfl⟩
    · exact parsed_atom (keepsAtoms_literalNum 1) parsedField
    · exact parsed_atom keepsAtoms_string parsedField
    · exact parsed_atom (keepsAtoms_intMin 0) parsedField
    · exact parsed_atom (keepsAtoms_intMin 0) parsedField
    · exact parsed_atom keepsAtoms_string parsedField
    · exact parsed_atom keepsAtoms_string parsedField
    · exact parsed_atom keepsAtoms_string parsedField
    · exact parsed_atom keepsAtoms_string parsedField

/-! ## Where a publication goes -/

theorem summaryPaths_ok {paths : SummaryIndexPaths} {changeId : String}
    (resolved : summaryPaths paths changeId = .ok summary) : summary =
      { changeDir := join [paths.summariesDir, changeId]
        revDir := join [paths.summariesDir, changeId, "revisions"]
        pointerPath := join [paths.summariesDir, changeId, "current.json"]
        snapshotPath := changePath paths.changesDir changeId } := by
  unfold summaryPaths at resolved
  cases safe : assertSafeChangeId changeId with
  | error error => rw [safe] at resolved; cases resolved
  | ok _ => rw [safe] at resolved; cases resolved; rfl

theorem shardPath_ne_pointerPath (runtime : Runtime) {paths : SummaryIndexPaths} {changeId : String}
    (resolved : summaryPaths paths changeId = .ok summary) (projectionRevision : JsNumber) :
    shardPathOf runtime summary projectionRevision ≠ summary.pointerPath := by
  rw [summaryPaths_ok resolved]
  simp only [shardPathOf, join, String.intercalate_cons_cons, String.intercalate_singleton]
  intro same
  have letters := congrArg String.toList same
  simp [String.toList_append] at letters

/-! ## What a publication leaves -/

def publishedShard (change : JsVal) (operationId : String) : JsVal :=
  deriveSummaryShard change operationId (revisionOf change)

def publishedPointer (runtime : Runtime) (summary : SummaryPaths) (change : JsVal)
    (operationId publishedAt : String) : JsVal :=
  summaryPointer runtime summary (publishedShard change operationId) (change.get "id")
    (revisionOf change) operationId publishedAt

def shardPathFor (runtime : Runtime) (summary : SummaryPaths) (change : JsVal) : String :=
  shardPathOf runtime summary (revisionOf change)

section

variable {runtime : Runtime} {paths : SummaryIndexPaths} {summary : SummaryPaths} {change : JsVal}
  {operationId : String} {events : SummaryEvents}

theorem publish_files (resolved : summaryPaths paths ((change.get "id").textD "") = .ok summary)
    (shardWritten : events.shardWrite = .replaced) (pointerWritten : events.pointerWrite.replaces = true)
    (files : Files) : ((publishSummaryForChange runtime paths change (some operationId) events).run files).2 =
      writtenTo runtime summary.pointerPath
        (publishedPointer runtime summary change operationId events.publishedAt)
        (writtenTo runtime (shardPathFor runtime summary change) (publishedShard change operationId) files) := by
  simp only [publishSummaryForChange, resolved, Program.run_andThen, shardWritten, writeJson,
    Program.run_act, Program.run_finish, Option.getD_some]
  cases event : events.pointerWrite with
  | failed error => rw [event] at pointerWritten; cases pointerWritten
  | replaced => rfl
  | replacedThenFailed error => rfl

theorem written_shard {changeId : String} (resolved : summaryPaths paths changeId = .ok summary)
    (pointer : JsVal) (files : Files) : writtenTo runtime summary.pointerPath pointer
        (writtenTo runtime (shardPathFor runtime summary change) (publishedShard change operationId)
          files) (shardPathFor runtime summary change) =
      .text (runtime.stringify (publishedShard change operationId)) := by
  have apart : shardPathFor runtime summary change ≠ summary.pointerPath :=
    shardPath_ne_pointerPath runtime resolved _
  simp [writtenTo, apart]

theorem publish_ok {files : Files} {shard pointer : JsVal}
    (published : ((publishSummaryForChange runtime paths change (some operationId) events).run files).1 =
      .ok (shard, pointer)) : ∃ summary, summaryPaths paths ((change.get "id").textD "") = .ok summary ∧
      events.shardWrite = .replaced ∧ events.pointerWrite = .replaced ∧
      shard = publishedShard change operationId ∧
      pointer = publishedPointer runtime summary change operationId events.publishedAt := by
  unfold publishSummaryForChange at published
  cases resolved : summaryPaths paths ((change.get "id").textD "") with
  | error error => rw [resolved] at published; cases published
  | ok summary =>
    simp only [resolved, Program.run_andThen] at published
    cases shardEvent : events.shardWrite with
    | failed error => rw [shardEvent] at published; cases published
    | replacedThenFailed error => rw [shardEvent] at published; cases published
    | replaced =>
      rw [shardEvent] at published
      simp only [writeJson, Program.run_act, Program.run_finish] at published
      cases pointerEvent : events.pointerWrite with
      | failed error => rw [pointerEvent] at published; cases published
      | replacedThenFailed error => rw [pointerEvent] at published; cases published
      | replaced =>
        rw [pointerEvent] at published
        cases published
        exact ⟨summary, rfl, rfl, rfl, rfl, rfl⟩

end

theorem readSummary_ok {type id : String} {content : FileText} {data : JsVal} {fault : Option ReadFault}
    (read : readBoundedSummaryJson runtime schema type id (.text content) fault = .ok data) :
    ∃ parsed, content.json = .ok parsed ∧ schema parsed = .ok data := by
  cases fault with
  | some fault => cases fault <;> simp [readBoundedSummaryJson, readBoundedProjectionDocument] at read
  | none =>
    by_cases oversized : PROJECTION_DOCUMENT_BYTE_LIMIT < content.bytes
    · simp [readBoundedSummaryJson, readBoundedProjectionDocument, oversized] at read
    · simp only [readBoundedSummaryJson, readBoundedProjectionDocument, if_neg oversized] at read
      cases json : content.json with
      | error error => rw [json] at read; cases read
      | ok parsed =>
        simp only [json] at read
        cases checked : schema parsed with
        | error issues => rw [checked] at read; cases read
        | ok found => rw [checked] at read; cases read; exact ⟨parsed, rfl, checked⟩

theorem readSummary_stringify {type id : String} {value data : JsVal} {fault : Option ReadFault}
    (read : readBoundedSummaryJson runtime schema type id (.text (runtime.stringify value)) fault =
      .ok data) : schema value.toJson = .ok data := by
  obtain ⟨parsed, json, checked⟩ := readSummary_ok read
  cases json
  exact checked

section

variable {runtime : Runtime} {call : SummaryCall} {summary : SummaryPaths}

theorem prove_files (projectionRevision : JsNumber) (shard pointer : JsVal) (files : Files) :
    ((provePublication runtime call summary projectionRevision shard pointer).run files).2 = files := by
  simp only [provePublication, Program.run_look]
  split
  · rfl
  · rfl
  · split
    · rfl
    · simp only [Program.run_look]
      split
      · rfl
      · rfl
      · split <;> rfl

theorem hook_files (context : ProjectionCommitAfterCommitContext) (files : Files) :
    ((summaryAfterCommit runtime call summary context).run files).2 =
      ((publishSummaryForChange runtime call.options.paths context.readback
        (some call.options.operationId) call.summaryEvents).run files).2 := by
  simp only [summaryAfterCommit, Program.run_andThen]
  cases ((publishSummaryForChange runtime call.options.paths context.readback
      (some call.options.operationId) call.summaryEvents).run files).1 with
  | error error => rfl
  | ok published => exact prove_files _ _ _ _

theorem prove_ok {projectionRevision : JsNumber} {shard pointer : JsVal} {files : Files}
    {result : ProjectionCommitAfterCommitResult}
    (proven : ((provePublication runtime call summary projectionRevision shard pointer).run files).1 =
      .ok result) (fine : result = .nothing ∨ result = .ok) : ∃ readbackShard fault,
      readBoundedSummaryJson runtime ChangeSummaryShardSchema "summary shard readback"
        call.options.changeId (files ((pointer.get "shard_path").textD "")) fault = .ok readbackShard ∧
      readbackShard.get "id" = .str call.options.changeId := by
  have notFailed : ∀ error, result ≠ .failed error := by
    rcases fine with rfl | rfl <;> exact nofun
  simp only [provePublication, Program.run_look] at proven
  split at proven
  · cases proven; exact absurd rfl (notFailed _)
  · cases proven; exact absurd rfl (notFailed _)
  · split at proven
    · cases proven; exact absurd rfl (notFailed _)
    · simp only [Program.run_look] at proven
      split at proven
      · cases proven; exact absurd rfl (notFailed _)
      · cases proven; exact absurd rfl (notFailed _)
      next readbackShard read =>
        split at proven
        · cases proven; exact absurd rfl (notFailed _)
        next matching =>
          simp only [shardMatches, Bool.not_eq_true', Bool.not_eq_false, decide_eq_true_eq] at matching
          exact ⟨readbackShard, _, read, matching.2.2.2⟩

structure Published (runtime : Runtime) (summary : SummaryPaths) (call : SummaryCall)
    (disk : Disk Files) (snapshot : JsVal) : Prop where
  reached : ∃ plan, ReachesHook runtime (call.commitCall runtime summary) disk plan snapshot
  shardWritten : call.summaryEvents.shardWrite = .replaced
  pointerWritten : call.summaryEvents.pointerWrite.replaces = true
  own : snapshot.get "id" = .str call.options.changeId

def pointerFileOf (runtime : Runtime) (summary : SummaryPaths) (call : SummaryCall) (snapshot : JsVal) : FileState :=
  .text (runtime.stringify (publishedPointer runtime summary snapshot call.options.operationId
    call.summaryEvents.publishedAt))

def shardFileOf (runtime : Runtime) (call : SummaryCall) (snapshot : JsVal) : FileState :=
  .text (runtime.stringify (publishedShard snapshot call.options.operationId))

theorem Published.leaves {disk : Disk Files} {snapshot : JsVal}
    (published : Published runtime summary call disk snapshot)
    (resolved : summaryPaths call.options.paths call.options.changeId = .ok summary) :
    Loads runtime (commitChangeProjection runtime (call.commitCall runtime summary) disk).2.change snapshot ∧
      (commitChangeProjection runtime (call.commitCall runtime summary) disk).2.aux summary.pointerPath =
        pointerFileOf runtime summary call snapshot ∧
      (commitChangeProjection runtime (call.commitCall runtime summary) disk).2.aux
        (shardPathFor runtime summary snapshot) = shardFileOf runtime call snapshot := by
  obtain ⟨plan, reaches⟩ := published.reached
  have ownPaths : summaryPaths call.options.paths ((snapshot.get "id").textD "") = .ok summary := by
    rw [published.own]
    exact resolved
  have files : (commitChangeProjection runtime (call.commitCall runtime summary) disk).2.aux =
      writtenTo runtime summary.pointerPath (publishedPointer runtime summary snapshot call.options.operationId
          call.summaryEvents.publishedAt)
        (writtenTo runtime (shardPathFor runtime summary snapshot)
          (publishedShard snapshot call.options.operationId) disk.aux) := by
    rw [commit_reached reaches rfl]
    simp only [hook_files]
    exact publish_files ownPaths published.shardWritten published.pointerWritten disk.aux
  refine ⟨?_, ?_, ?_⟩
  · rw [commit_reached reaches rfl]
    exact reaches.readable
  · rw [files]
    simp [writtenTo, pointerFileOf]
  · rw [files]
    exact written_shard resolved _ disk.aux

/-- A first run that is reported committed has published its readback. -/
theorem published_of_committed {disk : Disk Files} {value readback audit : JsVal} {revision : JsNumber}
    (result : (commitChangeProjection runtime (call.commitCall runtime summary) disk).1 =
      .ok (.committed value revision readback audit false)) : Published runtime summary call disk readback := by
  rcases commit_committed result with ⟨_, plan, written, _, _, _, confirmed⟩ | ⟨replayed, _⟩
  · have committed :
        isCommitted (commitChangeProjection runtime (call.commitCall runtime summary) disk).1 = true := by
      rw [result]
      rfl
    obtain ⟨outcome, followed, fine⟩ : ∃ outcome,
        ((summaryAfterCommit runtime call summary (afterCommitContext plan readback)).run disk.aux).1 =
          .ok outcome ∧ (outcome = .nothing ∨ outcome = .ok) := by
      rcases confirmed.followedUp _ rfl with nothing | ok
      · exact ⟨_, nothing, .inl rfl⟩
      · exact ⟨_, ok, .inr rfl⟩
    simp only [summaryAfterCommit, Program.run_andThen, afterCommitContext] at followed
    cases publication : ((publishSummaryForChange runtime call.options.paths readback
        (some call.options.operationId) call.summaryEvents).run disk.aux).1 with
    | error error => rw [publication] at followed; cases followed
    | ok documents =>
      rw [publication] at followed
      obtain ⟨shard, pointer⟩ := documents
      obtain ⟨summary', resolved', shardWritten, pointerWritten, rfl, rfl⟩ := publish_ok publication
      obtain ⟨readbackShard, fault, read, ownShard⟩ := prove_ok followed fine
      -- the readback finds the shard that was just written, so the shard's id is its own
      have shardPath : ((publishedPointer runtime summary' readback call.options.operationId
          call.summaryEvents.publishedAt).get "shard_path").textD "" = shardPathFor runtime summary' readback := by
        simp [publishedPointer, summaryPointer, lookup, textD, shardPathFor]
      rw [shardPath, publish_files resolved' shardWritten (by rw [pointerWritten]; rfl),
        written_shard resolved'] at read
      obtain ⟨source, _, _, _, _, valid⟩ := confirmed.readable
      have sameId := shard_parsed valid (readSummary_stringify read) "id"
      refine ⟨⟨plan, confirmed.reaches written committed⟩, shardWritten, by rw [pointerWritten]; rfl, ?_⟩
      rw [← derived_id readback call.options.operationId (revisionOf readback), ← ownShard]
      exact sameId.symm
  · cases replayed

end

end Advance.Storage
