import Advance.JavaScript.Schema

/-! # The change record and its schema

`ChangeSchema` lists every field of a change in the order of the source.  The
nested schemas no modelled function looks into are fields of `FieldSchemas`, so
that everything proved here holds whatever they accept.
-/

namespace Advance.Types

open Advance.JavaScript Advance.JavaScript.Schema

/-- Nested schemas of a change that are kept as given. -/
structure FieldSchemas where
  task : Schema
  delta : Schema
  gateCompletion : Schema
  wisdomEntry : Schema
  changeClosure : Schema
  reentryHistoryEntry : Schema
  other : String → Schema

def GATE_ORDER : List String :=
  ["proposal", "discovery", "design", "planning", "execution", "acceptance", "release"]

def GatesSchema (fields : FieldSchemas) : Schema :=
  object .strip (GATE_ORDER.map fun gate =>
    (gate, withDefault (.obj [("status", .str "pending")]) fields.gateCompletion))

def ReportFollowUpRefSchema : Schema :=
  object .strict [("report_key", stringMin 1), ("kind", enum ["follow_ups", "required_follow_ups"]),
     ("index", intMin 0)]

def FastFollowOfSchema : Schema :=
  object .strip [("parent_change_id", string), ("linked_at", string),
     ("followup_ref", optional ReportFollowUpRefSchema)]

def EpicMembershipSchema : Schema :=
  object .strip [("epic_id", string), ("entry_id", string), ("order", intMin 0), ("title", string),
     ("linked_at", string),
     ("epic_project_id", optional string),
     ("repo_id", optional string),
     ("source", optional (enum ["create", "promote_shell", "link_existing", "move"]))]

def ProjectionCommitAuditEntrySchema : Schema :=
  object .strip [("mutation_kind", stringMin 1), ("authority_kind", enum ["mutation", "recovery", "temporal"]),
     ("authority_reason", optional string),
     ("authority_evidence", optional string),
     ("mutation_receipt_id", optional string),
     ("recovery_reason", optional string),
     ("recovery_evidence", optional string),
     ("operation_id", optional (stringMin 1)),
     ("payload_hash", optional (stringMin 1)),
     ("state_revision", optional intNonnegative),
     ("prior_revision", intNonnegative),
     ("new_revision", intNonnegative),
     ("committed_at", string),
     ("payload", optional (record any))]

def DocumentsSchema : Schema :=
  object .strip [("proposal", optional string), ("problemStatement", optional string), ("agreement", optional string),
     ("design", optional string),
     ("executiveSummary", optional string),
     ("acceptance", optional string)]

def changeShape (fields : FieldSchemas) : List (String × Schema) :=
  [("$schema", optional string),
   ("id", string),
   ("title", string),
   ("status", enum ["draft", "archived", "closed"]),
   ("lifecycleState", optional (enum ["open", "archived", "closed"])),
   ("created_at", string),
   ("created_by", optional string),
   ("tasks", withDefault (.arr []) (array fields.task)),
   ("subagent_reports", fields.other "subagent_reports"),
   ("test_runs", fields.other "test_runs"),
   ("deltas", withDefault (.obj []) (record (array fields.delta))),
   ("validation", fields.other "validation"),
   ("wisdom", optional (array fields.wisdomEntry)),
   ("gates", optional (GatesSchema fields)),
   ("github_issues", fields.other "github_issues"),
   ("contract", fields.other "contract"),
   ("acceptanceCriteria", fields.other "acceptanceCriteria"),
   ("acceptanceReadinessRevision", optional intNonnegative),
   ("acceptanceCriteriaSnapshot", fields.other "acceptanceCriteriaSnapshot"),
   ("documents", optional DocumentsSchema),
   ("artifacts", fields.other "artifacts"),
   ("closure", optional fields.changeClosure),
   ("clarify_findings", fields.other "clarify_findings"),
   ("reentry_history", optional (array fields.reentryHistoryEntry)),
   ("cross_project_origin", fields.other "cross_project_origin"),
   ("cross_project_links", fields.other "cross_project_links"),
   ("external_dependencies", fields.other "external_dependencies"),
   ("same_project_dependencies", fields.other "same_project_dependencies"),
   ("scope_repos", fields.other "scope_repos"),
   ("affectedProjects", fields.other "affectedProjects"),
   ("affectedPaths", fields.other "affectedPaths"),
   ("lastSignalAt", optional string),
   ("pendingCheckpoint", fields.other "pendingCheckpoint"),
   ("terminated", fields.other "terminated"),
   ("fast_follow_of", optional FastFollowOfSchema),
   ("origin", fields.other "origin"),
   ("adv_project_id", fields.other "adv_project_id"),
   ("worktree_auto_managed", fields.other "worktree_auto_managed"),
   ("target_worktree_path", fields.other "target_worktree_path"),
   ("scope_worktrees", fields.other "scope_worktrees"),
   ("seenReportIds", fields.other "seenReportIds"),
   ("seenReportIdsTotal", fields.other "seenReportIdsTotal"),
   ("design_concern_dispositions", fields.other "design_concern_dispositions"),
   ("verification_evidence_dispositions", fields.other "verification_evidence_dispositions"),
   ("signal_rejections", fields.other "signal_rejections"),
   ("signal_rejections_total", fields.other "signal_rejections_total"),
   ("phase9_status", fields.other "phase9_status"),
   ("archive_projection_proof", fields.other "archive_projection_proof"),
   ("lightweight_profile", fields.other "lightweight_profile"),
   ("ops_followup", fields.other "ops_followup"),
   ("ops_followup_links", fields.other "ops_followup_links"),
   ("epic_membership", optional EpicMembershipSchema),
   ("coordination_claim", fields.other "coordination_claim"),
   ("creation_request_hash", fields.other "creation_request_hash"),
   ("projection_revision", optional intNonnegative),
   ("projection_commits", optional (array ProjectionCommitAuditEntrySchema)),
   ("state_revision", optional intNonnegative),
   ("operation_ledger", fields.other "operation_ledger")]

def ChangeSchema (fields : FieldSchemas) : Schema := object .passthrough (changeShape fields)

/-- A change with its required fields only. -/
def bareChange (id : String) : JsVal :=
  .obj [("id", .str id), ("title", .str "title"), ("status", .str "draft"),
    ("created_at", .str "2026-01-01T00:00:00.000Z")]

/-! ## What a parsed change holds -/

theorem changeShape_distinct (fields : FieldSchemas) : ((changeShape fields).map Prod.fst).Nodup := by
  have keys : (changeShape fields).map Prod.fst = (changeShape ⟨any, any, any, any, any, any, fun _ => any⟩).map Prod.fst := rfl
  rw [keys]
  decide_cbv

variable {fields : FieldSchemas} {v change : JsVal}

section

variable (parsed : ChangeSchema fields v = .ok change)
include parsed

theorem ChangeSchema_get {key : String} {schema : Schema}
    (member : (key, schema) ∈ changeShape fields) : schema (v.get key) = .ok (change.get key) :=
  object_get parsed (changeShape_distinct fields) member

theorem ChangeSchema_ok :
    (∃ entries, v = .obj entries) ∧ ∃ entries, change = .obj entries := by
  obtain ⟨entries, _, _, rfl, _, rfl, _⟩ := object_ok parsed
  exact ⟨⟨_, rfl⟩, _, rfl⟩

theorem revision_kept {key : String}
    (member : (key, optional intNonnegative) ∈ changeShape fields) : change.get key = v.get key ∧
      (v.get key = .undefined ∨ ∃ value : JsNumber, v.get key = .num value ∧ 0 ≤ value) := by
  rcases optional_ok (ChangeSchema_get parsed member) with ⟨absent, kept⟩ | ⟨_, checked⟩
  · exact ⟨kept.trans absent.symm, .inl absent⟩
  · obtain ⟨kept, value, isNumber, _, _, nonnegative⟩ := intMin_ok checked
    exact ⟨kept, .inr ⟨value, isNumber, nonnegative⟩⟩

end

theorem projection_revision_member (fields : FieldSchemas) :
    ("projection_revision", optional intNonnegative) ∈ changeShape fields := by
  simp [changeShape]

theorem state_revision_member (fields : FieldSchemas) :
    ("state_revision", optional intNonnegative) ∈ changeShape fields := by
  simp [changeShape]

theorem projection_commits_member (fields : FieldSchemas) :
    ("projection_commits", optional (array ProjectionCommitAuditEntrySchema)) ∈ changeShape fields := by
  simp [changeShape]

theorem stable_fastFollowOf : Stable FastFollowOfSchema := by
  apply stable_object (by decide) (by decide)
  intro entry member
  simp only [List.mem_cons, List.not_mem_nil, or_false] at member
  rcases member with rfl | rfl | rfl
  · exact keepsAtoms_string.stable
  · exact keepsAtoms_string.stable
  · apply stable_optional
    apply stable_object (by decide) (by decide)
    intro entry member
    simp only [List.mem_cons, List.not_mem_nil, or_false] at member
    rcases member with rfl | rfl | rfl
    · exact (keepsAtoms_stringMin 1).stable
    · exact (keepsAtoms_enum _).stable
    · exact (keepsAtoms_intMin 0).stable

theorem stable_epicMembership : Stable EpicMembershipSchema := by
  apply stable_object (by decide) (by decide)
  intro entry member
  simp only [List.mem_cons, List.not_mem_nil, or_false] at member
  rcases member with rfl | rfl | rfl | rfl | rfl | rfl | rfl | rfl
  · exact keepsAtoms_string.stable
  · exact keepsAtoms_string.stable
  · exact (keepsAtoms_intMin 0).stable
  · exact keepsAtoms_string.stable
  · exact keepsAtoms_string.stable
  · exact (keepsAtoms_optional keepsAtoms_string).stable
  · exact (keepsAtoms_optional keepsAtoms_string).stable
  · exact (keepsAtoms_optional (keepsAtoms_enum _)).stable

end Advance.Types
