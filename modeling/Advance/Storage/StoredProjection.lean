import Advance.Storage.ProjectionCommitSteps

/-! # What a projection file records of its commits

The revision, the state revision and the audit trail of a stored document, read
from its JSON, and what loading and writing make of them.
-/

namespace Advance.Storage

open Advance.JavaScript Advance.JavaScript.JsVal Advance.JavaScript.Schema Advance.Types
open Advance.Foundation

variable {Aux : Type}

/-! ## Views -/

def revisionOf (change : JsVal) : JsNumber := (change.get "projection_revision").numberD 0

def stateRevisionOf (change : JsVal) : JsNumber := (change.get "state_revision").numberD 0

/-- What replay detection and the state fence look at in an audit entry. -/
structure AuditView where
  operationId : JsVal
  payloadHash : JsVal
  stateRevision : JsVal
  newRevision : JsVal
  deriving DecidableEq

def auditView (entry : JsVal) : AuditView :=
  ⟨entry.get "operation_id", entry.get "payload_hash", entry.get "state_revision", entry.get "new_revision"⟩

def trailOf (change : JsVal) : List AuditView := (auditEntries change).map auditView

/-- The view of the entry a call appends. -/
def callView (options : CommitChangeProjectionOptions Aux) (newRevision : JsNumber) : AuditView :=
  ⟨ofStr options.operationId, ofStr options.payloadHash, ofNum options.stateRevision, .num newRevision⟩

structure AuditView.Atomic (view : AuditView) : Prop where
  operationId : view.operationId.isAtom = true
  payloadHash : view.payloadHash.isAtom = true
  stateRevision : view.stateRevision.isAtom = true
  newRevision : view.newRevision.isAtom = true

theorem AuditView.ext_fields {left right : AuditView} (operationId : left.operationId = right.operationId)
    (payloadHash : left.payloadHash = right.payloadHash) (stateRevision : left.stateRevision = right.stateRevision)
    (newRevision : left.newRevision = right.newRevision) : left = right := by
  cases left
  cases right
  simp only [AuditView.mk.injEq]
  exact ⟨operationId, payloadHash, stateRevision, newRevision⟩

/-! ## Loading -/

theorem auditEntry_parsed {entry out : JsVal} (parsed : ProjectionCommitAuditEntrySchema entry = .ok out) :
    auditView out = auditView entry ∧ (auditView entry).Atomic := by
  have field : ∀ key schema, (key, schema) ∈ ([("mutation_kind", stringMin 1),
      ("authority_kind", Schema.enum ["mutation", "recovery", "temporal"]),
      ("authority_reason", Schema.optional string), ("authority_evidence", Schema.optional string),
      ("mutation_receipt_id", Schema.optional string), ("recovery_reason", Schema.optional string),
      ("recovery_evidence", Schema.optional string), ("operation_id", Schema.optional (stringMin 1)),
      ("payload_hash", Schema.optional (stringMin 1)),
      ("state_revision", Schema.optional intNonnegative), ("prior_revision", intNonnegative),
      ("new_revision", intNonnegative), ("committed_at", string),
      ("payload", Schema.optional (record any))] : List (String × Schema)) →
      schema (entry.get key) = .ok (out.get key) := by
    intro key schema member
    exact object_get parsed (by simp) member
  obtain ⟨operationKept, operationAtom⟩ := keepsAtoms_optional (keepsAtoms_stringMin 1) _ _
    (field "operation_id" _ (by simp))
  obtain ⟨payloadKept, payloadAtom⟩ := keepsAtoms_optional (keepsAtoms_stringMin 1) _ _
    (field "payload_hash" _ (by simp))
  obtain ⟨stateKept, stateAtom⟩ := keepsAtoms_optional (keepsAtoms_intMin 0) _ _
    (field "state_revision" _ (by simp [intNonnegative]))
  obtain ⟨revisionKept, revisionAtom⟩ := keepsAtoms_intMin 0 _ _ (field "new_revision" _ (by simp [intNonnegative]))
  exact ⟨AuditView.ext_fields operationKept payloadKept stateKept revisionKept,
    operationAtom, payloadAtom, stateAtom, revisionAtom⟩

variable {fields : FieldSchemas} {v change : JsVal}

theorem commits_shape (parsed : ChangeSchema fields v = .ok change) : change.get "projection_commits" = .undefined ∨
      ∃ entries, change.get "projection_commits" = .arr entries := by
  rcases optional_ok (ChangeSchema_get parsed (projection_commits_member fields)) with
    ⟨_, absent⟩ | ⟨_, present⟩
  · exact .inl absent
  · obtain ⟨_, entries, _, out, _⟩ := array_ok present
    exact .inr ⟨entries, out⟩

theorem parsed_trail (parsed : ChangeSchema fields v = .ok change) :
    trailOf change = trailOf v ∧ ∀ view ∈ trailOf v, view.Atomic := by
  rcases optional_ok (ChangeSchema_get parsed (projection_commits_member fields)) with
    ⟨absent, stays⟩ | ⟨_, present⟩
  · simp [trailOf, auditEntries, absent, stays, elements]
  · obtain ⟨values, entries, source, out, each⟩ := array_ok present
    simp only [trailOf, auditEntries, source, out, elements]
    clear source out present
    induction each with
    | nil => simp
    | cons head tail ih =>
      obtain ⟨same, atomic⟩ := auditEntry_parsed head
      simp only [List.map_cons, same, ih.1, List.mem_cons, forall_eq_or_imp, true_and]
      exact ⟨atomic, ih.2⟩

theorem normalized_auditView {entry : JsVal} (atomic : (auditView (normalizeInner entry)).Atomic) :
    auditView (normalizeInner entry) = auditView entry := by
  have field : ∀ key, key ∈ ["operation_id", "payload_hash", "state_revision", "new_revision"] →
      (normalizeInner entry).get key = normalizeInner (entry.get key) := by
    intro key member
    apply normalizeInner_get <;> rintro rfl <;> simp at member
  have operation := field "operation_id" (by simp)
  have payload := field "payload_hash" (by simp)
  have state := field "state_revision" (by simp)
  have revision := field "new_revision" (by simp)
  obtain ⟨operationAtom, payloadAtom, stateAtom, revisionAtom⟩ := atomic
  simp only [auditView] at operationAtom payloadAtom stateAtom revisionAtom
  rw [operation] at operationAtom
  rw [payload] at payloadAtom
  rw [state] at stateAtom
  rw [revision] at revisionAtom
  exact AuditView.ext_fields (operation.trans (normalizeInner_atom operationAtom))
    (payload.trans (normalizeInner_atom payloadAtom)) (state.trans (normalizeInner_atom stateAtom))
    (revision.trans (normalizeInner_atom revisionAtom))

theorem normalized_trail {v : JsVal} (atomic : ∀ view ∈ trailOf (normalizeProjectionDocument v), view.Atomic) :
    trailOf (normalizeProjectionDocument v) = trailOf v := by
  have entries : auditEntries (normalizeProjectionDocument v) = (auditEntries v).map normalizeInner := by
    rw [auditEntries, normalizeProjectionDocument_get (by decide) (by decide) (by decide) (by decide),
      normalizeInner_elements, auditEntries]
  rw [trailOf, entries] at atomic ⊢
  rw [List.map_map, trailOf]
  apply List.map_congr_left
  intro entry member
  exact normalized_auditView (atomic _ (List.mem_map.mpr ⟨_, List.mem_map.mpr ⟨entry, member, rfl⟩, rfl⟩))

variable {runtime : Runtime} {file : FileState} {latest : JsVal}

theorem Loads.source (loads : Loads runtime file latest) :
    ChangeSchema runtime.fields (normalizeProjectionDocument (storedDocument file)) = .ok latest := by
  obtain ⟨⟨bytes, json⟩, parsed, rfl, _, json, checked⟩ := loads
  simp only at json
  subst json
  exact checked

theorem parsed_revision (parsed : ChangeSchema fields v = .ok change) : revisionOf change = revisionOf v := by
  rw [revisionOf, (revision_kept parsed (projection_revision_member fields)).1, revisionOf]

theorem parsed_state (parsed : ChangeSchema fields v = .ok change) : stateRevisionOf change = stateRevisionOf v := by
  rw [stateRevisionOf, (revision_kept parsed (state_revision_member fields)).1, stateRevisionOf]

theorem load_revision (loads : Loads runtime file latest) : revisionOf latest = revisionOf (storedDocument file) := by
  rw [parsed_revision loads.source, revisionOf,
    normalizeProjectionDocument_get (by decide) (by decide) (by decide) (by decide),
    normalizeInner_numberD, revisionOf]

theorem load_state (loads : Loads runtime file latest) :
    stateRevisionOf latest = stateRevisionOf (storedDocument file) := by
  rw [parsed_state loads.source, stateRevisionOf,
    normalizeProjectionDocument_get (by decide) (by decide) (by decide) (by decide),
    normalizeInner_numberD, stateRevisionOf]

theorem load_trail (loads : Loads runtime file latest) : trailOf latest = trailOf (storedDocument file) := by
  obtain ⟨same, atomic⟩ := parsed_trail loads.source
  exact same.trans (normalized_trail atomic)

/-- A repair parser that leaves what a view reads as it is. -/
def NormalizerKeeps {View : Type} (options : CommitChangeProjectionOptions Aux) (view : JsVal → View) : Prop :=
  ∀ normalize raw normalized, options.normalizeLatestProjection = some normalize →
    normalize raw = .ok normalized → view normalized = view raw

variable {call : CommitCall Aux}

theorem latest_view {View : Type} {view : JsVal → View} (read : readLatest runtime call file = .ok latest)
    (kept : NormalizerKeeps call.options view)
    (loading : Loads runtime file latest → view latest = view (storedDocument file))
    (parsing : ∀ v, ChangeSchema runtime.fields v = .ok latest → view latest = view v) :
    view latest = view (storedDocument file) := by
  rcases readLatest_ok read with loads | ⟨normalize, normalized, parser, repaired, checked⟩
  · exact loading loads
  · exact (parsing normalized checked).trans (kept normalize _ normalized parser repaired)

section

variable (read : readLatest runtime call file = .ok latest)
include read

theorem latest_revision
    (kept : NormalizerKeeps call.options revisionOf) : revisionOf latest = revisionOf (storedDocument file) :=
  latest_view read kept load_revision (fun _ => parsed_revision)

theorem latest_state (kept : NormalizerKeeps call.options stateRevisionOf) :
    stateRevisionOf latest = stateRevisionOf (storedDocument file) :=
  latest_view read kept load_state (fun _ => parsed_state)

theorem latest_trail (kept : NormalizerKeeps call.options trailOf) :
    trailOf latest = trailOf (storedDocument file) :=
  latest_view read kept load_trail (fun _ parsed => (parsed_trail parsed).1)

end

theorem parsed_id {source change : JsVal} (valid : ChangeSchema fields source = .ok change) :
    change.get "id" = source.get "id" ∧ ∃ id, source.get "id" = .str id := by
  have member : ("id", string) ∈ changeShape fields := by simp [changeShape]
  exact string_ok (ChangeSchema_get valid member)

theorem load_id {change : JsVal} (loads : Loads runtime file change) :
    change.get "id" = (storedDocument file).get "id" ∧ ∃ id, change.get "id" = .str id := by
  obtain ⟨same, id, named⟩ := parsed_id loads.source
  rw [normalizeProjectionDocument_get (by decide) (by decide) (by decide) (by decide)] at same named
  have kept : normalizeInner ((storedDocument file).get "id") = (storedDocument file).get "id" :=
    normalizeInner_atom (by rw [named]; rfl)
  rw [kept] at same named
  exact ⟨same, id, same.trans named⟩

/-! ## Writing -/

theorem stored_stringify (runtime : Runtime) (value : JsVal) :
    storedDocument (.text (runtime.stringify value)) = value.toJson := rfl

theorem revisionOf_toJson (v : JsVal) : revisionOf v.toJson = revisionOf v := by
  rw [revisionOf, get_toJson, revisionOf]
  cases v.get "projection_revision" <;> rfl

theorem stateRevisionOf_toJson (v : JsVal) : stateRevisionOf v.toJson = stateRevisionOf v := by
  rw [stateRevisionOf, get_toJson, stateRevisionOf]
  cases v.get "state_revision" <;> rfl

theorem serialized_auditView {entry : JsVal} (atomic : (auditView entry).Atomic) :
    auditView entry.toJson = auditView entry :=
  AuditView.ext_fields (get_toJson_atom atomic.operationId) (get_toJson_atom atomic.payloadHash)
    (get_toJson_atom atomic.stateRevision) (get_toJson_atom atomic.newRevision)

theorem serialized_trail {value : JsVal} {entries : List JsVal}
    (commits : value.get "projection_commits" = .arr entries) (atomic : ∀ entry ∈ entries, (auditView entry).Atomic) :
    trailOf value.toJson = entries.map auditView := by
  have serialized : auditEntries value.toJson = entries.map toJson := by
    rw [auditEntries, get_toJson, commits]
    simp [toJson, elements, toJsonList_eq_map]
  rw [trailOf, serialized, List.map_map]
  apply List.map_congr_left
  intro entry member
  exact serialized_auditView (atomic entry member)

section

variable (options : CommitChangeProjectionOptions Aux)
include options

theorem auditEntry_get (priorRevision : JsNumber)
    (committedAt : String) {key : String} (notPayload : key ≠ "payload") :
    (auditEntry options priorRevision committedAt).get key =
      (auditEntry { options with payload := none } priorRevision committedAt).get key := by
  have keyDiffers : ¬"payload" = key := fun same => notPayload same.symm
  cases supplied : options.payload with
  | none => simp [auditEntry, supplied]
  | some payload =>
    simp only [auditEntry, supplied, get_obj, List.append_nil]
    rw [lookup_append]
    split
    next missing => rw [missing]; simp [lookup, keyDiffers]
    next => rfl

theorem auditView_auditEntry (priorRevision : JsNumber)
    (committedAt : String) :
    auditView (auditEntry options priorRevision committedAt) = callView options (priorRevision + 1) := by
  apply AuditView.ext_fields
  · simp only [auditView, callView, auditEntry_get options priorRevision committedAt
      (by decide : "operation_id" ≠ "payload")]
    cases options.operationId <;> simp [auditEntry, lookup, ofStr]
  · simp only [auditView, callView, auditEntry_get options priorRevision committedAt
      (by decide : "payload_hash" ≠ "payload")]
    cases options.payloadHash <;> simp [auditEntry, lookup, ofStr]
  · simp only [auditView, callView, auditEntry_get options priorRevision committedAt
      (by decide : "state_revision" ≠ "payload")]
    cases options.stateRevision <;> simp [auditEntry, lookup, ofNum]
  · simp only [auditView, callView, auditEntry_get options priorRevision committedAt
      (by decide : "new_revision" ≠ "payload")]
    simp [auditEntry, lookup]

theorem callView_atomic (newRevision : JsNumber) :
    (callView options newRevision).Atomic :=
  ⟨isAtom_ofStr _, isAtom_ofStr _, isAtom_ofNum _, rfl⟩

end

/-- A mutation that returns the audit trail it was given. -/
def KeepsTrail (options : CommitChangeProjectionOptions Aux) : Prop :=
  ∀ entries mutated, options.mutateLatest (.obj entries) = .ok mutated →
    mutated.candidate.get "projection_commits" = lookup "projection_commits" entries

section Write

variable {runtime : Runtime} {call : CommitCall Aux} {disk : Disk Aux} {latest : JsVal}
  {mutated : Mutated} {plan : WritePlan}

section

variable (prepared : Prepared runtime call.options call.events.committedAt latest mutated plan)
include prepared

/-- The serialised plan carries the next revision. -/
theorem write_revision : revisionOf plan.value.toJson = revisionOf latest + 1 := by
  obtain ⟨_, priorCommits, _, value⟩ := buildValue_ok prepared.built
  rw [revisionOf, get_toJson, value]
  simp [toJson, numberD, prepared.new, prepared.prior, revisionOf]

/-- The serialised plan carries the call's state revision, or the one its mutation
    left in `latest`. -/
theorem write_state : stateRevisionOf plan.value.toJson =
      call.options.stateRevision.getD (stateRevisionOf mutated.latest) := by
  obtain ⟨_, priorCommits, _, value⟩ := buildValue_ok prepared.built
  rw [stateRevisionOf, get_toJson, value]
  cases call.options.stateRevision with
  | some stateRevision => simp [ofNum, orElse, isNullish, toJson, numberD]
  | none =>
    simp only [overlay_state, ofNum, orElse, isNullish, if_true, Option.getD_none, stateRevisionOf]
    cases mutated.latest.get "state_revision" <;> simp [toJson, numberD]

theorem write_lastEntry : (auditEntries plan.value.toJson).getLast? = some plan.audit.toJson := by
  obtain ⟨_, priorCommits, _, value⟩ := buildValue_ok prepared.built
  have entries : auditEntries plan.value.toJson =
      (BoundedLog.push PROJECTION_COMMIT_MAX_AUDIT_ENTRIES priorCommits plan.audit).map toJson := by
    rw [auditEntries, get_toJson, value, overlay_commits]
    simp [toJson, elements, toJsonList_eq_map]
  have newest := BoundedLog.getLast?_push (n := 49) priorCommits plan.audit
  rw [entries, List.getLast?_map]
  exact congrArg (Option.map toJson) newest

theorem write_last : (trailOf plan.value.toJson).getLast? = some (callView call.options plan.newRevision) := by
  have auditSeen : auditView plan.audit = callView call.options plan.newRevision := by
    rw [prepared.audit, auditView_auditEntry, prepared.new]
  rw [trailOf, List.getLast?_map, write_lastEntry prepared, Option.map_some, serialized_auditView, auditSeen]
  rw [auditSeen]
  exact callView_atomic _ _

/-- A mutation that keeps the trail has the call's entry appended to it, and the
    oldest entry dropped when it is full. -/
theorem write_trail
    (valid : ∃ source, ChangeSchema runtime.fields source = .ok latest) (keeps : KeepsTrail call.options) :
    trailOf plan.value.toJson = BoundedLog.push PROJECTION_COMMIT_MAX_AUDIT_ENTRIES (trailOf latest)
        (callView call.options plan.newRevision) := by
  obtain ⟨source, parsed⟩ := valid
  obtain ⟨_, priorCommits, iterated, value⟩ := buildValue_ok prepared.built
  have sameTrail : priorCommits = auditEntries latest := by
    obtain ⟨_, entries, rfl⟩ := ChangeSchema_ok parsed
    have kept : mutated.candidate.get "projection_commits" =
        (JsVal.obj entries).get "projection_commits" := keeps entries mutated prepared.mutation
    rw [kept] at iterated
    rw [auditEntries]
    rcases commits_shape parsed with absent | ⟨commits, present⟩
    · rw [absent] at iterated ⊢
      exact (Option.some.inj iterated).symm
    · rw [present] at iterated ⊢
      exact (Option.some.inj iterated).symm
  have auditSeen : auditView plan.audit = callView call.options plan.newRevision := by
    rw [prepared.audit, auditView_auditEntry, prepared.new]
  have commits : plan.value.get "projection_commits" =
      .arr (BoundedLog.push PROJECTION_COMMIT_MAX_AUDIT_ENTRIES (auditEntries latest) plan.audit) := by
    rw [value, overlay_commits, sameTrail]
  rw [serialized_trail commits, BoundedLog.map_push, auditSeen, trailOf]
  intro entry member
  rcases BoundedLog.mem_push member with earlier | rfl
  · obtain ⟨same, atomic⟩ := parsed_trail parsed
    exact atomic _ (same ▸ List.mem_map.mpr ⟨entry, earlier, rfl⟩)
  · rw [auditSeen]
    exact callView_atomic _ _

theorem readback_proven {readback : JsVal} (loads : Loads runtime (.text (runtime.stringify plan.value)) readback) :
    checkReadback runtime call.options plan readback = .ok () := by
  have revision : (readback.get "projection_revision").numberD 0 = plan.newRevision := by
    change revisionOf readback = plan.newRevision
    rw [load_revision loads, stored_stringify, write_revision prepared, prepared.new, prepared.prior, revisionOf]
  have state : ∀ stateRevision, call.options.stateRevision = some stateRevision →
      (readback.get "state_revision").numberD 0 = stateRevision := by
    intro stateRevision supplied
    change stateRevisionOf readback = stateRevision
    rw [load_state loads, stored_stringify, write_state prepared, supplied, Option.getD_some]
  obtain ⟨lastEntry, last, seen⟩ : ∃ lastEntry, (auditEntries readback).getLast? = some lastEntry ∧
      auditView lastEntry = callView call.options plan.newRevision := by
    have newest := write_last prepared
    rw [← stored_stringify runtime, ← load_trail loads, trailOf, List.getLast?_map] at newest
    simpa using newest
  have operation : lastEntry.get "operation_id" = ofStr call.options.operationId :=
    congrArg AuditView.operationId seen
  have payload : lastEntry.get "payload_hash" = ofStr call.options.payloadHash :=
    congrArg AuditView.payloadHash seen
  have entryState : lastEntry.get "state_revision" = ofNum call.options.stateRevision :=
    congrArg AuditView.stateRevision seen
  simp only [checkReadback, revision, last, Option.getD_some, operation, payload, entryState, ne_eq,
    not_true_eq_false, and_false, or_false, if_false]
  cases supplied : call.options.stateRevision with
  | none => rfl
  | some stateRevision => simp [state stateRevision supplied]

end

end Write

end Advance.Storage
