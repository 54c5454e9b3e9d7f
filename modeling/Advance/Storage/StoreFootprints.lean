import Advance.Storage.StoreDisk
import Advance.Storage.StoredProjection

/-! # What the store's mutators touch

Each mutator writes to fixed places of the change and leaves everything apart from
them as it was loaded.
-/

namespace Advance.Storage

open Advance.JavaScript Advance.JavaScript.JsVal Advance.JavaScript.Schema Advance.Types

/-! ## Places -/

def touching (condition : Bool) (key : String) : List String := if condition then [key] else []

def TaskUpdate.keys (update : TaskUpdate) : List String :=
  "status" :: (touching (update.status = "in_progress") "started_at" ++ touching update.finishes "completed_at" ++
    touching (update.finishes && (ofStr update.notes).isTruthy) "completed_by" ++
    touching (update.implementationSummary ≠ .undefined) "implementation_summary" ++
    touching (update.errorRecovery ≠ .undefined) "error_recovery" ++
    touching (update.touchedFiles ≠ .undefined) "touched_files")

def memberPlaces (keys : List String) : List Place := keys.map fun key => [.member key]

def taskPlaces (taskId : String) (keys : List String) : List Place :=
  (memberPlaces keys).map fun place => .member "tasks" :: .entry taskId :: place

def wisdomId (runtime : Runtime) (clock : Clock) (input : WisdomInput) : String :=
  match runtime.fields.wisdomEntry (newWisdom clock input) with
  | .ok entry => (entry.get "id").textD ""
  | .error _ => ""

def StoreMutation.places (runtime : Runtime) (clock : Clock) : StoreMutation → List Place
  | tasksAdd _ _ => [[.member "tasks", .entry (monotonicId "tk" clock)]]
  | tasksUpdate taskId update => taskPlaces taskId update.keys
  | tasksCancel taskId _ => taskPlaces taskId ["status", "cancellation", "completed_at"]
  | wisdomAdd input => [[.member "wisdom", .entry (wisdomId runtime clock input)]]
  | specDeltasAdd capability delta | specDeltasRemove capability delta =>
    [[.member "deltas", .member capability, .entry (deltaId delta)]]
  | gatesComplete gateId _ => [[.member "gates", .member gateId]]
  | gatesReopenFrom reopening =>
    [.member "reentry_history"] :: (memberPlaces (downstreamGates reopening.fromGate)).map (.member "gates" :: ·)
  | changesClose _ => [[.member "status"], [.member "closure"]]
  | setEpicMembership _ => [[.member "epic_membership"]]

/-! ## A loaded change -/

section

variable {fields : FieldSchemas} {source change : JsVal}

section

variable (valid : ChangeSchema fields source = .ok change)
include valid

theorem change_isObject : ∃ entries, change = .obj entries := (ChangeSchema_ok valid).2

theorem tasks_isArray : change.get "tasks" = .arr (change.get "tasks").elements := by
  have member : ("tasks", withDefault (.arr []) (array fields.task)) ∈ changeShape fields := by
    simp [changeShape]
  have parsed := ChangeSchema_get valid member
  rcases withDefault_ok parsed with ⟨_, absent⟩ | ⟨_, listed⟩
  · rw [absent]
    rfl
  · obtain ⟨_, values, _, isArray, _⟩ := array_ok listed
    rw [isArray]
    rfl

theorem deltas_isObject : ∃ entries, change.get "deltas" = .obj entries := by
  have member : ("deltas", withDefault (.obj []) (record (array fields.delta))) ∈ changeShape fields := by
    simp [changeShape]
  have parsed := ChangeSchema_get valid member
  rcases withDefault_ok parsed with ⟨_, absent⟩ | ⟨_, listed⟩
  · exact ⟨[], absent⟩
  · obtain ⟨_, entries, _, isObject, _⟩ := record_ok listed
    exact ⟨entries, isObject⟩

theorem gates_isObject : change.get "gates" = .undefined ∨ ∃ entries, change.get "gates" = .obj entries := by
  have member : ("gates", optional (GatesSchema fields)) ∈ changeShape fields := by simp [changeShape]
  rcases optional_ok (ChangeSchema_get valid member) with ⟨_, absent⟩ | ⟨_, parsed⟩
  · exact .inl absent
  · obtain ⟨_, _, _, _, _, isObject, _⟩ := object_ok parsed
    exact .inr ⟨_, isObject⟩

theorem wisdom_isArray : change.get "wisdom" = .undefined ∨ ∃ values, change.get "wisdom" = .arr values := by
  have member : ("wisdom", optional (array fields.wisdomEntry)) ∈ changeShape fields := by
    simp [changeShape]
  rcases optional_ok (ChangeSchema_get valid member) with ⟨_, absent⟩ | ⟨_, parsed⟩
  · exact .inl absent
  · obtain ⟨_, values, _, isArray, _⟩ := array_ok parsed
    exact .inr ⟨values, isArray⟩

theorem delta_isArray (capability : String) : (change.get "deltas").get capability = .undefined ∨
      ∃ values, (change.get "deltas").get capability = .arr values := by
  have member : ("deltas", withDefault (.obj []) (record (array fields.delta))) ∈ changeShape fields := by
    simp [changeShape]
  have parsed := ChangeSchema_get valid member
  rcases withDefault_ok parsed with ⟨_, absent⟩ | ⟨_, listed⟩
  · rw [absent]
    exact .inl rfl
  · obtain ⟨_, entries, -, isObject, each⟩ := record_ok listed
    rw [isObject, get_obj]
    clear isObject listed parsed member
    induction each with
    | nil => exact .inl rfl
    | @cons _ parsedEntry _ _ head _ ih =>
      obtain ⟨_, values, _, isArray, _⟩ := array_ok head.2
      obtain ⟨key, value⟩ := parsedEntry
      simp only at isArray
      subst isArray
      by_cases same : key = capability
      · exact .inr ⟨values, by simp [lookup, same]⟩
      · simpa [lookup, same] using ih

end

end

/-! ## Frames -/

theorem framed_appendTo {list added : JsVal} {id : String} (isList : list = .undefined ∨ ∃ values, list = .arr values)
    (named : ∀ other, added.get "id" = .str other → other = id) :
    Framed [[.entry id]] list (.arr ((list.orElse (.arr [])).elements ++ [added])) := by
  rcases isList with rfl | ⟨values, rfl⟩
  · exact (framed_append named []).of_nullish rfl valueAt_emptyList
  · exact framed_append named values

variable {v : JsVal}

theorem named_textD : ∀ other, v.get "id" = .str other → other = (v.get "id").textD "" := by
  intro other named
  rw [named]
  rfl

theorem isObject_of_named {key id : String} (named : v.get key = .str id) : ∃ entries, v = .obj entries := by
  cases v with
  | obj entries => exact ⟨entries, rfl⟩
  | _ => cases named

structure TouchesOnly (keys : List String) (before after : JsVal) : Prop where
  isObject : ∃ entries, after = .obj entries
  framed : Framed (memberPlaces keys) before after

theorem TouchesOnly.refl (isObject : ∃ entries, v = .obj entries) : TouchesOnly [] v v :=
  ⟨isObject, Framed.refl _ v⟩

variable {before after : JsVal} {keys : List String}

theorem TouchesOnly.set (touches : TouchesOnly keys before after)
    (key : String) (value : JsVal) : TouchesOnly (keys ++ [key]) before (after.set key value) := by
  refine ⟨isObject_set after key value, ?_⟩
  rw [memberPlaces, List.map_append]
  exact touches.framed.trans (framed_overwrite key value touches.isObject)

theorem TouchesOnly.setWhen
    (touches : TouchesOnly keys before after) {condition claimed : Bool} (key : String) (value : JsVal)
    (implied : condition = true → claimed = true) :
    TouchesOnly (keys ++ touching claimed key) before (setWhen condition key value after) := by
  cases condition with
  | false => exact ⟨touches.isObject, touches.framed.mono (List.map_subset _ (List.subset_append_left _ _))⟩
  | true =>
    rw [implied rfl]
    exact touches.set key value

theorem TouchesOnly.get_other (touches : TouchesOnly keys before after) {key : String} (unlisted : key ∉ keys) :
    after.get key = before.get key := by
  refine touches.framed [.member key] ?_
  intro touched member
  obtain ⟨other, listed, rfl⟩ := List.mem_map.mp member
  exact .inl fun same => unlisted (same ▸ listed)

theorem updatedTask_touches (clock : Clock) (update : TaskUpdate) {task : JsVal}
    (isObject : ∃ entries, task = .obj entries) : TouchesOnly update.keys task (updatedTask clock update task) := by
  unfold TaskUpdate.keys
  rw [← List.singleton_append]
  simp only [← List.append_assoc, updatedTask]
  refine .setWhen ?_ "touched_files" _ id
  refine .setWhen ?_ "error_recovery" _ id
  refine .setWhen ?_ "implementation_summary" _ id
  refine .setWhen ?_ "completed_by" _ id
  refine .setWhen ?_ "completed_at" _ id
  refine .setWhen ?_ "started_at" _ (fun started => (Bool.and_eq_true_iff.mp started).1)
  exact (TouchesOnly.refl isObject).set "status" _

theorem update_keeps_id (update : TaskUpdate) : "id" ∉ update.keys := by
  simp [TaskUpdate.keys, touching]

theorem cancelledTask_touches (clock : Clock) (cancellation : JsVal) {task : JsVal}
    (isObject : ∃ entries, task = .obj entries) :
    TouchesOnly ["status", "cancellation", "completed_at"] task (cancelledTask clock cancellation task) :=
  (((TouchesOnly.refl isObject).set "status" _).set "cancellation" _).set "completed_at" _

theorem resetGates_framed {gates : JsVal} (names : List String) (isObject : ∃ entries, gates = .obj entries) :
    Framed (memberPlaces names) gates (resetGates names gates) := by
  induction names generalizing gates with
  | nil => exact Framed.refl _ gates
  | cons name names ih =>
    have first := framed_overwrite name (.obj [("status", .str "pending")]) isObject
    exact first.trans (ih (isObject_set gates name _))

/-! ## Mutators -/

section

variable {runtime : Runtime} {clock : Clock} {changeId : String} {source change saved result : JsVal}

theorem framed_setList {v added : JsVal} {key id : String} (isObject : ∃ entries, v = .obj entries)
    (isList : v.get key = .undefined ∨ ∃ values, v.get key = .arr values)
    (named : ∀ other, added.get "id" = .str other → other = id) : Framed [[.member key, .entry id]] v
      (v.set key (.arr (((v.get key).orElse (.arr [])).elements ++ [added]))) :=
  framed_set isObject (framed_appendTo isList named) ⟨_, List.mem_singleton_self _⟩ (by simp)

section

variable (valid : ChangeSchema runtime.fields source = .ok change)
include valid

theorem mutateTask_framed {taskId key : String} {keys : List String} {mutate : JsVal → JsVal}
    (touches : ∀ task, (∃ entries, task = .obj entries) → TouchesOnly (key :: keys) task (mutate task))
    (keepsId : "id" ∉ key :: keys) (saves : mutateTask taskId mutate (some change) = .saves saved result) :
    Framed (taskPlaces taskId (key :: keys)) change saved := by
  simp only [mutateTask] at saves
  split at saves
  · cases saves
  · cases saves
    have updated : Framed ((memberPlaces (key :: keys)).map (.entry taskId :: ·))
        (.arr (change.get "tasks").elements)
        (.arr (updateEntry taskId mutate (change.get "tasks").elements)) := by
      apply framed_updateEntry
      · intro task named
        rw [(touches task (isObject_of_named named)).get_other keepsId]
        exact named
      · intro task named
        exact (touches task (isObject_of_named named)).framed
    rw [← tasks_isArray valid] at updated
    refine framed_set (change_isObject valid) updated ⟨_, List.mem_cons_self⟩ ?_
    intro touched member
    obtain ⟨place, listed, rfl⟩ := List.mem_map.mp member
    exact List.mem_map_of_mem listed

theorem appendDelta_framed {capability : String} {delta : JsVal} {conflict : String → JsVal → Option String}
    (saves : appendDelta runtime changeId capability delta conflict (some change) = .saves saved result) :
    Framed [[.member "deltas", .member capability, .entry (deltaId delta)]] change saved := by
  simp only [appendDelta] at saves
  split at saves
  · cases saves
  · split at saves
    · cases saves
    · cases saves
      obtain ⟨entries, isObject⟩ := deltas_isObject valid
      have given : (change.get "deltas").orElse (.obj []) = change.get "deltas" := by
        rw [isObject]
        rfl
      rw [given]
      have inside := framed_setList ⟨entries, isObject⟩ (delta_isArray valid capability) (named_textD (v := result))
      exact framed_set (change_isObject valid) inside ⟨_, List.mem_singleton_self _⟩ (by simp [deltaId])

theorem gatesReopenFrom_framed {reopening : Reopening}
    (saves : gatesReopenFrom clock reopening (some change) = .saves saved result) :
    Framed ([.member "reentry_history"] ::
      (memberPlaces (downstreamGates reopening.fromGate)).map (.member "gates" :: ·)) change saved := by
  simp only [gatesReopenFrom] at saves
  split at saves
  · cases saves
  next completed =>
    cases saves
    have truthy : ((change.get "gates").orElse (.obj [])).get reopening.fromGate ≠ .undefined := by
      intro missing
      exact completed (.inl (by simp [missing, isTruthy]))
    -- the target gate is there, so the gates are
    rcases gates_isObject valid with absent | ⟨entries, isObject⟩
    · rw [absent] at truthy
      exact absurd rfl truthy
    · have given : (change.get "gates").orElse (.obj []) = change.get "gates" := by
        rw [isObject]
        rfl
      rw [given]
      have reset : Framed ([.member "reentry_history"] ::
            (memberPlaces (downstreamGates reopening.fromGate)).map (.member "gates" :: ·))
          change (change.set "gates" (resetGates (downstreamGates reopening.fromGate) (change.get "gates"))) :=
        framed_set (change_isObject valid)
          (resetGates_framed (downstreamGates reopening.fromGate) ⟨entries, isObject⟩)
          ⟨_, List.mem_cons_self⟩
          (fun touched member => List.mem_cons_of_mem _ (List.mem_map_of_mem member))
      refine (reset.trans (framed_overwrite "reentry_history" _ (isObject_set change "gates" _))).mono ?_
      simp

theorem gatesComplete_framed {gateId : String}
    {notes : Option String} (saves : gatesComplete clock gateId notes (some change) = .saves saved result) :
    Framed [[.member "gates", .member gateId]] change saved := by
  cases saves
  have inside : Framed [[.member gateId]] (change.get "gates") (((change.get "gates").orElse (.obj [])).set gateId
        (completedGate clock notes (((change.get "gates").orElse (.obj [])).get gateId))) := by
    rcases gates_isObject valid with absent | ⟨entries, isObject⟩
    · rw [absent]
      exact (framed_overwrite gateId _ ⟨[], rfl⟩).of_nullish rfl valueAt_empty
    · rw [isObject]
      exact framed_overwrite gateId _ ⟨entries, rfl⟩
  exact framed_set (change_isObject valid) inside ⟨_, List.mem_singleton_self _⟩ (by simp)

/-- A mutator leaves everything apart from its places as it was loaded. -/
theorem apply_framed {mutation : StoreMutation}
    (saves : mutation.apply runtime clock changeId (some change) = .saves saved result) :
    Framed (mutation.places runtime clock) change saved := by
  have isObject := change_isObject valid
  cases mutation with
  | tasksAdd content options =>
    cases saves
    have named : ∀ other, (newTask clock content options).get "id" = .str other →
        other = monotonicId "tk" clock := fun other named => (JsVal.str.inj named).symm
    have appended := framed_append named (change.get "tasks").elements
    rw [← tasks_isArray valid] at appended
    exact framed_set isObject appended ⟨_, List.mem_singleton_self _⟩ (by simp [StoreMutation.places])
  | tasksUpdate taskId update =>
    exact mutateTask_framed valid (fun task => updatedTask_touches clock update) (update_keeps_id update) saves
  | tasksCancel taskId cancellation =>
    exact mutateTask_framed valid (fun task => cancelledTask_touches clock cancellation) (by decide) saves
  | wisdomAdd input =>
    simp only [StoreMutation.apply, Storage.wisdomAdd] at saves
    split at saves
    · cases saves
    next entry parsed =>
      cases saves
      simp only [StoreMutation.places, wisdomId, parsed]
      exact framed_setList isObject (wisdom_isArray valid) named_textD
  | specDeltasAdd capability delta =>
    have saves : appendDelta runtime changeId capability delta _ (some change) = _ := saves
    exact appendDelta_framed valid saves
  | specDeltasRemove capability delta =>
    have saves : appendDelta runtime changeId capability delta _ (some change) = _ := saves
    exact appendDelta_framed valid saves
  | gatesComplete gateId notes => exact gatesComplete_framed valid saves
  | gatesReopenFrom reopening => exact gatesReopenFrom_framed valid saves
  | changesClose closure =>
    simp only [StoreMutation.apply, Storage.changesClose] at saves
    split at saves
    · cases saves
    · cases saves
      exact (framed_overwrite "status" _ isObject).trans
        (framed_overwrite "closure" _ (isObject_set change "status" _))
  | setEpicMembership input =>
    simp only [StoreMutation.apply, Storage.setEpicMembership] at saves
    split at saves
    · cases saves
    · cases saves
      exact framed_overwrite "epic_membership" _ isObject

end

end

/-! ## Reserved fields -/

def touchedFields : List String :=
  ["tasks", "wisdom", "deltas", "gates", "reentry_history", "status", "closure", "epic_membership"]

theorem places_head {runtime : Runtime} {clock : Clock} (mutation : StoreMutation) :
    ∀ place ∈ mutation.places runtime clock, ∃ key rest, place = .member key :: rest ∧ key ∈ touchedFields := by
  have inTasks : ∀ taskId keys, ∀ place ∈ taskPlaces taskId keys,
      ∃ key rest, place = .member key :: rest ∧ key ∈ touchedFields := by
    intro taskId keys place member
    obtain ⟨rest, _, rfl⟩ := List.mem_map.mp member
    exact ⟨_, _, rfl, by decide⟩
  cases mutation with
  | tasksUpdate taskId update => exact inTasks taskId update.keys
  | tasksCancel taskId _ => exact inTasks taskId _
  | gatesReopenFrom reopening =>
    intro place member
    rcases List.mem_cons.mp member with rfl | member
    · exact ⟨_, _, rfl, by decide⟩
    · obtain ⟨rest, _, rfl⟩ := List.mem_map.mp member
      exact ⟨_, _, rfl, by decide⟩
  | changesClose _ =>
    intro place member
    simp only [StoreMutation.places, List.mem_cons, List.not_mem_nil, or_false] at member
    rcases member with rfl | rfl <;> exact ⟨_, _, rfl, by decide⟩
  | _ =>
    intro place member
    simp only [StoreMutation.places, List.mem_singleton] at member
    subst member
    exact ⟨_, _, rfl, by decide⟩

theorem places_apart {runtime : Runtime} {clock : Clock} (mutation : StoreMutation) {key : String}
    (reserved : key ∉ touchedFields) : ∀ place ∈ mutation.places runtime clock, Apart place [.member key] := by
  intro place member
  obtain ⟨head, rest, rfl, listed⟩ := places_head mutation place member
  exact .inl fun same => reserved (same ▸ listed)

end Advance.Storage
