import Advance.Storage.ProjectionHistory

/-! # Protected collections over a history

`findCollectionWipe` compares the latest projection, as the mutation leaves it, with
the candidate, counting every entry of an object.  What is stored afterwards is the
serialised candidate, where entries holding `undefined` are gone.
-/

namespace Advance.Storage

open Advance.JavaScript Advance.JavaScript.JsVal Advance.Types Advance.Foundation

variable {Aux : Type}

/-! ## Sizes -/

/-- The number of entries `findCollectionWipe` counts, 0 for what is no collection. -/
def sizeOf (v : JsVal) : Nat := (collectionSize v).getD 0

/-- The number of entries that are still there once the value is serialised. -/
def serializedSize (v : JsVal) : Nat := sizeOf v.toJson

/-- The number of entries of a collection in the stored projection. -/
def storedSize (file : FileState) (field : ProtectedCollectionField) : Nat :=
  sizeOf ((storedDocument file).get field.name)

theorem digits_ne_field (index : Nat) (field : ProtectedCollectionField) : toString index ≠ field.name := by
  intro same
  have digit : ∀ c ∈ field.name.toList, c.isDigit = true := by
    intro c member
    rw [← same] at member
    have inDigits : c ∈ Nat.toDigits 10 index := by
      simpa [Nat.toString_eq_repr, Nat.repr] using member
    exact Nat.isDigit_of_mem_toDigits (by decide) (by decide) inDigits
  -- every field's name has the letter s
  have letter : 's' ∈ field.name.toList := by cases field <;> decide
  exact absurd (digit 's' letter) (by decide)

theorem lookup_spread_field (v : JsVal) (field : ProtectedCollectionField) :
    lookup field.name v.spread = v.get field.name := by
  cases v with
  | obj entries => rfl
  | arr values =>
    apply lookup_of_absent
    intro entry member same
    obtain ⟨⟨_, index⟩, _, rfl⟩ := List.mem_map.mp member
    exact digits_ne_field index field same
  | str value =>
    apply lookup_of_absent
    intro entry member same
    obtain ⟨⟨_, index⟩, _, rfl⟩ := List.mem_map.mp member
    exact digits_ne_field index field same
  | _ => rfl

/-! ## The guard -/

theorem findCollectionWipe_none {latest candidate : JsVal} {allowed fields : List ProtectedCollectionField}
    (passed : findCollectionWipe latest candidate allowed fields = .ok none) :
    ∀ field ∈ fields, field ∉ allowed → sizeOf (latest.get field.name) ≠ 0 →
      sizeOf (candidate.get field.name) ≠ 0 := by
  induction fields with
  | nil => exact fun _ member => nomatch member
  | cons first rest ih =>
    intro field member guarded populated
    simp only [findCollectionWipe] at passed
    split at passed
    next skipped =>
      rcases List.mem_cons.mp member with rfl | later
      · rcases skipped with listed | empty
        · exact absurd listed guarded
        · exact absurd empty populated
      · exact ih passed field later guarded populated
    next =>
      split at passed
      · cases passed
      · split at passed
        · cases passed
        next kept =>
          rcases List.mem_cons.mp member with rfl | later
          · exact kept
          · exact ih passed field later guarded populated

theorem checkWipe_ok {options : CommitChangeProjectionOptions Aux} {mutated : Mutated}
    (passed : checkWipe options mutated = .ok ()) (field : ProtectedCollectionField)
    (guarded : field ∉ options.allowEmptiedCollections) (populated : sizeOf (mutated.latest.get field.name) ≠ 0) :
    sizeOf (mutated.candidate.get field.name) ≠ 0 := by
  unfold checkWipe at passed
  split at passed
  · cases passed
  next none =>
    exact findCollectionWipe_none none field (by cases field <;> simp [PROTECTED_COLLECTION_FIELDS]) guarded populated
  · cases passed

/-! ## One step -/

/-- Every protected collection that is populated in the stored projection and that
    the call may not empty is populated after the call. -/
def KeepsPopulated (step : HistoryStep Aux) : Prop :=
  ∀ field, field ∉ step.request.options.allowEmptiedCollections →
    storedSize step.before.change field ≠ 0 → storedSize step.after.change field ≠ 0

/-- Where a call gets to replace the file, each such collection is in the guard's
    sight (it is still populated in the latest projection as the mutation leaves it)
    or survives in the candidate, and a candidate's collection that has entries has
    one that is serialised. -/
def GuardSuffices (runtime : Runtime) (call : CommitCall Aux) (disk : Disk Aux) : Prop :=
  (writtenPlan runtime call disk).isSome → ∀ latest mutated,
    readLatest runtime call disk.change = .ok latest → call.options.mutateLatest latest = .ok mutated →
    ∀ field, field ∉ call.options.allowEmptiedCollections → storedSize disk.change field ≠ 0 →
      (sizeOf (mutated.latest.get field.name) ≠ 0 ∨ serializedSize (mutated.candidate.get field.name) ≠ 0) ∧
        (sizeOf (mutated.candidate.get field.name) ≠ 0 → serializedSize (mutated.candidate.get field.name) ≠ 0)

theorem write_size {runtime : Runtime} {call : CommitCall Aux} {latest : JsVal} {mutated : Mutated} {plan : WritePlan}
    (prepared : Prepared runtime call.options call.events.committedAt latest mutated plan)
    (field : ProtectedCollectionField) : sizeOf (plan.value.toJson.get field.name) =
      serializedSize (mutated.candidate.get field.name) := by
  obtain ⟨_, priorCommits, _, value⟩ := buildValue_ok prepared.built
  have kept : plan.value.get field.name = mutated.candidate.get field.name := by
    rw [value, overlay_other _ _ _ _ (by cases field <;> decide) (by cases field <;> decide)
      (by cases field <;> decide), lookup_spread_field]
  rw [get_toJson, kept]
  split
  next missing => rw [missing]; rfl
  next => rfl

/-- In every history, a step keeps the protected collections populated exactly when
    the guard suffices for its call. -/
theorem no_wipe_iff (runtime : Runtime) (calls : List (CommitCall Aux)) (start : Disk Aux) :
    ∀ step ∈ history runtime calls start, KeepsPopulated step ↔ GuardSuffices runtime step.request step.before := by
  intro step member
  cases written : stepWrote runtime step with
  | false =>
    have unchanged := step_unwritten member written
    constructor
    · intro _ writes
      exact absurd writes (by rw [← stepPlan, ← stepWrote, written]; decide)
    · intro _ field _ populated
      rw [unchanged]
      exact populated
  | true =>
    obtain ⟨latest, mutated, plan, planned, read, prepared, stored⟩ := step_written member written
    have after : ∀ field, storedSize step.after.change field = serializedSize (mutated.candidate.get field.name) := by
      intro field
      rw [storedSize, stored, write_size prepared]
    constructor
    · intro keeps _ otherLatest otherMutated otherRead otherMutation field guarded populated
      cases read.symm.trans otherRead
      cases prepared.mutation.symm.trans otherMutation
      have survives := keeps field guarded populated
      rw [after] at survives
      exact ⟨.inr survives, fun _ => survives⟩
    · intro sufficient field guarded populated
      obtain ⟨seen, serialised⟩ := sufficient written latest mutated read prepared.mutation field guarded populated
      rw [after]
      rcases seen with inSight | survives
      · exact serialised (checkWipe_ok prepared.wipe field guarded inSight)
      · exact survives

-- The guard stops a commit that empties the capabilities of a change.
example : storedDocument (commitChangeProjection .permissive
      { options := CommitChangeProjectionOptions.applying (settingField "deltas" (.obj []))
        events := .undisturbed "2026-01-01T00:00:00.000Z" }
      (⟨.ofJson ((bareChange "addSearch").set "deltas" (.obj [("search", .arr [])])), ()⟩ :
        Disk Unit)).2.change =
      (bareChange "addSearch").set "deltas" (.obj [("search", .arr [])]) := by
  rfl

/-! ## A fixed call -/

def deltaDisk : Disk Unit :=
  ⟨.ofJson ((bareChange "addSearch").set "deltas" (.obj [("search", .arr [])])), ()⟩

def deltasCall (deltas : JsVal) : CommitCall Unit where
  options := CommitChangeProjectionOptions.applying (settingField "deltas" deltas)
  events := .undisturbed "2026-01-01T00:00:00.000Z"

/-- Deltas whose only capability holds `undefined` pass the guard and are stored
    empty. -/
theorem undefined_entry_wipes : ¬∀ step ∈ history .permissive [deltasCall (.obj [("search", .undefined)])] deltaDisk,
      KeepsPopulated step := by
  intro everyStepKeeps
  have kept := everyStepKeeps (recordOf (commitChangeProjection .permissive)
    (deltasCall (.obj [("search", .undefined)])) deltaDisk) (by simp [history, trace])
    .deltas (by decide) (by decide)
  revert kept
  decide +kernel

/-- Renaming the capability keeps the deltas populated. -/
theorem no_wipe_renaming : KeepsPopulated (recordOf (commitChangeProjection .permissive)
      (deltasCall (.obj [("find", .arr [])])) deltaDisk) := by
  refine (no_wipe_iff .permissive [deltasCall (.obj [("find", .arr [])])] deltaDisk _
    (by simp [history, trace])).mpr ?_
  intro _ latest mutated _ applied field _ populated
  cases applied
  have candidate : (Mutated.returning latest (latest.set "deltas" (.obj [("find", .arr [])]))).candidate.get
      "deltas" = .obj [("find", .arr [])] := by
    simp [Mutated.returning]
  have survives : serializedSize (.obj [("find", .arr [])]) ≠ 0 := by decide
  cases field with
  | deltas =>
    rw [ProtectedCollectionField.name, candidate]
    exact ⟨.inr survives, fun _ => survives⟩
  | tasks | gates | documents => exact absurd (by rfl) populated

end Advance.Storage
