import Mathlib
import Advance.Foundation.KeyedList
import Advance.Storage.EpicsDisk

/-! # The Epic invariant

Each operation edits the entries in one of five ways and then recomputes version
and progress.
-/

namespace Advance.Storage

open Advance.Foundation Advance.JavaScript Advance.Types
open EpicDiskOps

/-! ## The invariant -/

def progressOf (entries : List EpicEntry) (merged : Bool) (updatedAt : String) : EpicProgressSummary where
  status :=
    if merged then .merged
    else if entries ≠ [] ∧ entries.all EpicEntry.terminal then .completed
    else .active
  total_entries := entries.length
  completed_entries := entries.countP EpicEntry.terminal
  active_entries := entries.countP EpicEntry.inFlight
  next_entry_id := if merged then none else localNextEntryId entries
  updated_at := updatedAt

structure EpicInvariant (epic : Epic) : Prop where
  entryIds : (epic.entries.map EpicEntry.entry_id).Nodup
  changeIds : KeyedApart entryChangeId epic.entries
  progress : epic.progress = progressOf epic.entries epic.merged_into.isSome epic.progress.updated_at
  completed : epic.progress.status = .completed ↔ epic.merged_into = none ∧ epic.entries ≠ [] ∧
      ∀ entry ∈ epic.entries, ∃ change, entry = .change change ∧ change.terminal_summary ≠ none

def promotesLinkedChange (epic : Epic) : EpicRequest → Bool
  | .promoteShell entryId changeId _ =>
    (match epic.entries.zipIdx.find? fun entry => entry.1.entry_id = entryId with
      | some (.shell _, _) => true
      | _ => false) &&
    epic.entries.any fun entry => entryChangeId entry = some changeId
  | _ => false

/-- How a transition edits the entries. -/
inductive EntryEdit (entries : List EpicEntry) : List EpicEntry → Prop
  | kept : EntryEdit entries entries
  | appended (entry : EpicEntry) (freshId : ∀ other ∈ entries, other.entry_id ≠ entry.entry_id)
      (freshChange : FreshIn entryChangeId entries entry) : EntryEdit entries (entries ++ [entry])
  | replaced (index : Nat) (old new : EpicEntry) (held : entries[index]? = some old)
      (sameId : new.entry_id = old.entry_id)
      (change : entryChangeId new = entryChangeId old ∨ FreshIn entryChangeId entries new) :
      EntryEdit entries (entries.set index new)
  | erased (index : Nat) : EntryEdit entries (entries.eraseIdx index)
  | rearranged (entryIds : List String)
      (arranged : (entries.map EpicEntry.entry_id).Perm entryIds) :
      EntryEdit entries (reordered entries entryIds)

/-! ## Edits keep the ids apart -/

section

variable {entries : List EpicEntry} {epic : Epic}

theorem withOrder_entry_id (order : JsNumber) (entry : EpicEntry) :
    (entry.withOrder order).entry_id = entry.entry_id := by
  cases entry <;> rfl

theorem withOrder_changeId (order : JsNumber) (entry : EpicEntry) :
    entryChangeId (entry.withOrder order) = entryChangeId entry := by
  cases entry <;> rfl

variable {entry : EpicEntry}

theorem entriesById_of_member (distinct : (entries.map EpicEntry.entry_id).Nodup) (member : entry ∈ entries) :
    entriesById entries entry.entry_id = some entry := by
  have keys : ((entries.map fun entry => (entry.entry_id, entry)).map Prod.fst).Nodup := by
    rw [List.map_map]
    exact distinct
  have held : (entry.entry_id, entry) ∈ entries.map fun entry => (entry.entry_id, entry) :=
    List.mem_map_of_mem member
  exact mapGet_fromEntries keys held

section

variable {κ : Type} {key : EpicEntry → Option κ}
  (unordered : ∀ order entry, key (EpicEntry.withOrder order entry) = key entry)
include κ key unordered

theorem keys_reordered (entryIds : List String) : (reordered entries entryIds).filterMap key =
      entryIds.filterMap fun id => (entriesById entries id).bind key := by
  have positionless : (fun numbered : String × Nat =>
      ((entriesById entries numbered.1).map (EpicEntry.withOrder numbered.2)).bind key) =
      (fun id => (entriesById entries id).bind key) ∘ Prod.fst := by
    funext numbered
    cases found : entriesById entries numbered.1 with
    | none => simp [found]
    | some entry => simp [found, unordered]
  show ((entryIds.zipIdx.filterMap fun numbered : String × Nat =>
    (entriesById entries numbered.1).map (EpicEntry.withOrder numbered.2)).filterMap key) = _
  rw [List.filterMap_filterMap, positionless, ← List.filterMap_map, List.zipIdx_map_fst]

theorem keys_rearranged (distinct : (entries.map EpicEntry.entry_id).Nodup) {entryIds : List String}
    (arranged : (entries.map EpicEntry.entry_id).Perm entryIds) :
    (entries.filterMap key).Perm ((reordered entries entryIds).filterMap key) := by
  rw [keys_reordered unordered]
  have own : (entries.map EpicEntry.entry_id).filterMap
      (fun id => (entriesById entries id).bind key) = entries.filterMap key := by
    rw [List.filterMap_map]
    refine List.filterMap_congr fun entry member => ?_
    rw [Function.comp_apply, entriesById_of_member distinct member, Option.bind_some]
  rw [← own]
  exact arranged.filterMap _

end

section

variable {next : List EpicEntry} (edit : EntryEdit entries next) (distinct : (entries.map EpicEntry.entry_id).Nodup)
include next edit distinct

theorem EntryEdit.entryIds : (next.map EpicEntry.entry_id).Nodup := by
  have apart := keyedApart_some.mpr distinct
  cases edit with
  | kept => exact distinct
  | appended entry freshId _ =>
    refine keyedApart_some.mp (apart.append fun id carried other member same => ?_)
    exact freshId other member (Option.some.inj (same.trans carried.symm))
  | replaced index old new held sameId _ =>
    exact keyedApart_some.mp (apart.set held (.inl (by rw [sameId])))
  | erased index => exact keyedApart_some.mp (apart.sublist (List.eraseIdx_sublist _ _))
  | rearranged entryIds arranged =>
    have unordered : ∀ order entry, some (EpicEntry.withOrder order entry).entry_id = some entry.entry_id :=
      fun order entry => by rw [withOrder_entry_id]
    have perm := @keys_rearranged entries String (fun entry => some entry.entry_id) unordered
      distinct entryIds arranged
    exact keyedApart_some.mp (perm.nodup_iff.mp apart)

theorem EntryEdit.changeIds (apart : KeyedApart entryChangeId entries) :
    KeyedApart entryChangeId next := by
  cases edit with
  | kept => exact apart
  | appended entry _ freshChange => exact apart.append freshChange
  | replaced index old new held _ change => exact apart.set held change
  | erased index => exact apart.sublist (List.eraseIdx_sublist _ _)
  | rearranged entryIds arranged =>
    exact (keys_rearranged withOrder_changeId distinct arranged).nodup_iff.mp apart

end

/-! ## What a transition leaves -/

variable {runtime : EpicRuntime} {value : EpicValue} {candidate : Epic}

variable {index : Nat}

theorem found_at {entryId : String} (found : (entries.zipIdx.find? fun numbered => numbered.1.entry_id = entryId) =
      some (entry, index)) : entries[index]? = some entry ∧ entry.entry_id = entryId := by
  refine ⟨?_, by simpa using List.find?_some found⟩
  have member := List.mem_of_find?_eq_some found
  simpa using List.mem_zipIdx_iff_getElem?.mp member

theorem entryOrThrow_ok {entryId : String} (found : entryOrThrow epic entryId = .ok (entry, index)) :
    epic.entries[index]? = some entry ∧ entry.entry_id = entryId := by
  unfold entryOrThrow at found
  split at found
  next numbered located =>
    obtain rfl := Except.ok.inj found
    exact found_at located
  · cases found

theorem reorder_perm {entryIds : List String} (distinct : (entries.map EpicEntry.entry_id).Nodup)
    (sameLength : entryIds.length = entries.length) (sameSize : (distinctOf (entries.map EpicEntry.entry_id)).length =
      (distinctOf entryIds).length) (known : ∀ id ∈ entryIds, id ∈ distinctOf (entries.map EpicEntry.entry_id)) :
    (entries.map EpicEntry.entry_id).Perm entryIds := by
  rw [distinctOf_of_nodup distinct, List.length_map] at sameSize
  have once : entryIds.Nodup := nodup_of_length_distinctOf (by omega)
  have part : entryIds ⊆ entries.map EpicEntry.entry_id := fun id member =>
    mem_distinctOf.mp (known id member)
  refine ((List.subperm_of_subset once part).perm_of_length_le ?_).symm
  rw [List.length_map]
  omega

theorem retargetedEntry_changeId (input : RetargetChangeInput) (entry : EpicChangeEntry) :
    entryChangeId (.change (retargetedEntry runtime input entry)) = some input.toChangeId ∨
      entryChangeId (.change (retargetedEntry runtime input entry)) = entryChangeId (.change entry) := by
  have ids : ∀ changed : EpicChangeEntry, changed.change_id = (retargetedIds input entry).change_id →
      changed.change_ref = (retargetedIds input entry).change_ref →
      entryChangeId (.change changed) = some input.toChangeId ∨
        entryChangeId (.change changed) = entryChangeId (.change entry) := by
    intro changed sameId sameRef
    simp only [entryChangeId, sameId, sameRef, retargetedIds]
    split
    · exact .inl rfl
    next held =>
      cases own : entry.change_id with
      | none => exact .inl rfl
      | some _ => exact .inr rfl
    · exact .inl rfl
  refine ids _ ?_ ?_
  · simp only [retargetedEntry]
    split <;> rfl
  · simp only [retargetedEntry]
    split <;> rfl

theorem retargetedEntry_id (input : RetargetChangeInput) (entry : EpicChangeEntry) :
    (retargetedEntry runtime input entry).entry_id = entry.entry_id := by
  have kept : (retargetedIds input entry).entry_id = entry.entry_id := by
    unfold retargetedIds
    split <;> rfl
  rw [← kept]
  simp only [retargetedEntry]
  split <;> rfl

theorem linkedEntry_changeId (input : LinkChangeInput) (entryId : String) (others : List EpicEntry) :
    entryChangeId (.change (linkedEntry runtime input entryId others)) = some input.changeId := by
  cases referenced : linkedRef input with
  | none => simp [entryChangeId, linkedEntry, referenced]
  | some held =>
    obtain ⟨projectId, _, rfl⟩ := Option.map_eq_some_iff.mp referenced
    simp [entryChangeId, linkedEntry, referenced]

theorem retarget_fresh {input : RetargetChangeInput} {entry : EpicChangeEntry}
    (distinct : (entries.map EpicEntry.entry_id).Nodup) (held : entries[index]? = some (.change entry))
    (sameId : (EpicEntry.change entry).entry_id = input.entryId)
    (moved : entryChangeId (.change entry) ≠ some input.toChangeId)
    (free : (entries.any fun candidate => candidate.entry_id ≠ input.entryId ∧
      entryChangeId candidate = some input.toChangeId) = false) :
    ∀ other ∈ entries, entryChangeId other ≠ some input.toChangeId := by
  intro other member linked
  by_cases here : other.entry_id = input.entryId
  · have same : other = .change entry :=
      List.inj_on_of_nodup_map distinct member (List.mem_of_getElem? held) (here.trans sameId.symm)
    exact moved (same ▸ linked)
  · have absent := List.any_eq_false.mp free other member
    simp [here, linked] at absent

theorem changed_inj {edited : EpicValue} {renewed : Epic}
    (done : (.ok (.changed edited renewed) : Except EpicFailure MutationResult) = .ok (.changed value candidate)) :
    renewed = candidate :=
  (MutationResult.changed.inj (Except.ok.inj done)).2

/-- A transition renews version and progress of an Epic; from an Epic with distinct entry ids, and
    when no change is promoted twice, it has edited the entries in one of the ways. -/
theorem transition_changed {request : EpicRequest}
    (done : transition runtime epic request = .ok (.changed value candidate)) :
    ∃ base : Epic, candidate = bumpVersion runtime.stamps base ∧ base.version = epic.version ∧
      base.progress = epic.progress ∧
      ((epic.entries.map EpicEntry.entry_id).Nodup → promotesLinkedChange epic request = false →
        EntryEdit epic.entries base.entries) := by
  cases request with
  | update | updateScope =>
    simp only [transition, update, updateScope] at done
    obtain rfl := changed_inj done
    exact ⟨_, rfl, rfl, rfl, fun _ _ => .kept⟩
  | markMerged mergedInto expectedVersion =>
    simp only [transition, markMerged] at done
    split at done
    · cases done
    · obtain rfl := changed_inj done
      exact ⟨_, rfl, rfl, rfl, fun _ _ => .kept⟩
  | addShell input =>
    simp only [transition, addShell] at done
    split at done
    · cases done
    next absent =>
      obtain rfl := changed_inj done
      refine ⟨_, rfl, rfl, rfl, fun _ _ => .appended _ ?_ fun _ none => nomatch none⟩
      intro other member same
      exact absent (List.any_eq_true.mpr ⟨other, member, decide_eq_true same⟩)
  | promoteShell entryId changeId promotedBy =>
    simp only [transition, promoteShell] at done
    split at done
    · split at done <;> cases done
    · split at done <;> cases done
    next shell index found =>
      obtain rfl := changed_inj done
      obtain ⟨held, _⟩ := found_at found
      refine ⟨_, rfl, rfl, rfl, fun _ unlinked => .replaced index _ _ held rfl (.inr ?_)⟩
      intro id carried other member linked
      obtain rfl := Option.some.inj carried
      simp only [promotesLinkedChange, found, Bool.true_and, List.any_eq_false, decide_eq_true_eq] at unlinked
      exact unlinked other member linked
  | linkChange input =>
    simp only [transition, linkChange] at done
    split at done
    · cases done
    next absent =>
      obtain rfl := changed_inj done
      have free : ∀ other ∈ epic.entries, ¬ (other.entry_id = input.entryId.getD (nextEntryId runtime "change") ∨
            entryChangeId other = some input.changeId) := by
        intro other member taken
        exact absent (List.any_eq_true.mpr ⟨other, member, decide_eq_true taken⟩)
      refine ⟨_, rfl, rfl, rfl, fun _ _ => .appended _
        (fun other member same => free other member (.inl same))
        fun id carried other member linked => free other member (.inr ?_)⟩
      rw [linked, ← carried, linkedEntry_changeId]
  | retargetChange input =>
    simp only [transition, retargetChange] at done
    split at done
    · cases done
    · cases done
    next entry index found =>
      obtain ⟨held, sameId⟩ := entryOrThrow_ok found
      split at done
      · cases done
      next moved =>
        split at done
        · cases done
        · split at done
          · cases done
          next free =>
            obtain rfl := changed_inj done
            refine ⟨_, rfl, rfl, rfl, fun distinct _ =>
              .replaced index _ _ held (retargetedEntry_id input entry) ?_⟩
            rcases retargetedEntry_changeId input entry with target | same
            · refine .inr fun id carried => ?_
              obtain rfl := Option.some.inj (target.symm.trans carried)
              exact retarget_fresh distinct held sameId moved (Bool.eq_false_iff.mpr free)
            · exact .inl same
  | unlinkChange entryId =>
    simp only [transition, unlinkChange] at done
    split at done
    · cases done
    next index _ =>
      obtain rfl := changed_inj done
      exact ⟨_, rfl, rfl, rfl, fun _ _ => .erased index⟩
  | setEntryMembershipStatus | setEntryTerminalSummary =>
    simp only [transition, setEntryMembershipStatus, setEntryTerminalSummary] at done
    split at done
    · cases done
    · cases done
    next entry index found =>
      obtain rfl := changed_inj done
      exact ⟨_, rfl, rfl, rfl, fun _ _ => .replaced index _ _ (entryOrThrow_ok found).1 rfl (.inl rfl)⟩
  | reorder entryIds expectedVersion =>
    simp only [transition, reorder] at done
    split at done
    · cases done
    next sameLength =>
      split at done
      · cases done
      next sameSet =>
        obtain rfl := changed_inj done
        rw [not_or, not_not, not_not] at sameSet
        exact ⟨_, rfl, rfl, rfl, fun distinct _ => .rearranged entryIds
          (reorder_perm distinct (not_not.mp sameLength) sameSet.1 sameSet.2)⟩

theorem promoted_twice {request : EpicRequest} (linked : promotesLinkedChange epic request = true)
    (done : transition runtime epic request = .ok (.changed value candidate)) :
    ¬ KeyedApart entryChangeId candidate.entries := by
  cases request with
  | promoteShell entryId changeId promotedBy =>
    simp only [transition, promoteShell] at done
    split at done
    · split at done <;> cases done
    · split at done <;> cases done
    next shell index found =>
      obtain rfl := changed_inj done
      simp only [promotesLinkedChange, found, Bool.true_and, List.any_eq_true, decide_eq_true_eq] at linked
      obtain ⟨other, member, taken⟩ := linked
      exact not_keyedApart_set (found_at found).1 rfl member taken fun none => nomatch none
  | _ => cases linked

/-! ## Progress -/

theorem all_terminal_iff : entries.countP EpicEntry.terminal = entries.length ∧ 0 < entries.length ↔
      entries ≠ [] ∧ entries.all EpicEntry.terminal = true := by
  rw [List.countP_eq_length, List.all_eq_true, List.length_pos_iff, and_comm]

theorem bumped_progress {base : Epic} (stamps : Stamps) (notArchived : base.progress.status ≠ .archived)
    (notMerged : base.progress.status ≠ .merged) : (bumpVersion stamps base).progress =
      progressOf base.entries base.merged_into.isSome stamps.progress := by
  simp only [bumpVersion, recomputeProgress, notArchived, notMerged, or_false, if_false, progressOf,
    ← List.countP_eq_length_filter, all_terminal_iff]

theorem completed_iff (computed : epic.progress =
      progressOf epic.entries epic.merged_into.isSome epic.progress.updated_at) :
    epic.progress.status = .completed ↔ epic.merged_into = none ∧ epic.entries ≠ [] ∧
      ∀ entry ∈ epic.entries, ∃ change, entry = .change change ∧ change.terminal_summary ≠ none := by
  have terminal : ∀ entry : EpicEntry, entry.terminal = true ↔
      ∃ change, entry = .change change ∧ change.terminal_summary ≠ none := by
    intro entry
    cases entry with
    | change change => simp [EpicEntry.terminal, Option.isSome_iff_ne_none]
    | shell shell => simp [EpicEntry.terminal]
  have status : epic.progress.status = (progressOf epic.entries epic.merged_into.isSome
      epic.progress.updated_at).status := congrArg EpicProgressSummary.status computed
  rw [status]
  cases merged : epic.merged_into with
  | some mark => simp [progressOf]
  | none =>
    have allTerminal : epic.entries.all EpicEntry.terminal = true ↔
        ∀ entry ∈ epic.entries, ∃ change, entry = .change change ∧ change.terminal_summary ≠ none := by
      simp only [List.all_eq_true, terminal]
    simp only [progressOf, Option.isSome_none, Bool.false_eq_true, if_false, true_and]
    rw [← allTerminal]
    split
    next all => exact iff_of_true rfl all
    next notAll => exact iff_of_false (fun same => nomatch same) notAll

/-! ## One call -/

/-- The call reads the Epic, its transition goes through and its copy is written. -/
structure Stores (call : EpicCall) (epic : Epic) : Prop where
  loaded : call.faults.load = none
  current : ∀ expected, call.request.expectedVersion = some expected → (epic.version : JsNumber) = expected
  isOpen : assertOpenForMutation epic = .ok ()
  transitions : ∃ value candidate, transition call.runtime epic call.request = .ok (.changed value candidate) ∧
      candidate.valid = true
  saved : call.faults.save = none

/-- A call that stores an Epic links no change twice and meets no error afterwards. -/
def Guarded (call : EpicCall) (epic : Epic) : Prop :=
  Stores call epic → promotesLinkedChange epic call.request = false ∧
    call.faults.readback = none ∧ call.faults.release = none

theorem stale_iff {expected : Option JsNumber} {version : JsNumber} :
    (expected.any fun asked => decide (version ≠ asked)) = true ↔
      ∃ asked, expected = some asked ∧ version ≠ asked := by
  cases expected <;> simp

theorem mutateLocked_cases (call : EpicCall) (epic : Epic) (loaded : call.faults.load = none) :
    (Stores call epic ∧ ∃ value,
      transition call.runtime epic call.request = .ok (.changed value (mutateLocked call epic).2) ∧
      ((mutateLocked call epic).1.isChanged = true ↔ call.faults.readback = none)) ∨
    (¬ Stores call epic ∧ (mutateLocked call epic).2 = epic ∧ (mutateLocked call epic).1.isChanged = false) := by
  unfold mutateLocked
  split
  next stale =>
    obtain ⟨expected, asked, differs⟩ := stale_iff.mp stale
    exact .inr ⟨fun stores => differs (stores.current expected asked), rfl, rfl⟩
  next current =>
    split
    next closed =>
      refine .inr ⟨fun stores => ?_, rfl, rfl⟩
      cases closed.symm.trans stores.isOpen
    next opened =>
      split
      next refused =>
        refine .inr ⟨fun stores => ?_, rfl, rfl⟩
        obtain ⟨_, _, done, _⟩ := stores.transitions
        cases refused.symm.trans done
      next nothing =>
        refine .inr ⟨fun stores => ?_, rfl, rfl⟩
        obtain ⟨_, _, done, _⟩ := stores.transitions
        cases nothing.symm.trans done
      next value candidate done =>
        split
        next invalid =>
          refine .inr ⟨fun stores => ?_, rfl, rfl⟩
          obtain ⟨_, _, again, valid⟩ := stores.transitions
          cases done.symm.trans again
          rw [invalid] at valid
          cases valid
        next valid =>
          split
          next unsaved =>
            refine .inr ⟨fun stores => ?_, rfl, rfl⟩
            cases unsaved.symm.trans stores.saved
          next saved =>
            have fits : ∀ expected, call.request.expectedVersion = some expected →
                (epic.version : JsNumber) = expected := by
              intro expected asked
              by_contra differs
              exact current (stale_iff.mpr ⟨expected, asked, differs⟩)
            have stores : Stores call epic :=
              ⟨loaded, fits, opened, ⟨value, candidate, done, by simpa using valid⟩, saved⟩
            refine .inl ⟨stores, value, ?_⟩
            split
            next lost => exact ⟨done, by simp [lost, EpicOutcome.isChanged]⟩
            next held => exact ⟨done, by simp [held, EpicOutcome.isChanged]⟩

theorem mutateEpic_cases (call : EpicCall) (epic : Epic) : (Stores call epic ∧ ∃ value,
      transition call.runtime epic call.request = .ok (.changed value (mutateEpic call epic).2) ∧
      ((mutateEpic call epic).1.isChanged = true ↔
        call.faults.readback = none ∧ call.faults.release = none)) ∨
    (¬ Stores call epic ∧ (mutateEpic call epic).2 = epic ∧ (mutateEpic call epic).1.isChanged = false) := by
  unfold mutateEpic
  split
  next unloaded =>
    refine .inr ⟨fun stores => ?_, rfl, rfl⟩
    cases unloaded.symm.trans stores.loaded
  next loaded =>
    have locked := mutateLocked_cases call epic loaded
    cases released : call.faults.release with
    | none => simpa [released] using locked
    | some error =>
      rcases locked with ⟨stores, value, done, _⟩ | ⟨unstored, same, _⟩
      · exact .inl ⟨stores, value, done, by simp [EpicOutcome.isChanged]⟩
      · exact .inr ⟨unstored, same, rfl⟩

variable {call : EpicCall}

theorem stored_version (done : transition call.runtime epic call.request = .ok (.changed value candidate)) :
    candidate.version = epic.version + 1 := by
  obtain ⟨base, rfl, version, _⟩ := transition_changed done
  rw [← version]
  rfl

/-! ## Runs -/

theorem invariant_created (epicId title narrative : String) (epicScope : Option EpicScope)
    (now : String) : EpicInvariant (createdEpic epicId title narrative epicScope now) where
  entryIds := List.nodup_nil
  changeIds := keyedApart_nil
  progress := rfl
  completed := completed_iff rfl

theorem invariant_kept (unlinked : Stores call epic → promotesLinkedChange epic call.request = false)
    (invariant : EpicInvariant epic) : EpicInvariant (mutateEpic call epic).2 := by
  rcases mutateEpic_cases call epic with ⟨stores, value, done, _⟩ | ⟨_, same, _⟩
  · obtain ⟨base, bumped, _, progress, edited⟩ := transition_changed done
    have edit := edited invariant.entryIds (unlinked stores)
    have notArchived : base.progress.status ≠ .archived := by
      intro archived
      rw [progress] at archived
      have opened := stores.isOpen
      simp [assertOpenForMutation, archived] at opened
    have notMerged : base.progress.status ≠ .merged := by
      intro merged
      rw [progress] at merged
      have opened := stores.isOpen
      simp [assertOpenForMutation, merged] at opened
    have computed : (mutateEpic call epic).2.progress =
        progressOf (mutateEpic call epic).2.entries (mutateEpic call epic).2.merged_into.isSome
          (mutateEpic call epic).2.progress.updated_at := by
      rw [bumped]
      exact bumped_progress call.runtime.stamps notArchived notMerged
    refine ⟨?_, ?_, computed, completed_iff computed⟩
    · rw [bumped]
      exact edit.entryIds invariant.entryIds
    · rw [bumped]
      exact edit.changeIds invariant.entryIds invariant.changeIds
  · rw [same]
    exact invariant

theorem version_counted (guarded : Guarded call epic) : (mutateEpic call epic).2.version =
      epic.version + if (mutateEpic call epic).1.isChanged then 1 else 0 := by
  rcases mutateEpic_cases call epic with ⟨stores, value, done, reported⟩ | ⟨_, same, unreported⟩
  · rw [stored_version done, if_pos (reported.mpr (guarded stores).2)]
  · rw [same, unreported, if_neg Bool.false_ne_true, Nat.add_zero]

/-- How many calls of a run reported a change. -/
def changesIn (calls : List EpicCall) (epic : Epic) : Nat :=
  (trace mutateEpic calls epic).countP fun step => step.response.isChanged

theorem changesIn_append (calls : List EpicCall) (call : EpicCall) (epic : Epic) :
    changesIn (calls ++ [call]) epic = changesIn calls epic +
      if (mutateEpic call (stateAfter mutateEpic calls epic)).1.isChanged then 1 else 0 := by
  simp [changesIn, trace_append, trace, recordOf, List.countP_append, List.countP_cons]

end

/-- The invariant holds, and the version counts the reported changes, after every call of a run on
    a created Epic exactly when each call that stores an Epic promotes no linked change and
    meets no error once it has written. -/
theorem epic_invariant_iff (epicId title narrative : String) (epicScope : Option EpicScope)
    (now : String) (calls : List EpicCall) : (∀ early late, calls = early ++ late →
      EpicInvariant (stateAfter mutateEpic early (createdEpic epicId title narrative epicScope now)) ∧
      (stateAfter mutateEpic early (createdEpic epicId title narrative epicScope now)).version =
        changesIn early (createdEpic epicId title narrative epicScope now)) ↔
    ∀ step ∈ trace mutateEpic calls (createdEpic epicId title narrative epicScope now),
      Guarded step.request step.before := by
  generalize createdAs : createdEpic epicId title narrative epicScope now = created
  rw [forall_trace]
  constructor
  · rintro holds early call late rfl stores
    obtain ⟨invariant, counted⟩ := holds early (call :: late) rfl
    obtain ⟨next, countedNext⟩ := holds (early ++ [call]) late (by simp)
    rw [stateAfter_append, stateAfter_cons, stateAfter_nil] at next countedNext
    rcases mutateEpic_cases call (stateAfter mutateEpic early created) with
      ⟨_, value, done, reported⟩ | ⟨unstored, _⟩
    · refine ⟨?_, ?_⟩
      · by_contra linked
        exact promoted_twice (Bool.not_eq_false _ ▸ linked) done next.changeIds
      · rw [changesIn_append, ← counted, stored_version done] at countedNext
        refine reported.mp ?_
        by_contra silent
        rw [if_neg silent] at countedNext
        omega
    · exact absurd stores unstored
  · intro guarded early
    induction early using List.reverseRecOn with
    | nil =>
      rintro late rfl
      rw [← createdAs]
      exact ⟨invariant_created .., rfl⟩
    | append_singleton early call ih =>
      rintro late split
      obtain ⟨invariant, counted⟩ := ih (call :: late) (by simpa using split)
      have here : Guarded call (stateAfter mutateEpic early created) :=
        guarded early call late (by simpa using split)
      rw [stateAfter_append, stateAfter_cons, stateAfter_nil]
      refine ⟨invariant_kept (fun stores => (here stores).1) invariant, ?_⟩
      rw [version_counted here, changesIn_append, counted]

/-! ## Fixed runs -/

def callFor (request : EpicRequest) : EpicCall where
  request := request
  runtime := ⟨⟨"2026-01-01T00:00:00.000Z", "2026-01-01T00:00:00.000Z", "2026-01-01T00:00:00.000Z"⟩,
    "1767225600000-k3v9xq"⟩
  numberText := fun value => toString value.num
  faults := noDiskFaults

def linkedThenPromoted : List EpicCall :=
  [callFor (.linkChange
      { entryId := some "entry-1", changeId := "addSearch", title := "Search", order := none
        linkedAt := none, membershipStatus := none, terminalSummary := none, linkedBy := none
        linkEvidence := none, changeProjectId := none, repoId := none, targetPath := none }),
    callFor (.addShell
      { entryId := some "shell-1", title := "Search again", successHint := "Found", order := none
        importedFrom := none, blockedBy := none, context_packet := none }),
    callFor (.promoteShell "shell-1" "addSearch" "agent")]

def searchEpic : Epic :=
  createdEpic "searchEpic" "Search" "Find things" none "2026-01-01T00:00:00.000Z"

/-- All three calls report a change, and two entries link the one change. -/
theorem change_linked_twice :
    (trace mutateEpic linkedThenPromoted searchEpic).map (fun step => step.response.isChanged) =
      [true, true, true] ∧ (stateAfter mutateEpic linkedThenPromoted searchEpic).entries.filterMap entryChangeId =
      ["addSearch", "addSearch"] ∧ ¬ EpicInvariant (stateAfter mutateEpic linkedThenPromoted searchEpic) := by
  have linked : (stateAfter mutateEpic linkedThenPromoted searchEpic).entries.filterMap
      entryChangeId = ["addSearch", "addSearch"] := by decide_cbv
  refine ⟨by decide_cbv, linked, fun invariant => ?_⟩
  have apart := invariant.changeIds
  rw [KeyedApart, linked] at apart
  exact absurd apart (by decide)

end Advance.Storage
