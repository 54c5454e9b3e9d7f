import Mathlib.Data.List.Nodup
import Advance.Archive.Projection

/-! # What one delta does to the requirements

A list of requirements with distinct ids is a partial map from ids, and each
delta an operation on that map.
-/

namespace Advance.Archive

open Types

section

variable (platform : Platform)

/-- The requirements show the delta's effect already. -/
def Settled : Delta → List Requirement → Prop
  | .add delta, rows => ∃ row, findRow rows delta.requirement.id = some row ∧
      sameValue platform row.toJs delta.requirement.toJs = true
  | .modify delta, rows => ∃ row, findRow rows delta.target_id = some row ∧
      changedFieldsMatch platform row delta.changes = true
  | .remove delta, rows => findRow rows delta.target_id = none
  | .rename delta, rows =>
    (∃ row, findRow rows (DeltaRename.resultId delta) = some row ∧ row.title = delta.new_title) ∧
      (DeltaRename.resultId delta ≠ delta.target_id → findRow rows delta.target_id = none)

def Applies : Delta → List Requirement → List Requirement → Prop
  | .add delta, rows, next =>
    findRow rows delta.requirement.id = none ∧ next = rows ++ [delta.requirement]
  | .modify delta, rows, next => (∃ row, findRow rows delta.target_id = some row) ∧
      next = updateRow delta.target_id (·.assign delta.changes) rows
  | .remove delta, rows, next => (∃ row, findRow rows delta.target_id = some row) ∧
      next = rows.filter fun row => row.id ≠ delta.target_id
  | .rename delta, rows, next => (∃ row, findRow rows delta.target_id = some row) ∧
      (DeltaRename.resultId delta ≠ delta.target_id → findRow rows (DeltaRename.resultId delta) = none) ∧
      next = updateRow delta.target_id (renameRow delta) rows

/-! ## One step -/

variable {rows : List Requirement} {id : String}

theorem findRow_id {row : Requirement} (found : findRow rows id = some row) : row.id = id := by
  have held := List.find?_some found
  exact of_decide_eq_true held

theorem findRow_none : findRow rows id = none ↔ ∀ row ∈ rows, row.id ≠ id := by
  simp [findRow, List.find?_eq_none]

theorem any_eq_false_iff : (rows.any fun row => row.id = id) = false ↔ findRow rows id = none := by
  simp [findRow_none]

theorem blockedStatus_blocked (deltaId : String) (operation : DeltaOperation) (present : Bool)
    (targetId reason : Option String) :
    (DeltaProjectionDisposition.mk deltaId operation (blockedStatus present) targetId reason).blocked = true := by
  cases present <;> rfl

theorem blockedStatus_ne_missing (present : Bool) : blockedStatus present ≠ .missing := by
  cases present <;> simp [blockedStatus]

/-- What a step reported and did. -/
theorem planDelta_cases (authority : ProjectionAuthority) (delta : Delta) (rows : List Requirement) :
    ((planDelta platform authority delta rows).1.status = .identical ∧
        (planDelta platform authority delta rows).2 = rows ∧ Settled platform delta rows) ∨
      ((planDelta platform authority delta rows).1.status = .missing ∧
        Applies delta rows (planDelta platform authority delta rows).2) ∨
      ((planDelta platform authority delta rows).1.blocked = true ∧
        (planDelta platform authority delta rows).2 = rows) := by
  cases delta with
  | add delta =>
    simp only [planDelta, planAdd]
    cases found : findRow rows delta.requirement.id with
    | none => exact .inr (.inl ⟨rfl, found, rfl⟩)
    | some existing =>
      simp only
      split
      next same => exact .inl ⟨rfl, rfl, existing, found, same⟩
      next => exact .inr (.inr ⟨rfl, rfl⟩)
  | modify delta =>
    simp only [planDelta, planModify]
    cases found : findRow rows delta.target_id with
    | none => exact .inr (.inr ⟨rfl, rfl⟩)
    | some current =>
      simp only
      split
      next matching => exact .inl ⟨rfl, rfl, current, found, matching⟩
      next =>
        split
        next => exact .inr (.inl ⟨rfl, ⟨current, found⟩, rfl⟩)
        next => exact .inr (.inr ⟨blockedStatus_blocked .., rfl⟩)
  | remove delta =>
    simp only [planDelta, planRemove]
    cases found : findRow rows delta.target_id with
    | none => exact .inl ⟨rfl, rfl, found⟩
    | some current =>
      simp only
      split
      next => exact .inr (.inl ⟨rfl, ⟨current, found⟩, rfl⟩)
      next => exact .inr (.inr ⟨blockedStatus_blocked .., rfl⟩)
  | rename delta =>
    simp only [planDelta, planRename]
    cases found : findRow rows delta.target_id with
    | none =>
      simp only
      split
      next titled =>
        obtain ⟨row, held, title⟩ := Option.map_eq_some_iff.mp titled
        exact .inl ⟨rfl, rfl, ⟨row, held, title⟩, fun _ => found⟩
      next => exact .inr (.inr ⟨rfl, rfl⟩)
    | some current =>
      simp only
      split
      next same =>
        exact .inl ⟨rfl, rfl, ⟨current, by rw [same.1, found], same.2⟩, fun moved => absurd same.1 moved⟩
      next =>
        split
        next => exact .inr (.inr ⟨rfl, rfl⟩)
        next free =>
          split
          next =>
            refine .inr (.inl ⟨rfl, ⟨current, found⟩, fun moved => ?_, rfl⟩)
            -- The destination was tested with `some`, the map says it with `find`.
            exact any_eq_false_iff.mp (by simpa [moved] using free)
          next => exact .inr (.inr ⟨blockedStatus_blocked .., rfl⟩)

variable {platform} {authority : ProjectionAuthority}

variable {delta : Delta}

/-- A settled delta changes nothing and asks for no authority. -/
theorem planDelta_settled (settled : Settled platform delta rows) :
    (planDelta platform authority delta rows).1.status = .identical ∧
      (planDelta platform authority delta rows).2 = rows := by
  cases delta with
  | add delta =>
    obtain ⟨row, found, same⟩ := settled
    simp [planDelta, planAdd, found, same]
  | modify delta =>
    obtain ⟨row, found, matching⟩ := settled
    simp [planDelta, planModify, found, matching]
  | remove delta =>
    have absent : findRow rows delta.target_id = none := settled
    simp [planDelta, planRemove, absent]
  | rename delta =>
    obtain ⟨⟨row, found, title⟩, gone⟩ := settled
    by_cases same : DeltaRename.resultId delta = delta.target_id
    · rw [same] at found
      simp [planDelta, planRename, found, same, title]
    · simp [planDelta, planRename, gone same, found, title]

theorem settled_of_identical (identical : (planDelta platform authority delta rows).1.status = .identical) :
    (planDelta platform authority delta rows).2 = rows ∧ Settled platform delta rows := by
  rcases planDelta_cases platform authority delta rows with
    ⟨_, same, settled⟩ | ⟨missing, _⟩ | ⟨blocked, _⟩
  · exact ⟨same, settled⟩
  · rw [identical] at missing; cases missing
  · simp [DeltaProjectionDisposition.blocked, identical] at blocked

/-! ## The map of ids -/

def Distinct (rows : List Requirement) : Prop := (rows.map Requirement.id).Nodup

def effect : Delta → (String → Option Requirement) → String → Option Requirement
  | .add delta, find, id => if id = delta.requirement.id then some delta.requirement else find id
  | .modify delta, find, id =>
    if id = delta.target_id then (find id).map (·.assign delta.changes) else find id
  | .remove delta, find, id => if id = delta.target_id then none else find id
  | .rename delta, find, id =>
    if id = DeltaRename.resultId delta then (find delta.target_id).map (renameRow delta)
    else if id = delta.target_id then none else find id

theorem findRow_cons (row : Requirement) (rows : List Requirement) (id : String) :
    findRow (row :: rows) id = if row.id = id then some row else findRow rows id := by
  by_cases same : row.id = id <;> simp [findRow, same]

theorem findRow_append (rows : List Requirement) (row : Requirement) (id : String) :
    findRow (rows ++ [row]) id = (findRow rows id).or (if row.id = id then some row else none) := by
  by_cases same : row.id = id <;> simp [findRow, List.find?_append, same]

theorem findRow_filter (rows : List Requirement) (gone id : String) :
    findRow (rows.filter fun row => row.id ≠ gone) id =
      if id = gone then none else findRow rows id := by
  induction rows with
  | nil => simp [findRow]
  | cons row rows ih =>
    by_cases leaves : row.id = gone
    · have dropped : (row :: rows).filter (fun row => row.id ≠ gone) =
          rows.filter fun row => row.id ≠ gone := by simp [leaves]
      rw [dropped, ih, findRow_cons]
      by_cases asked : id = gone
      · simp [asked]
      · have other : row.id ≠ id := fun same => asked (same.symm.trans leaves)
        simp [asked, other]
    · have kept : (row :: rows).filter (fun row => row.id ≠ gone) =
          row :: rows.filter fun row => row.id ≠ gone := by simp [leaves]
      rw [kept, findRow_cons, findRow_cons, ih]
      by_cases same : row.id = id
      · have stays : id ≠ gone := fun asked => leaves (same.trans asked)
        simp [same, stays]
      · simp [same]

variable {assign : Requirement → Requirement}

theorem findRow_updateRow {target result : String} (distinct : Distinct rows)
    (renamed : ∀ row, row.id = target → (assign row).id = result)
    (free : result ≠ target → findRow rows result = none) {current : Requirement}
    (found : findRow rows target = some current) (id : String) : findRow (updateRow target assign rows) id =
      if id = result then some (assign current)
      else if id = target then none else findRow rows id := by
  induction rows with
  | nil => cases found
  | cons row rows ih =>
    obtain ⟨notLater, distinctRest⟩ := List.nodup_cons.mp distinct
    rw [findRow_cons] at found
    by_cases here : row.id = target
    · obtain rfl : row = current := by simpa [here] using found
      have afterwards : findRow rows target = none := by
        refine findRow_none.mpr fun later member same => notLater ?_
        rw [here, ← same]
        exact List.mem_map_of_mem member
      have newId := renamed row here
      simp only [updateRow, here, if_true, findRow_cons, newId]
      by_cases asked : id = result
      · simp [asked]
      · by_cases old : id = target
        · simp [old, Ne.symm (old ▸ asked), afterwards, old ▸ asked]
        · simp [asked, Ne.symm asked, old, Ne.symm old]
    · have freeRest : result ≠ target → findRow rows result = none := by
        intro moved
        have none := free moved
        rw [findRow_cons] at none
        split at none
        · cases none
        · exact none
      simp only [here, if_false] at found
      simp only [updateRow, here, if_false, findRow_cons, ih distinctRest freeRest found]
      by_cases same : row.id = id
      · have notTarget : id ≠ target := fun old => here (same.trans old)
        have notResult : id ≠ result := by
          intro asked
          by_cases moved : result = target
          · exact notTarget (asked.trans moved)
          · have none := free moved
            rw [findRow_cons, if_pos (same.trans asked)] at none
            cases none
        simp [same, notTarget, notResult]
      · simp [same]

theorem mem_updateRow {target : String} {row : Requirement} (member : row ∈ updateRow target assign rows) :
    row ∈ rows ∨ ∃ current, current.id = target ∧ row = assign current := by
  induction rows with
  | nil => cases member
  | cons first rest ih =>
    simp only [updateRow] at member
    split at member
    next here =>
      rcases List.mem_cons.mp member with rfl | member
      · exact .inr ⟨first, here, rfl⟩
      · exact .inl (List.mem_cons_of_mem _ member)
    next =>
      rcases List.mem_cons.mp member with rfl | member
      · exact .inl List.mem_cons_self
      · rcases ih member with kept | updated
        · exact .inl (List.mem_cons_of_mem _ kept)
        · exact .inr updated

theorem distinct_updateRow {target result : String} (distinct : Distinct rows)
    (renamed : ∀ row, row.id = target → (assign row).id = result)
    (free : result ≠ target → findRow rows result = none) : Distinct (updateRow target assign rows) := by
  induction rows with
  | nil => exact List.nodup_nil
  | cons row rows ih =>
    obtain ⟨notLater, distinctRest⟩ := List.nodup_cons.mp distinct
    by_cases here : row.id = target
    · simp only [updateRow, here, if_true]
      refine List.nodup_cons.mpr ⟨?_, distinctRest⟩
      rw [renamed row here]
      by_cases moved : result = target
      · rwa [moved, ← here]
      · intro member
        obtain ⟨later, held, same⟩ := List.mem_map.mp member
        exact findRow_none.mp (free moved) later (by simp [held]) same
    · simp only [updateRow, here, if_false]
      have freeRest : result ≠ target → findRow rows result = none := by
        intro moved
        exact findRow_none.mpr fun later held => findRow_none.mp (free moved) later (by simp [held])
      refine List.nodup_cons.mpr ⟨?_, ih distinctRest freeRest⟩
      intro member
      obtain ⟨later, held, same⟩ := List.mem_map.mp member
      rcases mem_updateRow held with kept | ⟨current, atTarget, rfl⟩
      · exact notLater (same ▸ List.mem_map_of_mem kept)
      · have asked : row.id = result := same.symm.trans (renamed current atTarget)
        by_cases moved : result = target
        · exact here (asked.trans moved)
        · exact findRow_none.mp (free moved) row (by simp) asked

/-- Applying a delta is its effect on the map. -/
theorem findRow_applies {rows next : List Requirement} (distinct : Distinct rows)
    (applies : Applies delta rows next) (id : String) : findRow next id = effect delta (findRow rows) id := by
  cases delta with
  | add delta =>
    obtain ⟨absent, rfl⟩ := applies
    rw [findRow_append]
    by_cases asked : id = delta.requirement.id
    · simp [effect, asked, absent]
    · simp [effect, asked, Ne.symm asked]
  | modify delta =>
    obtain ⟨⟨current, found⟩, rfl⟩ := applies
    rw [findRow_updateRow distinct
      (fun row (atTarget : row.id = delta.target_id) => (assign_id row _).trans atTarget) (fun moved => absurd rfl moved) found]
    by_cases asked : id = delta.target_id
    · simp [effect, asked, found]
    · simp [effect, asked]
  | remove delta =>
    obtain ⟨_, rfl⟩ := applies
    rw [findRow_filter]
    rfl
  | rename delta =>
    obtain ⟨⟨current, found⟩, free, rfl⟩ := applies
    rw [findRow_updateRow distinct (fun _ _ => (rfl : _ = DeltaRename.resultId delta)) free found]
    simp [effect, found]

theorem distinct_applies {rows next : List Requirement} (distinct : Distinct rows)
    (applies : Applies delta rows next) : Distinct next := by
  cases delta with
  | add delta =>
    obtain ⟨absent, rfl⟩ := applies
    have fresh : delta.requirement.id ∉ rows.map Requirement.id := by
      intro member
      obtain ⟨row, held, same⟩ := List.mem_map.mp member
      exact findRow_none.mp absent row held same
    unfold Distinct
    rw [List.map_append, List.map_singleton, List.nodup_append]
    refine ⟨distinct, List.nodup_singleton _, ?_⟩
    intro id held other last same
    rw [List.mem_singleton] at last
    exact fresh (last ▸ same ▸ held)
  | modify delta =>
    obtain ⟨_, rfl⟩ := applies
    exact distinct_updateRow distinct
      (fun row (atTarget : row.id = delta.target_id) => (assign_id row _).trans atTarget) (fun moved => absurd rfl moved)
  | remove delta =>
    obtain ⟨_, rfl⟩ := applies
    exact distinct.sublist (List.filter_sublist.map _)
  | rename delta =>
    obtain ⟨_, free, rfl⟩ := applies
    exact distinct_updateRow distinct (fun _ _ => (rfl : _ = DeltaRename.resultId delta)) free

end

end Advance.Archive
