import Advance.Foundation.Pagination
import Advance.Storage.StoreResidueScan

/-! # Paging through the residue of a store

Calls of the scan, each after the cursor of the one before it, over a store that stays as it is.
-/

namespace Advance.Storage

open Advance.JavaScript Advance.Foundation

/-! ## The records of a store -/

section

variable (runtime : ResidueRuntime) (paths : ProjectPaths) (store : ResidueStore) (localProjectId : Option String)

/-- Every record, as a scan that is never stopped classifies it. -/
def storeRecords : List StoreResidueRecord :=
  (canonicalEntries runtime paths store).filterMap
      (fun (parent, entry) => canonicalEntry runtime paths store localProjectId parent entry) ++
    (listEntries runtime store.quarantine).filterMap (quarantineEntry paths) ++
    (listEntries runtime store.root).filterMap (noiseEntry runtime paths)

/-- The record id an entry of the changes or of the archive gives rise to. -/
def canonicalId (parent : String) (entry : DirEntry) : Option String :=
  if entry.isDirectory then some entry.name
  else
    match withoutJson entry.name with
    | some id => if store.accessible (join [parent, id]) then none else some s!"legacy:{entry.name}"
    | none => some (relative runtime.workingDirectory (dirname parent) (join [parent, entry.name]))

def quarantineId (entry : DirEntry) : Option String := some s!"quarantine:{entry.name}"

def noiseId (entry : DirEntry) : Option String :=
  let candidate := join [dirname paths.changes, entry.name]
  if (configured paths (dirname paths.changes)).any fun path =>
      decide (path = candidate) || isUnder runtime.workingDirectory path candidate then none
  else some s!"noise:{entry.name}"

def recordIds : List String :=
  (canonicalEntries runtime paths store).filterMap (fun (parent, entry) => canonicalId runtime store parent entry) ++
    (listEntries runtime store.quarantine).filterMap quarantineId ++
    (listEntries runtime store.root).filterMap (noiseId runtime paths)

variable {runtime paths store localProjectId}

theorem classifyCanonical_recordId (id sourcePath : String) :
    (classifyCanonical runtime paths store localProjectId id sourcePath).recordId = id := by
  unfold classifyCanonical
  split
  · rfl
  · rfl
  · split <;> rfl

theorem canonicalEntry_recordId (parent : String) (entry : DirEntry) :
    (canonicalEntry runtime paths store localProjectId parent entry).map StoreResidueRecord.recordId =
      canonicalId runtime store parent entry := by
  unfold canonicalEntry canonicalId
  split
  · exact congrArg some (classifyCanonical_recordId _ _)
  · cases withoutJson entry.name with
    | some id => simp only; split <;> rfl
    | none => rfl

theorem noiseEntry_recordId (entry : DirEntry) :
    (noiseEntry runtime paths entry).map StoreResidueRecord.recordId = noiseId runtime paths entry := by
  unfold noiseEntry noiseId
  dsimp only
  split <;> rfl

theorem storeRecords_ids : (storeRecords runtime paths store localProjectId).map StoreResidueRecord.recordId =
      recordIds runtime paths store := by
  simp only [storeRecords, recordIds, List.map_append, List.map_filterMap, canonicalEntry_recordId,
    noiseEntry_recordId]
  rfl

end

/-! ## Positions -/

/-- How many records are before those a call with a cursor returns, from their ids. -/
def positionOf (ids : List String) : Option String → Nat
  | none => 0
  | some cursor => if cursor = RECONCILE_START_CURSOR then 0 else ids.idxOf cursor + 1

variable {ids : List String}

theorem positionOf_append {cursor : Option String} (more : List String)
    (found : positionOf ids cursor ≤ ids.length) : positionOf (ids ++ more) cursor = positionOf ids cursor := by
  cases cursor with
  | none => rfl
  | some cursor =>
    by_cases start : cursor = RECONCILE_START_CURSOR
    · simp only [positionOf, if_pos start]
    · simp only [positionOf, if_neg start] at found ⊢
      rw [List.idxOf_append_of_mem (List.idxOf_lt_length_iff.mp (by omega))]

variable {index : Nat}

theorem positionOf_id (distinct : ids.Nodup) (proper : RECONCILE_START_CURSOR ∉ ids)
    (inside : index < ids.length) : positionOf ids (some ids[index]) = index + 1 := by
  have notStart : ids[index] ≠ RECONCILE_START_CURSOR := fun same => proper (same ▸ List.getElem_mem inside)
  rw [positionOf, if_neg notStart, distinct.idxOf_getElem]

theorem idxOf_le {id : String} (inside : index < ids.length) (same : ids[index] = id) : ids.idxOf id ≤ index := by
  by_contra later
  have earlier : index < ids.findIdx (· == id) := by simpa [List.idxOf] using later
  have differs : (ids[index] == id) = false := List.not_of_lt_findIdx earlier
  exact absurd same (by simpa using differs)

theorem positionOf_id_le (inside : index < ids.length) : positionOf ids (some ids[index]) ≤ index + 1 := by
  simp only [positionOf]
  split
  · exact Nat.zero_le _
  · exact Nat.succ_le_succ (idxOf_le inside rfl)

theorem positionOf_id_before (clash : ¬ (ids.Nodup ∧ RECONCILE_START_CURSOR ∉ ids)) :
    ∃ (index : Nat) (inside : index < ids.length), positionOf ids (some ids[index]) ≤ index := by
  by_cases start : RECONCILE_START_CURSOR ∈ ids
  · obtain ⟨index, inside, same⟩ := List.getElem_of_mem start
    exact ⟨index, inside, by simp [positionOf, same]⟩
  · have repeated : ¬ ids.Nodup := fun distinct => clash ⟨distinct, start⟩
    rw [List.nodup_iff_injective_getElem] at repeated
    obtain ⟨left, right, same, apart⟩ : ∃ left right : Fin ids.length, ids[left] = ids[right] ∧ left < right := by
      simp only [Function.Injective, not_forall] at repeated
      obtain ⟨left, right, same, different⟩ := repeated
      rcases lt_or_gt_of_ne different with before | after
      · exact ⟨left, right, same, before⟩
      · exact ⟨right, left, same.symm, after⟩
    refine ⟨right, right.isLt, ?_⟩
    have first : ids.idxOf ids[right] ≤ left := idxOf_le left.isLt same
    have before : (left : Nat) < right := apart
    simp only [positionOf]
    split
    · exact Nat.zero_le _
    · exact Nat.succ_le_of_lt (lt_of_le_of_lt first before)

/-! ## What a call returns -/

section

variable {options : StoreResidueScanOptions} {budget : Budget}

/-- How many of the records offered are before those the call returns. -/
def cursorPosition (options : StoreResidueScanOptions) (offered : List StoreResidueRecord) : Nat :=
  positionOf (offered.map StoreResidueRecord.recordId) options.resumeAfter

structure Offered (options : StoreResidueScanOptions) (offered : List StoreResidueRecord) (state : ScanState) :
    Prop where
  records : state.records = (offered.drop (cursorPosition options offered)).take options.limit
  past : state.pastResumeCursor = decide (cursorPosition options offered ≤ offered.length)

structure Scanned (options : StoreResidueScanOptions) (budget : Budget) (offered all : List StoreResidueRecord)
    (state : ScanState) : Prop where
  taken : Offered options offered state
  beginning : offered <+: all
  complete : offered = all ∨ shouldStop options budget state = true

theorem limit_pos (options : StoreResidueScanOptions) : 0 < options.limit := by
  unfold StoreResidueScanOptions.limit
  omega

variable {offered : List StoreResidueRecord}

theorem cursorPosition_append (more : List StoreResidueRecord)
    (found : cursorPosition options offered ≤ offered.length) :
    cursorPosition options (offered ++ more) = cursorPosition options offered := by
  unfold cursorPosition at found ⊢
  rw [List.map_append]
  exact positionOf_append _ (by simpa using found)

theorem cursorPosition_next (record : StoreResidueRecord)
    (missing : offered.length < cursorPosition options offered) : cursorPosition options (offered ++ [record]) =
      if options.resumeAfter = some record.recordId then offered.length + 1 else offered.length + 2 := by
  unfold cursorPosition at missing ⊢
  cases resume : options.resumeAfter with
  | none =>
    rw [resume] at missing
    cases missing
  | some cursor =>
    rw [resume] at missing
    by_cases start : cursor = RECONCILE_START_CURSOR
    · simp only [positionOf, if_pos start] at missing
      omega
    · simp only [positionOf, if_neg start] at missing
      have absent : cursor ∉ offered.map StoreResidueRecord.recordId := by
        intro member
        have inside := List.idxOf_lt_length_iff.mpr member
        rw [List.length_map] at inside
        omega
      rw [positionOf, if_neg start, List.map_append, List.idxOf_append_of_notMem absent]
      by_cases same : cursor = record.recordId
      · simp [same]
      · simp [same]

theorem offered_start : Offered options [] (.start options) := by
  refine ⟨by simp [ScanState.start], ?_⟩
  simp only [ScanState.start, StoreResidueScanOptions.fromStart, cursorPosition, List.map_nil, List.length_nil]
  cases options.resumeAfter with
  | none => simp [positionOf]
  | some cursor =>
    by_cases start : cursor = RECONCILE_START_CURSOR <;> simp [start, positionOf]

variable {state : ScanState}

section

variable (held : Offered options offered state) (record : StoreResidueRecord)
include held record

theorem Offered.keep (found : cursorPosition options offered ≤ offered.length) :
    Offered options (offered ++ [record]) (state.add options record) := by
  obtain ⟨records, past⟩ := held
  have isPast : state.pastResumeCursor = true := by simpa using past.trans (decide_eq_true found)
  have inside : cursorPosition options offered ≤ (offered ++ [record]).length := by
    rw [List.length_append]
    omega
  by_cases full : options.limit ≤ state.records.length
  · have same : state.add options record = state := by simp [ScanState.add, isPast, full]
    rw [same]
    refine ⟨?_, by rw [cursorPosition_append _ found, isPast, decide_eq_true inside]⟩
    rw [cursorPosition_append _ found, List.drop_append_of_le_length found, records, List.take_append_of_le_length]
    rw [records, List.length_take] at full
    omega
  · have added : (state.add options record).records = state.records ++ [record] := by
      simp [ScanState.add, isPast, full]
    have stillPast : (state.add options record).pastResumeCursor = true := by simp [ScanState.add, isPast, full]
    have short : (offered.drop (cursorPosition options offered)).length < options.limit := by
      rw [records, List.length_take] at full
      omega
    refine ⟨?_, by rw [cursorPosition_append _ found, stillPast, decide_eq_true inside]⟩
    rw [cursorPosition_append _ found, List.drop_append_of_le_length found, added, records,
      List.take_of_length_le (by omega), List.take_of_length_le]
    rw [List.length_append, List.length_singleton]
    omega

theorem Offered.pass (missing : offered.length < cursorPosition options offered) :
    Offered options (offered ++ [record]) (state.add options record) := by
  obtain ⟨records, past⟩ := held
  have notPast : state.pastResumeCursor = false := by simpa using past.trans (decide_eq_false (not_le.mpr missing))
  have empty : state.records = [] := by
    rw [records, List.drop_eq_nil_of_le missing.le, List.take_nil]
  have position := cursorPosition_next record missing
  refine ⟨?_, ?_⟩
  · rw [List.drop_eq_nil_of_le, List.take_nil]
    · simp only [ScanState.add, notPast, Bool.not_false, if_true]
      split <;> exact empty
    · rw [position, List.length_append, List.length_singleton]
      split <;> omega
  · rw [position]
    by_cases same : options.resumeAfter = some record.recordId
    · simp [ScanState.add, notPast, same]
    · simp [ScanState.add, notPast, same]

theorem Offered.add : Offered options (offered ++ [record]) (state.add options record) :=
  (le_or_gt (cursorPosition options offered) offered.length).elim (held.keep record) (held.pass record)

end

theorem Offered.looked (held : Offered options offered state)
    (looks : Nat) : Offered options offered { state with looks := looks } := ⟨held.records, held.past⟩

theorem shouldStop_looked (stops : shouldStop options budget state = true) :
    shouldStop options budget { state with looks := state.looks + 1 } = true := by
  simp only [shouldStop, Bool.or_eq_true] at stops ⊢
  exact stops.imp id (budget.stays _ _ (Nat.le_succ _))

/-- A loop offers its records one after another, until the scan stops. -/
theorem enumerate_scanned {α : Type} (recordOf : α → Option StoreResidueRecord) (entries : List α)
    {offered all : List StoreResidueRecord} (held : Scanned options budget offered all state) :
    ∃ offered', Scanned options budget offered' (all ++ entries.filterMap recordOf)
      (enumerate options budget recordOf entries state) := by
  induction entries generalizing offered all state with
  | nil => exact ⟨offered, by simpa [enumerate] using held⟩
  | cons entry rest ih =>
    obtain ⟨taken, beginning, complete⟩ := held
    unfold enumerate
    cases stops : shouldStop options budget state with
    | true =>
      refine ⟨offered, taken.looked _, beginning.trans (List.prefix_append _ _), .inr ?_⟩
      simp only [if_true]
      exact shouldStop_looked stops
    | false =>
      obtain rfl : offered = all := complete.resolve_right (by simp [stops])
      cases record : recordOf entry with
      | none =>
        simp only [Bool.false_eq_true, if_false, List.filterMap_cons_none record]
        exact ih ⟨taken.looked _, List.prefix_refl _, .inl rfl⟩
      | some record' =>
        simp only [Bool.false_eq_true, if_false]
        rw [List.filterMap_cons_some record, List.append_cons]
        exact ih ⟨(taken.looked _).add record', List.prefix_refl _, .inl rfl⟩

variable {runtime : ResidueRuntime} {paths : ProjectPaths} {store : ResidueStore}

/-- The state a call ends in. -/
def finalState (options : StoreResidueScanOptions) (budget : Budget) (runtime : ResidueRuntime)
    (paths : ProjectPaths) (store : ResidueStore) : ScanState :=
  enumerateUnknownStoreNoise options budget runtime paths store
    (enumerateQuarantine options budget runtime paths store
      (enumerateCanonicalRecords options budget runtime paths store (.start options)))

variable (options budget runtime paths store)

theorem final_scanned :
    ∃ offered, Scanned options budget offered (storeRecords runtime paths store options.localProjectId)
      (finalState options budget runtime paths store) := by
  have start : Scanned options budget [] [] (.start options) := ⟨offered_start, List.prefix_refl _, .inl rfl⟩
  obtain ⟨_, canonical⟩ := enumerate_scanned (fun (entry : String × DirEntry) =>
      canonicalEntry runtime paths store options.localProjectId entry.1 entry.2)
    (canonicalEntries runtime paths store) start
  obtain ⟨_, quarantined⟩ := enumerate_scanned (quarantineEntry paths) (listEntries runtime store.quarantine)
    canonical
  exact enumerate_scanned (noiseEntry runtime paths) (listEntries runtime store.root) quarantined

theorem scan_records : ∃ size ≤ options.limit, (runStoreResidueScan options budget runtime paths store).records =
        ((storeRecords runtime paths store options.localProjectId).drop
          (positionOf (recordIds runtime paths store) options.resumeAfter)).take size ∧
      ((runStoreResidueScan options budget runtime paths store).budgetExceeded = false →
        (runStoreResidueScan options budget runtime paths store).records =
          ((storeRecords runtime paths store options.localProjectId).drop
            (positionOf (recordIds runtime paths store) options.resumeAfter)).take options.limit) := by
  obtain ⟨offered, ⟨records, _⟩, ⟨rest, all⟩, complete⟩ := final_scanned options budget runtime paths store
  change (runStoreResidueScan options budget runtime paths store).records = _ at records
  have position : positionOf (recordIds runtime paths store) options.resumeAfter =
      cursorPosition options (storeRecords runtime paths store options.localProjectId) := by
    rw [cursorPosition, storeRecords_ids]
  rw [position]
  have part : ∃ size ≤ options.limit, (runStoreResidueScan options budget runtime paths store).records =
      ((storeRecords runtime paths store options.localProjectId).drop
        (cursorPosition options (storeRecords runtime paths store options.localProjectId))).take size := by
    rw [← all, records]
    by_cases found : cursorPosition options offered ≤ offered.length
    · refine ⟨min options.limit (offered.length - cursorPosition options offered), Nat.min_le_left _ _, ?_⟩
      rw [cursorPosition_append _ found, List.drop_append_of_le_length found, List.take_append_of_le_length]
      · rw [← List.length_drop, ← List.take_take, List.take_length]
      · rw [List.length_drop]
        omega
    · refine ⟨0, Nat.zero_le _, ?_⟩
      rw [List.drop_eq_nil_of_le (by omega), List.take_nil, List.take_zero]
  obtain ⟨size, bounded, taken⟩ := part
  refine ⟨size, bounded, taken, fun inBudget => ?_⟩
  rcases complete with rfl | stops
  · exact records
  · have full : options.limit ≤ (runStoreResidueScan options budget runtime paths store).records.length := by
      have notExpired : budget.expired (finalState options budget runtime paths store).looks = false := inBudget
      change options.limit ≤ (finalState options budget runtime paths store).records.length
      simpa [shouldStop, notExpired] using stops
    have size : size = options.limit := by
      rw [taken, List.length_take] at full
      omega
    rw [taken, size]

theorem scan_continuation : let scan := runStoreResidueScan options budget runtime paths store
    scan.continuationCursor =
      if options.limit ≤ scan.records.length ∨ scan.budgetExceeded = true then
        some ((scan.records.getLast?.map StoreResidueRecord.recordId).getD RECONCILE_START_CURSOR)
      else none := by
  simp only [runStoreResidueScan, Bool.or_eq_true, decide_eq_true_eq]

end

/-! ## Calls one after another -/

section

variable (runtime : ResidueRuntime) (paths : ProjectPaths) (store : ResidueStore) (localProjectId : Option String)

def pageOptions (maxRecords : JsNumber) (cursor : Option String) : StoreResidueScanOptions :=
  ⟨some maxRecords, cursor, localProjectId⟩

def residueCall (maxRecords : JsNumber) (budgets : Nat → Budget) (count : Nat) (cursor : Option String) :
    List StoreResidueRecord × Option String :=
  let scan := runStoreResidueScan (pageOptions localProjectId maxRecords cursor) (budgets count) runtime paths store
  (scan.records, scan.continuationCursor)

def Budgeted (maxRecords : JsNumber) (budgets : Nat → Budget) : Prop :=
  ∀ count cursor, Called (residueCall runtime paths store localProjectId maxRecords budgets) count cursor →
    (runStoreResidueScan (pageOptions localProjectId maxRecords cursor) (budgets count) runtime paths
      store).budgetExceeded = true →
    (residueCall runtime paths store localProjectId maxRecords budgets count cursor).1 ≠ []

variable {runtime paths store localProjectId} {maxRecords : JsNumber}

theorem residueCall_advances {budgets : Nat → Budget} (distinct : (recordIds runtime paths store).Nodup)
    (proper : RECONCILE_START_CURSOR ∉ recordIds runtime paths store)
    (budgeted : Budgeted runtime paths store localProjectId maxRecords budgets) (count : Nat) (cursor : Option String)
    (made : Called (residueCall runtime paths store localProjectId maxRecords budgets) count cursor) :
    Continues (storeRecords runtime paths store localProjectId) (positionOf (recordIds runtime paths store)) cursor
      (residueCall runtime paths store localProjectId maxRecords budgets count cursor) := by
  obtain ⟨size, bounded, records, inBudget⟩ := scan_records (pageOptions localProjectId maxRecords cursor)
    (budgets count) runtime paths store
  have continuation := scan_continuation (pageOptions localProjectId maxRecords cursor) (budgets count) runtime paths
    store
  have ids : (storeRecords runtime paths store localProjectId).map StoreResidueRecord.recordId =
      recordIds runtime paths store := storeRecords_ids
  have reaches := budgeted count cursor made
  unfold residueCall at reaches ⊢
  generalize runStoreResidueScan (pageOptions localProjectId maxRecords cursor) (budgets count) runtime paths
    store = scan at *
  change scan.records = ((storeRecords runtime paths store localProjectId).drop
    (positionOf (recordIds runtime paths store) cursor)).take size at records
  simp only at continuation reaches
  refine ⟨fun ends => ?_, fun next goesOn => ?_⟩
  · simp only at ends
    rw [ends] at continuation
    split at continuation
    · cases continuation
    next stopped =>
      simp only [not_or, not_le, Bool.not_eq_true] at stopped
      have all := inBudget stopped.2
      change scan.records = ((storeRecords runtime paths store localProjectId).drop
        (positionOf (recordIds runtime paths store) cursor)).take _ at all
      have short := stopped.1
      rw [all, List.length_take] at short
      simp only [all]
      rw [List.take_of_length_le (by omega)]
  · simp only at goesOn
    rw [goesOn] at continuation
    have nonempty : scan.records ≠ [] := by
      split at continuation
      next stopped =>
        rcases stopped with full | exceeded
        · intro none
          rw [none, List.length_nil] at full
          exact absurd full (not_le.mpr (limit_pos _))
        · exact reaches exceeded
      · cases continuation
    have positive : 0 < scan.records.length := List.length_pos_iff.mpr nonempty
    have fits : scan.records.length ≤ (storeRecords runtime paths store localProjectId).length -
        positionOf (recordIds runtime paths store) cursor := by
      rw [records, List.length_take, List.length_drop]
      exact Nat.min_le_right _ _
    have page : scan.records = ((storeRecords runtime paths store localProjectId).drop
        (positionOf (recordIds runtime paths store) cursor)).take scan.records.length := by
      rw [records, List.length_take, ← List.take_take, List.take_length]
    refine ⟨scan.records.length, positive, by omega, page, ?_⟩
    have inside : positionOf (recordIds runtime paths store) cursor + (scan.records.length - 1) <
        (recordIds runtime paths store).length := by
      have length := congrArg List.length ids
      rw [List.length_map] at length
      omega
    -- the cursor is the id of the last record of the page
    have last : scan.records.getLast?.map StoreResidueRecord.recordId =
        some (recordIds runtime paths store)[positionOf (recordIds runtime paths store) cursor +
          (scan.records.length - 1)] := by
      have record := (congrArg List.getLast? page).trans (page_getLast? positive (by omega))
      rw [record, ← List.getElem?_map, ids, List.getElem?_eq_getElem inside]
    have cursorId : next = (recordIds runtime paths store)[positionOf (recordIds runtime paths store) cursor +
        (scan.records.length - 1)] := by
      split at continuation
      · rw [last] at continuation
        exact Option.some.inj continuation
      · cases continuation
    rw [cursorId, positionOf_id distinct proper inside]
    omega

theorem residueCall_comesBack {index : Nat} (inside : index < (recordIds runtime paths store).length)
    (before : positionOf (recordIds runtime paths store) (some (recordIds runtime paths store)[index]) ≤ index)
    (count : Nat) (cursor : Option String) (held : positionOf (recordIds runtime paths store) cursor ≤ index) :
    ∃ page next, residueCall runtime paths store localProjectId 1 (fun _ => .unlimited) count cursor =
        (page, some next) ∧
      positionOf (recordIds runtime paths store) (some next) ≤ index := by
  have ids : (storeRecords runtime paths store localProjectId).map StoreResidueRecord.recordId =
      recordIds runtime paths store := storeRecords_ids
  have length := congrArg List.length ids
  rw [List.length_map] at length
  obtain ⟨_, _, _, inBudget⟩ := scan_records (pageOptions localProjectId 1 cursor) .unlimited runtime paths store
  have continuation := scan_continuation (pageOptions localProjectId 1 cursor) .unlimited runtime paths store
  have one : (pageOptions localProjectId 1 cursor).limit = 1 := rfl
  have page := inBudget rfl
  rw [one] at page continuation
  change _ = ((storeRecords runtime paths store localProjectId).drop
    (positionOf (recordIds runtime paths store) cursor)).take 1 at page
  rw [List.drop_eq_getElem_cons (by omega), List.take_succ_cons, List.take_zero] at page
  simp only [page, List.length_singleton, Nat.le_refl, true_or, if_true, List.getLast?_singleton, Option.map_some,
    Option.getD_some] at continuation
  refine ⟨_, _, Prod.ext page continuation, ?_⟩
  have id : (storeRecords runtime paths store localProjectId)[positionOf (recordIds runtime paths store)
      cursor].recordId = (recordIds runtime paths store)[positionOf (recordIds runtime paths store) cursor] := by
    simp only [← ids, List.getElem_map]
  rw [id]
  rcases eq_or_lt_of_le held with same | earlier
  · simpa only [same] using before
  · exact (positionOf_id_le (by omega)).trans earlier

/-- The calls end with every record, for every page size and all deadlines that let each call return
    a record, exactly where ids tell the records of the store apart and from the start cursor. -/
theorem scan_exhaustive_iff (runtime : ResidueRuntime) (paths : ProjectPaths) (store : ResidueStore)
    (localProjectId : Option String) : (∀ maxRecords : JsNumber, 0 < maxRecords → ∀ budgets : Nat → Budget,
      Budgeted runtime paths store localProjectId maxRecords budgets →
      ∃ pages, Pages (residueCall runtime paths store localProjectId maxRecords budgets) 0 none pages ∧
        pages.flatten.Perm (storeRecords runtime paths store localProjectId)) ↔
      (recordIds runtime paths store).Nodup ∧ RECONCILE_START_CURSOR ∉ recordIds runtime paths store := by
  constructor
  · intro exhaustive
    by_contra clash
    obtain ⟨index, inside, before⟩ := positionOf_id_before clash
    have unlimited : Budgeted runtime paths store localProjectId 1 fun _ => .unlimited :=
      fun _ _ _ exceeded => by cases exceeded
    obtain ⟨pages, reached, _⟩ := exhaustive 1 one_pos (fun _ => .unlimited) unlimited
    have start : positionOf (recordIds runtime paths store) none ≤ index := Nat.zero_le index
    exact no_pages (residueCall_comesBack inside before) start pages reached
  · rintro ⟨distinct, proper⟩ maxRecords _ budgets budgeted
    obtain ⟨pages, reached, flat⟩ := pages_exhaust rfl (residueCall_advances distinct proper budgeted)
    exact ⟨pages, reached, by rw [flat]⟩

end

/-! ## Fixed runs -/

section

def examplePaths : ProjectPaths where
  changes := "/state/changes"
  summariesDir := "/state/summaries"
  archive := "/state/archive"
  closed := "/state/closed"
  activeEpics := "/state/epics/active"
  retiredEpics := "/state/epics/retired"
  wisdom := "/state/wisdom"
  reflections := "/state/reflections"
  projectMetadata := "/state/project.json"
  artifactMetadataMigrationMarker := "/state/artifacts.json"
  snapshotRepairAudit := "/state/repair.jsonl"
  quarantineChanges := "/state/quarantine"
  reconcileDir := "/state/reconcile"

def halfArchived : ResidueStore where
  changes := .entries [⟨"addSearch", true⟩]
  archive := .entries [⟨"addSearch", true⟩]
  quarantine := .noEntry
  root := .noEntry
  activeEpics := ⟨.noEntry, fun _ => .ok none⟩
  retiredEpics := ⟨.noEntry, fun _ => .ok none⟩
  files := fun _ => .absent
  accessible := fun _ => true

def exampleRuntime : ResidueRuntime := ⟨.permissive, compare, "/"⟩

/-- Pages of one record never get behind it. -/
theorem half_archived_again : ¬ (∀ maxRecords : JsNumber, 0 < maxRecords → ∀ budgets : Nat → Budget,
      Budgeted exampleRuntime examplePaths halfArchived none maxRecords budgets →
      ∃ pages, Pages (residueCall exampleRuntime examplePaths halfArchived none maxRecords budgets) 0 none pages ∧
        pages.flatten.Perm (storeRecords exampleRuntime examplePaths halfArchived none)) := by
  intro exhaustive
  have ids : recordIds exampleRuntime examplePaths halfArchived = ["addSearch", "addSearch"] := rfl
  have unlimited : Budgeted exampleRuntime examplePaths halfArchived none 1 fun _ => .unlimited :=
    fun _ _ _ exceeded => by cases exceeded
  obtain ⟨pages, reached, _⟩ := exhaustive 1 one_pos (fun _ => .unlimited) unlimited
  have inside : 1 < (recordIds exampleRuntime examplePaths halfArchived).length := by rw [ids]; decide
  have before : positionOf (recordIds exampleRuntime examplePaths halfArchived)
      (some (recordIds exampleRuntime examplePaths halfArchived)[1]) ≤ 1 := by
    have clash : positionOf ["addSearch", "addSearch"] (some "addSearch") ≤ 1 := by decide
    simp only [ids]
    exact clash
  have start : positionOf (recordIds exampleRuntime examplePaths halfArchived) none ≤ 1 := Nat.zero_le 1
  exact no_pages (residueCall_comesBack inside before) start pages reached

end

end Advance.Storage
