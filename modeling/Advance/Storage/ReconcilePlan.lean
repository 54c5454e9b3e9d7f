import Advance.Archive.CanonicalDigests
import Advance.Storage.StoreResidueScan

/-! # The reconcile plan

The plan made of a scan: the records in the order of their classes and ids, each with
the actions its classes ask for, and a hash the plan is approved by.
-/

namespace Advance.Storage

open Advance.Archive Advance.Foundation Advance.JavaScript Advance.JavaScript.JsVal

/-! ## Actions -/

def ResidueClass.text : ResidueClass → String
  | schemaDriftRetiredEnum => "schema_drift_retired_enum"
  | summaryPointerMissing => "summary_pointer_missing"
  | summaryPointerStale => "summary_pointer_stale"
  | legacyDivergentBehind => "legacy_divergent_behind"
  | legacyNewerThanCanonical => "legacy_newer_than_canonical"
  | unmigratedArtifactMetadata => "unmigrated_artifact_metadata"
  | unmigratedWorktreeMarker => "unmigrated_worktree_marker"
  | epicOwnerMissing => "epic_owner_missing"
  | epicOwnerForeign => "epic_owner_foreign"
  | epicEntryMissing => "epic_entry_missing"
  | quarantinedRecord => "quarantined_record"
  | unknownStoreNoise => "unknown_store_noise"
  | storeArtifactMissing => "store_artifact_missing"
  | healthy => "healthy"

/-- `ResidueClassSchema.options` -/
def residueClasses : List ResidueClass :=
  [.schemaDriftRetiredEnum, .summaryPointerMissing, .summaryPointerStale, .legacyDivergentBehind,
   .legacyNewerThanCanonical, .unmigratedArtifactMetadata, .unmigratedWorktreeMarker, .epicOwnerMissing,
   .epicOwnerForeign, .epicEntryMissing, .quarantinedRecord, .unknownStoreNoise, .storeArtifactMissing, .healthy]

def classOrder (className : ResidueClass) : Nat := residueClasses.idxOf className

structure ReconcileAction where
  residueClass : ResidueClass
  action : String
  deriving DecidableEq

def actionForClass : ResidueClass → List String
  | .schemaDriftRetiredEnum => ["normalize_enum_mapping", "quarantine_record"]
  | .summaryPointerMissing => ["rebuild_summary_shard"]
  | .summaryPointerStale => ["rebuild_summary_shard"]
  | .legacyDivergentBehind => ["advance_legacy_to_canonical"]
  | .legacyNewerThanCanonical => ["report_only"]
  | .unmigratedArtifactMetadata => ["migrate_record", "classify_terminal_noop", "quarantine_record"]
  | .unmigratedWorktreeMarker => ["set_marker_auto", "set_marker_legacy"]
  | .epicOwnerMissing => ["reconstruct_from_child_fragments", "formally_lost_report", "clear_dangling_membership"]
  | .epicOwnerForeign => ["report_only"]
  | .epicEntryMissing => ["backfill_epic_entry_from_fragment"]
  | .quarantinedRecord => ["normalize_and_restore", "remain_quarantined_reported"]
  | .unknownStoreNoise => ["quarantine_to_trash"]
  | .storeArtifactMissing => ["rebuild_from_changes"]
  | .healthy => []

def actionsFor (className : ResidueClass) : List ReconcileAction :=
  (actionForClass className).map fun action => ⟨className, action⟩

/-- The repairs that do not depend on the primary class, in a fixed order. -/
def secondaryActions (record : StoreResidueRecord) : List ReconcileAction :=
  (if .unmigratedWorktreeMarker ∈ record.alsoMatches then actionsFor .unmigratedWorktreeMarker else []) ++
    (if .summaryPointerMissing ∈ record.alsoMatches then actionsFor .summaryPointerMissing else []) ++
    if .summaryPointerStale ∈ record.alsoMatches then actionsFor .summaryPointerStale else []

def recordActions (record : StoreResidueRecord) : List ReconcileAction :=
  if record.residueClass = .schemaDriftRetiredEnum ∨ record.residueClass = .quarantinedRecord ∨
      record.residueClass = .unmigratedArtifactMetadata then
    actionsFor record.residueClass ++ secondaryActions record
  else secondaryActions record ++ actionsFor record.residueClass

/-! ## The plan -/

structure ReconcilePlanRecord where
  recordId : String
  sourcePath : String
  residueClass : ResidueClass
  evidence : List String
  actions : List ReconcileAction
  deriving DecidableEq

def planRecord (record : StoreResidueRecord) : ReconcilePlanRecord :=
  ⟨record.recordId, record.sourcePath, record.residueClass, record.evidence, recordActions record⟩

def ReconcileAction.toJs (action : ReconcileAction) : JsVal :=
  .obj [("class", .str action.residueClass.text), ("action", .str action.action)]

def ReconcilePlanRecord.toJs (record : ReconcilePlanRecord) : JsVal :=
  .obj [("record_id", .str record.recordId), ("source_path", .str record.sourcePath),
    ("class", .str record.residueClass.text), ("evidence", .arr (record.evidence.map .str)),
    ("actions", .arr (record.actions.map ReconcileAction.toJs))]

def withoutHash (records : List ReconcilePlanRecord) : JsVal :=
  .obj [("schema_version", .num 1), ("records", .arr (records.map ReconcilePlanRecord.toJs))]

structure ReconcilePlan where
  records : List ReconcilePlanRecord
  planHash : Types.SHA256Digest

section

variable (platform : Platform)

def planBefore (left right : StoreResidueRecord) : Prop :=
  classOrder left.residueClass < classOrder right.residueClass ∨
    classOrder left.residueClass = classOrder right.residueClass ∧
      (platform.localeCompare left.recordId right.recordId).isLE = true

instance : DecidableRel (planBefore platform) := fun left right =>
  inferInstanceAs (Decidable (classOrder left.residueClass < classOrder right.residueClass ∨
    classOrder left.residueClass = classOrder right.residueClass ∧
      (platform.localeCompare left.recordId right.recordId).isLE = true))

def planRecords (records : List StoreResidueRecord) : List ReconcilePlanRecord :=
  (records.insertionSort (planBefore platform)).map planRecord

def buildReconcilePlan (records : List StoreResidueRecord) : ReconcilePlan where
  records := planRecords platform records
  planHash := hashPlan platform (withoutHash (planRecords platform records))

end

/-! ## The records of a scan -/

/-- A record as the scan reports it: an object, whose members are read by name. -/
structure ScanObject where
  entries : List (String × JsVal)
  distinct : (entries.map Prod.fst).Nodup

def residueClassOf (value : JsVal) : Option ResidueClass :=
  (textOf value).bind fun text => residueClasses.find? fun className => className.text = text

def listOf {α : Type} (element : JsVal → Option α) : JsVal → Option (List α)
  | .arr values => values.mapM element
  | _ => none

/-- What `StoreResidueRecordSchema` reads. -/
def residueRecordOf (object : ScanObject) : Option StoreResidueRecord := do
  let recordId ← textOf (lookup "record_id" object.entries)
  let sourcePath ← textOf (lookup "source_path" object.entries)
  let residueClass ← residueClassOf (lookup "class" object.entries)
  let alsoMatches ← listOf residueClassOf (lookup "also_matches" object.entries)
  let evidence ← listOf textOf (lookup "evidence" object.entries)
  some ⟨recordId, sourcePath, residueClass, alsoMatches, evidence⟩

def Reads (objects : List ScanObject) (records : List StoreResidueRecord) : Prop :=
  objects.map residueRecordOf = records.map some

/-- The same objects in another order, each with its members in another order. -/
def Rearranged (objects others : List ScanObject) : Prop :=
  ∃ arranged, objects.Perm arranged ∧ List.Forall₂ (fun a b => a.entries.Perm b.entries) arranged others

/-! ## What is claimed -/

structure OrderFree (platform : Platform) (objects : List ScanObject) (records : List StoreResidueRecord) : Prop where
  rearranged : ∀ others, Rearranged objects others → ∃ read, Reads others read ∧
    buildReconcilePlan platform read = buildReconcilePlan platform records
  apart : ∀ others, canonicalBytes platform.localeCompare (withoutHash (planRecords platform others)) =
      canonicalBytes platform.localeCompare (withoutHash (planRecords platform records)) →
    (others.map planRecord).Perm (records.map planRecord)

/-! ## When it holds -/

/-- No two records of one class have different ids that tie. -/
def UntiedIds (platform : Platform) (records : List StoreResidueRecord) : Prop :=
  ∀ a ∈ records, ∀ b ∈ records, a.residueClass = b.residueClass →
    platform.localeCompare a.recordId b.recordId = .eq → a.recordId = b.recordId

/-! ## Reading a rearranged scan -/

variable {left right : List (String × JsVal)}

theorem lookup_perm (distinct : (left.map Prod.fst).Nodup)
    (perm : left.Perm right) (key : String) : lookup key left = lookup key right := by
  induction perm with
  | nil => rfl
  | cons entry _ ih => rw [lookup, lookup, ih (List.nodup_cons.mp distinct).2]
  | swap first second rest =>
    have differ : second.1 ≠ first.1 := fun same => (List.nodup_cons.mp distinct).1 (by simp [same])
    simp only [lookup]
    by_cases here : second.1 = key
    · simp [here, show first.1 ≠ key from fun other => differ (here.trans other.symm)]
    · simp [here]
  | trans perm _ first second =>
    exact (first distinct).trans (second ((perm.map Prod.fst).nodup_iff.mp distinct))

theorem residueRecordOf_perm {object other : ScanObject} (perm : object.entries.Perm other.entries) :
    residueRecordOf object = residueRecordOf other := by
  unfold residueRecordOf
  simp only [lookup_perm object.distinct perm]

theorem Reads.rearranged {objects others : List ScanObject} {records : List StoreResidueRecord}
    (reads : Reads objects records) (rearranged : Rearranged objects others) :
    ∃ read, records.Perm read ∧ Reads others read := by
  obtain ⟨arranged, perm, members⟩ := rearranged
  have same : arranged.map residueRecordOf = others.map residueRecordOf := by
    clear perm
    induction members with
    | nil => rfl
    | cons first _ ih => rw [List.map_cons, List.map_cons, ih, residueRecordOf_perm first]
  have moved : (records.map some).Perm (others.map residueRecordOf) := by
    rw [← same, ← reads]
    exact perm.map _
  refine ⟨(others.map residueRecordOf).filterMap id, ?_, ?_⟩
  · simpa using moved.filterMap id
  · have each : ∀ found ∈ others.map residueRecordOf, (found.map some) = some found := by
      intro found member
      obtain ⟨record, _, rfl⟩ := List.mem_map.mp (moved.mem_iff.mpr member)
      rfl
    rw [Reads, List.map_filterMap]
    refine Eq.symm ((List.filterMap_congr (g := some) each).trans ?_)
    exact List.filterMap_some

theorem Reads.reverse {objects : List ScanObject} {records : List StoreResidueRecord} (reads : Reads objects records) :
    Rearranged objects objects.reverse ∧ Reads objects.reverse records.reverse := by
  refine ⟨⟨objects.reverse, (List.reverse_perm objects).symm, ?_⟩, ?_⟩
  · exact List.forall₂_same.mpr fun object _ => List.Perm.refl _
  · rw [Reads, List.map_reverse, reads, List.map_reverse]

/-! ## The order of the plan -/

section

variable {platform : Platform} [Std.TransCmp platform.localeCompare]

theorem planBefore_total : Std.Total (planBefore platform) where
  total := by
    intro left right
    unfold planBefore
    rcases lt_trichotomy (classOrder left.residueClass) (classOrder right.residueClass) with lower | same | higher
    · exact .inl (.inl lower)
    · by_cases before : (platform.localeCompare left.recordId right.recordId).isLE = true
      · exact .inl (.inr ⟨same, before⟩)
      · exact .inr (.inr ⟨same.symm, Ordering.isLE_of_eq_lt (Std.OrientedCmp.lt_of_not_isLE before)⟩)
    · exact .inr (.inl higher)

theorem planBefore_trans : IsTrans StoreResidueRecord (planBefore platform) where
  trans := by
    rintro a b c (lower | ⟨same, before⟩) (further | ⟨again, after⟩)
    · exact .inl (lower.trans further)
    · exact .inl (again ▸ lower)
    · exact .inl (same ▸ further)
    · exact .inr ⟨same.trans again, Std.TransCmp.isLE_trans before after⟩

omit [Std.TransCmp platform.localeCompare] in
theorem classOrder_injective : Function.Injective classOrder := by
  intro left right same
  revert same
  cases left <;> cases right <;> decide

theorem tied_iff {a b : StoreResidueRecord} : planBefore platform a b ∧ planBefore platform b a ↔
    a.residueClass = b.residueClass ∧ platform.localeCompare a.recordId b.recordId = .eq := by
  unfold planBefore
  constructor
  · rintro ⟨lower | ⟨same, before⟩, higher | ⟨again, after⟩⟩
    · omega
    · omega
    · omega
    · refine ⟨classOrder_injective same, ?_⟩
      exact Std.OrientedCmp.isLE_antisymm before after
  · rintro ⟨same, tie⟩
    have swapped : platform.localeCompare b.recordId a.recordId = .eq := Std.OrientedCmp.eq_symm tie
    exact ⟨.inr ⟨congrArg _ same, by simp [tie]⟩, .inr ⟨congrArg _ same.symm, by simp [swapped]⟩⟩

end

/-! ## The text of the plan -/

theorem residueClassOf_text (className : ResidueClass) : residueClassOf (.str className.text) = some className := by
  cases className <;> rfl

theorem ResidueClass.text_injective : Function.Injective ResidueClass.text := by
  intro left right same
  have read := residueClassOf_text left
  rw [same, residueClassOf_text] at read
  exact (Option.some.inj read).symm

theorem SameMembers.keys (same : SameMembers left right) : left.map Prod.fst = right.map Prod.fst := by
  induction left generalizing right with
  | nil =>
    cases same
    rfl
  | cons entry left ih =>
    cases same with
    | cons _ rest => rw [List.map_cons, List.map_cons, ih rest]

theorem sameMembers_of_same (same : SameUpToKeyOrder (.obj left) (.obj right))
    (distinct : (left.map Prod.fst).Nodup) (keys : left.map Prod.fst = right.map Prod.fst) :
    SameMembers left right := by
  cases same with
  | atom atomic => cases atomic
  | obj order members =>
    have arranged := SameMembers.keys members
    rwa [eq_of_perm_keys (arranged ▸ distinct) (keys.symm.trans arranged) order] at members

theorem sameElements_of_same {left right : List JsVal} (same : SameUpToKeyOrder (.arr left) (.arr right)) :
    SameElements left right := by
  cases same with
  | atom atomic => cases atomic
  | arr elements => exact elements

theorem eq_of_sameElements {α : Type} {toJs : α → JsVal} (apart : ∀ left right,
    SameUpToKeyOrder (toJs left) (toJs right) → left = right) :
    ∀ {left right : List α}, SameElements (left.map toJs) (right.map toJs) → left = right
  | [], [], _ => rfl
  | [], _ :: _, same => nomatch same
  | _ :: _, [], same => nomatch same
  | _ :: _, _ :: _, .cons first rest => by rw [apart _ _ first, eq_of_sameElements apart rest]

theorem eq_of_sameTexts {left right : String} (same : SameUpToKeyOrder (.str left) (.str right)) : left = right := by
  cases same.str
  rfl

theorem ReconcileAction.eq_of_same {left right : ReconcileAction} (same : SameUpToKeyOrder left.toJs right.toJs) :
    left = right := by
  have members := sameMembers_of_same same (by simp) rfl
  cases members with
  | cons className rest =>
    cases rest with
    | cons action _ =>
      have sameClass := ResidueClass.text_injective (eq_of_sameTexts className)
      have sameAction := eq_of_sameTexts action
      cases left
      cases right
      simp_all

theorem ReconcilePlanRecord.eq_of_same {left right : ReconcilePlanRecord}
    (same : SameUpToKeyOrder left.toJs right.toJs) : left = right := by
  have members := sameMembers_of_same same (by simp) rfl
  cases members with
  | cons recordId rest => cases rest with
    | cons sourcePath rest => cases rest with
      | cons className rest => cases rest with
        | cons evidence rest => cases rest with
          | cons actions _ =>
            have sameId := eq_of_sameTexts recordId
            have samePath := eq_of_sameTexts sourcePath
            have sameClass := ResidueClass.text_injective (eq_of_sameTexts className)
            have sameEvidence := eq_of_sameElements (fun _ _ => eq_of_sameTexts) (sameElements_of_same evidence)
            have sameActions := eq_of_sameElements (fun _ _ => ReconcileAction.eq_of_same)
              (sameElements_of_same actions)
            cases left
            cases right
            simp_all

theorem toJson_list {α : Type} (toJs : α → JsVal) (serialised : ∀ value, (toJs value).toJson = toJs value)
    (values : List α) : toJsonList (values.map toJs) = values.map toJs := by
  rw [toJsonList_eq_map, List.map_map]
  exact List.map_congr_left fun value _ => serialised value

theorem ReconcileAction.toJson_toJs (action : ReconcileAction) : action.toJs.toJson = action.toJs := by
  simp [ReconcileAction.toJs, toJson, toJsonEntries]

theorem ReconcilePlanRecord.toJson_toJs (record : ReconcilePlanRecord) : record.toJs.toJson = record.toJs := by
  simp [ReconcilePlanRecord.toJs, toJson, toJsonEntries, toJson_list _ ReconcileAction.toJson_toJs,
    toJson_list JsVal.str fun _ => rfl]

theorem withoutHash_toJson (records : List ReconcilePlanRecord) :
    (withoutHash records).toJson = withoutHash records := by
  simp [withoutHash, toJson, toJsonEntries, toJson_list _ ReconcilePlanRecord.toJson_toJs]

theorem withoutHash_apart {platform : Platform} {left right : List ReconcilePlanRecord}
    (same : canonicalBytes platform.localeCompare (withoutHash left) =
      canonicalBytes platform.localeCompare (withoutHash right)) : left = right := by
  have whole := same_of_canonicalBytes (withoutHash_toJson left) (withoutHash_toJson right) same
  have members := sameMembers_of_same whole (by simp) rfl
  cases members with
  | cons _ rest => cases rest with
    | cons records _ =>
      exact eq_of_sameElements (fun _ _ => ReconcilePlanRecord.eq_of_same) (sameElements_of_same records)

theorem eq_of_map_eq {α β : Type} {f : α → β} {inside : List α}
    (injective : ∀ ⦃x⦄, x ∈ inside → ∀ ⦃y⦄, y ∈ inside → f x = f y → x = y) :
    ∀ {left right : List α}, (∀ x ∈ left, x ∈ inside) → (∀ x ∈ right, x ∈ inside) →
      left.map f = right.map f → left = right
  | [], [], _, _, _ => rfl
  | [], _ :: _, _, _, same => nomatch same
  | _ :: _, [], _, _, same => nomatch same
  | x :: left, y :: right, insideLeft, insideRight, same => by
    obtain ⟨first, rest⟩ := List.cons.inj same
    rw [injective (insideLeft x List.mem_cons_self) (insideRight y List.mem_cons_self) first,
      eq_of_map_eq injective (fun z member => insideLeft z (List.mem_cons_of_mem _ member))
        (fun z member => insideRight z (List.mem_cons_of_mem _ member)) rest]

/-! ## The claim -/

section

variable {platform : Platform} [Std.TransCmp platform.localeCompare] {records : List StoreResidueRecord}

omit [Std.TransCmp platform.localeCompare] in
theorem planRecords_perm (others : List StoreResidueRecord) :
    (planRecords platform others).Perm (others.map planRecord) :=
  (List.perm_insertionSort _ others).map _

omit [Std.TransCmp platform.localeCompare] in
theorem sorted_of_planRecords (distinct : (records.map StoreResidueRecord.recordId).Nodup)
    {others : List StoreResidueRecord} (arranged : records.Perm others)
    (same : planRecords platform others = planRecords platform records) :
    others.insertionSort (planBefore platform) = records.insertionSort (planBefore platform) := by
  have ids : (others.insertionSort (planBefore platform)).map StoreResidueRecord.recordId =
      (records.insertionSort (planBefore platform)).map StoreResidueRecord.recordId := by
    have mapped := congrArg (List.map ReconcilePlanRecord.recordId) same
    rwa [planRecords, planRecords, List.map_map, List.map_map] at mapped
  have inside : ∀ record ∈ others.insertionSort (planBefore platform), record ∈ records :=
    fun record member => arranged.mem_iff.mpr ((List.mem_insertionSort _).mp member)
  have listed : ∀ record ∈ records.insertionSort (planBefore platform), record ∈ records :=
    fun record member => (List.mem_insertionSort _).mp member
  exact eq_of_map_eq (List.inj_on_of_nodup_map distinct) inside listed ids

theorem orderFree_iff {objects : List ScanObject} (reads : Reads objects records)
    (distinct : (records.map StoreResidueRecord.recordId).Nodup) :
    OrderFree platform objects records ↔ UntiedIds platform records := by
  have : Std.Total (planBefore platform) := planBefore_total
  have : IsTrans _ (planBefore platform) := planBefore_trans
  have apart : records.Nodup := distinct.of_map _
  constructor
  · intro free a memberA b memberB class' tie
    by_contra differ
    have other : a ≠ b := fun same => differ (congrArg _ same)
    -- A scan in the reverse order shows the two the other way round.
    obtain ⟨reversed, readsBack⟩ := reads.reverse
    obtain ⟨read, readsToo, same⟩ := free.rearranged _ reversed
    have back : read = records.reverse := by
      have both := readsToo.symm.trans readsBack
      exact (List.map_inj_right fun _ _ => Option.some.inj).mp both
    subst back
    have sorted := sorted_of_planRecords distinct (List.reverse_perm records).symm
      (congrArg ReconcilePlan.records same)
    have ties := (insertionSort_eq_iff apart (List.reverse_perm records).symm).mp sorted.symm
    obtain ⟨forward, backward⟩ := tied_iff.mpr ⟨class', tie⟩
    have swap := ties a b other forward backward
    cases pair_or_pair memberA memberB other with
    | inl pair => exact not_pair_swap apart pair (by simpa using (swap.mp pair).reverse)
    | inr pair =>
      have turned : List.Sublist [a, b] records.reverse := by simpa using pair.reverse
      exact not_pair_swap apart pair (swap.mpr turned)
  · intro untied
    refine ⟨fun others rearranged => ?_, fun others same => ?_⟩
    · obtain ⟨read, arranged, readsToo⟩ := reads.rearranged rearranged
      have ties : SameTies (planBefore platform) records read := by
        intro a b differ forward backward
        obtain ⟨class', tie⟩ := tied_iff.mp ⟨forward, backward⟩
        have absent : ∀ list : List StoreResidueRecord, records.Perm list → ¬ List.Sublist [a, b] list := by
          intro list perm pair
          have memberA := perm.mem_iff.mpr (pair.subset List.mem_cons_self)
          have memberB := perm.mem_iff.mpr (pair.subset (List.mem_cons_of_mem _ List.mem_cons_self))
          have sameId := untied a memberA b memberB class' tie
          exact differ (List.inj_on_of_nodup_map distinct memberA memberB sameId)
        exact iff_of_false (absent records (List.Perm.refl _)) (absent read arranged)
      have sorted := (insertionSort_eq_iff apart arranged).mpr ties
      refine ⟨read, readsToo, ?_⟩
      rw [buildReconcilePlan, buildReconcilePlan, planRecords, planRecords, sorted]
    · have planned := withoutHash_apart same
      exact (planRecords_perm others).symm.trans (planned ▸ planRecords_perm records)

end

/-! ## Fixed runs -/

def pointerMembers (id : String) : List (String × JsVal) :=
  [("record_id", .str id), ("source_path", .str ("/store/changes/" ++ id ++ "/change.json")),
    ("class", .str ResidueClass.summaryPointerMissing.text), ("also_matches", .arr []), ("evidence", .arr [])]

theorem pointerMembers_distinct (id : String) : ((pointerMembers id).map Prod.fst).Nodup := by
  simp [pointerMembers]

def pointerObject (id : String) : ScanObject := ⟨pointerMembers id, pointerMembers_distinct id⟩

def pointerRecord (id : String) : StoreResidueRecord :=
  ⟨id, "/store/changes/" ++ id ++ "/change.json", .summaryPointerMissing, [], []⟩

theorem pointerObject_read (id : String) : residueRecordOf (pointerObject id) = some (pointerRecord id) := by
  simp [residueRecordOf, pointerObject, pointerMembers, lookup, textOf, listOf, residueClassOf_text, pointerRecord]

theorem plain_ids_order_free : Std.TransCmp localePlatform.localeCompare ∧
    Reads [pointerObject "addSearch", pointerObject "addIndex"] [pointerRecord "addSearch", pointerRecord "addIndex"] ∧
      (OrderFree localePlatform [pointerObject "addSearch", pointerObject "addIndex"]
          [pointerRecord "addSearch", pointerRecord "addIndex"] ↔
        UntiedIds localePlatform [pointerRecord "addSearch", pointerRecord "addIndex"]) := by
  have trans := localePlatform_trans
  have reads : Reads [pointerObject "addSearch", pointerObject "addIndex"]
      [pointerRecord "addSearch", pointerRecord "addIndex"] := by simp [Reads, pointerObject_read]
  exact ⟨trans, reads, orderFree_iff reads (by decide)⟩

/-- Two changes whose ids are canonically equivalent stand in the plan as the scan found them. -/
theorem accented_ids_keep_scan_order : Std.TransCmp localePlatform.localeCompare ∧
    Reads [pointerObject "\u00e9", pointerObject "e\u0301"] [pointerRecord "\u00e9", pointerRecord "e\u0301"] ∧
      ([pointerRecord "\u00e9", pointerRecord "e\u0301"].map StoreResidueRecord.recordId).Nodup ∧
        ¬ OrderFree localePlatform [pointerObject "\u00e9", pointerObject "e\u0301"]
          [pointerRecord "\u00e9", pointerRecord "e\u0301"] := by
  have reads : Reads [pointerObject "\u00e9", pointerObject "e\u0301"]
      [pointerRecord "\u00e9", pointerRecord "e\u0301"] := by simp [Reads, pointerObject_read]
  refine ⟨localePlatform_trans, reads, by decide, fun free => ?_⟩
  obtain ⟨reversed, back⟩ := reads.reverse
  obtain ⟨read, readsToo, same⟩ := free.rearranged _ reversed
  obtain rfl := (List.map_inj_right fun _ _ => Option.some.inj).mp (readsToo.symm.trans back)
  have ids := congrArg (fun plan => plan.records.map ReconcilePlanRecord.recordId) same
  exact absurd ids (by decide)

end Advance.Storage
