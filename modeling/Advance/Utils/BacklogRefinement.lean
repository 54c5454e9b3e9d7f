import Advance.Utils.BacklogStore

/-! # The backlog as a map

What the backlog is for: for each id the last record that was accepted.  The file under its
lock behaves as this map, as long as every call finds the last record of its item among the
lines it reads.
-/

namespace Advance.Utils

open Advance.Foundation Advance.Types

/-! ## The map -/

abbrev BacklogMap := String → Option BacklogItem

def emptyBacklog : BacklogMap := fun _ => none

/-- The answer to a call where the item has the given record, and the record it accepts. -/
def BacklogCall.verdict : BacklogCall → Option BacklogItem → BacklogOutcome × Option BacklogItem
  | add input nanoid now, previous =>
    let item : BacklogItem :=
      { id := input.id.getD s!"bl-{nanoid}"
        title := input.title
        success_hint := input.success_hint
        status := .active
        created_at := (previous.map BacklogItem.created_at).getD now
        updated_at := now
        archived_at := none
        promoted_to := none
        context_packet := input.context_packet }
    (.item item, some item)
  | promote input _, none => (.failed .notFound s!"Backlog item not found: {input.id}", none)
  | promote input now, some latest =>
    if latest.status = .archived then
      (.failed .archived s!"Cannot promote archived backlog item: {input.id}", none)
    else if (latest.promoted_to.any fun target => target.kind = input.kind && target.id = input.targetId) then
      (.item latest, none)
    else
      let item : BacklogItem :=
        { latest with
          updated_at := now
          promoted_to := some { kind := input.kind, id := input.targetId, promoted_at := now } }
      (.item item, some item)
  | archive _ _, none => (.missing, none)
  | archive _ now, some latest =>
    if latest.status = .archived then (.item latest, none)
    else
      let item : BacklogItem := { latest with status := .archived, updated_at := now, archived_at := some now }
      (.item item, some item)

def BacklogMap.accept (map : BacklogMap) : Option BacklogItem → BacklogMap
  | some record => Function.update map record.id (some record)
  | none => map

def BacklogCall.apply (call : BacklogCall) (map : BacklogMap) : BacklogOutcome × BacklogMap :=
  ((call.verdict (map call.id)).1, map.accept (call.verdict (map call.id)).2)

theorem BacklogCall.apply_map (call : BacklogCall) (map : BacklogMap) :
    (call.apply map).2 = map.accept (call.verdict (map call.id)).2 := rfl

/-- The texts of a call are ones an item can have. -/
def BacklogCall.fits : BacklogCall → Bool
  | add input nanoid now =>
    (BacklogCall.add input nanoid now).id ≠ "" && input.title ≠ "" && input.success_hint ≠ "" && now ≠ "" &&
      input.context_packet.all FutureWorkContextPacket.valid
  | promote input now => input.targetId ≠ "" && now ≠ ""
  | archive _ now => now ≠ ""

variable {record : BacklogItem}

theorem BacklogCall.verdict_accepted {call : BacklogCall} (fitting : call.fits = true)
    {previous : Option BacklogItem} (same : ∀ record ∈ previous, record.id = call.id ∧ record.valid = true)
    (accepted : (call.verdict previous).2 = some record) : record.id = call.id ∧ record.valid = true ∧
      ∀ earlier ∈ previous, record.created_at = earlier.created_at := by
  cases call with
  | add input nanoid now =>
    simp only [verdict, Option.some.injEq] at accepted
    subst accepted
    simp only [fits, Bool.and_eq_true, decide_eq_true_eq] at fitting
    obtain ⟨⟨⟨⟨idFits, title⟩, hint⟩, time⟩, packet⟩ := fitting
    refine ⟨rfl, ?_, ?_⟩
    · have created : (previous.map BacklogItem.created_at).getD now ≠ "" := by
        cases previous with
        | none => exact time
        | some earlier =>
          have valid := (same earlier rfl).2
          simp only [BacklogItem.valid, Bool.and_eq_true, decide_eq_true_eq] at valid
          exact valid.1.1.1.1.2
      simp [BacklogItem.valid, show input.id.getD s!"bl-{nanoid}" ≠ "" from idFits, title, hint, time, packet, created]
    · rintro earlier rfl
      rfl
  | promote input now =>
    cases previous with
    | none => cases accepted
    | some latest =>
      obtain ⟨sameId, valid⟩ := same latest rfl
      simp only [verdict] at accepted
      split_ifs at accepted
      obtain rfl := Option.some.inj accepted
      simp only [fits, Bool.and_eq_true, decide_eq_true_eq] at fitting
      refine ⟨sameId, ?_, ?_⟩
      · simp only [BacklogItem.valid, Bool.and_eq_true, decide_eq_true_eq] at valid
        simpa [BacklogItem.valid, BacklogPromotionTarget.valid, valid, fitting] using valid.1.1.2
      · rintro earlier ⟨⟩
        rfl
  | archive item now =>
    cases previous with
    | none => cases accepted
    | some latest =>
      obtain ⟨sameId, valid⟩ := same latest rfl
      simp only [verdict] at accepted
      split_ifs at accepted
      obtain rfl := Option.some.inj accepted
      simp only [fits, decide_eq_true_eq] at fitting
      refine ⟨sameId, ?_, ?_⟩
      · simp only [BacklogItem.valid, Bool.and_eq_true, decide_eq_true_eq] at valid
        simp [BacklogItem.valid, valid, fitting]
      · rintro earlier ⟨⟩
        rfl

/-! ## The file -/

structure Stored (file : BacklogFile) (records : List BacklogItem) : Prop where
  content : file = some (render records) ∨ file = none ∧ records = []
  valid : ∀ item ∈ records, item.valid = true

def itemsRead (tailLimit : Nat) (file : BacklogFile) : List BacklogItem :=
  match file with
  | none => []
  | some text => (readEntries text tailLimit).filterMap LineEntry.item?

def itemsOf (file : BacklogFile) : List BacklogItem :=
  itemsRead (file.elim 0 fun text => (splitLines text).length) file

def Covered (tailLimit : Nat) (file : BacklogFile) (id : String) : Prop :=
  lastRecord id (itemsRead tailLimit file) = lastRecord id (itemsOf file)

theorem lastRecord_append (id : String) (records : List BacklogItem) (record : BacklogItem) :
    lastRecord id (records ++ [record]) = if record.id = id then some record else lastRecord id records := by
  rw [lastRecord, List.reverse_append, List.reverse_singleton, List.singleton_append, List.find?_cons]
  by_cases same : record.id = id <;> simp [same, lastRecord]

variable {records : List BacklogItem} {id : String}

theorem lastRecord_mem (last : lastRecord id records = some record) : record ∈ records ∧ record.id = id :=
  ⟨List.mem_reverse.mp (List.mem_of_find?_eq_some last), by simpa using List.find?_some last⟩

variable {tailLimit : Nat}

theorem window_mem (member : record ∈ window tailLimit records) : record ∈ records := by
  unfold window at member
  split at member
  · exact List.mem_of_mem_drop member
  · exact member

variable {file : BacklogFile}

section

variable (stored : Stored file records)
include stored

theorem Stored.itemsRead (tailLimit : Nat) : itemsRead tailLimit file = window tailLimit records := by
  rcases stored.content with rfl | ⟨rfl, rfl⟩
  · rw [Utils.itemsRead, readEntries_render stored.valid, List.filterMap_map]
    exact List.filterMap_some
  · rw [window, List.drop_nil, ite_self]
    rfl

theorem Stored.itemsOf : itemsOf file = records := by
  rw [Utils.itemsOf, stored.itemsRead, window]
  rcases stored.content with rfl | ⟨rfl, rfl⟩
  · have long : records.length - (splitLines (render records)).length = 0 := by
      rw [lines_render, List.length_cons, List.length_map]
      omega
    rw [Option.elim_some, long, List.drop_zero, ite_self]
  · rw [List.drop_nil, ite_self]

theorem Stored.covered :
    Covered tailLimit file id ↔ lastRecord id (window tailLimit records) = lastRecord id records := by
  rw [Covered, stored.itemsRead, stored.itemsOf]

theorem Stored.covered_of_short
    (short : (file.elim 0 byteSize) ≤ LARGE_FILE_THRESHOLD_BYTES ∨ records.length ≤ tailLimit)
    (id : String) : Covered tailLimit file id := by
  rw [stored.covered, window]
  rcases short with small | few
  · rcases stored.content with rfl | ⟨rfl, rfl⟩
    · have notLarge : ¬byteSize (render records) > LARGE_FILE_THRESHOLD_BYTES := Nat.not_lt.mpr small
      rw [if_neg notLarge]
    · rw [List.drop_nil, ite_self]
  · rw [Nat.sub_eq_zero_of_le few, List.drop_zero, ite_self]

theorem Stored.findItem (options : BacklogReadOptions) (id : String) : findItem id (readBacklog file options) =
      (lastRecord id (window (options.tailLimit.getD DEFAULT_TAIL_LIMIT) records)).filter
        (visible options.includeArchived) := by
  rcases stored.content with rfl | ⟨rfl, rfl⟩
  · exact findItem_render stored.valid options id
  · rw [window, List.drop_nil, ite_self]
    rfl

theorem Stored.header (options : BacklogReadOptions) : (readBacklog file options).header = currentHeader := by
  rcases stored.content with rfl | ⟨rfl, rfl⟩
  · exact header_render options
  · rfl

theorem Stored.append (valid : record.valid = true) :
    Stored (appendFile (line record.toJson) (ensureBacklogFile currentHeader file)) (records ++ [record]) where
  content := by
    left
    rcases stored.content with rfl | ⟨rfl, rfl⟩
    · simp only [ensureBacklogFile, appendFile, Option.getD_some, render, List.flatMap_append,
        List.flatMap_cons, List.flatMap_nil, List.append_nil, List.append_assoc]
    · simp only [ensureBacklogFile, appendFile, Option.getD_some, render, List.nil_append,
        List.flatMap_cons, List.flatMap_nil, List.append_nil]
  valid := by
    intro item member
    rcases List.mem_append.mp member with earlier | last
    · exact stored.valid item earlier
    · rw [List.mem_singleton.mp last]
      exact valid

theorem stored_run (call : BacklogCall) : call.program.run file =
      ((call.verdict (lastRecord call.id (window DEFAULT_TAIL_LIMIT records))).1,
        match (call.verdict (lastRecord call.id (window DEFAULT_TAIL_LIMIT records))).2 with
        | some record => appendFile (line record.toJson) (ensureBacklogFile currentHeader file)
        | none => file) := by
  have reads := stored.findItem { tailLimit := none, includeArchived := true } call.id
  have all : ∀ found : Option BacklogItem, found.filter (visible true) = found := by
    rintro (_ | record) <;> rfl
  rw [all, Option.getD_none] at reads
  have header := stored.header { tailLimit := none, includeArchived := true }
  have mutates : ∀ mutate, (withBacklog mutate).run file =
      (mutate (readBacklog file { tailLimit := none, includeArchived := true })).run file := by
    intro mutate
    simp only [withBacklog, Program.run_look, header]
    rw [if_neg (fun differs => differs rfl)]
  cases call with
  | add input nanoid now =>
    rw [BacklogCall.program, addBacklogItem, mutates]
    simp only [BacklogCall.id] at reads
    simp only [appendItem, Program.run_act, Program.run_finish, reads, header, BacklogCall.verdict, BacklogCall.id]
  | promote input now =>
    rw [BacklogCall.program, promoteBacklogItem, mutates]
    simp only [BacklogCall.id] at reads ⊢
    rw [reads]
    cases lastRecord input.id (window DEFAULT_TAIL_LIMIT records) with
    | none => rfl
    | some latest =>
      simp only [BacklogCall.verdict]
      split_ifs
      · rfl
      · rfl
      · rw [header]; rfl
  | archive id now =>
    rw [BacklogCall.program, archiveBacklogItem, mutates]
    simp only [BacklogCall.id] at reads ⊢
    rw [reads]
    cases lastRecord id (window DEFAULT_TAIL_LIMIT records) with
    | none => rfl
    | some latest =>
      simp only [BacklogCall.verdict]
      split_ifs
      · rfl
      · rw [header]; rfl

theorem stored_sound : ∀ record ∈ lastRecord id (window tailLimit records), record.id = id ∧ record.valid = true := by
  intro record found
  obtain ⟨member, sameId⟩ := lastRecord_mem found
  exact ⟨sameId, stored.valid record (window_mem member)⟩

theorem stored_step {call : BacklogCall} (fitting : call.fits = true) : Stored (call.program.run file).2
      (records ++ (call.verdict (lastRecord call.id (window DEFAULT_TAIL_LIMIT records))).2.toList) := by
  rw [stored_run stored]
  cases accepted : (call.verdict (lastRecord call.id (window DEFAULT_TAIL_LIMIT records))).2 with
  | none => rwa [Option.toList_none, List.append_nil]
  | some record =>
    obtain ⟨_, valid, _⟩ := BacklogCall.verdict_accepted fitting (stored_sound stored) accepted
    exact stored.append valid

end

/-! ## Runs -/

section

variable {Client : Type}

def fileAfter (calls : Client → BacklogCall) (served : List Client) : BacklogFile :=
  stateAfter (serveLocked fun i => (calls i).client) served none

def mapAfter (calls : Client → BacklogCall) (served : List Client) : BacklogMap :=
  stateAfter (fun i => (calls i).apply) served emptyBacklog

/-- Every call finds the last record of its item among the lines it reads. -/
def AllCovered (calls : Client → BacklogCall) (served : List Client) : Prop :=
  ∀ early i late, served = early ++ i :: late → Covered DEFAULT_TAIL_LIMIT (fileAfter calls early) (calls i).id

structure RefinesMap (calls : Client → BacklogCall) (readable : BacklogReadOptions → String → Prop)
    (system : LockSystem Client BacklogFile BacklogOutcome) : Prop where
  answers : ∀ early i late, system.order = early ++ i :: late →
    system.client i = .done ((calls i).apply (mapAfter calls early)).1
  reads : ∀ options id, readable options id → findItem id (readBacklog system.store options) =
      (mapAfter calls system.order id).filter (visible options.includeArchived)
  created : ∀ id item, mapAfter calls system.order id = some item →
    ∃ early i late, system.order = early ++ i :: late ∧ mapAfter calls early id = none ∧
      ∃ input nanoid, calls i = .add input nanoid item.created_at ∧ (calls i).id = id
  promotes : ∀ early i late input now, system.order = early ++ i :: late → calls i = .promote input now →
    ((∃ item, system.client i = .done (.item item)) ↔
      ∃ item, mapAfter calls early input.id = some item ∧ item.status = .active)
  archives : ∀ early i late id now, system.order = early ++ i :: late → calls i = .archive id now →
    (fileAfter calls (early ++ [i]) ≠ fileAfter calls early ↔
      ∃ item, mapAfter calls early id = some item ∧ item.status = .active)
  unchanged : ∀ early i late, system.order = early ++ i :: late →
    ((calls i).verdict (mapAfter calls early (calls i).id)).2 = none →
      fileAfter calls (early ++ [i]) = fileAfter calls early

variable {calls : Client → BacklogCall}

theorem fileAfter_append (early : List Client) (i : Client) :
    fileAfter calls (early ++ [i]) = ((calls i).program.run (fileAfter calls early)).2 := by
  rw [fileAfter, stateAfter_append]
  rfl

theorem mapAfter_append (early : List Client) (i : Client) :
    mapAfter calls (early ++ [i]) = ((calls i).apply (mapAfter calls early)).2 := by
  rw [mapAfter, stateAfter_append]
  rfl

structure Agrees (file : BacklogFile) (map : BacklogMap) (records : List BacklogItem) : Prop where
  stored : Stored file records
  latest : ∀ id, map id = lastRecord id records

variable {file : BacklogFile} {map : BacklogMap} {records : List BacklogItem}

theorem Agrees.sound (agrees : Agrees file map records) (id : String) :
    ∀ record ∈ map id, record.id = id ∧ record.valid = true := by
  intro record present
  rw [agrees.latest] at present
  obtain ⟨member, sameId⟩ := lastRecord_mem present
  exact ⟨sameId, agrees.stored.valid record member⟩

theorem Agrees.run (agrees : Agrees file map records) {call : BacklogCall}
    (covered : Covered DEFAULT_TAIL_LIMIT file call.id) : call.program.run file = ((call.verdict (map call.id)).1,
        match (call.verdict (map call.id)).2 with
        | some record => appendFile (line record.toJson) (ensureBacklogFile currentHeader file)
        | none => file) := by
  have looked := agrees.stored.covered.mp covered
  rw [← agrees.latest] at looked
  have run := stored_run agrees.stored call
  rw [looked] at run
  exact run

theorem Agrees.step (agrees : Agrees file map records) {call : BacklogCall} (fitting : call.fits = true)
    (covered : Covered DEFAULT_TAIL_LIMIT file call.id) :
    ∃ after, Agrees (call.program.run file).2 (call.apply map).2 after := by
  have looked := agrees.stored.covered.mp covered
  rw [← agrees.latest] at looked
  have stored := stored_step agrees.stored fitting
  rw [looked] at stored
  refine ⟨_, stored, fun id => ?_⟩
  rw [BacklogCall.apply_map]
  cases (call.verdict (map call.id)).2 with
  | none => rw [Option.toList_none, List.append_nil, ← agrees.latest]; rfl
  | some record =>
    rw [Option.toList_some, lastRecord_append, BacklogMap.accept, ← agrees.latest]
    by_cases same : record.id = id
    · rw [if_pos same, same, Function.update_self]
    · rw [if_neg same, Function.update_of_ne (Ne.symm same)]

theorem AllCovered.front {served early late : List Client} (covered : AllCovered calls served)
    (cut : served = early ++ late) : AllCovered calls early := by
  intro front i rest split
  refine covered front i (rest ++ late) ?_
  rw [cut, split, List.append_assoc, List.cons_append]

variable {served : List Client}

theorem agrees_after (fits : ∀ i, (calls i).fits = true) (covered : AllCovered calls served) :
    ∃ records, Agrees (fileAfter calls served) (mapAfter calls served) records := by
  induction served using List.reverseRecOn with
  | nil => exact ⟨[], ⟨.inr ⟨rfl, rfl⟩, fun _ member => nomatch member⟩, fun _ => rfl⟩
  | append_singleton served i ih =>
    obtain ⟨records, agrees⟩ := ih (covered.front rfl)
    rw [fileAfter_append, mapAfter_append]
    exact agrees.step (fits i) (covered served i [] rfl)

theorem stored_after (fits : ∀ i, (calls i).fits = true) (served : List Client) :
    ∃ records, Stored (fileAfter calls served) records ∧ records.length ≤ served.length := by
  induction served using List.reverseRecOn with
  | nil => exact ⟨[], ⟨.inr ⟨rfl, rfl⟩, fun _ member => nomatch member⟩, Nat.le_refl 0⟩
  | append_singleton served i ih =>
    obtain ⟨records, stored, few⟩ := ih
    rw [fileAfter_append]
    refine ⟨_, stored_step stored (fits i), ?_⟩
    have one : ∀ accepted : Option BacklogItem, accepted.toList.length ≤ 1 := by
      rintro (_ | record) <;> simp
    rw [List.length_append, List.length_append, List.length_singleton]
    exact Nat.add_le_add few (one _)

theorem allCovered_of_few (fits : ∀ i, (calls i).fits = true)
    (few : served.length ≤ DEFAULT_TAIL_LIMIT) : AllCovered calls served := by
  intro early i late split
  obtain ⟨records, stored, most⟩ := stored_after fits early
  have shorter : early.length ≤ served.length := by
    rw [split, List.length_append]
    exact Nat.le_add_right _ _
  exact stored.covered_of_short (.inr (Nat.le_trans most (Nat.le_trans shorter few))) _

theorem present_after {i : Client} (member : i ∈ served) {input : AddBacklogItemInput}
    {nanoid now : String} (adds : calls i = .add input nanoid now) : mapAfter calls served (calls i).id ≠ none := by
  induction served using List.reverseRecOn with
  | nil => cases member
  | append_singleton served j ih =>
    rw [mapAfter_append, BacklogCall.apply_map]
    rcases List.mem_append.mp member with earlier | last
    · cases (calls j).verdict (mapAfter calls served (calls j).id) |>.2 with
      | none => exact ih earlier
      | some record =>
        rw [BacklogMap.accept]
        by_cases same : (calls i).id = record.id
        · rw [same, Function.update_self]
          exact Option.some_ne_none _
        · rw [Function.update_of_ne same]
          exact ih earlier
    · obtain rfl := List.mem_singleton.mp last
      rw [adds]
      exact fun absent => nomatch (Function.update_self _ _ _).symm.trans absent

theorem created_after (fits : ∀ i, (calls i).fits = true)
    (covered : AllCovered calls served) {id : String} {item : BacklogItem}
    (present : mapAfter calls served id = some item) :
    ∃ early i late, served = early ++ i :: late ∧ mapAfter calls early id = none ∧
      ∃ input nanoid, calls i = .add input nanoid item.created_at ∧ (calls i).id = id := by
  induction served using List.reverseRecOn generalizing item with
  | nil => cases present
  | append_singleton served i ih =>
    have earlier : ∀ record, mapAfter calls served id = some record → record.created_at = item.created_at →
        ∃ early j late, served ++ [i] = early ++ j :: late ∧ mapAfter calls early id = none ∧
          ∃ input nanoid, calls j = .add input nanoid item.created_at ∧ (calls j).id = id := by
      intro record before same
      obtain ⟨early, j, late, split, absent, input, nanoid, adds, named⟩ := ih (covered.front rfl) before
      refine ⟨early, j, late ++ [i], by rw [split]; simp, absent, input, nanoid, ?_, named⟩
      rw [adds, same]
    rw [mapAfter_append, BacklogCall.apply_map] at present
    cases accepted : ((calls i).verdict (mapAfter calls served (calls i).id)).2 with
    | none =>
      rw [accepted] at present
      exact earlier item present rfl
    | some record =>
      rw [accepted, BacklogMap.accept] at present
      obtain ⟨records, agrees⟩ := agrees_after fits (AllCovered.front covered (rfl : _ = served ++ [i]))
      obtain ⟨named, _, created⟩ :=
        BacklogCall.verdict_accepted (fits i) (agrees.sound (calls i).id) accepted
      by_cases same : record.id = id
      · rw [same, Function.update_self, Option.some.injEq] at present
        subst present
        rw [same] at named
        rw [← named] at created accepted
        cases before : mapAfter calls served id with
        | some first => exact earlier first before (created first before).symm
        | none =>
          rw [before] at accepted
          cases call : calls i with
          | add input nanoid now =>
            rw [call] at accepted
            obtain rfl := Option.some.inj accepted
            exact ⟨served, i, [], rfl, before, input, nanoid, call, named.symm⟩
          | promote input now => rw [call] at accepted; cases accepted
          | archive item now => rw [call] at accepted; cases accepted
      · rw [Function.update_of_ne (Ne.symm same)] at present
        exact earlier item present rfl

theorem active_of_not_archived {item : BacklogItem} (notArchived : item.status ≠ .archived) :
    item.status = .active := by
  cases status : item.status with
  | active => rfl
  | archived => exact absurd status notArchived

theorem archived_not_active {latest : BacklogItem} (archived : latest.status = .archived) :
    ¬∃ item, some latest = some item ∧ item.status = .active := by
  rintro ⟨item, ⟨⟩, active⟩
  cases archived.symm.trans active

theorem promote_succeeds (input : PromoteBacklogItemInput) (now : String) (latest : Option BacklogItem) :
    (∃ item, ((BacklogCall.promote input now).verdict latest).1 = .item item) ↔
      ∃ item, latest = some item ∧ item.status = .active := by
  cases latest with
  | none => simp [BacklogCall.verdict]
  | some latest =>
    unfold BacklogCall.verdict
    dsimp only
    split_ifs with archived again
    · refine iff_of_false ?_ (archived_not_active archived)
      rintro ⟨item, answered⟩
      cases answered
    · exact iff_of_true ⟨_, rfl⟩ ⟨latest, rfl, active_of_not_archived archived⟩
    · exact iff_of_true ⟨_, rfl⟩ ⟨latest, rfl, active_of_not_archived archived⟩

theorem archive_accepts (id now : String) (latest : Option BacklogItem) :
    ((BacklogCall.archive id now).verdict latest).2 ≠ none ↔
      ∃ item, latest = some item ∧ item.status = .active := by
  cases latest with
  | none => simp [BacklogCall.verdict]
  | some latest =>
    unfold BacklogCall.verdict
    dsimp only
    split_ifs with archived
    · exact iff_of_false (fun accepted => accepted rfl) (archived_not_active archived)
    · exact iff_of_true (Option.some_ne_none _) ⟨latest, rfl, active_of_not_archived archived⟩

theorem appended_ne (value : Json) (header : BacklogHeader) (file : BacklogFile) :
    appendFile (line value) (ensureBacklogFile header file) ≠ file := by
  cases file with
  | none => exact nofun
  | some text =>
    intro same
    have length := congrArg List.length (Option.some.inj same)
    rw [ensureBacklogFile, Option.getD_some, line, List.length_append, List.length_append,
      List.length_singleton] at length
    omega

variable [DecidableEq Client]

theorem backlog_refines (fits : ∀ i, (calls i).fits = true) {system : LockSystem Client BacklogFile BacklogOutcome}
    (reached : LockSystem.Reachable (fun i => (calls i).client) none system) (quiet : system.holder = none)
    (covered : AllCovered calls system.order) :
    RefinesMap calls (fun options id => Covered (options.tailLimit.getD DEFAULT_TAIL_LIMIT) system.store id)
      system := by
  obtain ⟨_, answered, store⟩ := serialisable reached quiet
  have atEach : ∀ early i late, system.order = early ++ i :: late →
      (∃ records, Agrees (fileAfter calls early) (mapAfter calls early) records) ∧
        Covered DEFAULT_TAIL_LIMIT (fileAfter calls early) (calls i).id := by
    intro early i late split
    exact ⟨agrees_after fits (covered.front split), covered early i late split⟩
  have answers : ∀ early i late, system.order = early ++ i :: late →
      system.client i = .done ((calls i).apply (mapAfter calls early)).1 := by
    intro early i late split
    obtain ⟨⟨records, agrees⟩, found⟩ := atEach early i late split
    have served := forall_trace.mp answered early i late split
    rw [recordOf_request] at served
    rw [served]
    exact congrArg (fun run => ClientState.done run.1) (agrees.run found)
  have files : ∀ early i late, system.order = early ++ i :: late → fileAfter calls (early ++ [i]) =
        match ((calls i).verdict (mapAfter calls early (calls i).id)).2 with
        | some record =>
          appendFile (line record.toJson) (ensureBacklogFile currentHeader (fileAfter calls early))
        | none => fileAfter calls early := by
    intro early i late split
    obtain ⟨⟨records, agrees⟩, found⟩ := atEach early i late split
    rw [fileAfter_append, agrees.run found]
  refine ⟨answers, ?_, ?_, ?_, ?_, ?_⟩
  · intro options id readable
    obtain ⟨records, agrees⟩ := agrees_after fits covered
    rw [store] at readable ⊢
    have found := agrees.stored.findItem options id
    rw [agrees.stored.covered.mp readable, ← agrees.latest] at found
    exact found
  · intro id item present
    exact created_after fits covered present
  · intro early i late input now split call
    have answer := answers early i late split
    rw [call] at answer
    rw [answer, ← promote_succeeds input now]
    exact ⟨fun ⟨item, same⟩ => ⟨item, ClientState.done.inj same⟩, fun ⟨item, same⟩ => ⟨item, congrArg _ same⟩⟩
  · intro early i late id now split call
    have file := files early i late split
    rw [call] at file
    rw [← archive_accepts id now, file]
    rw [BacklogCall.id]
    cases ((BacklogCall.archive id now).verdict (mapAfter calls early id)).2 with
    | none => exact iff_of_false (fun changed => changed rfl) (fun accepted => accepted rfl)
    | some record => exact iff_of_true (appended_ne _ _ _) (Option.some_ne_none _)
  · intro early i late split nothing
    rw [files early i late split, nothing]

end

/-! ## Fixed runs -/

def addInput (id title : String) : AddBacklogItemInput := ⟨some id, title, "hint", none⟩

def promoteTwice : Nat → BacklogCall
  | 0 => .add (addInput "a" "title") "" "now"
  | _ => .promote ⟨"a", .change, "c"⟩ "later"

theorem backlog_refines_promoted : ∃ system, system.order = [0, 1, 2] ∧ RefinesMap promoteTwice
        (fun options id => Covered (options.tailLimit.getD DEFAULT_TAIL_LIMIT) system.store id) system := by
  have fits : ∀ i, (promoteTwice i).fits = true := by
    rintro (_ | i)
    · decide
    · exact (by decide : (BacklogCall.promote ⟨"a", .change, "c"⟩ "later").fits = true)
  have distinct : [0, 1, 2].Nodup := by decide
  obtain ⟨system, reached, free, order, _⟩ := @reachable_sequence Nat BacklogFile BacklogOutcome _
    (fun i => (promoteTwice i).client) none (fun _ _ => rfl) _ distinct
  refine ⟨system, order, backlog_refines fits reached free ?_⟩
  rw [order]
  exact allCovered_of_few fits (by decide)

def longTitle : String := String.ofList (List.replicate (LARGE_FILE_THRESHOLD_BYTES + 1) 'x')

def crowded : Nat → BacklogCall
  | 0 => .add (addInput "a" longTitle) "" "now"
  | _ => .add (addInput "b" "title") "" "now"

theorem longTitle_length : longTitle.toList.length = LARGE_FILE_THRESHOLD_BYTES + 1 := by
  rw [longTitle, String.toList_ofList, List.length_replicate]

theorem crowded_fits (i : Nat) : (crowded i).fits = true := by
  have long : longTitle ≠ "" := by
    intro empty
    have length := longTitle_length
    rw [empty] at length
    exact absurd length (Nat.succ_ne_zero _).symm
  cases i with
  | zero => simp [crowded, BacklogCall.fits, BacklogCall.id, addInput, long]
  | succ i => simp [crowded, BacklogCall.fits, BacklogCall.id, addInput]

theorem length_le_byteSize (text : List Char) : text.length ≤ byteSize text := by
  induction text with
  | nil => exact Nat.le_refl 0
  | cons c text ih =>
    have size : byteSize (c :: text) = c.utf8Size + byteSize text := rfl
    have positive := Char.utf8Size_pos c
    rw [size, List.length_cons]
    omega

theorem title_le_line (item : BacklogItem) : item.title.toList.length ≤ (line item.toJson).length := by
  have stands : ("title", some (Json.text item.title)) ∈ item.fields := by simp [BacklogItem.fields]
  have field := Json.record_length stands
  have quoted := Json.quote_length item.title
  rw [Json.print] at field
  rw [line, List.length_append, BacklogItem.toJson]
  omega

theorem stored_adds {calls : Nat → BacklogCall} (fits : ∀ i, (calls i).fits = true)
    {input : Nat → AddBacklogItemInput} {nanoid now : String}
    (adds : ∀ i, calls i = .add (input i) nanoid now) (served : List Nat) :
    ∃ records, Stored (fileAfter calls served) records ∧
      records.map BacklogItem.id = served.map (fun i => (calls i).id) ∧
      records.map BacklogItem.title = served.map (fun i => (input i).title) := by
  induction served using List.reverseRecOn with
  | nil => exact ⟨[], ⟨.inr ⟨rfl, rfl⟩, fun _ member => nomatch member⟩, rfl, rfl⟩
  | append_singleton served i ih =>
    obtain ⟨records, stored, ids, titles⟩ := ih
    rw [fileAfter_append]
    refine ⟨_, stored_step stored (fits i), ?_, ?_⟩
    · rw [List.map_append, List.map_append, ids, List.map_singleton, adds]
      rfl
    · rw [List.map_append, List.map_append, titles, List.map_singleton, adds]
      rfl

/-- An item that was added is not found any more once the file is long and a thousand other lines
    follow its own. -/
theorem crowded_out : ¬∀ (calls : Nat → BacklogCall) (system : LockSystem Nat BacklogFile BacklogOutcome),
    LockSystem.Reachable (fun i => (calls i).client) none system → system.holder = none →
      (∀ i, (calls i).fits = true) → RefinesMap calls (fun _ _ => True) system := by
  intro refines
  let order := 0 :: (List.range DEFAULT_TAIL_LIMIT).map (· + 1)
  have distinct : order.Nodup := by
    refine List.nodup_cons.mpr ⟨by simp, ?_⟩
    exact List.nodup_range.map (fun _ _ same => Nat.succ.inj same)
  obtain ⟨system, reached, free, served, _⟩ := @reachable_sequence Nat BacklogFile BacklogOutcome _
    (fun i => (crowded i).client) none (fun _ _ => rfl) _ distinct
  have holds := refines crowded system reached free crowded_fits
  have adds : ∀ i, crowded i = .add (if i = 0 then addInput "a" longTitle else addInput "b" "title") "" "now" := by
    rintro (_ | i) <;> rfl
  obtain ⟨records, stored, ids, titles⟩ := stored_adds crowded_fits adds order
  have store : system.store = fileAfter crowded order := by
    obtain ⟨_, _, store⟩ := serialisable reached free
    rw [store, served]
    rfl
  have length : records.length = DEFAULT_TAIL_LIMIT + 1 := by
    have same := congrArg List.length ids
    rw [List.length_map, List.length_map, List.length_cons, List.length_map, List.length_range] at same
    exact same
  obtain ⟨first, rest, rfl⟩ : ∃ first rest, records = first :: rest := by
    cases records with
    | nil => cases length
    | cons first rest => exact ⟨first, rest, rfl⟩
  have title : first.title = longTitle := (List.cons.inj titles).1
  have others : ∀ record ∈ rest, record.id ≠ "a" := by
    intro record member same
    have listed : record.id ∈ rest.map BacklogItem.id := List.mem_map_of_mem member
    rw [(List.cons.inj ids).2, List.map_map] at listed
    obtain ⟨i, _, named⟩ := List.mem_map.mp listed
    rw [same] at named
    exact absurd named (by decide : (BacklogCall.add (addInput "b" "title") "" "now").id ≠ "a")
  have large : byteSize (render (first :: rest)) > LARGE_FILE_THRESHOLD_BYTES := by
    have inside : (line first.toJson).length ≤ (render (first :: rest)).length := by
      rw [render, List.flatMap_cons, List.length_append, List.length_append]
      omega
    have titleLength := title_le_line first
    rw [title, longTitle_length] at titleLength
    have bytes := length_le_byteSize (render (first :: rest))
    omega
  have hidden : lastRecord "a" (window DEFAULT_TAIL_LIMIT (first :: rest)) = none := by
    rw [window, if_pos large, length, Nat.add_sub_cancel_left, List.drop_one, List.tail_cons, lastRecord,
      List.find?_eq_none]
    intro record member same
    exact others record (List.mem_reverse.mp member) (of_decide_eq_true same)
  have read := holds.reads { tailLimit := none, includeArchived := true } "a" trivial
  rw [store, stored.findItem, Option.getD_none, hidden, served] at read
  have present : mapAfter crowded order (crowded 0).id ≠ none := present_after List.mem_cons_self rfl
  cases found : mapAfter crowded order "a" with
  | none => exact present found
  | some item =>
    rw [found] at read
    cases read

end Advance.Utils
