import Advance.Storage.SnapshotWrites
import Advance.Storage.SummaryReader
import Advance.Storage.SummaryAgreement

/-! # Collecting obsolete shards

Shard files are named after projection revisions and compared with state revisions.
-/

namespace Advance.Storage

open Advance.JavaScript Advance.JavaScript.JsVal Advance.JavaScript.Schema
open Advance.Utils Advance.Foundation

/-! ## Names of shard files -/

/-- `String(n)` of an integer that every number type can hold. -/
def Runtime.PrintsIntegers (runtime : Runtime) : Prop :=
  ∀ n : Nat, (n : JsNumber) ≤ maxSafeInteger → runtime.numberText n = toString n

theorem toString_toList (n : Nat) : (toString n).toList = Nat.toDigits 10 n := by
  simp [Nat.toString_eq_repr, Nat.repr]

theorem shardFileRevision_nat (n : Nat) : shardFileRevision (toString n ++ ".json") = some (n : Int) := by
  have digits : (toString n ++ ".json").toList.take
      ((toString n ++ ".json").length - ".json".length) = Nat.toDigits 10 n := by
    have sameLength : (toString n).length = (Nat.toDigits 10 n).length := by
      rw [← toString_toList, String.length_toList]
    rw [String.toList_append, toString_toList, String.length_append, Nat.add_sub_cancel, sameLength, List.take_left']
    rfl
  have named : ".json".toList <:+ (toString n ++ ".json").toList := by
    rw [String.toList_append]
    exact List.suffix_append _ _
  rw [shardFileRevision, if_pos named, digits, parseInt_toDigits]

theorem revision_natural {v out : JsVal} (parsed : intNonnegative v = .ok out) :
    ∃ n : Nat, out = .num n ∧ (n : JsNumber) ≤ maxSafeInteger := by
  obtain ⟨kept, value, isNumber, integral, small, nonnegative⟩ := intMin_ok parsed
  have whole : (value.num.toNat : JsNumber) = value := by
    have positive : 0 ≤ value.num := Rat.num_nonneg.mpr nonnegative
    have cast : ((value.num.toNat : Int) : JsNumber) = value := by
      rw [Int.toNat_of_nonneg positive]
      exact Rat.coe_int_num_of_den_eq_one integral
    exact_mod_cast cast
  refine ⟨value.num.toNat, ?_, ?_⟩
  · rw [kept, isNumber, whole]
  · rw [whole]
    exact small

theorem join_injective {base left right : String} (same : join [base, left] = join [base, right]) : left = right := by
  have letters := congrArg String.toList same
  simp only [join, String.intercalate_cons_cons, String.intercalate_singleton, String.toList_append,
    List.append_assoc, List.append_cancel_left_eq] at letters
  exact String.toList_inj.mp letters

/-! ## The invariant -/

structure CollectionInvariant (runtime : Runtime) (summary : SummaryPaths) (files : Files) : Prop where
  place : ∀ pointer, Holds ChangeSummaryPointerSchema (files summary.pointerPath) pointer → pointer.get "shard_path" =
      .str (shardPathOf runtime summary ((pointer.get "projection_revision").numberD 0))
  ordered : ∀ pointer, Holds ChangeSummaryPointerSchema (files summary.pointerPath) pointer →
    (pointer.get "state_revision").numberD 0 ≤ (pointer.get "projection_revision").numberD 0
  named : ∀ file shard, Holds ChangeSummaryShardSchema (files (join [summary.revDir, file])) shard →
    join [summary.revDir, file] = shardPathOf runtime summary ((shard.get "projection_revision").numberD 0)

/-- Nothing of the change has been published yet. -/
def Unpublished (summary : SummaryPaths) (files : Files) : Prop :=
  files summary.pointerPath = .absent ∧ ∀ file, files (join [summary.revDir, file]) = .absent

theorem not_holds_absent {schema : Schema} {data : JsVal} : ¬Holds schema .absent data := by
  rintro ⟨_, _, present, _⟩
  cases present

section

variable {runtime : Runtime} {paths : SummaryIndexPaths} {changeId : String} {summary : SummaryPaths} {files : Files}

theorem CollectionInvariant.unpublished (absent : Unpublished summary files) :
    CollectionInvariant runtime summary files := by
  constructor
  · intro pointer held
    rw [absent.1] at held
    exact absurd held not_holds_absent
  · intro pointer held
    rw [absent.1] at held
    exact absurd held not_holds_absent
  · intro file shard held
    rw [absent.2] at held
    exact absurd held not_holds_absent

theorem CollectionInvariant.frame (invariant : CollectionInvariant runtime summary files)
    (resolved : summaryPaths paths changeId = .ok summary) {other : Files}
    (untouched : ∀ path, InsideSummary paths changeId path → other path = files path) :
    CollectionInvariant runtime summary other := by
  have samePointer := untouched _ (pointerPath_inside resolved)
  constructor
  · rw [samePointer]
    exact invariant.place
  · rw [samePointer]
    exact invariant.ordered
  · intro file shard held
    rw [untouched _ (revDir_inside resolved file)] at held
    exact invariant.named file shard held

variable {published : JsVal} {operationId publishedAt : String}

theorem shard_revision {shard : JsVal}
    (parsed : ChangeSummaryShardSchema (publishedShard published operationId).toJson = .ok shard) :
    shard.get "projection_revision" = .num (revisionOf published) := by
  have derived : (publishedShard published operationId).get "projection_revision" = .num (revisionOf published) := by
    simp [publishedShard, deriveSummaryShard, lookup]
  have field : intNonnegative ((publishedShard published operationId).toJson.get "projection_revision") =
      .ok (shard.get "projection_revision") := object_get parsed (by decide) (by simp)
  rw [(intMin_ok field).1, get_toJson_atom (by rw [derived]; rfl), derived]

theorem shard_state :
    ((publishedShard published operationId).get "state_revision").numberD 0 = stateRevisionOf published := by
  rw [stateRevisionOf]
  cases state : published.get "state_revision" <;>
    simp [publishedShard, deriveSummaryShard, lookup, state, orElse, isNullish, numberD]

theorem pointer_state (shard changeId : JsVal) (revision : JsNumber) (committedAt : String) :
    (summaryPointer runtime summary shard changeId revision operationId committedAt).get "state_revision" =
      shard.get "state_revision" := by
  by_cases present : shard.get "state_revision" = .undefined <;> simp [summaryPointer, lookup, present]

section

variable (invariant : CollectionInvariant runtime summary files)
  (resolved : summaryPaths paths changeId = .ok summary)
include invariant resolved

theorem CollectionInvariant.shard :
    CollectionInvariant runtime summary (withShard runtime summary published operationId files) := by
  have apart : summary.pointerPath ≠ shardPathFor runtime summary published :=
    (shardPath_ne_pointerPath runtime resolved _).symm
  have samePointer : withShard runtime summary published operationId files summary.pointerPath =
      files summary.pointerPath := by
    simp [withShard, writtenTo, apart]
  constructor
  · rw [samePointer]
    exact invariant.place
  · rw [samePointer]
    exact invariant.ordered
  · intro file shard held
    by_cases here : join [summary.revDir, file] = shardPathFor runtime summary published
    · rw [here] at held ⊢
      simp only [withShard, writtenTo, Function.update_self] at held
      rw [shard_revision held.of_stringify]
      rfl
    · have untouched : withShard runtime summary published operationId files
          (join [summary.revDir, file]) = files (join [summary.revDir, file]) := by
        simp [withShard, writtenTo, here]
      rw [untouched] at held
      exact invariant.named file shard held

theorem CollectionInvariant.pointer
    (ordered : stateRevisionOf published ≤ revisionOf published) : CollectionInvariant runtime summary
      (withPointer runtime summary published operationId publishedAt files) := by
  have shards : CollectionInvariant runtime summary
      (withShard runtime summary published operationId files) := invariant.shard resolved
  have fields : ∀ pointer, Holds ChangeSummaryPointerSchema
      (withPointer runtime summary published operationId publishedAt files summary.pointerPath) pointer →
      ∀ key, pointer.get key = (publishedPointer runtime summary published operationId publishedAt).get key := by
    intro pointer held
    simp only [withPointer, writtenTo, Function.update_self] at held
    exact pointer_parsed held.of_stringify
  have revision : (publishedPointer runtime summary published operationId publishedAt).get
      "projection_revision" = .num (revisionOf published) := by
    simp [publishedPointer, summaryPointer, lookup]
  constructor
  · intro pointer held
    rw [fields pointer held, fields pointer held, revision]
    simp [publishedPointer, summaryPointer, lookup, numberD]
  · intro pointer held
    rw [fields pointer held, fields pointer held, revision, publishedPointer, pointer_state, shard_state]
    exact ordered
  · intro file shard held
    have notPointer : join [summary.revDir, file] ≠ summary.pointerPath := by
      rw [summaryPaths_ok resolved]
      intro same
      have letters := congrArg String.toList same
      simp [join, String.toList_append] at letters
    have untouched : withPointer runtime summary published operationId publishedAt files
        (join [summary.revDir, file]) =
          withShard runtime summary published operationId files (join [summary.revDir, file]) := by
      simp [withPointer, writtenTo, notPointer]
    rw [untouched] at held
    exact shards.named file shard held

theorem CollectionInvariant.publishing (textual : ∃ id, published.get "id" = .str id)
    (ordered : stateRevisionOf published ≤ revisionOf published) {after : Files}
    (publishing : Publishing runtime paths published operationId publishedAt files after) :
    CollectionInvariant runtime summary after := by
  by_cases own : published.get "id" = .str changeId
  · rcases publishing with rfl | ⟨ownSummary, ownResolved, written⟩
    · exact invariant
    rw [own] at ownResolved
    cases resolved.symm.trans ownResolved
    rcases written with rfl | rfl
    · exact invariant.shard resolved
    · exact invariant.pointer resolved ordered
  · exact invariant.frame resolved (publishing_elsewhere resolved own textual publishing)

end

end

/-! ## Steps -/

/-- The snapshot that a step publishes has no state revision above its projection revision. -/
def CutWrite.KeepsOrder (runtime : Runtime) (summary : SummaryPaths) (cut : CutWrite) (before : Disk Files) : Prop :=
  match cut.write with
  | .commit call => ∀ plan, writtenPlan runtime (call.commitCall runtime summary) before = some plan →
    stateRevisionOf plan.value ≤ revisionOf plan.value
  | .persist call => stateRevisionOf call.change ≤ revisionOf call.change

section

variable {runtime : Runtime} {paths : SummaryIndexPaths} {changeId : String} {summary : SummaryPaths}
  {disk : Disk Files}

theorem write_keeps {cut : CutWrite} (invariant : CollectionInvariant runtime summary disk.aux)
    (resolved : summaryPaths paths changeId = .ok summary) (on : cut.write.On paths changeId)
    (kept : cut.KeepsOrder runtime summary disk) :
    CollectionInvariant runtime summary (cut.leaves runtime summary disk).aux := by
  obtain ⟨write, accesses⟩ := cut
  cases write with
  | persist call =>
    obtain ⟨rfl, rfl, textual⟩ := on
    simp only [CutWrite.leaves]
    by_cases own : call.change.get "id" = .str call.changeId
    · rw [persist_interrupted own resolved]
      cases call.progress accesses with
      | nothing => exact invariant
      | snapshot => exact invariant
      | shard => exact invariant.shard resolved
      | pointer => exact invariant.pointer resolved kept
    · obtain ⟨_, published, files⟩ := persist_interrupted_other own accesses disk
      rw [files]
      exact invariant.publishing resolved textual kept
        (publish_publishing call.change call.operationId call.summary published disk.aux)
  | commit call =>
    obtain ⟨rfl, _⟩ := on
    simp only [CutWrite.leaves]
    rcases commit_interrupted runtime summary call accesses disk with
      same | ⟨plan, written, _, same | ⟨readback, loads, publishing⟩⟩
    · rw [same]
      exact invariant
    · rw [same]
      exact invariant
    · have ordered : stateRevisionOf readback ≤ revisionOf readback := by
        rw [load_state loads, load_revision loads, stored_stringify, stateRevisionOf_toJson, revisionOf_toJson]
        exact kept plan written
      exact invariant.publishing resolved (load_id loads).2 ordered publishing

/-! ## Collections -/

/-- A collection that calls itself safe spares the shard of the pointer, and lists no shard
    of its revision or a later one. -/
def CollectsSafely (runtime : Runtime) (paths : SummaryIndexPaths) (summary : SummaryPaths)
    (changeId : String) (disk : Disk Files) : Prop :=
  ∀ listing faults result pointer,
    collectObsoleteSummaryShards runtime paths changeId disk listing faults = .ok result →
    result.safe = true →
    Holds ChangeSummaryPointerSchema (disk.aux summary.pointerPath) pointer →
    ∀ path ∈ result.obsolete, pointer.get "shard_path" ≠ .str path ∧
      ∀ shard, Holds ChangeSummaryShardSchema (disk.aux path) shard →
        (shard.get "projection_revision").numberD 0 < (pointer.get "projection_revision").numberD 0

theorem collect_listed {listing : ReaddirOutcome} {faults : SummaryReadFaults} {result : ObsoleteShards}
    {pointer : JsVal} {path : String} (resolved : summaryPaths paths changeId = .ok summary)
    (collected : collectObsoleteSummaryShards runtime paths changeId disk listing faults = .ok result)
    (held : Holds ChangeSummaryPointerSchema (disk.aux summary.pointerPath) pointer)
    (listed : path ∈ result.obsolete) :
    ∃ file rev, path = join [summary.revDir, file] ∧ shardFileRevision file = some rev ∧
      (rev : JsNumber) < (pointer.get "state_revision").numberD 0 := by
  simp only [collectObsoleteSummaryShards, assertSafe_of_paths resolved, resolved, bind, Except.bind]
    at collected
  split at collected
  · cases collected; cases listed
  split at collected
  · cases collected; cases listed
  · cases collected; cases listed
  next found read =>
    split at collected
    · cases collected; cases listed
    split at collected
    · cases collected; cases listed
    split at collected
    · cases collected; cases listed
    · cases collected; cases listed
    next files =>
      cases collected
      cases (readSummary_holds read).unique held
      obtain ⟨file, kept, rfl⟩ := List.mem_map.mp listed
      have older := (List.mem_filter.mp kept).2
      split at older
      next rev named =>
        simp only [Bool.and_eq_true, decide_eq_true_eq] at older
        exact ⟨file, rev, rfl, named, older.1⟩
      · cases older

theorem named_revision {file : String} {rev : Int} {n : Nat} (prints : runtime.PrintsIntegers)
    (small : (n : JsNumber) ≤ maxSafeInteger) (named : shardFileRevision file = some rev)
    (same : join [summary.revDir, file] = shardPathOf runtime summary n) : rev = n := by
  have fileIs : file = toString n ++ ".json" := by
    rw [shardPathOf, prints n small] at same
    exact join_injective same
  rw [fileIs, shardFileRevision_nat] at named
  exact (Option.some.inj named).symm

theorem CollectionInvariant.gone_superseded (invariant : CollectionInvariant runtime summary disk.aux)
    (prints : runtime.PrintsIntegers) (resolved : summaryPaths paths changeId = .ok summary) :
    CollectsSafely runtime paths summary changeId disk := by
  intro listing faults result pointer collected _ held path listed
  obtain ⟨file, rev, rfl, named, below⟩ := collect_listed resolved collected held listed
  have ordered := invariant.ordered pointer held
  obtain ⟨content, parsed, _, _, _, checked⟩ := held
  have field : intNonnegative (parsed.get "projection_revision") =
      .ok (pointer.get "projection_revision") := object_get checked (by decide) (by simp)
  obtain ⟨n, isNumber, small⟩ := revision_natural field
  rw [isNumber, numberD] at ordered ⊢
  have behind : (rev : JsNumber) < n := lt_of_lt_of_le below ordered
  constructor
  · have place := invariant.place pointer ⟨content, parsed, by assumption, by assumption, by assumption, checked⟩
    rw [place, isNumber]
    intro same
    have level := named_revision prints small named (JsVal.str.inj same).symm
    rw [level] at behind
    simp at behind
  · intro shard shardHeld
    have ownName := invariant.named file shard shardHeld
    obtain ⟨_, shardJson, _, _, _, shardChecked⟩ := shardHeld
    have shardField : intNonnegative (shardJson.get "projection_revision") =
        .ok (shard.get "projection_revision") := object_get shardChecked (by decide) (by simp)
    obtain ⟨m, isRevision, smallRevision⟩ := revision_natural shardField
    rw [isRevision, numberD] at ownName ⊢
    have level := named_revision prints smallRevision named ownName
    rw [level] at behind
    exact_mod_cast behind

end

/-- Wherever the writes of a run are broken off, a safe collection lists older shards only, as
    long as no published snapshot has a state revision above its projection revision. -/
theorem collects_safely {runtime : Runtime} {paths : SummaryIndexPaths} {changeId : String}
    {summary : SummaryPaths} {writes : List CutWrite} {start : Disk Files}
    (prints : runtime.PrintsIntegers) (resolved : summaryPaths paths changeId = .ok summary)
    (unpublished : Unpublished summary start.aux) (onChange : ∀ cut ∈ writes, cut.write.On paths changeId)
    (kept : ∀ step ∈ trace (serveWrite runtime summary) writes start,
      step.request.KeepsOrder runtime summary step.before) : CollectsSafely runtime paths summary changeId
      (stateAfter (serveWrite runtime summary) writes start) := by
  have good : ∀ step ∈ trace (serveWrite runtime summary) writes start,
      step.request.write.On paths changeId ∧ step.request.KeepsOrder runtime summary step.before := by
    intro step member
    exact ⟨onChange _ (request_mem member), kept step member⟩
  have invariant := (trace_guarded (P := fun disk => CollectionInvariant runtime summary disk.aux)
    (fun cut disk good invariant => write_keeps invariant resolved good.1 good.2) good
    (.unpublished unpublished)).2
  exact invariant.gone_superseded prints resolved

/-! ## Fixed runs -/

def stateCommit (operationId : String) (stateRevision : JsNumber) : SummaryCall where
  options := { CommitChangeSummaryOptions.applying operationId (settingField "title" (.str "Search")) with
    stateRevision := some stateRevision }
  events := .undisturbed "2026-01-01T00:00:00.000Z"
  summaryEvents := .undisturbed "2026-01-01T00:00:01.000Z"

def afterStateCommits (calls : List SummaryCall) : Disk Files :=
  stateAfter (serveWrite .permissive freshSummaryPaths) (calls.map fun call => ⟨.commit call, 9⟩) freshSummaryDisk

def currentShardPath (disk : Disk Files) : Option JsVal :=
  match readBoundedSummaryJson .permissive ChangeSummaryPointerSchema "summary pointer" "addSearch"
      (disk.aux freshSummaryPaths.pointerPath) none with
  | .ok pointer => some (pointer.get "shard_path")
  | _ => none

/-- The first commit jumps to state revision 5: its shard is revision 1, below 5. -/
theorem jumping_state_collects_current :
    ¬CollectsSafely .permissive ⟨"changes", "summaries"⟩ freshSummaryPaths "addSearch"
      (afterStateCommits [stateCommit "a" 5]) := by
  intro safely
  have current : currentShardPath (afterStateCommits [stateCommit "a" 5]) =
      some (.str "summaries/addSearch/revisions/1.json") := by decide +kernel
  have collected : (collectObsoleteSummaryShards .permissive ⟨"changes", "summaries"⟩ "addSearch"
      (afterStateCommits [stateCommit "a" 5]) (.names ["1.json"]) .none).toOption =
        some ⟨["summaries/addSearch/revisions/1.json"], true, none⟩ := by decide +kernel
  cases result : collectObsoleteSummaryShards .permissive ⟨"changes", "summaries"⟩ "addSearch"
      (afterStateCommits [stateCommit "a" 5]) (.names ["1.json"]) .none with
  | error error => rw [result] at collected; cases collected
  | ok shards =>
    rw [result] at collected
    cases Option.some.inj collected
    unfold currentShardPath at current
    split at current
    next pointer read =>
      have spared := (safely _ _ _ pointer result rfl (readSummary_holds read) _ List.mem_cons_self).1
      exact spared (Option.some.inj current)
    · cases current

theorem permissive_printsIntegers : Runtime.permissive.PrintsIntegers := by
  intro n _
  simp only [Runtime.permissive, toString]
  rw [if_pos (Rat.den_natCast n), Rat.num_natCast]
  rfl

/-- Two commits whose state revisions stay behind. -/
theorem collects_safely_slow_state : CollectsSafely .permissive ⟨"changes", "summaries"⟩ freshSummaryPaths "addSearch"
      (afterStateCommits [stateCommit "a" 0, stateCommit "b" 1]) := by
  refine collects_safely permissive_printsIntegers rfl ⟨rfl, fun _ => rfl⟩ ?_ ?_
  · intro cut member
    rcases List.mem_pair.mp member with rfl | rfl <;> exact ⟨rfl, rfl⟩
  · have ordered : ((trace (serveWrite .permissive freshSummaryPaths)
        [⟨.commit (stateCommit "a" 0), 9⟩, ⟨.commit (stateCommit "b" 1), 9⟩] freshSummaryDisk).all
          fun step => match step.request.write with
            | .commit call =>
              (writtenPlan .permissive (call.commitCall .permissive freshSummaryPaths) step.before).all
                fun plan => decide (stateRevisionOf plan.value ≤ revisionOf plan.value)
            | .persist _ => true) = true := by decide +kernel
    intro step member
    have good := List.all_eq_true.mp ordered step member
    rcases List.mem_pair.mp member with rfl | rfl
    · intro plan written
      exact of_decide_eq_true ((Option.all_eq_true _ _).mp good plan written)
    · intro plan written
      exact of_decide_eq_true ((Option.all_eq_true _ _).mp good plan written)

end Advance.Storage
