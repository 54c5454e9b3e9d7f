import Advance.Foundation.StableSort
import Advance.JavaScript.Collections
import Advance.Validator.CycleExact

/-! # Merge order

An advisory order in which to merge archived changes: a change archived later waits
for those archived earlier that touch a file of its own.
-/

namespace Advance.Validator

open Foundation JavaScript

/-! ## The archived changes -/

structure MergeSummary where
  branch : Option String
  status : Option String
  touched_files : Option (List String)
  archived_at : Option String
  deriving DecidableEq

/-- A record of summaries, as `Object.entries` lists it. -/
structure ChangeSummaries where
  entries : List (String × MergeSummary)
  distinct : (entries.map Prod.fst).Nodup

structure ArchivedEntry where
  changeId : String
  branch : String
  touchedFiles : List String
  archivedAt : String
  deriving DecidableEq

def archivedEntry (changeId : String) (summary : MergeSummary) : ArchivedEntry where
  changeId := changeId
  branch := summary.branch.getD s!"change/{changeId}"
  touchedFiles := summary.touched_files.getD []
  archivedAt := summary.archived_at.getD ""

def archivedEntries (summaries : ChangeSummaries) : List ArchivedEntry :=
  (summaries.entries.filter fun entry => entry.2.status = some "archived").map fun entry =>
    archivedEntry entry.1 entry.2

/-! ## The graph -/

section

variable (localeCompare : String → String → Ordering)

/-- What the comparator of the sort answers: entries without a time stand last. -/
def archivedCompare (a b : ArchivedEntry) : Ordering :=
  if a.archivedAt = "" then if b.archivedAt = "" then .eq else .gt
  else if b.archivedAt = "" then .lt
  else localeCompare a.archivedAt b.archivedAt

def archivedBefore (a b : ArchivedEntry) : Prop := (archivedCompare localeCompare a b).isLE = true

instance : DecidableRel (archivedBefore localeCompare) :=
  fun a b => inferInstanceAs (Decidable ((archivedCompare localeCompare a b).isLE = true))

def sortedEntries (entries : List ArchivedEntry) : List ArchivedEntry :=
  entries.insertionSort (archivedBefore localeCompare)

end

def filesOverlap (later earlier : ArchivedEntry) : Bool :=
  later.touchedFiles.any fun file => earlier.touchedFiles.contains file

/-- The ids of the earlier entries that touch a file of the later one. -/
def overlapDeps (earlier : List ArchivedEntry) (later : ArchivedEntry) : List String :=
  distinctOf ((earlier.filter (filesOverlap later)).map ArchivedEntry.changeId)

/-- The entries passed so far and the map filled for them. -/
structure GraphState where
  passed : List ArchivedEntry
  graph : List (String × List String)

def GraphState.add (state : GraphState) (later : ArchivedEntry) : GraphState where
  passed := state.passed ++ [later]
  graph := mapSet state.graph later.changeId (overlapDeps state.passed later)

def mergeGraph (entries : List ArchivedEntry) : List (String × List String) :=
  (entries.foldl GraphState.add ⟨[], []⟩).graph

/-- `Array.from(graph.get(id) ?? [])` -/
def mergeDeps (entries : List ArchivedEntry) (changeId : String) : List String :=
  (mapGet (mergeGraph entries) changeId).getD []

/-! ## The queue -/

structure MergeOrderEntry where
  changeId : String
  branch : String
  touchedFiles : List String
  dependsOn : List String
  deriving DecidableEq

structure MergeOrderResult where
  queue : List MergeOrderEntry
  cycles : Option (List (List String))
  unavailable : Bool
  deriving DecidableEq

/-- What the registry answers, as far as it is read. -/
structure MergeRegistrySnapshot where
  changeSummaries : ChangeSummaries
  unavailable : Bool

def queueEntry (entries : List ArchivedEntry) (entry : ArchivedEntry) : MergeOrderEntry where
  changeId := entry.changeId
  branch := entry.branch
  touchedFiles := entry.touchedFiles
  dependsOn := mergeDeps entries entry.changeId

def queueFor (entries : List ArchivedEntry) (changeId : String) : Option MergeOrderEntry :=
  (entries.find? fun entry => entry.changeId = changeId).map (queueEntry entries)

def mergeOrderOf (localeCompare : String → String → Ordering) (summaries : ChangeSummaries) : MergeOrderResult :=
  let archived := archivedEntries summaries
  if archived.length = 0 then ⟨[], none, false⟩
  else
    let entries := sortedEntries localeCompare archived
    let detected := detectCycles (entries.map ArchivedEntry.changeId) (mergeDeps entries) id
    let resultQueue := detected.sorted.filterMap (queueFor entries)
    ⟨resultQueue, if 0 < detected.cycles.length then some detected.cycles else none, false⟩

/-- The summaries that are injected or come from the registry, which may throw. -/
def mergeSummaries (injected : Option ChangeSummaries) (registry : Option MergeRegistrySnapshot) :
    Option ChangeSummaries :=
  match injected with
  | some summaries => some summaries
  | none => registry.bind fun snapshot => if snapshot.unavailable then none else some snapshot.changeSummaries

def computeMergeOrder (localeCompare : String → String → Ordering) (injected : Option ChangeSummaries)
    (registry : Option MergeRegistrySnapshot) : MergeOrderResult :=
  match mergeSummaries injected registry with
  | some summaries => mergeOrderOf localeCompare summaries
  | none => ⟨[], none, true⟩

/-! ## What is claimed -/

/-- One archived entry has to be merged before another: they touch a common file and it was archived earlier, ties as
    the record lists them. -/
structure Required (localeCompare : String → String → Ordering) (summaries : ChangeSummaries)
    (earlier later : ArchivedEntry) : Prop where
  listed : earlier ∈ archivedEntries summaries ∧ later ∈ archivedEntries summaries
  apart : earlier ≠ later
  overlap : filesOverlap later earlier = true
  before : archivedBefore localeCompare earlier later
  tied : archivedBefore localeCompare later earlier → List.Sublist [earlier, later] (archivedEntries summaries)

/-- The queue is a rearrangement of the archived entries in which whatever an entry needs stands before it, what it
    needs is exactly what is required of it, and no cycle is reported. -/
structure SafeMergeOrder (localeCompare : String → String → Ordering) (summaries : ChangeSummaries)
    (result : MergeOrderResult) : Prop where
  permutation : (result.queue.map fun entry => (entry.changeId, entry.branch, entry.touchedFiles)).Perm
    ((archivedEntries summaries).map fun entry => (entry.changeId, entry.branch, entry.touchedFiles))
  dependsOn : ∀ entry ∈ result.queue, ∀ dep, dep ∈ entry.dependsOn ↔ ∃ earlier later,
    Required localeCompare summaries earlier later ∧ later.changeId = entry.changeId ∧ earlier.changeId = dep
  dependenciesFirst : ∀ front entry back, result.queue = front ++ entry :: back →
    ∀ dep ∈ entry.dependsOn, ∃ earlier ∈ front, earlier.changeId = dep
  acyclic : result.cycles = none

/-! ## The edges -/

section

variable {entries : List ArchivedEntry}

theorem graph_passed (entries : List ArchivedEntry) : (entries.foldl GraphState.add ⟨[], []⟩).passed = entries := by
  induction entries using List.reverseRecOn with
  | nil => rfl
  | append_singleton front last ih => rw [List.foldl_concat, GraphState.add, ih]

theorem mergeGraph_concat (front : List ArchivedEntry) (last : ArchivedEntry) :
    mergeGraph (front ++ [last]) = mapSet (mergeGraph front) last.changeId (overlapDeps front last) := by
  rw [mergeGraph, List.foldl_concat, GraphState.add, graph_passed]
  rfl

theorem mergeDeps_split (front : List ArchivedEntry) (later : ArchivedEntry) (back : List ArchivedEntry)
    (distinct : ((front ++ later :: back).map ArchivedEntry.changeId).Nodup) :
    mergeDeps (front ++ later :: back) later.changeId = overlapDeps front later := by
  induction back using List.reverseRecOn with
  | nil => rw [mergeDeps, mergeGraph_concat, mapGet_mapSet, if_pos rfl, Option.getD_some]
  | append_singleton back last ih =>
    have shorter : front ++ later :: (back ++ [last]) = (front ++ later :: back) ++ [last] := by simp
    rw [shorter, List.map_append, List.nodup_append] at distinct
    have other : later.changeId ≠ last.changeId := by
      refine distinct.2.2 later.changeId ?_ last.changeId (by simp)
      exact List.mem_map_of_mem (List.mem_append_right _ List.mem_cons_self)
    rw [← ih distinct.1, shorter, mergeDeps, mergeGraph_concat, mapGet_mapSet, if_neg other, mergeDeps]

section

variable (distinct : (entries.map ArchivedEntry.changeId).Nodup) {later : ArchivedEntry} (member : later ∈ entries)
include distinct later member

theorem mem_mergeDeps {dep : String} : dep ∈ mergeDeps entries later.changeId ↔
      ∃ earlier, List.Sublist [earlier, later] entries ∧ filesOverlap later earlier = true ∧ earlier.changeId = dep := by
  obtain ⟨front, back, rfl⟩ := List.append_of_mem member
  have apart : (front ++ later :: back).Nodup := distinct.of_map _
  rw [mergeDeps_split front later back distinct, overlapDeps, mem_distinctOf, List.mem_map]
  constructor
  · rintro ⟨earlier, held, rfl⟩
    obtain ⟨before, overlapping⟩ := List.mem_filter.mp held
    exact ⟨earlier, (pair_sublist_split apart).mpr before, overlapping, rfl⟩
  · rintro ⟨earlier, pair, overlapping, rfl⟩
    exact ⟨earlier, List.mem_filter.mpr ⟨(pair_sublist_split apart).mp pair, overlapping⟩, rfl⟩

theorem mergeDeps_nodup : (mergeDeps entries later.changeId).Nodup := by
  obtain ⟨front, back, rfl⟩ := List.append_of_mem member
  rw [mergeDeps_split front later back distinct]
  exact nodup_distinctOf _

end

/-! ## The sorted ids -/

section

variable (distinct : (entries.map ArchivedEntry.changeId).Nodup)
include distinct

theorem dependsOn_earlier {key dep : String}
    (edge : DependsOn (entries.map ArchivedEntry.changeId) (mergeDeps entries) id key dep) :
    (entries.map ArchivedEntry.changeId).idxOf dep < (entries.map ArchivedEntry.changeId).idxOf key := by
  obtain ⟨node, listed, rfl, held⟩ := edge
  obtain ⟨later, member, rfl⟩ := List.mem_map.mp listed
  rw [mem_resolveDepKeys, List.map_id] at held
  obtain ⟨earlier, pair, _, rfl⟩ := (mem_mergeDeps distinct member).mp held.1
  obtain ⟨front, back, rfl⟩ := List.append_of_mem member
  have before : earlier ∈ front := (pair_sublist_split (distinct.of_map _)).mp pair
  rw [List.map_append, List.map_cons] at distinct ⊢
  have fresh : later.changeId ∉ front.map ArchivedEntry.changeId := by
    intro twice
    exact (List.nodup_append.mp distinct).2.2 _ twice _ List.mem_cons_self rfl
  rw [List.idxOf_append_of_mem (List.mem_map_of_mem before), id, List.idxOf_append_of_notMem fresh]
  have inside := List.idxOf_lt_length_of_mem (List.mem_map_of_mem (f := ArchivedEntry.changeId) before)
  omega

theorem mergeGraph_acyclic : Acyclic (DependsOn (entries.map ArchivedEntry.changeId) (mergeDeps entries) id) :=
  acyclic_of_rank _ fun _ _ edge => dependsOn_earlier distinct edge

theorem mergeOrder_exact : ExactResult (entries.map ArchivedEntry.changeId) (mergeDeps entries) id := by
  refine (detectCycles_exact_iff (by rwa [List.map_id])).mpr fun node listed _ => ?_
  obtain ⟨later, member, rfl⟩ := List.mem_map.mp listed
  rw [resolveDepKeys, List.map_id]
  exact (mergeDeps_nodup distinct member).filter _

theorem sortedIds_perm : (detectCycles (entries.map ArchivedEntry.changeId) (mergeDeps entries) id).sorted.Perm
      (entries.map ArchivedEntry.changeId) := by
  have exact' := mergeOrder_exact distinct
  have free := acyclic_iff_not_reachesCycle.mp (mergeGraph_acyclic distinct)
  refine (List.perm_ext_iff_of_nodup exact'.distinct distinct).mpr fun changeId => ?_
  rw [exact'.complete]
  exact and_iff_left (free _)

theorem queueFor_listed {entry : ArchivedEntry}
    (member : entry ∈ entries) : queueFor entries entry.changeId = some (queueEntry entries entry) := by
  unfold queueFor
  cases found : entries.find? fun other => other.changeId = entry.changeId with
  | none =>
    have absent := List.find?_eq_none.mp found entry member
    simp at absent
  | some other =>
    have same : other.changeId = entry.changeId := by simpa using List.find?_some found
    rw [List.inj_on_of_nodup_map distinct (List.mem_of_find?_eq_some found) member same]
    rfl

theorem queue_perm : ((detectCycles (entries.map ArchivedEntry.changeId) (mergeDeps entries) id).sorted.filterMap
      (queueFor entries)).Perm (entries.map (queueEntry entries)) := by
  refine ((sortedIds_perm distinct).filterMap _).trans ?_
  have each : ∀ entry ∈ entries, (queueFor entries ∘ ArchivedEntry.changeId) entry =
      (some ∘ queueEntry entries) entry := fun entry member => queueFor_listed distinct member
  rw [List.filterMap_map, List.filterMap_congr each, List.filterMap_eq_map]

theorem queue_ids : ((detectCycles (entries.map ArchivedEntry.changeId) (mergeDeps entries) id).sorted.filterMap
        (queueFor entries)).map MergeOrderEntry.changeId =
      (detectCycles (entries.map ArchivedEntry.changeId) (mergeDeps entries) id).sorted := by
  rw [List.map_filterMap]
  have each : ∀ changeId ∈ (detectCycles (entries.map ArchivedEntry.changeId) (mergeDeps entries) id).sorted,
      (queueFor entries changeId).map MergeOrderEntry.changeId = some changeId := by
    intro changeId held
    obtain ⟨entry, member, rfl⟩ := List.mem_map.mp ((sortedIds_perm distinct).mem_iff.mp held)
    rw [queueFor_listed distinct member]
    rfl
  rw [List.filterMap_congr each, List.filterMap_some]

theorem queue_dependenciesFirst (front : List MergeOrderEntry) (entry : MergeOrderEntry) (back : List MergeOrderEntry)
    (split : (detectCycles (entries.map ArchivedEntry.changeId) (mergeDeps entries) id).sorted.filterMap
      (queueFor entries) = front ++ entry :: back) :
    ∀ dep ∈ entry.dependsOn, ∃ earlier ∈ front, earlier.changeId = dep := by
  intro dep needed
  have ids := queue_ids distinct
  have member : entry ∈ front ++ entry :: back := List.mem_append_right _ List.mem_cons_self
  rw [← split, (queue_perm distinct).mem_iff] at member
  obtain ⟨later, held, rfl⟩ := List.mem_map.mp member
  rw [split, List.map_append, List.map_cons] at ids
  have edge : dep ∈ resolveDepKeys (entries.map ArchivedEntry.changeId) (mergeDeps entries) id later.changeId := by
    obtain ⟨earlier, pair, _, rfl⟩ := (mem_mergeDeps distinct held).mp needed
    rw [mem_resolveDepKeys, List.map_id, List.map_id]
    exact ⟨needed, List.mem_map_of_mem (pair.subset List.mem_cons_self)⟩
  obtain ⟨earlier, before, same⟩ := (mergeOrder_exact distinct).dependenciesFirst _ _ _ ids.symm dep edge
  obtain ⟨first, held, rfl⟩ := List.mem_map.mp before
  exact ⟨first, held, same⟩

end

end

/-! ## The sort -/

section

variable {localeCompare : String → String → Ordering} [Std.TransCmp localeCompare]

theorem archivedBefore_total : Std.Total (archivedBefore localeCompare) where
  total := by
    intro a b
    unfold archivedBefore archivedCompare
    by_cases noneA : a.archivedAt = ""
    · by_cases noneB : b.archivedAt = "" <;> simp [noneA, noneB]
    · by_cases noneB : b.archivedAt = ""
      · simp [noneA, noneB]
      · simp only [noneA, noneB, if_false]
        exact or_iff_not_imp_left.mpr fun later => Ordering.isLE_of_eq_lt (Std.OrientedCmp.lt_of_not_isLE later)

theorem archivedBefore_trans : IsTrans ArchivedEntry (archivedBefore localeCompare) where
  trans := by
    intro a b c
    unfold archivedBefore archivedCompare
    by_cases noneA : a.archivedAt = "" <;> by_cases noneB : b.archivedAt = "" <;>
      by_cases noneC : c.archivedAt = "" <;> simp [noneA, noneB, noneC]
    exact fun first second => Std.TransCmp.isLE_trans first second

theorem archivedIds_nodup (summaries : ChangeSummaries) :
    ((archivedEntries summaries).map ArchivedEntry.changeId).Nodup := by
  rw [archivedEntries, List.map_map]
  exact summaries.distinct.sublist (List.filter_sublist.map Prod.fst)

omit [Std.TransCmp localeCompare] in
theorem sortedEntries_perm (entries : List ArchivedEntry) : (sortedEntries localeCompare entries).Perm entries :=
  List.perm_insertionSort _ entries

omit [Std.TransCmp localeCompare] in
theorem sortedIds_nodup (summaries : ChangeSummaries) :
    ((sortedEntries localeCompare (archivedEntries summaries)).map ArchivedEntry.changeId).Nodup :=
  ((sortedEntries_perm _).map _).nodup_iff.mpr (archivedIds_nodup summaries)

theorem required_iff {summaries : ChangeSummaries} {earlier later : ArchivedEntry} :
    Required localeCompare summaries earlier later ↔
      List.Sublist [earlier, later] (sortedEntries localeCompare (archivedEntries summaries)) ∧
        filesOverlap later earlier = true := by
  have : Std.Total (archivedBefore localeCompare) := archivedBefore_total
  have : IsTrans _ (archivedBefore localeCompare) := archivedBefore_trans
  have distinct : (archivedEntries summaries).Nodup := (archivedIds_nodup summaries).of_map _
  constructor
  · rintro ⟨⟨first, second⟩, apart, overlapping, before, tied⟩
    exact ⟨(pair_sublist_sort distinct first second apart).mpr ⟨before, tied⟩, overlapping⟩
  · rintro ⟨pair, overlapping⟩
    have first := (sortedEntries_perm _).mem_iff.mp (pair.subset List.mem_cons_self)
    have second := (sortedEntries_perm _).mem_iff.mp (pair.subset (List.mem_cons_of_mem _ List.mem_cons_self))
    have apart : earlier ≠ later := by
      rintro rfl
      exact absurd (pair.nodup ((sortedEntries_perm _).nodup_iff.mpr distinct)) (by simp)
    obtain ⟨before, tied⟩ := (pair_sublist_sort distinct first second apart).mp pair
    exact ⟨⟨first, second⟩, apart, overlapping, before, tied⟩

/-! ## The claim -/

theorem mergeOrderOf_safe (summaries : ChangeSummaries) :
    SafeMergeOrder localeCompare summaries (mergeOrderOf localeCompare summaries) := by
  unfold mergeOrderOf
  simp only
  split
  next none =>
    rw [List.length_eq_zero_iff] at none
    refine ⟨by simp [none], fun _ member => absurd member List.not_mem_nil, fun front _ _ split => ?_, rfl⟩
    exact absurd split.symm (by simp)
  next =>
    have distinct : ((sortedEntries localeCompare (archivedEntries summaries)).map ArchivedEntry.changeId).Nodup :=
      sortedIds_nodup summaries
    have noCycles := (mergeOrder_exact distinct).cycles.mpr (mergeGraph_acyclic distinct)
    have perm := queue_perm distinct
    refine ⟨?_, fun entry member dep => ?_, queue_dependenciesFirst distinct, by simp [noCycles]⟩
    · refine (perm.map _).trans ?_
      rw [List.map_map]
      exact (sortedEntries_perm _).map _
    · obtain ⟨later, held, rfl⟩ := List.mem_map.mp (perm.mem_iff.mp member)
      show dep ∈ mergeDeps _ later.changeId ↔ _
      rw [mem_mergeDeps distinct held]
      constructor
      · rintro ⟨earlier, pair, overlapping, rfl⟩
        exact ⟨earlier, later, required_iff.mpr ⟨pair, overlapping⟩, rfl, rfl⟩
      · rintro ⟨earlier, other, required, same, rfl⟩
        obtain ⟨pair, overlapping⟩ := required_iff.mp required
        have second := pair.subset (List.mem_cons_of_mem _ List.mem_cons_self)
        obtain rfl := List.inj_on_of_nodup_map distinct second held same
        exact ⟨earlier, pair, overlapping, rfl⟩

/-- Whatever summaries are read, the queue is safe; without summaries it is empty. -/
theorem computeMergeOrder_safe (injected : Option ChangeSummaries) (registry : Option MergeRegistrySnapshot) :
    (computeMergeOrder localeCompare injected registry).cycles = none ∧
      ∀ summaries ∈ mergeSummaries injected registry,
        SafeMergeOrder localeCompare summaries (computeMergeOrder localeCompare injected registry) := by
  unfold computeMergeOrder
  cases mergeSummaries injected registry with
  | none => exact ⟨rfl, fun _ read => absurd read (by simp)⟩
  | some summaries =>
    refine ⟨(mergeOrderOf_safe summaries).acyclic, fun read same => ?_⟩
    cases same
    exact mergeOrderOf_safe summaries

end

/-! ## Fixed runs -/

def twoArchivedRows : List (String × MergeSummary) :=
  [("addSearch", ⟨none, some "archived", some ["src/search.ts"], some "2026-02-01"⟩),
    ("addIndex", ⟨none, some "archived", some ["src/index.ts", "src/search.ts"], some "2026-01-01"⟩)]

theorem twoArchivedRows_distinct : (twoArchivedRows.map Prod.fst).Nodup := by decide

def twoArchived : ChangeSummaries := ⟨twoArchivedRows, twoArchivedRows_distinct⟩

theorem twoArchived_ordered : Std.TransCmp (compare : String → String → Ordering) ∧
    (computeMergeOrder compare (some twoArchived) none).cycles = none ∧
      ∀ summaries ∈ mergeSummaries (some twoArchived) none,
        SafeMergeOrder compare summaries (computeMergeOrder compare (some twoArchived) none) := by
  have ordered : Std.TransCmp (compare : String → String → Ordering) := inferInstance
  exact ⟨ordered, computeMergeOrder_safe (some twoArchived) none⟩

/-- The change archived first stands first. -/
example : ((computeMergeOrder compare (some twoArchived) none).queue.map MergeOrderEntry.changeId) =
    ["addIndex", "addSearch"] := by rfl

end Advance.Validator
