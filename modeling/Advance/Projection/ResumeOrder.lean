import Advance.Projection.ResumeRows
import Mathlib.Tactic.Linarith
import Mathlib.Tactic.NormNum

/-! # The ranked partition of a resume projection
-/

namespace Advance.Projection

open JavaScript Types Validator

section

variable {Ref : Type} (read : Ref → EpicNodeInput)
variable (changes : List ChangeNodeInput) (epics : List Ref) (scope : ResumeScope)

/-! ## What the nodes are -/

def changeRef (change : ChangeNodeInput) : WorkNodeRef := .change scope.project_id change.id

def shellRef (epic : EpicNodeInput) (shell : ShellEntryInput) : WorkNodeRef := .epicEntry epic.id shell.entry_id

def isPromoted (entry : WorkNodeRef) : Bool :=
  changes.any fun change => change.epic_membership.map EpicMembership.entryRef = some entry

def unpromotedShells (epic : EpicNodeInput) : List ShellEntryInput :=
  epic.entries.filterMap fun
    | .change _ => none
    | .shell shell => if isPromoted changes (shellRef epic shell) then none else some shell

def workRefs : List WorkNodeRef :=
  changes.map (changeRef scope) ++ (scopedEpics read epics scope).flatMap fun epic =>
    (unpromotedShells changes (read epic)).map (shellRef (read epic))

def KeysDistinct : Prop := ((workRefs read changes epics scope).map nodeRefKey).Nodup

def LinkedAt (position : Nat) (change : ChangeNodeInput) : Prop :=
  ∃ membership, change.epic_membership = some membership ∧
    ((scopedEpics read epics scope).map fun epic => (read epic).id).findIdx? (· = membership.epic_id) = some position

def Unlinked (change : ChangeNodeInput) : Prop :=
  ∀ membership, change.epic_membership = some membership →
    ∀ epic ∈ scopedEpics read epics scope, (read epic).id ≠ membership.epic_id

def EntryAt (position : Nat) (ref : WorkNodeRef) : Prop :=
  (∃ epic, (scopedEpics read epics scope)[position]? = some epic ∧
    ∃ shell ∈ unpromotedShells changes (read epic), ref = shellRef (read epic) shell) ∨
  ∃ change ∈ changes, LinkedAt read epics scope position change ∧ ref = changeRef scope change

def UnlinkedRef (ref : WorkNodeRef) : Prop :=
  ∃ change ∈ changes, Unlinked read epics scope change ∧ ref = changeRef scope change

def IdleUnlinkedRef (ref : WorkNodeRef) : Prop :=
  ∃ change ∈ changes, Unlinked read epics scope change ∧ change.hasInProgressTasks = false ∧
    ref = changeRef scope change

/-- The prerequisite resolves to a finished change. -/
def Finished (prereq : WorkNodeRef) : Prop :=
  ∃ change ∈ changes, nodeRefKey (changeRef scope change) = nodeRefKey prereq ∧ change.isTerminal = true

def InBand (order : JsNumber) : Prop := ∃ index : Nat, index ≤ 9999 ∧ order = index

def OrdersInBand : Prop :=
  (∀ epic ∈ epics, ∀ entry ∈ (read epic).entries, InBand entry.order) ∧
    ∀ change ∈ changes, ∀ membership, change.epic_membership = some membership → InBand membership.order

end

/-! ## The claim -/

def ResumeProjection.rows (projection : ResumeProjection) : List ResumeRow :=
  projection.actionable ++ projection.blocked ++ projection.active

def ByRank (rows : List ResumeRow) : Prop :=
  rows.Pairwise fun left right => left.advisory_rank ≤ right.advisory_rank

def ListedOnce (projection : ResumeProjection) (ref : WorkNodeRef) : Prop :=
  (projection.rows.map ResumeRow.node).count ref = 1

def RankedBefore (projection : ResumeProjection) (first second : WorkNodeRef → Prop) : Prop :=
  ∀ left ∈ projection.rows, ∀ right ∈ projection.rows, first left.node → second right.node →
    left.advisory_rank < right.advisory_rank

section

variable {Ref : Type} (read : Ref → EpicNodeInput)
variable (changes : List ChangeNodeInput) (epics : List Ref) (scope : ResumeScope)

structure RankedPartition (projection : ResumeProjection) : Prop where
  changes_once : ∀ change ∈ changes, change.isTerminal = false → ListedOnce projection (changeRef scope change)
  shells_once : ∀ epic ∈ scopedEpics read epics scope, ∀ shell ∈ unpromotedShells changes (read epic),
    ListedOnce projection (shellRef (read epic) shell)
  terminal_absent : ∀ change ∈ changes, change.isTerminal = true →
    ∀ row ∈ projection.rows, row.node ≠ changeRef scope change
  changes_ready : ∀ row ∈ projection.actionable, ∀ change ∈ changes, row.node = changeRef scope change →
    ∀ prereq ∈ change.same_project_dependencies, Finished changes scope prereq
  shells_ready : ∀ row ∈ projection.actionable, ∀ epic ∈ scopedEpics read epics scope,
    ∀ shell ∈ unpromotedShells changes (read epic), row.node = shellRef (read epic) shell →
      ∀ prereq ∈ shell.blocked_by, Finished changes scope prereq
  sorted : ByRank projection.actionable ∧ ByRank projection.blocked ∧ ByRank projection.active
  next_none : projection.ordered_next = none ↔ projection.rows = []
  next_least : ∀ row, projection.ordered_next = some row →
    row ∈ projection.rows ∧ ∀ other ∈ projection.rows, row.advisory_rank ≤ other.advisory_rank
  first_band : OrdersInBand read changes epics →
    RankedBefore projection (EntryAt read changes epics scope 0) (UnlinkedRef read changes epics scope)
  idle_last : OrdersInBand read changes epics → ∀ position,
    RankedBefore projection (EntryAt read changes epics scope position) (IdleUnlinkedRef read changes epics scope)
  bands : OrdersInBand read changes epics → ∀ earlier later, earlier < later →
    RankedBefore projection (EntryAt read changes epics scope earlier) (EntryAt read changes epics scope later)

def PromotionsTold : Prop :=
  ∀ epic ∈ scopedEpics read epics scope, ∀ shell ∈ unpromotedShells changes (read epic),
    nodeRefKey (shellRef (read epic) shell) ∉ promotedEntryKeys changes

end

/-! ## Shells -/

variable {changes : List ChangeNodeInput} {epic : EpicNodeInput}

theorem mem_unpromotedShells {shell : ShellEntryInput} : shell ∈ unpromotedShells changes epic ↔
      .shell shell ∈ epic.entries ∧ isPromoted changes (shellRef epic shell) = false := by
  simp only [unpromotedShells, List.mem_filterMap]
  constructor
  · rintro ⟨entry, member, kept⟩
    cases entry with
    | change entry => cases kept
    | shell entry =>
      by_cases promoted : isPromoted changes (shellRef epic entry) = true
      · simp [promoted] at kept
      · simp only [promoted, Bool.false_eq_true, if_false, Option.some.injEq] at kept
        subst kept
        exact ⟨member, Bool.eq_false_iff.mpr promoted⟩
  · rintro ⟨member, fresh⟩
    exact ⟨_, member, by simp [fresh]⟩

theorem key_of_isPromoted {entry : WorkNodeRef}
    (promoted : isPromoted changes entry = true) : nodeRefKey entry ∈ promotedEntryKeys changes := by
  obtain ⟨change, member, named⟩ := List.any_eq_true.mp promoted
  obtain ⟨membership, linked, rfl⟩ := Option.map_eq_some_iff.mp (of_decide_eq_true named)
  exact List.mem_filterMap.mpr ⟨change, member, by simp [linked]⟩

theorem epicShellNodes_eq (epicIndex : Nat)
    (told : ∀ shell ∈ unpromotedShells changes epic, nodeRefKey (shellRef epic shell) ∉ promotedEntryKeys changes) :
    epicShellNodes changes epicIndex epic = (unpromotedShells changes epic).map (shellNode epicIndex epic) := by
  rw [epicShellNodes, unpromotedShells, List.map_filterMap]
  refine List.filterMap_congr fun entry member => ?_
  cases entry with
  | change entry => rfl
  | shell shell =>
    by_cases promoted : isPromoted changes (shellRef epic shell) = true
    · have key := key_of_isPromoted promoted
      rw [shellRef] at key promoted
      simp [shellRef, promoted, key]
    · have key := told shell (mem_unpromotedShells.mpr ⟨member, Bool.eq_false_iff.mpr promoted⟩)
      rw [shellRef] at key promoted
      simp [shellRef, promoted, key]

theorem shell_of_mem_epicShellNodes {epicIndex : Nat}
    {node : InternalNode} (member : node ∈ epicShellNodes changes epicIndex epic) :
    ∃ shell : ShellEntryInput, node = shellNode epicIndex epic shell ∧
      nodeRefKey (shellRef epic shell) ∉ promotedEntryKeys changes := by
  obtain ⟨entry, _, kept⟩ := List.mem_filterMap.mp member
  cases entry with
  | change entry => cases kept
  | shell shell =>
    simp only at kept
    split at kept
    next => cases kept
    next fresh => exact ⟨shell, (Option.some.inj kept).symm, fresh⟩

section

variable {Ref : Type} [DecidableEq Ref] {read : Ref → EpicNodeInput}
variable {changes : List ChangeNodeInput} {epics : List Ref} {scope : ResumeScope}

/-! ## Nodes -/

variable {change : ChangeNodeInput}

theorem changeNode_mem (member : change ∈ changes) :
    changeNode scope.project_id ((scopedEpics read epics scope).map read) change ∈
      resumeNodes read changes epics scope :=
  List.mem_append_left _ (List.mem_map_of_mem member)

theorem resumeNodes_refs (told : PromotionsTold read changes epics scope) :
    (resumeNodes read changes epics scope).map InternalNode.ref = workRefs read changes epics scope := by
  rw [resumeNodes, shellNodes, List.map_append, List.map_map, List.map_flatMap, workRefs]
  congr 1
  refine List.flatMap_congr fun epic member => ?_
  rw [epicShellNodes_eq _ (told epic member), List.map_map]
  rfl

theorem shellNode_mem (told : PromotionsTold read changes epics scope) {epic : Ref}
    (member : epic ∈ scopedEpics read epics scope) {shell : ShellEntryInput}
    (listed : shell ∈ unpromotedShells changes (read epic)) :
    shellNode ((scopedEpics read epics scope).idxOf epic) (read epic) shell ∈
      resumeNodes read changes epics scope := by
  refine List.mem_append_right _ (List.mem_flatMap.mpr ⟨epic, member, ?_⟩)
  rw [epicShellNodes_eq _ (told epic member)]
  exact List.mem_map_of_mem listed

theorem nodes_distinct (distinct : KeysDistinct read changes epics scope)
    (told : PromotionsTold read changes epics scope) :
    ((resumeNodes read changes epics scope).map fun node => nodeRefKey node.ref).Nodup := by
  have keys : (resumeNodes read changes epics scope).map (fun node => nodeRefKey node.ref) =
      ((resumeNodes read changes epics scope).map InternalNode.ref).map nodeRefKey := by rw [List.map_map]; rfl
  rw [keys, resumeNodes_refs told]
  exact distinct

variable {node : InternalNode}

theorem count_row {nodes : List InternalNode} (distinct : (nodes.map fun node => nodeRefKey node.ref).Nodup)
    (member : node ∈ nodes) (isOpened : node.is_terminal = false) :
    ((rowLists nodes).rows.map ResumeRow.node).count node.ref = 1 := by
  have refs : (nodes.map InternalNode.ref).Nodup := by
    have keys : ((nodes.map InternalNode.ref).map nodeRefKey).Nodup := by rw [List.map_map]; exact distinct
    exact keys.of_map _
  have perm := (rows_perm nodes).map ResumeRow.node
  have listed : (openRows nodes nodes).map ResumeRow.node = (nodes.filter isOpen).map InternalNode.ref := by
    rw [openRows, List.map_map]
    rfl
  rw [perm.count_eq, listed]
  refine List.count_eq_one_of_mem (refs.sublist (List.filter_sublist.map _)) ?_
  exact List.mem_map_of_mem (List.mem_filter.mpr ⟨member, by simp [isOpen, isOpened]⟩)

/-! ## Ranks -/

theorem entry_of_ref (distinct : KeysDistinct read changes epics scope)
    (told : PromotionsTold read changes epics scope) {node other : InternalNode}
    (inNode : node ∈ resumeNodes read changes epics scope) (inOther : other ∈ resumeNodes read changes epics scope)
    (same : node.ref = other.ref) : node = other :=
  node_eq (nodes_distinct distinct told) inNode inOther (congrArg nodeRefKey same)

theorem idxOf_epic (distinct : KeysDistinct read changes epics scope) {position : Nat} {epic : Ref}
    (there : (scopedEpics read epics scope)[position]? = some epic) {shell : ShellEntryInput}
    (listed : shell ∈ unpromotedShells changes (read epic)) : (scopedEpics read epics scope).idxOf epic = position := by
  have refs : (workRefs read changes epics scope).Nodup := List.Nodup.of_map _ distinct
  have apart := (List.nodup_flatMap.mp (List.nodup_append.mp refs).2.1).2
  have held : shellRef (read epic) shell ∈ (unpromotedShells changes (read epic)).map (shellRef (read epic)) :=
    List.mem_map_of_mem listed
  obtain ⟨bound, here⟩ := List.getElem?_eq_some_iff.mp there
  have member : epic ∈ scopedEpics read epics scope := here ▸ List.getElem_mem bound
  have first := List.idxOf_lt_length_of_mem member
  have found : (scopedEpics read epics scope)[(scopedEpics read epics scope).idxOf epic] = epic :=
    List.getElem_idxOf first
  by_contra differ
  have positions := List.pairwise_iff_getElem.mp apart
  rcases Nat.lt_or_gt_of_ne differ with before | after
  · have disjoint := positions _ _ first bound before
    simp only [Function.onFun, found, here] at disjoint
    exact disjoint held held
  · have disjoint := positions _ _ bound first after
    simp only [Function.onFun, found, here] at disjoint
    exact disjoint held held

omit [DecidableEq Ref] in
theorem linked_rank {position : Nat} (linked : LinkedAt read epics scope position change) :
    ∃ membership, change.epic_membership = some membership ∧
      computeChangeRank change ((scopedEpics read epics scope).map read) =
        (position : JsNumber) * 10000 + membership.order := by
  obtain ⟨membership, named, found⟩ := linked
  refine ⟨membership, named, ?_⟩
  have index : ((scopedEpics read epics scope).map read).findIdx? (fun epic => epic.id = membership.epic_id) =
      some position := by
    rw [← found, List.findIdx?_map, List.findIdx?_map]
    rfl
  rw [computeChangeRank, named]
  simp only [index, epicBandSpan]

omit [DecidableEq Ref] in
theorem unlinked_rank (unlinked : Unlinked read epics scope change) :
    computeChangeRank change ((scopedEpics read epics scope).map read) =
      unlinkedRank change ((scopedEpics read epics scope).map read) := by
  rw [computeChangeRank]
  cases named : change.epic_membership with
  | none => rfl
  | some membership =>
    have missing : ((scopedEpics read epics scope).map read).findIdx? (fun epic => epic.id = membership.epic_id) =
        none := by
      rw [List.findIdx?_eq_none_iff]
      intro epic member
      obtain ⟨reference, inScope, rfl⟩ := List.mem_map.mp member
      simpa using unlinked membership named reference inScope
    simp only [missing]

section

variable (distinct : KeysDistinct read changes epics scope) (told : PromotionsTold read changes epics scope)
include distinct told

theorem entry_rank (orders : OrdersInBand read changes epics) {position : Nat}
    (member : node ∈ resumeNodes read changes epics scope)
    (entry : EntryAt read changes epics scope position node.ref) : position < (scopedEpics read epics scope).length ∧
      ∃ order : Nat, order ≤ 9999 ∧ node.advisory_rank = (position : JsNumber) * 10000 + order := by
  have inScope : ∀ epic ∈ scopedEpics read epics scope, epic ∈ epics := by
    intro epic kept
    rw [scopedEpics] at kept
    split at kept
    next => exact (List.mem_filter.mp kept).1
    next => exact kept
  cases entry with
  | inl byShell =>
    obtain ⟨epic, there, shell, listed, same⟩ := byShell
    obtain ⟨bound, here⟩ := List.getElem?_eq_some_iff.mp there
    have kept : epic ∈ scopedEpics read epics scope := here ▸ List.getElem_mem bound
    obtain rfl := entry_of_ref distinct told member (shellNode_mem told kept listed) same
    obtain ⟨order, small, eq⟩ := orders.1 epic (inScope epic kept) _ (mem_unpromotedShells.mp listed).1
    refine ⟨bound, order, small, ?_⟩
    rw [shellNode, idxOf_epic distinct there listed]
    exact congrArg ((position : JsNumber) * 10000 + ·) eq
  | inr byChange =>
    obtain ⟨change, known, linked, same⟩ := byChange
    obtain rfl := entry_of_ref distinct told member (changeNode_mem known) same
    obtain ⟨membership, named, rank⟩ := linked_rank linked
    obtain ⟨order, small, eq⟩ := orders.2 change known membership named
    obtain ⟨_, _, found⟩ := linked
    refine ⟨?_, order, small, ?_⟩
    · simpa using (List.findIdx?_eq_some_iff_getElem.mp found).1
    · rw [changeNode, rank, eq]

theorem unlinkedRef_rank
    (member : node ∈ resumeNodes read changes epics scope) {change : ChangeNodeInput} (known : change ∈ changes)
    (unlinked : Unlinked read epics scope change) (same : node.ref = changeRef scope change) :
    node.advisory_rank = unlinkedRank change ((scopedEpics read epics scope).map read) := by
  obtain rfl := entry_of_ref distinct told member (changeNode_mem known) same
  exact unlinked_rank unlinked

end

/-! ## The projection -/

theorem sortRows_perm (rows : List ResumeRow) : (sortRows rows).Perm rows := List.perm_insertionSort _ rows

theorem projection_perm (now : String) : (buildResumeProjection now read changes epics scope).rows.Perm
    (rowLists (resumeNodes read changes epics scope)).rows :=
  ((sortRows_perm _).append (sortRows_perm _)).append (sortRows_perm _)

theorem mem_projection_rows {now : String} {row : ResumeRow} :
    row ∈ (buildResumeProjection now read changes epics scope).rows ↔
      ∃ node ∈ resumeNodes read changes epics scope, node.is_terminal = false ∧
        row = rowOf (resumeNodes read changes epics scope) node :=
  (projection_perm now).mem_iff.trans mem_rows

theorem listedOnce (distinct : KeysDistinct read changes epics scope)
    (told : PromotionsTold read changes epics scope) (now : String)
    (member : node ∈ resumeNodes read changes epics scope) (isOpened : node.is_terminal = false) :
    ListedOnce (buildResumeProjection now read changes epics scope) node.ref := by
  rw [ListedOnce, ((projection_perm now).map ResumeRow.node).count_eq]
  exact count_row (nodes_distinct distinct told) member isOpened

theorem finished_of_blocks {prereq : WorkNodeRef} (free : blocks (resumeNodes read changes epics scope) prereq = false) :
    Finished changes scope prereq := by
  rw [blocks] at free
  split at free
  next => cases free
  next blocker found =>
    have key : nodeRefKey blocker.ref = nodeRefKey prereq := by simpa using List.find?_some found
    have member : blocker ∈ resumeNodes read changes epics scope :=
      List.mem_reverse.mp (List.mem_of_find?_eq_some found)
    have done : blocker.is_terminal = true := by simpa using free
    cases List.mem_append.mp member with
    | inl isChange =>
      obtain ⟨change, known, rfl⟩ := List.mem_map.mp isChange
      exact ⟨change, known, key, done⟩
    | inr isShell =>
      -- Shells are never terminal.
      obtain ⟨epic, _, inEpic⟩ := List.mem_flatMap.mp isShell
      obtain ⟨shell, rfl, _⟩ := shell_of_mem_epicShellNodes inEpic
      cases done

section

variable (distinct : KeysDistinct read changes epics scope) (told : PromotionsTold read changes epics scope)
include distinct told

theorem finished_of_actionable {now : String} {row : ResumeRow}
    (ready : row ∈ (buildResumeProjection now read changes epics scope).actionable)
    (member : node ∈ resumeNodes read changes epics scope) (same : row.node = node.ref) :
    ∀ prereq ∈ node.hard_prereqs, Finished changes scope prereq := by
  obtain ⟨own, listed, rfl, free⟩ := mem_actionable ((sortRows_perm _).mem_iff.mp ready)
  obtain rfl := entry_of_ref distinct told listed member same
  exact fun prereq waits => finished_of_blocks (free prereq waits)

section

variable (orders : OrdersInBand read changes epics) (now : String)
include orders now

theorem first_band_holds :
    RankedBefore (buildResumeProjection now read changes epics scope) (EntryAt read changes epics scope 0)
      (UnlinkedRef read changes epics scope) := by
  intro left inLeft right inRight entry unlinked
  obtain ⟨node, member, _, rfl⟩ := mem_projection_rows.mp inLeft
  obtain ⟨other, otherMember, _, rfl⟩ := mem_projection_rows.mp inRight
  obtain ⟨_, order, small, rank⟩ := entry_rank distinct told orders member entry
  obtain ⟨change, known, free, same⟩ := unlinked
  have otherRank := unlinkedRef_rank distinct told otherMember known free same
  have bound : (order : JsNumber) ≤ 9999 := by exact_mod_cast small
  rw [rowOf_rank, rowOf_rank, rank, otherRank, unlinkedRank]
  split
  next => norm_num [unlinkedActiveRank, epicBandSpan]; linarith
  next =>
    have scopeSize : (0 : JsNumber) ≤ (((scopedEpics read epics scope).map read).length : JsNumber) := Nat.cast_nonneg _
    norm_num [epicBandSpan] at scopeSize ⊢
    linarith

theorem idle_last_holds (position : Nat) : RankedBefore (buildResumeProjection now read changes epics scope)
      (EntryAt read changes epics scope position) (IdleUnlinkedRef read changes epics scope) := by
  intro left inLeft right inRight entry unlinked
  obtain ⟨node, member, _, rfl⟩ := mem_projection_rows.mp inLeft
  obtain ⟨other, otherMember, _, rfl⟩ := mem_projection_rows.mp inRight
  obtain ⟨inside, order, small, rank⟩ := entry_rank distinct told orders member entry
  obtain ⟨change, known, free, idle, same⟩ := unlinked
  have otherRank := unlinkedRef_rank distinct told otherMember known free same
  have bound : (order : JsNumber) ≤ 9999 := by exact_mod_cast small
  have within : (position : JsNumber) + 1 ≤ (scopedEpics read epics scope).length := by exact_mod_cast inside
  rw [rowOf_rank, rowOf_rank, rank, otherRank, unlinkedRank, idle, List.length_map]
  simp only [Bool.false_eq_true, if_false, epicBandSpan]
  linarith

theorem bands_hold {earlier later : Nat} (before : earlier < later) :
    RankedBefore (buildResumeProjection now read changes epics scope) (EntryAt read changes epics scope earlier)
      (EntryAt read changes epics scope later) := by
  intro left inLeft right inRight entry otherEntry
  obtain ⟨node, member, _, rfl⟩ := mem_projection_rows.mp inLeft
  obtain ⟨other, otherMember, _, rfl⟩ := mem_projection_rows.mp inRight
  obtain ⟨_, order, small, rank⟩ := entry_rank distinct told orders member entry
  obtain ⟨_, otherOrder, _, otherRank⟩ := entry_rank distinct told orders otherMember otherEntry
  have bound : (order : JsNumber) ≤ 9999 := by exact_mod_cast small
  have step : (earlier : JsNumber) + 1 ≤ later := by exact_mod_cast before
  have least : (0 : JsNumber) ≤ otherOrder := Nat.cast_nonneg _
  rw [rowOf_rank, rowOf_rank, rank, otherRank]
  linarith

end

end

/-- With keys that tell the nodes apart, the projection is a ranked partition just if no
unpromoted shell has the key of an entry that was promoted. -/
theorem ranked_iff (now : String) (distinct : KeysDistinct read changes epics scope) :
    RankedPartition read changes epics scope (buildResumeProjection now read changes epics scope) ↔
      PromotionsTold read changes epics scope := by
  constructor
  · intro ranked epic inScope shell listed promoted
    -- Such a shell is skipped, so no row can be its row.
    have once := ranked.shells_once epic inScope shell listed
    have there : shellRef (read epic) shell ∈
        (buildResumeProjection now read changes epics scope).rows.map ResumeRow.node :=
      List.count_pos_iff.mp (by rw [once]; exact Nat.one_pos)
    obtain ⟨row, inRows, same⟩ := List.mem_map.mp there
    obtain ⟨node, member, _, rfl⟩ := mem_projection_rows.mp inRows
    rw [rowOf_node] at same
    cases List.mem_append.mp member with
    | inl isChange =>
      obtain ⟨change, _, rfl⟩ := List.mem_map.mp isChange
      exact WorkNodeRef.noConfusion same
    | inr isShell =>
      obtain ⟨other, _, inEpic⟩ := List.mem_flatMap.mp isShell
      obtain ⟨kept, rfl, fresh⟩ := shell_of_mem_epicShellNodes inEpic
      rw [← same] at promoted
      exact fresh promoted
  · intro told
    exact {
      changes_once := fun change known isOpened =>
        listedOnce distinct told now (changeNode_mem known) isOpened
      shells_once := fun epic inScope shell listed =>
        listedOnce distinct told now (shellNode_mem told inScope listed) rfl
      terminal_absent := by
        intro change known done row inRows same
        obtain ⟨node, member, isOpened, rfl⟩ := mem_projection_rows.mp inRows
        obtain rfl := entry_of_ref distinct told member (changeNode_mem known) same
        exact absurd (done.symm.trans isOpened) Bool.noConfusion
      changes_ready := fun row ready change known same =>
        finished_of_actionable distinct told ready (changeNode_mem known) same
      shells_ready := fun row ready epic inScope shell listed same =>
        finished_of_actionable distinct told ready (shellNode_mem told inScope listed) same
      sorted := ⟨sortRows_sorted _, sortRows_sorted _, sortRows_sorted _⟩
      next_none := by
        rw [← List.length_eq_zero_iff, (projection_perm now).length_eq, List.length_eq_zero_iff]
        exact orderedNext_none
      next_least := by
        intro row next
        obtain ⟨inRows, least⟩ := orderedNext_least (nodes_distinct distinct told) next
        exact ⟨(projection_perm now).mem_iff.mpr inRows, fun other inOther =>
          least other ((projection_perm now).mem_iff.mp inOther)⟩
      first_band := fun orders => first_band_holds distinct told orders now
      idle_last := fun orders => idle_last_holds distinct told orders now
      bands := fun orders earlier later before => bands_hold distinct told orders now before }

end

/-! ## Fixed runs -/

def draftChange (id : String) (membership : Option EpicMembership) : ChangeNodeInput where
  id
  title := id
  status := .draft
  lifecycleState := .opened
  same_project_dependencies := []
  hasInProgressTasks := false
  epic_membership := membership

def shellEpic (id entryId : String) : EpicNodeInput where
  id
  title := id
  entries := [.shell { entry_id := entryId, order := 1, title := entryId, success_hint := none, blocked_by := [] }]

def wholeProject : ResumeScope := ⟨"0123456789012345678901234567890123456789", none⟩

def slashedChange : ChangeNodeInput := draftChange "addFoo" (some ⟨"a/b", "c", 0⟩)

theorem slashed_shell_lost : KeysDistinct (fun _ : Unit => shellEpic "a" "b/c") [slashedChange] [()] wholeProject ∧
      ¬ RankedPartition (fun _ : Unit => shellEpic "a" "b/c") [slashedChange] [()] wholeProject
        (buildResumeProjection "" (fun _ : Unit => shellEpic "a" "b/c") [slashedChange] [()] wholeProject) := by
  refine ⟨by unfold KeysDistinct; decide, fun ranked => ?_⟩
  have once := ranked.shells_once () (by decide) _ (List.mem_of_elem_eq_true (by rfl) :
    (⟨"b/c", 1, "b/c", none, []⟩ : ShellEntryInput) ∈ unpromotedShells [slashedChange] (shellEpic "a" "b/c"))
  revert once
  unfold ListedOnce
  decide

/-- A shell of one Epic, a change linked to another that is out of scope, and one that is in scope. -/
theorem plain_ranked : RankedPartition (fun name : String => shellEpic name "s")
      [draftChange "addFoo" (some ⟨"a", "t", 0⟩), draftChange "addBar" (some ⟨"c", "t", 0⟩), draftChange "addBaz" none]
      ["a", "b"] wholeProject
      (buildResumeProjection "" (fun name : String => shellEpic name "s")
        [draftChange "addFoo" (some ⟨"a", "t", 0⟩), draftChange "addBar" (some ⟨"c", "t", 0⟩),
          draftChange "addBaz" none] ["a", "b"] wholeProject) :=
  (ranked_iff "" (by unfold KeysDistinct; decide)).mpr (by unfold PromotionsTold; decide)

end Advance.Projection
