import Advance.Projection.ResumeProjection

/-! # The rows of a resume projection
-/

namespace Advance.Projection

open JavaScript Types Validator

/-! ## One node -/

/-- The prerequisite is not known to be done. -/
def blocks (nodes : List InternalNode) (prereq : WorkNodeRef) : Bool :=
  match nodeByKey nodes (nodeRefKey prereq) with
  | none => true
  | some blocker => !blocker.is_terminal

theorem scanPrereq_blocking (nodes : List InternalNode) (node : InternalNode) (scan : PrereqScan)
    (prereq : WorkNodeRef) : (scanPrereq nodes node scan prereq).blockingPrereqs =
      scan.blockingPrereqs ++ [prereq].filter (blocks nodes) := by
  cases found : nodeByKey nodes (nodeRefKey prereq) with
  | none => simp [scanPrereq, blocks, found]
  | some blocker => by_cases done : blocker.is_terminal = true <;> simp [scanPrereq, blocks, found, done]

theorem scanPrereqs_blocking (nodes : List InternalNode) (unresolvedRefs : List WorkNodeRef) (node : InternalNode) :
    (scanPrereqs nodes unresolvedRefs node).blockingPrereqs = node.hard_prereqs.filter (blocks nodes) := by
  have loop : ∀ (prereqs : List WorkNodeRef) (scan : PrereqScan),
      (prereqs.foldl (scanPrereq nodes node) scan).blockingPrereqs =
        scan.blockingPrereqs ++ prereqs.filter (blocks nodes) := by
    intro prereqs
    induction prereqs with
    | nil => simp
    | cons prereq prereqs ih =>
      intro scan
      rw [List.foldl_cons, ih, scanPrereq_blocking, List.append_assoc, ← List.filter_append]
      rfl
  exact loop node.hard_prereqs _

theorem scanPrereqs_redirects (nodes : List InternalNode) (unresolvedRefs : List WorkNodeRef) (node : InternalNode) :
    (scanPrereqs nodes unresolvedRefs node).redirects = (scanPrereqs nodes [] node).redirects := by
  have step : ∀ (scan other : PrereqScan) (prereq : WorkNodeRef), scan.redirects = other.redirects →
      (scanPrereq nodes node scan prereq).redirects = (scanPrereq nodes node other prereq).redirects := by
    intro scan other prereq same
    cases found : nodeByKey nodes (nodeRefKey prereq) with
    | none => simpa [scanPrereq, found] using same
    | some blocker => by_cases done : blocker.is_terminal = true <;> simp [scanPrereq, found, done, same]
  have loop : ∀ (prereqs : List WorkNodeRef) (scan other : PrereqScan), scan.redirects = other.redirects →
      (prereqs.foldl (scanPrereq nodes node) scan).redirects =
        (prereqs.foldl (scanPrereq nodes node) other).redirects := by
    intro prereqs
    induction prereqs with
    | nil => exact fun _ _ same => same
    | cons prereq prereqs ih => exact fun scan other same => ih _ _ (step scan other prereq same)
  exact loop node.hard_prereqs _ _ rfl

def rowOf (nodes : List InternalNode) (node : InternalNode) : ResumeRow := nodeRow node (scanPrereqs nodes [] node)

section

variable (nodes : List InternalNode)
include nodes

theorem nodeRow_scan (unresolvedRefs : List WorkNodeRef) (node : InternalNode) :
    nodeRow node (scanPrereqs nodes unresolvedRefs node) = rowOf nodes node := by
  simp only [rowOf, nodeRow, scanPrereqs_blocking, scanPrereqs_redirects nodes unresolvedRefs]

@[simp] theorem rowOf_node (node : InternalNode) : (rowOf nodes node).node = node.ref := rfl

@[simp] theorem rowOf_rank (node : InternalNode) :
    (rowOf nodes node).advisory_rank = node.advisory_rank := rfl

theorem rowOf_lifecycle (node : InternalNode) :
    (rowOf nodes node).lifecycle = nodeLifecycle node (node.hard_prereqs.filter (blocks nodes)) := by
  rw [← scanPrereqs_blocking nodes []]
  rfl

end

/-! ## All nodes -/

def isOpen (node : InternalNode) : Bool := !node.is_terminal

def openRows (nodes some : List InternalNode) : List ResumeRow := (some.filter isOpen).map (rowOf nodes)

/-- The lifecycle puts the row in the list of actionable ones. -/
def ResumeRowLifecycle.isReady : ResumeRowLifecycle → Bool
  | .readyToPromote | .readyToStart => true
  | .active | .blocked | .done => false

def withLifecycle (keep : ResumeRowLifecycle → Bool) (rows : List ResumeRow) : List ResumeRow :=
  rows.filter fun row => keep row.lifecycle

theorem push_lists (lists : RowLists) (row : ResumeRow) :
    (lists.push row).actionable = lists.actionable ++ withLifecycle ResumeRowLifecycle.isReady [row] ∧
      (lists.push row).blocked = lists.blocked ++ withLifecycle (· = .blocked) [row] ∧
      (lists.push row).activeList = lists.activeList ++ withLifecycle (· = .active) [row] := by
  simp only [RowLists.push, withLifecycle, List.filter_cons, List.filter_nil]
  cases row.lifecycle <;> simp [ResumeRowLifecycle.isReady]

theorem addNode_lists (nodes : List InternalNode) (lists : RowLists) (node : InternalNode) :
    (addNode nodes lists node).actionable =
        lists.actionable ++ withLifecycle ResumeRowLifecycle.isReady (openRows nodes [node]) ∧
      (addNode nodes lists node).blocked = lists.blocked ++ withLifecycle (· = .blocked) (openRows nodes [node]) ∧
      (addNode nodes lists node).activeList =
        lists.activeList ++ withLifecycle (· = .active) (openRows nodes [node]) := by
  by_cases done : node.is_terminal = true
  · simp [addNode, openRows, isOpen, withLifecycle, done]
  · have single : openRows nodes [node] = [rowOf nodes node] := by simp [openRows, isOpen, done]
    rw [single, addNode, if_neg done]
    simp only [nodeRow_scan]
    exact push_lists _ _

theorem rowLists_eq (nodes : List InternalNode) :
    (rowLists nodes).actionable = withLifecycle ResumeRowLifecycle.isReady (openRows nodes nodes) ∧
      (rowLists nodes).blocked = withLifecycle (· = .blocked) (openRows nodes nodes) ∧
      (rowLists nodes).activeList = withLifecycle (· = .active) (openRows nodes nodes) := by
  have split : ∀ (keep : ResumeRowLifecycle → Bool) (node : InternalNode) (rest : List InternalNode),
      withLifecycle keep (openRows nodes (node :: rest)) =
        withLifecycle keep (openRows nodes [node]) ++ withLifecycle keep (openRows nodes rest) := by
    intro keep node rest
    rw [withLifecycle, withLifecycle, withLifecycle, ← List.filter_append, openRows, openRows, openRows,
      ← List.map_append, ← List.filter_append]
    rfl
  have loop : ∀ (some : List InternalNode) (lists : RowLists), (some.foldl (addNode nodes) lists).actionable =
          lists.actionable ++ withLifecycle ResumeRowLifecycle.isReady (openRows nodes some) ∧
        (some.foldl (addNode nodes) lists).blocked =
          lists.blocked ++ withLifecycle (· = .blocked) (openRows nodes some) ∧
        (some.foldl (addNode nodes) lists).activeList =
          lists.activeList ++ withLifecycle (· = .active) (openRows nodes some) := by
    intro some
    induction some with
    | nil => simp [openRows, withLifecycle]
    | cons node rest ih =>
      intro lists
      obtain ⟨ready, blocked, active⟩ := addNode_lists nodes lists node
      obtain ⟨restReady, restBlocked, restActive⟩ := ih (addNode nodes lists node)
      rw [List.foldl_cons, restReady, restBlocked, restActive, ready, blocked, active]
      simp only [split _ node rest, List.append_assoc, and_self]
  exact loop nodes .empty

/-! ## The three lists together -/

def RowLists.rows (lists : RowLists) : List ResumeRow := lists.actionable ++ lists.blocked ++ lists.activeList

theorem rowOf_not_done (nodes : List InternalNode) (node : InternalNode) : (rowOf nodes node).lifecycle ≠ .done := by
  rw [rowOf_lifecycle, nodeLifecycle]
  split_ifs <;> exact ResumeRowLifecycle.noConfusion

theorem rows_perm (nodes : List InternalNode) : (rowLists nodes).rows.Perm (openRows nodes nodes) := by
  obtain ⟨ready, blocked, active⟩ := rowLists_eq nodes
  rw [RowLists.rows, ready, blocked, active]
  have known : ∀ row ∈ openRows nodes nodes, row.lifecycle ≠ .done := by
    intro row member
    obtain ⟨node, _, rfl⟩ := List.mem_map.mp member
    exact rowOf_not_done nodes node
  generalize openRows nodes nodes = rows at known
  induction rows with
  | nil => exact List.Perm.refl _
  | cons row rows ih =>
    have rest := ih fun other member => known other (List.mem_cons_of_mem _ member)
    have here := known row List.mem_cons_self
    simp only [withLifecycle, List.filter_cons] at rest ⊢
    cases life : row.lifecycle with
    | done => exact absurd life here
    | readyToPromote => simpa [ResumeRowLifecycle.isReady] using rest
    | readyToStart => simpa [ResumeRowLifecycle.isReady] using rest
    | blocked =>
      simp only [ResumeRowLifecycle.isReady, reduceCtorEq, decide_false, decide_true, if_true, Bool.false_eq_true,
        if_false, List.append_assoc, List.cons_append] at rest ⊢
      exact List.perm_middle.trans (rest.cons row)
    | active =>
      simp only [ResumeRowLifecycle.isReady, reduceCtorEq, decide_false, decide_true, if_true, Bool.false_eq_true,
        if_false] at rest ⊢
      exact List.perm_middle.trans (rest.cons row)

variable {nodes : List InternalNode} {row : ResumeRow}

theorem mem_rows :
    row ∈ (rowLists nodes).rows ↔ ∃ node ∈ nodes, node.is_terminal = false ∧ row = rowOf nodes node := by
  rw [(rows_perm nodes).mem_iff, openRows, List.mem_map]
  constructor
  · rintro ⟨node, member, rfl⟩
    obtain ⟨listed, isOpened⟩ := List.mem_filter.mp member
    exact ⟨node, listed, by simpa [isOpen] using isOpened, rfl⟩
  · rintro ⟨node, listed, isOpened, rfl⟩
    exact ⟨node, List.mem_filter.mpr ⟨listed, by simp [isOpen, isOpened]⟩, rfl⟩

theorem mem_actionable (member : row ∈ (rowLists nodes).actionable) :
    ∃ node ∈ nodes, row = rowOf nodes node ∧ ∀ prereq ∈ node.hard_prereqs, blocks nodes prereq = false := by
  rw [(rowLists_eq nodes).1] at member
  obtain ⟨listed, ready⟩ := List.mem_filter.mp member
  obtain ⟨node, isOpened, rfl⟩ := List.mem_map.mp listed
  refine ⟨node, (List.mem_filter.mp isOpened).1, rfl, ?_⟩
  rw [rowOf_lifecycle, nodeLifecycle] at ready
  have none : node.hard_prereqs.filter (blocks nodes) = [] := by
    by_contra blocked
    rw [if_pos (List.length_pos_iff.mpr blocked)] at ready
    split at ready <;> cases ready
  intro prereq waits
  exact Bool.eq_false_iff.mpr (List.filter_eq_nil_iff.mp none prereq waits)

/-! ## The next row -/

variable {node : InternalNode}

theorem findRow_some {rows : List ResumeRow}
    (found : findRow rows node = some row) : row ∈ rows ∧ nodeRefKey row.node = nodeRefKey node.ref :=
  ⟨List.mem_of_find?_eq_some found, by simpa using List.find?_some found⟩

theorem findRow_none {rows : List ResumeRow} (missing : findRow rows node = none) :
    ∀ row ∈ rows, nodeRefKey row.node ≠ nodeRefKey node.ref := by
  intro row member
  simpa using List.find?_eq_none.mp missing row member

theorem findRow_rows (listed : node ∈ nodes)
    (isOpened : node.is_terminal = false) : ∃ row ∈ (rowLists nodes).rows, nodeRefKey row.node = nodeRefKey node.ref ∧
      (((findRow (rowLists nodes).actionable node <|> findRow (rowLists nodes).blocked node) <|>
        findRow (rowLists nodes).activeList node) <|> some (minimalRow node)) = some row := by
  have there : rowOf nodes node ∈ (rowLists nodes).rows := mem_rows.mpr ⟨node, listed, isOpened, rfl⟩
  simp only [RowLists.rows, List.mem_append] at there ⊢
  cases ready : findRow (rowLists nodes).actionable node with
  | some row => exact ⟨row, .inl (.inl (findRow_some ready).1), (findRow_some ready).2, rfl⟩
  | none =>
    cases blocked : findRow (rowLists nodes).blocked node with
    | some row => exact ⟨row, .inl (.inr (findRow_some blocked).1), (findRow_some blocked).2, rfl⟩
    | none =>
      cases active : findRow (rowLists nodes).activeList node with
      | some row => exact ⟨row, .inr (findRow_some active).1, (findRow_some active).2, rfl⟩
      | none =>
        exfalso
        rcases there with (inReady | inBlocked) | inActive
        · exact findRow_none ready _ inReady rfl
        · exact findRow_none blocked _ inBlocked rfl
        · exact findRow_none active _ inActive rfl

theorem mem_sortNodes : node ∈ sortNodes nodes ↔ node ∈ nodes :=
  List.mem_insertionSort _

theorem byRank_total {α : Type} (rank : α → JsNumber) : Std.Total fun left right : α => rank left ≤ rank right :=
  ⟨fun left right => le_total (rank left) (rank right)⟩

theorem byRank_trans {α : Type} (rank : α → JsNumber) : IsTrans α fun left right : α => rank left ≤ rank right :=
  ⟨fun _ _ _ => le_trans⟩

theorem sortNodes_sorted (nodes : List InternalNode) :
    (sortNodes nodes).Pairwise fun left right => left.advisory_rank ≤ right.advisory_rank := by
  have := byRank_total InternalNode.advisory_rank
  have := byRank_trans InternalNode.advisory_rank
  exact List.pairwise_insertionSort _ nodes

theorem sortRows_sorted (rows : List ResumeRow) :
    (sortRows rows).Pairwise fun left right => left.advisory_rank ≤ right.advisory_rank := by
  have := byRank_total ResumeRow.advisory_rank
  have := byRank_trans ResumeRow.advisory_rank
  exact List.pairwise_insertionSort _ rows

theorem node_eq (distinct : (nodes.map fun node => nodeRefKey node.ref).Nodup)
    {left right : InternalNode} (inLeft : left ∈ nodes) (inRight : right ∈ nodes)
    (same : nodeRefKey left.ref = nodeRefKey right.ref) : left = right :=
  List.inj_on_of_nodup_map distinct inLeft inRight same

theorem orderedNext_none : orderedNext nodes (rowLists nodes) = none ↔ (rowLists nodes).rows = [] := by
  have empty : (rowLists nodes).rows = [] ↔ nodes.filter isOpen = [] := by
    rw [← List.length_eq_zero_iff, (rows_perm nodes).length_eq, openRows, List.length_map, List.length_eq_zero_iff]
  rw [empty, orderedNext]
  split
  next none =>
    refine iff_of_true rfl (List.eq_nil_iff_forall_not_mem.mpr fun node member => ?_)
    have sorted : node ∈ sortNodes (nodes.filter isOpen) := mem_sortNodes.mpr member
    rw [show sortNodes (nodes.filter isOpen) = [] from none] at sorted
    cases sorted
  next first rest sorted =>
    have member : first ∈ nodes.filter isOpen :=
      mem_sortNodes.mp ((show sortNodes (nodes.filter isOpen) = first :: rest from sorted) ▸ List.mem_cons_self)
    obtain ⟨listed, isOpened⟩ := List.mem_filter.mp member
    obtain ⟨row, _, _, found⟩ := findRow_rows listed (by simpa [isOpen] using isOpened)
    rw [found]
    exact iff_of_false (Option.some_ne_none row) (List.ne_nil_of_mem member)

/-- The row chosen first is one of the lists, and none has a smaller rank. -/
theorem orderedNext_least (distinct : (nodes.map fun node => nodeRefKey node.ref).Nodup)
    (next : orderedNext nodes (rowLists nodes) = some row) :
    row ∈ (rowLists nodes).rows ∧ ∀ other ∈ (rowLists nodes).rows, row.advisory_rank ≤ other.advisory_rank := by
  rw [orderedNext] at next
  split at next
  next => cases next
  next first rest sorted =>
    have order : sortNodes (nodes.filter isOpen) = first :: rest := sorted
    have member : first ∈ nodes.filter isOpen := mem_sortNodes.mp (order ▸ List.mem_cons_self)
    obtain ⟨listed, isOpened⟩ := List.mem_filter.mp member
    obtain ⟨chosen, inRows, sameKey, found⟩ := findRow_rows listed (by simpa [isOpen] using isOpened)
    obtain rfl : chosen = row := Option.some.inj (found.symm.trans next)
    refine ⟨inRows, fun other inOther => ?_⟩
    obtain ⟨node, inNodes, _, rfl⟩ := mem_rows.mp inRows
    obtain rfl := node_eq distinct inNodes listed sameKey
    obtain ⟨later, inLater, laterOpen, rfl⟩ := mem_rows.mp inOther
    have sortedLater : later ∈ node :: rest := by
      rw [← order]
      exact mem_sortNodes.mpr (List.mem_filter.mpr ⟨inLater, by simp [isOpen, laterOpen]⟩)
    cases List.mem_cons.mp sortedLater with
    | inl same => exact same ▸ le_refl _
    | inr behind => exact (List.pairwise_cons.mp (order ▸ sortNodes_sorted (nodes.filter isOpen))).1 later behind

end Advance.Projection
