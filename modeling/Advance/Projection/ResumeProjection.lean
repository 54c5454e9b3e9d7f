import Mathlib.Data.List.Sort
import Advance.JavaScript.Value
import Advance.Types.ChangeStatus
import Advance.Validator.CycleDetect
import Advance.Validator.NodeKeys

/-! # The resume projection

What to work on next, from the changes and Epics of a project. Epics are objects:
the list holds references to them, and `read` is what a reference points to.
-/

namespace Advance.Projection

open JavaScript Types Validator

/-! ## Inputs -/

structure EpicMembership where
  epic_id : String
  entry_id : String
  order : JsNumber
  deriving DecidableEq

structure ChangeNodeInput where
  id : String
  title : String
  status : ChangeStatus
  lifecycleState : ChangeLifecycleState
  same_project_dependencies : List WorkNodeRef
  hasInProgressTasks : Bool
  epic_membership : Option EpicMembership
  deriving DecidableEq

structure ShellEntryInput where
  entry_id : String
  order : JsNumber
  title : String
  success_hint : Option String
  blocked_by : List WorkNodeRef
  deriving DecidableEq

structure ChangeEntryInput where
  entry_id : String
  order : JsNumber
  title : String
  change_id : String
  deriving DecidableEq

inductive EpicEntryInput where
  | shell (entry : ShellEntryInput)
  | change (entry : ChangeEntryInput)
  deriving DecidableEq

def EpicEntryInput.order : EpicEntryInput → JsNumber
  | .shell entry => entry.order
  | .change entry => entry.order

structure EpicNodeInput where
  id : String
  title : String
  entries : List EpicEntryInput
  deriving DecidableEq

structure ResumeScope where
  project_id : String
  epic_ids : Option (List String)

/-! ## Output -/

inductive ResumeRowKind where
  | epicShell
  | change
  deriving DecidableEq

/-- `ResumeRowLifecycleSchema` -/
inductive ResumeRowLifecycle where
  | readyToPromote
  | readyToStart
  | active
  | blocked
  | done
  deriving DecidableEq

structure ResumeRow where
  node : WorkNodeRef
  title : String
  kind : ResumeRowKind
  lifecycle : ResumeRowLifecycle
  advisory_rank : JsNumber
  blockers : List WorkNodeRef
  source_epic_id : Option String
  target_epic_id : Option String
  deriving DecidableEq

structure CrossEpicRedirect where
  source_epic_id : String
  target_epic_id : String
  blocker_node : WorkNodeRef
  blocked_node : WorkNodeRef
  deriving DecidableEq

structure WorkGraphDiagnostics where
  cycles : List (List WorkNodeRef)
  unresolved_refs : List WorkNodeRef

structure ResumeProjection where
  generated_at : String
  scope : ResumeScope
  ordered_next : Option ResumeRow
  actionable : List ResumeRow
  blocked : List ResumeRow
  active : List ResumeRow
  redirects : List CrossEpicRedirect
  diagnostics : WorkGraphDiagnostics

/-! ## Ranks -/

/-- `EPIC_BAND_SPAN` -/
def epicBandSpan : JsNumber := 10000

/-- `UNLINKED_ACTIVE_RANK`: the tail of the first band, half a step behind its last order. -/
def unlinkedActiveRank : JsNumber := epicBandSpan - 1 / 2

/-- Advisory rank of a change without an Epic that is in scope. -/
def unlinkedRank (change : ChangeNodeInput) (epics : List EpicNodeInput) : JsNumber :=
  if change.hasInProgressTasks then unlinkedActiveRank else ((epics.length : JsNumber) + 1) * epicBandSpan

def computeChangeRank (change : ChangeNodeInput) (epics : List EpicNodeInput) : JsNumber :=
  match change.epic_membership with
  | none => unlinkedRank change epics
  | some membership =>
    match epics.findIdx? fun epic => epic.id = membership.epic_id with
    | none => unlinkedRank change epics
    | some epicIndex => (epicIndex : JsNumber) * epicBandSpan + membership.order

/-! ## Nodes -/

structure InternalNode where
  ref : WorkNodeRef
  title : String
  kind : ResumeRowKind
  advisory_rank : JsNumber
  is_terminal : Bool
  is_active : Bool
  hard_prereqs : List WorkNodeRef
  source_epic_id : Option String

/-- Either field makes a change terminal. -/
def ChangeNodeInput.isTerminal (change : ChangeNodeInput) : Bool :=
  change.status = .archived || change.status = .closed ||
    change.lifecycleState = .archived || change.lifecycleState = .closed

def changeNode (projectId : String) (scopedEpics : List EpicNodeInput) (change : ChangeNodeInput) : InternalNode where
  ref := .change projectId change.id
  title := change.title
  kind := .change
  advisory_rank := computeChangeRank change scopedEpics
  is_terminal := change.isTerminal
  is_active := change.hasInProgressTasks && !change.isTerminal
  hard_prereqs := change.same_project_dependencies
  source_epic_id := change.epic_membership.map EpicMembership.epic_id

def EpicMembership.entryRef (membership : EpicMembership) : WorkNodeRef :=
  .epicEntry membership.epic_id membership.entry_id

def promotedEntryKeys (changes : List ChangeNodeInput) : List String :=
  changes.filterMap fun change => change.epic_membership.map fun membership => nodeRefKey membership.entryRef

def shellNode (epicIndex : Nat) (epic : EpicNodeInput) (entry : ShellEntryInput) : InternalNode where
  ref := .epicEntry epic.id entry.entry_id
  title := entry.title
  kind := .epicShell
  advisory_rank := (epicIndex : JsNumber) * 10000 + entry.order
  is_terminal := false
  is_active := false
  hard_prereqs := entry.blocked_by
  source_epic_id := some epic.id

/-- The nodes of one Epic's shells, but for those already promoted. -/
def epicShellNodes (changes : List ChangeNodeInput) (epicIndex : Nat) (epic : EpicNodeInput) : List InternalNode :=
  epic.entries.filterMap fun
    | .change _ => none
    | .shell entry =>
      if nodeRefKey (.epicEntry epic.id entry.entry_id) ∈ promotedEntryKeys changes then none
      else some (shellNode epicIndex epic entry)

section

variable {Ref : Type} [DecidableEq Ref] (read : Ref → EpicNodeInput)
variable (changes : List ChangeNodeInput) (epics : List Ref) (scope : ResumeScope)

def scopedEpics : List Ref :=
  match scope.epic_ids with
  | some epicIds => epics.filter fun epic => (read epic).id ∈ epicIds
  | none => epics

/-- `scopedEpics.indexOf(epic)` compares references. -/
def shellNodes : List InternalNode :=
  (scopedEpics read epics scope).flatMap fun epic =>
    epicShellNodes changes ((scopedEpics read epics scope).idxOf epic) (read epic)

def resumeNodes : List InternalNode :=
  changes.map (changeNode scope.project_id ((scopedEpics read epics scope).map read)) ++
    shellNodes read changes epics scope

end

/-! ## Rows -/

/-- `nodeByKey.get(key)`: the last node set under the key. -/
def nodeByKey (nodes : List InternalNode) (key : String) : Option InternalNode :=
  nodes.reverse.find? fun node => nodeRefKey node.ref = key

/-- Nonempty text is truthy. -/
def given (text : Option String) : Option String := text.filter (· ≠ "")

/-- What the loop over one node's prerequisites has collected; `redirects` are those of this node. -/
structure PrereqScan where
  blockingPrereqs : List WorkNodeRef
  unresolvedRefs : List WorkNodeRef
  redirects : List CrossEpicRedirect

/-- A redirect from the node's Epic to another one that its blocker belongs to. -/
def redirectTo (node blocker : InternalNode) : Option CrossEpicRedirect := do
  let source ← given node.source_epic_id
  let target ← given blocker.source_epic_id
  if source ≠ target then
    some { source_epic_id := source, target_epic_id := target, blocker_node := blocker.ref, blocked_node := node.ref }
  else none

def scanPrereq (nodes : List InternalNode) (node : InternalNode) (scan : PrereqScan) (prereq : WorkNodeRef) :
    PrereqScan :=
  match nodeByKey nodes (nodeRefKey prereq) with
  | none =>
    { scan with
      unresolvedRefs :=
        if scan.unresolvedRefs.any fun ref => nodeRefKey ref = nodeRefKey prereq then scan.unresolvedRefs
        else scan.unresolvedRefs ++ [prereq]
      -- What is not resolved cannot be shown to be done, so it blocks.
      blockingPrereqs := scan.blockingPrereqs ++ [prereq] }
  | some blocker =>
    if blocker.is_terminal then scan
    else
      { scan with
        blockingPrereqs := scan.blockingPrereqs ++ [prereq]
        redirects := scan.redirects ++ (redirectTo node blocker).toList }

def scanPrereqs (nodes : List InternalNode) (unresolvedRefs : List WorkNodeRef) (node : InternalNode) : PrereqScan :=
  node.hard_prereqs.foldl (scanPrereq nodes node) ⟨[], unresolvedRefs, []⟩

def nodeLifecycle (node : InternalNode) (blockingPrereqs : List WorkNodeRef) : ResumeRowLifecycle :=
  if node.is_active then .active
  else if 0 < blockingPrereqs.length then .blocked
  else if node.kind = .change then .readyToStart
  else .readyToPromote

/-- `r.blocked_node === node.ref` compares references: only redirects of this node count. -/
def nodeRow (node : InternalNode) (scan : PrereqScan) : ResumeRow where
  node := node.ref
  title := node.title
  kind := node.kind
  lifecycle := nodeLifecycle node scan.blockingPrereqs
  advisory_rank := node.advisory_rank
  blockers := scan.blockingPrereqs
  source_epic_id := given node.source_epic_id
  target_epic_id :=
    if nodeLifecycle node scan.blockingPrereqs = .blocked then
      scan.redirects.head?.map CrossEpicRedirect.target_epic_id
    else none

structure RowLists where
  actionable : List ResumeRow
  blocked : List ResumeRow
  activeList : List ResumeRow
  unresolvedRefs : List WorkNodeRef
  redirects : List CrossEpicRedirect

def RowLists.empty : RowLists := ⟨[], [], [], [], []⟩

def RowLists.push (lists : RowLists) (row : ResumeRow) : RowLists :=
  match row.lifecycle with
  | .active => { lists with activeList := lists.activeList ++ [row] }
  | .blocked => { lists with blocked := lists.blocked ++ [row] }
  | .readyToStart | .readyToPromote => { lists with actionable := lists.actionable ++ [row] }
  | .done => lists

def addNode (nodes : List InternalNode) (lists : RowLists) (node : InternalNode) : RowLists :=
  if node.is_terminal then lists
  else
    let scan := scanPrereqs nodes lists.unresolvedRefs node
    RowLists.push
      { lists with unresolvedRefs := scan.unresolvedRefs, redirects := lists.redirects ++ scan.redirects }
      (nodeRow node scan)

def rowLists (nodes : List InternalNode) : RowLists := nodes.foldl (addNode nodes) .empty

/-! ## The projection -/

/-- `sort` with the difference of the ranks is stable. -/
def sortRows (rows : List ResumeRow) : List ResumeRow :=
  rows.insertionSort fun left right => left.advisory_rank ≤ right.advisory_rank

def sortNodes (nodes : List InternalNode) : List InternalNode :=
  nodes.insertionSort fun left right => left.advisory_rank ≤ right.advisory_rank

def findRow (rows : List ResumeRow) (node : InternalNode) : Option ResumeRow :=
  rows.find? fun row => nodeRefKey row.node = nodeRefKey node.ref

/-- The row made up where no list holds one of the node. -/
def minimalRow (node : InternalNode) : ResumeRow where
  node := node.ref
  title := node.title
  kind := node.kind
  lifecycle := if node.is_active then .active else .readyToStart
  advisory_rank := node.advisory_rank
  blockers := []
  source_epic_id := none
  target_epic_id := none

def orderedNext (nodes : List InternalNode) (lists : RowLists) : Option ResumeRow :=
  match sortNodes (nodes.filter fun node => !node.is_terminal) with
  | [] => none
  | first :: _ =>
    ((findRow lists.actionable first <|> findRow lists.blocked first) <|> findRow lists.activeList first) <|>
      some (minimalRow first)

/-- `cycleDeps.get(key) ?? []` -/
def cycleDeps (nodes : List InternalNode) (ref : WorkNodeRef) : List WorkNodeRef :=
  ((nodeByKey nodes (nodeRefKey ref)).map InternalNode.hard_prereqs).getD []

section

variable {Ref : Type} [DecidableEq Ref] (now : String) (read : Ref → EpicNodeInput)
variable (changes : List ChangeNodeInput) (epics : List Ref) (scope : ResumeScope)

/-- Rows for the nodes that are not terminal, each in the list its lifecycle names. -/
def buildResumeProjection : ResumeProjection :=
  let nodes := resumeNodes read changes epics scope
  let lists := rowLists nodes
  { generated_at := now
    scope
    ordered_next := orderedNext nodes lists
    actionable := sortRows lists.actionable
    blocked := sortRows lists.blocked
    active := sortRows lists.activeList
    redirects := lists.redirects
    diagnostics :=
      { cycles := (detectCycles (nodes.map InternalNode.ref) (cycleDeps nodes) nodeRefKey).cycles
        unresolved_refs := lists.unresolvedRefs } }

end

end Advance.Projection
