import Advance.JavaScript.Collections
import Advance.Types.ChangeStatus

/-! # Selection for bulk close

A selector names changes or filters them; the changes it resolves to are closed together.
-/

namespace Advance.Storage

open Advance.JavaScript Advance.Types

/-! ## What is read -/

structure SelectableTask where
  started_at : Option String
  completed_at : Option String

structure SelectableChange where
  id : String
  title : String
  status : ChangeStatus
  created_at : String
  tasks : List SelectableTask
  /-- The completion times of the gates. -/
  gates : Option (List (Option String))

structure SelectableSummary where
  id : String
  title : String

/-- `LoadResult<Change | null>` -/
inductive SelectionLoad where
  | success (data : Option SelectableChange)
  | failure (error : String)

def SelectionLoad.record : SelectionLoad → Option SelectableChange
  | success data => data
  | failure _ => none

/-- The store, whose answers to one question may differ from call to call, and the reading of dates: a text that is no
    date reads as nothing. -/
structure SelectionDeps where
  list : Option String → List SelectableSummary
  get : Nat → String → SelectionLoad
  getTime : String → Option Int

structure ChangeFilter where
  status : Option String
  titleContains : Option String
  startsWith : Option String
  createdBefore : Option String
  lastActivityBefore : Option String

inductive BulkCloseSelector where
  | explicit (changeIds : List String)
  | filter (filter : ChangeFilter)

inductive SelectionResult where
  | ok (changeIds : List String)
  | error (message : String)

structure Selection where
  result : SelectionResult
  loaded : List SelectableChange

def statusText : ChangeStatus → String
  | .draft => "draft"
  | .archived => "archived"
  | .closed => "closed"

/-- A text that counts as true in a condition. -/
def given (text : Option String) : Option String := text.filter (· ≠ "")

/-! ## Activity -/

section

variable (deps : SelectionDeps)

/-- `Math.max` with a further time, where there is one; what is no number stays none. -/
def SelectionDeps.later (latest : Option Int) (stamp : Option String) : Option Int :=
  match given stamp with
  | none => latest
  | some text =>
    match latest, deps.getTime text with
    | some latest, some time => some (max latest time)
    | _, _ => none

def SelectableChange.stamps (change : SelectableChange) : List (Option String) :=
  (change.tasks.flatMap fun task => [task.started_at, task.completed_at]) ++ change.gates.getD []

def getLastActivityTimestamp (change : SelectableChange) : Option Int :=
  change.stamps.foldl deps.later (deps.getTime change.created_at)

/-- `time < cutoff`; false where either is no number. -/
def isBefore (time cutoff : Option Int) : Bool :=
  match time, cutoff with
  | some time, some cutoff => time < cutoff
  | _, _ => false

/-! ## Loops -/

/-- The changes that are loaded of the ids, asked for one after another. -/
def loadEach (calls : Nat) : List String → List SelectableChange
  | [] => []
  | id :: rest =>
    match (deps.get calls id).record with
    | some change => change :: loadEach (calls + 1) rest
    | none => loadEach (calls + 1) rest

def protectedError (id : String) (status : ChangeStatus) : String :=
  "SELECTION_ERROR: Change \"" ++ id ++ "\" has protected status \"" ++ statusText status ++
    "\". Only draft changes can be bulk-closed."

/-- The first id whose change is loaded and is no draft. -/
def protectedAmong (calls : Nat) : List String → Option String
  | [] => none
  | id :: rest =>
    match (deps.get calls id).record with
    | some change =>
      if change.status ≠ .draft then some (protectedError id change.status) else protectedAmong (calls + 1) rest
    | none => protectedAmong (calls + 1) rest

/-! ## Selectors -/

def resolveExplicit (calls : Nat) (resolved : List String) (loaded : List SelectableChange) : List String → Selection
  | [] => ⟨.ok resolved, loaded⟩
  | id :: rest =>
    match deps.get calls id with
    | .failure error => ⟨.error ("SELECTION_ERROR: " ++ error), loaded⟩
    | .success none => ⟨.error "SELECTION_ERROR: Change not found", loaded⟩
    | .success (some change) =>
      if change.status ≠ .draft then ⟨.error (protectedError change.id change.status), loaded ++ [change]⟩
      else if change.id ∈ resolved then resolveExplicit (calls + 1) resolved (loaded ++ [change]) rest
      else resolveExplicit (calls + 1) (resolved ++ [change.id]) (loaded ++ [change]) rest

variable (filter : ChangeFilter)

def ChangeFilter.isStale (filter : ChangeFilter) : Bool :=
  (given filter.createdBefore).isSome || (given filter.lastActivityBefore).isSome

def startsWith (start text : String) : Bool := start.toList.isPrefixOf text.toList

def containsText (part text : String) : Bool := text.toList.tails.any fun rest => part.toList.isPrefixOf rest

/-- The listed summaries whose id and title fit. -/
def candidates : List SelectableSummary :=
  (deps.list filter.status).filter fun summary =>
    ((given filter.startsWith).all fun start => startsWith start summary.id) &&
      (given filter.titleContains).all fun part => containsText part summary.title

def candidateIds : List String := (candidates deps filter).map SelectableSummary.id

/-- The changes that the first round of a filter by age loads. -/
def fullChanges : List SelectableChange := loadEach deps 0 (candidateIds deps filter)

def createdFits (change : SelectableChange) : Bool :=
  (given filter.createdBefore).all fun cutoff => isBefore (deps.getTime change.created_at) (deps.getTime cutoff)

def activityFits (change : SelectableChange) : Bool :=
  (given filter.lastActivityBefore).all fun cutoff =>
    isBefore (getLastActivityTimestamp deps change) (deps.getTime cutoff)

def chosenIds : List String :=
  if filter.isStale then
    let eligibleIds := ((fullChanges deps filter).filter (activityFits deps filter)).map SelectableChange.id
    if (given filter.createdBefore).isSome then
      let changeIds := ((fullChanges deps filter).filter (createdFits deps filter)).map SelectableChange.id
      if (given filter.lastActivityBefore).isSome then changeIds.filter fun id => id ∈ eligibleIds else changeIds
    else distinctOf eligibleIds
  else candidateIds deps filter

/-- How often `get` was called before the last round. -/
def callsBefore : Nat := if filter.isStale then (candidateIds deps filter).length else 0

/-- The changes that the last round loads. -/
def gateChanges : List SelectableChange := loadEach deps (callsBefore deps filter) (chosenIds deps filter)

def loadedChanges : List SelectableChange :=
  (if filter.isStale then fullChanges deps filter else []) ++ gateChanges deps filter

def resolveFilter : Selection :=
  if (given filter.status).isNone && !filter.isStale then
    ⟨.error ("SELECTION_ERROR: Filter-based bulk close requires either a status filter or a staleness filter " ++
      "(createdBefore / lastActivityBefore)."), []⟩
  else
    match protectedAmong deps (callsBefore deps filter) (chosenIds deps filter) with
    | some error => ⟨.error error, loadedChanges deps filter⟩
    | none =>
      if chosenIds deps filter = [] then
        ⟨.error "SELECTION_ERROR: Empty result set — no changes matched the provided filter.",
          loadedChanges deps filter⟩
      else ⟨.ok (chosenIds deps filter), loadedChanges deps filter⟩

def resolveChangeSelection : BulkCloseSelector → Selection
  | .explicit changeIds => resolveExplicit deps 0 [] [] changeIds
  | .filter filter => resolveFilter deps filter

end

end Advance.Storage
