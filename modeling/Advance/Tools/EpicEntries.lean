import Advance.Types.Epics

/-! # Finding an entry of an Epic
-/

namespace Advance.Tools

open Advance.Types

def getEpicEntryChangeId (entry : EpicChangeEntry) : Option String :=
  entry.change_id.or (entry.change_ref.map EpicChangeRef.change_id)

inductive EpicEntryQuery where
  | entryId (entryId : Option String)
  | entryIdOrChangeId (entryId changeId : Option String)

/-- An empty selector selects nothing. -/
def selected (selector : Option String) (id : Option String) : Bool := truthy selector && decide (id = selector)

def EpicEntryQuery.matches (query : EpicEntryQuery) (entry : EpicChangeEntry) : Bool :=
  match query with
  | .entryId wanted => selected wanted entry.entry_id
  | .entryIdOrChangeId wanted changeId =>
    selected wanted entry.entry_id || selected changeId (getEpicEntryChangeId entry)

def findChangeEntry (entries : List EpicEntry) (query : EpicEntryQuery) : Option EpicChangeEntry :=
  entries.findSome? fun
    | .change entry => if query.matches entry then some entry else none
    | .shell _ => none

end Advance.Tools
