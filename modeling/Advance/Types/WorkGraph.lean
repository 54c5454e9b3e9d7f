import Mathlib.Data.List.Basic

/-! # References to nodes of the work graph

A node is an entry of an Epic or a change of a project.
-/

namespace Advance.Types

inductive WorkNodeRef where
  | epicEntry (epic_id entry_id : String)
  | change (project_id change_id : String)
  deriving DecidableEq

/-- `/^[0-9a-f]{40}$/` -/
def isProjectId (text : String) : Bool :=
  text.length = 40 && text.toList.all fun c => ('0' ≤ c && c ≤ '9') || ('a' ≤ c && c ≤ 'f')

/-- What `WorkNodeRefSchema` accepts. -/
def WorkNodeRef.valid : WorkNodeRef → Bool
  | .epicEntry epicId entryId => epicId ≠ "" && entryId ≠ ""
  | .change projectId changeId => isProjectId projectId && changeId ≠ ""

end Advance.Types
