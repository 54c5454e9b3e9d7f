import Mathlib.Algebra.GroupWithZero.Nat
import Advance.JavaScript.Schema
import Advance.Types.WorkGraph

/-! # Epics

An Epic is a roadmap: entries that are changes or shells, with a summary of
progress.  Each record has the fields of its schema in the order of the source.
-/

namespace Advance.Types

open Advance.JavaScript Advance.JavaScript.Schema

def utf16Length (text : String) : Nat :=
  (text.toList.map fun c => if c.toNat < 0x10000 then 1 else 2).sum

/-- `z.number().int().min(0)` -/
def isCount (value : JsNumber) : Bool := value.den = 1 && 0 ≤ value && value ≤ maxSafeInteger

/-! ## Future work -/

structure FutureWorkReference where
  label : String
  locator : String
  deriving DecidableEq

structure CrossProjectTarget where
  project_hint : Option String
  target_path : Option String
  repo_url : Option String
  deriving DecidableEq

structure FutureWorkContextPacket where
  background : Option String
  references : Option (List FutureWorkReference)
  constraints : Option (List String)
  avoidances : Option (List String)
  design_seed : Option String
  cross_project_target : Option CrossProjectTarget
  deriving DecidableEq

def atMost (limit : Nat) (text : String) : Bool := utf16Length text ≤ limit

def between (limit : Nat) (text : String) : Bool := text ≠ "" && atMost limit text

/-- What `FutureWorkContextPacketSchema` accepts. -/
def FutureWorkContextPacket.valid (packet : FutureWorkContextPacket) : Bool :=
  packet.background.all (atMost 4096) && packet.references.all (fun references => references.length ≤ 12 &&
      references.all fun reference =>
        between 200 reference.label && between 2048 reference.locator) &&
    packet.constraints.all (fun items => items.length ≤ 12 && items.all (between 512)) &&
    packet.avoidances.all (fun items => items.length ≤ 12 && items.all (between 512)) &&
    packet.design_seed.all (atMost 6144) &&
    packet.cross_project_target.all fun target =>
      target.project_hint.all (atMost 200) && target.target_path.all (atMost 1024) &&
        target.repo_url.all (atMost 2048)

/-! ## Entries -/

structure EpicChangeRef where
  change_id : String
  project_id : String
  repo_id : Option String
  target_path : Option String
  deriving DecidableEq

inductive EpicMembershipStatus where
  | linked
  | projectionPending
  | projectionStale
  | targetUnreachable
  | unlinked
  | terminal
  deriving DecidableEq

structure ShellPromotionProvenance where
  shell_entry_id : String
  shell_title : String
  shell_success_hint : String
  promoted_at : String
  promoted_by : String
  change_id : String
  deriving DecidableEq

inductive TerminalStatus where
  | archived
  | closed
  deriving DecidableEq

structure TerminalSummary where
  status : TerminalStatus
  completed_at : String
  deriving DecidableEq

structure EpicChangeEntry where
  entry_id : String
  order : JsNumber
  change_id : Option String
  change_ref : Option EpicChangeRef
  title : Option String
  membership_status : Option EpicMembershipStatus
  linked_at : Option String
  linked_by : Option String
  link_evidence : Option String
  promotion : Option ShellPromotionProvenance
  terminal_summary : Option TerminalSummary
  retargeted_from_change_id : Option String
  retargeted_at : Option String
  retargeted_by : Option String
  retarget_evidence : Option String
  deriving DecidableEq

structure BacklogImport where
  backlog_id : String
  imported_at : String
  deriving DecidableEq

structure EpicShellEntry where
  entry_id : String
  order : JsNumber
  title : String
  success_hint : String
  imported_from : Option BacklogImport
  blocked_by : List WorkNodeRef
  context_packet : Option FutureWorkContextPacket
  deriving DecidableEq

inductive EpicEntry where
  | change (entry : EpicChangeEntry)
  | shell (entry : EpicShellEntry)
  deriving DecidableEq

namespace EpicEntry

def entry_id : EpicEntry → String
  | .change entry => entry.entry_id
  | .shell entry => entry.entry_id

def order : EpicEntry → JsNumber
  | .change entry => entry.order
  | .shell entry => entry.order

/-- `{ ...entry, order }` -/
def withOrder (order : JsNumber) : EpicEntry → EpicEntry
  | .change entry => .change { entry with order }
  | .shell entry => .shell { entry with order }

def terminal : EpicEntry → Bool
  | .change entry => entry.terminal_summary.isSome
  | .shell _ => false

def inFlight : EpicEntry → Bool
  | .change entry => entry.terminal_summary.isNone
  | .shell _ => false

end EpicEntry

/-- A text a JavaScript condition takes for true. -/
def truthy (text : Option String) : Bool := text.any (· ≠ "")

/-- What `EpicChangeEntrySchema` accepts. -/
def EpicChangeEntry.valid (entry : EpicChangeEntry) : Bool :=
  isCount entry.order && (truthy entry.change_id || entry.change_ref.isSome) && (entry.change_ref.isNone ||
      (truthy entry.title && entry.membership_status.isSome && truthy entry.linked_at &&
        truthy entry.linked_by && truthy entry.link_evidence))

/-- What `EpicShellEntrySchema` accepts. -/
def EpicShellEntry.valid (entry : EpicShellEntry) : Bool :=
  isCount entry.order && entry.blocked_by.all WorkNodeRef.valid &&
    entry.context_packet.all FutureWorkContextPacket.valid

def EpicEntry.valid : EpicEntry → Bool
  | .change entry => entry.valid
  | .shell entry => entry.valid

/-! ## The Epic -/

inductive EpicStatus where
  | active
  | completed
  | archived
  | merged
  deriving DecidableEq

structure EpicProgressSummary where
  status : EpicStatus
  total_entries : Nat
  completed_entries : Nat
  active_entries : Nat
  next_entry_id : Option String
  updated_at : String
  deriving DecidableEq

inductive EpicScopeKind where
  | repo
  | product
  deriving DecidableEq

inductive EpicRepoRole where
  | primary
  | secondary
  deriving DecidableEq

structure EpicScopeRepo where
  repo_id : String
  repo_project_id : String
  path : Option String
  role : EpicRepoRole
  required : Bool
  deriving DecidableEq

structure EpicScope where
  kind : EpicScopeKind
  owner_project_id : String
  owner_repo_id : Option String
  repos : List EpicScopeRepo
  deriving DecidableEq

structure EpicMergedInto where
  epic_id : String
  merged_at : String
  merged_by : String
  evidence : String
  moved_entry_count : JsNumber
  deriving DecidableEq

structure Epic where
  id : String
  title : String
  narrative : String
  epic_scope : Option EpicScope
  merged_into : Option EpicMergedInto
  entries : List EpicEntry
  progress : EpicProgressSummary
  created_at : String
  updated_at : String
  version : Nat
  deriving DecidableEq

def EpicProgressSummary.valid (progress : EpicProgressSummary) : Bool :=
  isCount progress.total_entries && isCount progress.completed_entries && isCount progress.active_entries

/-- What `EpicSchema` accepts. -/
def Epic.valid (epic : Epic) : Bool :=
  epic.merged_into.all (fun merged => isCount merged.moved_entry_count) &&
    epic.entries.all EpicEntry.valid && epic.progress.valid && isCount epic.version

/-! ## The membership a child carries -/

inductive MembershipSource where
  | create
  | promoteShell
  | linkExisting
  | move
  deriving DecidableEq

structure EpicMembership where
  epic_id : String
  entry_id : String
  order : JsNumber
  title : String
  linked_at : String
  epic_project_id : Option String
  repo_id : Option String
  source : Option MembershipSource
  deriving DecidableEq

/-! ## Retired Epics -/

inductive RetiredEpicProjectionStatus where
  | prepared
  | retired
  deriving DecidableEq

structure RetiredEpicProjection where
  epic_snapshot : Epic
  retired_at : String
  retired_by : String
  evidence : String
  source_workflow_id : String
  source_version : Nat
  projection_status : RetiredEpicProjectionStatus
  deriving DecidableEq

/-- What `RetiredEpicProjectionSchema` accepts. -/
def RetiredEpicProjection.valid (projection : RetiredEpicProjection) : Bool :=
  projection.epic_snapshot.valid && isCount projection.source_version

end Advance.Types
