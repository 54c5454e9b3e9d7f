import Advance.Utils.FileLock

/-! # The worktree lock

`acquireGitWorktreeFlock` makes the lock file by an exclusive create and writes a record
into it; `acquireGitWorktreeProcessLease` has a child process take the kernel's lock on a
file at the same path.  The steps of any number of calls take turns, signals abort the
calls, children die and processes crash.
-/

namespace Advance.Utils.GitWorktreeFlock

/-- The record in a lock file, as far as it is read. -/
structure LockRecord where
  pid : Option Nat
  worker_id : Option String
  owner_token : Option String
  deriving DecidableEq

/-- Only `ESRCH` counts as a dead process. -/
def isProcessAlive (kill : KillResult) : Bool := kill ≠ .noSuchProcess

inductive LockCall where
  | flock (workerId ownerToken : String)
  | lease (linux : Bool)
  deriving DecidableEq

/-- The calls, the process of each, and the processes' ids. -/
structure LockUsers (Agent Process : Type) where
  process : Agent → Process
  pid : Process → Nat
  call : Agent → LockCall

/-- Where a call is.  Files are named by their inodes; `again` is the second create, after
    a reclaim. -/
inductive Phase where
  | idle
  | opening
  | created (inode : Nat) (again : Bool)
  | wrote (inode : Nat) (again : Bool)
  | caught (own : Option Nat)
  | removedOnce
  | testing (inode : Nat) (existing : LockRecord)
  | reclaiming (inode : Nat) (existing : LockRecord)
  | comparing (moved : Nat) (existing : LockRecord)
  | recreating
  | restoring (moved : Nat)
  | rereading
  | owned (inode : Nat)
  | removing (inode : Nat)
  | awaiting
  | leased
  | terminating (thrown : Bool)
  | released
  | refused (ownerPid : Int) (workerId : Option String)
  | failed
  deriving DecidableEq

/-- The process group that holds a lease's kernel lock. -/
inductive Holder where
  | absent
  | starting
  | opened (inode : Nat)
  | locked (inode : Nat) (ready : Bool)
  | exited (ready conflict : Bool)
  deriving DecidableEq

/-- The lock path and the files it has led to, with the state of everyone around.  A file
    without content is one whose text does not parse. -/
structure LockDirectory (Agent Process : Type) where
  path : Option Nat
  content : Nat → Option LockRecord
  nextInode : Nat
  kernel : Nat → Option Agent
  holder : Agent → Holder
  phase : Agent → Phase
  aborted : Agent → Bool
  crashed : Process → Bool

inductive LockEvent (Agent Process : Type) where
  | advance (agent : Agent) (fault : Bool) (kill : KillResult)
  | hold (agent : Agent) (fault : Bool)
  | abort (agent : Agent)
  | holderDies (agent : Agent)
  | crash (process : Process)

section

variable {Agent Process : Type} [DecidableEq Agent]

/-- Nothing has been called yet; an earlier run may have left a file. -/
def LockDirectory.initial (leftOver : Option (Option LockRecord)) : LockDirectory Agent Process where
  path := leftOver.map fun _ => 0
  content := Function.update (fun _ => none) 0 (leftOver.getD none)
  nextInode := 1
  kernel := fun _ => none
  holder := fun _ => .absent
  phase := fun _ => .idle
  aborted := fun _ => false
  crashed := fun _ => false

namespace LockDirectory

def goto (state : LockDirectory Agent Process) (agent : Agent) (phase : Phase) : LockDirectory Agent Process :=
  { state with phase := Function.update state.phase agent phase }

@[simp] theorem goto_self (state : LockDirectory Agent Process) (agent : Agent) (phase : Phase) :
    (state.goto agent phase).phase agent = phase := Function.update_self ..

theorem goto_other (state : LockDirectory Agent Process) {agent other : Agent}
    (differs : other ≠ agent) (phase : Phase) :
    (state.goto agent phase).phase other = state.phase other := Function.update_of_ne differs ..

/-- A new file at the path, still empty. -/
def create (state : LockDirectory Agent Process) : LockDirectory Agent Process :=
  { state with
    path := some state.nextInode
    content := Function.update state.content state.nextInode none
    nextInode := state.nextInode + 1 }

/-- Remove whatever the path leads to. -/
def unlink (state : LockDirectory Agent Process) (agent : Agent) (phase : Phase) :
    Option Nat × LockDirectory Agent Process :=
  (state.path, { state.goto agent phase with path := none })

/-- The child has exited, and with it went its lock. -/
def killHolder (state : LockDirectory Agent Process) (agent : Agent) : LockDirectory Agent Process :=
  match state.holder agent with
  | .starting | .opened _ =>
    { state with holder := Function.update state.holder agent (.exited false false) }
  | .locked inode ready =>
    { state with
      holder := Function.update state.holder agent (.exited ready false)
      kernel := Function.update state.kernel inode none }
  | .absent | .exited _ _ => state

end LockDirectory

/-- `{ owned: false, ownerPid: existing?.pid ?? -1, workerId: existing?.worker_id }` -/
def refuse (existing : Option LockRecord) : Phase :=
  .refused ((existing.bind (·.pid)).elim (-1) (↑·)) (existing.bind (·.worker_id))

/-- A step of `acquireGitWorktreeFlock`, or of the release that follows it.  The response is
    the file that went from the path. -/
def flockStep (record : LockRecord) (agent : Agent) (fault : Bool) (kill : KillResult)
    (state : LockDirectory Agent Process) : Option Nat × LockDirectory Agent Process :=
  let aborted := state.aborted agent
  match state.phase agent with
  | .idle => (none, state.goto agent (if aborted || fault then .failed else .opening))
  | .opening =>
    if fault || state.path.isSome then (none, state.goto agent (.caught none))
    else (none, state.create.goto agent (.created state.nextInode false))
  | .created inode again =>
    if aborted || fault then
      (none, state.goto agent (if again then .rereading else .caught (some inode)))
    else (none, { state.goto agent (.wrote inode again) with
      content := Function.update state.content inode (some record) })
  | .wrote inode again =>
    if fault then (none, state.goto agent (if again then .rereading else .caught (some inode)))
    else if aborted then state.unlink agent (if again then .rereading else .removedOnce)
    else (none, state.goto agent (.owned inode))
  -- The handler reads the file of whoever was faster, unless the signal is aborted.
  | .caught own =>
    if aborted then
      match own with
      | none => (none, state.goto agent .failed)
      | some _ => if fault then (none, state.goto agent .failed) else state.unlink agent .failed
    else
      match (if fault then none else state.path) with
      | none => (none, state.goto agent (refuse none))
      | some inode =>
        match state.content inode with
        | none => (none, state.goto agent (refuse none))
        | some existing =>
          (none, state.goto agent (if existing.pid.isNone then refuse (some existing) else .testing inode existing))
  -- An abort after the write removes the file, and its error is caught: removed again.
  | .removedOnce =>
    if fault then (none, state.goto agent .failed) else state.unlink agent .failed
  | .testing inode existing =>
    (none, state.goto agent (if isProcessAlive kill then refuse (some existing) else .reclaiming inode existing))
  | .reclaiming _ existing =>
    match (if aborted || fault then none else state.path) with
    | none => (none, state.goto agent .rereading)
    | some moved => state.unlink agent (.comparing moved existing)
  | .comparing moved existing =>
    match (if fault then none else state.content moved) with
    | none => (none, state.goto agent .rereading)
    | some reclaimed =>
      (none, state.goto agent (if reclaimed.pid = existing.pid ∧ reclaimed.owner_token = existing.owner_token then
          .recreating else .restoring moved))
  | .recreating =>
    if aborted || fault || state.path.isSome then (none, state.goto agent .rereading)
    else (none, state.create.goto agent (.created state.nextInode true))
  | .restoring moved =>
    if fault then (none, state.goto agent .rereading)
    else (state.path, { state.goto agent .rereading with path := some moved })
  | .rereading =>
    (none, state.goto agent (refuse (if fault then none else state.path.bind state.content)))
  | .owned inode =>
    let existing := if fault then none else state.path.bind state.content
    (none, state.goto agent
      (if existing.bind (·.owner_token) = record.owner_token then .removing inode else .released))
  | .removing _ =>
    if fault then (none, state.goto agent .released) else state.unlink agent .released
  | .awaiting | .leased | .terminating _ | .released | .refused _ _ | .failed => (none, state)

/-- A step of `acquireGitWorktreeProcessLease`, or of `terminate`.  A fault while the child
    is awaited is the abort of the operation that the lease is registered with. -/
def leaseStep (linux : Bool) (agent : Agent) (fault : Bool) (state : LockDirectory Agent Process) :
    LockDirectory Agent Process :=
  let aborted := state.aborted agent
  match state.phase agent with
  | .idle =>
    if aborted || !linux || fault then state.goto agent .failed
    else { state.goto agent .awaiting with
      holder := Function.update state.holder agent .starting }
  | .awaiting =>
    if fault then state.goto agent (.terminating true) else
    match state.holder agent with
    | .locked _ true | .exited true _ =>
      state.goto agent (if aborted then .terminating true else .leased)
    | .exited false conflict => state.goto agent (if conflict then refuse none else .failed)
    | .absent | .starting | .opened _ | .locked _ false => state
  | .leased => state.goto agent (.terminating false)
  | .terminating thrown => (state.killHolder agent).goto agent (if thrown then .failed else .released)
  | _ => state

/-- A step of `flock -n lockPath sh -c …`. -/
def holdStep (agent : Agent) (fault : Bool) (state : LockDirectory Agent Process) : LockDirectory Agent Process :=
  let become := fun (holder : Holder) (state : LockDirectory Agent Process) =>
    { state with holder := Function.update state.holder agent holder }
  match state.holder agent with
  | .starting =>
    if fault then state.killHolder agent else
    match state.path with
    | some inode => become (.opened inode) state
    | none => become (.opened state.nextInode) state.create
  | .opened inode =>
    if fault then state.killHolder agent else
    match state.kernel inode with
    | some _ => become (.exited false true) state
    | none => { become (.locked inode false) state with
        kernel := Function.update state.kernel inode (some agent) }
  | .locked inode false => if fault then state.killHolder agent else become (.locked inode true) state
  | .absent | .locked _ true | .exited _ _ => state

variable (users : LockUsers Agent Process)

/-- `{ pid, worker_id, owner_token }` of a call. -/
def LockUsers.record (agent : Agent) : LockRecord :=
  match users.call agent with
  | .flock workerId ownerToken =>
    ⟨some (users.pid (users.process agent)), some workerId, some ownerToken⟩
  | .lease _ => ⟨some (users.pid (users.process agent)), none, none⟩

/-- One step of the system.  Calls of a crashed process do nothing any more; its children
    go on. -/
def lockStep [DecidableEq Process] (event : LockEvent Agent Process) (state : LockDirectory Agent Process) :
    Option Nat × LockDirectory Agent Process :=
  match event with
  | .advance agent fault kill =>
    if state.crashed (users.process agent) then (none, state) else
    match users.call agent with
    | .flock _ _ => flockStep (users.record agent) agent fault kill state
    | .lease linux => (none, leaseStep linux agent fault state)
  | .hold agent fault => (none, holdStep agent fault state)
  | .abort agent => (none, { state with aborted := Function.update state.aborted agent true })
  | .holderDies agent => (none, state.killHolder agent)
  | .crash process => (none, { state with crashed := Function.update state.crashed process true })

end

end Advance.Utils.GitWorktreeFlock
