import Advance.Storage.StoreDisk
import Advance.Utils.GitWorktreeFlock
import Mathlib.Data.Nat.Digits.Defs

/-! # The worktree lease

A lease is a JSON file in the directory of leases, named after the path of the worktree.
Each operation reads the file, decides on what it has read and then renames a new file over
it or unlinks it; processes take turns between any two of these steps, and may die.
-/

namespace Advance.Utils.WorktreeLease

open Advance.Storage

structure LeaseRecord where
  pid : Nat
  sessionId : String
  acquiredAt : Nat
  heartbeatAt : Nat
  deriving DecidableEq

/-! ## The name of a lease file -/

/-- `path.basename` -/
def basename (path : String) : List Char :=
  ((path.toList.reverse.dropWhile (· = '/')).takeWhile (· ≠ '/')).reverse

/-- `((hash << 5) - hash + c) | 0` -/
def hashStep (hash : Int) (c : Nat) : Int := (31 * hash + c).bmod (2 ^ 32)

def pathHash (worktreePath : String) : Int := (utf16Units worktreePath).foldl hashStep 0

def base36Digit (n : Nat) : Char :=
  if n < 10 then Char.ofNat ('0'.toNat + n) else Char.ofNat ('a'.toNat + (n - 10))

/-- `n.toString(36)` -/
def toBase36 (n : Nat) : List Char :=
  if n = 0 then ['0'] else (Nat.digits 36 n).reverse.map base36Digit

def leaseFileName (worktreePath : String) : String :=
  String.ofList (basename worktreePath ++ '-' :: (toBase36 (pathHash worktreePath).natAbs).take 8 ++ ".json".toList)

/-! ## Operations -/

inductive LeaseAction where
  | acquire (sessionId : String) (staleHeartbeatMs : Nat)
  | reclaim (newSessionId : String) (staleHeartbeatMs : Nat) (allowDeadPidReclaim : Bool)
  | refresh
  | release
  deriving DecidableEq

structure LeaseCall where
  worktreePath : String
  action : LeaseAction

def LeaseCall.fileName (call : LeaseCall) : String := leaseFileName call.worktreePath

inductive LeaseResult where
  | acquired (lease : LeaseRecord)
  | reclaimed (previousLease : Option LeaseRecord) (newLease : LeaseRecord)
  | blocked (existingLease : LeaseRecord)
  | refreshed (done : Bool)
  | released (done : Bool)
  deriving DecidableEq

/-- What an operation does about the file it has read. -/
inductive LeaseDecision where
  | answer (result : LeaseResult)
  | write
  | unlink
  deriving DecidableEq

/-- `existing.pid === pid`, for a file that is there -/
def isOwn (pid : Nat) (existing : Option LeaseRecord) : Bool :=
  existing.any fun lease => lease.pid = pid

/-- `now - existing.heartbeatAt < staleHeartbeatMs` -/
def isFresh (now staleHeartbeatMs heartbeatAt : Nat) : Bool := now < heartbeatAt + staleHeartbeatMs

/-- The decision of each operation; `alive` is the answer of `isProcessAlive`. -/
def LeaseAction.decide (pid now : Nat) (existing : Option LeaseRecord) (alive : Bool) : LeaseAction → LeaseDecision
  | .acquire _ staleHeartbeatMs =>
    match existing with
    | none => .write
    | some lease =>
      if lease.pid ≠ pid ∧ isFresh now staleHeartbeatMs lease.heartbeatAt then .answer (.blocked lease)
      else .write
  | .reclaim _ staleHeartbeatMs allowDeadPidReclaim =>
    match existing with
    | none => .write
    | some lease =>
      if isFresh now staleHeartbeatMs lease.heartbeatAt && !(allowDeadPidReclaim && !alive) then
        .answer (.blocked lease)
      else .write
  | .refresh => if isOwn pid existing then .write else .answer (.refreshed false)
  | .release => if isOwn pid existing then .unlink else .answer (.released false)

/-- The record that is written over what was read. -/
def LeaseAction.record (pid now : Nat) (existing : Option LeaseRecord) : LeaseAction → LeaseRecord
  | .acquire sessionId _ =>
    match existing.filter fun lease => lease.pid = pid with
    | some lease => { lease with heartbeatAt := now, sessionId := sessionId }
    | none => ⟨pid, sessionId, now, now⟩
  | .reclaim newSessionId _ _ => ⟨pid, newSessionId, now, now⟩
  | .refresh | .release =>
    match existing with
    | some lease => { lease with heartbeatAt := now }
    | none => ⟨pid, "", now, now⟩

def LeaseAction.written (existing : Option LeaseRecord) (record : LeaseRecord) : LeaseAction → LeaseResult
  | .acquire _ _ => .acquired record
  | .reclaim _ _ _ => .reclaimed existing record
  | .refresh | .release => .refreshed true

/-! ## The system -/

/-- Where a process is, with what it has read.  `held` tells the heartbeats with which
    processes held the lease of the path at that moment. -/
inductive LeasePhase where
  | idle
  | deciding (call : LeaseCall) (existing : Option LeaseRecord) (held : Nat → Option Nat)
  | stamping (call : LeaseCall) (existing : Option LeaseRecord)
  | writing (call : LeaseCall) (existing : Option LeaseRecord) (record : LeaseRecord)
  | unlinking (call : LeaseCall) (existing : Option LeaseRecord)

/-- The clock, the directory of leases and the processes.  `belief` is the heartbeat that a
    process has last written for a path, while it believes to hold the lease. -/
structure LeaseSystem where
  now : Nat
  file : String → Option LeaseRecord
  alive : Nat → Bool
  phase : Nat → LeasePhase
  belief : Nat → String → Option Nat

inductive LeaseMove where
  | tick
  | die (pid : Nat)
  | call (pid : Nat) (call : LeaseCall)
  /-- `kill` is what a probe of the other process answers if that is dead. -/
  | advance (pid : Nat) (kill : KillResult)
  /-- An access to the file system throws. -/
  | abandon (pid : Nat)

namespace LeaseSystem

def start : LeaseSystem := ⟨0, fun _ => none, fun _ => true, fun _ => .idle, fun _ _ => none⟩

def goto (system : LeaseSystem) (pid : Nat) (phase : LeasePhase) : LeaseSystem :=
  { system with phase := Function.update system.phase pid phase }

def believe (system : LeaseSystem) (pid : Nat) (worktreePath : String) (heartbeat : Option Nat) : LeaseSystem :=
  let beliefs := Function.update (system.belief pid) worktreePath heartbeat
  { system with belief := Function.update system.belief pid beliefs }

def put (system : LeaseSystem) (fileName : String) (content : Option LeaseRecord) : LeaseSystem :=
  { system with file := Function.update system.file fileName content }

/-- `isProcessAlive` of the process that is recorded. -/
def probe (system : LeaseSystem) (existing : Option LeaseRecord) (kill : KillResult) : Bool :=
  existing.all fun lease => system.alive lease.pid || GitWorktreeFlock.isProcessAlive kill

section

variable (system : LeaseSystem) (pid : Nat) (phase : LeasePhase) (worktreePath fileName : String)
  (heartbeat : Option Nat) (content : Option LeaseRecord)

@[simp] theorem goto_now : (system.goto pid phase).now = system.now := rfl

@[simp] theorem goto_file : (system.goto pid phase).file = system.file := rfl

@[simp] theorem goto_alive : (system.goto pid phase).alive = system.alive := rfl

@[simp] theorem goto_belief : (system.goto pid phase).belief = system.belief := rfl

@[simp] theorem goto_phase : (system.goto pid phase).phase = Function.update system.phase pid phase := rfl

@[simp] theorem believe_now : (system.believe pid worktreePath heartbeat).now = system.now := rfl

@[simp] theorem believe_file : (system.believe pid worktreePath heartbeat).file = system.file := rfl

@[simp] theorem believe_alive : (system.believe pid worktreePath heartbeat).alive = system.alive := rfl

@[simp] theorem believe_phase : (system.believe pid worktreePath heartbeat).phase = system.phase := rfl

@[simp] theorem put_now : (system.put fileName content).now = system.now := rfl

@[simp] theorem put_alive : (system.put fileName content).alive = system.alive := rfl

@[simp] theorem put_phase : (system.put fileName content).phase = system.phase := rfl

@[simp] theorem put_belief : (system.put fileName content).belief = system.belief := rfl

@[simp] theorem put_file : (system.put fileName content).file = Function.update system.file fileName content := rfl

theorem believe_belief (other : Nat) (path : String) : (system.believe pid worktreePath heartbeat).belief other path =
      if other = pid ∧ path = worktreePath then heartbeat else system.belief other path := by
  by_cases isPid : other = pid
  · subst isPid
    by_cases isPath : path = worktreePath
    · subst isPath
      simp [believe]
    · simp [believe, isPath]
  · simp [believe, isPid]

end

end LeaseSystem

/-- A process that is refused, or told that the lease is not its own, knows it has none. -/
def answerCall (pid : Nat) (call : LeaseCall) (existing : Option LeaseRecord) (system : LeaseSystem) : LeaseSystem :=
  if isOwn pid existing then system.goto pid .idle
  else (system.goto pid .idle).believe pid call.worktreePath none

def advanceStep (pid : Nat) (kill : KillResult) (system : LeaseSystem) : Option LeaseResult × LeaseSystem :=
  match system.phase pid with
  | .idle => (none, system)
  | .deciding call existing _ =>
    match call.action.decide pid system.now existing (system.probe existing kill) with
    | .answer result => (some result, answerCall pid call existing system)
    | .write => (none, system.goto pid (.stamping call existing))
    | .unlink => (none, system.goto pid (.unlinking call existing))
  | .stamping call existing =>
    (none, system.goto pid (.writing call existing (call.action.record pid system.now existing)))
  | .writing call existing record =>
    (some (call.action.written existing record), ((system.goto pid .idle).put call.fileName (some record)).believe
      pid call.worktreePath (some record.heartbeatAt))
  | .unlinking call _ =>
    (some (.released true), ((system.goto pid .idle).put call.fileName none).believe pid call.worktreePath none)

def leaseStep (move : LeaseMove) (system : LeaseSystem) : Option LeaseResult × LeaseSystem :=
  match move with
  | .tick => (none, { system with now := system.now + 1 })
  | .die pid => (none, { system.goto pid .idle with alive := Function.update system.alive pid false })
  | .call pid call =>
    match system.alive pid, system.phase pid with
    | true, .idle => (none, system.goto pid (.deciding call (system.file call.fileName)
        fun other => system.belief other call.worktreePath))
    | _, _ => (none, system)
  | .advance pid kill => advanceStep pid kill system
  | .abandon pid => (none, system.goto pid .idle)

end Advance.Utils.WorktreeLease
