import Mathlib.Data.List.TakeWhile
import Mathlib.Logic.Function.Basic
import Advance.Foundation.Run
import Advance.Utils.SyntheticFixtureDetector

/-! # The lock file

`acquireFileLock` and the release it returns, one file-system access at a time, for
any number of calls of any number of processes on one lock path.  Faults, clock and
the answers of `process.kill` are part of the event; processes may crash between any
two steps.
-/

namespace Advance.Utils

def STALE_LOCK_MS : Int := 30000

/-! ## The content of the file -/

/-- `parseInt(text, 10)`, `none` for `NaN`. -/
def parseInt (text : List Char) : Option Int :=
  let magnitude := fun digits => (Nat.ofDigitChars 10 digits 0 : Int)
  let signed : Int × List Char :=
    match text.dropWhile isJsWhitespace with
    | '-' :: rest => (-1, rest)
    | '+' :: rest => (1, rest)
    | rest => (1, rest)
  let digits := signed.2.takeWhile Char.isDigit
  if digits.isEmpty then none else some (signed.1 * magnitude digits)

/-- `${process.pid}\n${Date.now()}` -/
def lockText (pid now : Nat) : List Char := Nat.toDigits 10 pid ++ '\n' :: Nat.toDigits 10 now

def lockPid (content : List Char) : Option Int := parseInt ((content.splitOn '\n')[0]?.getD [])

def lockTimestamp (content : List Char) : Option Int := parseInt ((content.splitOn '\n')[1]?.getD [])

/-- How `process.kill(pid, 0)` ends. -/
inductive KillResult where
  | delivered
  | noSuchProcess
  | notPermitted
  deriving DecidableEq

/-- Any error of the probe counts as a dead process. -/
def processAlive (pid : Option Int) (kill : KillResult) : Bool :=
  match pid with
  | some pid => 0 < pid && kill = .delivered
  | none => false

def judgedStale (content : List Char) (now : Nat) (kill : KillResult) : Bool :=
  match lockTimestamp content with
  | some timestamp => STALE_LOCK_MS < now - timestamp && !processAlive (lockPid content) kill
  | none => false

/-! ## The system -/

/-- A lock file, and which exclusive creation on this path it comes from.  The code
    never sees the latter: it reads and unlinks by path. -/
structure LockFile where
  creation : Nat
  content : List Char
  deriving DecidableEq

/-- Where a call is: between attempts, after its exclusive create (whose content is
    written next), on the way from `EEXIST` over the read and the staleness test to the
    unlink, or past the acquisition. -/
inductive LockPhase where
  | attempting
  | writing (creation : Nat)
  | inspecting
  | testing (creation : Nat) (content : List Char)
  | reclaiming (creation : Nat)
  | holding (creation : Nat)
  | released
  | failed
  deriving DecidableEq

/-- The calls, the process each belongs to, and the processes' ids. -/
structure Participants (Agent Process : Type) where
  process : Agent → Process
  pid : Process → Nat
  pid_pos : ∀ p, 0 < pid p

structure LockState (Agent Process : Type) where
  file : Option LockFile
  nextCreation : Nat
  phase : Agent → LockPhase
  crashed : Process → Bool

inductive LockAction where
  | create (fault : Bool)
  | write (now : Nat) (fault : Bool)
  | read (fault : Bool)
  | test (now : Nat) (kill : KillResult)
  | unlink (fault : Bool)
  | release (fault : Bool)
  | giveUp

inductive LockEvent (Agent Process : Type) where
  | act (agent : Agent) (action : LockAction)
  | crash (process : Process)

section

variable {Agent Process : Type} [DecidableEq Agent] [DecidableEq Process]

/-- Every call before its first attempt, over whatever earlier runs left behind. -/
def LockState.initial (leftOver : Option (List Char)) (crashed : Process → Bool) : LockState Agent Process :=
  { file := leftOver.map (⟨0, ·⟩), nextCreation := 1, phase := fun _ => .attempting, crashed := crashed }

def LockState.goto (state : LockState Agent Process) (agent : Agent) (phase : LockPhase) : LockState Agent Process :=
  { state with phase := Function.update state.phase agent phase }

/-- The exclusive create: a new, still empty file, or `EEXIST`. -/
def createLock (agent : Agent) (state : LockState Agent Process) : LockState Agent Process :=
  match state.file with
  | some _ => state.goto agent .inspecting
  | none =>
    { state.goto agent (.writing state.nextCreation) with
      file := some ⟨state.nextCreation, []⟩, nextCreation := state.nextCreation + 1 }

/-- The content goes to the file that was created, wherever the path leads by now. -/
def writeLock (agent : Agent) (creation : Nat) (text : List Char) (state : LockState Agent Process) :
    LockState Agent Process :=
  { state.goto agent (.holding creation) with
    file := state.file.map fun file => if file.creation = creation then ⟨creation, text⟩ else file }

def readLock (agent : Agent) (state : LockState Agent Process) : LockState Agent Process :=
  match state.file with
  | some file => state.goto agent (.testing file.creation file.content)
  | none => state.goto agent .attempting

/-- Remove whatever file is at the path. -/
def unlinkLock (agent : Agent) (next : LockPhase) (state : LockState Agent Process) :
    Option LockFile × LockState Agent Process :=
  (state.file, { state.goto agent next with file := none })

/-- One step of a call.  The response is the file it removed from the path. -/
def agentStep (pid : Nat) (agent : Agent) (action : LockAction) (state : LockState Agent Process) :
    Option LockFile × LockState Agent Process :=
  match state.phase agent, action with
  | .attempting, .create fault =>
    (none, if fault then state.goto agent .failed else createLock agent state)
  | .attempting, .giveUp => (none, state.goto agent .failed)
  | .writing creation, .write now fault =>
    (none, if fault then state.goto agent .failed
      else writeLock agent creation (lockText pid now) state)
  | .inspecting, .read fault =>
    (none, if fault then state.goto agent .attempting else readLock agent state)
  | .testing creation content, .test now kill =>
    (none, state.goto agent (if judgedStale content now kill then .reclaiming creation else .attempting))
  | .reclaiming _, .unlink fault =>
    if fault then (none, state.goto agent .attempting) else unlinkLock agent .attempting state
  | .holding _, .release fault =>
    if fault then (none, state.goto agent .released) else unlinkLock agent .released state
  | _, _ => (none, state)

/-- One step of the system.  Calls of a crashed process do nothing any more. -/
def lockStep (participants : Participants Agent Process) (event : LockEvent Agent Process)
    (state : LockState Agent Process) : Option LockFile × LockState Agent Process :=
  match event with
  | .crash p => (none, { state with crashed := Function.update state.crashed p true })
  | .act agent action =>
    if state.crashed (participants.process agent) then (none, state)
    else agentStep (participants.pid (participants.process agent)) agent action state

end

/-! ## Reading the content back -/

theorem newline_not_mem_toDigits (n : Nat) : '\n' ∉ Nat.toDigits 10 n := by
  intro member
  have digit := Nat.isDigit_of_mem_toDigits (by decide) (by decide) member
  revert digit
  decide

theorem digit_code {c : Char} (digit : c.isDigit = true) : 48 ≤ c.toNat ∧ c.toNat ≤ 57 := by
  simp only [Char.isDigit, Bool.and_eq_true, decide_eq_true_eq, ge_iff_le, UInt32.le_iff_toNat_le] at digit
  exact digit

theorem parseInt_toDigits (n : Nat) : parseInt (Nat.toDigits 10 n) = some (n : Int) := by
  have digits : ∀ c ∈ Nat.toDigits 10 n, c.isDigit = true :=
    fun c member => Nat.isDigit_of_mem_toDigits (by decide) (by decide) member
  cases numeral : Nat.toDigits 10 n with
  | nil => exact absurd numeral Nat.toDigits_ne_nil
  | cons first rest =>
    rw [numeral] at digits
    obtain ⟨low, high⟩ := digit_code (digits first (by simp))
    have notSpace : isJsWhitespace first = false := by
      simp only [isJsWhitespace, Bool.or_eq_false_iff, Bool.and_eq_false_iff, decide_eq_false_iff_not]
      omega
    -- a digit is no sign, so the whole numeral is its digits
    have notMinus : first ≠ '-' := by
      rintro rfl
      exact absurd low (by decide)
    have notPlus : first ≠ '+' := by
      rintro rfl
      exact absurd low (by decide)
    have all : (first :: rest).takeWhile Char.isDigit = first :: rest :=
      List.takeWhile_eq_self_iff.mpr digits
    have value : Nat.ofDigitChars 10 (first :: rest) 0 = n := by
      rw [← numeral]
      exact Nat.ofDigitChars_ten_toDigits
    simp only [parseInt, List.dropWhile_cons, notSpace, Bool.false_eq_true, if_false]
    split
    next same => exact absurd (List.cons.inj same).1 notMinus
    next same => exact absurd (List.cons.inj same).1 notPlus
    next => simp [all, value]

theorem lockText_parts (pid now : Nat) :
    (lockText pid now).splitOn '\n' = [Nat.toDigits 10 pid, Nat.toDigits 10 now] := by
  rw [lockText, List.splitOn_append_cons_self_of_not_mem (newline_not_mem_toDigits pid),
    List.splitOn_eq_singleton (newline_not_mem_toDigits now)]

theorem lockPid_lockText (pid now : Nat) : lockPid (lockText pid now) = some (pid : Int) := by
  simp [lockPid, lockText_parts, parseInt_toDigits]

theorem lockTimestamp_nil : lockTimestamp [] = none := by decide

end Advance.Utils
