import Advance.JavaScript.Value
import Mathlib.Algebra.Order.Archimedean.Basic
import Mathlib.Algebra.Order.Group.Unbundled.Basic
import Mathlib.Tactic.Linarith

/-! # Bounded retry

`boundedRetry` sleeps between attempts, for longer each time, until one succeeds or the budget is over.
-/

namespace Advance.Utils

open Advance.JavaScript

structure BoundedRetryOptions where
  budgetMs : JsNumber
  baseMs : JsNumber
  capMs : JsNumber
  jitter : JsNumber

inductive AttemptResult (α : Type) where
  | hit (value : α)
  | miss
  | rejected (error : String)

/-- What the calls of a run answer, by the number of the attempt: the clock is read after it, and once more where the
    delay is none.  Reading 0 is that of the start. -/
structure RetryCalls (α : Type) where
  attempt : Nat → AttemptResult α
  now : Nat → JsNumber
  nowAgain : Nat → JsNumber
  random : Nat → JsNumber

inductive BoundedRetryResult (α : Type) where
  | success (value : α) (attempts : Nat) (elapsedMs : JsNumber)
  | failure (attempts : Nat) (elapsedMs : JsNumber)
  | rejected (error : String)

section

variable {α : Type} (options : BoundedRetryOptions) (calls : RetryCalls α)

def backoff (attempts : Nat) : JsNumber := min options.capMs (options.baseMs * 2 ^ (attempts - 1))

def RetryCalls.elapsed (attempts : Nat) : JsNumber := calls.now attempts - calls.now 0

def retryDelay (attempts : Nat) : JsNumber :=
  min (options.budgetMs - calls.elapsed attempts)
    (backoff options attempts * (1 / 2 + calls.random attempts * options.jitter * (1 / 2)))

/-- The loop after so many attempts: what it ends with, and the sleeps it asks for until then. -/
def retryFrom : Nat → Nat → Option (BoundedRetryResult α × List JsNumber)
  | 0, _ => none
  | fuel + 1, made =>
    let attempts := made + 1
    match calls.attempt attempts with
    | .rejected error => some (.rejected error, [])
    | .hit value => some (.success value attempts (calls.elapsed attempts), [])
    | .miss =>
      if options.budgetMs ≤ calls.elapsed attempts then some (.failure attempts (calls.elapsed attempts), [])
      else if retryDelay options calls attempts ≤ 0 then
        some (.failure attempts (calls.nowAgain attempts - calls.now 0), [])
      else (retryFrom fuel attempts).map fun ended => (ended.1, retryDelay options calls attempts :: ended.2)

def boundedRetry (fuel : Nat) : Option (BoundedRetryResult α × List JsNumber) := retryFrom options calls fuel 0

structure BoundedRetryOptions.Valid : Prop where
  budget : 0 ≤ options.budgetMs
  base : 0 < options.baseMs
  cap : 0 < options.capMs
  jitter : 0 ≤ options.jitter ∧ options.jitter ≤ 1

/-- Random values are in `[0, 1]`, the clock never goes back, and it advances by what is slept at least. -/
structure FairCalls : Prop where
  random : ∀ attempts, 0 ≤ calls.random attempts ∧ calls.random attempts ≤ 1
  forward : ∀ attempts, calls.now attempts ≤ calls.now (attempts + 1)
  again : ∀ attempts, calls.now attempts ≤ calls.nowAgain attempts
  sleeps : ∀ attempts, calls.attempt attempts = .miss → calls.elapsed attempts < options.budgetMs →
    calls.now attempts + retryDelay options calls attempts ≤ calls.now (attempts + 1)

/-- What a run may not do: sleep for more than its budget, or than its cap at a time, or fail with time left. -/
structure WithinBudget (slept : JsNumber) (ended : BoundedRetryResult α × List JsNumber) : Prop where
  total : slept + ended.2.sum ≤ options.budgetMs
  each : ∀ delay ∈ ended.2, 0 < delay ∧ delay ≤ options.capMs
  spent : ∀ attempts elapsedMs, ended.1 = .failure attempts elapsedMs → options.budgetMs ≤ elapsedMs

end

/-! ## One sleep -/

section

variable {α : Type} {options : BoundedRetryOptions} {calls : RetryCalls α} {attempts made : Nat} {slept : JsNumber}

/-- The least that is slept, if that much of the budget is left. -/
def leastDelay (options : BoundedRetryOptions) : JsNumber := min options.capMs options.baseMs / 2

section

variable (valid : options.Valid)
include valid

theorem leastDelay_pos : 0 < leastDelay options :=
  half_pos (lt_min valid.cap valid.base)

theorem backoff_bounds (attempts : Nat) :
    2 * leastDelay options ≤ backoff options attempts ∧ backoff options attempts ≤ options.capMs := by
  have grown : options.baseMs ≤ options.baseMs * 2 ^ (attempts - 1) :=
    le_mul_of_one_le_right valid.base.le (one_le_pow₀ one_le_two)
  refine ⟨?_, min_le_left _ _⟩
  rw [leastDelay, mul_div_cancel₀ _ two_ne_zero]
  exact min_le_min_left _ grown

theorem jitter_bounds (fair : FairCalls options calls) (attempts : Nat) :
    0 ≤ calls.random attempts * options.jitter ∧ calls.random attempts * options.jitter ≤ 1 := by
  obtain ⟨nonnegative, small⟩ := fair.random attempts
  exact ⟨mul_nonneg nonnegative valid.jitter.1, mul_le_one₀ small valid.jitter.1 valid.jitter.2⟩

theorem retryDelay_le_cap (fair : FairCalls options calls) (attempts : Nat) :
    retryDelay options calls attempts ≤ options.capMs := by
  obtain ⟨least, most⟩ := backoff_bounds valid attempts
  have positive := leastDelay_pos valid
  have share := (jitter_bounds valid fair attempts).2
  calc retryDelay options calls attempts
      ≤ backoff options attempts * (1 / 2 + calls.random attempts * options.jitter * (1 / 2)) := min_le_right _ _
    _ ≤ backoff options attempts * 1 := mul_le_mul_of_nonneg_left (by linarith) (by linarith)
    _ ≤ options.capMs := by rwa [mul_one]

/-- A sleep takes the least there is, or all that is left of the budget. -/
theorem retryDelay_takes (fair : FairCalls options calls) (attempts : Nat) :
    retryDelay options calls attempts = options.budgetMs - calls.elapsed attempts ∨
      leastDelay options ≤ retryDelay options calls attempts := by
  obtain ⟨least, -⟩ := backoff_bounds valid attempts
  have positive := leastDelay_pos valid
  have share := (jitter_bounds valid fair attempts).1
  rcases min_choice (options.budgetMs - calls.elapsed attempts)
    (backoff options attempts * (1 / 2 + calls.random attempts * options.jitter * (1 / 2))) with rest | waits
  · exact .inl rest
  · refine .inr ?_
    rw [retryDelay, waits]
    calc leastDelay options ≤ backoff options attempts * (1 / 2) := by linarith
      _ ≤ _ := mul_le_mul_of_nonneg_left (by linarith) (by linarith)

theorem retryDelay_pos (fair : FairCalls options calls)
    (left : calls.elapsed attempts < options.budgetMs) : 0 < retryDelay options calls attempts := by
  rcases retryDelay_takes valid fair attempts with rest | waits
  · rw [rest]
    exact sub_pos.mpr left
  · exact (leastDelay_pos valid).trans_le waits

end

/-! ## A run -/

/-- A round that sleeps no more. -/
theorem round_ends (within : slept ≤ options.budgetMs) (late : calls.attempt (made + 1) = .miss →
    options.budgetMs ≤ calls.elapsed (made + 1)) :
    ∃ ended, retryFrom options calls 1 made = some ended ∧ WithinBudget options slept ended := by
  have nothing : slept + ([] : List JsNumber).sum ≤ options.budgetMs := by simpa using within
  cases result : calls.attempt (made + 1) with
  | rejected error =>
    exact ⟨(.rejected error, []), by simp only [retryFrom, result], nothing, nofun, nofun⟩
  | hit value =>
    exact ⟨(.success value (made + 1) (calls.elapsed (made + 1)), []), by simp only [retryFrom, result], nothing, nofun,
      nofun⟩
  | miss =>
    refine ⟨(.failure (made + 1) (calls.elapsed (made + 1)), []), ?_, nothing, nofun, ?_⟩
    · simp only [retryFrom, result, if_pos (late result)]
    · intro attempts elapsedMs same
      cases same
      exact late result

/-- By induction on how often the least delay fits into what is left of the budget. -/
theorem retryFrom_ends (valid : options.Valid) (fair : FairCalls options calls) (rounds : Nat)
    (within : slept ≤ options.budgetMs) (waited : slept ≤ calls.elapsed (made + 1))
    (left : options.budgetMs - calls.elapsed (made + 1) ≤ rounds * leastDelay options) :
    ∃ fuel ended, retryFrom options calls fuel made = some ended ∧ WithinBudget options slept ended := by
  induction rounds generalizing made slept with
  | zero =>
    have late : options.budgetMs ≤ calls.elapsed (made + 1) := by simpa using left
    exact ⟨1, round_ends within fun _ => late⟩
  | succ rounds ih =>
    by_cases goesOn : calls.attempt (made + 1) = .miss ∧ calls.elapsed (made + 1) < options.budgetMs
    · obtain ⟨missed, time⟩ := goesOn
      have sleeps := fair.sleeps (made + 1) missed time
      have positive := retryDelay_pos valid fair time
      have most : retryDelay options calls (made + 1) ≤ options.budgetMs - calls.elapsed (made + 1) := min_le_left _ _
      have advanced : calls.elapsed (made + 1) + retryDelay options calls (made + 1) ≤ calls.elapsed (made + 2) := by
        unfold RetryCalls.elapsed
        linarith
      have fewer : options.budgetMs - calls.elapsed (made + 2) ≤ rounds * leastDelay options := by
        push_cast at left
        rcases retryDelay_takes valid fair (made + 1) with rest | waits
        · have room := mul_nonneg rounds.cast_nonneg (leastDelay_pos valid).le
          linarith
        · linarith
      obtain ⟨fuel, ended, run, budget⟩ := @ih (made + 1) (slept + retryDelay options calls (made + 1)) (by linarith)
        (by linarith) fewer
      refine ⟨fuel + 1, (ended.1, retryDelay options calls (made + 1) :: ended.2), ?_, ?_, ?_, budget.spent⟩
      · simp only [retryFrom, missed, if_neg (not_le.mpr time), if_neg (not_le.mpr positive), run, Option.map_some]
      · rw [List.sum_cons, ← add_assoc]
        exact budget.total
      · intro delay member
        rcases List.mem_cons.mp member with rfl | later
        · exact ⟨positive, retryDelay_le_cap valid fair (made + 1)⟩
        · exact budget.each delay later
    · exact ⟨1, round_ends within fun missed => not_lt.mp fun time => goesOn ⟨missed, time⟩⟩

end

def LOCK_INITIAL_WAIT_MS : JsNumber := 25

def LOCK_MAX_WAIT_MS : JsNumber := 500

/-- The options `acquireFileLock` retries with. -/
def acquireFileLockOptions (timeoutMs : JsNumber) : BoundedRetryOptions :=
  ⟨max 0 timeoutMs, LOCK_INITIAL_WAIT_MS, LOCK_MAX_WAIT_MS, 1⟩

theorem acquireFileLock_valid (timeoutMs : JsNumber) : (acquireFileLockOptions timeoutMs).Valid :=
  have initial : 0 < LOCK_INITIAL_WAIT_MS := by norm_num [LOCK_INITIAL_WAIT_MS]
  have most : 0 < LOCK_MAX_WAIT_MS := by norm_num [LOCK_MAX_WAIT_MS]
  ⟨le_max_left _ _, initial, most, zero_le_one, le_rfl⟩

/-- A lock that is never free, on a clock that runs half a second ahead with each attempt. -/
def heldLock : RetryCalls Unit :=
  ⟨fun _ => .miss, fun attempts => 500 * attempts, fun attempts => 500 * attempts, fun _ => 1⟩

end Advance.Utils
