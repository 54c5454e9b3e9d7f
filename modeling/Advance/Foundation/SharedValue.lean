import Mathlib.Logic.Function.Basic
import Advance.Foundation.Run

/-! # Parties at a shared value

Every party has a state of its own and moves by atomic steps that may read and replace the shared value.
Between any two steps of one party the others may move, and so may the outside.
-/

namespace Advance.Foundation

structure Shared (ι Value Local : Type*) where
  value : Value
  party : ι → Local

inductive SharedMove (ι Choice Event : Type*) where
  | party (i : ι) (choice : Choice)
  | outside (event : Event)

section

variable {ι Value Local Choice Event : Type*} [DecidableEq ι]
  (advance : ι → Choice → Local → Value → Local × Value) (happen : Event → Value → Value)

def Shared.moved (shared : Shared ι Value Local) (i : ι) (state : Local) (value : Value) : Shared ι Value Local where
  value := value
  party := Function.update shared.party i state

def sharedStep (move : SharedMove ι Choice Event) (shared : Shared ι Value Local) : Unit × Shared ι Value Local :=
  match move with
  | .party i choice =>
    let (state, value) := advance i choice (shared.party i) shared.value
    ((), shared.moved i state value)
  | .outside event => ((), { shared with value := happen event shared.value })

@[simp] theorem Shared.moved_value (shared : Shared ι Value Local) (i : ι) (state : Local) (value : Value) :
    (shared.moved i state value).value = value := rfl

@[simp] theorem Shared.moved_self (shared : Shared ι Value Local) (i : ι) (state : Local) (value : Value) :
    (shared.moved i state value).party i = state := Function.update_self ..

theorem Shared.moved_other (shared : Shared ι Value Local) {i j : ι} (differs : j ≠ i) (state : Local)
    (value : Value) : (shared.moved i state value).party j = shared.party j := Function.update_of_ne differs ..

structure Held (P : Value → Prop) (Q : ι → Value → Local → Prop) (shared : Shared ι Value Local) : Prop where
  value : P shared.value
  parties : ∀ i, Q i shared.value (shared.party i)

variable {P : Value → Prop} {Q : ι → Value → Local → Prop} {shared : Shared ι Value Local}

theorem Held.moved (held : Held P Q shared) {i : ι} {state : Local} {value : Value} (holds : P value)
    (own : Q i value state) (others : ∀ j, j ≠ i → Q j shared.value (shared.party j) → Q j value (shared.party j)) :
    Held P Q (shared.moved i state value) where
  value := holds
  parties j := by
    by_cases same : j = i
    · subst same
      rw [shared.moved_self]
      exact own
    · rw [shared.moved_other same]
      exact others j same (held.parties j)

variable {advance happen}

/-- Assertions that hold at the start and that no step of a good run breaks hold around all of its steps. -/
theorem held_run {Good : Record (Shared ι Value Local) (SharedMove ι Choice Event) Unit → Prop}
    (own : ∀ i choice shared, Good (recordOf (sharedStep advance happen) (.party i choice) shared) → Held P Q shared →
      Held P Q (sharedStep advance happen (.party i choice) shared).2)
    (outer : ∀ event shared, Good (recordOf (sharedStep advance happen) (.outside event) shared) →
      Held P Q shared → Held P Q (sharedStep advance happen (.outside event) shared).2)
    {moves : List (SharedMove ι Choice Event)}
    (good : ∀ step ∈ trace (sharedStep advance happen) moves shared, Good step) (start : Held P Q shared) :
    (∀ step ∈ trace (sharedStep advance happen) moves shared, Held P Q step.before ∧ Held P Q step.after) ∧
      Held P Q (stateAfter (sharedStep advance happen) moves shared) := by
  refine trace_guarded (fun move shared good held => ?_) good start
  cases move with
  | party i choice => exact own i choice shared good held
  | outside event => exact outer event shared good held

end

end Advance.Foundation
