import Mathlib.Data.List.Basic

/-! # Runs of a deterministic service

A service answers one request at a time from its state.  `trace` records, for a
list of requests, every request with the state it found, its answer and the
state it left; `stateAfter` is the state at the end.
-/

namespace Advance.Foundation

section

variable {State Request Response : Type*}

/-- One served request. -/
structure Record (State Request Response : Type*) where
  request : Request
  before : State
  response : Response
  after : State

variable (serve : Request → State → Response × State)

def recordOf (request : Request) (state : State) : Record State Request Response :=
  ⟨request, state, (serve request state).1, (serve request state).2⟩

def trace : List Request → State → List (Record State Request Response)
  | [], _ => []
  | request :: rest, state => recordOf serve request state :: trace rest (serve request state).2

def stateAfter (requests : List Request) (state : State) : State :=
  requests.foldl (fun state request => (serve request state).2) state

@[simp] theorem recordOf_request (request : Request) (state : State) :
    (recordOf serve request state).request = request := rfl

@[simp] theorem recordOf_before (request : Request) (state : State) :
    (recordOf serve request state).before = state := rfl

@[simp] theorem recordOf_after (request : Request) (state : State) :
    (recordOf serve request state).after = (serve request state).2 := rfl

theorem trace_requests (requests : List Request) (state : State) :
    (trace serve requests state).map Record.request = requests := by
  induction requests generalizing state with
  | nil => rfl
  | cons request requests ih => simp [trace, recordOf, ih]

variable {serve}

variable {requests : List Request} {state : State} {step : Record State Request Response}

theorem request_mem (member : step ∈ trace serve requests state) : step.request ∈ requests := by
  rw [← trace_requests serve requests state]
  exact List.mem_map_of_mem member

theorem exists_step (state : State) {request : Request} (member : request ∈ requests) :
    ∃ step ∈ trace serve requests state, step.request = request := by
  rw [← trace_requests serve requests state] at member
  exact List.mem_map.mp member

@[simp] theorem trace_nil (state : State) : trace serve [] state = [] := rfl

@[simp] theorem stateAfter_nil (state : State) : stateAfter serve [] state = state := rfl

@[simp] theorem stateAfter_cons (request : Request) (rest : List Request) (state : State) :
    stateAfter serve (request :: rest) state = stateAfter serve rest (serve request state).2 := rfl

theorem stateAfter_append (front back : List Request) (state : State) :
    stateAfter serve (front ++ back) state = stateAfter serve back (stateAfter serve front state) := by
  simp [stateAfter, List.foldl_append]

theorem trace_append (front back : List Request) (state : State) : trace serve (front ++ back) state =
      trace serve front state ++ trace serve back (stateAfter serve front state) := by
  induction front generalizing state with
  | nil => rfl
  | cons request front ih =>
    simp only [List.cons_append, trace, stateAfter_cons]
    rw [ih]

variable {front back : List (Record State Request Response)}

theorem trace_cut
    (cut : trace serve requests state = front ++ back) :
    ∃ early late, requests = early ++ late ∧ front = trace serve early state ∧
      back = trace serve late (stateAfter serve early state) := by
  induction front generalizing requests state with
  | nil => exact ⟨[], requests, rfl, rfl, cut.symm⟩
  | cons step front ih =>
    cases requests with
    | nil => cases cut
    | cons request requests =>
      obtain ⟨head, tail⟩ := List.cons.inj cut
      obtain ⟨early, late, rfl, rfl, rfl⟩ := ih tail
      exact ⟨request :: early, late, rfl, by rw [trace, head], rfl⟩

theorem trace_split
    (split : trace serve requests state = front ++ step :: back) :
    ∃ early late, requests = early ++ step.request :: late ∧ front = trace serve early state ∧
      step = recordOf serve step.request (stateAfter serve early state) ∧
      back = trace serve late step.after := by
  obtain ⟨early, rest, rfl, rfl, suffixTrace⟩ := trace_cut split
  cases rest with
  | nil => cases suffixTrace
  | cons request late =>
    obtain ⟨head, tail⟩ := List.cons.inj suffixTrace
    subst head
    exact ⟨early, late, rfl, rfl, rfl, tail⟩

theorem trace_step (member : step ∈ trace serve requests state) : step = recordOf serve step.request step.before := by
  obtain ⟨front, back, split⟩ := List.append_of_mem member
  obtain ⟨early, _, _, _, served, _⟩ := trace_split split
  have found : step.before = stateAfter serve early state := congrArg Record.before served
  rw [found]
  exact served

theorem forall_trace {P : Record State Request Response → Prop} : (∀ step ∈ trace serve requests state, P step) ↔
      ∀ early request late, requests = early ++ request :: late →
        P (recordOf serve request (stateAfter serve early state)) := by
  constructor
  · rintro each early request late rfl
    refine each _ ?_
    rw [trace_append]
    exact List.mem_append_right _ List.mem_cons_self
  · intro each step member
    obtain ⟨front, back, split⟩ := List.append_of_mem member
    obtain ⟨early, late, place, _, served, _⟩ := trace_split split
    rw [served]
    exact each early step.request late place

variable {P : State → Prop}

variable {Q : Record State Request Response → Prop}

theorem trace_guarded
    (preserved : ∀ request state, Q (recordOf serve request state) → P state →
      P (serve request state).2) (good : ∀ step ∈ trace serve requests state, Q step) (holds : P state) :
    (∀ step ∈ trace serve requests state, P step.before ∧ P step.after) ∧ P (stateAfter serve requests state) := by
  induction requests generalizing state with
  | nil => exact ⟨fun _ member => (nomatch member), holds⟩
  | cons request requests ih =>
    have next := preserved request state (good _ (by simp [trace])) holds
    obtain ⟨later, final⟩ := ih (fun step member => good step (by simp [trace, member])) next
    refine ⟨?_, final⟩
    intro step member
    rcases List.mem_cons.mp member with rfl | member
    · exact ⟨holds, next⟩
    · exact later step member

/-- Where a step keeps a property exactly when it is good, the property holds after every step of a trace
    exactly when every step is good; an invariant of all steps may be used. -/
theorem trace_exact {I P : State → Prop}
    (invariant : ∀ request state, I state → I (serve request state).2) (exact : ∀ request state, I state → P state →
      (P (serve request state).2 ↔ Q (recordOf serve request state))) (always : I state) (holds : P state) :
    (∀ step ∈ trace serve requests state, P step.after) ↔ ∀ step ∈ trace serve requests state, Q step := by
  induction requests generalizing state with
  | nil => simp
  | cons request requests ih =>
    have now := exact request state always holds
    simp only [trace, List.forall_mem_cons, recordOf_after]
    constructor
    · rintro ⟨first, later⟩
      exact ⟨now.mp first, (ih (invariant request state always) first).mp later⟩
    · rintro ⟨first, later⟩
      have kept := now.mpr first
      exact ⟨kept, (ih (invariant request state always) kept).mpr later⟩

theorem trace_between
    {front middle back : List (Record State Request Response)} {first second : Record State Request Response}
    (split : trace serve requests state = front ++ first :: (middle ++ second :: back))
    (kept : ∀ step ∈ middle, P step.before → P step.after) (holds : P first.after) : P second.before := by
  obtain ⟨_, late, _, _, _, rest⟩ := trace_split split
  obtain ⟨early, later, _, rfl, tail⟩ := trace_cut rest.symm
  cases later with
  | nil => cases tail
  | cons request later =>
    obtain ⟨head, _⟩ := List.cons.inj tail
    rw [head]
    exact (trace_guarded (Q := fun step => P step.before → P step.after) (fun _ _ keeps => keeps) kept holds).2

/-- What every step preserves holds at the end exactly when it holds at the start or after some step. -/
theorem persists_iff (persists : ∀ request state, P state → P (serve request state).2) :
    P (stateAfter serve requests state) ↔ P state ∨ ∃ step ∈ trace serve requests state, P step.after := by
  induction requests generalizing state with
  | nil => simp
  | cons request requests ih =>
    rw [stateAfter_cons, ih, trace]
    simp only [List.exists_mem_cons_iff, recordOf_after]
    constructor
    · rintro (next | later)
      · exact .inr (.inl next)
      · exact .inr (.inr later)
    · rintro (now | next | later)
      · exact .inl (persists request state now)
      · exact .inl next
      · exact .inr later

theorem trace_invariant (holds : P state)
    (preserved : ∀ request ∈ requests, ∀ state, P state → P (serve request state).2) :
    (∀ step ∈ trace serve requests state, P step.before ∧ P step.after) ∧ P (stateAfter serve requests state) := by
  refine trace_guarded (Q := fun step => step.request ∈ requests) ?_ ?_ holds
  · intro request state good
    exact preserved request good state
  · exact fun step member => request_mem member

end

end Advance.Foundation
