import Advance.Foundation.Run

/-! # Runs whose requests stay settled

A request is settled in a state that already shows its effect.  A service whose
steps settle their own request and unsettle no compatible earlier one ends every
run with all its requests settled, and serving settled requests changes nothing.
-/

namespace Advance.Foundation

section

variable {State Request Response : Type*} {serve : Request → State → Response × State}

variable {requests : List Request} {state : State}

/-- What a step does to its own request and to the earlier ones carries over to a run. -/
theorem settled_after {Settled : Request → State → Prop} {Valid : State → Prop}
    {Accepted : Record State Request Response → Prop} {Compatible : Request → Request → Prop}
    (establishes : ∀ request state, Valid state → Accepted (recordOf serve request state) →
      Settled request (serve request state).2)
    (valid : ∀ request state, Valid state → Accepted (recordOf serve request state) →
      Valid (serve request state).2) (preserves : ∀ earlier later state, Compatible earlier later → Valid state →
      Accepted (recordOf serve later state) → Settled earlier state →
      Settled earlier (serve later state).2) (start : Valid state)
    (accepted : ∀ step ∈ trace serve requests state, Accepted step) (compatible : requests.Pairwise Compatible) :
    ∀ request ∈ requests, Settled request (stateAfter serve requests state) := by
  -- What is settled already stays settled: the requests still to come are compatible with it.
  have stays : ∀ {rest : List Request} {now : State} {earlier : Request}, Valid now →
      (∀ step ∈ trace serve rest now, Accepted step) → (∀ later ∈ rest, Compatible earlier later) →
      Settled earlier now → Settled earlier (stateAfter serve rest now) := by
    intro rest
    induction rest with
    | nil => exact fun _ _ _ settled => settled
    | cons later rest ih =>
      intro now earlier validNow good apart settled
      have acceptedLater : Accepted (recordOf serve later now) := good _ (by simp [trace])
      refine ih (valid later now validNow acceptedLater)
        (fun step member => good step (by simp [trace, member]))
        (fun request member => apart request (by simp [member])) ?_
      exact preserves earlier later now (apart later (by simp)) validNow acceptedLater settled
  induction requests generalizing state with
  | nil =>
    intro _ member
    cases member
  | cons first rest ih =>
    obtain ⟨apart, compatibleRest⟩ := List.pairwise_cons.mp compatible
    have acceptedFirst : Accepted (recordOf serve first state) := accepted _ (by simp [trace])
    have later : ∀ step ∈ trace serve rest (serve first state).2, Accepted step :=
      fun step member => accepted step (by simp [trace, member])
    have validNext := valid first state start acceptedFirst
    intro request member
    rw [stateAfter_cons]
    rcases List.mem_cons.mp member with rfl | member
    · exact stays validNext later apart (establishes request state start acceptedFirst)
    · exact ih validNext later compatibleRest request member

theorem trace_of_unchanged (unchanged : ∀ request ∈ requests, (serve request state).2 = state) :
    trace serve requests state = requests.map (fun request => recordOf serve request state) ∧
      stateAfter serve requests state = state := by
  induction requests with
  | nil => exact ⟨rfl, rfl⟩
  | cons first rest ih =>
    have same : (serve first state).2 = state := unchanged first (by simp)
    obtain ⟨steps, final⟩ := ih (fun request member => unchanged request (by simp [member]))
    exact ⟨by simp only [trace, same, steps, List.map_cons], by rw [stateAfter_cons, same, final]⟩

/-- Steps that leave the state alone, one after another, all find the state of the first. -/
theorem settled_of_unchanging {Quiet : Response → Prop}
    (unchanging : ∀ request state, Quiet (serve request state).1 → (serve request state).2 = state)
    (quiet : ∀ step ∈ trace serve requests state, Quiet step.response) :
    ∀ request ∈ requests, Quiet (serve request state).1 := by
  induction requests with
  | nil => exact fun _ member => nomatch member
  | cons first rest ih =>
    have quietFirst : Quiet (serve first state).1 :=
      quiet (recordOf serve first state) (by simp [trace])
    have same := unchanging first state quietFirst
    intro request member
    rcases List.mem_cons.mp member with rfl | member
    · exact quietFirst
    · refine ih (fun step found => quiet step ?_) request member
      simp only [trace, same, List.mem_cons, found, or_true]

end

end Advance.Foundation
