import Advance.Validator.Conflicts

/-! # What acceptance says of a capability's deltas -/

namespace Advance.Validator

open JavaScript
open Types

/-! ## Issue lists -/

theorem accepted_append {front back : List ValidationIssue} :
    Accepted (front ++ back) ↔ Accepted front ∧ Accepted back := by
  simp only [Accepted, List.mem_append]
  constructor
  · intro all
    exact ⟨fun issue member => all issue (.inl member), fun issue member => all issue (.inr member)⟩
  · rintro ⟨first, second⟩ issue (member | member)
    · exact first issue member
    · exact second issue member

theorem accepted_flatMap {α : Type} {items : List α} {check : α → List ValidationIssue} :
    Accepted (items.flatMap check) ↔ ∀ item ∈ items, Accepted (check item) := by
  simp only [Accepted, List.mem_flatMap]
  constructor
  · exact fun all item member issue held => all issue ⟨item, member, held⟩
  · rintro each issue ⟨item, member, held⟩
    exact each item member issue held

theorem accepted_ite {condition : Prop} [Decidable condition] {issue : ValidationIssue}
    (error : issue.severity = .error) : Accepted (if condition then [issue] else []) ↔ ¬ condition := by
  by_cases holds : condition
  · simp [Accepted, holds, error]
  · simp [Accepted, holds]

/-! ## Introduced ids -/

/-- The id a delta brings into the specs, as the validator counts them. -/
def introducedId : Delta → Option String
  | .add delta => some delta.requirement.id
  | .rename delta => DeltaRename.newId delta
  | .modify _ | .remove _ => none

variable {context : ValidationContext}

theorem introduced_of_accepted {walk : List (String × Delta)} {seenIds : List String}
    (accepted : Accepted (checkDuplicateRequirementIdsFrom context walk seenIds)) :
    (walk.filterMap fun entry => introducedId entry.2).Nodup ∧
      (∀ id ∈ walk.filterMap (fun entry => introducedId entry.2), id ∉ seenIds) ∧
      ∀ capability delta newId, (capability, Delta.rename delta) ∈ walk →
        DeltaRename.newId delta = some newId → newId ≠ delta.target_id →
        newId ∉ context.existingRequirementIds := by
  induction walk generalizing seenIds with
  | nil => simp
  | cons entry walk ih =>
    obtain ⟨capability, delta⟩ := entry
    -- An id met now is seen by the rest of the walk, so it is not met again.
    have met : ∀ id, introducedId delta = some id → id ∉ seenIds →
        Accepted (checkDuplicateRequirementIdsFrom context walk (id :: seenIds)) →
        (((capability, delta) :: walk).filterMap fun entry => introducedId entry.2).Nodup ∧
          ∀ other ∈ ((capability, delta) :: walk).filterMap (fun entry => introducedId entry.2), other ∉ seenIds := by
      intro id introduced unseen rest
      obtain ⟨once, apart, _⟩ := ih rest
      simp only [List.filterMap_cons, introduced]
      refine ⟨List.nodup_cons.mpr ⟨fun again => apart id again (by simp), once⟩, ?_⟩
      intro other member
      rcases List.mem_cons.mp member with rfl | member
      · exact unseen
      · exact fun seen => apart other member (List.mem_cons_of_mem _ seen)
    -- A delta that introduces nothing leaves the walk as it was.
    have passed : introducedId delta = none → Accepted (checkDuplicateRequirementIdsFrom context walk seenIds) →
        (((capability, delta) :: walk).filterMap fun entry => introducedId entry.2).Nodup ∧
          ∀ other ∈ ((capability, delta) :: walk).filterMap (fun entry => introducedId entry.2), other ∉ seenIds := by
      intro nothing rest
      simp only [List.filterMap_cons, nothing]
      exact ⟨(ih rest).1, (ih rest).2.1⟩
    cases delta with
    | add delta =>
      simp only [checkDuplicateRequirementIdsFrom, accepted_append] at accepted
      obtain ⟨⟨_, seen⟩, rest⟩ := accepted
      obtain ⟨once, apart⟩ := met _ rfl ((accepted_ite rfl).mp seen) rest
      refine ⟨once, apart, fun other rename newId member => ?_⟩
      exact (ih rest).2.2 other rename newId (by simpa using member)
    | rename delta =>
      cases named : DeltaRename.newId delta with
      | none =>
        simp only [checkDuplicateRequirementIdsFrom, named] at accepted
        obtain ⟨once, apart⟩ := passed named accepted
        refine ⟨once, apart, fun other rename newId member given => ?_⟩
        rcases List.mem_cons.mp member with same | member
        · cases same
          rw [named] at given
          cases given
        · exact (ih accepted).2.2 other rename newId member given
      | some found =>
        simp only [checkDuplicateRequirementIdsFrom, named, accepted_append] at accepted
        obtain ⟨⟨free, seen⟩, rest⟩ := accepted
        obtain ⟨once, apart⟩ := met found named ((accepted_ite rfl).mp seen) rest
        refine ⟨once, apart, fun other rename newId member given moved => ?_⟩
        rcases List.mem_cons.mp member with same | member
        · cases same
          obtain rfl := Option.some.inj (named.symm.trans given)
          exact fun taken => (accepted_ite rfl).mp free ⟨moved, taken⟩
        · exact (ih rest).2.2 other rename newId member given moved
    | modify delta =>
      simp only [checkDuplicateRequirementIdsFrom] at accepted
      obtain ⟨once, apart⟩ := passed rfl accepted
      refine ⟨once, apart, fun other rename newId member => ?_⟩
      exact (ih accepted).2.2 other rename newId (by simpa using member)
    | remove delta =>
      simp only [checkDuplicateRequirementIdsFrom] at accepted
      obtain ⟨once, apart⟩ := passed rfl accepted
      refine ⟨once, apart, fun other rename newId member => ?_⟩
      exact (ih accepted).2.2 other rename newId (by simpa using member)

/-! ## One capability -/

/-- What the validator established about the deltas of one capability. -/
structure Checked (context : ValidationContext) (deltas : List Delta) : Prop where
  introducedOnce : (deltas.filterMap introducedId).Nodup
  newIdFree : ∀ delta newId, Delta.rename delta ∈ deltas → DeltaRename.newId delta = some newId →
    newId ≠ delta.target_id → newId ∉ context.existingRequirementIds
  targetExists : ∀ delta ∈ deltas, ∀ targetId, delta.targetId = some targetId →
    targetId ∈ context.existingRequirementIds
  renamedOnce : ∀ targetId, (deltas.filter fun delta =>
    delta.operation = .rename ∧ delta.targetId = some targetId).length ≤ 1
  renamedAlone : ∀ rename delta, Delta.rename rename ∈ deltas → delta ∈ deltas →
    delta.targetId = some rename.target_id → delta.operation = .rename

theorem targetExists_of_accepted {capability : String} {delta : Delta}
    (accepted : Accepted (checkDeltaTarget context capability delta)) {targetId : String}
    (targets : delta.targetId = some targetId) : targetId ∈ context.existingRequirementIds := by
  simp only [checkDeltaTarget, targets] at accepted
  split at accepted
  next known => exact known
  next =>
    split at accepted
    · exact absurd rfl (accepted _ List.mem_cons_self)
    · exact absurd rfl (accepted _ List.mem_cons_self)

theorem opsOn_filter (deltas : List Delta) (targetId : String) :
    ((opsOn deltas targetId).filter fun op => op.operation = .rename).length =
      (deltas.filter fun delta =>
        delta.operation = .rename ∧ delta.targetId = some targetId).length := by
  simp only [opsOn, List.filter_map, List.length_map, List.filter_filter]
  congr 1
  refine List.filter_congr fun delta _ => ?_
  simp

theorem targetOps_of_accepted {capability : String} {deltas : List Delta}
    (accepted : Accepted ((targetOps deltas).flatMap (checkTargetOps capability))) (targetId : String) :
    (deltas.filter fun delta =>
      delta.operation = .rename ∧ delta.targetId = some targetId).length ≤ 1 ∧
    ∀ rename delta, Delta.rename rename ∈ deltas → delta ∈ deltas →
      rename.target_id = targetId → delta.targetId = some targetId →
      delta.operation = .rename := by
  by_cases targeted : targetId ∈ deltas.filterMap Delta.targetId
  · have entry : (targetId, opsOn deltas targetId) ∈ targetOps deltas :=
      List.mem_map.mpr ⟨targetId, mem_distinctOf.mpr targeted, rfl⟩
    obtain ⟨mixed, several⟩ := accepted_append.mp (accepted_flatMap.mp accepted _ entry)
    constructor
    · rw [← opsOn_filter]
      exact Nat.le_of_not_lt ((accepted_ite rfl).mp several)
    · intro rename delta memberRename member sameTarget targets
      by_contra other
      refine (accepted_ite rfl).mp mixed ⟨?_, ?_⟩
      · refine List.any_eq_true.mpr ⟨⟨rename.id, .rename⟩, ?_, by simp⟩
        exact List.mem_map.mpr ⟨.rename rename,
          List.mem_filter.mpr ⟨memberRename, by simp [Delta.targetId, sameTarget]⟩, rfl⟩
      · refine List.any_eq_true.mpr ⟨⟨delta.id, delta.operation⟩, ?_, by simpa using other⟩
        exact List.mem_map.mpr ⟨delta, List.mem_filter.mpr ⟨member, by simp [targets]⟩, rfl⟩
  · have untargeted : ∀ delta ∈ deltas, delta.targetId ≠ some targetId :=
      fun delta member targets => targeted (List.mem_filterMap.mpr ⟨delta, member, targets⟩)
    constructor
    · rw [List.filter_eq_nil_iff.mpr fun delta member => by simp [untargeted delta member]]
      exact Nat.zero_le 1
    · exact fun _ delta _ member _ targets => absurd targets (untargeted delta member)

/-- Acceptance of the change, for each capability. -/
theorem checked_of_accepted {change : Change}
    (accepted : Accepted (runConflictChecks change context)) {entry : String × List Delta}
    (member : entry ∈ change.deltas.entries) : Checked context entry.2 := by
  simp only [runConflictChecks, accepted_append] at accepted
  obtain ⟨⟨⟨⟨⟨⟨duplicates, targets⟩, intra⟩, _⟩, _⟩, _⟩, _⟩ := accepted
  obtain ⟨once, _, free⟩ := introduced_of_accepted duplicates
  have walked : ∀ delta ∈ entry.2, (entry.1, delta) ∈ change.walk := fun delta held =>
    List.mem_flatMap.mpr ⟨entry, member, List.mem_map.mpr ⟨delta, held, rfl⟩⟩
  have part : (entry.2.map fun delta => (entry.1, delta)).Sublist change.walk := by
    refine List.sublist_flatten_of_mem ?_
    exact List.mem_map.mpr ⟨entry, member, rfl⟩
  obtain ⟨ops, _⟩ := accepted_append.mp (accepted_flatMap.mp intra entry member)
  exact
    { introducedOnce := by
        refine once.sublist ?_
        have parts := part.filterMap fun entry => introducedId entry.2
        simpa [List.filterMap_map, Function.comp_def] using parts
      newIdFree := fun delta newId held => free entry.1 delta newId (walked _ held)
      targetExists := fun delta held targetId =>
        targetExists_of_accepted (accepted_flatMap.mp targets _ (walked delta held))
      renamedOnce := fun targetId => (targetOps_of_accepted ops targetId).1
      renamedAlone := fun rename delta heldRename held sameTarget =>
        (targetOps_of_accepted ops rename.target_id).2 rename delta heldRename held rfl sameTarget }

end Advance.Validator
