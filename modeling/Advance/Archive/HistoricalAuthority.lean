import Advance.Archive.PlanSafety

/-! # Historical authority

A repair plans the deltas of an old archive against a spec that may have moved
on.  It applies a mutating delta only to the requirement the delta was made for:
the one its precondition digests or, without one, the one the baseline spec had.
-/

namespace Advance.Archive

open Foundation
open Types

/-- The authority a mutating delta brings itself. -/
def Delta.precondition : Delta → Option DeltaPrecondition
  | .add _ => none
  | .modify delta => delta.precondition
  | .remove delta => delta.precondition
  | .rename delta => delta.precondition

section

variable (platform : Platform) (baselineSpec : Option Spec)

def authoritativeDigest (delta : Delta) : Option SHA256Digest :=
  match Delta.precondition delta, Delta.targetId delta with
  | some precondition, _ => some precondition.target_requirement_sha256
  | none, some target =>
    (baselineSpec.bind fun spec => findRow spec.requirements target).map (requirementSha256 platform)
  | none, none => none

variable {platform baselineSpec}

variable {target : String}

theorem preimage_iff {precondition : Option DeltaPrecondition} {current : Requirement} :
    hasPreimageAuthority platform (.historical baselineSpec) precondition target current = true ↔
      (precondition.map DeltaPrecondition.target_requirement_sha256).or
        ((baselineSpec.bind fun spec => findRow spec.requirements target).map (requirementSha256 platform)) =
        some (requirementSha256 platform current) := by
  simp [hasPreimageAuthority, baselineRequirement, findRow]

variable {delta : Delta}

theorem authoritativeDigest_eq (named : Delta.targetId delta = some target) :
    authoritativeDigest platform baselineSpec delta =
      ((Delta.precondition delta).map DeltaPrecondition.target_requirement_sha256).or
        ((baselineSpec.bind fun spec => findRow spec.requirements target).map (requirementSha256 platform)) := by
  cases brought : Delta.precondition delta with
  | none => simp [authoritativeDigest, brought, named]
  | some precondition => simp [authoritativeDigest, brought]

theorem authorised_of_missing {rows : List Requirement} (named : Delta.targetId delta = some target)
    (missing : (planDelta platform (.historical baselineSpec) delta rows).1.status = .missing) :
    ∃ current, findRow rows target = some current ∧
      authoritativeDigest platform baselineSpec delta = some (requirementSha256 platform current) := by
  rw [authoritativeDigest_eq named]
  cases delta with
  | add delta => cases named
  | modify delta =>
    obtain rfl := Option.some.inj named
    simp only [planDelta, planModify] at missing
    split at missing
    · cases missing
    next current found =>
      split at missing
      · cases missing
      · split at missing
        next authorised => exact ⟨current, found, preimage_iff.mp authorised⟩
        · exact absurd missing (blockedStatus_ne_missing _)
  | remove delta =>
    obtain rfl := Option.some.inj named
    simp only [planDelta, planRemove] at missing
    split at missing
    · cases missing
    next current found =>
      split at missing
      next authorised => exact ⟨current, found, preimage_iff.mp authorised⟩
      · exact absurd missing (blockedStatus_ne_missing _)
  | rename delta =>
    obtain rfl := Option.some.inj named
    simp only [planDelta, planRename] at missing
    split at missing
    · split at missing
      · cases missing
      · cases missing
    next current found =>
      split at missing
      · cases missing
      · split at missing
        · cases missing
        · split at missing
          next authorised => exact ⟨current, found, preimage_iff.mp authorised⟩
          · exact absurd missing (blockedStatus_ne_missing _)

theorem blocked_of_unauthorised {rows : List Requirement}
    (named : Delta.targetId delta = some target) (unsettled : ¬ Settled platform delta rows)
    (unauthorised : ∀ current, findRow rows target = some current →
      authoritativeDigest platform baselineSpec delta ≠ some (requirementSha256 platform current)) :
    (planDelta platform (.historical baselineSpec) delta rows).1.blocked = true := by
  rcases planDelta_cases platform (.historical baselineSpec) delta rows with ⟨_, _, settled⟩ | ⟨missing, _⟩ |
    ⟨blocked, _⟩
  · exact absurd settled unsettled
  · obtain ⟨current, found, digest⟩ := authorised_of_missing named missing
    exact absurd digest (unauthorised current found)
  · exact blocked

theorem plan_blocked {spec : Spec} {deltas : List Delta} {authority : ProjectionAuthority} {projectedAt : String}
    {step : Record (List Requirement) Delta DeltaProjectionDisposition}
    (member : step ∈ trace (planDelta platform authority) (sortDeltas deltas) spec.requirements)
    (blocked : step.response.blocked = true) :
    (planSpecProjection platform spec deltas authority projectedAt).status = .blocked ∧
      (planSpecProjection platform spec deltas authority projectedAt).targetSpec = none := by
  have some_blocked : ((trace (planDelta platform authority) (sortDeltas deltas) spec.requirements).map
      Record.response).any DeltaProjectionDisposition.blocked = true :=
    List.any_eq_true.mpr ⟨step.response, List.mem_map_of_mem member, blocked⟩
  simp only [planSpecProjection, if_pos some_blocked, and_self]

end

end Advance.Archive
