import Advance.Foundation.Settling
import Advance.Archive.ProjectionRows

/-! # Retrying a projection

An archive that is retried plans the deltas it applied before against the spec
they led to.  Each delta demands something of that spec: that a requirement is
there, that another is gone, that a field has a value.
-/

namespace Advance.Archive

open Foundation
open JavaScript
open Types

section

variable (platform : Platform)

/-! ## What deltas demand -/

structure FieldClaim where
  id : String
  field : ModifyField
  value : JsVal

def Delta.claims : Delta → List FieldClaim
  | .modify delta => delta.changes.entries.map fun entry => ⟨delta.target_id, entry.1, entry.2⟩
  | .rename delta => [⟨DeltaRename.resultId delta, .title, .str delta.new_title⟩]
  | .add _ | .remove _ => []

def Delta.leaves : Delta → Option String
  | .add delta => some delta.requirement.id
  | .rename delta => some (DeltaRename.resultId delta)
  | .modify _ | .remove _ => none

/-- The id a remove, or a rename to another id, takes out of the spec. -/
def Delta.clears : Delta → Option String
  | .remove delta => some delta.target_id
  | .rename delta =>
    if DeltaRename.resultId delta = delta.target_id then none else some delta.target_id
  | .add _ | .modify _ => none

def Meets (claim : FieldClaim) (rows : List Requirement) : Prop :=
  ∃ row, findRow rows claim.id = some row ∧ sameValue platform (row.field claim.field) claim.value = true

structure Compatible (left right : Delta) : Prop where
  spares : ∀ id, Delta.leaves left = some id → Delta.clears right ≠ some id
  agrees : ∀ l ∈ Delta.claims left, ∀ r ∈ Delta.claims right, l.id = r.id → l.field = r.field →
    sameValue platform l.value r.value = true

/-- No delta removes or renames away what one of the list leaves in place, and no two set one
    field of one requirement to different values. -/
def AllCompatible (deltas : List Delta) : Prop :=
  ∀ left ∈ deltas, ∀ right ∈ deltas, Compatible platform left right

instance (left right : Delta) : Decidable (Compatible platform left right) :=
  decidable_of_iff ((∀ id ∈ (Delta.leaves left).toList, Delta.clears right ≠ some id) ∧
      ∀ l ∈ Delta.claims left, ∀ r ∈ Delta.claims right, l.id = r.id → l.field = r.field →
        sameValue platform l.value r.value = true)
    ⟨fun ⟨spares, agrees⟩ => ⟨fun id leaves => spares id (by simp [leaves]), agrees⟩,
      fun ⟨spares, agrees⟩ => ⟨fun id leaves => spares id (by simpa using leaves), agrees⟩⟩

instance (deltas : List Delta) : Decidable (AllCompatible platform deltas) :=
  inferInstanceAs (Decidable (∀ left ∈ deltas, ∀ right ∈ deltas, Compatible platform left right))

/-- The delta was found in place. -/
def Unneeded (row : DeltaProjectionDisposition) : Prop := row.status = .identical

/-- Planning the deltas again, on anybody's word and at any time, finds nothing to do. -/
def RetrySafe (target : Spec) (deltas : List Delta) : Prop :=
  ∀ authority projectedAt,
    let replay := planSpecProjection platform target deltas authority projectedAt
    replay.status = .safe ∧ (∀ row ∈ replay.dispositions, Unneeded row) ∧ replay.targetSpec = some target

variable {platform}

/-! ## Demands of a settled delta -/

theorem sameValue_refl (value : JsVal) : sameValue platform value value = true := by
  simp [sameValue]

theorem sameValue_joined {value left right : JsVal} (toLeft : sameValue platform value left = true)
    (toRight : sameValue platform value right = true) : sameValue platform left right = true := by
  simp only [sameValue, decide_eq_true_eq] at *
  exact toLeft.symm.trans toRight

theorem sameValue_trans {left middle right : JsVal} (first : sameValue platform left middle = true)
    (second : sameValue platform middle right = true) : sameValue platform left right = true := by
  simp only [sameValue, decide_eq_true_eq] at *
  exact first.trans second

theorem sameValue_str {left right : String} : sameValue platform (.str left) (.str right) = true ↔ left = right := by
  simp [sameValue]

variable {delta : Delta} {id : String}

theorem Settled.leaves {rows : List Requirement}
    (settled : Settled platform delta rows) (leaves : Delta.leaves delta = some id) :
    ∃ row, findRow rows id = some row := by
  cases delta with
  | add delta =>
    obtain ⟨row, found, _⟩ := settled
    exact ⟨row, (Option.some.inj leaves) ▸ found⟩
  | rename delta =>
    obtain ⟨⟨row, found, _⟩, _⟩ := settled
    exact ⟨row, (Option.some.inj leaves) ▸ found⟩
  | modify _ | remove _ => cases leaves

theorem Settled.clears {rows : List Requirement}
    (settled : Settled platform delta rows) (clears : Delta.clears delta = some id) : findRow rows id = none := by
  cases delta with
  | remove delta => exact (Option.some.inj clears) ▸ settled
  | rename delta =>
    simp only [Delta.clears] at clears
    split at clears
    · cases clears
    · next moved => exact (Option.some.inj clears) ▸ settled.2 moved
  | add _ | modify _ => cases clears

theorem changedFieldsMatch_iff {row : Requirement} {changes : DeltaModifyChanges} :
    changedFieldsMatch platform row changes = true ↔ ∀ field value, changes.expected field = some value →
        sameValue platform (row.field field) value = true := by
  simp only [changedFieldsMatch, List.all_eq_true]
  constructor
  · intro all field value expected
    exact all (field, value) (mem_changes_entries.mpr expected)
  · intro each entry member
    exact each entry.1 entry.2 (mem_changes_entries.mp member)

variable {claim : FieldClaim}

theorem mem_modify_claims {delta : DeltaModify} : claim ∈ Delta.claims (.modify delta) ↔
      claim.id = delta.target_id ∧ delta.changes.expected claim.field = some claim.value := by
  simp only [Delta.claims, List.mem_map]
  constructor
  · rintro ⟨entry, member, rfl⟩
    exact ⟨rfl, mem_changes_entries.mp member⟩
  · rintro ⟨target, expected⟩
    refine ⟨(claim.field, claim.value), mem_changes_entries.mpr expected, ?_⟩
    rw [← target]

theorem Settled.claims {rows : List Requirement}
    (settled : Settled platform delta rows) (member : claim ∈ Delta.claims delta) : Meets platform claim rows := by
  cases delta with
  | modify delta =>
    obtain ⟨row, found, matching⟩ := settled
    obtain ⟨target, expected⟩ := mem_modify_claims.mp member
    exact ⟨row, target ▸ found, changedFieldsMatch_iff.mp matching _ _ expected⟩
  | rename delta =>
    obtain ⟨⟨row, found, title⟩, _⟩ := settled
    obtain rfl := List.mem_singleton.mp member
    exact ⟨row, found, sameValue_str.mpr title⟩
  | add _ | remove _ => cases member

theorem compatible_of_settled {left right : Delta} {rows : List Requirement}
    (settledLeft : Settled platform left rows) (settledRight : Settled platform right rows) :
    Compatible platform left right where
  spares := by
    intro id leaves clears
    obtain ⟨row, found⟩ := settledLeft.leaves leaves
    rw [settledRight.clears clears] at found
    cases found
  agrees := by
    intro l memberLeft r memberRight sameId sameField
    obtain ⟨row, found, meets⟩ := settledLeft.claims memberLeft
    obtain ⟨other, foundOther, meetsOther⟩ := settledRight.claims memberRight
    rw [← sameId, found] at foundOther
    obtain rfl := Option.some.inj foundOther
    rw [← sameField] at meetsOther
    exact sameValue_joined meets meetsOther

theorem settled_of_demands {rows : List Requirement}
    (claims : ∀ claim ∈ Delta.claims delta, Meets platform claim rows)
    (clears : ∀ id, Delta.clears delta = some id → findRow rows id = none)
    (content : ∀ added, delta = .add added → Settled platform delta rows) : Settled platform delta rows := by
  cases delta with
  | add delta => exact content delta rfl
  | modify delta =>
    -- A modify names at least one field, so some claim exhibits the target.
    obtain ⟨entry, member⟩ := List.exists_mem_of_ne_nil _ delta.nonempty
    obtain ⟨row, found, _⟩ := claims ⟨delta.target_id, entry.1, entry.2⟩
      (mem_modify_claims.mpr ⟨rfl, mem_changes_entries.mp member⟩)
    refine ⟨row, found, changedFieldsMatch_iff.mpr fun field value expected => ?_⟩
    obtain ⟨other, foundOther, meets⟩ := claims ⟨delta.target_id, field, value⟩
      (mem_modify_claims.mpr ⟨rfl, expected⟩)
    obtain rfl := Option.some.inj (found.symm.trans foundOther)
    exact meets
  | remove delta => exact clears delta.target_id rfl
  | rename delta =>
    obtain ⟨row, found, title⟩ := claims _ List.mem_cons_self
    refine ⟨⟨row, found, sameValue_str.mp title⟩, fun moved => clears delta.target_id ?_⟩
    simp [Delta.clears, moved]

/-! ## One applied delta -/

variable {rows next : List Requirement}

theorem settled_of_applies (distinct : Distinct rows) (applies : Applies delta rows next) :
    Settled platform delta next := by
  have after := findRow_applies distinct applies
  cases delta with
  | add delta =>
    exact ⟨delta.requirement, by simp [after, effect], sameValue_refl _⟩
  | modify delta =>
    obtain ⟨⟨current, found⟩, _⟩ := applies
    refine ⟨current.assign delta.changes, by simp [after, effect, found], ?_⟩
    refine changedFieldsMatch_iff.mpr fun field value expected => ?_
    rw [field_assign, expected, Option.getD_some]
    exact sameValue_refl value
  | remove delta =>
    show findRow next delta.target_id = none
    simp [after, effect]
  | rename delta =>
    obtain ⟨⟨current, found⟩, _, _⟩ := applies
    refine ⟨⟨renameRow delta current, by simp [after, effect, found], rfl⟩, fun moved => ?_⟩
    simp [after, effect, Ne.symm moved]

theorem meets_after {earlier later : Delta}
    (before : ordered earlier later) (compatible : Compatible platform earlier later)
    (distinct : Distinct rows) (applies : Applies later rows next)
    (member : claim ∈ Delta.claims earlier) (meets : Meets platform claim rows) : Meets platform claim next := by
  obtain ⟨row, found, holds⟩ := meets
  have after := findRow_applies distinct applies claim.id
  cases later with
  | add later =>
    refine ⟨row, ?_, holds⟩
    have other : claim.id ≠ later.requirement.id := by
      intro same
      rw [same, applies.1] at found
      cases found
    rw [after, effect, if_neg other, found]
  | modify later =>
    by_cases target : claim.id = later.target_id
    · refine ⟨row.assign later.changes, by rw [after, effect, if_pos target, found]; rfl, ?_⟩
      rw [field_assign]
      cases expected : later.changes.expected claim.field with
      | none => exact holds
      | some value =>
        -- Both deltas set the field, so they agree on it.
        have claimed : ⟨claim.id, claim.field, value⟩ ∈ Delta.claims (.modify later) :=
          mem_modify_claims.mpr ⟨target, expected⟩
        have agreed := compatible.agrees claim member _ claimed rfl rfl
        simp only [sameValue, Option.getD_some, decide_eq_true_eq] at agreed ⊢
        exact agreed.symm
    · exact ⟨row, by rw [after, effect, if_neg target, found], holds⟩
  | remove later =>
    have left : Delta.leaves earlier = some claim.id := by
      cases earlier with
      | rename earlier => rw [List.mem_singleton.mp member]; rfl
      | modify earlier => exact absurd before (by simp [ordered, deltaOrder, Delta.operation])
      | add _ | remove _ => cases member
    have other : claim.id ≠ later.target_id :=
      fun same => compatible.spares claim.id left (by rw [same]; rfl)
    exact ⟨row, by rw [after, effect, if_neg other, found], holds⟩
  | rename later =>
    cases earlier with
    | modify earlier => exact absurd before (by simp [ordered, deltaOrder, Delta.operation])
    | add _ | remove _ => cases member
    | rename earlier =>
      obtain rfl := List.mem_singleton.mp member
      by_cases result : DeltaRename.resultId earlier = DeltaRename.resultId later
      · obtain ⟨⟨current, foundTarget⟩, _, _⟩ := applies
        refine ⟨renameRow later current, by rw [after, effect, if_pos result, foundTarget]; rfl, ?_⟩
        have agreed := compatible.agrees _ member
          ⟨DeltaRename.resultId later, .title, .str later.new_title⟩ List.mem_cons_self result rfl
        simp only [sameValue, decide_eq_true_eq] at agreed ⊢
        exact agreed.symm
      · have other : DeltaRename.resultId earlier ≠ later.target_id := by
          intro same
          refine compatible.spares _ rfl ?_
          have moved : DeltaRename.resultId later ≠ later.target_id :=
            fun stays => result (same.trans stays.symm)
          simp [Delta.clears, moved, same]
        exact ⟨row, by rw [after, effect, if_neg result, if_neg other, found], holds⟩

theorem absent_after {later : Delta} (spared : Delta.leaves later ≠ some id) (distinct : Distinct rows)
    (applies : Applies later rows next) (absent : findRow rows id = none) : findRow next id = none := by
  rw [findRow_applies distinct applies]
  cases later with
  | add later =>
    have other : id ≠ later.requirement.id := fun same => spared (by rw [same]; rfl)
    rw [effect, if_neg other, absent]
  | modify later => simp [effect, absent]
  | remove later => simp [effect, absent]
  | rename later =>
    have other : id ≠ DeltaRename.resultId later := fun same => spared (by rw [same]; rfl)
    simp [effect, other, absent]

theorem present_after {later : Delta} (spared : Delta.clears later ≠ some id) (distinct : Distinct rows)
    (applies : Applies later rows next) (present : findRow rows id ≠ none) : findRow next id ≠ none := by
  rw [findRow_applies distinct applies]
  cases later with
  | add later =>
    simp only [effect]
    split <;> simp [present]
  | modify later =>
    simp only [effect]
    split <;> simp [present]
  | remove later =>
    have other : id ≠ later.target_id := fun same => spared (by rw [same]; rfl)
    rw [effect, if_neg other]
    exact present
  | rename later =>
    obtain ⟨⟨current, found⟩, _, _⟩ := applies
    simp only [effect, found]
    split
    · simp
    next elsewhere =>
      have other : id ≠ later.target_id := by
        rintro rfl
        exact spared (by simp [Delta.clears, Ne.symm elsewhere])
      rw [if_neg other]
      exact present

theorem settled_after_applies {earlier later : Delta}
    (before : ordered earlier later) (compatible : Compatible platform earlier later)
    (converse : Compatible platform later earlier) (distinct : Distinct rows)
    (applies : Applies later rows next) (settled : Settled platform earlier rows) :
    Settled platform earlier next := by
  refine settled_of_demands ?_ ?_ ?_
  · intro claim member
    exact meets_after before compatible distinct applies member (settled.claims member)
  · intro id clears
    exact absent_after (fun leaves => converse.spares id leaves clears) distinct applies (settled.clears clears)
  · rintro added rfl
    cases later with
    | add later =>
      obtain ⟨row, found, same⟩ := settled
      refine ⟨row, ?_, same⟩
      have other : added.requirement.id ≠ later.requirement.id := by
        intro same
        rw [same, applies.1] at found
        cases found
      rw [findRow_applies distinct applies, effect, if_neg other, found]
    | modify _ | remove _ | rename _ =>
      exact absurd before (by simp [ordered, deltaOrder, Delta.operation])

/-! ## The plan -/

instance : Std.Total ordered where
  total left right := Nat.le_total (deltaOrder left.operation) (deltaOrder right.operation)

instance : IsTrans Delta ordered where
  trans _ _ _ := Nat.le_trans

theorem sortDeltas_ordered (deltas : List Delta) : (sortDeltas deltas).Pairwise ordered :=
  List.pairwise_insertionSort ordered deltas

theorem mem_sortDeltas {deltas : List Delta} : delta ∈ sortDeltas deltas ↔ delta ∈ deltas :=
  (List.perm_insertionSort ordered deltas).mem_iff

variable {spec target : Spec} {deltas : List Delta} {authority : ProjectionAuthority} {projectedAt : String}

theorem plan_target (planned : (planSpecProjection platform spec deltas authority projectedAt).targetSpec =
      some target) : (∀ step ∈ trace (planDelta platform authority) (sortDeltas deltas) spec.requirements,
      step.response.blocked = false) ∧ target.requirements =
      stateAfter (planDelta platform authority) (sortDeltas deltas) spec.requirements := by
  simp only [planSpecProjection] at planned
  split at planned
  · cases planned
  next unblocked =>
    refine ⟨fun step member => ?_, ?_⟩
    · simp only [List.any_map, List.any_eq_true, not_exists, not_and, Function.comp_apply,
        Bool.not_eq_true] at unblocked
      exact unblocked step member
    · simp only [Option.some.injEq] at planned
      rw [← planned]
      split <;> rfl

theorem target_settled (distinct : Distinct spec.requirements)
    (planned : (planSpecProjection platform spec deltas authority projectedAt).targetSpec =
      some target) (compatible : AllCompatible platform deltas) :
    ∀ delta ∈ deltas, Settled platform delta target.requirements := by
  obtain ⟨unblocked, reached⟩ := plan_target planned
  -- An unblocked step either finds its delta settled or applies it.
  have step : ∀ delta rows, (planDelta platform authority delta rows).1.blocked = false →
      Distinct rows → Settled platform delta (planDelta platform authority delta rows).2 ∧
        Distinct (planDelta platform authority delta rows).2 := by
    intro delta rows accepted distinctRows
    rcases planDelta_cases platform authority delta rows with
      ⟨_, same, settled⟩ | ⟨_, applies⟩ | ⟨blocked, _⟩
    · exact ⟨same.symm ▸ settled, same.symm ▸ distinctRows⟩
    · exact ⟨settled_of_applies distinctRows applies, distinct_applies distinctRows applies⟩
    · rw [accepted] at blocked; cases blocked
  have pairs : (sortDeltas deltas).Pairwise fun earlier later => ordered earlier later ∧
      Compatible platform earlier later ∧ Compatible platform later earlier := by
    refine (sortDeltas_ordered deltas).imp_of_mem ?_
    intro earlier later memberEarlier memberLater before
    have first := mem_sortDeltas.mp memberEarlier
    have second := mem_sortDeltas.mp memberLater
    exact ⟨before, compatible _ first _ second, compatible _ second _ first⟩
  intro delta member
  rw [reached]
  refine settled_after
    (fun delta rows distinctRows accepted => (step delta rows accepted distinctRows).1)
    (fun delta rows distinctRows accepted => (step delta rows accepted distinctRows).2)
    ?_ distinct unblocked pairs delta (mem_sortDeltas.mpr member)
  rintro earlier later rows ⟨before, forward, backward⟩ distinctRows accepted settled
  rcases planDelta_cases platform authority later rows with
    ⟨_, same, _⟩ | ⟨_, applies⟩ | ⟨blocked, _⟩
  · exact same.symm ▸ settled
  · exact settled_after_applies before forward backward distinctRows applies settled
  · rw [show (planDelta platform authority later rows).1.blocked = false from accepted] at blocked
    cases blocked

theorem retrySafe_of_settled (settled : ∀ delta ∈ deltas, Settled platform delta target.requirements) :
    RetrySafe platform target deltas := by
  intro authority projectedAt
  have unchanged : ∀ delta ∈ sortDeltas deltas,
      (planDelta platform authority delta target.requirements).2 = target.requirements :=
    fun delta member => (planDelta_settled (settled delta (mem_sortDeltas.mp member))).2
  obtain ⟨steps, final⟩ := trace_of_unchanged unchanged
  have identical : ∀ row ∈ (trace (planDelta platform authority) (sortDeltas deltas)
      target.requirements).map Record.response, Unneeded row := by
    intro row member
    rw [steps, List.map_map] at member
    obtain ⟨delta, held, rfl⟩ := List.mem_map.mp member
    exact (planDelta_settled (settled delta (mem_sortDeltas.mp held))).1
  have unblocked : ((trace (planDelta platform authority) (sortDeltas deltas)
      target.requirements).map Record.response).any DeltaProjectionDisposition.blocked = false := by
    rw [List.any_eq_false]
    intro row member
    simp [DeltaProjectionDisposition.blocked, show row.status = .identical from identical row member]
  have nothingMissing : ((trace (planDelta platform authority) (sortDeltas deltas)
      target.requirements).map Record.response).filter (fun row => row.status = .missing) = [] := by
    rw [List.filter_eq_nil_iff]
    intro row member
    simp [show row.status = .identical from identical row member]
  refine ⟨?_, ?_, ?_⟩
  · simp [planSpecProjection, unblocked]
  · intro row member
    simp only [planSpecProjection, unblocked] at member
    exact identical row member
  · simp [planSpecProjection, unblocked, nothingMissing, final]

theorem settled_of_retrySafe (safe : RetrySafe platform target deltas) :
    ∀ delta ∈ deltas, Settled platform delta target.requirements := by
  obtain ⟨status, identical, _⟩ := safe .current ""
  have rows : ∀ step ∈ trace (planDelta platform .current) (sortDeltas deltas) target.requirements,
      Unneeded step.response := by
    intro step member
    refine identical step.response ?_
    simp only [planSpecProjection] at status ⊢
    split
    · exact List.mem_map_of_mem member
    · exact List.mem_map_of_mem member
  have unchanging : ∀ delta rows, Unneeded (planDelta platform .current delta rows).1 →
      (planDelta platform .current delta rows).2 = rows :=
    fun delta rows unneeded => (settled_of_identical unneeded).1
  intro delta member
  have quiet := settled_of_unchanging unchanging rows delta (mem_sortDeltas.mpr member)
  exact (settled_of_identical quiet).2

theorem replan_iff (distinct : Distinct spec.requirements)
    (planned : (planSpecProjection platform spec deltas authority projectedAt).targetSpec =
      some target) {released : Spec} (same : released.requirements = target.requirements) :
    RetrySafe platform released deltas ↔ AllCompatible platform deltas := by
  constructor
  · intro safe left memberLeft right memberRight
    have settled := settled_of_retrySafe safe
    exact compatible_of_settled (settled left memberLeft) (settled right memberRight)
  · intro compatible
    refine retrySafe_of_settled fun delta member => ?_
    rw [same]
    exact target_settled distinct planned compatible delta member

end

end Advance.Archive
