import Advance.Archive.ArchiveRetry
import Advance.Validator.AcceptedDeltas

/-! # Accepted changes and safe plans

The validator looks at all specs together and at the deltas in author order; the
planner works on one spec, in sorted order.
-/

namespace Advance.Archive

open Foundation
open Types
open Validator

section

variable (platform : Platform) (authority : ProjectionAuthority)

/-! ## Runs and the map of ids -/

theorem planDelta_moves (delta : Delta) (rows : List Requirement) :
    (planDelta platform authority delta rows).2 = rows ∨
      Applies delta rows (planDelta platform authority delta rows).2 := by
  rcases planDelta_cases platform authority delta rows with ⟨_, same, _⟩ | ⟨_, applies⟩ | ⟨_, same⟩
  · exact .inl same
  · exact .inr applies
  · exact .inl same

theorem distinct_run (deltas : List Delta) {rows : List Requirement} (distinct : Distinct rows) :
    Distinct (stateAfter (planDelta platform authority) deltas rows) := by
  induction deltas generalizing rows with
  | nil => exact distinct
  | cons delta deltas ih =>
    rw [stateAfter_cons]
    rcases planDelta_moves platform authority delta rows with
      same | applies
    · rw [same]
      exact ih distinct
    · exact ih (distinct_applies distinct applies)

variable {platform authority}

variable {id : String}

section

variable {deltas : List Delta} {rows : List Requirement} (distinct : Distinct rows)
include deltas rows distinct

theorem present_run (spared : ∀ delta ∈ deltas, Delta.clears delta ≠ some id) (present : findRow rows id ≠ none) :
    findRow (stateAfter (planDelta platform authority) deltas rows) id ≠ none := by
  induction deltas generalizing rows with
  | nil => exact present
  | cons delta deltas ih =>
    rw [stateAfter_cons]
    have rest : ∀ later ∈ deltas, Delta.clears later ≠ some id :=
      fun later member => spared later (by simp [member])
    rcases planDelta_moves platform authority delta rows with
      same | applies
    · rw [same]
      exact ih distinct rest present
    · exact ih (distinct_applies distinct applies) rest
        (present_after (spared delta (by simp)) distinct applies present)

theorem absent_run (spared : ∀ delta ∈ deltas, Delta.leaves delta ≠ some id) (absent : findRow rows id = none) :
    findRow (stateAfter (planDelta platform authority) deltas rows) id = none := by
  induction deltas generalizing rows with
  | nil => exact absent
  | cons delta deltas ih =>
    rw [stateAfter_cons]
    have rest : ∀ later ∈ deltas, Delta.leaves later ≠ some id :=
      fun later member => spared later (by simp [member])
    rcases planDelta_moves platform authority delta rows with
      same | applies
    · rw [same]
      exact ih distinct rest absent
    · exact ih (distinct_applies distinct applies) rest
        (absent_after (spared delta (by simp)) distinct applies absent)

theorem cleared_run (unblocked : ∀ step ∈ trace (planDelta platform authority) deltas rows,
      step.response.blocked = false) (spared : ∀ delta ∈ deltas, Delta.leaves delta ≠ some id) {remover : Delta}
    (member : remover ∈ deltas) (clears : Delta.clears remover = some id) :
    findRow (stateAfter (planDelta platform authority) deltas rows) id = none := by
  obtain ⟨early, late, rfl⟩ := List.append_of_mem member
  have step := forall_trace.mp unblocked early remover late rfl
  rw [stateAfter_append, stateAfter_cons]
  have before := distinct_run platform authority early distinct
  refine absent_run ?_ (fun later held => spared later (by simp [held])) ?_
  · have after := distinct_run platform authority [remover] before
    exact after
  · rcases planDelta_cases platform authority remover
      (stateAfter (planDelta platform authority) early rows) with
      ⟨_, same, settled⟩ | ⟨_, applies⟩ | ⟨blocked, _⟩
    · rw [same]
      exact settled.clears clears
    · have settled : Settled platform remover _ := settled_of_applies before applies
      exact settled.clears clears
    · rw [show (planDelta platform authority remover _).1.blocked = false from step] at blocked
      cases blocked

end

/-! ## When one step is not blocked -/

theorem add_unblocked {delta : DeltaAdd} {rows : List Requirement}
    (absent : findRow rows delta.requirement.id = none) :
    (planDelta platform authority (.add delta) rows).1.blocked = false := by
  simp [planDelta, planAdd, absent, DeltaProjectionDisposition.blocked]

theorem modify_unblocked {delta : DeltaModify} {rows : List Requirement} :
    (planDelta platform .current (.modify delta) rows).1.blocked = false ↔ findRow rows delta.target_id ≠ none := by
  simp only [planDelta, planModify]
  cases found : findRow rows delta.target_id with
  | none => simp [DeltaProjectionDisposition.blocked]
  | some row =>
    simp only [hasPreimageAuthority, if_true]
    split <;> simp [DeltaProjectionDisposition.blocked]

theorem remove_unblocked {delta : DeltaRemove} {rows : List Requirement} :
    (planDelta platform .current (.remove delta) rows).1.blocked = false := by
  simp only [planDelta, planRemove]
  cases found : findRow rows delta.target_id with
  | none => simp [DeltaProjectionDisposition.blocked]
  | some row => simp [hasPreimageAuthority, DeltaProjectionDisposition.blocked]

theorem rename_unblocked {delta : DeltaRename} {rows : List Requirement}
    (present : findRow rows delta.target_id ≠ none) (free : DeltaRename.resultId delta ≠ delta.target_id →
      findRow rows (DeltaRename.resultId delta) = none) :
    (planDelta platform .current (.rename delta) rows).1.blocked = false := by
  obtain ⟨row, found⟩ := Option.ne_none_iff_exists'.mp present
  simp only [planDelta, planRename, found]
  split
  · rfl
  · split
    next taken =>
      have absent := any_eq_false_iff.mpr (free taken.1)
      rw [taken.2] at absent
      cases absent
    next => rfl

theorem rename_blocked {delta : DeltaRename} {rows : List Requirement} (absent : findRow rows delta.target_id = none)
    (untitled : findRow rows (DeltaRename.resultId delta) = none) :
    (planDelta platform authority (.rename delta) rows).1.blocked = true := by
  simp [planDelta, planRename, absent, untitled, DeltaProjectionDisposition.blocked]

variable {spec : Spec}

theorem plan_safe_iff {deltas : List Delta} {projectedAt : String} :
    (planSpecProjection platform spec deltas authority projectedAt).status = .safe ↔
      ∀ step ∈ trace (planDelta platform authority) (sortDeltas deltas) spec.requirements,
        step.response.blocked = false := by
  simp only [planSpecProjection]
  split
  next blocked =>
    obtain ⟨row, member, isBlocked⟩ := List.any_eq_true.mp blocked
    obtain ⟨step, held, rfl⟩ := List.mem_map.mp member
    simp only [reduceCtorEq, false_iff]
    intro all
    rw [all step held] at isBlocked
    cases isBlocked
  next unblocked =>
    refine ⟨fun _ step member => ?_, fun _ => rfl⟩
    rw [Bool.not_eq_true, List.any_eq_false] at unblocked
    simpa using unblocked step.response (List.mem_map_of_mem member)

theorem target_of_safe {deltas : List Delta} {projectedAt : String}
    (safe : (planSpecProjection platform spec deltas authority projectedAt).status = .safe) :
    ∃ target, (planSpecProjection platform spec deltas authority projectedAt).targetSpec = some target := by
  simp only [planSpecProjection] at safe ⊢
  split at safe
  · cases safe
  next unblocked =>
    rw [if_neg unblocked]
    exact ⟨_, rfl⟩

/-! ## Deltas in their place -/

structure Placed (rows : List Requirement) (deltas : List Delta) : Prop where
  located : ∀ delta ∈ deltas, delta.operation = .modify ∨ delta.operation = .rename →
    ∀ targetId, delta.targetId = some targetId → findRow rows targetId ≠ none
  kept : ∀ modify remove, Delta.modify modify ∈ deltas → Delta.remove remove ∈ deltas →
    modify.target_id ≠ remove.target_id

/-- The id a delta brings into the spec, an empty one included. -/
def givenId : Delta → Option String
  | .add delta => some delta.requirement.id
  | .rename delta => delta.new_id
  | .modify _ | .remove _ => none

/-- An empty new id, which the validator skips, would have passed its checks: it is given once at
    most, and not to a requirement beside one that has it. -/
structure EmptyIdsSound (context : ValidationContext) (deltas : List Delta) : Prop where
  once : (deltas.filterMap givenId).count "" ≤ 1
  free : ∀ delta, Delta.rename delta ∈ deltas → delta.new_id = some "" → delta.target_id ≠ "" →
    "" ∉ context.existingRequirementIds

/-- What the validator established about a capability's deltas, with the premises about the spec:
    its ids are known to the validator, and the adds are new to it. -/
structure Premises (context : ValidationContext) (rows : List Requirement)
    (deltas : List Delta) : Prop where
  checked : Checked context deltas
  known : ∀ id, findRow rows id ≠ none → id ∈ context.existingRequirementIds
  fresh : ∀ delta, Delta.add delta ∈ deltas → delta.requirement.id ∉ context.existingRequirementIds
  empties : EmptyIdsSound context deltas

variable {context : ValidationContext} {rows : List Requirement} {deltas : List Delta}

theorem count_givenId (nonempty : id ≠ "") (deltas : List Delta) :
    (deltas.filterMap givenId).count id = (deltas.filterMap introducedId).count id := by
  induction deltas with
  | nil => rfl
  | cons delta deltas ih =>
    cases delta with
    | add delta => simp [givenId, introducedId, List.count_cons, ih]
    | modify _ | remove _ => exact ih
    | rename delta =>
      have kept : introducedId (.rename delta) = delta.new_id.filter (· ≠ "") := rfl
      have given : givenId (.rename delta) = delta.new_id := rfl
      rw [List.filterMap_cons, List.filterMap_cons, kept, given]
      cases delta.new_id with
      | none => exact ih
      | some newId =>
        by_cases empty : newId = ""
        · have other : ¬ "" = id := fun same => nonempty same.symm
          simp [Option.filter, empty, ih, other]
        · simp [Option.filter, empty, List.count_cons, ih]

namespace Premises

theorem givenOnce (premises : Premises context rows deltas) : (deltas.filterMap givenId).Nodup := by
  refine List.nodup_iff_count_le_one.mpr fun id => ?_
  by_cases empty : id = ""
  · rw [empty]
    exact premises.empties.once
  · rw [count_givenId empty]
    exact List.nodup_iff_count_le_one.mp premises.checked.introducedOnce id

theorem moved (premises : Premises context rows deltas) {delta : DeltaRename} (member : Delta.rename delta ∈ deltas)
    (moves : DeltaRename.resultId delta ≠ delta.target_id) : delta.new_id = some (DeltaRename.resultId delta) ∧
      DeltaRename.resultId delta ∉ context.existingRequirementIds := by
  cases given : delta.new_id with
  | none => simp [DeltaRename.resultId, given] at moves
  | some newId =>
    have result : DeltaRename.resultId delta = newId := by simp [DeltaRename.resultId, given]
    rw [result] at moves ⊢
    refine ⟨rfl, ?_⟩
    by_cases empty : newId = ""
    · subst empty
      exact premises.empties.free delta member given (Ne.symm moves)
    · exact premises.checked.newIdFree delta newId member (by simp [DeltaRename.newId, given, empty]) moves

variable {id : String}

theorem gives (premises : Premises context rows deltas) {delta : Delta}
    (member : delta ∈ deltas) (leaves : Delta.leaves delta = some id) :
    (givenId delta = some id ∧ id ∉ context.existingRequirementIds) ∨
      ∃ rename, delta = .rename rename ∧ rename.target_id = id := by
  cases delta with
  | add delta =>
    obtain rfl := Option.some.inj leaves
    exact .inl ⟨rfl, premises.fresh delta member⟩
  | rename delta =>
    obtain rfl := Option.some.inj leaves
    by_cases stays : DeltaRename.resultId delta = delta.target_id
    · exact .inr ⟨delta, rfl, stays.symm⟩
    · exact .inl (premises.moved member stays)
  | modify _ | remove _ => cases leaves

variable {early late : List Delta}

section

variable (premises : Premises context rows deltas)
include premises

theorem given_apart {delta earlier : Delta} (split : sortDeltas deltas = early ++ delta :: late)
    (before : earlier ∈ early) (given : givenId delta = some id) : givenId earlier ≠ some id := by
  intro same
  have once : ((sortDeltas deltas).filterMap givenId).Nodup :=
    ((List.perm_insertionSort ordered deltas).filterMap givenId).nodup_iff.mpr premises.givenOnce
  rw [split, List.filterMap_append, List.filterMap_cons, given] at once
  exact (List.nodup_append.mp once).2.2 id (List.mem_filterMap.mpr ⟨earlier, before, same⟩) id List.mem_cons_self rfl

theorem renamed_apart {delta earlier : DeltaRename} (split : sortDeltas deltas = early ++ .rename delta :: late)
    (before : Delta.rename earlier ∈ early) : earlier.target_id ≠ delta.target_id := by
  intro same
  have once := premises.checked.renamedOnce delta.target_id
  rw [← ((List.perm_insertionSort ordered deltas).filter _).length_eq] at once
  rw [show deltas.insertionSort ordered = _ from split, List.filter_append, List.filter_cons,
    if_pos (by simp [Delta.operation, Delta.targetId]), List.length_append] at once
  have found : Delta.rename earlier ∈ early.filter fun other =>
      other.operation = .rename ∧ other.targetId = some delta.target_id :=
    List.mem_filter.mpr ⟨before, by simp [Delta.operation, Delta.targetId, same]⟩
  have counted := List.length_pos_of_mem found
  simp only [List.length_cons] at once
  omega

theorem target_unleft {delta earlier : Delta} (split : sortDeltas deltas = early ++ delta :: late)
    (before : earlier ∈ early) {targetId : String} (targets : delta.targetId = some targetId) :
    Delta.leaves earlier ≠ some targetId := by
  intro leaves
  have memberEarlier : earlier ∈ deltas := mem_sortDeltas.mp (split ▸ List.mem_append_left _ before)
  have member : delta ∈ deltas :=
    mem_sortDeltas.mp (split ▸ List.mem_append_right _ List.mem_cons_self)
  rcases premises.gives memberEarlier leaves with ⟨_, unknown⟩ | ⟨rename, rfl, same⟩
  · exact unknown (premises.checked.targetExists delta member targetId targets)
  · -- A rename in place shares its target with no other delta.
    have operation := premises.checked.renamedAlone rename delta memberEarlier member (by rw [targets, same])
    cases delta with
    | rename delta =>
      refine premises.renamed_apart split before ?_
      rw [same]
      exact (Option.some.inj targets).symm
    | add _ | modify _ | remove _ => cases operation

theorem result_unleft {delta : DeltaRename} {earlier : Delta}
    (split : sortDeltas deltas = early ++ .rename delta :: late) (before : earlier ∈ early)
    (moves : DeltaRename.resultId delta ≠ delta.target_id) :
    Delta.leaves earlier ≠ some (DeltaRename.resultId delta) := by
  intro leaves
  have memberEarlier : earlier ∈ deltas := mem_sortDeltas.mp (split ▸ List.mem_append_left _ before)
  have member : Delta.rename delta ∈ deltas :=
    mem_sortDeltas.mp (split ▸ List.mem_append_right _ List.mem_cons_self)
  obtain ⟨given, unknown⟩ := premises.moved member moves
  rcases premises.gives memberEarlier leaves with ⟨same, _⟩ | ⟨rename, rfl, same⟩
  · exact premises.given_apart split before given same
  · exact unknown (premises.checked.targetExists _ memberEarlier _ (congrArg some same))

theorem absent (unknown : id ∉ context.existingRequirementIds) : findRow rows id = none := by
  by_contra present
  exact unknown (premises.known id present)

end

end Premises

theorem unblocked_of_placed (premises : Premises context rows deltas) (distinct : Distinct rows)
    (placed : Placed rows deltas) : ∀ step ∈ trace (planDelta platform .current) (sortDeltas deltas) rows,
      step.response.blocked = false := by
  refine forall_trace.mpr fun early delta late split => ?_
  have inEarly : ∀ earlier ∈ early, earlier ∈ deltas :=
    fun earlier before => mem_sortDeltas.mp (split ▸ List.mem_append_left _ before)
  have member : delta ∈ deltas :=
    mem_sortDeltas.mp (split ▸ List.mem_append_right _ List.mem_cons_self)
  show (planDelta platform .current delta _).1.blocked = false
  cases delta with
  | add delta =>
    have unknown := premises.fresh delta member
    refine add_unblocked (absent_run distinct (fun earlier before leaves => ?_) (premises.absent unknown))
    rcases premises.gives (inEarly earlier before) leaves with ⟨same, _⟩ | ⟨rename, rfl, same⟩
    · exact premises.given_apart split before rfl same
    · exact unknown (premises.checked.targetExists _ (inEarly _ before) _ (congrArg some same))
  | modify delta =>
    refine modify_unblocked.mpr (present_run distinct (fun earlier before clears => ?_)
      (placed.located _ member (.inl rfl) _ rfl))
    cases earlier with
    | remove earlier =>
      exact placed.kept delta earlier member (inEarly _ before) (Option.some.inj clears).symm
    | rename earlier =>
      have same : earlier.target_id = delta.target_id := by
        simp only [Delta.clears] at clears
        split at clears
        · cases clears
        · exact Option.some.inj clears
      have operation := premises.checked.renamedAlone earlier _ (inEarly _ before) member (congrArg some same.symm)
      cases operation
    | add _ | modify _ => cases clears
  | remove delta => exact remove_unblocked
  | rename delta =>
    refine rename_unblocked (present_run distinct (fun earlier before clears => ?_)
      (placed.located _ member (.inr rfl) _ rfl)) fun moves => ?_
    · cases earlier with
      | remove earlier =>
        have operation := premises.checked.renamedAlone delta _ member (inEarly _ before) clears
        cases operation
      | rename earlier =>
        simp only [Delta.clears] at clears
        split at clears
        · cases clears
        · exact premises.renamed_apart split before (Option.some.inj clears)
      | add _ | modify _ => cases clears
    · exact absent_run distinct
        (fun earlier before => premises.result_unleft split before moves)
        (premises.absent (premises.moved member moves).2)

theorem placed_of_unblocked (premises : Premises context rows deltas) (distinct : Distinct rows)
    (unblocked : ∀ step ∈ trace (planDelta platform .current) (sortDeltas deltas) rows,
      step.response.blocked = false) : Placed rows deltas where
  located := by
    intro delta member operation targetId targets missing
    obtain ⟨early, late, split⟩ := List.append_of_mem (mem_sortDeltas.mpr member)
    have step : (planDelta platform .current delta
        (stateAfter (planDelta platform .current) early rows)).1.blocked = false :=
      forall_trace.mp unblocked early delta late split
    have gone : findRow (stateAfter (planDelta platform .current) early rows) targetId = none :=
      absent_run distinct (fun earlier before => premises.target_unleft split before targets) missing
    cases delta with
    | modify delta =>
      obtain rfl := Option.some.inj targets
      exact modify_unblocked.mp step gone
    | rename delta =>
      obtain rfl := Option.some.inj targets
      have untitled : findRow (stateAfter (planDelta platform .current) early rows)
          (DeltaRename.resultId delta) = none := by
        by_cases stays : DeltaRename.resultId delta = delta.target_id
        · rw [stays]
          exact gone
        · exact absent_run distinct
            (fun earlier before => premises.result_unleft split before stays)
            (premises.absent (premises.moved member stays).2)
      rw [rename_blocked gone untitled] at step
      cases step
    | add _ | remove _ => rcases operation with operation | operation <;> cases operation
  kept := by
    intro modify remove memberModify memberRemove same
    obtain ⟨early, late, split⟩ := List.append_of_mem (mem_sortDeltas.mpr memberModify)
    have step := forall_trace.mp unblocked early (.modify modify) late split
    -- Removes are sorted before modifies.
    have before : Delta.remove remove ∈ early := by
      have sorted := sortDeltas_ordered deltas
      have held := mem_sortDeltas.mpr memberRemove
      rw [split] at sorted held
      rcases List.mem_append.mp held with front | back
      · exact front
      · rcases List.mem_cons.mp back with impossible | back
        · cases impossible
        · have late := (List.pairwise_cons.mp (List.pairwise_append.mp sorted).2.1).1 _ back
          exact absurd late (by simp [ordered, deltaOrder, Delta.operation])
    have unblockedEarly : ∀ step ∈ trace (planDelta platform .current) early rows, step.response.blocked = false := by
      intro step member
      refine unblocked step ?_
      rw [split, trace_append]
      exact List.mem_append_left _ member
    have gone := cleared_run distinct unblockedEarly
      (fun earlier before => premises.target_unleft split before rfl) before
      (congrArg some same.symm)
    exact modify_unblocked.mp step gone

/-! ## The change -/

/-- Each spec set under its name, a later one over an earlier one of that name. -/
def specMapOf (specs : List Spec) : SpecMap where
  get := fun capability => specs.reverse.find? fun spec => spec.name = capability
  named := by
    intro capability spec held
    have same := List.find?_some held
    exact of_decide_eq_true same

theorem mem_of_specMapOf {specs : List Spec} {capability : String}
    (found : (specMapOf specs).get capability = some spec) : spec ∈ specs :=
  List.mem_reverse.mp (List.mem_of_find?_eq_some (found : specs.reverse.find? _ = some spec))

theorem mem_existingRequirementIds {specs : List Spec} {active : Option (List ActiveChange)}
    {inventory : Option ConflictInventory} :
    id ∈ (buildValidationContext specs active inventory).existingRequirementIds ↔
      ∃ spec ∈ specs, ∃ row ∈ spec.requirements, row.id = id := by
  simp [buildValidationContext]

/-- For specs with distinct requirement ids and a change the validator accepts, whose adds are new
    and whose empty ids are sound: every plan is safe exactly when the deltas of each capability are
    placed in its spec. -/
theorem accepted_safe_iff {specs : List Spec} {change : Change}
    {active : Option (List ActiveChange)} {inventory : Option ConflictInventory} {archivedAt : String}
    (distinct : ((specs.flatMap Spec.requirements).map Requirement.id).Nodup)
    (fresh : ∀ entry ∈ change.deltas.entries, ∀ delta, Delta.add delta ∈ entry.2 →
      ∀ spec ∈ specs, ∀ row ∈ spec.requirements, row.id ≠ delta.requirement.id) (accepted : Accepted
      (runConflictChecks change (buildValidationContext specs active inventory)))
    (empties : ∀ entry ∈ change.deltas.entries,
      EmptyIdsSound (buildValidationContext specs active inventory) entry.2) : (∀ entry ∈ change.deltas.entries,
      (planSpecProjection platform (baseSpec platform (specMapOf specs) archivedAt entry.1) entry.2
        .current archivedAt).status = .safe) ↔ ∀ entry ∈ change.deltas.entries,
      Placed (baseSpec platform (specMapOf specs) archivedAt entry.1).requirements entry.2 := by
  refine forall₂_congr fun entry member => ?_
  -- The base is one of the specs, or the empty spec of a new capability.
  have base : ∀ row ∈ (baseSpec platform (specMapOf specs) archivedAt entry.1).requirements,
      ∃ spec ∈ specs, row ∈ spec.requirements := by
    intro row held
    cases found : (specMapOf specs).get entry.1 with
    | none => simp [baseSpec, found, emptySpecForProjection] at held
    | some spec =>
      rw [baseSpec, found, Option.getD_some] at held
      exact ⟨spec, mem_of_specMapOf found, held⟩
  have distinctBase : Distinct (baseSpec platform (specMapOf specs) archivedAt entry.1).requirements := by
    cases found : (specMapOf specs).get entry.1 with
    | none => simp [baseSpec, found, emptySpecForProjection, Distinct]
    | some spec =>
      rw [baseSpec, found, Option.getD_some]
      refine distinct.sublist (List.Sublist.map _ ?_)
      exact List.sublist_flatten_of_mem (List.mem_map_of_mem (mem_of_specMapOf found))
  have premises : Premises (buildValidationContext specs active inventory)
      (baseSpec platform (specMapOf specs) archivedAt entry.1).requirements entry.2 :=
    { checked := checked_of_accepted accepted member
      known := by
        intro id present
        obtain ⟨row, found⟩ := Option.ne_none_iff_exists'.mp present
        obtain ⟨spec, held, inSpec⟩ := base row (List.mem_of_find?_eq_some found)
        exact mem_existingRequirementIds.mpr ⟨spec, held, row, inSpec, findRow_id found⟩
      fresh := by
        intro delta added known
        obtain ⟨spec, held, row, inSpec, same⟩ := mem_existingRequirementIds.mp known
        exact fresh entry member delta added spec held row inSpec same
      empties := empties entry member }
  rw [plan_safe_iff]
  exact ⟨placed_of_unblocked premises distinctBase, unblocked_of_placed premises distinctBase⟩

end

/-! ## Fixed runs -/

def contradiction : List Delta :=
  [.modify { id := "dl-body", target_id := "rq-search01", precondition := none
             changes := ⟨none, some "Search by tag", none, none, none⟩
             nonempty := body_nonempty "Search by tag"
             parented := body_parented "rq-search01" "Search by tag" },
    .remove ⟨"dl-old", "rq-search01", "superseded", none⟩]

def contradictingDeltas : ChangeDeltas := ⟨[("search", contradiction)], List.nodup_singleton _⟩

/-- The validator accepts a change that modifies and removes one requirement, and the planner blocks
    it: the remove is sorted before the modify. -/
theorem contradiction_accepted_and_blocked :
    ((([searchSpec "Search by name"].flatMap Spec.requirements).map Requirement.id).Nodup) ∧
    (∀ entry ∈ contradictingDeltas.entries, ∀ delta, Delta.add delta ∉ entry.2) ∧
    Accepted (runConflictChecks ⟨"dropSearch", contradictingDeltas⟩
      (buildValidationContext [searchSpec "Search by name"] none none)) ∧
    (planSpecProjection (plainPlatform fun _ => noDigest)
      (baseSpec (plainPlatform fun _ => noDigest) (specMapOf [searchSpec "Search by name"])
        "2026-02-01T00:00:00.000Z" "search") contradiction .current
      "2026-02-01T00:00:00.000Z").status = .blocked := by
  refine ⟨List.nodup_singleton _, ?_, by decide, by rfl⟩
  intro entry member delta added
  obtain rfl := List.mem_singleton.mp member
  simp [contradiction] at added

/-- Two deltas that modify a requirement of their own capability. -/
theorem modification_accepted_and_safe :
    (modifyingDeltas.entries.map fun entry => (planSpecProjection (plainPlatform fun _ => noDigest)
      (baseSpec (plainPlatform fun _ => noDigest) (specMapOf [searchSpec "Search by name"])
        "2026-02-01T00:00:00.000Z" entry.1) entry.2 .current "2026-02-01T00:00:00.000Z").status) =
      [.safe] := by
  have onlyModifies : ∀ entry ∈ modifyingDeltas.entries, ∀ delta ∈ entry.2,
      delta.operation = .modify ∧ delta.targetId = some "rq-search01" := by decide
  have safe := (@accepted_safe_iff (plainPlatform fun _ => noDigest) [searchSpec "Search by name"]
    ⟨"tagSearch", modifyingDeltas⟩ none none "2026-02-01T00:00:00.000Z"
    (List.nodup_singleton _) (by
      intro entry member delta added
      cases (onlyModifies entry member _ added).1) (by decide) (by
      intro entry member
      refine ⟨?_, fun delta renamed => by cases (onlyModifies entry member _ renamed).1⟩
      obtain rfl := List.mem_singleton.mp member
      decide)).mpr (by
      intro entry member
      refine ⟨fun delta held _ targetId targets => ?_, fun _ remove _ removed => ?_⟩
      · obtain rfl := Option.some.inj (targets.symm.trans (onlyModifies entry member delta held).2)
        obtain rfl := List.mem_singleton.mp member
        decide
      · cases (onlyModifies entry member _ removed).1)
  exact congrArg (· :: []) (safe _ (List.mem_singleton.mpr rfl))

end Advance.Archive
