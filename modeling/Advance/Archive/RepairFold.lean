import Advance.Archive.HistoricalRepair
import Advance.Archive.PlanSafety

/-! # Repairing one archive
-/

namespace Advance.Archive

open Foundation
open Types

/-! ## Plans that find nothing to do -/

section

variable {platform : Platform} {authority : ProjectionAuthority} {spec : Spec} {deltas : List Delta} {moment : String}

theorem settled_of_quiet (safe : (planSpecProjection platform spec deltas authority moment).status = .safe)
    (quiet : anyMissing (planSpecProjection platform spec deltas authority moment) = false) :
    ∀ delta ∈ deltas, Settled platform delta spec.requirements := by
  have unblocked := plan_safe_iff.mp safe
  have identical : ∀ step ∈ trace (planDelta platform authority) (sortDeltas deltas) spec.requirements,
      Unneeded step.response := by
    intro step member
    have found : step.response.status ≠ .missing := by
      intro missing
      have some : anyMissing (planSpecProjection platform spec deltas authority moment) = true := by
        refine List.any_eq_true.mpr ⟨step.response, ?_, by simpa using missing⟩
        simp only [planSpecProjection]
        split
        · exact List.mem_map_of_mem member
        · exact List.mem_map_of_mem member
      rw [some] at quiet
      cases quiet
    have free := unblocked step member
    rw [Unneeded]
    cases status : step.response.status with
    | identical => rfl
    | missing => exact absurd status found
    | conflicting => simp [DeltaProjectionDisposition.blocked, status] at free
    | unverified => simp [DeltaProjectionDisposition.blocked, status] at free
  have unchanging : ∀ delta rows, Unneeded (planDelta platform authority delta rows).1 →
      (planDelta platform authority delta rows).2 = rows :=
    fun delta rows unneeded => (settled_of_identical unneeded).1
  intro delta member
  have settled := settled_of_unchanging unchanging identical delta (mem_sortDeltas.mpr member)
  exact (settled_of_identical settled).2

theorem quiet_of_settled (settled : ∀ delta ∈ deltas, Settled platform delta spec.requirements) :
    (planSpecProjection platform spec deltas authority moment).status = .safe ∧
      anyMissing (planSpecProjection platform spec deltas authority moment) = false ∧
      (planSpecProjection platform spec deltas authority moment).targetSpec = some spec := by
  obtain ⟨safe, identical, same⟩ := retrySafe_of_settled settled authority moment
  refine ⟨safe, List.any_eq_false.mpr fun row member => ?_, same⟩
  simp [show row.status = .identical from identical row member]

end

/-! ## One capability -/

section

variable (sources : RepairSources) (dispositions : List HistoricalConflictDisposition)

/-- The ids of the adds that dispositions keep out, where every conflict has its own. -/
def preservedIds (change : HistoricalArchiveChange) (capability : String) (current : Spec) (deltas : List Delta) :
    List String :=
  let plan := historicalPlan sources change capability current deltas
  if onlyConflicts plan && (conflictIds plan).all fun deltaId =>
      (boundDisposition sources dispositions change current deltas deltaId).isSome then
    conflictIds plan
  else []

/-- The capability has a spec in which every delta is settled, but for the adds that are kept out. -/
def QuietCapability (change : HistoricalArchiveChange) (specs : SpecMap) (entry : String × List Delta) : Prop :=
  ∃ spec, specs.get entry.1 = some spec ∧ ∀ delta ∈ entry.2,
    delta.id ∈ preservedIds sources dispositions change entry.1 spec entry.2 ∨
      Settled sources.platform delta spec.requirements

variable {sources dispositions} {change : HistoricalArchiveChange} {capability : String} {current : Spec}
  {deltas : List Delta}

theorem remainingPlan_quiet_iff (excluded : List String) :
    ((remainingPlan sources change capability current deltas excluded).status = .safe ∧
        anyMissing (remainingPlan sources change capability current deltas excluded) = false) ↔
      ∀ delta ∈ deltas, delta.id ∈ excluded ∨ Settled sources.platform delta current.requirements := by
  have remaining : (∀ delta ∈ deltas.filter (fun delta => delta.id ∉ excluded),
      Settled sources.platform delta current.requirements) ↔
      ∀ delta ∈ deltas, delta.id ∈ excluded ∨ Settled sources.platform delta current.requirements := by
    constructor
    · intro settled delta member
      by_cases out : delta.id ∈ excluded
      · exact .inl out
      · exact .inr (settled delta (List.mem_filter.mpr ⟨member, by simpa using out⟩))
    · intro each delta member
      obtain ⟨listed, kept⟩ := List.mem_filter.mp member
      exact (each delta listed).resolve_left (by simpa using kept)
  rw [← remaining, remainingPlan]
  split
  next none =>
    rw [List.length_eq_zero_iff] at none
    refine iff_of_true ⟨rfl, rfl⟩ fun delta member => ?_
    rw [none] at member
    cases member
  next =>
    constructor
    · exact fun quiet => settled_of_quiet quiet.1 quiet.2
    · exact fun settled => ⟨(quiet_of_settled settled).1, (quiet_of_settled settled).2.1⟩

theorem remainingPlan_target (excluded : List String)
    (settled : ∀ delta ∈ deltas, delta.id ∈ excluded ∨ Settled sources.platform delta current.requirements) :
    (remainingPlan sources change capability current deltas excluded).targetSpec = some current := by
  rw [remainingPlan]
  split
  next => rfl
  next =>
    refine (quiet_of_settled fun delta member => ?_).2.2
    obtain ⟨listed, kept⟩ := List.mem_filter.mp member
    exact (settled delta listed).resolve_left (by simpa using kept)

theorem capabilityPlan_quiet_iff :
    ((capabilityPlan sources dispositions change capability current deltas).plan.status = .safe ∧
        anyMissing (capabilityPlan sources dispositions change capability current deltas).plan = false) ↔
      ∀ delta ∈ deltas, delta.id ∈ preservedIds sources dispositions change capability current deltas ∨
        Settled sources.platform delta current.requirements := by
  rw [capabilityPlan, preservedIds]
  by_cases conflicts : onlyConflicts (historicalPlan sources change capability current deltas) = true
  · simp only [conflicts, if_true, Bool.true_and]
    split
    next => exact remainingPlan_quiet_iff _
    next =>
      -- The plan stays blocked, and some delta of it is not settled.
      have blocked : (historicalPlan sources change capability current deltas).status = .blocked := by
        simp only [onlyConflicts, Bool.and_eq_true, decide_eq_true_eq] at conflicts
        exact conflicts.1.1
      refine iff_of_false (fun quiet => ?_) fun settled => ?_
      · rw [blocked] at quiet
        cases quiet.1
      · have safe : (historicalPlan sources change capability current deltas).status = .safe :=
          (quiet_of_settled fun delta member => (settled delta member).resolve_left List.not_mem_nil).1
        rw [blocked] at safe
        cases safe
  · rw [Bool.not_eq_true] at conflicts
    simp only [conflicts, Bool.false_eq_true, if_false, Bool.false_and, List.not_mem_nil, false_or]
    constructor
    · exact fun quiet => settled_of_quiet quiet.1 quiet.2
    · exact fun settled => ⟨(quiet_of_settled settled).1, (quiet_of_settled settled).2.1⟩

theorem capabilityPlan_target
    (settled : ∀ delta ∈ deltas, delta.id ∈ preservedIds sources dispositions change capability current deltas ∨
      Settled sources.platform delta current.requirements) :
    (capabilityPlan sources dispositions change capability current deltas).plan.targetSpec = some current := by
  rw [preservedIds] at settled
  rw [capabilityPlan]
  by_cases conflicts : onlyConflicts (historicalPlan sources change capability current deltas) = true
  · simp only [conflicts, if_true, Bool.true_and] at settled ⊢
    split
    next bound =>
      rw [if_pos bound] at settled
      exact remainingPlan_target _ settled
    next unbound =>
      rw [if_neg unbound] at settled
      exact (quiet_of_settled fun delta member => (settled delta member).resolve_left List.not_mem_nil).2.2
  · rw [Bool.not_eq_true] at conflicts
    simp only [conflicts, Bool.false_eq_true, if_false, Bool.false_and, List.not_mem_nil, false_or] at settled ⊢
    exact (quiet_of_settled settled).2.2

theorem preservedIds_unbound
    (unbound : ∀ deltaId, boundDisposition sources dispositions change current deltas deltaId = none) :
    preservedIds sources dispositions change capability current deltas = [] := by
  rw [preservedIds]
  split_ifs with bound
  · simp only [Bool.and_eq_true, List.all_eq_true] at bound
    refine List.eq_nil_iff_forall_not_mem.mpr fun deltaId member => ?_
    have some := bound.2 deltaId member
    rw [unbound] at some
    cases some
  · rfl

theorem preservedIds_absent (none : current.requirements = []) :
    preservedIds sources dispositions change capability current deltas = [] := by
  refine preservedIds_unbound fun deltaId => ?_
  have pair : conflictingPair current deltas deltaId = Option.none := by
    rw [conflictingPair]
    split
    · simp [none, findRow]
    · rfl
  simp [boundDisposition, conflictBinding, pair]

theorem SpecMap.ext_get {left right : SpecMap} (same : ∀ capability, left.get capability = right.get capability) :
    left = right := by
  obtain ⟨leftGet, leftNamed⟩ := left
  obtain ⟨rightGet, rightNamed⟩ := right
  obtain rfl : leftGet = rightGet := funext same
  rfl

variable {specs : SpecMap}

theorem SpecMap.set_same {spec : Spec} (there : specs.get spec.name = some spec) :
    specs.set spec = specs := by
  refine SpecMap.ext_get fun capability => ?_
  simp only [SpecMap.set]
  split
  next same => rw [same, there]
  next => rfl

theorem SpecMap.set_other {spec : Spec} {capability : String} (other : capability ≠ spec.name) :
    (specs.set spec).get capability = specs.get capability := if_neg other

theorem capabilityPlan_name {target : Spec}
    (planned : (capabilityPlan sources dispositions change capability current deltas).plan.targetSpec = some target) :
    target.name = current.name := by
  rw [capabilityPlan] at planned
  split at planned
  next =>
    simp only at planned
    split at planned
    · rw [remainingPlan] at planned
      split at planned
      · rw [Option.some.inj planned]
      · exact plan_name planned
    · exact plan_name planned
  next => exact plan_name planned

variable {archivedAt : String} {entry : String × List Delta} {draft next : RepairDraft}

theorem absent_unsettled {archivedAt : String} (nonempty : deltas ≠ [])
    (adds : ∀ delta ∈ deltas, delta.operation = .add) : ¬ ∀ delta ∈ deltas,
      delta.id ∈ preservedIds sources dispositions change capability (absentSpec capability archivedAt) deltas ∨
        Settled sources.platform delta (absentSpec capability archivedAt).requirements := by
  intro settled
  obtain ⟨delta, member⟩ := List.exists_mem_of_ne_nil deltas nonempty
  have found := settled delta member
  rw [preservedIds_absent rfl] at found
  have isAdd := adds delta member
  cases delta with
  | add delta =>
    obtain ⟨row, there, _⟩ := found.resolve_left List.not_mem_nil
    cases there
  | modify _ | remove _ | rename _ => cases isAdd

variable (archivedAt) in
theorem repairCapability_quiet (quiet : QuietCapability sources dispositions change draft.proposed entry) :
    ∃ next, repairCapability sources dispositions archivedAt change entry draft = (none, next) ∧
      next.proposed = draft.proposed ∧ next.missing = draft.missing ∧ next.archiveAffected = draft.archiveAffected := by
  obtain ⟨spec, found, settled⟩ := quiet
  obtain ⟨safe, nothing⟩ := capabilityPlan_quiet_iff.mpr settled
  have target := capabilityPlan_target settled
  have same : draft.proposed.set spec = draft.proposed :=
    SpecMap.set_same (by rw [draft.proposed.named _ _ found, found])
  refine ⟨(draft.record entry.1 (capabilityPlan sources dispositions change entry.1 spec entry.2)).accept entry.1
    (capabilityPlan sources dispositions change entry.1 spec entry.2).plan spec, ?_, same, ?_, ?_⟩
  · simp [repairCapability, found, safe, target, startVersion]
  · simp [RepairDraft.accept, RepairDraft.record, nothing]
  · simp [RepairDraft.accept, RepairDraft.record, nothing]

theorem repairCapability_accepted (nonempty : entry.2 ≠ [])
    (accepted : repairCapability sources dispositions archivedAt change entry draft = (none, next)) :
    (QuietCapability sources dispositions change draft.proposed entry ∧ next.proposed = draft.proposed ∧
        next.missing = draft.missing ∧ next.archiveAffected = draft.archiveAffected) ∨
      (¬ QuietCapability sources dispositions change draft.proposed entry ∧ next.missing = true ∧
        next.archiveAffected = draft.archiveAffected ++ [entry.1] ∧
        ∃ target, target.name = entry.1 ∧ next.proposed = draft.proposed.set target) := by
  by_cases quiet : QuietCapability sources dispositions change draft.proposed entry
  · obtain ⟨own, eq, same⟩ := repairCapability_quiet archivedAt quiet
    rw [eq] at accepted
    obtain rfl := (Prod.mk.inj accepted).2
    exact .inl ⟨quiet, same⟩
  · refine .inr ⟨quiet, ?_⟩
    simp only [repairCapability] at accepted
    split at accepted
    · cases accepted
    next known =>
      split at accepted
      next target safe planned =>
        obtain rfl := (Prod.mk.inj accepted).2
        -- A plan that misses nothing would make the capability quiet.
        have missing : anyMissing (capabilityPlan sources dispositions change entry.1
            ((draft.proposed.get entry.1).getD (absentSpec entry.1 archivedAt)) entry.2).plan = true := by
          by_contra nothing
          rw [Bool.not_eq_true] at nothing
          have settled := capabilityPlan_quiet_iff.mp ⟨safe, nothing⟩
          cases found : draft.proposed.get entry.1 with
          | some spec =>
            rw [found, Option.getD_some] at settled
            exact quiet ⟨spec, found, settled⟩
          | none =>
            rw [found, Option.getD_none] at settled
            refine absent_unsettled nonempty (fun delta member => ?_) settled
            simp only [found, Option.isNone_none, Bool.true_and, Bool.not_eq_true', Bool.not_eq_false,
              List.all_eq_true, decide_eq_true_eq] at known
            exact known delta member
        have named : (startVersion (draft.proposed.get entry.1) target).name = entry.1 := by
          have kept : (startVersion (draft.proposed.get entry.1) target).name = target.name := by
            rw [startVersion]
            split <;> rfl
          rw [kept, capabilityPlan_name planned]
          cases found : draft.proposed.get entry.1 with
          | none => rfl
          | some spec => exact draft.proposed.named _ _ found
        exact ⟨by simp [RepairDraft.accept, missing], by simp [RepairDraft.accept, RepairDraft.record, missing],
          _, named, rfl⟩
      · cases accepted

/-! ## One archive -/

variable (sources dispositions) in
def QuietArchive (change : HistoricalArchiveChange) (specs : SpecMap) : Prop :=
  ∀ entry ∈ change.deltas.entries, entry.2 ≠ [] → QuietCapability sources dispositions change specs entry

variable {entries : List (String × List Delta)}

theorem repairEntries_quiet (quiet : ∀ entry ∈ entries, entry.2 ≠ [] →
    QuietCapability sources dispositions change draft.proposed entry) :
    ∃ next, repairEntries sources dispositions archivedAt change entries draft = (none, next) ∧
      next.proposed = draft.proposed ∧ next.missing = draft.missing ∧ next.archiveAffected = draft.archiveAffected := by
  induction entries generalizing draft with
  | nil => exact ⟨draft, rfl, rfl, rfl, rfl⟩
  | cons entry rest ih =>
    rw [repairEntries]
    split
    next => exact ih fun other member => quiet other (List.mem_cons_of_mem _ member)
    next nonempty =>
      obtain ⟨next, accepted, proposed, missing, affected⟩ :=
        repairCapability_quiet archivedAt (quiet entry List.mem_cons_self (by simpa using nonempty))
      have later : ∀ other ∈ rest, other.2 ≠ [] →
          QuietCapability sources dispositions change next.proposed other := by
        intro other member some
        rw [proposed]
        exact quiet other (List.mem_cons_of_mem _ member) some
      obtain ⟨last, eq, kept⟩ := ih later
      rw [accepted]
      exact ⟨last, eq, kept.1.trans proposed, kept.2.1.trans missing, kept.2.2.trans affected⟩

theorem quiet_accepted (archivedAt : String)
    (quiet : QuietArchive sources dispositions change specs) :
    ∃ next, repairEntries sources dispositions archivedAt change change.deltas.entries (.start specs) = (none, next) ∧
      next.proposed = specs ∧ next.missing = false ∧ next.archiveAffected = [] := by
  have start : ∀ entry ∈ change.deltas.entries, entry.2 ≠ [] →
      QuietCapability sources dispositions change (RepairDraft.start specs).proposed entry := quiet
  exact repairEntries_quiet start

theorem quiet_of_repairEntries
    (accepted : repairEntries sources dispositions archivedAt change entries draft = (none, next))
    (nothing : next.missing = false) : draft.missing = false ∧ ∀ entry ∈ entries, entry.2 ≠ [] →
      QuietCapability sources dispositions change draft.proposed entry := by
  induction entries generalizing draft with
  | nil =>
    obtain rfl := (Prod.mk.inj accepted).2
    exact ⟨nothing, fun _ member => absurd member List.not_mem_nil⟩
  | cons entry rest ih =>
    rw [repairEntries] at accepted
    split at accepted
    next empty =>
      obtain ⟨clear, quiet⟩ := ih accepted
      refine ⟨clear, fun other member some => ?_⟩
      rcases List.mem_cons.mp member with rfl | later
      · exact absurd (List.length_eq_zero_iff.mp empty) some
      · exact quiet other later some
    next nonempty =>
      split at accepted
      next => cases accepted
      next middle first =>
        obtain ⟨clear, quiet⟩ := ih accepted
        rcases repairCapability_accepted (by simpa using nonempty) first with
          ⟨own, proposed, missing, _⟩ | ⟨_, missing, _⟩
        · refine ⟨missing.symm.trans clear, fun other member some => ?_⟩
          rcases List.mem_cons.mp member with rfl | later
          · exact own
          · rw [← proposed]
            exact quiet other later some
        · rw [clear] at missing
          cases missing

/-- What an accepted archive proposes: another spec for each capability it affects, and it affects one where it
    misses something. -/
structure Proposes (draft next : RepairDraft) : Prop where
  grows : ∀ capability ∈ draft.archiveAffected, capability ∈ next.archiveAffected
  kept : ∀ capability ∉ next.archiveAffected, next.proposed.get capability = draft.proposed.get capability
  stays : ∀ capability, draft.proposed.get capability ≠ none → next.proposed.get capability ≠ none
  written : ∀ capability ∈ next.archiveAffected,
    capability ∈ draft.archiveAffected ∨ next.proposed.get capability ≠ none
  affects : next.missing = true → draft.missing = true ∨ next.archiveAffected ≠ []

theorem Proposes.refl (draft : RepairDraft) : Proposes draft draft :=
  ⟨fun _ member => member, fun _ _ => rfl, fun _ some => some, fun _ member => .inl member, fun missing => .inl missing⟩

theorem Proposes.trans {draft middle next : RepairDraft} (first : Proposes draft middle)
    (second : Proposes middle next) : Proposes draft next where
  grows capability member := second.grows capability (first.grows capability member)
  kept capability out :=
    (second.kept capability out).trans (first.kept capability fun member => out (second.grows capability member))
  stays capability some := second.stays capability (first.stays capability some)
  written := by
    intro capability member
    rcases second.written capability member with before | some
    · exact (first.written capability before).imp id (second.stays capability)
    · exact .inr some
  affects := by
    intro missing
    rcases second.affects missing with before | some
    · rcases first.affects before with start | middleSome
      · exact .inl start
      · obtain ⟨capability, member⟩ := List.exists_mem_of_ne_nil _ middleSome
        exact .inr (List.ne_nil_of_mem (second.grows capability member))
    · exact .inr some

theorem repairCapability_proposes (nonempty : entry.2 ≠ [])
    (accepted : repairCapability sources dispositions archivedAt change entry draft = (none, next)) :
    Proposes draft next := by
  rcases repairCapability_accepted nonempty accepted with
    ⟨_, proposed, missing, affected⟩ | ⟨_, _, affected, target, named, proposed⟩
  · constructor
    · rw [affected]; exact fun _ member => member
    · rw [proposed]; exact fun _ _ => rfl
    · rw [proposed]; exact fun _ some => some
    · rw [affected]; exact fun _ member => .inl member
    · rw [missing]; exact .inl
  · have own : entry.1 ∈ next.archiveAffected := by rw [affected]; simp
    have there : next.proposed.get entry.1 = some target := by
      rw [proposed, SpecMap.set, ← named]
      exact if_pos rfl
    have other : ∀ capability, capability ≠ entry.1 →
        next.proposed.get capability = draft.proposed.get capability := by
      intro capability differs
      rw [proposed]
      exact SpecMap.set_other fun same => differs (same.trans named)
    refine ⟨?_, fun capability out => ?_, fun capability some => ?_, fun capability member => ?_,
      fun _ => .inr (List.ne_nil_of_mem own)⟩
    · intro capability member
      rw [affected]
      exact List.mem_append_left _ member
    · exact other capability fun same => out (same ▸ own)
    · by_cases same : capability = entry.1
      · rw [same, there]
        exact Option.some_ne_none target
      · rwa [other capability same]
    · rw [affected] at member
      rcases List.mem_append.mp member with before | last
      · exact .inl before
      · rw [List.mem_singleton.mp last, there]
        exact .inr (Option.some_ne_none target)

theorem repairEntries_proposes
    (accepted : repairEntries sources dispositions archivedAt change entries draft = (none, next)) :
    Proposes draft next := by
  induction entries generalizing draft with
  | nil =>
    obtain rfl := (Prod.mk.inj accepted).2
    exact Proposes.refl draft
  | cons entry rest ih =>
    rw [repairEntries] at accepted
    split at accepted
    next => exact ih accepted
    next nonempty =>
      split at accepted
      next => cases accepted
      next middle first =>
        exact (repairCapability_proposes (by simpa using nonempty) first).trans (ih accepted)

theorem repairEntries_blocked {blocked : HistoricalArchiveDisposition}
    (found : (repairEntries sources dispositions archivedAt change entries draft).1 = some blocked) :
    blocked = .conflict ∨ blocked = .unreadable := by
  induction entries generalizing draft with
  | nil => cases found
  | cons entry rest ih =>
    rw [repairEntries] at found
    split at found
    next => exact ih found
    next =>
      split at found
      next own middle stopped =>
        obtain rfl := Option.some.inj found
        have first : (repairCapability sources dispositions archivedAt change entry draft).1 = some own :=
          congrArg Prod.fst stopped
        simp only [repairCapability] at first
        split at first
        · exact .inr (Option.some.inj first).symm
        · split at first
          · cases first
          · obtain rfl := Option.some.inj first
            split_ifs
            · exact .inl rfl
            · exact .inr rfl
      next => exact ih found

end

end Advance.Archive
