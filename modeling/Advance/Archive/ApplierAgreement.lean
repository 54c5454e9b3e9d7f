import Advance.Archive.DeltaApplication
import Advance.Archive.PlanSafety

/-! # The two appliers

The planner leaves a requirement alone where a delta finds its effect there
already; the older applier applies the delta again.  Their requirements are alike:
equal but for scenarios, which have the same canonical value.
-/

namespace Advance.Archive

open Foundation
open JavaScript JavaScript.JsVal
open Types

section

variable {platform : Platform}

/-! ## Requirements that are alike -/

variable (platform) in
structure Alike (a b : Requirement) : Prop where
  rest : { a with scenarios := none } = { b with scenarios := none }
  scenarios : sameValue platform (a.field .scenarios) (b.field .scenarios) = true

theorem Alike.refl (a : Requirement) : Alike platform a a := ⟨rfl, sameValue_refl _⟩

variable {a b : Requirement}

theorem Alike.id (alike : Alike platform a b) : a.id = b.id := by
  have same := congrArg Requirement.id alike.rest
  exact same

theorem Alike.title (alike : Alike platform a b) : a.title = b.title := by
  have same := congrArg Requirement.title alike.rest
  exact same

theorem canonicalBytes_of_json {localeCompare : String → String → Ordering} {value : JsVal}
    (json : value.toJson = value) : canonicalBytes localeCompare value = canonicalValue localeCompare value := by
  have defined : value ≠ .undefined := by
    rintro rfl
    cases json
  rw [canonicalBytes, if_neg defined, canonicalValue_json localeCompare value json]

theorem ofScenarios_json (scenarios : List Scenario) : (ofScenarios scenarios).toJson = ofScenarios scenarios :=
  toJson_arr_map Scenario.toJs_json scenarios

theorem canonicalEntries_append (localeCompare : String → String → Ordering) (front back : List (String × JsVal)) :
    canonicalEntries localeCompare (front ++ back) =
      canonicalEntries localeCompare front ++ canonicalEntries localeCompare back := by
  induction front with
  | nil => rfl
  | cons entry front ih =>
    obtain ⟨key, value⟩ := entry
    simp only [List.cons_append, canonicalEntries, ih]
    split
    · rfl
    · rfl

theorem canonical_scenarios (same : sameValue platform (a.field .scenarios) (b.field .scenarios) = true) :
    canonicalEntries platform.localeCompare (member "scenarios" ofScenarios a.scenarios) =
      canonicalEntries platform.localeCompare (member "scenarios" ofScenarios b.scenarios) := by
  have texts := of_decide_eq_true same
  simp only [Requirement.field] at texts
  cases first : a.scenarios with
  | none =>
    cases second : b.scenarios with
    | none => rfl
    | some scenarios => simp [first, second, canonicalBytes, ofScenarios, canonicalValue, toJson] at texts
  | some scenarios =>
    cases second : b.scenarios with
    | none => simp [first, second, canonicalBytes, ofScenarios, canonicalValue, toJson] at texts
    | some others =>
      simp only [first, second, Option.map_some, Option.getD_some] at texts
      rw [canonicalBytes_of_json (ofScenarios_json scenarios),
        canonicalBytes_of_json (ofScenarios_json others)] at texts
      simp [member, canonicalEntries, ofScenarios] at texts ⊢
      exact texts

theorem Alike.sameValue (alike : Alike platform a b) : sameValue platform a.toJs b.toJs = true := by
  have scenarios := canonical_scenarios alike.scenarios
  obtain ⟨id, title, body, priority, tags, _, metadata, extension⟩ := a
  obtain ⟨id', title', body', priority', tags', _, metadata', extension'⟩ := b
  have rest := alike.rest
  simp only [Requirement.mk.injEq] at rest
  obtain ⟨rfl, rfl, rfl, rfl, rfl, _, rfl, rfl⟩ := rest
  simp only [Archive.sameValue, decide_eq_true_eq, canonicalBytes, Requirement.toJs, canonicalValue,
    canonicalEntries_append, scenarios, reduceCtorEq, if_false]

/-! ## Changes to requirements that are alike -/

theorem tags_of_match {row : Requirement} {tags : List String}
    (same : sameValue platform (row.field .tags) (ofTexts tags) = true) : row.tags = some tags := by
  have asItIs : ∀ values : List String, canonicalBytes platform.localeCompare (ofTexts values) = ofTexts values := by
    intro values
    have json : (ofTexts values).toJson = ofTexts values := by
      simp only [ofTexts, toJson, toJsonList_eq_map, List.map_map]
      rfl
    rw [canonicalBytes_of_json json]
    simp only [ofTexts, canonicalValue, canonicalList_eq_map, List.map_map]
    rfl
  have texts := of_decide_eq_true same
  rw [asItIs] at texts
  simp only [Requirement.field] at texts
  cases held : row.tags with
  | none => simp [held, canonicalBytes, ofTexts] at texts
  | some others =>
    rw [held, Option.map_some, Option.getD_some, asItIs] at texts
    rw [ofTexts_injective texts]

theorem Alike.assign (alike : Alike platform a b) (changes : DeltaModifyChanges) :
    Alike platform (a.assign changes) (b.assign changes) := by
  have rest := alike.rest
  simp only [Requirement.mk.injEq] at rest
  obtain ⟨id, title, body, priority, tags, _, metadata, extension⟩ := rest
  constructor
  · simp only [Requirement.assign, id, title, body, priority, tags, metadata, extension]
  · cases set : changes.scenarios with
    | none =>
      have same := alike.scenarios
      simpa [Requirement.assign, Requirement.field, set] using same
    | some scenarios =>
      simp only [Requirement.assign, Requirement.field, set]
      exact sameValue_refl _

theorem Alike.assign_matching (alike : Alike platform a b) {changes : DeltaModifyChanges}
    (matching : changedFieldsMatch platform b changes = true) : Alike platform (a.assign changes) b := by
  have expected := changedFieldsMatch_iff.mp matching
  have rest := alike.rest
  simp only [Requirement.mk.injEq] at rest
  obtain ⟨id, title, body, priority, tags, _, metadata, extension⟩ := rest
  constructor
  · simp only [Requirement.assign, Requirement.mk.injEq, id, metadata, extension, true_and, and_true]
    refine ⟨?_, ?_, ?_, ?_⟩
    · cases set : changes.title with
      | none => exact title
      | some value => exact (sameValue_str.mp (expected .title _ (by simp [DeltaModifyChanges.expected, set]))).symm
    · cases set : changes.body with
      | none => exact body
      | some value => exact (sameValue_str.mp (expected .body _ (by simp [DeltaModifyChanges.expected, set]))).symm
    · cases set : changes.priority with
      | none => exact priority
      | some value =>
        have texts := sameValue_str.mp
          (expected .priority (.str value.text) (by simp only [DeltaModifyChanges.expected, set, Option.map_some]))
        show value = b.priority
        cases value <;> cases held : b.priority <;> simp [held, Priority.text] at texts ⊢
    · cases set : changes.tags with
      | none => exact tags
      | some value =>
        exact (tags_of_match (expected .tags _ (by simp [DeltaModifyChanges.expected, set]))).symm
  · cases set : changes.scenarios with
    | none =>
      have same := alike.scenarios
      simpa [Requirement.assign, Requirement.field, set] using same
    | some scenarios =>
      have same := expected .scenarios (ofScenarios scenarios)
        (by simp only [DeltaModifyChanges.expected, set, Option.map_some])
      have assigned : (a.assign changes).field .scenarios = ofScenarios scenarios := by
        simp [Requirement.assign, Requirement.field, set]
      rw [assigned]
      exact sameValue_joined same (sameValue_refl _)

/-! ## Lists that are alike -/

variable (platform) in
abbrev AllAlike : List Requirement → List Requirement → Prop := List.Forall₂ (Alike platform)

theorem AllAlike.refl (rows : List Requirement) : AllAlike platform rows rows :=
  List.forall₂_same.mpr fun row _ => Alike.refl row

variable {as bs : List Requirement}

theorem AllAlike.ids (alike : AllAlike platform as bs) : as.map Requirement.id = bs.map Requirement.id := by
  induction alike with
  | nil => rfl
  | cons first _ ih => rw [List.map_cons, List.map_cons, first.id, ih]

theorem AllAlike.distinct (alike : AllAlike platform as bs) : Distinct as ↔ Distinct bs := by
  rw [Distinct, Distinct, alike.ids]

theorem AllAlike.find (alike : AllAlike platform as bs) (id : String) :
    (findRow as id = none ∧ findRow bs id = none) ∨
      ∃ a b, findRow as id = some a ∧ findRow bs id = some b ∧ Alike platform a b := by
  induction alike with
  | nil => exact .inl ⟨rfl, rfl⟩
  | cons first _ ih =>
    rw [findRow_cons, findRow_cons, first.id]
    split
    · exact .inr ⟨_, _, rfl, rfl, first⟩
    · exact ih

variable {id : String}

variable {assign other : Requirement → Requirement}

theorem AllAlike.update (alike : AllAlike platform as bs)
    (each : ∀ a b, a.id = id → Alike platform a b → Alike platform (assign a) (other b)) :
    AllAlike platform (updateRow id assign as) (updateRow id other bs) := by
  induction alike with
  | nil => exact .nil
  | cons first rest ih =>
    simp only [updateRow, ← first.id]
    split
    next here => exact .cons (each _ _ here first) rest
    next => exact .cons first ih

theorem AllAlike.update_left (alike : AllAlike platform as bs) {assign : Requirement → Requirement}
    (found : ∀ a b, findRow as id = some a → findRow bs id = some b → Alike platform a b →
      Alike platform (assign a) b) : AllAlike platform (updateRow id assign as) bs := by
  induction alike with
  | nil => exact .nil
  | @cons a b as bs first rest ih =>
    by_cases here : a.id = id
    · have there : b.id = id := first.id ▸ here
      rw [updateRow, if_pos here]
      exact .cons (found a b (by rw [findRow_cons, if_pos here]) (by rw [findRow_cons, if_pos there]) first) rest
    · have elsewhere : b.id ≠ id := first.id ▸ here
      rw [updateRow, if_neg here]
      refine .cons first (ih fun a' b' inAs inBs => found a' b' ?_ ?_)
      · rw [findRow_cons, if_neg here, inAs]
      · rw [findRow_cons, if_neg elsewhere, inBs]

variable {rows : List Requirement}

theorem spliceRow_eq_filter (distinct : Distinct rows) (id : String) :
    spliceRow id rows = rows.filter fun row => row.id ≠ id := by
  induction rows with
  | nil => rfl
  | cons row rows ih =>
    obtain ⟨fresh, distinctRest⟩ := List.nodup_cons.mp distinct
    by_cases here : row.id = id
    · have others : ∀ other ∈ rows, other.id ≠ id := by
        intro other member same
        exact fresh (here ▸ same ▸ List.mem_map_of_mem member)
      rw [spliceRow, if_pos here, List.filter_cons_of_neg (by simpa using here)]
      exact (List.filter_eq_self.mpr fun other member => by simpa using others other member).symm
    · rw [spliceRow, if_neg here, List.filter_cons_of_pos (by simpa using here), ih distinctRest]

theorem AllAlike.filter (alike : AllAlike platform as bs) (id : String) :
    AllAlike platform (as.filter fun row => row.id ≠ id) (bs.filter fun row => row.id ≠ id) := by
  induction alike with
  | nil => exact .nil
  | cons first rest ih =>
    simp only [List.filter_cons, first.id]
    split
    · exact .cons first ih
    · exact ih

theorem AllAlike.sameValues (alike : AllAlike platform as bs) :
    List.Forall₂ (fun a b => sameValue platform a.toJs b.toJs = true) as bs :=
  alike.imp fun _ _ => Alike.sameValue

/-! ## One delta -/

/-- A rename to the empty id: the planner takes it for an id, the other applier for none. -/
def Delta.emptiesId : Delta → Prop
  | .rename delta => delta.new_id = some "" ∧ delta.target_id ≠ ""
  | .add _ | .modify _ | .remove _ => False

variable (platform) in
def MeetsLookalike (delta : Delta) (rows : List Requirement) : Prop :=
  ∃ added row, delta = .add added ∧ findRow rows added.requirement.id = some row ∧
    requirementsContentEqual platform.localeCompare row added.requirement = true ∧
    sameValue platform row.toJs added.requirement.toJs = false

theorem retitled_eq {delta : DeltaRename} (named : ¬ Delta.emptiesId (.rename delta)) {row : Requirement}
    (here : row.id = delta.target_id) : retitled delta row = renameRow delta row := by
  simp only [retitled, renameRow, Requirement.mk.injEq, and_true]
  cases given : delta.new_id with
  | none => simp [DeltaRename.truthyId, DeltaRename.resultId, given, here]
  | some newId =>
    by_cases empty : newId = ""
    · have same : delta.target_id = "" := by
        by_contra other
        exact named ⟨empty ▸ given, other⟩
      simp [DeltaRename.truthyId, DeltaRename.resultId, Option.filter, given, here, empty, same]
    · simp [DeltaRename.truthyId, DeltaRename.resultId, Option.filter, given, empty]

theorem applyRename_success {delta : DeltaRename} (applied : (applyRenameDelta delta rows).1.success = true) :
    (∃ row, findRow rows delta.target_id = some row) ∧
      (∀ newId, DeltaRename.truthyId delta = some newId → newId ≠ delta.target_id → findRow rows newId = none) ∧
      (applyRenameDelta delta rows).2 = updateRow delta.target_id (retitled delta) rows := by
  unfold applyRenameDelta at applied ⊢
  cases found : findRow rows delta.target_id with
  | none => simp [found] at applied
  | some row =>
    simp only [found] at applied ⊢
    cases given : DeltaRename.truthyId delta with
    | none =>
      refine ⟨⟨row, rfl⟩, ?_, rfl⟩
      intro newId absent
      cases absent
    | some newId =>
      simp only [given] at applied ⊢
      split at applied
      · cases applied
      next free =>
        rw [if_neg free]
        refine ⟨⟨row, rfl⟩, fun other same moved => ?_, rfl⟩
        obtain rfl := Option.some.inj same
        by_contra taken
        exact free ⟨moved, Option.isSome_iff_ne_none.mpr taken⟩

variable (platform) in
/-- What the planner makes of a delta that the other applier has applied to requirements that are alike. -/
def Follows (delta : Delta) (as bs : List Requirement) : Prop :=
  (planDelta platform .current delta bs).1.blocked = false ∧
    AllAlike platform (applyDelta platform delta as).2 (planDelta platform .current delta bs).2

theorem follows_add {delta : DeltaAdd} (alike : AllAlike platform as bs)
    (apart : ¬ MeetsLookalike platform (.add delta) as)
    (applied : (applyDelta platform (.add delta) as).1.success = true) : Follows platform (.add delta) as bs := by
  simp only [applyDelta, applyAddDelta] at applied
  simp only [Follows, planDelta, planAdd, applyDelta, applyAddDelta]
  rcases alike.find delta.requirement.id with ⟨inAs, inBs⟩ | ⟨a, b, inAs, inBs, same⟩
  · simp only [inAs, inBs]
    exact ⟨rfl, List.rel_append alike (.cons (Alike.refl _) .nil)⟩
  · rw [inAs] at applied
    simp only at applied
    split at applied
    next equal =>
      have values : sameValue platform a.toJs delta.requirement.toJs = true := by
        by_contra differ
        exact apart ⟨delta, a, rfl, inAs, equal, Bool.eq_false_iff.mpr differ⟩
      simp only [inAs, inBs, equal, if_true, sameValue_joined same.sameValue values]
      exact ⟨rfl, alike⟩
    · cases applied

theorem follows_modify {delta : DeltaModify} (alike : AllAlike platform as bs)
    (applied : (applyDelta platform (.modify delta) as).1.success = true) : Follows platform (.modify delta) as bs := by
  simp only [applyDelta, applyModifyDelta] at applied
  simp only [Follows, planDelta, planModify, applyDelta, applyModifyDelta]
  rcases alike.find delta.target_id with ⟨inAs, _⟩ | ⟨a, b, inAs, inBs, same⟩
  · simp [inAs] at applied
  · simp only [inAs, inBs, hasPreimageAuthority, if_true]
    split
    next matching =>
      refine ⟨rfl, alike.update_left fun a' b' inAs' inBs' same' => ?_⟩
      obtain rfl : b' = b := Option.some.inj (inBs'.symm.trans inBs)
      exact same'.assign_matching matching
    next => exact ⟨rfl, alike.update fun _ _ _ same => same.assign delta.changes⟩

theorem follows_remove {delta : DeltaRemove} (alike : AllAlike platform as bs)
    (distinct : Distinct as) (applied : (applyDelta platform (.remove delta) as).1.success = true) :
    Follows platform (.remove delta) as bs := by
  simp only [applyDelta, applyRemoveDelta] at applied
  simp only [Follows, planDelta, planRemove, applyDelta, applyRemoveDelta]
  rcases alike.find delta.target_id with ⟨inAs, _⟩ | ⟨a, b, inAs, inBs, same⟩
  · simp [inAs] at applied
  · simp only [inAs, inBs, hasPreimageAuthority, if_true, spliceRow_eq_filter distinct]
    exact ⟨rfl, alike.filter delta.target_id⟩

theorem Alike.rename (alike : Alike platform a b) (delta : DeltaRename) :
    Alike platform (renameRow delta a) (renameRow delta b) := by
  have rest := alike.rest
  simp only [Requirement.mk.injEq] at rest
  obtain ⟨_, _, body, priority, tags, _, metadata, extension⟩ := rest
  exact ⟨by simp only [renameRow, body, priority, tags, metadata, extension], alike.scenarios⟩

theorem follows_rename {delta : DeltaRename} (alike : AllAlike platform as bs)
    (named : ¬ Delta.emptiesId (.rename delta)) (applied : (applyDelta platform (.rename delta) as).1.success = true) :
    Follows platform (.rename delta) as bs := by
  obtain ⟨⟨a, inAs⟩, free, renamed⟩ := applyRename_success applied
  have id : a.id = delta.target_id := findRow_id inAs
  have resulting : DeltaRename.resultId delta ≠ delta.target_id →
      DeltaRename.truthyId delta = some (DeltaRename.resultId delta) := by
    intro moved
    cases given : delta.new_id with
    | none => simp [DeltaRename.resultId, given] at moved
    | some newId =>
      have nonempty : newId ≠ "" := by
        rintro rfl
        exact named ⟨given, fun same => moved (by simp [DeltaRename.resultId, given, same])⟩
      simp [DeltaRename.truthyId, DeltaRename.resultId, given, Option.filter, nonempty]
  rcases alike.find delta.target_id with ⟨absent, _⟩ | ⟨_, b, _, inBs, _⟩
  · rw [inAs] at absent
    cases absent
  have freeB : DeltaRename.resultId delta ≠ delta.target_id →
      (bs.any fun row => row.id = DeltaRename.resultId delta) = false := by
    intro moved
    rcases alike.find (DeltaRename.resultId delta) with ⟨_, absent⟩ | ⟨_, _, present, _⟩
    · exact any_eq_false_iff.mpr absent
    · rw [free _ (resulting moved) moved] at present
      cases present
  rw [Follows, applyDelta, renamed]
  simp only [planDelta, planRename, inBs, hasPreimageAuthority, if_true]
  split
  next same =>
    -- The title is there already, and giving it again changes nothing.
    refine ⟨rfl, alike.update_left fun a' b' inAs' inBs' same' => ?_⟩
    obtain rfl : b' = b := Option.some.inj (inBs'.symm.trans inBs)
    have here : a'.id = delta.target_id := findRow_id inAs'
    have unchanged : retitled delta a' = a' := by
      rw [retitled_eq named here, renameRow, same.1, ← same.2, ← same'.title, ← here]
    rw [unchanged]
    exact same'
  next =>
    split
    next taken =>
      rw [freeB taken.1] at taken
      cases taken.2
    next =>
      refine ⟨rfl, alike.update fun a' b' here same => ?_⟩
      rw [retitled_eq named here]
      exact same.rename delta

variable {delta : Delta}

theorem follows (alike : AllAlike platform as bs) (distinct : Distinct as)
    (named : ¬ Delta.emptiesId delta) (apart : ¬ MeetsLookalike platform delta as)
    (applied : (applyDelta platform delta as).1.success = true) : Follows platform delta as bs := by
  cases delta with
  | add delta => exact follows_add alike apart applied
  | modify delta => exact follows_modify alike applied
  | remove delta => exact follows_remove alike distinct applied
  | rename delta => exact follows_rename alike named applied

/-! ## Runs that stay alike -/

theorem distinct_applied (alike : AllAlike platform as bs)
    (distinct : Distinct as) (next : Follows platform delta as bs) : Distinct (applyDelta platform delta as).2 := by
  have distinctBs := distinct_run platform .current [delta] (alike.distinct.mp distinct)
  exact next.2.distinct.mpr distinctBs

variable {deltas : List Delta}

section

variable (alike : AllAlike platform as bs)
include alike

theorem run_follows (distinct : Distinct as) (named : ∀ delta ∈ deltas, ¬ Delta.emptiesId delta)
    (applied : ∀ step ∈ trace (applyDelta platform) deltas as, step.response.success = true)
    (apart : ∀ step ∈ trace (applyDelta platform) deltas as, ¬ MeetsLookalike platform step.request step.before) :
    (∀ step ∈ trace (planDelta platform .current) deltas bs, step.response.blocked = false) ∧
      AllAlike platform (stateAfter (applyDelta platform) deltas as)
        (stateAfter (planDelta platform .current) deltas bs) := by
  induction deltas generalizing as bs with
  | nil => exact ⟨fun _ member => (List.not_mem_nil member).elim, alike⟩
  | cons delta deltas ih =>
    obtain ⟨appliedFirst, appliedRest⟩ := List.forall_mem_cons.mp applied
    obtain ⟨apartFirst, apartRest⟩ := List.forall_mem_cons.mp apart
    obtain ⟨namedFirst, namedRest⟩ := List.forall_mem_cons.mp named
    have next := follows alike distinct namedFirst apartFirst appliedFirst
    obtain ⟨unblocked, final⟩ := ih next.2 (distinct_applied alike distinct next) namedRest appliedRest apartRest
    exact ⟨List.forall_mem_cons.mpr ⟨next.1, unblocked⟩, final⟩

theorem blocked_at_lookalike
    (meets : MeetsLookalike platform delta as) : (planDelta platform .current delta bs).1.blocked = true := by
  obtain ⟨added, a, rfl, inAs, _, differ⟩ := meets
  rcases alike.find added.requirement.id with ⟨absent, _⟩ | ⟨a', b, inAs', inBs, same⟩
  · rw [inAs] at absent
    cases absent
  · obtain rfl : a' = a := Option.some.inj (inAs'.symm.trans inAs)
    have differs : sameValue platform b.toJs added.requirement.toJs = false := by
      rw [Bool.eq_false_iff] at differ ⊢
      exact fun equal => differ (sameValue_trans same.sameValue equal)
    simp [planDelta, planAdd, inBs, differs, DeltaProjectionDisposition.blocked]

theorem apart_of_unblocked
    (unblocked : (planDelta platform .current delta bs).1.blocked = false) : ¬ MeetsLookalike platform delta as := by
  intro meets
  rw [blocked_at_lookalike alike meets] at unblocked
  cases unblocked

theorem run_blocked (distinct : Distinct as) (named : ∀ delta ∈ deltas, ¬ Delta.emptiesId delta)
    (applied : ∀ step ∈ trace (applyDelta platform) deltas as, step.response.success = true)
    (unblocked : ∀ step ∈ trace (planDelta platform .current) deltas bs, step.response.blocked = false) :
    ∀ step ∈ trace (applyDelta platform) deltas as, ¬ MeetsLookalike platform step.request step.before := by
  induction deltas generalizing as bs with
  | nil => exact fun _ member => (List.not_mem_nil member).elim
  | cons delta deltas ih =>
    obtain ⟨appliedFirst, appliedRest⟩ := List.forall_mem_cons.mp applied
    obtain ⟨unblockedFirst, unblockedRest⟩ := List.forall_mem_cons.mp unblocked
    obtain ⟨namedFirst, namedRest⟩ := List.forall_mem_cons.mp named
    have apart := apart_of_unblocked alike unblockedFirst
    have next := follows alike distinct namedFirst apart appliedFirst
    exact List.forall_mem_cons.mpr
      ⟨apart, ih next.2 (distinct_applied alike distinct next) namedRest appliedRest unblockedRest⟩

end

/-! ## Runs that come apart -/

/-- The planner has a requirement of the empty id, the applier has none. -/
structure Vacant (as bs : List Requirement) : Prop where
  lacks : findRow as "" = none
  has : findRow bs "" ≠ none

theorem findRow_updateRow_none {target id : String} {assign : Requirement → Requirement}
    (absent : findRow rows id = none) (kept : ∀ row, row.id = target → (assign row).id ≠ id) :
    findRow (updateRow target assign rows) id = none := by
  refine findRow_none.mpr fun row member => ?_
  rcases mem_updateRow member with old | ⟨current, here, rfl⟩
  · exact findRow_none.mp absent row old
  · exact kept current here

theorem vacant_of_rename (alike : AllAlike platform as bs) (distinct : Distinct as) (emptied : Delta.emptiesId delta)
    (applied : (applyDelta platform delta as).1.success = true)
    (unblocked : (planDelta platform .current delta bs).1.blocked = false) :
    Vacant (applyDelta platform delta as).2 (planDelta platform .current delta bs).2 := by
  cases delta with
  | add _ | modify _ | remove _ => exact emptied.elim
  | rename delta =>
    obtain ⟨given, other⟩ := emptied
    have noId : DeltaRename.truthyId delta = none := by simp [DeltaRename.truthyId, given, Option.filter]
    have result : DeltaRename.resultId delta = "" := by simp [DeltaRename.resultId, given]
    obtain ⟨⟨a, inAs⟩, _, renamed⟩ := applyRename_success applied
    rcases alike.find delta.target_id with ⟨absent, _⟩ | ⟨_, b, _, inBs, _⟩
    · rw [inAs] at absent
      cases absent
    simp only [planDelta, planRename, inBs, result, hasPreimageAuthority, if_true, Ne.symm other, false_and, if_false,
      ne_eq, not_false_eq_true, true_and] at unblocked ⊢
    split at unblocked
    · cases unblocked
    next free =>
      rw [if_neg free]
      have absentBs : findRow bs "" = none := any_eq_false_iff.mp (by simpa using free)
      have absentAs : findRow as "" = none := by
        rcases alike.find "" with ⟨absent, _⟩ | ⟨_, _, _, present, _⟩
        · exact absent
        · rw [absentBs] at present
          cases present
      constructor
      · rw [applyDelta, renamed]
        refine findRow_updateRow_none absentAs fun row here => ?_
        simp only [retitled, noId, Option.getD_none, here]
        exact other
      · have emptied : ∀ row : Requirement, row.id = delta.target_id → (renameRow delta row).id = "" := by
          intro row _
          simp [renameRow, result]
        have present := findRow_updateRow (alike.distinct.mp distinct) emptied (fun _ => absentBs) inBs ""
        rw [present, if_pos rfl]
        exact Option.some_ne_none _

theorem applied_target {as : List Requirement} {target : String}
    (applied : (applyDelta platform delta as).1.success = true) (about : Delta.targetId delta = some target) :
    ∃ row, findRow as target = some row := by
  cases delta with
  | add _ => cases about
  | modify delta =>
    obtain rfl := Option.some.inj about
    cases found : findRow as delta.target_id with
    | none => simp [applyDelta, applyModifyDelta, found] at applied
    | some row => exact ⟨row, rfl⟩
  | remove delta =>
    obtain rfl := Option.some.inj about
    cases found : findRow as delta.target_id with
    | none => simp [applyDelta, applyRemoveDelta, found] at applied
    | some row => exact ⟨row, rfl⟩
  | rename delta =>
    obtain rfl := Option.some.inj about
    exact (applyRename_success applied).1

theorem spliceRow_sublist (id : String) (rows : List Requirement) : List.Sublist (spliceRow id rows) rows := by
  induction rows with
  | nil => exact .slnil
  | cons row rows ih =>
    rw [spliceRow]
    split
    · exact List.sublist_cons_self row rows
    · exact ih.cons_cons row

def Delta.addsEmptyId : Delta → Prop
  | .add delta => delta.requirement.id = ""
  | .modify _ | .remove _ | .rename _ => False

theorem lacks_applied {as : List Requirement} (lacks : findRow as "" = none)
    (adds : ¬ Delta.addsEmptyId delta) (applied : (applyDelta platform delta as).1.success = true) :
    findRow (applyDelta platform delta as).2 "" = none := by
  have named : ∀ target, Delta.targetId delta = some target → target ≠ "" := by
    rintro _ about rfl
    obtain ⟨row, found⟩ := applied_target applied about
    rw [lacks] at found
    cases found
  cases delta with
  | add delta =>
    simp only [applyDelta, applyAddDelta]
    split
    · split
      · exact lacks
      · exact lacks
    · have other : delta.requirement.id ≠ "" := adds
      rw [findRow_append, lacks, if_neg other]
      rfl
  | modify delta =>
    obtain ⟨row, found⟩ := applied_target applied rfl
    simp only [applyDelta, applyModifyDelta, found]
    exact findRow_updateRow_none lacks fun row here => by
      rw [assign_id, here]
      exact named _ rfl
  | remove delta =>
    obtain ⟨row, found⟩ := applied_target applied rfl
    simp only [applyDelta, applyRemoveDelta, found]
    exact findRow_none.mpr fun row member => findRow_none.mp lacks row ((spliceRow_sublist _ _).subset member)
  | rename delta =>
    rw [applyDelta, (applyRename_success applied).2.2]
    refine findRow_updateRow_none lacks fun row here => ?_
    cases given : DeltaRename.truthyId delta with
    | none =>
      simp only [retitled, given, Option.getD_none, here]
      exact named _ rfl
    | some newId =>
      have truthy := Option.filter_eq_some_iff.mp given
      simpa [retitled, given] using truthy.2

variable {authority : ProjectionAuthority}

theorem vacant_step (vacant : Vacant as bs) (distinct : Distinct bs) (adds : ¬ Delta.addsEmptyId delta)
    (applied : (applyDelta platform delta as).1.success = true) :
    Vacant (applyDelta platform delta as).2 (planDelta platform authority delta bs).2 := by
  refine ⟨lacks_applied vacant.lacks adds applied, ?_⟩
  rcases planDelta_moves platform authority delta bs with same | applies
  · rw [same]
    exact vacant.has
  · refine present_after (fun clears => ?_) distinct applies vacant.has
    -- What clears the empty id has it for its target, and the applier does not find it.
    have about : Delta.targetId delta = some "" := by
      cases delta with
      | add _ | modify _ => cases clears
      | remove delta => exact clears
      | rename delta =>
        simp only [Delta.clears] at clears
        split at clears
        · cases clears
        · exact clears
    obtain ⟨row, found⟩ := applied_target applied about
    rw [vacant.lacks] at found
    cases found

theorem run_vacant (vacant : Vacant as bs) (distinct : Distinct bs)
    (applied : ∀ step ∈ trace (applyDelta platform) deltas as, step.response.success = true)
    (adds : ∀ step ∈ trace (planDelta platform .current) deltas bs,
      Delta.addsEmptyId step.request → step.response.status = .missing) :
    Vacant (stateAfter (applyDelta platform) deltas as) (stateAfter (planDelta platform .current) deltas bs) := by
  induction deltas generalizing as bs with
  | nil => exact vacant
  | cons delta deltas ih =>
    obtain ⟨appliedFirst, appliedRest⟩ := List.forall_mem_cons.mp applied
    obtain ⟨addsFirst, addsRest⟩ := List.forall_mem_cons.mp adds
    have notAdded : ¬ Delta.addsEmptyId delta := by
      intro added
      cases delta with
      | modify _ | remove _ | rename _ => exact added
      | add delta =>
        have id : delta.requirement.id = "" := added
        have missing := addsFirst added
        obtain ⟨row, found⟩ := Option.ne_none_iff_exists'.mp vacant.has
        simp only [recordOf, planDelta, planAdd, id, found] at missing
        split at missing
        · cases missing
        · cases missing
    exact ih (vacant_step vacant distinct notAdded appliedFirst)
      (distinct_run platform .current [delta] distinct) appliedRest addsRest

theorem run_emptied (alike : AllAlike platform as bs)
    (distinct : Distinct as) (emptied : ∃ delta ∈ deltas, Delta.emptiesId delta)
    (applied : ∀ step ∈ trace (applyDelta platform) deltas as, step.response.success = true)
    (unblocked : ∀ step ∈ trace (planDelta platform .current) deltas bs, step.response.blocked = false)
    (adds : ∀ step ∈ trace (planDelta platform .current) deltas bs,
      Delta.addsEmptyId step.request → step.response.status = .missing) :
    Vacant (stateAfter (applyDelta platform) deltas as) (stateAfter (planDelta platform .current) deltas bs) := by
  induction deltas generalizing as bs with
  | nil =>
    obtain ⟨_, member, _⟩ := emptied
    cases member
  | cons delta deltas ih =>
    obtain ⟨appliedFirst, appliedRest⟩ := List.forall_mem_cons.mp applied
    obtain ⟨unblockedFirst, unblockedRest⟩ := List.forall_mem_cons.mp unblocked
    obtain ⟨_, addsRest⟩ := List.forall_mem_cons.mp adds
    by_cases here : Delta.emptiesId delta
    · simp only [stateAfter_cons]
      exact run_vacant (vacant_of_rename alike distinct here appliedFirst unblockedFirst)
        (distinct_run platform .current [delta] (alike.distinct.mp distinct)) appliedRest addsRest
    · have apart := apart_of_unblocked alike unblockedFirst
      have next := follows alike distinct here apart appliedFirst
      obtain ⟨other, member, emptiesLater⟩ := emptied
      rcases List.mem_cons.mp member with rfl | later
      · exact absurd emptiesLater here
      · exact ih next.2 (distinct_applied alike distinct next) ⟨other, later, emptiesLater⟩ appliedRest unblockedRest
          addsRest

theorem id_of_sameValue (same : sameValue platform a.toJs b.toJs = true) : a.id = b.id := by
  have alike := same_of_canonicalBytes a.toJs_json b.toJs_json (of_decide_eq_true same)
  have inside : ("id", JsVal.str a.id) ∈ ([("id", .str a.id), ("title", .str a.title), ("body", .str a.body),
      ("priority", .str a.priority.text)] : List (String × JsVal)) := List.mem_cons_self
  obtain ⟨other, held, text⟩ := alike.find
    (List.mem_append_left _ (List.mem_append_left _ (List.mem_append_left _ (List.mem_append_left _ inside))))
  rw [text.str] at held
  -- The only member named `id` is the declared one.
  simp only [List.mem_append, List.mem_cons, Prod.mk.injEq, JsVal.str.injEq] at held
  rcases held with (((declared | tags) | scenarios) | metadata) | extended
  · simpa using declared
  · cases found : b.tags <;> simp [found, member] at tags
  · cases found : b.scenarios <;> simp [found, member] at scenarios
  · cases found : b.metadata <;> simp [found, member] at metadata
  · exact absurd (by simp [requirementShape]) (b.extension.undeclared _ extended)

theorem Vacant.differ (vacant : Vacant as bs) :
    ¬ List.Forall₂ (fun a b => sameValue platform a.toJs b.toJs = true) as bs := by
  intro same
  have ids : as.map Requirement.id = bs.map Requirement.id := by
    clear vacant
    induction same with
    | nil => rfl
    | cons first _ ih => rw [List.map_cons, List.map_cons, id_of_sameValue first, ih]
  refine vacant.has (findRow_none.mpr fun row member empty => ?_)
  have held : row.id ∈ as.map Requirement.id := ids ▸ List.mem_map_of_mem member
  obtain ⟨other, inAs, sameId⟩ := List.mem_map.mp held
  exact findRow_none.mp vacant.lacks other inAs (sameId.trans empty)

/-! ## Runs of missing deltas -/

theorem current_authority {precondition : Option DeltaPrecondition} {target : String} {current : Requirement} :
    hasPreimageAuthority platform .current precondition target current = true := rfl

theorem current_of_missing (missing : (planDelta platform authority delta rows).1.status = .missing) :
    planDelta platform .current delta rows = planDelta platform authority delta rows := by
  cases delta with
  | add delta => rfl
  | modify delta =>
    simp only [planDelta, planModify] at missing ⊢
    split at missing
    · cases missing
    · split at missing
      · cases missing
      next differ =>
        split at missing
        next authorised => simp only [if_neg differ, authorised, current_authority, if_true]
        · exact absurd missing (blockedStatus_ne_missing _)
  | remove delta =>
    simp only [planDelta, planRemove] at missing ⊢
    split at missing
    · cases missing
    · split at missing
      next authorised => simp only [authorised, current_authority, if_true]
      · exact absurd missing (blockedStatus_ne_missing _)
  | rename delta =>
    simp only [planDelta, planRename] at missing ⊢
    split at missing
    · split at missing
      · cases missing
      · cases missing
    · split at missing
      · cases missing
      next fresh =>
        split at missing
        · cases missing
        next free =>
          split at missing
          next authorised => simp only [if_neg fresh, if_neg free, authorised, current_authority, if_true]
          · exact absurd missing (blockedStatus_ne_missing _)

theorem updateRow_congr
    (same : ∀ row, row.id = id → assign row = other row) (rows : List Requirement) :
    updateRow id assign rows = updateRow id other rows := by
  induction rows with
  | nil => rfl
  | cons row rows ih =>
    simp only [updateRow, ih]
    split
    next here => rw [same row here]
    next => rfl

variable (platform) in
theorem applied_of_applies {delta : Delta} {rows next : List Requirement} (distinct : Distinct rows)
    (named : ¬ Delta.emptiesId delta) (applies : Applies delta rows next) :
    (applyDelta platform delta rows).1.success = true ∧ (applyDelta platform delta rows).2 = next := by
  cases delta with
  | add delta =>
    obtain ⟨absent, rfl⟩ := applies
    simp [applyDelta, applyAddDelta, absent]
  | modify delta =>
    obtain ⟨⟨row, found⟩, rfl⟩ := applies
    simp [applyDelta, applyModifyDelta, found]
  | remove delta =>
    obtain ⟨⟨row, found⟩, rfl⟩ := applies
    simp [applyDelta, applyRemoveDelta, found, spliceRow_eq_filter distinct]
  | rename delta =>
    obtain ⟨⟨row, found⟩, free, rfl⟩ := applies
    rw [← updateRow_congr (fun row here => retitled_eq named here) rows]
    simp only [applyDelta, applyRenameDelta, found]
    cases given : DeltaRename.truthyId delta with
    | none => exact ⟨rfl, rfl⟩
    | some newId =>
      have brought := (Option.filter_eq_some_iff.mp given).1
      have result : DeltaRename.resultId delta = newId := by rw [DeltaRename.resultId, brought, Option.getD_some]
      have untaken : ¬ (newId ≠ delta.target_id ∧ (findRow rows newId).isSome = true) := by
        rintro ⟨moved, taken⟩
        rw [result] at free
        rw [free moved] at taken
        cases taken
      simp only [if_neg untaken, and_self]

theorem applies_of_missing (missing : (planDelta platform authority delta rows).1.status = .missing) :
    Applies delta rows (planDelta platform authority delta rows).2 := by
  rcases planDelta_cases platform authority delta rows with ⟨identical, _⟩ | ⟨_, applies⟩ | ⟨blocked, _⟩
  · rw [missing] at identical
    cases identical
  · exact applies
  · simp [DeltaProjectionDisposition.blocked, missing] at blocked

theorem run_missing (distinct : Distinct rows) (named : ∀ delta ∈ deltas, ¬ Delta.emptiesId delta)
    (missing : ∀ step ∈ trace (planDelta platform authority) deltas rows, step.response.status = .missing) :
    (∀ step ∈ trace (applyDelta platform) deltas rows, step.response.success = true) ∧
      stateAfter (applyDelta platform) deltas rows = stateAfter (planDelta platform authority) deltas rows := by
  induction deltas generalizing rows with
  | nil => exact ⟨fun _ member => (List.not_mem_nil member).elim, rfl⟩
  | cons delta deltas ih =>
    obtain ⟨missingFirst, missingRest⟩ := List.forall_mem_cons.mp missing
    obtain ⟨namedFirst, namedRest⟩ := List.forall_mem_cons.mp named
    have applies := applies_of_missing missingFirst
    obtain ⟨success, same⟩ := applied_of_applies platform distinct namedFirst applies
    obtain ⟨rest, final⟩ := ih (distinct_applies distinct applies) namedRest missingRest
    simp only [stateAfter_cons, trace, same]
    exact ⟨List.forall_mem_cons.mpr ⟨success, rest⟩, final⟩

theorem trace_of_missing
    (missing : ∀ step ∈ trace (planDelta platform authority) deltas rows, step.response.status = .missing) :
    trace (planDelta platform .current) deltas rows = trace (planDelta platform authority) deltas rows ∧
      stateAfter (planDelta platform .current) deltas rows = stateAfter (planDelta platform authority) deltas rows := by
  induction deltas generalizing rows with
  | nil => exact ⟨rfl, rfl⟩
  | cons delta deltas ih =>
    obtain ⟨missingFirst, missingRest⟩ := List.forall_mem_cons.mp missing
    have same := current_of_missing missingFirst
    obtain ⟨steps, final⟩ := ih missingRest
    simp only [trace, recordOf, stateAfter_cons, same, steps, final, and_self]

/-! ## The loop -/

@[simp] theorem ApplyState.start_rows (rows : List Requirement) : (ApplyState.start rows).rows = rows := rfl

theorem applyLoop_all {state : ApplyState}
    (applied : ∀ step ∈ trace (applyDelta platform) deltas state.rows, step.response.success = true) :
    applyLoop platform deltas state =
      { deltaResults := state.deltaResults ++ (trace (applyDelta platform) deltas state.rows).map Record.response
        hasAdd := state.hasAdd || deltas.any fun delta => delta.operation = .add
        hasModify := state.hasModify || deltas.any fun delta => delta.operation = .modify
        hasRenameOrRemove := state.hasRenameOrRemove ||
          deltas.any fun delta => delta.operation = .rename || delta.operation = .remove
        rows := stateAfter (applyDelta platform) deltas state.rows } := by
  induction deltas generalizing state with
  | nil => simp [applyLoop]
  | cons delta deltas ih =>
    obtain ⟨first, rest⟩ := List.forall_mem_cons.mp applied
    have success : (applyDelta platform delta state.rows).1.success = true := first
    simp only [applyLoop, success, Bool.not_true, Bool.false_eq_true, if_false]
    rw [ih rest]
    simp only [trace, recordOf, List.map_cons, List.append_assoc, List.singleton_append, List.any_cons, Bool.or_assoc,
      stateAfter_cons]

theorem applyLoop_success {state : ApplyState}
    (before : state.deltaResults.all DeltaApplicationResult.success = true) :
    (applyLoop platform deltas state).deltaResults.all DeltaApplicationResult.success = true ↔
      ∀ step ∈ trace (applyDelta platform) deltas state.rows, step.response.success = true := by
  induction deltas generalizing state with
  | nil => simp [applyLoop, before]
  | cons delta deltas ih =>
    simp only [applyLoop, trace, List.forall_mem_cons]
    cases success : (applyDelta platform delta state.rows).1.success with
    | false => simp [success, recordOf]
    | true =>
      simp only [Bool.not_true, Bool.false_eq_true, if_false]
      rw [ih (by simp [before, success])]
      simp [recordOf, success]

theorem updatedSpec_iff {spec applied : Spec} {version now : String} :
    (applyDeltasToSpec platform spec deltas version now).1.updatedSpec = some applied ↔
      (∀ step ∈ trace (applyDelta platform) (sortDeltas deltas) spec.requirements, step.response.success = true) ∧
        applied = (applyDeltasToSpec platform spec deltas version now).2 := by
  have success := @applyLoop_success platform (sortDeltas deltas) (.start spec.requirements) rfl
  rw [ApplyState.start_rows] at success
  rw [← success]
  simp only [applyDeltasToSpec]
  constructor
  · intro updated
    split at updated
    next all => exact ⟨all, by rw [if_pos all, ← Option.some.inj updated, if_pos all]⟩
    · cases updated
  · rintro ⟨all, rfl⟩
    rw [if_pos all]

variable {spec : Spec}

theorem applied_rows {version now : String}
    (all : ∀ step ∈ trace (applyDelta platform) (sortDeltas deltas) spec.requirements, step.response.success = true) :
    (applyDeltasToSpec platform spec deltas version now).2.requirements =
        stateAfter (applyDelta platform) (sortDeltas deltas) spec.requirements ∧
      (applyDeltasToSpec platform spec deltas version now).1.newVersion =
        bumpVersion platform version (deltas.any fun delta => delta.operation = .add)
          ((deltas.any fun delta => delta.operation = .modify) ||
            deltas.any fun delta => delta.operation = .rename || delta.operation = .remove) := by
  have loop := @applyLoop_all platform (sortDeltas deltas) (.start spec.requirements) all
  have success := (@applyLoop_success platform (sortDeltas deltas) (.start spec.requirements) rfl).mpr all
  have anySorted : ∀ test : Delta → Bool, (sortDeltas deltas).any test = deltas.any test := fun test =>
    (List.perm_insertionSort ordered deltas).any_eq
  simp only [applyDeltasToSpec, success, if_true]
  rw [loop]
  simp only [ApplyState.start, Bool.false_or, anySorted, and_self]

/-! ## Versions -/

theorem planDelta_operation (authority : ProjectionAuthority) (delta : Delta) (rows : List Requirement) :
    (planDelta platform authority delta rows).1.operation = delta.operation := by
  cases delta with
  | add delta =>
    simp only [planDelta, planAdd]
    split
    · split <;> rfl
    · rfl
  | modify delta =>
    simp only [planDelta, planModify]
    split
    · rfl
    · split
      · rfl
      · split <;> rfl
  | remove delta =>
    simp only [planDelta, planRemove]
    split
    · rfl
    · split <;> rfl
  | rename delta =>
    simp only [planDelta, planRename]
    split
    · split <;> rfl
    · split
      · rfl
      · split
        · rfl
        · split <;> rfl

theorem any_operation (authority : ProjectionAuthority) (deltas : List Delta) (rows : List Requirement)
    (operation : DeltaOperation) :
    (((trace (planDelta platform authority) deltas rows).map Record.response).any fun row =>
      row.operation = operation) = deltas.any fun delta => delta.operation = operation := by
  induction deltas generalizing rows with
  | nil => rfl
  | cons delta deltas ih =>
    simp only [trace, recordOf, List.map_cons, List.any_cons, planDelta_operation, ih]

theorem bumpVersion_eq {version : String} {missing : List DeltaProjectionDisposition} {hasPatchChange : Bool}
    (changed : missing ≠ []) : bumpProjectionVersion platform version missing =
      bumpVersion platform version (missing.any fun row => row.operation = .add) hasPatchChange := by
  have some : missing.length ≠ 0 := fun none => changed (List.length_eq_zero_iff.mp none)
  simp only [bumpProjectionVersion, if_neg some, bumpVersion]
  generalize (version.splitOn ".").map platform.numerals.number = parts
  -- Three parts, or any other number of them.
  rcases parts with _ | ⟨major, _ | ⟨minor, _ | ⟨patch, _ | _⟩⟩⟩
  · rfl
  · rfl
  · rfl
  · simp only [ite_self]
  · rfl

/-! ## The two appliers -/

variable (platform) in
/-- What the older applier makes of a copy of the spec, the planner plans under current authority. -/
def AppliedIsPlanned (spec : Spec) (deltas : List Delta) (now projectedAt : String) : Prop :=
  ∀ applied, (applyDeltasToSpec platform spec deltas spec.version now).1.updatedSpec = some applied →
    (planSpecProjection platform spec deltas .current projectedAt).status = .safe ∧
      ∃ target, (planSpecProjection platform spec deltas .current projectedAt).targetSpec = some target ∧
        List.Forall₂ (fun a b => sameValue platform a.toJs b.toJs = true) applied.requirements target.requirements

variable (platform) in
def AllMissing (spec : Spec) (deltas : List Delta) (authority : ProjectionAuthority) (projectedAt : String) : Prop :=
  (planSpecProjection platform spec deltas authority projectedAt).status = .safe ∧
    ∀ row ∈ (planSpecProjection platform spec deltas authority projectedAt).dispositions, row.status = .missing

variable (platform) in
/-- What is planned with every delta missing, the older applier makes of the spec, with the same version. -/
def PlannedIsApplied (spec : Spec) (deltas : List Delta) (authority : ProjectionAuthority)
    (now projectedAt : String) : Prop :=
  AllMissing platform spec deltas authority projectedAt →
    ∃ applied target, (applyDeltasToSpec platform spec deltas spec.version now).1.updatedSpec = some applied ∧
      (planSpecProjection platform spec deltas authority projectedAt).targetSpec = some target ∧
      applied.requirements = target.requirements ∧
      (applyDeltasToSpec platform spec deltas spec.version now).1.newVersion =
        (planSpecProjection platform spec deltas authority projectedAt).targetVersion

variable (platform) in
/-- The older applier applies every delta. -/
def AllApplied (spec : Spec) (deltas : List Delta) : Prop :=
  ∀ step ∈ trace (applyDelta platform) (sortDeltas deltas) spec.requirements, step.response.success = true

variable (platform) in
/-- No rename gives the empty id, and no add meets a lookalike when its turn comes. -/
structure ReadAlike (spec : Spec) (deltas : List Delta) : Prop where
  named : ∀ delta ∈ deltas, ¬ Delta.emptiesId delta
  apart : ∀ step ∈ trace (applyDelta platform) (sortDeltas deltas) spec.requirements,
    ¬ MeetsLookalike platform step.request step.before

variable {now projectedAt : String}

theorem appliedIsPlanned_of_readAlike (distinct : Distinct spec.requirements)
    (alike : AllApplied platform spec deltas → ReadAlike platform spec deltas) :
    AppliedIsPlanned platform spec deltas now projectedAt := by
  intro applied updated
  obtain ⟨all, rfl⟩ := updatedSpec_iff.mp updated
  obtain ⟨named, apart⟩ := alike all
  obtain ⟨unblocked, final⟩ := run_follows (AllAlike.refl spec.requirements) distinct
    (fun delta member => named delta (mem_sortDeltas.mp member)) all apart
  have safe : (planSpecProjection platform spec deltas .current projectedAt).status = .safe :=
    plan_safe_iff.mpr unblocked
  obtain ⟨target, planned⟩ := target_of_safe safe
  refine ⟨safe, target, planned, ?_⟩
  rw [(applied_rows all).1, (plan_target planned).2]
  exact final.sameValues

theorem readAlike_of_appliedIsPlanned (distinct : Distinct spec.requirements)
    (adds : ∀ delta ∈ deltas, ¬ Delta.addsEmptyId delta)
    (agree : AppliedIsPlanned platform spec deltas now projectedAt) (all : AllApplied platform spec deltas) :
    ReadAlike platform spec deltas := by
  obtain ⟨safe, target, planned, values⟩ := agree _ (updatedSpec_iff.mpr ⟨all, rfl⟩)
  have unblocked := plan_safe_iff.mp safe
  have named : ∀ delta ∈ deltas, ¬ Delta.emptiesId delta := by
    intro delta member emptied
    have vacant := run_emptied (AllAlike.refl spec.requirements) distinct
      ⟨delta, mem_sortDeltas.mpr member, emptied⟩ all unblocked fun step held added => by
        exact absurd added (adds step.request (mem_sortDeltas.mp (request_mem held)))
    rw [(applied_rows all).1, (plan_target planned).2] at values
    exact vacant.differ values
  exact ⟨named, run_blocked (AllAlike.refl spec.requirements) distinct
    (fun delta member => named delta (mem_sortDeltas.mp member)) all unblocked⟩

theorem steps_of_allMissing {projectedAt : String} (missing : AllMissing platform spec deltas authority projectedAt) :
    (∀ step ∈ trace (planDelta platform authority) (sortDeltas deltas) spec.requirements,
      step.response.status = .missing) ∧
      (planSpecProjection platform spec deltas authority projectedAt).targetVersion =
        bumpProjectionVersion platform spec.version
          ((trace (planDelta platform authority) (sortDeltas deltas) spec.requirements).map Record.response) := by
  obtain ⟨safe, all⟩ := missing
  simp only [planSpecProjection] at safe all ⊢
  split at safe
  · cases safe
  next unblocked =>
    rw [if_neg unblocked] at all ⊢
    refine ⟨fun step member => all step.response (List.mem_map_of_mem member), ?_⟩
    rw [List.filter_eq_self.mpr fun row member => decide_eq_true (all row member)]

theorem plannedIsApplied_iff (distinct : Distinct spec.requirements) :
    PlannedIsApplied platform spec deltas authority now projectedAt ↔
      (AllMissing platform spec deltas authority projectedAt → (∀ delta ∈ deltas, ¬ Delta.emptiesId delta) ∧
        (deltas = [] → bumpVersion platform spec.version false false = spec.version)) := by
  refine forall_congr' fun missing => ?_
  obtain ⟨steps, version⟩ := steps_of_allMissing missing
  obtain ⟨target, planned⟩ := target_of_safe missing.1
  have rows := (plan_target planned).2
  have perm : (sortDeltas deltas).Perm deltas := List.perm_insertionSort ordered deltas
  constructor
  · rintro ⟨applied, other, updated, planned', same, versions⟩
    obtain rfl : target = other := Option.some.inj (planned.symm.trans planned')
    obtain ⟨all, rfl⟩ := updatedSpec_iff.mp updated
    refine ⟨fun delta member emptied => ?_, fun empty => ?_⟩
    · obtain ⟨current, after⟩ := trace_of_missing steps
      have vacant := run_emptied (AllAlike.refl spec.requirements) distinct
        ⟨delta, mem_sortDeltas.mpr member, emptied⟩ all
        (fun step held => by
          rw [current] at held
          simp [DeltaProjectionDisposition.blocked, steps step held])
        (fun step held _ => steps step (current ▸ held))
      rw [(applied_rows all).1, rows, ← after] at same
      rw [same] at vacant
      exact vacant.has vacant.lacks
    · subst empty
      rw [(applied_rows all).2, version] at versions
      exact versions
  · rintro ⟨named, kept⟩
    obtain ⟨all, final⟩ := run_missing distinct (fun delta member => named delta (mem_sortDeltas.mp member)) steps
    refine ⟨_, target, updatedSpec_iff.mpr ⟨all, rfl⟩, planned, ?_, ?_⟩
    · rw [(applied_rows all).1, rows, final]
    · rw [(applied_rows all).2, version]
      by_cases empty : deltas = []
      · subst empty
        exact kept rfl
      · have changed : (trace (planDelta platform authority) (sortDeltas deltas) spec.requirements).map
            Record.response ≠ [] := by
          intro none
          have requests := trace_requests (planDelta platform authority) (sortDeltas deltas) spec.requirements
          rw [List.map_eq_nil_iff.mp none] at requests
          exact empty (requests ▸ perm).nil_eq.symm
        rw [bumpVersion_eq changed, any_operation, perm.any_eq]

variable (platform) in
/-- The two appliers agree, both ways, just if deltas that the older one applies are read alike by both, and a
    plan of missing deltas renames nothing to the empty id and, when it has no deltas, has a version that no
    patch raises.  A list that adds a requirement with the empty id may undo the first difference. -/
theorem appliers_agree {spec : Spec} (distinct : Distinct spec.requirements) (deltas : List Delta)
    (now projectedAt : String) : ((AllApplied platform spec deltas → ReadAlike platform spec deltas) →
        AppliedIsPlanned platform spec deltas now projectedAt) ∧
      ((∀ delta ∈ deltas, ¬ Delta.addsEmptyId delta) → AppliedIsPlanned platform spec deltas now projectedAt →
        AllApplied platform spec deltas → ReadAlike platform spec deltas) ∧
      ∀ authority, PlannedIsApplied platform spec deltas authority now projectedAt ↔
        (AllMissing platform spec deltas authority projectedAt → (∀ delta ∈ deltas, ¬ Delta.emptiesId delta) ∧
          (deltas = [] → bumpVersion platform spec.version false false = spec.version)) :=
  ⟨appliedIsPlanned_of_readAlike distinct, readAlike_of_appliedIsPlanned distinct,
    fun _ => plannedIsApplied_iff distinct⟩

end

/-! ## Fixed runs -/

def localRuntime : Platform := plainPlatform fun _ => noDigest

theorem replacement_agrees : Distinct (searchSpec "Search by name").requirements ∧
    AppliedIsPlanned localRuntime (searchSpec "Search by name") replacement "2026-02-01T00:00:00.000Z"
      "2026-02-01T00:00:00.000Z" := by
  have distinct : Distinct (searchSpec "Search by name").requirements := List.nodup_singleton _
  refine ⟨distinct, (appliers_agree localRuntime distinct replacement "2026-02-01T00:00:00.000Z"
    "2026-02-01T00:00:00.000Z").1 fun _ => ⟨?_, ?_⟩⟩
  · intro delta member
    rcases List.mem_cons.mp member with rfl | last
    · exact id
    · rw [List.mem_singleton.mp last]
      exact id
  · refine List.forall_mem_cons.mpr ⟨?_, List.forall_mem_cons.mpr ⟨?_, fun _ none => (List.not_mem_nil none).elim⟩⟩
    · rintro ⟨_, _, removes, _⟩
      cases removes
    · rintro ⟨_, _, same, found, _⟩
      cases same
      cases found

def taggedSpec : Spec := { searchSpec "" with requirements := [taggedRequirement ["search", "filter"]] }

def reorderedAdd : DeltaAdd := ⟨"dl-again", taggedRequirement ["filter", "search"]⟩

/-- The older applier takes the add for applied, the planner for a conflict. -/
theorem reordered_tags_disagree : Distinct taggedSpec.requirements ∧
    ¬ AppliedIsPlanned localRuntime taggedSpec [.add reorderedAdd] "2026-02-01T00:00:00.000Z"
      "2026-02-01T00:00:00.000Z" := by
  have distinct : Distinct taggedSpec.requirements := List.nodup_singleton _
  have ordered : Std.TransCmp (compare : String → String → Ordering) := inferInstance
  have equal : requirementsContentEqual localRuntime.localeCompare (taggedRequirement ["search", "filter"])
      reorderedAdd.requirement = true :=
    (@contentEqual_iff compare _ _ _).mpr
      ⟨⟨rfl, rfl, rfl, rfl⟩, sameLines_of_perm (List.Perm.swap _ _ _), fun _ => rfl⟩
  have differ : sameValue localRuntime (taggedRequirement ["search", "filter"]).toJs
      reorderedAdd.requirement.toJs = false := by rfl
  have found : findRow taggedSpec.requirements reorderedAdd.requirement.id =
      some (taggedRequirement ["search", "filter"]) := by rfl
  refine ⟨distinct, fun agree => ?_⟩
  have applied : AllApplied localRuntime taggedSpec [.add reorderedAdd] := by
    refine List.forall_mem_cons.mpr ⟨?_, fun _ none => (List.not_mem_nil none).elim⟩
    simp only [recordOf, applyDelta, applyAddDelta, found, equal, if_true]
  have named : reorderedAdd.requirement.id ≠ "" := by decide
  have adds : ∀ delta ∈ [Delta.add reorderedAdd], ¬ Delta.addsEmptyId delta := by
    intro delta member
    rw [List.mem_singleton.mp member]
    exact named
  have alike := readAlike_of_appliedIsPlanned distinct adds agree applied
  exact alike.apart _ List.mem_cons_self ⟨reorderedAdd, _, rfl, found, equal, differ⟩

end Advance.Archive
