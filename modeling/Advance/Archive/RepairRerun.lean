import Advance.Archive.RepairFold

/-! # Runs of historical repairs -/

namespace Advance.Archive

open Foundation
open Types

section

variable (sources : RepairSources) (dispositions : List HistoricalConflictDisposition)

/-! ## What is claimed -/

def HistoricalArchiveRepairRow.Accepted (row : HistoricalArchiveRepairRow) : Prop :=
  row.disposition = .complete ∨ row.disposition = .repaired

instance (row : HistoricalArchiveRepairRow) : Decidable row.Accepted :=
  inferInstanceAs (Decidable (row.disposition = .complete ∨ row.disposition = .repaired))

abbrev RepairStep := Record RepairState LoadedArchive HistoricalArchiveRepairRow

def acceptedArchives (steps : List RepairStep) : List LoadedArchive :=
  (steps.filter fun step => step.response.Accepted).map Record.request

/-- The same run over the specs another one has left reports what that one accepted as complete, and nothing to
    change. -/
def RerunQuiet (archives : List LoadedArchive) (first : HistoricalArchiveRepairResult) : Prop :=
  ∃ second, reconcileHistoricalArchiveDeltas sources dispositions ⟨none, none⟩ archives first.specs = .ok second ∧
    second.affectedCapabilities = [] ∧ second.specs = first.specs ∧
    ∀ rows ∈ first.rows.zip second.rows, rows.1.Accepted → rows.2.disposition = .complete

/-- A blocked archive contributes nothing, the others are planned on what the accepted ones before them led to, and
    the run can be repeated. -/
structure RepairSound (archives : List LoadedArchive) (specs : SpecMap) (first : HistoricalArchiveRepairResult) :
    Prop where
  blocked_nothing : ∀ step ∈ trace (repairArchive sources dispositions) (sortArchives sources archives) (.start specs),
    ¬ step.response.Accepted → step.after.cumulative = step.before.cumulative
  on_accepted : ∀ front step back,
    trace (repairArchive sources dispositions) (sortArchives sources archives) (.start specs) =
      front ++ step :: back →
    let before := stateAfter (repairArchive sources dispositions) (acceptedArchives front) (.start specs)
    step.before.cumulative = before.cumulative ∧
      step.response = (repairArchive sources dispositions step.request before).1
  rerun : RerunQuiet sources dispositions archives first

def StillBlocked (archive : LoadedArchive) (change : HistoricalArchiveChange) (specs : SpecMap) : Prop :=
  ((repairEntries sources dispositions archive.archivedAt change change.deltas.entries (.start specs)).1).isSome

/-- The specs a second run starts with show the deltas of every archive the first has accepted, those of a blocked one
    leave it blocked or find nothing to do, and every disposition still has its conflict. -/
structure SeedSettled (archives : List LoadedArchive) (specs seed : SpecMap) : Prop where
  accepted : ∀ step ∈ trace (repairArchive sources dispositions) (sortArchives sources archives) (.start specs),
    step.response.Accepted → ∀ change, step.request.change = .ok change →
      QuietArchive sources dispositions change seed
  blocked : ∀ step ∈ trace (repairArchive sources dispositions) (sortArchives sources archives) (.start specs),
    ¬ step.response.Accepted → ∀ change, step.request.change = .ok change →
      QuietArchive sources dispositions change seed ∨ StillBlocked sources dispositions step.request change seed
  bound : ∀ row ∈ dispositions, ∃ archive ∈ sortArchives sources archives,
    row.key ∈ (repairArchive sources dispositions archive (.start seed)).2.usedDispositions

variable {sources dispositions}

/-! ## One step -/

variable {key : String}

theorem mem_addAll {keys more : List String} : key ∈ addAll keys more ↔ key ∈ keys ∨ key ∈ more := by
  rw [addAll]
  induction more generalizing keys with
  | nil => simp
  | cons first rest ih =>
    rw [List.foldl_cons, ih, List.mem_cons]
    split
    next there =>
      constructor
      · rintro (member | later)
        · exact .inl member
        · exact .inr (.inr later)
      · rintro (member | rfl | later)
        · exact .inl member
        · exact .inl there
        · exact .inr later
    next => simp [or_assoc]

variable {change : HistoricalArchiveChange} {archive : LoadedArchive}

theorem repairArchive_ok (state : RepairState)
    (loaded : archive.change = .ok change) {blocked : Option HistoricalArchiveDisposition} {draft : RepairDraft}
    (ended : repairEntries sources dispositions archive.archivedAt change change.deltas.entries
      (.start state.cumulative) = (blocked, draft)) : repairArchive sources dispositions archive state =
      (draftRow archive change blocked draft,
        let used := addAll state.usedDispositions
          (draft.validatedConflictDispositions.map HistoricalConflictDisposition.key)
        if blocked.isSome then { state with usedDispositions := used }
        else ⟨draft.proposed, addAll state.affected draft.archiveAffected, used⟩) := by
  simp only [repairArchive, loaded, ended]

theorem repairArchive_error {error : String} (state : RepairState) (loaded : archive.change = .error error) :
    repairArchive sources dispositions archive state = (unreadableRow archive error, state) := by
  simp only [repairArchive, loaded]

variable (sources dispositions) in
theorem repairArchive_cases (archive : LoadedArchive) (state : RepairState) :
    (¬ (repairArchive sources dispositions archive state).1.Accepted ∧
        (repairArchive sources dispositions archive state).2.cumulative = state.cumulative ∧
        (repairArchive sources dispositions archive state).2.affected = state.affected ∧
        ∀ change, archive.change = .ok change → StillBlocked sources dispositions archive change state.cumulative) ∨
      ∃ change next, archive.change = .ok change ∧
        repairEntries sources dispositions archive.archivedAt change change.deltas.entries (.start state.cumulative) =
          (none, next) ∧
        (repairArchive sources dispositions archive state).1.disposition =
          (if next.missing then .repaired else .complete) ∧
        (repairArchive sources dispositions archive state).2.cumulative = next.proposed ∧
        (repairArchive sources dispositions archive state).2.affected = addAll state.affected next.archiveAffected := by
  cases loaded : archive.change with
  | error error =>
    rw [repairArchive_error state loaded]
    refine .inl ⟨?_, rfl, rfl, fun change same => by cases same⟩
    rintro (found | found) <;> cases found
  | ok change =>
    cases ended : repairEntries sources dispositions archive.archivedAt change change.deltas.entries
        (.start state.cumulative) with
    | mk blocked next =>
      rw [repairArchive_ok state loaded ended]
      cases blocked with
      | none => exact .inr ⟨change, next, rfl, ended, rfl, rfl, rfl⟩
      | some blocked =>
        have kind := repairEntries_blocked (congrArg Prod.fst ended)
        refine .inl ⟨?_, rfl, rfl, fun other same => ?_⟩
        · simp only [HistoricalArchiveRepairRow.Accepted, draftRow, Option.getD_some]
          rintro (rfl | rfl)
          · rcases kind with found | found <;> cases found
          · rcases kind with found | found <;> cases found
        · obtain rfl := Except.ok.inj same
          simp [StillBlocked, ended]

theorem accepted_of_missing {row : HistoricalArchiveRepairRow} {missing : Bool}
    (disposition : row.disposition = if missing then .repaired else .complete) : row.Accepted := by
  cases missing with
  | true => exact .inr disposition
  | false => exact .inl disposition

variable (sources dispositions) in
theorem repairArchive_congr (archive : LoadedArchive) {state other : RepairState}
    (same : state.cumulative = other.cumulative) :
    (repairArchive sources dispositions archive state).1 = (repairArchive sources dispositions archive other).1 ∧
      (repairArchive sources dispositions archive state).2.cumulative =
        (repairArchive sources dispositions archive other).2.cumulative := by
  cases loaded : archive.change with
  | error error =>
    rw [repairArchive_error state loaded, repairArchive_error other loaded]
    exact ⟨rfl, same⟩
  | ok change =>
    cases ended : repairEntries sources dispositions archive.archivedAt change change.deltas.entries
        (.start other.cumulative) with
    | mk blocked next =>
      rw [repairArchive_ok other loaded ended, repairArchive_ok state loaded (same ▸ ended)]
      refine ⟨rfl, ?_⟩
      cases blocked with
      | none => rfl
      | some blocked => exact same

variable {state : RepairState}

theorem repairArchive_used (archive : LoadedArchive) :
    key ∈ (repairArchive sources dispositions archive state).2.usedDispositions ↔ key ∈ state.usedDispositions ∨
        key ∈ (repairArchive sources dispositions archive (.start state.cumulative)).2.usedDispositions := by
  cases loaded : archive.change with
  | error error =>
    rw [repairArchive_error state loaded, repairArchive_error _ loaded]
    simp [RepairState.start]
  | ok change =>
    cases ended : repairEntries sources dispositions archive.archivedAt change change.deltas.entries
        (.start state.cumulative) with
    | mk blocked next =>
      rw [repairArchive_ok state loaded ended, repairArchive_ok (.start state.cumulative) loaded ended]
      cases blocked <;> simp [RepairState.start, mem_addAll]

/-! ## Blocked archives -/

variable (sources dispositions) in
/-- A run over the accepted archives alone leads to the same specs. -/
theorem blocked_left_out (archives : List LoadedArchive) {state other : RepairState}
    (same : state.cumulative = other.cumulative) :
    (stateAfter (repairArchive sources dispositions) archives state).cumulative =
      (stateAfter (repairArchive sources dispositions)
        (acceptedArchives (trace (repairArchive sources dispositions) archives state)) other).cumulative := by
  induction archives generalizing state other with
  | nil => exact same
  | cons archive rest ih =>
    have congr := repairArchive_congr sources dispositions archive same
    by_cases accepted : (repairArchive sources dispositions archive state).1.Accepted
    · have listed : acceptedArchives (trace (repairArchive sources dispositions) (archive :: rest) state) =
          archive :: acceptedArchives (trace (repairArchive sources dispositions) rest
            (repairArchive sources dispositions archive state).2) := by
        simp [acceptedArchives, trace, recordOf, accepted]
      rw [listed, stateAfter_cons, stateAfter_cons]
      exact ih congr.2
    · have listed : acceptedArchives (trace (repairArchive sources dispositions) (archive :: rest) state) =
          acceptedArchives (trace (repairArchive sources dispositions) rest
            (repairArchive sources dispositions archive state).2) := by
        simp [acceptedArchives, trace, recordOf, accepted]
      rw [listed, stateAfter_cons]
      refine ih ?_
      rcases repairArchive_cases sources dispositions archive state with
        ⟨_, kept, _⟩ | ⟨_, next, _, _, disposition, _⟩
      · exact kept.trans same
      · exact absurd (accepted_of_missing disposition) accepted

/-! ## What a run has written -/

structure Repaired (specs : SpecMap) (state : RepairState) : Prop where
  untouched : ∀ capability ∉ state.affected, state.cumulative.get capability = specs.get capability
  written : ∀ capability ∈ state.affected, state.cumulative.get capability ≠ none

variable (sources dispositions) in
theorem repairArchive_repaired {specs : SpecMap} (archive : LoadedArchive) {state : RepairState}
    (repaired : Repaired specs state) : Repaired specs (repairArchive sources dispositions archive state).2 := by
  rcases repairArchive_cases sources dispositions archive state with
    ⟨_, cumulative, affected, _⟩ | ⟨change, next, _, ended, _, cumulative, affected⟩
  · refine ⟨fun capability out => ?_, fun capability member => ?_⟩
    · rw [affected] at out
      rw [cumulative]
      exact repaired.untouched capability out
    · rw [affected] at member
      rw [cumulative]
      exact repaired.written capability member
  · have proposes := repairEntries_proposes ended
    refine ⟨fun capability out => ?_, fun capability member => ?_⟩
    · rw [affected, mem_addAll, not_or] at out
      rw [cumulative]
      exact (proposes.kept capability out.2).trans (repaired.untouched capability out.1)
    · rw [affected, mem_addAll] at member
      rw [cumulative]
      rcases member with before | added
      · exact proposes.stays capability (repaired.written capability before)
      · exact (proposes.written capability added).resolve_left List.not_mem_nil

variable (sources dispositions) in
theorem run_repaired (archives : List LoadedArchive) (specs : SpecMap) :
    (∀ step ∈ trace (repairArchive sources dispositions) archives (.start specs), Repaired specs step.before) ∧
      Repaired specs (stateAfter (repairArchive sources dispositions) archives (.start specs)) := by
  have start : Repaired specs (.start specs) := ⟨fun _ _ => rfl, fun _ member => absurd member List.not_mem_nil⟩
  have preserved : ∀ archive ∈ archives, ∀ state, Repaired specs state →
      Repaired specs (repairArchive sources dispositions archive state).2 :=
    fun archive _ state repaired => repairArchive_repaired sources dispositions archive repaired
  have run := trace_invariant start preserved
  exact ⟨fun step member => (run.1 step member).1, run.2⟩

theorem saveAffected_get (cumulative specs : SpecMap) (affected : List String) (capability : String) :
    (saveAffected cumulative specs affected).get capability =
      if capability ∈ affected then (cumulative.get capability).or (specs.get capability)
      else specs.get capability := by
  induction affected generalizing specs with
  | nil => rfl
  | cons first rest ih =>
    have saved : saveAffected cumulative specs (first :: rest) =
        saveAffected cumulative (((cumulative.get first).map specs.set).getD specs) rest := by
      rw [saveAffected, saveAffected, List.filterMap_cons]
      cases cumulative.get first <;> rfl
    rw [saved, ih]
    by_cases same : capability = first
    · rw [same]
      cases found : cumulative.get first with
      | none => simp
      | some spec =>
        have there : (specs.set spec).get first = some spec := if_pos (cumulative.named _ _ found).symm
        simp [there]
    · cases found : cumulative.get first with
      | none => simp [same]
      | some spec =>
        have other : (specs.set spec).get capability = specs.get capability :=
          SpecMap.set_other fun named => same (named.trans (cumulative.named _ _ found))
        simp [other, same]

theorem repairResult_specs (archives : List LoadedArchive) (specs : SpecMap) (rows : List HistoricalArchiveRepairRow) :
    (repairResult sources specs rows
      (stateAfter (repairArchive sources dispositions) archives (.start specs))).specs =
        (stateAfter (repairArchive sources dispositions) archives (.start specs)).cumulative := by
  have repaired := (run_repaired sources dispositions archives specs).2
  refine SpecMap.ext_get fun capability => ?_
  simp only [repairResult]
  rw [saveAffected_get]
  simp only [List.mem_insertionSort]
  split
  next member =>
    obtain ⟨spec, found⟩ := Option.ne_none_iff_exists'.mp (repaired.written capability member)
    rw [found, Option.some_or]
  next out => exact (repaired.untouched capability out).symm

theorem affected_nil_iff (archives : List LoadedArchive) (specs : SpecMap) (rows : List HistoricalArchiveRepairRow) :
    (repairResult sources specs rows
      (stateAfter (repairArchive sources dispositions) archives (.start specs))).affectedCapabilities = [] ↔
        (stateAfter (repairArchive sources dispositions) archives (.start specs)).affected = [] := by
  have repaired := (run_repaired sources dispositions archives specs).2
  simp only [repairResult, List.filterMap_eq_nil_iff, List.mem_insertionSort, Option.map_eq_none_iff]
  constructor
  · intro none
    exact List.eq_nil_iff_forall_not_mem.mpr fun capability member =>
      repaired.written capability member (none capability member)
  · intro empty capability member
    rw [empty] at member
    cases member

variable {archives : List LoadedArchive} {specs : SpecMap}

theorem reconcile_ok_iff {checks : SeedChecks} {result : HistoricalArchiveRepairResult} :
    reconcileHistoricalArchiveDeltas sources dispositions checks archives specs = .ok result ↔
      (checks.atStart = none ∧ checks.beforeWrite = none) ∧
        (dispositions.map HistoricalConflictDisposition.key).Nodup ∧
        unusedDispositions dispositions (stateAfter (repairArchive sources dispositions)
          (sortArchives sources archives) (.start specs)) = [] ∧
        repairResult sources specs ((trace (repairArchive sources dispositions) (sortArchives sources archives)
          (.start specs)).map Record.response) (stateAfter (repairArchive sources dispositions)
            (sortArchives sources archives) (.start specs)) = result := by
  obtain ⟨atStart, beforeWrite⟩ := checks
  rw [reconcileHistoricalArchiveDeltas]
  cases atStart with
  | some error => simp
  | none =>
    simp only [true_and]
    by_cases distinct : (dispositions.map HistoricalConflictDisposition.key).Nodup
    · cases unused : unusedDispositions dispositions (stateAfter (repairArchive sources dispositions)
          (sortArchives sources archives) (.start specs)) with
      | cons row rest => simp [distinct]
      | nil => cases beforeWrite <;> simp [distinct]
    · simp [distinct]

/-! ## Runs that stay where they are -/

variable (sources dispositions) in
theorem repairArchive_stays (archive : LoadedArchive) {state : RepairState}
    (quiet : ∀ change, archive.change = .ok change → QuietArchive sources dispositions change state.cumulative ∨
      StillBlocked sources dispositions archive change state.cumulative) :
    (repairArchive sources dispositions archive state).2.cumulative = state.cumulative ∧
      (repairArchive sources dispositions archive state).2.affected = state.affected := by
  rcases repairArchive_cases sources dispositions archive state with
    ⟨_, cumulative, affected, _⟩ | ⟨change, next, loaded, ended, _, cumulative, affected⟩
  · exact ⟨cumulative, affected⟩
  · rcases quiet change loaded with settled | blocked
    · obtain ⟨own, eq, proposed, _, none⟩ := quiet_accepted archive.archivedAt settled
      obtain rfl := (Prod.mk.inj (ended.symm.trans eq)).2
      rw [cumulative, affected, proposed, none]
      exact ⟨rfl, rfl⟩
    · rw [StillBlocked, ended] at blocked
      cases blocked

theorem repairArchive_complete (archive : LoadedArchive)
    (loaded : archive.change = .ok change) (quiet : QuietArchive sources dispositions change state.cumulative) :
    (repairArchive sources dispositions archive state).1.disposition = .complete := by
  obtain ⟨next, eq, _, missing, _⟩ := quiet_accepted archive.archivedAt quiet
  rw [repairArchive_ok state loaded eq]
  simp [draftRow, missing]

theorem quiet_of_unaffected (archive : LoadedArchive)
    (none : (repairArchive sources dispositions archive state).2.affected = [])
    (loaded : archive.change = .ok change) : if (repairArchive sources dispositions archive state).1.Accepted then
      QuietArchive sources dispositions change state.cumulative
    else StillBlocked sources dispositions archive change state.cumulative := by
  rcases repairArchive_cases sources dispositions archive state with
    ⟨refused, _, _, blocked⟩ | ⟨own, next, found, ended, disposition, _, affected⟩
  · rw [if_neg refused]
    exact blocked change loaded
  · obtain rfl := Except.ok.inj (loaded.symm.trans found)
    have nothing : next.archiveAffected = [] := by
      refine List.eq_nil_iff_forall_not_mem.mpr fun capability member => ?_
      have there : capability ∈ addAll state.affected next.archiveAffected := mem_addAll.mpr (.inr member)
      rw [← affected, none] at there
      cases there
    have complete : next.missing = false := by
      by_contra missing
      rw [Bool.not_eq_false] at missing
      rcases (repairEntries_proposes ended).affects missing with start | some
      · cases start
      · exact some nothing
    rw [if_pos (accepted_of_missing disposition)]
    exact (quiet_of_repairEntries ended complete).2

theorem unmoved_of_unaffected
    (none : (stateAfter (repairArchive sources dispositions) archives (.start specs)).affected = []) :
    ∀ step ∈ trace (repairArchive sources dispositions) archives (.start specs),
      step.before.cumulative = specs ∧ step.after.affected = [] := by
  intro step member
  have grows : ∀ (archive : LoadedArchive) (state : RepairState), ∀ capability ∈ state.affected,
      capability ∈ (repairArchive sources dispositions archive state).2.affected := by
    intro archive state capability there
    rcases repairArchive_cases sources dispositions archive state with
      ⟨_, _, affected, _⟩ | ⟨_, _, _, _, _, _, affected⟩
    · rwa [affected]
    · rw [affected]
      exact mem_addAll.mpr (.inl there)
  -- What a step has affected stays affected to the end.
  have late : ∀ capability ∈ step.after.affected, False := by
    intro capability there
    obtain ⟨front, back, split⟩ := List.append_of_mem member
    obtain ⟨early, rest, rfl, _, served, _⟩ := trace_split split
    have preserved : ∀ archive ∈ rest, ∀ state : RepairState, capability ∈ state.affected →
        capability ∈ (repairArchive sources dispositions archive state).2.affected :=
      fun archive _ state own => grows archive state capability own
    have kept := (trace_invariant (P := fun state : RepairState => capability ∈ state.affected) there preserved).2
    rw [served, recordOf_after] at kept
    rw [stateAfter_append, stateAfter_cons] at none
    rw [none] at kept
    cases kept
  have after : step.after.affected = [] := List.eq_nil_iff_forall_not_mem.mpr late
  have served := trace_step member
  have before : step.before.affected = [] := by
    refine List.eq_nil_iff_forall_not_mem.mpr fun capability there => late capability ?_
    rw [served]
    exact grows _ _ capability there
  refine ⟨SpecMap.ext_get fun capability => ?_, after⟩
  have own := (run_repaired sources dispositions archives specs).1 step member
  exact own.untouched capability (by rw [before]; exact List.not_mem_nil)

section

variable
  (unmoved : ∀ step ∈ trace (repairArchive sources dispositions) archives state, step.before.cumulative = specs)
include unmoved

theorem unmoved_rows : (trace (repairArchive sources dispositions) archives state).map Record.response =
      archives.map fun archive => (repairArchive sources dispositions archive (.start specs)).1 := by
  have own : (trace (repairArchive sources dispositions) archives state).map Record.response =
      (trace (repairArchive sources dispositions) archives state).map fun step =>
        (repairArchive sources dispositions step.request (.start specs)).1 := by
    refine List.map_congr_left fun step member => ?_
    have served := congrArg Record.response (trace_step member)
    rw [served]
    have same : step.before.cumulative = (RepairState.start specs).cumulative := unmoved step member
    exact (repairArchive_congr sources dispositions step.request same).1
  have listed := congrArg (List.map fun archive => (repairArchive sources dispositions archive (.start specs)).1)
    (trace_requests (repairArchive sources dispositions) archives state)
  rw [List.map_map] at listed
  exact own.trans listed

theorem unmoved_used : key ∈ (stateAfter (repairArchive sources dispositions) archives state).usedDispositions ↔
      key ∈ state.usedDispositions ∨ ∃ archive ∈ archives,
        key ∈ (repairArchive sources dispositions archive (.start specs)).2.usedDispositions := by
  induction archives generalizing state with
  | nil => simp
  | cons archive rest ih =>
    have first : state.cumulative = specs := unmoved _ List.mem_cons_self
    rw [stateAfter_cons, ih fun step member => unmoved step (List.mem_cons_of_mem _ member), repairArchive_used, first]
    simp [or_assoc]

end

/-! ## The second run -/

theorem unused_nil_iff :
    unusedDispositions dispositions state = [] ↔ ∀ row ∈ dispositions, row.key ∈ state.usedDispositions := by
  simp [unusedDispositions, List.filter_eq_nil_iff]

theorem rows_beside (state : RepairState) (alone : LoadedArchive → HistoricalArchiveRepairRow) :
    ((trace (repairArchive sources dispositions) archives state).map Record.response).zip (archives.map alone) =
      (trace (repairArchive sources dispositions) archives state).map fun step =>
        (step.response, alone step.request) := by
  have listed := congrArg (List.map alone) (trace_requests (repairArchive sources dispositions) archives state)
  rw [List.map_map] at listed
  rw [← listed]
  exact List.zip_map'

theorem unmoved_of_settled {seed : SpecMap} (quiet : ∀ archive ∈ archives, ∀ change, archive.change = .ok change →
      QuietArchive sources dispositions change seed ∨ StillBlocked sources dispositions archive change seed) :
    (∀ step ∈ trace (repairArchive sources dispositions) archives (.start seed), step.before.cumulative = seed) ∧
      (stateAfter (repairArchive sources dispositions) archives (.start seed)).cumulative = seed ∧
      (stateAfter (repairArchive sources dispositions) archives (.start seed)).affected = [] := by
  have preserved : ∀ archive ∈ archives, ∀ state : RepairState, (state.cumulative = seed ∧ state.affected = []) →
      (repairArchive sources dispositions archive state).2.cumulative = seed ∧
        (repairArchive sources dispositions archive state).2.affected = [] := by
    rintro archive member state ⟨rfl, none⟩
    have stays := repairArchive_stays sources dispositions archive (quiet archive member)
    exact ⟨stays.1, stays.2.trans none⟩
  have start : (RepairState.start seed).cumulative = seed ∧ (RepairState.start seed).affected = [] := ⟨rfl, rfl⟩
  have run := trace_invariant (P := fun state : RepairState => state.cumulative = seed ∧ state.affected = []) start
    preserved
  exact ⟨fun step member => (run.1 step member).1.1, run.2⟩

theorem sides_of_unaffected {seed : SpecMap}
    (none : (stateAfter (repairArchive sources dispositions) archives (.start seed)).affected = [])
    (member : archive ∈ archives) (loaded : archive.change = .ok change) :
    if (repairArchive sources dispositions archive (.start seed)).1.Accepted then
      QuietArchive sources dispositions change seed else StillBlocked sources dispositions archive change seed := by
  obtain ⟨step, traced, rfl⟩ := @exists_step _ _ _ (repairArchive sources dispositions) _ (.start seed) _ member
  obtain ⟨kept, unaffected⟩ := unmoved_of_unaffected none step traced
  rw [trace_step traced, recordOf_after] at unaffected
  have side := quiet_of_unaffected step.request unaffected loaded
  have same : step.before.cumulative = (RepairState.start seed).cumulative := kept
  rw [same, (repairArchive_congr sources dispositions step.request same).1] at side
  exact side

variable {first : HistoricalArchiveRepairResult}

theorem settled_of_rerun
    (rows : first.rows = (trace (repairArchive sources dispositions) (sortArchives sources archives)
      (.start specs)).map Record.response) (quiet : RerunQuiet sources dispositions archives first) :
    SeedSettled sources dispositions archives specs first.specs := by
  obtain ⟨second, ran, unaffected, _, complete⟩ := quiet
  obtain ⟨_, _, unused, rfl⟩ := reconcile_ok_iff.mp ran
  rw [affected_nil_iff] at unaffected
  have kept := fun step member => (unmoved_of_unaffected unaffected step member).1
  constructor
  · intro step member accepted change loaded
    have side := sides_of_unaffected unaffected (request_mem member) loaded
    rw [if_pos] at side
    · exact side
    · refine .inl (complete (step.response, _) ?_ accepted)
      simp only [repairResult]
      rw [unmoved_rows kept, rows, rows_beside]
      exact List.mem_map_of_mem (f := fun step : RepairStep => (step.response,
        (repairArchive sources dispositions step.request (.start first.specs)).1)) member
  · intro step member _ change loaded
    have side := sides_of_unaffected unaffected (request_mem member) loaded
    split at side
    · exact .inl side
    · exact .inr side
  · intro row member
    have used := unused_nil_iff.mp unused row member
    rw [unmoved_used kept] at used
    exact used.resolve_left List.not_mem_nil

section

variable (distinct : (dispositions.map HistoricalConflictDisposition.key).Nodup)
  (rows : first.rows = (trace (repairArchive sources dispositions) (sortArchives sources archives) (.start specs)).map Record.response)
include distinct rows

theorem rerun_of_settled (settled : SeedSettled sources dispositions archives specs first.specs) :
    RerunQuiet sources dispositions archives first := by
  have quiet : ∀ archive ∈ sortArchives sources archives, ∀ change, archive.change = .ok change →
      QuietArchive sources dispositions change first.specs ∨
        StillBlocked sources dispositions archive change first.specs := by
    intro archive member change loaded
    obtain ⟨step, traced, rfl⟩ := @exists_step _ _ _ (repairArchive sources dispositions) _ (.start specs) _ member
    by_cases accepted : step.response.Accepted
    · exact .inl (settled.accepted step traced accepted change loaded)
    · exact settled.blocked step traced accepted change loaded
  obtain ⟨kept, cumulative, affected⟩ := unmoved_of_settled quiet
  have unused : unusedDispositions dispositions (stateAfter (repairArchive sources dispositions)
      (sortArchives sources archives) (.start first.specs)) = [] := by
    refine unused_nil_iff.mpr fun row member => ?_
    rw [unmoved_used kept]
    exact .inr (settled.bound row member)
  refine ⟨_, reconcile_ok_iff.mpr ⟨⟨rfl, rfl⟩, distinct, unused, rfl⟩, (affected_nil_iff _ _ _).mpr affected,
    (repairResult_specs _ _ _).trans cumulative, ?_⟩
  intro pair paired accepted
  simp only [repairResult] at paired
  rw [unmoved_rows kept, rows, rows_beside] at paired
  obtain ⟨step, member, rfl⟩ := List.mem_map.mp paired
  cases loaded : step.request.change with
  | ok change =>
    exact repairArchive_complete step.request loaded (settled.accepted step member accepted change loaded)
  | error error =>
    -- What cannot be read is not accepted.
    have served := congrArg Record.response (trace_step member)
    rw [show step.response = unreadableRow step.request error by
      rw [served]; exact congrArg Prod.fst (repairArchive_error _ loaded)] at accepted
    rcases accepted with found | found <;> cases found

theorem rerun_quiet_iff : RerunQuiet sources dispositions archives first ↔
      SeedSettled sources dispositions archives specs first.specs :=
  ⟨settled_of_rerun rows, rerun_of_settled distinct rows⟩

end

/-- Blocked archives contribute nothing and the others build on the accepted ones; a second run finds nothing to do
    just if the specs it starts with are settled. -/
theorem repair_sound_iff {sources : RepairSources} {dispositions : List HistoricalConflictDisposition}
    {checks : SeedChecks} {archives : List LoadedArchive} {specs : SpecMap} {first : HistoricalArchiveRepairResult}
    (run : reconcileHistoricalArchiveDeltas sources dispositions checks archives specs = .ok first) :
    RepairSound sources dispositions archives specs first ↔
      SeedSettled sources dispositions archives specs first.specs := by
  obtain ⟨_, distinct, _, result⟩ := reconcile_ok_iff.mp run
  have rows : first.rows = (trace (repairArchive sources dispositions) (sortArchives sources archives)
      (.start specs)).map Record.response := by
    rw [← result]
    rfl
  have quiet := rerun_quiet_iff distinct rows
  constructor
  · exact fun sound => quiet.mp sound.rerun
  · intro settled
    refine ⟨?_, ?_, quiet.mpr settled⟩
    · intro step member refused
      have served := trace_step member
      rw [served] at refused ⊢
      rcases repairArchive_cases sources dispositions step.request step.before with
        ⟨_, kept, _⟩ | ⟨_, next, _, _, disposition, _⟩
      · exact kept
      · exact absurd (accepted_of_missing disposition) refused
    · intro front step back split
      obtain ⟨early, late, _, rfl, served, _⟩ := trace_split split
      have same := @blocked_left_out sources dispositions early (.start specs) _ rfl
      rw [served]
      exact ⟨same, (repairArchive_congr sources dispositions step.request same).1⟩

end

/-! ## Fixed runs -/

def branchSources : RepairSources where
  platform := plainPlatform fun _ => noDigest
  gitShow ref capability :=
    if ref = "change/dropSearch^" ∧ capability = "search" then some (searchSpec "Search by name") else none

def addSearch : HistoricalArchiveChange where
  id := "addSearch"
  created_at := "2026-01-01T00:00:00.000Z"
  completedAt := none
  changeTipSha := none
  deltas := ⟨[("search", [.add ⟨"dl-new", replacedRequirement "Search by name"⟩])], List.nodup_singleton _⟩

def dropSearch : HistoricalArchiveChange where
  id := "dropSearch"
  created_at := "2026-02-01T00:00:00.000Z"
  completedAt := none
  changeTipSha := none
  deltas := ⟨[("search", [.remove ⟨"dl-old", "rq-search01", "superseded", none⟩])], List.nodup_singleton _⟩

def loadedOn (archivedAt : String) (change : HistoricalArchiveChange) : LoadedArchive :=
  ⟨archivedAt ++ "-" ++ change.id, archivedAt, change.id, .ok change⟩

def droppedArchives : List LoadedArchive := [loadedOn "2026-01-01" addSearch, loadedOn "2026-02-01" dropSearch]

/-- One archive adds a requirement and a later one removes it.  Both are repaired; a second run finds the requirement
    missing, adds it and removes it once more. -/
theorem dropped_requirement_repaired_again :
    ∃ first, reconcileHistoricalArchiveDeltas branchSources [] ⟨none, none⟩ droppedArchives (specMapOf []) = .ok first ∧
      ¬ RepairSound branchSources [] droppedArchives (specMapOf []) first := by
  refine ⟨_, reconcile_ok_iff.mpr ⟨⟨rfl, rfl⟩, List.nodup_nil, rfl, rfl⟩, fun sound => ?_⟩
  have settled := (@rerun_quiet_iff branchSources [] droppedArchives (specMapOf []) _ List.nodup_nil rfl).mp sound.rerun
  have sorted : sortArchives branchSources droppedArchives = droppedArchives := rfl
  have added : Foundation.recordOf (repairArchive branchSources []) (loadedOn "2026-01-01" addSearch)
      (.start (specMapOf [])) ∈ trace (repairArchive branchSources []) (sortArchives branchSources droppedArchives)
        (.start (specMapOf [])) := by
    rw [sorted]
    exact List.mem_cons_self
  have quiet := settled.accepted _ added (by decide) addSearch rfl
  obtain ⟨spec, found, shown⟩ := quiet _ List.mem_cons_self (List.cons_ne_nil _ _)
  have undisposed := shown _ List.mem_cons_self
  rw [preservedIds_unbound fun deltaId => rfl] at undisposed
  obtain ⟨row, there, _⟩ := undisposed.resolve_left List.not_mem_nil
  have gone : ((repairResult branchSources (specMapOf []) ((trace (repairArchive branchSources [])
      (sortArchives branchSources droppedArchives) (.start (specMapOf []))).map Record.response)
      (stateAfter (repairArchive branchSources []) (sortArchives branchSources droppedArchives)
        (.start (specMapOf [])))).specs.get "search").map (fun spec => spec.requirements.map Requirement.id) =
      some [] := by rfl
  rw [found, Option.map_some, Option.some.injEq, List.map_eq_nil_iff] at gone
  rw [gone] at there
  cases there

/-- A single archive that adds a requirement. -/
theorem added_requirement_repaired_once :
    ∃ first, reconcileHistoricalArchiveDeltas branchSources [] ⟨none, none⟩ [loadedOn "2026-01-01" addSearch]
        (specMapOf []) = .ok first ∧
      RepairSound branchSources [] [loadedOn "2026-01-01" addSearch] (specMapOf []) first := by
  have run : reconcileHistoricalArchiveDeltas branchSources [] ⟨none, none⟩ [loadedOn "2026-01-01" addSearch]
      (specMapOf []) = .ok _ := reconcile_ok_iff.mpr ⟨⟨rfl, rfl⟩, List.nodup_nil, rfl, rfl⟩
  refine ⟨_, run, (repair_sound_iff run).mpr ⟨?_, ?_, fun _ none => absurd none List.not_mem_nil⟩⟩
  · intro step member _ change loaded
    obtain rfl := List.mem_singleton.mp member
    obtain rfl := Except.ok.inj loaded
    intro entry held _
    obtain rfl := List.mem_singleton.mp held
    refine ⟨{ absentSpec "search" "2026-01-01" with
      version := "1.0.0", updated_at := "2026-01-01T00:00:00.000Z"
      requirements := [replacedRequirement "Search by name"] }, ?_, ?_⟩
    · rfl
    · intro delta listed
      obtain rfl := List.mem_singleton.mp listed
      exact .inr ⟨replacedRequirement "Search by name", by rfl, by rfl⟩
  · intro step member refused
    obtain rfl := List.mem_singleton.mp member
    exact absurd (by decide) refused

end Advance.Archive
