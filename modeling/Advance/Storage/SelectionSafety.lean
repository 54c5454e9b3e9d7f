import Mathlib
import Advance.Storage.ChangeSelection

/-! # What a bulk close selects
-/

namespace Advance.Storage

open Advance.JavaScript

section

variable (deps : SelectionDeps) (filter : ChangeFilter)

/-! ## What is claimed -/

/-- The latest valid timestamp of the creation, the tasks and the gates. -/
def activityTime (change : SelectableChange) : Option Int :=
  ((change.created_at :: change.stamps.filterMap given).filterMap deps.getTime).max?

structure Satisfies (change : SelectableChange) : Prop where
  status : ∀ status, given filter.status = some status → statusText change.status = status
  start : ∀ start, given filter.startsWith = some start → startsWith start change.id = true
  title : ∀ part, given filter.titleContains = some part → containsText part change.title = true
  created : ∀ cutoff, given filter.createdBefore = some cutoff →
    isBefore (deps.getTime change.created_at) (deps.getTime cutoff) = true
  activity : ∀ cutoff, given filter.lastActivityBefore = some cutoff →
    isBefore (activityTime deps change) (deps.getTime cutoff) = true

def AlwaysFits (id : String) : Prop :=
  ∀ call, ∃ change, deps.get call id = .success (some change) ∧ change.id = id ∧ change.status = .draft ∧
    Satisfies deps filter change

/-- The ids that are returned are distinct and those of loaded drafts that fit the selector; no listed draft that fits
    is left out. -/
structure SelectionSafe (selector : BulkCloseSelector) : Prop where
  distinct : ∀ ids, (resolveChangeSelection deps selector).result = .ok ids → ids.Nodup
  drafts : ∀ ids, (resolveChangeSelection deps selector).result = .ok ids → ∀ id ∈ ids,
    ∃ change ∈ (resolveChangeSelection deps selector).loaded, change.id = id ∧ change.status = .draft ∧
      ∀ filter, selector = .filter filter → Satisfies deps filter change
  complete : ∀ ids filter, (resolveChangeSelection deps selector).result = .ok ids → selector = .filter filter →
    ∀ summary ∈ deps.list filter.status, AlwaysFits deps filter summary.id → summary.id ∈ ids

/-! ## When it holds -/

/-- The changes of the first round that a filter by age leaves: a change passes the test of its activity where one of
    its id does. -/
def staleChanges : List SelectableChange :=
  (fullChanges deps filter).filter fun change => createdFits deps filter change &&
    (fullChanges deps filter).any fun other => decide (other.id = change.id) && activityFits deps filter other

/-- A filter of status or age is given, something is left, and the last round loads drafts only. -/
structure Unopposed : Prop where
  filtered : ((given filter.status).isNone && !filter.isStale) = false
  left : if filter.isStale then staleChanges deps filter ≠ [] else candidates deps filter ≠ []
  drafts : ∀ change ∈ gateChanges deps filter, change.status = .draft

/-- Without a filter by age: the candidates are distinct drafts, each loaded in the last round as one whose title
    fits, and every draft that fits is a candidate. -/
structure PlainSound : Prop where
  distinct : (candidateIds deps filter).Nodup
  status : given filter.status = some "draft"
  loaded : ∀ id ∈ candidateIds deps filter, ∃ change ∈ gateChanges deps filter, change.id = id ∧
    ∀ part, given filter.titleContains = some part → containsText part change.title = true
  listed : ∀ summary ∈ deps.list filter.status, AlwaysFits deps filter summary.id →
    summary.id ∈ candidateIds deps filter

/-- With one: the changes that are left are distinct where a time of creation is given, some round loads each as a draft
    that fits, and every draft that fits is left. -/
structure StaleSound : Prop where
  distinct : (given filter.createdBefore).isSome = true → ((staleChanges deps filter).map SelectableChange.id).Nodup
  loaded : ∀ change ∈ staleChanges deps filter, ∃ other ∈ loadedChanges deps filter, other.id = change.id ∧
    other.status = .draft ∧ Satisfies deps filter other
  listed : ∀ summary ∈ deps.list filter.status, AlwaysFits deps filter summary.id →
    ∃ change ∈ staleChanges deps filter, change.id = summary.id

def FilterSound : Prop :=
  Unopposed deps filter → if filter.isStale then StaleSound deps filter else PlainSound deps filter

/-! ## Explicit selectors -/

theorem resolveExplicit_spec (asked : List String) (calls : Nat) (resolved : List String)
    (loaded : List SelectableChange) {ids : List String} {after : List SelectableChange}
    (ok : resolveExplicit deps calls resolved loaded asked = ⟨.ok ids, after⟩) (distinct : resolved.Nodup)
    (drafts : ∀ id ∈ resolved, ∃ change ∈ loaded, change.id = id ∧ change.status = .draft) :
    ids.Nodup ∧ ∀ id ∈ ids, ∃ change ∈ after, change.id = id ∧ change.status = .draft := by
  induction asked generalizing calls resolved loaded with
  | nil =>
    obtain ⟨same, rfl⟩ := Selection.mk.inj ok
    obtain rfl := SelectionResult.ok.inj same
    exact ⟨distinct, drafts⟩
  | cons id rest ih =>
    unfold resolveExplicit at ok
    have kept : ∀ change : SelectableChange, ∀ id ∈ resolved,
        ∃ other ∈ loaded ++ [change], other.id = id ∧ other.status = .draft := by
      intro change id member
      obtain ⟨other, inside, fits⟩ := drafts id member
      exact ⟨other, List.mem_append_left _ inside, fits⟩
    split at ok
    next => cases (Selection.mk.inj ok).1
    next => cases (Selection.mk.inj ok).1
    next change answer =>
      split at ok
      next => cases (Selection.mk.inj ok).1
      next draft =>
        have isDraft : change.status = .draft := not_not.mp draft
        split at ok
        next => exact ih _ _ _ ok distinct (kept change)
        next fresh =>
          refine ih _ _ _ ok (distinct.append (List.nodup_singleton _) (by simpa using fresh)) ?_
          intro other member
          rcases List.mem_append.mp member with before | last
          · exact kept change other before
          · rw [List.mem_singleton.mp last]
            exact ⟨change, List.mem_append_right _ List.mem_cons_self, rfl, isDraft⟩

theorem explicit_safe (changeIds : List String) : SelectionSafe deps (.explicit changeIds) := by
  have spec : ∀ ids, (resolveChangeSelection deps (.explicit changeIds)).result = .ok ids →
      ids.Nodup ∧ ∀ id ∈ ids, ∃ change ∈ (resolveChangeSelection deps (.explicit changeIds)).loaded,
        change.id = id ∧ change.status = .draft := by
    intro ids ok
    refine resolveExplicit_spec deps changeIds 0 [] [] ?_ List.nodup_nil (by simp)
    rw [← ok]
    rfl
  refine ⟨fun ids ok => (spec ids ok).1, fun ids ok id member => ?_, fun ids filter _ other => by cases other⟩
  obtain ⟨change, inside, named, draft⟩ := (spec ids ok).2 id member
  exact ⟨change, inside, named, draft, fun filter other => by cases other⟩

/-! ## The loops -/

theorem protectedAmong_none (calls : Nat) (ids : List String) :
    protectedAmong deps calls ids = none ↔ ∀ change ∈ loadEach deps calls ids, change.status = .draft := by
  induction ids generalizing calls with
  | nil => simp [protectedAmong, loadEach]
  | cons id rest ih =>
    unfold protectedAmong loadEach
    cases (deps.get calls id).record with
    | none => exact ih (calls + 1)
    | some change =>
      dsimp only
      rw [List.forall_mem_cons]
      split
      next other => exact iff_of_false (Option.some_ne_none _) fun both => other both.1
      next draft => rw [ih, and_iff_right (not_not.mp draft)]

/-! ## What is chosen -/

variable {deps} {filter}

theorem createdFits_absent (absent : (given filter.createdBefore).isSome = false) (change : SelectableChange) :
    createdFits deps filter change = true := by
  unfold createdFits
  rw [Option.isSome_eq_false_iff.mp absent |> Option.isNone_iff_eq_none.mp]
  rfl

theorem activityFits_absent (absent : (given filter.lastActivityBefore).isSome = false) (change : SelectableChange) :
    activityFits deps filter change = true := by
  unfold activityFits
  rw [Option.isSome_eq_false_iff.mp absent |> Option.isNone_iff_eq_none.mp]
  rfl

theorem chosenIds_plain (plain : filter.isStale = false) : chosenIds deps filter = candidateIds deps filter := by
  unfold chosenIds
  rw [plain]
  rfl

theorem chosenIds_created (created : (given filter.createdBefore).isSome = true) :
    chosenIds deps filter = (staleChanges deps filter).map SelectableChange.id := by
  have stale : filter.isStale = true := by
    unfold ChangeFilter.isStale
    rw [created]
    rfl
  unfold chosenIds staleChanges
  simp only [stale, created, if_true]
  have eligible : ∀ change : SelectableChange,
      decide (change.id ∈ ((fullChanges deps filter).filter (activityFits deps filter)).map SelectableChange.id) =
        (fullChanges deps filter).any fun other => decide (other.id = change.id) && activityFits deps filter other := by
    intro change
    rw [Bool.eq_iff_iff, decide_eq_true_iff]
    simp only [List.mem_map, List.mem_filter, List.any_eq_true, Bool.and_eq_true, decide_eq_true_eq]
    constructor
    · rintro ⟨other, ⟨member, fits⟩, same⟩
      exact ⟨other, member, same, fits⟩
    · rintro ⟨other, member, same, fits⟩
      exact ⟨other, ⟨member, fits⟩, same⟩
  cases active : (given filter.lastActivityBefore).isSome with
  | true =>
    simp only [if_true]
    rw [List.filter_map, List.filter_filter]
    congr 1
    refine List.filter_congr fun change _ => ?_
    rw [Function.comp_apply, eligible change, Bool.and_comm]
  | false =>
    simp only [Bool.false_eq_true, if_false]
    congr 1
    refine List.filter_congr fun change member => ?_
    have itself : ((fullChanges deps filter).any fun other =>
        decide (other.id = change.id) && activityFits deps filter other) = true :=
      List.any_eq_true.mpr ⟨change, member, by simp [activityFits_absent active]⟩
    rw [itself, Bool.and_true]

theorem mem_chosenIds (stale : filter.isStale = true) {id : String} :
    id ∈ chosenIds deps filter ↔ ∃ change ∈ staleChanges deps filter, change.id = id := by
  cases created : (given filter.createdBefore).isSome with
  | true => rw [chosenIds_created created, List.mem_map]
  | false =>
    unfold chosenIds staleChanges
    simp only [stale, created, if_true, Bool.false_eq_true, if_false]
    rw [mem_distinctOf, List.mem_map]
    constructor
    · rintro ⟨change, member, rfl⟩
      obtain ⟨full, fits⟩ := List.mem_filter.mp member
      refine ⟨change, List.mem_filter.mpr ⟨full, ?_⟩, rfl⟩
      rw [createdFits_absent created, Bool.true_and]
      exact List.any_eq_true.mpr ⟨change, full, by simp [fits]⟩
    · rintro ⟨change, member, rfl⟩
      obtain ⟨-, fits⟩ := List.mem_filter.mp member
      rw [Bool.and_eq_true] at fits
      obtain ⟨other, full, both⟩ := List.any_eq_true.mp fits.2
      rw [Bool.and_eq_true, decide_eq_true_eq] at both
      exact ⟨other, List.mem_filter.mpr ⟨full, both.2⟩, both.1⟩

theorem chosenIds_nodup (stale : filter.isStale = true) :
    (chosenIds deps filter).Nodup ↔ ((given filter.createdBefore).isSome = true →
      ((staleChanges deps filter).map SelectableChange.id).Nodup) := by
  cases created : (given filter.createdBefore).isSome with
  | true =>
    rw [chosenIds_created created]
    exact ⟨fun distinct _ => distinct, fun distinct => distinct rfl⟩
  | false =>
    refine iff_of_true ?_ fun other => by cases other
    unfold chosenIds
    simp only [stale, created, if_true, Bool.false_eq_true, if_false]
    exact nodup_distinctOf _

theorem resolveFilter_ok {ids : List String} :
    (resolveFilter deps filter).result = .ok ids ↔ Unopposed deps filter ∧ ids = chosenIds deps filter := by
  have some : (if filter.isStale then staleChanges deps filter ≠ [] else candidates deps filter ≠ []) ↔
      chosenIds deps filter ≠ [] := by
    cases stale : filter.isStale with
    | true =>
      simp only [if_true]
      rw [not_iff_not, List.eq_nil_iff_forall_not_mem, List.eq_nil_iff_forall_not_mem]
      constructor
      · intro none id member
        obtain ⟨change, inside, -⟩ := (mem_chosenIds stale).mp member
        exact none change inside
      · exact fun none change inside => none change.id ((mem_chosenIds stale).mpr ⟨change, inside, rfl⟩)
    | false =>
      simp only [Bool.false_eq_true, if_false]
      rw [chosenIds_plain stale, candidateIds, ne_eq, ne_eq, List.map_eq_nil_iff]
  unfold resolveFilter
  split
  next none =>
    refine iff_of_false (fun same => by cases same) fun both => ?_
    rw [both.1.filtered] at none
    cases none
  next filtered =>
    split
    next error opposed =>
      refine iff_of_false (fun same => by cases same) fun both => ?_
      have free := (protectedAmong_none deps _ _).mpr both.1.drafts
      rw [free] at opposed
      cases opposed
    next free =>
      split
      next none => exact iff_of_false (fun same => by cases same) fun both => some.mp both.1.left none
      next left =>
        have drafts := (protectedAmong_none deps _ _).mp free
        constructor
        · intro same
          exact ⟨⟨Bool.eq_false_iff.mpr filtered, some.mpr left, drafts⟩, (SelectionResult.ok.inj same).symm⟩
        · rintro ⟨-, rfl⟩
          rfl

theorem resolveFilter_loaded (unopposed : Unopposed deps filter) :
    (resolveFilter deps filter).loaded = loadedChanges deps filter := by
  unfold resolveFilter
  rw [if_neg (by rw [unopposed.filtered]; exact Bool.false_ne_true)]
  split
  · rfl
  · split <;> rfl

/-! ## Filters -/

theorem isStale_false (plain : filter.isStale = false) :
    given filter.createdBefore = none ∧ given filter.lastActivityBefore = none := by
  unfold ChangeFilter.isStale at plain
  rw [Bool.or_eq_false_iff] at plain
  exact ⟨by simpa using plain.1, by simpa using plain.2⟩

theorem candidate_start {id start : String} (member : id ∈ candidateIds deps filter)
    (wanted : given filter.startsWith = some start) : startsWith start id = true := by
  obtain ⟨summary, inside, rfl⟩ := List.mem_map.mp member
  have fits := (List.mem_filter.mp inside).2
  rw [Bool.and_eq_true, wanted] at fits
  exact fits.1

theorem plain_iff (plain : filter.isStale = false) (unopposed : Unopposed deps filter) :
    SelectionSafe deps (.filter filter) ↔ PlainSound deps filter := by
  have result := (@resolveFilter_ok deps filter _).mpr ⟨unopposed, rfl⟩
  have loaded : (resolveFilter deps filter).loaded = gateChanges deps filter := by
    rw [resolveFilter_loaded unopposed, loadedChanges, plain]
    rfl
  rw [chosenIds_plain plain] at result
  obtain ⟨noCreated, noActivity⟩ := isStale_false plain
  constructor
  · rintro ⟨distinct, drafts, complete⟩
    have fits : ∀ id ∈ candidateIds deps filter, ∃ change ∈ gateChanges deps filter, change.id = id ∧
        change.status = .draft ∧ Satisfies deps filter change := by
      intro id member
      obtain ⟨change, inside, named, draft, satisfied⟩ := drafts _ result id member
      exact ⟨change, loaded ▸ inside, named, draft, satisfied filter rfl⟩
    refine ⟨distinct _ result, ?_, ?_, fun summary member always => complete _ filter result rfl summary member always⟩
    · have left := unopposed.left
      rw [plain] at left
      obtain ⟨summary, inside⟩ := List.exists_mem_of_ne_nil _ left
      obtain ⟨change, -, -, draft, satisfied⟩ := fits summary.id (List.mem_map_of_mem inside)
      have filtered := unopposed.filtered
      cases status : given filter.status with
      | none => simp [status, plain] at filtered
      | some text =>
        have same := satisfied.status text status
        rw [draft] at same
        rw [← same]
        rfl
    · intro id member
      obtain ⟨change, inside, named, -, satisfied⟩ := fits id member
      exact ⟨change, inside, named, satisfied.title⟩
  · rintro ⟨distinct, status, gated, listed⟩
    refine ⟨fun ids ok => ?_, fun ids ok id member => ?_, fun ids other ok same summary member always => ?_⟩
    · rw [SelectionResult.ok.inj (ok.symm.trans result)]
      exact distinct
    · rw [SelectionResult.ok.inj (ok.symm.trans result)] at member
      obtain ⟨change, inside, named, title⟩ := gated id member
      have draft := unopposed.drafts change inside
      refine ⟨change, loaded ▸ inside, named, draft, fun other same => ?_⟩
      obtain rfl := BulkCloseSelector.filter.inj same
      refine ⟨fun text wanted => ?_, fun start wanted => ?_, title, fun cutoff wanted => ?_, fun cutoff wanted => ?_⟩
      · rw [status] at wanted
        rw [draft, ← Option.some.inj wanted]
        rfl
      · rw [named]
        exact candidate_start member wanted
      · rw [noCreated] at wanted
        cases wanted
      · rw [noActivity] at wanted
        cases wanted
    · obtain rfl := BulkCloseSelector.filter.inj same
      rw [SelectionResult.ok.inj (ok.symm.trans result)]
      exact listed summary member always

theorem safe_stale_iff (stale : filter.isStale = true) (unopposed : Unopposed deps filter) :
    SelectionSafe deps (.filter filter) ↔ StaleSound deps filter := by
  have result := (@resolveFilter_ok deps filter _).mpr ⟨unopposed, rfl⟩
  have loaded := resolveFilter_loaded unopposed
  constructor
  · rintro ⟨distinct, drafts, complete⟩
    refine ⟨(chosenIds_nodup stale).mp (distinct _ result), fun change member => ?_, fun summary member always => ?_⟩
    · obtain ⟨other, inside, named, draft, satisfied⟩ :=
        drafts _ result change.id ((mem_chosenIds stale).mpr ⟨change, member, rfl⟩)
      exact ⟨other, loaded ▸ inside, named, draft, satisfied filter rfl⟩
    · exact (mem_chosenIds stale).mp (complete _ filter result rfl summary member always)
  · rintro ⟨distinct, backed, listed⟩
    refine ⟨fun ids ok => ?_, fun ids ok id member => ?_, fun ids other ok same summary member always => ?_⟩
    · rw [SelectionResult.ok.inj (ok.symm.trans result)]
      exact (chosenIds_nodup stale).mpr distinct
    · rw [SelectionResult.ok.inj (ok.symm.trans result)] at member
      obtain ⟨change, inside, rfl⟩ := (mem_chosenIds stale).mp member
      obtain ⟨other, held, named, draft, satisfied⟩ := backed change inside
      refine ⟨other, loaded ▸ held, named, draft, fun own same => ?_⟩
      obtain rfl := BulkCloseSelector.filter.inj same
      exact satisfied
    · obtain rfl := BulkCloseSelector.filter.inj same
      rw [SelectionResult.ok.inj (ok.symm.trans result)]
      exact (mem_chosenIds stale).mpr (listed summary member always)

theorem opposed_safe (opposed : ¬Unopposed deps filter) : SelectionSafe deps (.filter filter) := by
  have never : ∀ ids, (resolveChangeSelection deps (.filter filter)).result ≠ .ok ids :=
    fun ids ok => opposed (resolveFilter_ok.mp ok).1
  exact ⟨fun ids ok => absurd ok (never ids), fun ids ok => absurd ok (never ids),
    fun ids _ ok => absurd ok (never ids)⟩

end

def unreadableDraft : SelectionDeps where
  list _ := [⟨"addSearch", "Add search"⟩]
  get _ _ := .failure "Failed to read change addSearch"
  getTime _ := none

end Advance.Storage
