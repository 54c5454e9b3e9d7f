import Mathlib
import Advance.Storage.TerminalSurfaces
import Advance.Utils.ChangeId

/-! # The ids of created changes

`changes.create` takes the first id of a summary that no active directory has.  Bundles and closed records keep the
ids of changes whose directories are gone.
-/

namespace Advance.Storage

open Advance.Foundation Advance.Types

/-! ## Creation -/

def idCandidate (baseId : String) (tries : Nat) : String :=
  if tries = 0 then baseId else baseId ++ Nat.repr (tries + 1)

def firstFree (existing : List String) (baseId : String) : Nat → Nat → String
  | 0, tries => idCandidate baseId tries
  | fuel + 1, tries =>
    if idCandidate baseId tries ∈ existing then firstFree existing baseId fuel (tries + 1)
    else idCandidate baseId tries

/-- The loop of `changes.create`; it ends before there are more candidates than directories. -/
def freeId (existing : List String) (baseId : String) : String := firstFree existing baseId existing.length 0

theorem idCandidate_injective (baseId : String) : Function.Injective (idCandidate baseId) := by
  intro left right same
  have texts := congrArg String.toList same
  unfold idCandidate at texts
  split at texts
  next leftZero =>
    split at texts
    next rightZero => omega
    next =>
      rw [String.toList_append] at texts
      have none := List.self_eq_append_right.mp texts
      exact absurd (String.toList_eq_nil_iff.mp none) Nat.repr_ne_empty
  next =>
    split at texts
    next =>
      rw [String.toList_append] at texts
      have none := List.self_eq_append_right.mp texts.symm
      exact absurd (String.toList_eq_nil_iff.mp none) Nat.repr_ne_empty
    next =>
      rw [String.toList_append, String.toList_append] at texts
      have digits := String.toList_inj.mp (List.append_cancel_left texts)
      have numbers := Nat.repr_injective digits
      omega

theorem firstFree_free {existing : List String} {baseId : String} (fuel tries : Nat)
    (enough : tries + fuel = existing.length) (taken : ∀ earlier < tries, idCandidate baseId earlier ∈ existing) :
    firstFree existing baseId fuel tries ∉ existing := by
  induction fuel generalizing tries with
  | zero =>
    -- One candidate more than there are directories.
    intro inside
    have listed : (List.range (existing.length + 1)).map (idCandidate baseId) ⊆ existing := by
      intro id member
      obtain ⟨number, below, rfl⟩ := List.mem_map.mp member
      rcases Nat.lt_succ_iff_lt_or_eq.mp (List.mem_range.mp below) with earlier | last
      · exact taken number (by omega)
      · have here : number = tries := by omega
        rw [here]
        exact inside
    have distinct : ((List.range (existing.length + 1)).map (idCandidate baseId)).Nodup :=
      List.nodup_range.map (idCandidate_injective baseId)
    have fits := (distinct.subperm listed).length_le
    simp at fits
  | succ fuel ih =>
    unfold firstFree
    split
    next inside =>
      refine ih (tries + 1) (by omega) fun earlier below => ?_
      rcases Nat.lt_succ_iff_lt_or_eq.mp below with before | rfl
      · exact taken earlier before
      · exact inside
    next free => exact free

theorem freeId_free (existing : List String) (baseId : String) : freeId existing baseId ∉ existing :=
  firstFree_free existing.length 0 (Nat.zero_add _) fun earlier below => absurd below (Nat.not_lt_zero earlier)

/-! ## The store -/

section

variable (store : StoreState)

def StoreState.activeIds : List String := store.active.map StoredChange.id

def StoreState.newChange (baseId summary now : String) : StoredChange :=
  ⟨freeId store.activeIds baseId, summary, .draft, now⟩

theorem created_distinct (baseId summary now : String) :
    ((store.active ++ [store.newChange baseId summary now]).map StoredChange.id).Nodup := by
  rw [List.map_append, List.nodup_append]
  refine ⟨store.activeDistinct, List.nodup_singleton _, ?_⟩
  intro id inside other last same
  rw [List.mem_singleton.mp last] at same
  have taken : (store.newChange baseId summary now).id ∈ store.activeIds := same ▸ inside
  exact freeId_free store.activeIds baseId taken

/-- `changes.create` -/
def StoreState.create (baseId summary now : String) : StoreState :=
  { store with
    active := store.active ++ [store.newChange baseId summary now]
    shards := store.shards ++ [store.newChange baseId summary now]
    activeDistinct := created_distinct store baseId summary now }

def StoredChange.withStatus (id : String) (status : ChangeStatus) (change : StoredChange) : StoredChange :=
  if change.id = id then { change with status := status } else change

@[simp] theorem StoredChange.withStatus_id (id : String) (status : ChangeStatus) (change : StoredChange) :
    (change.withStatus id status).id = change.id := by
  unfold StoredChange.withStatus
  split <;> rfl

theorem status_distinct (id : String) (status : ChangeStatus) :
    ((store.active.map (StoredChange.withStatus id status)).map StoredChange.id).Nodup := by
  have same : (store.active.map (StoredChange.withStatus id status)).map StoredChange.id = store.activeIds := by
    simp [StoreState.activeIds, Function.comp_def]
  rw [same]
  exact store.activeDistinct

/-- The status of an active record is committed. -/
def StoreState.commitStatus (id : String) (status : ChangeStatus) : StoreState :=
  { store with
    active := store.active.map (StoredChange.withStatus id status)
    activeDistinct := status_distinct store id status }

/-- The bundle of an active record, in place of one that was there. -/
def StoreState.writeBundle (id dir : String) : StoreState :=
  match store.loadActive id with
  | none => store
  | some change =>
    { store with
      archive := store.archive.filter (·.dir ≠ dir) ++ [⟨dir, { change with status := .archived }, rfl⟩] }

theorem removed_distinct (id : String) : ((store.active.filter (·.id ≠ id)).map StoredChange.id).Nodup :=
  store.activeDistinct.sublist (List.filter_sublist.map StoredChange.id)

/-- `removeChangeDir` -/
def StoreState.removeChangeDir (id : String) : StoreState :=
  { store with
    active := store.active.filter (·.id ≠ id)
    activeDistinct := removed_distinct store id }

theorem retired_closed {change : StoredChange} (closed : change.status = .closed) :
    ∀ record ∈ store.closed.filter (·.id ≠ change.id) ++ [change], record.status = .closed := by
  intro record member
  rcases List.mem_append.mp member with before | last
  · exact store.closedStatus record (List.mem_filter.mp before).1
  · rw [List.mem_singleton.mp last]
    exact closed

/-- `retireClosedChange`, up to the removal of the directory. -/
def StoreState.copyClosed (id : String) : StoreState :=
  match store.loadActive id with
  | none => store
  | some change =>
    if closed : change.status = .closed then
      { store with
        closed := store.closed.filter (·.id ≠ change.id) ++ [change]
        closedStatus := retired_closed store closed }
    else store

end

/-! ## Requests -/

/-- The store, and the ids that creations have returned with the titles of their changes. -/
structure IdHistory where
  store : StoreState
  given : List (String × String)

inductive IdRequest where
  | create (summary now : String)
  | get (id : String)
  | commitStatus (id : String) (status : ChangeStatus)
  | writeBundle (id dir : String)
  | copyClosed (id : String)
  | removeChangeDir (id : String)

inductive IdResponse where
  | created (id : String)
  | read (found : Option StoredChange)
  | done

variable (runtime : SurfaceRuntime)

def serveId (request : IdRequest) (history : IdHistory) : IdResponse × IdHistory :=
  match request with
  | .create summary now =>
    match Utils.generateChangeId summary with
    | none => (.done, history)
    | some baseId =>
      let id := freeId history.store.activeIds baseId
      (.created id, ⟨history.store.create baseId summary now, history.given ++ [(id, summary)]⟩)
  | .get id => (.read (changesGet runtime history.store id), history)
  | .commitStatus id status => (.done, { history with store := history.store.commitStatus id status })
  | .writeBundle id dir => (.done, { history with store := history.store.writeBundle id dir })
  | .copyClosed id => (.done, { history with store := history.store.copyClosed id })
  | .removeChangeDir id => (.done, { history with store := history.store.removeChangeDir id })

/-! ## What is claimed -/

def StoreState.Holds (store : StoreState) (change : StoredChange) : Prop :=
  change ∈ store.active ∨ (∃ bundle ∈ store.archive, bundle.change = change) ∨ change ∈ store.closed

/-- An id that no change has or was given is given to a draft that reads back, and no bundle or closed record is found
    by it. -/
structure GivenFresh (before after : IdHistory) (id summary now : String) : Prop where
  unused : ∀ change, before.store.Holds change → change.id ≠ id
  new : id ∉ before.given.map Prod.fst
  read : changesGet runtime after.store id = some ⟨id, summary, .draft, now⟩
  unbundled : after.store.hasArchiveBundle id = false
  unclosed : loadClosedChange after.store id = none

def Owned (history : IdHistory) : Prop :=
  ∀ entry ∈ history.given, ∀ change, history.store.Holds change → change.id = entry.1 → change.title = entry.2

structure IdsKept (step : Record IdHistory IdRequest IdResponse) : Prop where
  created : ∀ summary now id, step.request = .create summary now → step.response = .created id →
    GivenFresh runtime step.before step.after id summary now
  owned : Owned step.after
  read : ∀ id change, step.request = .get id → step.response = .read (some change) →
    ∀ entry ∈ step.before.given, entry.1 = id → change.id = id ∧ change.title = entry.2

/-- The free id of a creation was not given before, and no bundle, directory of the archive or closed record has it; a
    given id that is read is active, or not the beginning of just one active id. -/
structure IdsFree (step : Record IdHistory IdRequest IdResponse) : Prop where
  create : ∀ summary now baseId id, step.request = .create summary now →
    Utils.generateChangeId summary = some baseId → id = freeId step.before.store.activeIds baseId →
      id ∉ step.before.given.map Prod.fst ∧
        (∀ bundle ∈ step.before.store.archive, bundle.change.id ≠ id ∧ bundle.dir ≠ id) ∧
        ∀ record ∈ step.before.store.closed, record.id ≠ id
  get : ∀ id, step.request = .get id → id ∈ step.before.given.map Prod.fst →
    id ∈ step.before.store.activeIds ∨ (prefixMatches runtime step.before.store id).length ≠ 1

/-! ## What requests leave -/

section

variable {store after : StoreState} {change : StoredChange}

/-- Every record is a copy of one that was there. -/
def Descends (store after : StoreState) : Prop :=
  ∀ change, after.Holds change → ∃ origin, store.Holds origin ∧ origin.id = change.id ∧ origin.title = change.title

theorem loadActive_holds {id : String} (found : store.loadActive id = some change) : store.Holds change :=
  .inl (loadActive_id found).1

theorem commitStatus_descends (id : String) (status : ChangeStatus) :
    Descends store (store.commitStatus id status) := by
  intro change held
  rcases held with active | bundled | closed
  · obtain ⟨origin, inside, rfl⟩ := List.mem_map.mp active
    refine ⟨origin, .inl inside, (origin.withStatus_id id status).symm, ?_⟩
    unfold StoredChange.withStatus
    split <;> rfl
  · exact ⟨change, .inr (.inl bundled), rfl, rfl⟩
  · exact ⟨change, .inr (.inr closed), rfl, rfl⟩

theorem writeBundle_descends (id dir : String) : Descends store (store.writeBundle id dir) := by
  intro change held
  unfold StoreState.writeBundle at held
  cases found : store.loadActive id with
  | none =>
    rw [found] at held
    exact ⟨change, held, rfl, rfl⟩
  | some source =>
    rw [found] at held
    rcases held with active | ⟨bundle, member, rfl⟩ | closed
    · exact ⟨change, .inl active, rfl, rfl⟩
    · rcases List.mem_append.mp member with before | last
      · exact ⟨bundle.change, .inr (.inl ⟨bundle, (List.mem_filter.mp before).1, rfl⟩), rfl, rfl⟩
      · rw [List.mem_singleton.mp last]
        exact ⟨source, loadActive_holds found, rfl, rfl⟩
    · exact ⟨change, .inr (.inr closed), rfl, rfl⟩

theorem copyClosed_descends (id : String) : Descends store (store.copyClosed id) := by
  intro change held
  unfold StoreState.copyClosed at held
  cases found : store.loadActive id with
  | none =>
    rw [found] at held
    exact ⟨change, held, rfl, rfl⟩
  | some source =>
    rw [found] at held
    dsimp only at held
    split at held
    next =>
      rcases held with active | bundled | member
      · exact ⟨change, .inl active, rfl, rfl⟩
      · exact ⟨change, .inr (.inl bundled), rfl, rfl⟩
      · rcases List.mem_append.mp member with before | last
        · exact ⟨change, .inr (.inr (List.mem_filter.mp before).1), rfl, rfl⟩
        · rw [List.mem_singleton.mp last]
          exact ⟨source, loadActive_holds found, rfl, rfl⟩
    next => exact ⟨change, held, rfl, rfl⟩

theorem removeChangeDir_descends (id : String) : Descends store (store.removeChangeDir id) := by
  intro change held
  rcases held with active | copied
  · exact ⟨change, .inl (List.mem_filter.mp active).1, rfl, rfl⟩
  · exact ⟨change, .inr copied, rfl, rfl⟩

theorem Owned.descends {given : List (String × String)} (owned : Owned ⟨store, given⟩)
    (descends : Descends store after) : Owned ⟨after, given⟩ := by
  intro entry listed change held here
  obtain ⟨origin, was, sameId, sameTitle⟩ := descends change held
  rw [← sameTitle]
  exact owned entry listed origin was (sameId.trans here)

theorem create_holds {baseId summary now : String} (held : (store.create baseId summary now).Holds change) :
    store.Holds change ∨ change = store.newChange baseId summary now := by
  rcases held with active | copied
  · rcases List.mem_append.mp active with before | last
    · exact .inl (.inl before)
    · exact .inr (List.mem_singleton.mp last)
  · exact .inl (.inr copied)

end

/-! ## Steps -/

section

variable {runtime : SurfaceRuntime} {history : IdHistory}

/-- What the condition says of a free id. -/
def Unclaimed (history : IdHistory) (id : String) : Prop :=
  id ∉ history.given.map Prod.fst ∧ (∀ bundle ∈ history.store.archive, bundle.change.id ≠ id ∧ bundle.dir ≠ id) ∧
    ∀ record ∈ history.store.closed, record.id ≠ id

theorem Unclaimed.unused {baseId : String} (unclaimed : Unclaimed history (freeId history.store.activeIds baseId))
    {change : StoredChange} (held : history.store.Holds change) :
    change.id ≠ freeId history.store.activeIds baseId := by
  rcases held with active | ⟨bundle, member, rfl⟩ | closed
  · intro same
    have inside : change.id ∈ history.store.activeIds := List.mem_map_of_mem active
    rw [same] at inside
    exact freeId_free _ baseId inside
  · exact (unclaimed.2.1 bundle member).1
  · exact unclaimed.2.2 change closed

theorem hasArchiveBundle_false {store : StoreState} {id : String} :
    store.hasArchiveBundle id = false ↔ ∀ bundle ∈ store.archive,
      bundle.dir ≠ id ∧ ¬ (includes bundle.dir id = true ∧ bundle.change.id = id) := by
  simp only [StoreState.hasArchiveBundle, Bool.or_eq_false_iff, List.any_eq_false]
  constructor
  · intro absent bundle member
    have plain : bundle.dir ≠ id := by simpa using absent.1 bundle member
    refine ⟨plain, ?_⟩
    simpa [plain] using absent.2 bundle member
  · intro absent
    refine ⟨fun bundle member => ?_, fun bundle member => ?_⟩
    · simpa using (absent bundle member).1
    · have apart := (absent bundle member).2
      simpa using fun _ inside same => apart ⟨inside, same⟩

theorem Unclaimed.fresh {baseId : String} (unclaimed : Unclaimed history (freeId history.store.activeIds baseId))
    (summary now : String) (given : List (String × String)) :
    GivenFresh runtime history ⟨history.store.create baseId summary now, given⟩
      (freeId history.store.activeIds baseId) summary now := by
  have unbundled : (history.store.create baseId summary now).hasArchiveBundle
      (freeId history.store.activeIds baseId) = false := by
    refine hasArchiveBundle_false.mpr fun bundle member => ?_
    obtain ⟨differs, apart⟩ := unclaimed.2.1 bundle member
    exact ⟨apart, fun both => differs both.2⟩
  refine ⟨fun change held => unclaimed.unused held, unclaimed.1, ?_, unbundled, ?_⟩
  · have made : history.store.newChange baseId summary now ∈ (history.store.create baseId summary now).active :=
      List.mem_append_right _ (List.mem_singleton.mpr rfl)
    have got : changesGet runtime (history.store.create baseId summary now)
        (history.store.newChange baseId summary now).id = _ := get_active made rfl
    rw [show (history.store.newChange baseId summary now).id = freeId history.store.activeIds baseId from rfl,
      unbundled] at got
    simpa [StoreState.newChange] using got
  · rw [loadClosedChange, List.find?_eq_none]
    intro record member same
    exact unclaimed.2.2 record member (of_decide_eq_true same)

theorem get_owned (owned : Owned history) {entry : String × String} (listed : entry ∈ history.given)
    (clear : entry.1 ∈ history.store.activeIds ∨ (prefixMatches runtime history.store entry.1).length ≠ 1)
    {change : StoredChange} (got : changesGet runtime history.store entry.1 = some change) :
    change.id = entry.1 ∧ change.title = entry.2 := by
  by_cases active : entry.1 ∈ history.store.activeIds
  · obtain ⟨record, member, here⟩ := List.mem_map.mp active
    have shown := (get_active member here).symm.trans got
    have title := owned entry listed record (.inl member) here
    rw [← Option.some.inj shown]
    split
    · exact ⟨here, title⟩
    · exact ⟨here, title⟩
  · have several := clear.resolve_left active
    have absent : entry.1 ∉ history.store.active.map StoredChange.id := active
    unfold changesGet resolveChangeId at got
    rw [if_neg absent] at got
    cases begun : prefixMatches runtime history.store entry.1 with
    | cons first more =>
      rw [begun] at got several
      cases more with
      | nil => exact absurd rfl several
      | cons _ _ => cases got
    | nil =>
      rw [begun] at got
      dsimp only at got
      cases found : (if history.store.hasArchiveBundle entry.1 then
          (loadArchivedChanges history.store).find? (·.id = entry.1) else none) with
      | some archived =>
        rw [found] at got
        split at found
        · have here : archived.id = entry.1 := by simpa using List.find?_some found
          obtain ⟨bundle, member, same⟩ := mem_loadArchivedChanges.mp (List.mem_of_find?_eq_some found)
          rw [← Option.some.inj got]
          exact ⟨here, owned entry listed archived (.inr (.inl ⟨bundle, member, same⟩)) here⟩
        · cases found
      | none =>
        rw [found] at got
        have closed := (Option.filter_eq_some_iff.mp got).1
        have here : change.id = entry.1 := by simpa using List.find?_some closed
        exact ⟨here, owned entry listed change (.inr (.inr (List.mem_of_find?_eq_some closed))) here⟩

end

/-! ## Runs -/

section

variable {runtime : SurfaceRuntime} {history : IdHistory}

section

variable (request : IdRequest) (free : IdsFree runtime (recordOf (serveId runtime) request history))
  (owned : Owned history)
include request free owned

theorem serveId_owned :
    Owned (serveId runtime request history).2 := by
  cases request with
  | create summary now =>
    simp only [serveId]
    cases named : Utils.generateChangeId summary with
    | none => exact owned
    | some baseId =>
      have unclaimed : Unclaimed history (freeId history.store.activeIds baseId) :=
        free.create summary now baseId _ rfl named rfl
      intro entry listed change held here
      rcases List.mem_append.mp listed with before | last
      · rcases create_holds held with was | rfl
        · exact owned entry before change was here
        · have before : entry.1 ∈ history.given.map Prod.fst := List.mem_map_of_mem before
          rw [← here] at before
          exact absurd before unclaimed.1
      · rw [List.mem_singleton.mp last] at here ⊢
        rcases create_holds held with was | rfl
        · exact absurd here (unclaimed.unused was)
        · rfl
  | get id => exact owned
  | commitStatus id status => exact owned.descends (commitStatus_descends id status)
  | writeBundle id dir => exact owned.descends (writeBundle_descends id dir)
  | copyClosed id => exact owned.descends (copyClosed_descends id)
  | removeChangeDir id => exact owned.descends (removeChangeDir_descends id)

theorem serveId_kept :
    IdsKept runtime (recordOf (serveId runtime) request history) := by
  refine ⟨?_, serveId_owned request free owned, ?_⟩
  · intro summary now id asked answered
    cases asked
    simp only [recordOf, serveId] at answered ⊢
    cases named : Utils.generateChangeId summary with
    | none =>
      rw [named] at answered
      cases answered
    | some baseId =>
      rw [named] at answered
      cases answered
      have unclaimed : Unclaimed history (freeId history.store.activeIds baseId) :=
        free.create summary now baseId _ rfl named rfl
      exact unclaimed.fresh summary now _
  · intro id change asked answered entry listed same
    cases asked
    subst same
    exact get_owned owned listed (free.get entry.1 rfl (List.mem_map_of_mem listed)) (IdResponse.read.inj answered)

end

theorem IdsKept.free {request : IdRequest} (kept : IdsKept runtime (recordOf (serveId runtime) request history)) :
    IdsFree runtime (recordOf (serveId runtime) request history) := by
  refine ⟨?_, ?_⟩
  · intro summary now baseId id asked named same
    cases asked
    subst same
    have fresh := kept.created summary now (freeId history.store.activeIds baseId) rfl
      (by simp only [recordOf, serveId, named])
    have unbundled := fresh.unbundled
    simp only [recordOf, serveId, named] at unbundled
    refine ⟨fresh.new, fun bundle member => ⟨?_, ?_⟩, fun record member => ?_⟩
    · exact fresh.unused bundle.change (.inr (.inl ⟨bundle, member, rfl⟩))
    · exact (hasArchiveBundle_false.mp unbundled bundle member).1
    · exact fresh.unused record (.inr (.inr member))
  · intro id asked listed
    cases asked
    by_cases active : id ∈ history.store.activeIds
    · exact .inl active
    · refine .inr fun single => ?_
      obtain ⟨other, only⟩ : ∃ other, prefixMatches runtime history.store id = [other] :=
        List.length_eq_one_iff.mp single
      have begun : other ∈ history.store.activeIds := by
        have listed : other ∈ prefixMatches runtime history.store id := by rw [only]; exact List.mem_singleton.mpr rfl
        exact (List.mem_filter.mp listed).1
      obtain ⟨entry, given, rfl⟩ := List.mem_map.mp listed
      obtain ⟨record, member, rfl⟩ := List.mem_map.mp begun
      -- The record of the longer id is read.
      obtain ⟨change, got, here⟩ : ∃ change, changesGet runtime history.store entry.1 = some change ∧
          change.id = record.id := by
        have absent : entry.1 ∉ history.store.active.map StoredChange.id := active
        unfold changesGet resolveChangeId
        rw [if_neg absent, only]
        dsimp only
        rw [loadActive_of_mem member]
        refine ⟨_, rfl, ?_⟩
        dsimp only
        split <;> rfl
      have read := kept.read entry.1 change rfl (congrArg IdResponse.read got) entry given rfl
      exact active (by rw [← read.1, here]; exact begun)

end

/-- Whatever is created, archived, closed, removed and read, no id is given twice and each stays with its change, just
    if the free ids are unclaimed and no given id is read as the beginning of another. -/
theorem ids_kept_iff (runtime : SurfaceRuntime) (store : StoreState) (requests : List IdRequest) :
    (∀ step ∈ trace (serveId runtime) requests ⟨store, []⟩, IdsKept runtime step) ↔
      ∀ step ∈ trace (serveId runtime) requests ⟨store, []⟩, IdsFree runtime step := by
  constructor
  · intro kept step member
    have each := kept step member
    rw [trace_step member] at each ⊢
    exact each.free
  · intro free step member
    have owned := ((trace_guarded (P := Owned) (fun request history good held => serveId_owned request good held) free
      (fun entry listed => by cases listed)).1 step member).1
    have good := free step member
    rw [trace_step member] at good ⊢
    exact serveId_kept step.request good owned

/-! ## Fixed runs -/

theorem noneClosed : ∀ record ∈ ([] : List StoredChange), record.status = .closed := List.forall_mem_nil _

def archivedStore : StoreState where
  active := []
  shards := []
  archive := [⟨"2026-08-01-addSearch", ⟨"addSearch", "Add search", .archived, "2026-08-01"⟩, rfl⟩]
  closed := []
  activeDistinct := List.nodup_nil
  closedStatus := noneClosed

/-- A new change of that name gets the id of the archived one. -/
theorem archived_id_given : ¬ ∀ step ∈ trace (serveId asciiSurfaces) [.create "Add search" "2026-09-01"]
    ⟨archivedStore, []⟩, IdsKept asciiSurfaces step := by
  intro kept
  have named : Utils.generateChangeId "Add search" = some "addSearch" := by rfl
  have fresh := (kept _ List.mem_cons_self).created "Add search" "2026-09-01" "addSearch" rfl
    (by simp only [recordOf, serveId, named]; rfl)
  exact fresh.unused ⟨"addSearch", "Add search", .archived, "2026-08-01"⟩
    (.inr (.inl ⟨_, List.mem_singleton.mpr rfl, rfl⟩)) rfl

end Advance.Storage
