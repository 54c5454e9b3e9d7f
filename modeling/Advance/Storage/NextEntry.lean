import Advance.JavaScript.LatestByKey
import Advance.Storage.EpicsDisk
import Advance.Validator.WorkGraphEnforcement

/-! # The next entry of an Epic

The progress of an Epic recommends an entry to go on with, from what the Epic itself
records; enforcement looks at the whole store before it promotes a shell.
-/

namespace Advance.Storage

open Advance.JavaScript Advance.Types Advance.Validator

/-! ## Open entries -/

/-- The entry is open, and what it waits for is finished in its own Epic. -/
def locallyFree (entries : List EpicEntry) : EpicEntry → Bool
  | .change change => change.terminal_summary.isNone
  | .shell shell => !shellBlocked entries shell

theorem localNextEntryId_eq (entries : List EpicEntry) : localNextEntryId entries =
      ((entries.insertionSort orderBefore).find? (locallyFree entries)).map EpicEntry.entry_id := by
  unfold localNextEntryId
  congr 2

variable {entries : List EpicEntry}

theorem localNextEntryId_some {entryId : String} (next : localNextEntryId entries = some entryId) :
    ∃ entry ∈ entries, entry.entry_id = entryId ∧ locallyFree entries entry = true := by
  rw [localNextEntryId_eq] at next
  obtain ⟨entry, found, same⟩ := Option.map_eq_some_iff.mp next
  exact ⟨entry, (List.mem_insertionSort _).mp (List.mem_of_find?_eq_some found), same, List.find?_some found⟩

variable {entry : EpicEntry}

theorem localNextEntryId_isSome (member : entry ∈ entries)
    (free : locallyFree entries entry = true) : (localNextEntryId entries).isSome = true := by
  rw [localNextEntryId_eq, Option.isSome_map, List.find?_isSome]
  exact ⟨entry, (List.mem_insertionSort _).mpr member, free⟩

theorem locallyFree_open (free : locallyFree entries entry = true) : entry.terminal = false := by
  cases entry with
  | change change => simpa [locallyFree, EpicEntry.terminal] using free
  | shell shell => rfl

theorem locallyFree_iff : locallyFree entries entry = true ↔
    entry.terminal = false ∧ ∀ ref ∈ prerequisitesOf entry, ∃ epicId entryId, ref = .epicEntry epicId entryId ∧
      (entriesById entries entryId).any EpicEntry.terminal = true := by
  cases entry with
  | change change => simp [locallyFree, EpicEntry.terminal, prerequisitesOf]
  | shell shell =>
    simp only [locallyFree, EpicEntry.terminal, prerequisitesOf, true_and, Bool.not_eq_true', shellBlocked,
      List.any_eq_false]
    refine forall_congr' fun ref => forall_congr' fun _ => ?_
    cases ref with
    | change projectId changeId => simp
    | epicEntry epicId entryId => simp

/-! ## What is claimed -/

/-- Enforcement accepts the selected entry, and an entry is selected if it accepts any that is open. -/
structure Startable (store : WorkStore) (epic : Epic) : Prop where
  selected : ∀ entryId, localNextEntryId epic.entries = some entryId →
    ∃ entry ∈ epic.entries, entry.entry_id = entryId ∧ entry.terminal = false ∧
      enforceD3ForShellPromote (prerequisitesOf entry) (buildD3ContextFromStore store) = .ok ()
  progress : (∃ entry ∈ epic.entries, entry.terminal = false ∧
      enforceD3ForShellPromote (prerequisitesOf entry) (buildD3ContextFromStore store) = .ok ()) →
    (localNextEntryId epic.entries).isSome = true

def OwnEntry (epic : Epic) : WorkNodeRef → Prop
  | .epicEntry epicId _ => epicId = epic.id
  | .change _ _ => False

def Namesake (epic : Epic) : WorkNodeRef → Prop
  | .epicEntry epicId entryId => epicId ≠ epic.id ∧ entryId ∈ epic.entries.map EpicEntry.entry_id
  | .change _ _ => False

section

variable {store : WorkStore} {epic : Epic}

theorem entriesById_mem {entries : List EpicEntry} {entryId : String} {entry : EpicEntry}
    (found : entriesById entries entryId = some entry) : entry ∈ entries ∧ entry.entry_id = entryId := by
  obtain ⟨other, member, same⟩ := List.mem_map.mp (mem_of_mapGet_fromEntries found)
  obtain ⟨sameId, rfl⟩ := Prod.mk.inj same
  exact ⟨member, sameId⟩

theorem entriesById_eq {entries : List EpicEntry} (distinct : (entries.map EpicEntry.entry_id).Nodup)
    (entryId : String) : entriesById entries entryId = entries.find? fun entry => entry.entry_id = entryId := by
  cases found : entries.find? fun entry => entry.entry_id = entryId with
  | none =>
    cases other : entriesById entries entryId with
    | none => rfl
    | some entry =>
      obtain ⟨member, sameId⟩ := entriesById_mem other
      exact absurd sameId (by simpa using List.find?_eq_none.mp found entry member)
  | some entry =>
    have member := List.mem_of_find?_eq_some found
    have sameId : entry.entry_id = entryId := by simpa using List.find?_some found
    subst sameId
    have keys : (entries.map fun entry => (entry.entry_id, entry)).map Prod.fst = entries.map EpicEntry.entry_id := by
      rw [List.map_map]
      rfl
    exact mapGet_fromEntries (keys ▸ distinct) (List.mem_map_of_mem (f := fun entry => (entry.entry_id, entry)) member)

theorem resolveTerminal_own (keyed : WellKeyed store) (member : epic ∈ store.epics) (entryId : String) :
    resolveTerminal store (.epicEntry epic.id entryId) = .terminal ↔
      (entriesById epic.entries entryId).any EpicEntry.terminal = true := by
  rw [resolveTerminal_entry keyed member, entriesById_eq (keyed.entryIds epic member)]
  cases epic.entries.find? fun entry => entry.entry_id = entryId with
  | none => simp
  | some entry => cases terminal : entry.terminal <;> simp [terminal]

/-- What blocks the selected entry are entries of other Epics with the id of an entry of this one; and an open entry
that waits for entries of this Epic only, and that enforcement accepts, makes some entry be selected. -/
theorem localNext_startable (keyed : WellKeyed store) (member : epic ∈ store.epics) :
    (∀ entryId, localNextEntryId epic.entries = some entryId →
      ∃ entry ∈ epic.entries, entry.entry_id = entryId ∧ entry.terminal = false ∧
        ∀ ref ∈ checkNonterminalPrereqs (prerequisitesOf entry) (buildD3ContextFromStore store), Namesake epic ref) ∧
      ((∃ entry ∈ epic.entries, entry.terminal = false ∧ (∀ ref ∈ prerequisitesOf entry, OwnEntry epic ref) ∧
          enforceD3ForShellPromote (prerequisitesOf entry) (buildD3ContextFromStore store) = .ok ()) →
        (localNextEntryId epic.entries).isSome = true) := by
  constructor
  · intro entryId next
    obtain ⟨entry, inside, sameId, free⟩ := localNextEntryId_some next
    refine ⟨entry, inside, sameId, locallyFree_open free, fun ref blocking => ?_⟩
    obtain ⟨listed, unfinished⟩ := mem_checkNonterminalPrereqs.mp blocking
    obtain ⟨epicId, requiredId, rfl, finished⟩ := (locallyFree_iff.mp free).2 ref listed
    by_cases own : epicId = epic.id
    · subst own
      exact absurd ((resolveTerminal_own keyed member requiredId).mpr finished) unfinished
    · cases found : entriesById epic.entries requiredId with
      | none => simp [found] at finished
      | some required =>
        obtain ⟨requiredInside, requiredSame⟩ := entriesById_mem found
        exact ⟨own, requiredSame ▸ List.mem_map_of_mem requiredInside⟩
  · rintro ⟨entry, inside, isOpen, own, accepted⟩
    refine localNextEntryId_isSome inside (locallyFree_iff.mpr ⟨isOpen, fun ref listed => ?_⟩)
    have finished := enforce_ok_iff.mp accepted ref listed
    cases ref with
    | change projectId changeId => exact (own _ listed).elim
    | epicEntry epicId requiredId =>
      obtain rfl : epicId = epic.id := own _ listed
      exact ⟨epic.id, requiredId, rfl, (resolveTerminal_own keyed member requiredId).mp finished⟩

end

/-! ## Fixed runs -/

def changeEntry (entryId changeId : String) (order : JsNumber) (summary : Option TerminalSummary) : EpicEntry :=
  .change
    { entry_id := entryId, order := order, change_id := some changeId, change_ref := none, title := none
      membership_status := none, linked_at := none, linked_by := none, link_evidence := none, promotion := none
      terminal_summary := summary, retargeted_from_change_id := none, retargeted_at := none, retargeted_by := none
      retarget_evidence := none }

def waitingShell (prerequisite : WorkNodeRef) : EpicEntry :=
  .shell
    { entry_id := "search", order := 1, title := "Search", success_hint := "Found", imported_from := none
      blocked_by := [prerequisite], context_packet := none }

def epicOf (id : String) (entries : List EpicEntry) : Epic :=
  { createdEpic id id "" none "2026-01-01T00:00:00.000Z" with entries := entries }

def finishedSummary : TerminalSummary := ⟨.archived, "2026-01-02T00:00:00.000Z"⟩

def roadmap (prerequisite : WorkNodeRef) : Epic :=
  epicOf "roadmap" [changeEntry "index" "addIndex" 0 (some finishedSummary), waitingShell prerequisite]

def otherEpic : Epic := epicOf "other" [changeEntry "index" "addParser" 0 none]

def projectId : String := "0123456789abcdef0123456789abcdef01234567"

def archivedChange : WorkChange := ⟨"addLexer", .archived, none, some projectId, none⟩

def roadmapStore (prerequisite : WorkNodeRef) : WorkStore where
  external := none
  root := some "/store"
  changeIds := ["addLexer"]
  getChange := fun id => if id = "addLexer" then some archivedChange else none
  epics := [roadmap prerequisite, otherEpic]

theorem roadmapStore_keyed (prerequisite : WorkNodeRef) : WellKeyed (roadmapStore prerequisite) where
  epicIds := by
    change ["roadmap", "other"].Nodup
    decide
  slashless := by
    intro epic member
    rcases List.mem_pair.mp member with rfl | rfl
    · change '/' ∉ "roadmap".toList
      decide
    · decide
  entryIds := by
    intro epic member
    rcases List.mem_pair.mp member with rfl | rfl
    · change ["index", "search"].Nodup
      decide
    · decide

theorem own_prerequisite_startable : WellKeyed (roadmapStore (.epicEntry "roadmap" "index")) ∧
      localNextEntryId (roadmap (.epicEntry "roadmap" "index")).entries = some "search" ∧
        ∃ entry ∈ (roadmap (.epicEntry "roadmap" "index")).entries, entry.entry_id = "search" ∧
          entry.terminal = false ∧ ∀ ref ∈ checkNonterminalPrereqs (prerequisitesOf entry)
              (buildD3ContextFromStore (roadmapStore (.epicEntry "roadmap" "index"))),
              Namesake (roadmap (.epicEntry "roadmap" "index")) ref := by
  have keyed := roadmapStore_keyed (.epicEntry "roadmap" "index")
  have next : localNextEntryId (roadmap (.epicEntry "roadmap" "index")).entries = some "search" := by rfl
  exact ⟨keyed, next, (localNext_startable keyed List.mem_cons_self).1 "search" next⟩

/-- A shell that waits for an archived change is never selected, though it may be promoted; and one that waits for an
open -/
theorem recommendation_is_local :
    ¬ Startable (roadmapStore (.change projectId "addLexer")) (roadmap (.change projectId "addLexer")) ∧
      ¬ Startable (roadmapStore (.epicEntry "other" "index")) (roadmap (.epicEntry "other" "index")) := by
  constructor
  · intro startable
    have accepted := @enforce_ok_iff [.change projectId "addLexer"]
      (buildD3ContextFromStore (roadmapStore (.change projectId "addLexer")))
    have found := startable.progress ⟨waitingShell (.change projectId "addLexer"), by simp [roadmap, epicOf], rfl,
      accepted.mpr (by decide)⟩
    exact absurd found (by decide)
  · intro startable
    obtain ⟨entry, member, sameId, _, accepted⟩ := startable.selected "search" (by rfl)
    have blocked : resolveTerminal (roadmapStore (.epicEntry "other" "index")) (.epicEntry "other" "index") =
        .nonterminal := by rfl
    rcases List.mem_pair.mp member with rfl | rfl
    · exact absurd sameId (by decide)
    · have finished := enforce_ok_iff.mp accepted (.epicEntry "other" "index") List.mem_cons_self
      exact absurd (blocked.symm.trans finished) (by decide)

end Advance.Storage
