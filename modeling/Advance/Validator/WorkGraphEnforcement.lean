import Advance.Types.ChangeStatus
import Advance.Types.Epics
import Advance.Utils.WorktreeLease
import Advance.Validator.NodeKeys
import Mathlib.Data.List.Nodup

/-! # Enforcement of prerequisites

A shell becomes a change only when everything it waits for is finished.  What is
finished is looked up among all changes and Epics of the store.
-/

namespace Advance.Validator

open Types

/-! ## The store -/

/-- A change, as far as enforcement looks at it. -/
structure WorkChange where
  id : String
  status : ChangeStatus
  lifecycleState : Option ChangeLifecycleState
  adv_project_id : Option String
  same_project_dependencies : Option (List WorkNodeRef)
  deriving DecidableEq

structure WorkStore where
  external : Option String
  root : Option String
  changeIds : List String
  getChange : String → Option WorkChange
  epics : List Epic

/-- `path ? basename(path) : ""` -/
def projectIdOf (path : String) : String := if path = "" then "" else String.ofList (Utils.WorktreeLease.basename path)

def WorkStore.inferredProjectId (store : WorkStore) : String :=
  projectIdOf ((store.external.or store.root).getD "")

/-- Either field makes a change terminal. -/
def WorkChange.isTerminal (change : WorkChange) : Bool :=
  change.status = .archived || change.status = .closed || change.lifecycleState = some .archived ||
    change.lifecycleState = some .closed

/-! ## The context -/

inductive PrereqStatus where
  | terminal
  | nonterminal
  | unresolved
  deriving DecidableEq

structure D3EnforcementContext where
  resolveTerminal : WorkNodeRef → PrereqStatus
  getDeps : String → List WorkNodeRef
  resolvableNodeKeys : List String

/-- `SHELL_PREREQ_NONTERMINAL` -/
inductive D3EnforcementError where
  | shellPrereqNonterminal (blocking_refs : List WorkNodeRef)

/-- A node of the context. -/
structure D3Node where
  key : String
  ref : WorkNodeRef
  terminal : Bool
  deps : List WorkNodeRef

section

variable (store : WorkStore)

def changeWorkRef (change : WorkChange) : WorkNodeRef :=
  .change (change.adv_project_id.getD store.inferredProjectId) change.id

def d3Change (change : WorkChange) : D3Node where
  key := nodeRefKey (changeWorkRef store change)
  ref := changeWorkRef store change
  terminal := change.isTerminal
  deps := change.same_project_dependencies.getD []

/-- The changes that load. -/
def d3Changes : List D3Node := (store.changeIds.filterMap store.getChange).map (d3Change store)

def entryWorkRef (epic : Epic) (entry : EpicEntry) : WorkNodeRef := .epicEntry epic.id entry.entry_id

/-- `entry.blocked_by ?? []` of a shell. -/
def prerequisitesOf : EpicEntry → List WorkNodeRef
  | .shell shell => shell.blocked_by
  | .change _ => []

def d3Entry (epic : Epic) (entry : EpicEntry) : D3Node where
  key := nodeRefKey (entryWorkRef epic entry)
  ref := entryWorkRef epic entry
  terminal := entry.terminal
  deps := prerequisitesOf entry

def d3Epics : List (List D3Node) := store.epics.map fun epic => epic.entries.map (d3Entry epic)

def statusOf (node : D3Node) : PrereqStatus := if node.terminal then .terminal else .nonterminal

def resolvableNodeKeys : List String := (d3Changes store ++ (d3Epics store).flatten).map D3Node.key

def resolveTerminal (ref : WorkNodeRef) : PrereqStatus :=
  let key := nodeRefKey ref
  if key ∉ resolvableNodeKeys store then .unresolved
  else
    match (d3Changes store).find? fun change => change.key = key with
    | some change => statusOf change
    | none =>
      match (d3Epics store).findSome? fun entries => entries.find? fun entry => entry.key = key with
      | some entry => statusOf entry
      | none => .unresolved

/-- `allDeps.get(key) ?? []`: the last node set under the key. -/
def storeDeps (key : String) : List WorkNodeRef :=
  (((d3Changes store ++ (d3Epics store).flatten).reverse.find? fun node => node.key = key).map D3Node.deps).getD []

def buildD3ContextFromStore : D3EnforcementContext where
  resolveTerminal := resolveTerminal store
  getDeps := storeDeps store
  resolvableNodeKeys := resolvableNodeKeys store

end

/-! ## The check -/

def checkNonterminalPrereqs (prereqs : List WorkNodeRef) (ctx : D3EnforcementContext) : List WorkNodeRef :=
  prereqs.filter fun prereq => ctx.resolveTerminal prereq = .nonterminal || ctx.resolveTerminal prereq = .unresolved

def enforceD3ForShellPromote (blockedBy : List WorkNodeRef) (ctx : D3EnforcementContext) :
    Except D3EnforcementError Unit :=
  let blocking := checkNonterminalPrereqs blockedBy ctx
  if 0 < blocking.length then .error (.shellPrereqNonterminal blocking) else .ok ()

theorem mem_checkNonterminalPrereqs {prereqs : List WorkNodeRef} {ctx : D3EnforcementContext} {ref : WorkNodeRef} :
    ref ∈ checkNonterminalPrereqs prereqs ctx ↔ ref ∈ prereqs ∧ ctx.resolveTerminal ref ≠ .terminal := by
  rw [checkNonterminalPrereqs, List.mem_filter]
  cases ctx.resolveTerminal ref <;> simp

theorem enforce_ok_iff {prereqs : List WorkNodeRef} {ctx : D3EnforcementContext} :
    enforceD3ForShellPromote prereqs ctx = .ok () ↔ ∀ ref ∈ prereqs, ctx.resolveTerminal ref = .terminal := by
  have none_iff : checkNonterminalPrereqs prereqs ctx = [] ↔
      ∀ ref ∈ prereqs, ctx.resolveTerminal ref = .terminal := by
    rw [List.eq_nil_iff_forall_not_mem]
    simp only [mem_checkNonterminalPrereqs, not_and, not_not]
  rw [← none_iff, enforceD3ForShellPromote]
  cases checkNonterminalPrereqs prereqs ctx with
  | nil => simp
  | cons ref rest => simp

/-! ## Looking an entry up -/

/-- The Epics have different ids without a slash, and the entries of each have different ids. -/
structure WellKeyed (store : WorkStore) : Prop where
  epicIds : (store.epics.map Epic.id).Nodup
  slashless : ∀ epic ∈ store.epics, '/' ∉ epic.id.toList
  entryIds : ∀ epic ∈ store.epics, (epic.entries.map EpicEntry.entry_id).Nodup

section

variable {store : WorkStore} {epic : Epic}

theorem changeKey_ne (epicId entryId : String) :
    ∀ node ∈ d3Changes store, node.key ≠ nodeRefKey (.epicEntry epicId entryId) := by
  intro node member same
  obtain ⟨change, _, rfl⟩ := List.mem_map.mp member
  have texts := congrArg (fun text => text.toList.head?) same
  simp [d3Change, changeWorkRef, nodeRefKey] at texts

theorem findSome_find {Node : Type} (holds : Node → Bool) (lists : List (List Node)) :
    (lists.findSome? fun nodes => nodes.find? holds) = lists.flatten.find? holds := by
  induction lists with
  | nil => rfl
  | cons nodes lists ih =>
    rw [List.findSome?_cons, List.flatten_cons, List.find?_append]
    cases nodes.find? holds with
    | none => exact ih
    | some node => rfl

theorem mem_d3Epics {node : D3Node} : node ∈ (d3Epics store).flatten ↔
    ∃ epic ∈ store.epics, ∃ entry ∈ epic.entries, d3Entry epic entry = node := by
  simp [d3Epics]

theorem entryKey_inj {epicId otherEpic entryId otherEntry : String} (slashless : '/' ∉ epicId.toList)
    (otherSlashless : '/' ∉ otherEpic.toList)
    (same : nodeRefKey (.epicEntry epicId entryId) = nodeRefKey (.epicEntry otherEpic otherEntry)) :
    epicId = otherEpic ∧ entryId = otherEntry := by
  have joined : epicId ++ "/" ++ entryId = otherEpic ++ "/" ++ otherEntry := by
    simpa [nodeRefKey, String.append_assoc] using same
  rcases slash_eq_iff.mp joined with both | ⟨middle, whole, _⟩ | ⟨middle, whole, _⟩
  · exact both
  · exact absurd (by rw [whole, slash_toList]; simp) otherSlashless
  · exact absurd (by rw [whole, slash_toList]; simp) slashless

theorem WellKeyed.node (keyed : WellKeyed store) (member : epic ∈ store.epics) {entryId : String} {node : D3Node}
    (listed : node ∈ (d3Epics store).flatten) (same : node.key = nodeRefKey (.epicEntry epic.id entryId)) :
    ∃ entry ∈ epic.entries, entry.entry_id = entryId ∧ node = d3Entry epic entry := by
  obtain ⟨other, otherMember, entry, inside, rfl⟩ := mem_d3Epics.mp listed
  obtain ⟨sameEpic, sameEntry⟩ := entryKey_inj (keyed.slashless other otherMember) (keyed.slashless epic member) same
  obtain rfl := List.inj_on_of_nodup_map keyed.epicIds otherMember member sameEpic
  exact ⟨entry, inside, sameEntry, rfl⟩

theorem resolveTerminal_entry (keyed : WellKeyed store) (member : epic ∈ store.epics) (entryId : String) :
    resolveTerminal store (.epicEntry epic.id entryId) =
      match epic.entries.find? fun entry => entry.entry_id = entryId with
      | some entry => if entry.terminal then .terminal else .nonterminal
      | none => .unresolved := by
  have noChange : (d3Changes store).find? (fun change => change.key = nodeRefKey (.epicEntry epic.id entryId)) =
      none := by
    refine List.find?_eq_none.mpr fun node isChange => ?_
    simpa using changeKey_ne epic.id entryId node isChange
  unfold resolveTerminal
  simp only [noChange, findSome_find]
  cases entryFound : epic.entries.find? fun entry => entry.entry_id = entryId with
  | none =>
    have unknown : nodeRefKey (.epicEntry epic.id entryId) ∉ resolvableNodeKeys store := by
      intro known
      obtain ⟨node, listed, same⟩ := List.mem_map.mp known
      cases List.mem_append.mp listed with
      | inl isChange => exact changeKey_ne epic.id entryId node isChange same
      | inr isEntry =>
        obtain ⟨entry, inside, sameId, _⟩ := keyed.node member isEntry same
        exact absurd sameId (by simpa using List.find?_eq_none.mp entryFound entry inside)
    rw [if_pos unknown]
  | some entry =>
    have inside := List.mem_of_find?_eq_some entryFound
    have sameId : entry.entry_id = entryId := by simpa using List.find?_some entryFound
    subst sameId
    have listed : d3Entry epic entry ∈ (d3Epics store).flatten :=
      mem_d3Epics.mpr ⟨epic, member, entry, inside, rfl⟩
    have known : nodeRefKey (.epicEntry epic.id entry.entry_id) ∈ resolvableNodeKeys store :=
      List.mem_map.mpr ⟨d3Entry epic entry, List.mem_append_right _ listed, rfl⟩
    rw [if_neg (not_not.mpr known)]
    cases found : (d3Epics store).flatten.find? fun node =>
        node.key = nodeRefKey (.epicEntry epic.id entry.entry_id) with
    | none =>
      have differs := List.find?_eq_none.mp found _ listed
      simp [d3Entry, entryWorkRef] at differs
    | some node =>
      obtain ⟨other, otherInside, sameEntry, rfl⟩ := keyed.node member (List.mem_of_find?_eq_some found)
        (by simpa using List.find?_some found)
      obtain rfl := List.inj_on_of_nodup_map (keyed.entryIds epic member) otherInside inside sameEntry
      rfl

end

end Advance.Validator
