import Advance.Validator.CycleSearch

/-! # When cycle detection is exact -/

namespace Advance.Validator

open Foundation Relation

section

variable {T K : Type} [DecidableEq K]

/-- What the result promises: cycles exactly where there are some, each a closed path of edges, and every node
    that reaches no cycle sorted once, dependencies first. -/
structure ExactResult (nodes : List T) (getDeps : T → List T) (getKey : T → K) : Prop where
  cycles : (detectCycles nodes getDeps getKey).cycles = [] ↔ Acyclic (DependsOn nodes getDeps getKey)
  closed : ∀ cycle ∈ (detectCycles nodes getDeps getKey).cycles, ClosedCycle nodes getDeps getKey cycle
  distinct : (detectCycles nodes getDeps getKey).sorted.Nodup
  dependenciesFirst : ∀ front node back, (detectCycles nodes getDeps getKey).sorted = front ++ node :: back →
    ∀ depKey ∈ resolveDepKeys nodes getDeps getKey node, ∃ earlier ∈ front, getKey earlier = depKey
  complete : ∀ node, node ∈ (detectCycles nodes getDeps getKey).sorted ↔
    node ∈ nodes ∧ ¬ ReachesCycle (DependsOn nodes getDeps getKey) (getKey node)

def NoRepeats (nodes : List T) (getDeps : T → List T) (getKey : T → K) : Prop :=
  ∀ node ∈ nodes, ¬ ReachesCycle (DependsOn nodes getDeps getKey) (getKey node) →
    (resolveDepKeys nodes getDeps getKey node).Nodup

variable {nodes : List T} {getDeps : T → List T} {getKey : T → K}

/-! ## The sorted nodes -/

section

variable (distinct : (nodes.map getKey).Nodup)
include distinct

theorem detectCycles_sorted : (detectCycles nodes getDeps getKey).sorted =
      (kahn nodes getDeps getKey).sortedKeys.filterMap (keyToNode nodes getKey) := by
  unfold detectCycles
  split
  next none =>
    have empty : (kahn nodes getDeps getKey).sortedKeys = [] := by
      refine List.eq_nil_iff_forall_not_mem.mpr fun key member => ?_
      have listed := ((mem_sortedKeys distinct).mp member).1
      rw [List.length_eq_zero_iff.mp none] at listed
      cases listed
    rw [empty]
    rfl
  next => simp only; split <;> rfl

theorem sorted_keys :
    (detectCycles nodes getDeps getKey).sorted.map getKey = (kahn nodes getDeps getKey).sortedKeys := by
  rw [detectCycles_sorted distinct, List.map_filterMap]
  have each : ∀ key ∈ (kahn nodes getDeps getKey).sortedKeys, (keyToNode nodes getKey key).map getKey = some key := by
    intro key member
    obtain ⟨node, held, rfl⟩ := List.mem_map.mp ((mem_sortedKeys distinct).mp member).1
    rw [keyToNode_of_mem distinct held]
    rfl
  rw [List.filterMap_congr each, List.filterMap_some]

theorem sorted_listed {node : T} (member : node ∈ (detectCycles nodes getDeps getKey).sorted) : node ∈ nodes := by
  rw [detectCycles_sorted distinct] at member
  obtain ⟨key, _, found⟩ := List.mem_filterMap.mp member
  exact (keyToNode_some found).1

theorem mem_sorted {node : T} : node ∈ (detectCycles nodes getDeps getKey).sorted ↔ node ∈ nodes ∧
      ¬ ReachesCycle (DependsOn nodes getDeps getKey) (getKey node) ∧ Plain nodes getDeps getKey (getKey node) := by
  constructor
  · intro member
    have key : getKey node ∈ (kahn nodes getDeps getKey).sortedKeys := by
      rw [← sorted_keys distinct]
      exact List.mem_map_of_mem member
    exact ⟨sorted_listed distinct member, ((mem_sortedKeys distinct).mp key).2⟩
  · rintro ⟨listed, settled⟩
    have key := (mem_sortedKeys distinct).mpr ⟨List.mem_map_of_mem listed, settled⟩
    rw [← sorted_keys distinct] at key
    obtain ⟨other, member, same⟩ := List.mem_map.mp key
    rwa [← List.inj_on_of_nodup_map distinct (sorted_listed distinct member) listed same]

theorem sorted_dependenciesFirst (front : List T) (node : T) (back : List T)
    (split : (detectCycles nodes getDeps getKey).sorted = front ++ node :: back) :
    ∀ depKey ∈ resolveDepKeys nodes getDeps getKey node, ∃ earlier ∈ front, getKey earlier = depKey := by
  intro depKey edge
  have listed : node ∈ nodes := sorted_listed distinct (split ▸ List.mem_append_right _ List.mem_cons_self)
  have keys := @sorted_keys _ _ _ nodes getDeps getKey distinct
  rw [split, List.map_append, List.map_cons] at keys
  have held := sortedKeys_ordered distinct _ _ _ keys.symm depKey (by rwa [depsOf_of_mem distinct listed])
  exact List.mem_map.mp held

end

/-! ## The cycles -/

theorem cycles_closed (distinct : (nodes.map getKey).Nodup) :
    ∀ cycle ∈ (detectCycles nodes getDeps getKey).cycles, ClosedCycle nodes getDeps getKey cycle := by
  unfold detectCycles
  split
  next => exact fun _ member => absurd member List.not_mem_nil
  next =>
    simp only
    split
    next => exact fun _ member => absurd member List.not_mem_nil
    next => exact search_cycles distinct

theorem cycles_nil_iff (distinct : (nodes.map getKey).Nodup) :
    (detectCycles nodes getDeps getKey).cycles = [] ↔ Acyclic (DependsOn nodes getDeps getKey) := by
  constructor
  · intro none
    have bottoms : ∀ key ∈ nodes.map getKey, Acc (flip (DependsOn nodes getDeps getKey)) key := by
      intro key listed
      unfold detectCycles at none
      split at none
      next empty =>
        rw [List.length_eq_zero_iff.mp empty] at listed
        cases listed
      next =>
        simp only at none
        split at none
        next all =>
          -- As many sorted keys as nodes leave no node out.
          have inside : (kahn nodes getDeps getKey).sortedKeys ⊆ nodes.map getKey :=
            fun other member => ((mem_sortedKeys distinct).mp member).1
          have perm := (sortedKeys_nodup distinct).subperm inside |>.perm_of_length_le (by simp [all])
          exact (acc_iff_free listed).mpr ((mem_sortedKeys distinct).mp (perm.mem_iff.mpr listed)).2.1
        next => exact search_complete distinct none listed
    intro key cycle
    have listed : key ∈ nodes.map getKey := by
      obtain ⟨_, edge, _⟩ := TransGen.head'_iff.mp cycle
      exact edge.listed.1
    exact not_transGen_of_acc (bottoms key listed) cycle
  · intro acyclic
    refine List.eq_nil_iff_forall_not_mem.mpr fun path member => ?_
    obtain ⟨key, cycle⟩ := (cycles_closed distinct path member).cycle
    exact acyclic key cycle

/-! ## The claim -/

/-- Over nodes with distinct keys the result is exact just if no node that could be sorted repeats a listed
    dependency: the in-degree counts the repeats and the adjacency does not. -/
theorem detectCycles_exact_iff (distinct : (nodes.map getKey).Nodup) :
    ExactResult nodes getDeps getKey ↔ NoRepeats nodes getDeps getKey := by
  constructor
  · intro result node member free
    have sorted := (result.complete node).mpr ⟨member, free⟩
    have plain := ((mem_sorted distinct).mp sorted).2.2 _ .refl
    rwa [depsOf_of_mem distinct member] at plain
  · intro once
    refine ⟨cycles_nil_iff distinct, cycles_closed distinct, ?_, sorted_dependenciesFirst distinct, fun node => ?_⟩
    · have keys := @sortedKeys_nodup _ _ _ nodes getDeps getKey distinct
      rw [← sorted_keys distinct] at keys
      exact keys.of_map _
    · rw [mem_sorted distinct]
      refine and_congr_right fun member => ⟨And.left, fun free => ⟨free, fun other path => ?_⟩⟩
      -- What the node reaches reaches no cycle either.
      have onward : ¬ ReachesCycle (DependsOn nodes getDeps getKey) other := by
        rintro ⟨last, more, cycle⟩
        exact free ⟨last, path.trans more, cycle⟩
      have listed : other ∈ nodes.map getKey := by
        cases path.cases_tail with
        | inl here => exact here ▸ List.mem_map_of_mem member
        | inr further =>
          obtain ⟨_, _, edge⟩ := further
          exact edge.listed.2
      obtain ⟨owner, held, rfl⟩ := List.mem_map.mp listed
      rw [depsOf_of_mem distinct held]
      exact once owner held onward

end

/-! ## Fixed graphs -/

/-- One dependency, then the same one twice. -/
def twiceNeeded : String → List String
  | "A" => ["B", "B"]
  | _ => []

/-- A node that names its dependency twice is left out, though there is no cycle. -/
theorem repeated_left_out : ¬ ExactResult ["A", "B"] twiceNeeded id := by
  intro result
  have none : (detectCycles ["A", "B"] twiceNeeded id).cycles = [] := by rfl
  have free := acyclic_iff_not_reachesCycle.mp (result.cycles.mp none) "A"
  have sorted := (result.complete "A").mpr ⟨List.mem_cons_self, free⟩
  revert sorted
  decide

def diamondNeeds : String → List String
  | "A" => ["B", "C"]
  | "B" => ["C"]
  | _ => []

theorem diamond_exact : ExactResult ["A", "B", "C"] diamondNeeds id := by
  have once : ∀ node ∈ ["A", "B", "C"], (resolveDepKeys ["A", "B", "C"] diamondNeeds id node).Nodup := by
    decide
  exact (detectCycles_exact_iff (by decide)).mpr fun node member _ => once node member

end Advance.Validator
