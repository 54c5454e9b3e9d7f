import Mathlib.Algebra.Ring.Int.Defs
import Mathlib.Data.List.Dedup
import Advance.Validator.CycleDetect

/-! # What Kahn's algorithm sorts
-/

namespace Advance.Validator

open Foundation Relation

section

variable {T K : Type} [DecidableEq K]
variable (nodes : List T) (getDeps : T → List T) (getKey : T → K)

def depsOf (key : K) : List K := ((keyToNode nodes getKey key).map (resolveDepKeys nodes getDeps getKey)).getD []

/-- The dependency relation restricted to listed nodes. -/
def DependsOn (key depKey : K) : Prop :=
  ∃ node ∈ nodes, getKey node = key ∧ depKey ∈ resolveDepKeys nodes getDeps getKey node

/-- Whether no node that can be reached repeats a dependency. -/
def Plain (key : K) : Prop :=
  ∀ other, ReflTransGen (DependsOn nodes getDeps getKey) key other → (depsOf nodes getDeps getKey other).Nodup

end

section

variable {T K : Type} [DecidableEq K]
variable {nodes : List T} {getDeps : T → List T} {getKey : T → K}

/-! ## Nodes and keys -/

variable {node : T}

theorem keyToNode_some {key : K} (found : keyToNode nodes getKey key = some node) :
    node ∈ nodes ∧ getKey node = key :=
  ⟨List.mem_reverse.mp (List.mem_of_find?_eq_some found), by simpa using List.find?_some found⟩

theorem keyToNode_of_mem (distinct : (nodes.map getKey).Nodup) (member : node ∈ nodes) :
    keyToNode nodes getKey (getKey node) = some node := by
  cases found : keyToNode nodes getKey (getKey node) with
  | none =>
    have absent := List.find?_eq_none.mp found node (List.mem_reverse.mpr member)
    simp at absent
  | some other =>
    obtain ⟨held, same⟩ := keyToNode_some found
    rw [List.inj_on_of_nodup_map distinct held member same]

theorem mem_resolveDepKeys {depKey : K} : depKey ∈ resolveDepKeys nodes getDeps getKey node ↔
      depKey ∈ (getDeps node).map getKey ∧ depKey ∈ nodes.map getKey := by
  simp [resolveDepKeys, nodeKeys]

theorem depsOf_of_mem (distinct : (nodes.map getKey).Nodup) (member : node ∈ nodes) :
    depsOf nodes getDeps getKey (getKey node) = resolveDepKeys nodes getDeps getKey node := by
  rw [depsOf, keyToNode_of_mem distinct member]
  rfl

variable {key depKey : K}

theorem dependsOn_iff (distinct : (nodes.map getKey).Nodup) :
    DependsOn nodes getDeps getKey key depKey ↔ depKey ∈ depsOf nodes getDeps getKey key := by
  constructor
  · rintro ⟨node, member, rfl, edge⟩
    rwa [depsOf_of_mem distinct member]
  · intro edge
    unfold depsOf at edge
    cases found : keyToNode nodes getKey key with
    | none => rw [found] at edge; cases edge
    | some node =>
      rw [found] at edge
      obtain ⟨member, same⟩ := keyToNode_some found
      exact ⟨node, member, same, edge⟩

theorem DependsOn.listed (edge : DependsOn nodes getDeps getKey key depKey) :
    key ∈ nodes.map getKey ∧ depKey ∈ nodes.map getKey := by
  obtain ⟨node, member, rfl, held⟩ := edge
  exact ⟨List.mem_map_of_mem member, (mem_resolveDepKeys.mp held).2⟩

theorem acc_iff_free {key : K} (listed : key ∈ nodes.map getKey) :
    Acc (flip (DependsOn nodes getDeps getKey)) key ↔ ¬ ReachesCycle (DependsOn nodes getDeps getKey) key :=
  @acc_iff_not_reachesCycle _ _ {key | key ∈ nodes.map getKey} (List.finite_toSet _)
    (fun _ _ _ edge => edge.listed.2) _ listed

/-! ## The edge tables -/

variable {keys : List K}

@[simp] theorem mem_addKey {key other : K} : other ∈ addKey key keys ↔ other = key ∨ other ∈ keys := by
  unfold addKey
  split
  next held => exact ⟨.inr, fun either => either.elim (fun same => same ▸ held) id⟩
  next => simp [or_comm]

theorem nodup_addKey {key : K} (distinct : keys.Nodup) : (addKey key keys).Nodup := by
  unfold addKey
  split
  next => exact distinct
  next absent =>
    rw [List.nodup_append]
    refine ⟨distinct, List.nodup_singleton _, fun other held last single same => absent ?_⟩
    rwa [← List.mem_singleton.mp single, ← same]

theorem addEdges_spec (key : K) (depKeys : List K) (tables : EdgeTables K) :
    (∀ other, (depKeys.foldl (EdgeTables.addEdge key) tables).inDegree other =
        tables.inDegree other + if other = key then (depKeys.length : Int) else 0) ∧
      (∀ other depKey, other ∈ (depKeys.foldl (EdgeTables.addEdge key) tables).forwardAdjacency depKey ↔
        other ∈ tables.forwardAdjacency depKey ∨ (other = key ∧ depKey ∈ depKeys)) ∧
      ((∀ depKey, (tables.forwardAdjacency depKey).Nodup) →
        ∀ depKey, ((depKeys.foldl (EdgeTables.addEdge key) tables).forwardAdjacency depKey).Nodup) := by
  induction depKeys generalizing tables with
  | nil => simp
  | cons first rest ih =>
    obtain ⟨degrees, edges, sets⟩ := ih (tables.addEdge key first)
    refine ⟨fun other => ?_, fun other depKey => ?_, fun distinct => sets fun depKey => ?_⟩
    · rw [List.foldl_cons, degrees]
      by_cases same : other = key
      · subst same
        simp [EdgeTables.addEdge]
        omega
      · simp [EdgeTables.addEdge, same]
    · rw [List.foldl_cons, edges]
      by_cases same : depKey = first
      · subst same
        simp [EdgeTables.addEdge]
        tauto
      · simp [EdgeTables.addEdge, same]
    · by_cases same : depKey = first
      · subst same
        simpa [EdgeTables.addEdge] using nodup_addKey (distinct depKey)
      · simpa [EdgeTables.addEdge, same] using distinct depKey

theorem addNodes_spec (rows : List T) (f : T → List K) (tables : EdgeTables K) :
    (∀ key, (rows.foldl (fun tables node => (f node).foldl (EdgeTables.addEdge (getKey node)) tables) tables).inDegree
        key = tables.inDegree key +
          (rows.map fun node => if getKey node = key then ((f node).length : Int) else 0).sum) ∧
      (∀ key depKey, key ∈ (rows.foldl (fun tables node =>
          (f node).foldl (EdgeTables.addEdge (getKey node)) tables) tables).forwardAdjacency depKey ↔
        key ∈ tables.forwardAdjacency depKey ∨ ∃ node ∈ rows, getKey node = key ∧ depKey ∈ f node) ∧
      ((∀ depKey, (tables.forwardAdjacency depKey).Nodup) → ∀ depKey, ((rows.foldl (fun tables node =>
          (f node).foldl (EdgeTables.addEdge (getKey node)) tables) tables).forwardAdjacency depKey).Nodup) := by
  induction rows generalizing tables with
  | nil => simp
  | cons row rows ih =>
    obtain ⟨degrees, edges, sets⟩ := addEdges_spec (getKey row) (f row) tables
    obtain ⟨laterDegrees, laterEdges, laterSets⟩ := ih ((f row).foldl (EdgeTables.addEdge (getKey row)) tables)
    refine ⟨fun key => ?_, fun key depKey => ?_, fun distinct => laterSets (sets distinct)⟩
    · rw [List.foldl_cons, laterDegrees, degrees, List.map_cons, List.sum_cons]
      rw [Int.add_assoc]
      congr 2
      exact if_congr eq_comm rfl rfl
    · rw [List.foldl_cons, laterEdges, edges, or_assoc]
      apply or_congr_right
      constructor
      · rintro (⟨same, held⟩ | ⟨node, member, same, held⟩)
        · exact ⟨row, List.mem_cons_self, same.symm, held⟩
        · exact ⟨node, List.mem_cons_of_mem _ member, same, held⟩
      · rintro ⟨node, member, same, held⟩
        cases List.mem_cons.mp member with
        | inl here =>
          subst here
          exact .inl ⟨same.symm, held⟩
        | inr later => exact .inr ⟨node, later, same, held⟩

theorem sum_at_key {rows : List T} (distinct : (rows.map getKey).Nodup) (f : T → Int) (key : K) :
    (rows.map fun node => if getKey node = key then f node else 0).sum =
      if key ∈ rows.map getKey then ((rows.find? fun node => getKey node = key).map f).getD 0 else 0 := by
  induction rows with
  | nil => rfl
  | cons row rows ih =>
    obtain ⟨notLater, distinctRest⟩ := List.nodup_cons.mp distinct
    rw [List.map_cons, List.sum_cons, ih distinctRest]
    by_cases here : getKey row = key
    · subst here
      simp [notLater]
    · simp [here, Ne.symm here]

theorem inDegree_eq (distinct : (nodes.map getKey).Nodup) (key : K) :
    (edgeTables nodes getDeps getKey).inDegree key = (depsOf nodes getDeps getKey key).length := by
  have added := (@addNodes_spec _ _ _ getKey nodes (resolveDepKeys nodes getDeps getKey) .empty).1 key
  rw [edgeTables, added, sum_at_key distinct]
  by_cases listed : key ∈ nodes.map getKey
  · obtain ⟨node, member, rfl⟩ := List.mem_map.mp listed
    have first : nodes.find? (fun other => getKey other = getKey node) = some node := by
      cases found : nodes.find? fun other => getKey other = getKey node with
      | none => simpa using List.find?_eq_none.mp found node member
      | some other =>
        have same : getKey other = getKey node := by simpa using List.find?_some found
        rw [List.inj_on_of_nodup_map distinct (List.mem_of_find?_eq_some found) member same]
    rw [if_pos listed, first, depsOf_of_mem distinct member]
    simp [EdgeTables.empty]
  · have absent : keyToNode nodes getKey key = none := by
      cases found : keyToNode nodes getKey key with
      | none => rfl
      | some node => exact absurd (List.mem_map.mpr ⟨node, keyToNode_some found⟩) listed
    rw [if_neg listed, depsOf, absent]
    rfl

theorem mem_forwardAdjacency : key ∈ (edgeTables nodes getDeps getKey).forwardAdjacency depKey ↔
      DependsOn nodes getDeps getKey key depKey := by
  rw [edgeTables, (addNodes_spec nodes (resolveDepKeys nodes getDeps getKey) .empty).2.1]
  simp [EdgeTables.empty, DependsOn]

theorem forwardAdjacency_nodup (depKey : K) : ((edgeTables nodes getDeps getKey).forwardAdjacency depKey).Nodup :=
  (addNodes_spec nodes (resolveDepKeys nodes getDeps getKey) .empty).2.2 (fun _ => List.nodup_nil) depKey

/-! ## One turn of the loop -/

theorem relax_spec (dependents : List K) (distinct : dependents.Nodup) (state : KahnState K) :
    (∀ key, (dependents.foldl KahnState.relax state).inDegree key =
        state.inDegree key - if key ∈ dependents then 1 else 0) ∧
      (dependents.foldl KahnState.relax state).kahnQueue =
        state.kahnQueue ++ dependents.filter (fun key => state.inDegree key = 1) ∧
      (dependents.foldl KahnState.relax state).sortedKeys = state.sortedKeys := by
  induction dependents generalizing state with
  | nil => simp
  | cons first rest ih =>
    obtain ⟨notLater, distinctRest⟩ := List.nodup_cons.mp distinct
    obtain ⟨degrees, queue, sorted⟩ := ih distinctRest (state.relax first)
    refine ⟨fun key => ?_, ?_, ?_⟩
    · rw [List.foldl_cons, degrees]
      by_cases same : key = first
      · subst same
        simp [KahnState.relax, notLater]
      · simp [KahnState.relax, same]
    · have untouched : rest.filter (fun key => decide ((state.relax first).inDegree key = 1)) =
          rest.filter fun key => decide (state.inDegree key = 1) := by
        apply List.filter_congr
        intro key member
        have differs : key ≠ first := fun same => notLater (same ▸ member)
        simp [KahnState.relax, differs]
      rw [List.foldl_cons, queue, untouched, List.filter_cons]
      have reached : state.inDegree first - 1 = 0 ↔ state.inDegree first = 1 := by omega
      by_cases last : state.inDegree first = 1
      · simp [KahnState.relax, last]
      · simp [KahnState.relax, last, reached]
    · rw [List.foldl_cons, sorted]
      rfl

/-! ## The invariant -/

/-- The edges of a key still open: its dependencies, less the sorted ones counted once each. -/
def openEdges (deps sorted : List K) : Int := deps.length - (deps.dedup.filter (· ∈ sorted)).length

/-- Every key comes after its dependencies. -/
def Ordered (deps : K → List K) (keys : List K) : Prop :=
  ∀ front key back, keys = front ++ key :: back → ∀ depKey ∈ deps key, depKey ∈ front

structure KahnInvariant (deps : K → List K) (listed : List K) (state : KahnState K) : Prop where
  degree : ∀ key, state.inDegree key = openEdges (deps key) state.sortedKeys
  distinct : (state.sortedKeys ++ state.kahnQueue).Nodup
  reached : ∀ key, key ∈ state.sortedKeys ++ state.kahnQueue ↔ key ∈ listed ∧ state.inDegree key = 0
  ordered : Ordered deps state.sortedKeys

theorem openEdges_eq_zero {deps sorted : List K} :
    openEdges deps sorted = 0 ↔ deps.Nodup ∧ ∀ depKey ∈ deps, depKey ∈ sorted := by
  have fewer : (deps.dedup.filter (· ∈ sorted)).length ≤ deps.dedup.length := List.length_filter_le _ _
  have once : deps.dedup.length ≤ deps.length := (List.dedup_sublist deps).length_le
  constructor
  · intro none
    have full : deps.dedup.length = deps.length := by
      simp only [openEdges] at none
      omega
    have each : (deps.dedup.filter (· ∈ sorted)).length = deps.dedup.length := by
      simp only [openEdges] at none
      omega
    have same : deps.dedup = deps := (List.dedup_sublist deps).eq_of_length full
    refine ⟨List.dedup_eq_self.mp same, fun depKey member => ?_⟩
    have held := List.length_filter_eq_length_iff.mp each depKey (List.mem_dedup.mpr member)
    exact of_decide_eq_true held
  · rintro ⟨distinct, each⟩
    have all : deps.filter (· ∈ sorted) = deps :=
      List.filter_eq_self.mpr fun depKey member => decide_eq_true (each depKey member)
    rw [openEdges, List.dedup_eq_self.mpr distinct, all]
    omega

theorem openEdges_snoc {deps sorted : List K} {current : K} (fresh : current ∉ sorted) :
    openEdges deps (sorted ++ [current]) = openEdges deps sorted - if current ∈ deps then 1 else 0 := by
  have counted : ∀ keys : List K, keys.Nodup → (keys.filter (· ∈ sorted ++ [current])).length =
      (keys.filter (· ∈ sorted)).length + if current ∈ keys then 1 else 0 := by
    intro keys distinct
    induction keys with
    | nil => rfl
    | cons key keys ih =>
      obtain ⟨notLater, distinctRest⟩ := List.nodup_cons.mp distinct
      have rest := ih distinctRest
      rw [List.filter_cons, List.filter_cons]
      by_cases same : key = current
      · subst same
        rw [if_neg notLater] at rest
        simp [fresh]
        simpa using rest
      · by_cases held : key ∈ sorted
        · simp [held, Ne.symm same]
          simp at rest
          omega
        · simp [held, same, Ne.symm same]
          simpa using rest
  have added := counted deps.dedup (List.nodup_dedup deps)
  simp only [List.mem_dedup] at added
  simp only [openEdges]
  by_cases member : current ∈ deps
  · rw [if_pos member] at added ⊢
    omega
  · rw [if_neg member] at added ⊢
    omega

variable {deps : K → List K}

omit [DecidableEq K] in
theorem ordered_snoc {key : K} (ordered : Ordered deps keys)
    (below : ∀ depKey ∈ deps key, depKey ∈ keys) : Ordered deps (keys ++ [key]) := by
  intro front other back split depKey held
  rcases List.eq_nil_or_concat back with rfl | ⟨inner, last, rfl⟩
  · obtain ⟨rfl, single⟩ := List.append_inj' split rfl
    obtain rfl := List.singleton_inj.mp single
    exact below depKey held
  · have reshaped : keys ++ [key] = (front ++ other :: inner) ++ [last] := by simpa using split
    obtain ⟨rfl, _⟩ := List.append_inj' reshaped rfl
    exact ordered front other inner rfl depKey held

omit [DecidableEq K] in
theorem ordered_induction {P : K → Prop} (ordered : Ordered deps keys)
    (step : ∀ key ∈ keys, (∀ depKey ∈ deps key, P depKey) → P key) : ∀ key ∈ keys, P key := by
  induction keys using List.reverseRecOn with
  | nil => exact fun _ member => absurd member List.not_mem_nil
  | append_singleton keys last ih =>
    have earlier : Ordered deps keys := by
      intro front key back split
      exact ordered front key (back ++ [last]) (by simp [split])
    have held := ih earlier fun key member => step key (List.mem_append_left _ member)
    intro key member
    cases List.mem_append.mp member with
    | inl early => exact held key early
    | inr here =>
      obtain rfl := List.mem_singleton.mp here
      exact step key member fun depKey edge => held depKey (ordered keys key [] rfl depKey edge)

theorem kahnStep_invariant {listed : List K} {tables : EdgeTables K}
    (edges : ∀ key depKey, key ∈ tables.forwardAdjacency depKey ↔ depKey ∈ deps key)
    (sets : ∀ depKey, (tables.forwardAdjacency depKey).Nodup)
    (inside : ∀ key depKey, depKey ∈ deps key → key ∈ listed) {state : KahnState K}
    (invariant : KahnInvariant deps listed state) : KahnInvariant deps listed (kahnStep tables state) := by
  cases queued : state.kahnQueue with
  | nil =>
    rw [kahnStep, queued]
    exact invariant
  | cons current rest =>
    have distinct := invariant.distinct
    have reached := invariant.reached
    rw [queued] at distinct reached
    have fresh : current ∉ state.sortedKeys := by
      intro member
      exact (List.disjoint_of_nodup_append distinct) member List.mem_cons_self
    have closed : ∀ key, key ∈ state.sortedKeys ++ current :: rest →
        ∀ depKey ∈ deps key, depKey ∈ state.sortedKeys := by
      intro key member
      have none := (reached key).mp member
      rw [invariant.degree] at none
      exact (openEdges_eq_zero.mp none.2).2
    obtain ⟨degrees, queue, sorted⟩ := relax_spec (tables.forwardAdjacency current) (sets current)
      { state with kahnQueue := rest, sortedKeys := state.sortedKeys ++ [current] }
    have whole : kahnStep tables state = (tables.forwardAdjacency current).foldl KahnState.relax
        { state with kahnQueue := rest, sortedKeys := state.sortedKeys ++ [current] } := by
      rw [kahnStep, queued]
    rw [whole]
    generalize (tables.forwardAdjacency current).foldl KahnState.relax _ = after at degrees queue sorted
    have keys : after.sortedKeys ++ after.kahnQueue = (state.sortedKeys ++ current :: rest) ++
        (tables.forwardAdjacency current).filter fun key => state.inDegree key = 1 := by
      rw [sorted, queue]
      simp
    refine ⟨fun key => ?_, ?_, fun key => ?_, ?_⟩
    · rw [degrees, sorted, openEdges_snoc fresh, ← invariant.degree]
      exact congrArg _ (if_congr (edges key current) rfl rfl)
    · rw [keys, List.nodup_append]
      refine ⟨distinct, (sets current).filter _, fun key old other new same => ?_⟩
      subst same
      have zero := ((reached key).mp old).2
      have one : state.inDegree key = 1 := by simpa using (List.mem_filter.mp new).2
      omega
    · rw [keys, List.mem_append, degrees, List.mem_filter]
      constructor
      · rintro (old | new)
        · obtain ⟨held, zero⟩ := (reached key).mp old
          have apart : key ∉ tables.forwardAdjacency current := fun member =>
            fresh (closed key old current ((edges key current).mp member))
          simp [held, zero, apart]
        · have one : state.inDegree key = 1 := by simpa using new.2
          simp [inside key current ((edges key current).mp new.1), one, new.1]
      · rintro ⟨held, zero⟩
        by_cases member : key ∈ tables.forwardAdjacency current
        · simp only [member, if_true] at zero
          exact .inr ⟨member, decide_eq_true (by omega)⟩
        · simp only [member, if_false, Int.sub_zero] at zero
          exact .inl ((reached key).mpr ⟨held, zero⟩)
    · rw [sorted]
      exact ordered_snoc invariant.ordered (closed current (by simp))

theorem kahnStart_invariant (distinct : (nodes.map getKey).Nodup) :
    KahnInvariant (depsOf nodes getDeps getKey) (nodes.map getKey) (kahnStart nodes getDeps getKey) where
  degree key := by
    have none : (depsOf nodes getDeps getKey key).dedup.filter (· ∈ ([] : List K)) = [] := by simp
    have degree : (kahnStart nodes getDeps getKey).inDegree key = (depsOf nodes getDeps getKey key).length :=
      inDegree_eq distinct key
    rw [degree, kahnStart, openEdges, none]
    exact (Int.sub_zero _).symm
  distinct := by simpa [kahnStart] using distinct.filter _
  reached key := by simp [kahnStart]
  ordered := by
    intro front key back split
    simp [kahnStart] at split

theorem kahn_turns (distinct : (nodes.map getKey).Nodup) (turns : Nat) :
    KahnInvariant (depsOf nodes getDeps getKey) (nodes.map getKey)
        ((kahnStep (edgeTables nodes getDeps getKey))^[turns] (kahnStart nodes getDeps getKey)) ∧
      (((kahnStep (edgeTables nodes getDeps getKey))^[turns] (kahnStart nodes getDeps getKey)).kahnQueue = [] ∨
        ((kahnStep (edgeTables nodes getDeps getKey))^[turns] (kahnStart nodes getDeps getKey)).sortedKeys.length
          = turns) := by
  induction turns with
  | zero => exact ⟨kahnStart_invariant distinct, .inr rfl⟩
  | succ turns ih =>
    obtain ⟨invariant, progress⟩ := ih
    rw [Function.iterate_succ_apply']
    generalize (kahnStep (edgeTables nodes getDeps getKey))^[turns] (kahnStart nodes getDeps getKey) = state
      at invariant progress ⊢
    refine ⟨kahnStep_invariant (fun key depKey => ?_) forwardAdjacency_nodup (fun key depKey edge => ?_) invariant, ?_⟩
    · exact mem_forwardAdjacency.trans (dependsOn_iff distinct)
    · exact ((dependsOn_iff distinct).mpr edge).listed.1
    · cases queued : state.kahnQueue with
      | nil =>
        rw [kahnStep, queued]
        exact .inl queued
      | cons current rest =>
        have counted : state.sortedKeys.length = turns := by simpa [queued] using progress
        have sorted := (relax_spec _ (@forwardAdjacency_nodup _ _ _ nodes getDeps getKey current)
          { state with kahnQueue := rest, sortedKeys := state.sortedKeys ++ [current] }).2.2
        rw [kahnStep, queued]
        simp only [sorted, List.length_append, List.length_singleton, counted]
        exact .inr trivial

theorem kahn_finishes (distinct : (nodes.map getKey).Nodup) : (kahn nodes getDeps getKey).kahnQueue = [] := by
  obtain ⟨invariant, progress⟩ := @kahn_turns _ _ _ nodes getDeps getKey distinct nodes.length
  rw [← kahn] at invariant progress
  apply progress.elim id
  intro full
  -- The sorted and queued keys are distinct keys of the list, and the sorted ones are as many as the nodes.
  have inside : (kahn nodes getDeps getKey).sortedKeys ++ (kahn nodes getDeps getKey).kahnQueue ⊆ nodes.map getKey :=
    fun key member => ((invariant.reached key).mp member).1
  have few := (invariant.distinct.subperm inside).length_le
  rw [List.length_append, full, List.length_map] at few
  exact List.length_eq_zero_iff.mp (by omega)

/-! ## What is sorted -/

section

variable (distinct : (nodes.map getKey).Nodup)
include distinct

theorem sortedKeys_ordered : Ordered (depsOf nodes getDeps getKey) (kahn nodes getDeps getKey).sortedKeys :=
  (kahn_turns distinct nodes.length).1.ordered

theorem sortedKeys_nodup : (kahn nodes getDeps getKey).sortedKeys.Nodup :=
  (kahn_turns distinct nodes.length).1.distinct.of_append_left

theorem mem_sortedKeys_step {key : K} : key ∈ (kahn nodes getDeps getKey).sortedKeys ↔ key ∈ nodes.map getKey ∧
      (depsOf nodes getDeps getKey key).Nodup ∧
        ∀ depKey ∈ depsOf nodes getDeps getKey key, depKey ∈ (kahn nodes getDeps getKey).sortedKeys := by
  have invariant : KahnInvariant (depsOf nodes getDeps getKey) (nodes.map getKey) (kahn nodes getDeps getKey) :=
    (kahn_turns distinct nodes.length).1
  have reached := invariant.reached key
  rw [kahn_finishes distinct, List.append_nil, invariant.degree, openEdges_eq_zero] at reached
  exact reached

/-- A node is sorted exactly when neither a cycle nor a repeated dependency can be reached from it. -/
theorem mem_sortedKeys {key : K} : key ∈ (kahn nodes getDeps getKey).sortedKeys ↔ key ∈ nodes.map getKey ∧
      ¬ ReachesCycle (DependsOn nodes getDeps getKey) key ∧ Plain nodes getDeps getKey key := by
  constructor
  · intro sorted
    have each := ordered_induction (P := fun key => Acc (flip (DependsOn nodes getDeps getKey)) key ∧
        Plain nodes getDeps getKey key) (sortedKeys_ordered distinct) (fun key member below => ?_) key sorted
    · have listed := ((mem_sortedKeys_step distinct).mp sorted).1
      exact ⟨listed, (acc_iff_free listed).mp each.1, each.2⟩
    · refine ⟨⟨_, fun depKey edge => (below depKey ((dependsOn_iff distinct).mp edge)).1⟩, fun other path => ?_⟩
      cases path.cases_head with
      | inl here => exact here ▸ ((mem_sortedKeys_step distinct).mp member).2.1
      | inr further =>
        obtain ⟨depKey, edge, rest⟩ := further
        exact (below depKey ((dependsOn_iff distinct).mp edge)).2 other rest
  · rintro ⟨listed, free, plain⟩
    have bottoms := (acc_iff_free listed).mpr free
    clear free
    induction bottoms with
    | intro key _ ih =>
      refine (mem_sortedKeys_step distinct).mpr ⟨listed, plain key .refl, fun depKey edge => ?_⟩
      have held := (dependsOn_iff distinct).mpr edge
      exact ih depKey held held.listed.2 fun other path => plain other (.head held path)

end

end

end Advance.Validator
