import Advance.Foundation.Run
import Advance.Validator.WorkGraphValidation

/-! # Dependency edges over runs

The stored work graph, and additions that are stored when the check lets them pass.
-/

namespace Advance.Validator

open Foundation Relation Types

/-- Every stored node with its dependencies. -/
structure WorkGraph where
  nodes : List (WorkNodeRef × List WorkNodeRef)
  distinct : (nodes.map Prod.fst).Nodup

structure EdgeAddition where
  sourceRef : WorkNodeRef
  newEdges : List WorkNodeRef

section

variable (graph : WorkGraph) (addition : EdgeAddition)

def WorkGraph.refs : List WorkNodeRef := graph.nodes.map Prod.fst

/-- `allDeps`, filled node by node. -/
def WorkGraph.depTable : DepTable := graph.nodes.map fun node => (nodeRefKey node.1, node.2)

def WorkGraph.resolvableNodeKeys : List String := graph.refs.map nodeRefKey

/-- The dependency relation. -/
def WorkGraph.Needs (node dep : WorkNodeRef) : Prop := ∃ deps, (node, deps) ∈ graph.nodes ∧ dep ∈ deps

def extendNode (node : WorkNodeRef × List WorkNodeRef) : WorkNodeRef × List WorkNodeRef :=
  if node.1 = addition.sourceRef then (node.1, node.2 ++ addition.newEdges) else node

theorem extendNode_refs (nodes : List (WorkNodeRef × List WorkNodeRef)) :
    (nodes.map (extendNode addition)).map Prod.fst = nodes.map Prod.fst := by
  rw [List.map_map]
  refine List.map_congr_left fun node _ => ?_
  simp only [Function.comp, extendNode]
  split <;> rfl

def extended : List (WorkNodeRef × List WorkNodeRef) :=
  if addition.sourceRef ∈ graph.refs then graph.nodes.map (extendNode addition)
  else graph.nodes ++ [(addition.sourceRef, addition.newEdges)]

theorem extended_distinct : ((extended graph addition).map Prod.fst).Nodup := by
  unfold extended
  split
  next => exact extendNode_refs addition graph.nodes ▸ graph.distinct
  next fresh =>
    rw [List.map_append, List.nodup_append]
    refine ⟨graph.distinct, List.nodup_singleton _, fun ref held other single same => fresh ?_⟩
    rw [List.mem_singleton.mp single] at same
    rw [← show ref = addition.sourceRef from same]
    exact held

/-- The graph with the new edges stored. -/
def WorkGraph.add : WorkGraph := ⟨extended graph addition, extended_distinct graph addition⟩

/-- Check an addition, and store it when it passes. -/
def addEdges : EdgeAddition → WorkGraph → Option EdgeValidationError × WorkGraph := fun addition graph =>
  match validateEdgeAdd addition.sourceRef addition.newEdges graph.depTable graph.resolvableNodeKeys with
  | none => (none, graph.add addition)
  | some error => (some error, graph)

/-- The nodes an addition brings into play: those stored, those named as dependencies and its own. -/
def inPlay : List WorkNodeRef :=
  graph.refs ++ graph.nodes.flatMap Prod.snd ++ addition.sourceRef :: addition.newEdges

def ToldApart : Prop :=
  ∀ left ∈ inPlay graph addition, ∀ right ∈ inPlay graph addition, nodeRefKey left = nodeRefKey right → left = right

/-- No self edge, no edge twice, no edge to a node that is not there, and no cycle. -/
def ValidAddition : Prop :=
  addition.sourceRef ∉ addition.newEdges ∧ addition.newEdges.Nodup ∧
    (∀ edge ∈ addition.newEdges, ¬ graph.Needs addition.sourceRef edge) ∧
    (∀ edge ∈ addition.newEdges, edge ∈ graph.refs) ∧ Acyclic (graph.add addition).Needs

end

def EdgesKept (step : Record WorkGraph EdgeAddition (Option EdgeValidationError)) : Prop :=
  Acyclic step.after.Needs ∧ (step.response = none ↔ ValidAddition step.before step.request)

section

variable {graph : WorkGraph} {addition : EdgeAddition}

/-! ## Nodes and their keys -/

theorem refs_inPlay {ref : WorkNodeRef} (member : ref ∈ graph.refs) : ref ∈ inPlay graph addition :=
  List.mem_append_left _ (List.mem_append_left _ member)

variable {node dep : WorkNodeRef}

theorem dep_inPlay (needs : graph.Needs node dep) : dep ∈ inPlay graph addition := by
  obtain ⟨deps, member, held⟩ := needs
  exact List.mem_append_left _ (List.mem_append_right _ (List.mem_flatMap.mpr ⟨_, member, held⟩))

theorem source_inPlay : addition.sourceRef ∈ inPlay graph addition :=
  List.mem_append_right _ List.mem_cons_self

theorem edge_inPlay {edge : WorkNodeRef} (member : edge ∈ addition.newEdges) : edge ∈ inPlay graph addition :=
  List.mem_append_right _ (List.mem_cons_of_mem _ member)

theorem Needs.stored (needs : graph.Needs node dep) : node ∈ graph.refs := by
  obtain ⟨deps, member, _⟩ := needs
  exact List.mem_map.mpr ⟨_, member, rfl⟩

theorem mem_getDeps_iff (told : ToldApart graph addition) (inside : node ∈ inPlay graph addition) :
    dep ∈ getDeps graph.depTable (nodeRefKey node) ↔ graph.Needs node dep := by
  have same : ∀ entry ∈ graph.nodes, nodeRefKey entry.1 = nodeRefKey node → entry.1 = node := fun entry member =>
    told entry.1 (refs_inPlay (List.mem_map_of_mem member)) node inside
  unfold getDeps WorkGraph.depTable
  rw [← List.map_reverse, List.find?_map]
  cases found : graph.nodes.reverse.find? ((fun entry => decide (entry.1 = nodeRefKey node)) ∘
      fun node => (nodeRefKey node.1, node.2)) with
  | none =>
    refine iff_of_false (fun member => by cases member) ?_
    rintro ⟨deps, member, _⟩
    have absent := List.find?_eq_none.mp found _ (List.mem_reverse.mpr member)
    simp at absent
  | some entry =>
    have member := List.mem_reverse.mp (List.mem_of_find?_eq_some found)
    have keyed : nodeRefKey entry.1 = nodeRefKey node := by simpa using List.find?_some found
    have owner := same entry member keyed
    constructor
    · intro held
      exact ⟨entry.2, by rw [← owner]; exact member, held⟩
    · rintro ⟨deps, other, held⟩
      have one := List.inj_on_of_nodup_map graph.distinct member other owner
      rw [one]
      exact held

theorem keyDep_iff (told : ToldApart graph addition) (key depKey : String) :
    KeyDep (getDeps graph.depTable) key depKey ↔
      ∃ node dep, nodeRefKey node = key ∧ nodeRefKey dep = depKey ∧ graph.Needs node dep := by
  constructor
  · intro edge
    obtain ⟨dep, held, rfl⟩ := List.mem_map.mp edge
    -- A key with dependencies is the key of a stored node.
    have stored : ∃ node ∈ graph.refs, nodeRefKey node = key := by
      unfold getDeps WorkGraph.depTable at held
      rw [← List.map_reverse, List.find?_map] at held
      cases found : graph.nodes.reverse.find? ((fun entry => decide (entry.1 = key)) ∘
          fun node => (nodeRefKey node.1, node.2)) with
      | none => rw [found] at held; cases held
      | some entry =>
        have member := List.mem_reverse.mp (List.mem_of_find?_eq_some found)
        exact ⟨entry.1, List.mem_map_of_mem member, by simpa using List.find?_some found⟩
    obtain ⟨node, member, rfl⟩ := stored
    exact ⟨node, dep, rfl, rfl, (mem_getDeps_iff told (refs_inPlay member)).mp held⟩
  · rintro ⟨node, dep, rfl, rfl, needs⟩
    exact List.mem_map_of_mem ((mem_getDeps_iff told (refs_inPlay (Needs.stored needs))).mpr needs)

/-! ## Storing an addition -/

theorem needs_add : (graph.add addition).Needs node dep ↔
      graph.Needs node dep ∨ (node = addition.sourceRef ∧ dep ∈ addition.newEdges) := by
  unfold WorkGraph.Needs WorkGraph.add extended
  simp only
  split
  next known =>
    constructor
    · rintro ⟨deps, member, held⟩
      obtain ⟨entry, stored, same⟩ := List.mem_map.mp member
      unfold extendNode at same
      split at same
      next source =>
        obtain ⟨rfl, rfl⟩ := Prod.mk.inj same
        cases List.mem_append.mp held with
        | inl old => exact .inl ⟨entry.2, stored, old⟩
        | inr new => exact .inr ⟨source, new⟩
      next =>
        subst same
        exact .inl ⟨deps, stored, held⟩
    · rintro (⟨deps, stored, held⟩ | ⟨rfl, held⟩)
      · have kept : extendNode addition (node, deps) = (node, (extendNode addition (node, deps)).2) := by
          unfold extendNode
          split <;> rfl
        refine ⟨_, List.mem_map.mpr ⟨(node, deps), stored, kept⟩, ?_⟩
        unfold extendNode
        split
        · exact List.mem_append_left _ held
        · exact held
      · obtain ⟨entry, stored, source⟩ := List.mem_map.mp known
        refine ⟨entry.2 ++ addition.newEdges, List.mem_map.mpr ⟨entry, stored, ?_⟩, List.mem_append_right _ held⟩
        rw [extendNode, if_pos source, source]
  next fresh =>
    constructor
    · rintro ⟨deps, member, held⟩
      cases List.mem_append.mp member with
      | inl old => exact .inl ⟨deps, old, held⟩
      | inr new =>
        obtain ⟨rfl, rfl⟩ := Prod.mk.inj (List.mem_singleton.mp new)
        exact .inr ⟨rfl, held⟩
    · rintro (⟨deps, stored, held⟩ | ⟨rfl, held⟩)
      · exact ⟨deps, List.mem_append_left _ stored, held⟩
      · exact ⟨addition.newEdges, List.mem_append_right _ (List.mem_singleton.mpr rfl), held⟩

theorem keyDep_add (told : ToldApart graph addition) (key depKey : String) :
    KeyDep (tempDeps addition.sourceRef addition.newEdges graph.depTable) key depKey ↔
      ∃ node dep, nodeRefKey node = key ∧ nodeRefKey dep = depKey ∧ (graph.add addition).Needs node dep := by
  have split : KeyDep (tempDeps addition.sourceRef addition.newEdges graph.depTable) key depKey ↔
      KeyDep (getDeps graph.depTable) key depKey ∨
        (key = nodeRefKey addition.sourceRef ∧ depKey ∈ addition.newEdges.map nodeRefKey) := by
    unfold KeyDep tempDeps
    split
    next here => simp [here]
    next elsewhere => simp [elsewhere]
  rw [split, keyDep_iff told]
  simp only [needs_add]
  constructor
  · rintro (⟨node, dep, rfl, rfl, needs⟩ | ⟨rfl, new⟩)
    · exact ⟨node, dep, rfl, rfl, .inl needs⟩
    · obtain ⟨dep, member, rfl⟩ := List.mem_map.mp new
      exact ⟨_, dep, rfl, rfl, .inr ⟨rfl, member⟩⟩
  · rintro ⟨node, dep, rfl, rfl, needs | ⟨rfl, member⟩⟩
    · exact .inl ⟨node, dep, rfl, rfl, needs⟩
    · exact .inr ⟨rfl, List.mem_map_of_mem member⟩

theorem needs_add_inPlay (needs : (graph.add addition).Needs node dep) :
    node ∈ inPlay graph addition ∧ dep ∈ inPlay graph addition := by
  cases needs_add.mp needs with
  | inl old => exact ⟨refs_inPlay (Needs.stored old), dep_inPlay old⟩
  | inr new => exact ⟨new.1 ▸ source_inPlay, edge_inPlay new.2⟩

theorem acyclic_keys_iff (told : ToldApart graph addition) :
    Acyclic graph.Needs ↔ Acyclic (KeyDep (getDeps graph.depTable)) :=
  acyclic_keyed_iff (keyDep_iff told) fun _ b c _ first second same =>
    told b (dep_inPlay first) c (refs_inPlay (Needs.stored second)) same

theorem acyclic_add_iff (told : ToldApart graph addition) : Acyclic (graph.add addition).Needs ↔
      Acyclic (KeyDep (tempDeps addition.sourceRef addition.newEdges graph.depTable)) :=
  acyclic_keyed_iff (keyDep_add told) fun _ b c _ first second same =>
    told b (needs_add_inPlay first).2 c (needs_add_inPlay second).1 same

/-! ## One addition -/

theorem accepted_iff_valid (told : ToldApart graph addition) (acyclic : Acyclic graph.Needs) :
    validateEdgeAdd addition.sourceRef addition.newEdges graph.depTable graph.resolvableNodeKeys = none ↔
      ValidAddition graph addition := by
  rw [validateEdgeAdd_none_iff ((acyclic_keys_iff told).mp acyclic), ← acyclic_add_iff told]
  have keyed : ∀ {left right : WorkNodeRef}, left ∈ inPlay graph addition → right ∈ inPlay graph addition →
      (nodeRefKey left = nodeRefKey right ↔ left = right) :=
    fun here there => ⟨told _ here _ there, congrArg nodeRefKey⟩
  constructor
  · rintro (none | ⟨self, distinct, fresh, resolved, cycles⟩)
    · refine ⟨by simp [none], by simp [none], by simp [none], by simp [none], ?_⟩
      have same : ∀ node dep, (graph.add addition).Needs node dep → graph.Needs node dep := by
        intro node dep needs
        exact (needs_add.mp needs).elim id fun new => by simp [none] at new
      exact acyclic_mono acyclic same
    · refine ⟨fun member => self _ member rfl, distinct.of_map _, fun edge member needs => ?_, fun edge member => ?_, cycles⟩
      · exact fresh edge member edge ((mem_getDeps_iff told source_inPlay).mpr needs) rfl
      · obtain ⟨ref, stored, same⟩ := List.mem_map.mp (resolved edge member)
        exact (keyed (refs_inPlay stored) (edge_inPlay member)).mp same ▸ stored
  · rintro ⟨self, distinct, fresh, resolved, cycles⟩
    refine .inr ⟨fun edge member same => ?_, ?_, fun edge member dep held same => ?_, fun edge member => ?_, cycles⟩
    · exact self ((keyed (edge_inPlay member) source_inPlay).mp same ▸ member)
    · refine List.Nodup.map_on (fun left here right there same => ?_) distinct
      exact (keyed (edge_inPlay here) (edge_inPlay there)).mp same
    · have needs := (mem_getDeps_iff told source_inPlay).mp held
      exact fresh edge member ((keyed (dep_inPlay needs) (edge_inPlay member)).mp same ▸ needs)
    · exact List.mem_map_of_mem (resolved edge member)

theorem addEdges_kept (told : ToldApart graph addition) (acyclic : Acyclic graph.Needs) :
    EdgesKept (recordOf addEdges addition graph) := by
  have accepted := accepted_iff_valid told acyclic
  unfold EdgesKept
  simp only [recordOf, addEdges]
  split
  next passed => exact ⟨(accepted.mp passed).2.2.2.2, iff_of_true rfl (accepted.mp passed)⟩
  next error refused =>
    refine ⟨acyclic, iff_of_false (fun impossible => by cases impossible) fun valid => ?_⟩
    rw [accepted.mpr valid] at refused
    cases refused

/-! ## Runs -/

/-- In every run of additions over an acyclic graph, while keys tell the nodes in play apart, the graph stays
    acyclic and exactly the valid additions are accepted. -/
theorem edges_kept (additions : List EdgeAddition) (acyclic : Acyclic graph.Needs)
    (told : ∀ step ∈ trace addEdges additions graph, ToldApart step.before step.request) :
    ∀ step ∈ trace addEdges additions graph, EdgesKept step := by
  have held := (trace_guarded (P := fun graph => Acyclic graph.Needs)
    (fun addition graph apart acyclic => (addEdges_kept apart acyclic).1) told acyclic).1
  intro step member
  have kept := addEdges_kept (told step member) (held step member).1
  rwa [← trace_step member] at kept

end

/-! ## Fixed graphs -/

def slashedGraph : WorkGraph := ⟨[(.epicEntry "a/b" "c", [])], List.nodup_singleton _⟩

/-- An entry `b/c` of an Epic `a` is to depend on the stored entry `c` of an Epic `a/b`. -/
def slashedAddition : EdgeAddition := ⟨.epicEntry "a" "b/c", [.epicEntry "a/b" "c"]⟩

theorem slashed_needs {node dep : WorkNodeRef} (needs : (slashedGraph.add slashedAddition).Needs node dep) :
    node = .epicEntry "a" "b/c" ∧ dep = .epicEntry "a/b" "c" := by
  cases needs_add.mp needs with
  | inl old =>
    obtain ⟨deps, member, held⟩ := old
    obtain ⟨_, rfl⟩ := Prod.mk.inj (List.mem_singleton.mp member)
    cases held
  | inr new => exact ⟨new.1, List.mem_singleton.mp new.2⟩

/-- The addition is valid and refused as a self edge: the two entries have one key. -/
theorem slashed_refused : ¬ ∀ step ∈ trace addEdges [slashedAddition] slashedGraph, EdgesKept step := by
  intro kept
  have step := (kept _ List.mem_cons_self).2
  have refused : (addEdges slashedAddition slashedGraph).1 ≠ none := by decide
  refine refused (step.mpr ⟨by decide, by decide, ?_, by decide, ?_⟩)
  · rintro edge _ ⟨deps, member, held⟩
    obtain ⟨_, rfl⟩ := Prod.mk.inj (List.mem_singleton.mp member)
    cases held
  · intro node cycle
    obtain ⟨_, first, _⟩ := TransGen.head'_iff.mp cycle
    obtain ⟨_, _, last⟩ := TransGen.tail'_iff.mp cycle
    have ends := (slashed_needs first).1.symm.trans (slashed_needs last).2
    exact absurd ends (by decide)

def plainGraph : WorkGraph := ⟨[(.epicEntry "a" "one", [])], List.nodup_singleton _⟩

def plainAddition : EdgeAddition := ⟨.epicEntry "a" "two", [.epicEntry "a" "one"]⟩

theorem plain_kept : EdgesKept (recordOf addEdges plainAddition plainGraph) := by
  have none : Acyclic plainGraph.Needs := by
    intro node cycle
    obtain ⟨_, ⟨deps, member, held⟩, _⟩ := TransGen.head'_iff.mp cycle
    obtain ⟨_, rfl⟩ := Prod.mk.inj (List.mem_singleton.mp member)
    cases held
  refine edges_kept [plainAddition] none (fun step member => ?_) _ List.mem_cons_self
  obtain rfl := List.mem_singleton.mp member
  have told : ∀ left ∈ inPlay plainGraph plainAddition, ∀ right ∈ inPlay plainGraph plainAddition,
      nodeRefKey left = nodeRefKey right → left = right := by decide
  exact told

end Advance.Validator
