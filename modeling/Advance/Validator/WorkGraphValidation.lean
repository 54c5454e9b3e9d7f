import Advance.Validator.CycleExact
import Advance.Validator.NodeKeys

/-! # Validating new dependency edges

The pre-flight check of every mutation that adds edges: no self-edge, no repeated
reference, no unresolved target, no cycle.
-/

namespace Advance.Validator

open Foundation Relation Types

inductive InvalidRefReason where
  | selfEdge
  | duplicateRef
  | malformed
  deriving DecidableEq

inductive EdgeValidationError where
  | invalidWorkNodeRef (reason : InvalidRefReason) (ref : Option WorkNodeRef)
  | unresolvedDependency (ref : WorkNodeRef)
  | dependencyCycle (cyclePath : List WorkNodeRef)
  deriving DecidableEq

/-- A map from keys to dependencies, in the order it was filled. -/
abbrev DepTable := List (String × List WorkNodeRef)

/-- `allDeps.get(key) ?? []`: the last value set under the key. -/
def getDeps (table : DepTable) (key : String) : List WorkNodeRef :=
  ((table.reverse.find? fun entry => entry.1 = key).map Prod.snd).getD []

/-- The first reference whose key came before. -/
def firstRepeated (seen : List String) : List WorkNodeRef → Option WorkNodeRef
  | [] => none
  | edge :: rest => if nodeRefKey edge ∈ seen then some edge else firstRepeated (nodeRefKey edge :: seen) rest

/-- The nodes collected so far, and those whose dependencies are to be followed. -/
structure Collection where
  allNodes : List WorkNodeRef
  queue : List WorkNodeRef

/-- `addIfNew`, and a place in the queue for a new node. -/
def Collection.push (collection : Collection) (dep : WorkNodeRef) : Collection :=
  if nodeRefKey dep ∈ collection.allNodes.map nodeRefKey then collection
  else ⟨collection.allNodes ++ [dep], collection.queue ++ [dep]⟩

def collectStep (deps : String → List WorkNodeRef) (collection : Collection) : Collection :=
  match collection.queue with
  | [] => collection
  | current :: rest => (deps (nodeRefKey current)).foldl Collection.push { collection with queue := rest }

section

variable (sourceRef : WorkNodeRef) (newEdges : List WorkNodeRef) (table : DepTable)

def tempDeps (key : String) : List WorkNodeRef :=
  if key = nodeRefKey sourceRef then getDeps table (nodeRefKey sourceRef) ++ newEdges else getDeps table key

/-- Every reference that can be collected. -/
def collectable : List WorkNodeRef := sourceRef :: newEdges ++ table.flatMap Prod.snd

/-- The nodes reachable from the source; a turn for each reference that can be collected is enough. -/
def collectNodes : List WorkNodeRef :=
  ((collectStep (tempDeps sourceRef newEdges table))^[(collectable sourceRef newEdges table).length]
    ((newEdges ++ getDeps table (nodeRefKey sourceRef)).foldl Collection.push ⟨[sourceRef], [sourceRef]⟩)).allNodes

def validateEdgeAdd (resolvableNodeKeys : List String) : Option EdgeValidationError :=
  if newEdges.length = 0 then none
  else
    let existingDeps := getDeps table (nodeRefKey sourceRef)
    match newEdges.find? fun edge => refEquals edge sourceRef with
    | some edge => some (.invalidWorkNodeRef .selfEdge edge)
    | none =>
      match firstRepeated [] newEdges with
      | some edge => some (.invalidWorkNodeRef .duplicateRef edge)
      | none =>
        match newEdges.find? fun edge => existingDeps.any fun dep => nodeRefKey dep = nodeRefKey edge with
        | some edge => some (.invalidWorkNodeRef .duplicateRef edge)
        | none =>
          match newEdges.find? fun edge => nodeRefKey edge ∉ resolvableNodeKeys with
          | some edge => some (.unresolvedDependency edge)
          | none =>
            match (detectCycles (collectNodes sourceRef newEdges table)
              (fun ref => tempDeps sourceRef newEdges table (nodeRefKey ref)) nodeRefKey).cycles with
            | [] => none
            | cycle :: _ => some (.dependencyCycle cycle)

end

/-- One key depends on another. -/
def KeyDep (deps : String → List WorkNodeRef) (key depKey : String) : Prop := depKey ∈ (deps key).map nodeRefKey

/-! ## Collecting -/

/-- What a collection keeps: distinct keys, nothing from outside, and a node either waits or had its
    dependencies collected. -/
structure Collecting (deps : String → List WorkNodeRef) (possible : List String) (collection : Collection) : Prop where
  distinct : (collection.allNodes.map nodeRefKey).Nodup
  inside : ∀ key ∈ collection.allNodes.map nodeRefKey, key ∈ possible
  followed : ∀ node ∈ collection.allNodes, node ∈ collection.queue ∨
    ∀ dep ∈ deps (nodeRefKey node), nodeRefKey dep ∈ collection.allNodes.map nodeRefKey

theorem push_allNodes (collection : Collection) (dep : WorkNodeRef) :
    nodeRefKey dep ∈ (collection.push dep).allNodes.map nodeRefKey ∧
      ∀ node ∈ collection.allNodes, node ∈ (collection.push dep).allNodes := by
  unfold Collection.push
  split
  next held => exact ⟨held, fun _ member => member⟩
  next => exact ⟨by simp, fun _ member => List.mem_append_left _ member⟩

theorem pushAll_allNodes (added : List WorkNodeRef) (collection : Collection) :
    (∀ dep ∈ added, nodeRefKey dep ∈ (added.foldl Collection.push collection).allNodes.map nodeRefKey) ∧
      ∀ node ∈ collection.allNodes, node ∈ (added.foldl Collection.push collection).allNodes := by
  induction added generalizing collection with
  | nil => exact ⟨fun _ member => absurd member List.not_mem_nil, fun _ member => member⟩
  | cons first rest ih =>
    obtain ⟨here, kept⟩ := push_allNodes collection first
    obtain ⟨others, later⟩ := ih (collection.push first)
    refine ⟨fun dep member => ?_, fun node member => later node (kept node member)⟩
    cases List.mem_cons.mp member with
    | inl same =>
      obtain ⟨node, held, keyed⟩ := List.mem_map.mp here
      exact List.mem_map.mpr ⟨node, later node held, keyed.trans (congrArg nodeRefKey same.symm)⟩
    | inr member => exact others dep member

variable {deps : String → List WorkNodeRef} {possible : List String} {collection : Collection}

theorem Collecting.push (collecting : Collecting deps possible collection) {dep : WorkNodeRef}
    (could : nodeRefKey dep ∈ possible) : Collecting deps possible (collection.push dep) := by
  unfold Collection.push
  split
  next => exact collecting
  next fresh =>
    refine ⟨?_, fun key member => ?_, fun node member => ?_⟩
    · rw [List.map_append, List.nodup_append]
      refine ⟨collecting.distinct, List.nodup_singleton _, fun key held other single same => fresh ?_⟩
      rwa [← List.mem_singleton.mp single, ← same]
    · rw [List.map_append] at member
      cases List.mem_append.mp member with
      | inl old => exact collecting.inside key old
      | inr new => exact List.mem_singleton.mp new ▸ could
    · cases List.mem_append.mp member with
      | inl old =>
        cases collecting.followed node old with
        | inl waits => exact .inl (List.mem_append_left _ waits)
        | inr done =>
          refine .inr fun other edge => ?_
          rw [List.map_append]
          exact List.mem_append_left _ (done other edge)
      | inr new => exact .inl (List.mem_append_right _ new)

theorem Collecting.pushAll {added : List WorkNodeRef} (collecting : Collecting deps possible collection)
    (could : ∀ dep ∈ added, nodeRefKey dep ∈ possible) :
    Collecting deps possible (added.foldl Collection.push collection) := by
  induction added generalizing collection with
  | nil => exact collecting
  | cons first rest ih =>
    exact ih (collecting.push (could first List.mem_cons_self)) fun dep member =>
      could dep (List.mem_cons_of_mem _ member)

theorem collectStep_collecting (could : ∀ key, ∀ dep ∈ deps key, nodeRefKey dep ∈ possible)
    (collecting : Collecting deps possible collection) : Collecting deps possible (collectStep deps collection) := by
  unfold collectStep
  split
  next => exact collecting
  next current rest queued =>
    -- The current node leaves the queue before its dependencies are pushed, so its own clause is proved last.
    have held := (pushAll_allNodes (deps (nodeRefKey current)) { collection with queue := rest }).1
    have others : Collecting (fun key => if key = nodeRefKey current then [] else deps key) possible
        { collection with queue := rest } := by
      refine ⟨collecting.distinct, collecting.inside, fun node member => ?_⟩
      by_cases same : nodeRefKey node = nodeRefKey current
      · exact .inr fun dep edge => by simp [same] at edge
      · cases collecting.followed node member with
        | inl waits =>
          rw [queued] at waits
          cases List.mem_cons.mp waits with
          | inl here => exact absurd (congrArg nodeRefKey here) same
          | inr later => exact .inl later
        | inr done => exact .inr (by simpa [same] using done)
    have pushed := others.pushAll (could (nodeRefKey current))
    refine ⟨pushed.distinct, pushed.inside, fun node member => ?_⟩
    by_cases same : nodeRefKey node = nodeRefKey current
    · exact .inr (by rw [same]; exact held)
    · exact (pushed.followed node member).imp_right fun done => by simpa [same] using done

theorem push_followed (collection : Collection) (dep : WorkNodeRef) :
    (collection.push dep).allNodes.length + collection.queue.length =
      collection.allNodes.length + (collection.push dep).queue.length := by
  unfold Collection.push
  split
  · rfl
  · simp only [List.length_append, List.length_singleton]
    omega

theorem pushAll_followed (added : List WorkNodeRef) (collection : Collection) :
    (added.foldl Collection.push collection).allNodes.length + collection.queue.length =
      collection.allNodes.length + (added.foldl Collection.push collection).queue.length := by
  induction added generalizing collection with
  | nil => rfl
  | cons first rest ih =>
    have here := push_followed collection first
    have later := ih (collection.push first)
    rw [List.foldl_cons]
    omega

theorem collect_turns (could : ∀ key, ∀ dep ∈ deps key, nodeRefKey dep ∈ possible)
    (collecting : Collecting deps possible collection) (turns : Nat) :
    Collecting deps possible ((collectStep deps)^[turns] collection) ∧
      (((collectStep deps)^[turns] collection).queue = [] ∨
        collection.allNodes.length + turns + ((collectStep deps)^[turns] collection).queue.length =
          ((collectStep deps)^[turns] collection).allNodes.length + collection.queue.length) := by
  induction turns with
  | zero => exact ⟨collecting, .inr rfl⟩
  | succ turns ih =>
    obtain ⟨kept, progress⟩ := ih
    rw [Function.iterate_succ_apply']
    refine ⟨collectStep_collecting could kept, ?_⟩
    generalize (collectStep deps)^[turns] collection = state at progress
    cases queued : state.queue with
    | nil =>
      rw [collectStep, queued]
      exact .inl queued
    | cons current rest =>
      have before := progress.resolve_left (by simp [queued])
      have followed := pushAll_followed (deps (nodeRefKey current)) { state with queue := rest }
      rw [queued, List.length_cons] at before
      rw [collectStep, queued]
      simp only at followed ⊢
      exact .inr (by omega)

theorem collectStep_keeps (deps : String → List WorkNodeRef) (collection : Collection) (turns : Nat) :
    ∀ node ∈ collection.allNodes, node ∈ ((collectStep deps)^[turns] collection).allNodes := by
  induction turns with
  | zero => exact fun _ member => member
  | succ turns ih =>
    intro node member
    have held := ih node member
    rw [Function.iterate_succ_apply']
    generalize (collectStep deps)^[turns] collection = state at held
    unfold collectStep
    split
    next => exact held
    next => exact (pushAll_allNodes _ _).2 node held

section

variable {sourceRef : WorkNodeRef} {newEdges : List WorkNodeRef} {table : DepTable}

theorem mem_getDeps {key : String} {dep : WorkNodeRef} (member : dep ∈ getDeps table key) :
    dep ∈ table.flatMap Prod.snd := by
  unfold getDeps at member
  cases found : table.reverse.find? fun entry => entry.1 = key with
  | none => rw [found] at member; cases member
  | some entry =>
    rw [found] at member
    exact List.mem_flatMap.mpr ⟨entry, List.mem_reverse.mp (List.mem_of_find?_eq_some found), member⟩

theorem mem_tempDeps {key : String} {dep : WorkNodeRef} (member : dep ∈ tempDeps sourceRef newEdges table key) :
    dep ∈ collectable sourceRef newEdges table := by
  unfold tempDeps at member
  unfold collectable
  split at member
  · cases List.mem_append.mp member with
    | inl old => exact List.mem_append_right _ (mem_getDeps old)
    | inr new => exact List.mem_append_left _ (List.mem_cons_of_mem _ new)
  · exact List.mem_append_right _ (mem_getDeps member)

theorem collectNodes_closed : ((collectNodes sourceRef newEdges table).map nodeRefKey).Nodup ∧
      sourceRef ∈ collectNodes sourceRef newEdges table ∧
      ∀ node ∈ collectNodes sourceRef newEdges table, ∀ dep ∈ tempDeps sourceRef newEdges table (nodeRefKey node),
        nodeRefKey dep ∈ (collectNodes sourceRef newEdges table).map nodeRefKey := by
  have start : Collecting (tempDeps sourceRef newEdges table)
      ((collectable sourceRef newEdges table).map nodeRefKey) ⟨[sourceRef], [sourceRef]⟩ := by
    refine ⟨List.nodup_singleton _, fun key member => ?_, fun node member => .inl member⟩
    rw [List.map_singleton, List.mem_singleton] at member
    exact member ▸ List.mem_map_of_mem List.mem_cons_self
  have could : ∀ dep ∈ newEdges ++ getDeps table (nodeRefKey sourceRef),
      nodeRefKey dep ∈ (collectable sourceRef newEdges table).map nodeRefKey := by
    intro dep member
    have edge : dep ∈ tempDeps sourceRef newEdges table (nodeRefKey sourceRef) := by
      rw [tempDeps, if_pos rfl, List.mem_append]
      exact (List.mem_append.mp member).symm
    exact List.mem_map_of_mem (mem_tempDeps edge)
  have first := start.pushAll could
  obtain ⟨collecting, progress⟩ := collect_turns (fun key dep member => List.mem_map_of_mem (mem_tempDeps member))
    first (collectable sourceRef newEdges table).length
  have kept := (pushAll_allNodes (newEdges ++ getDeps table (nodeRefKey sourceRef)) ⟨[sourceRef], [sourceRef]⟩).2
    sourceRef List.mem_cons_self
  refine ⟨collecting.distinct, collectStep_keeps _ _ _ sourceRef kept, fun node member => ?_⟩
  have few := (collecting.distinct.subperm collecting.inside).length_le
  simp only [List.length_map] at few
  have even := pushAll_followed (newEdges ++ getDeps table (nodeRefKey sourceRef)) ⟨[sourceRef], [sourceRef]⟩
  simp only [List.length_singleton] at even
  have empty := progress.elim id fun counted => List.length_eq_zero_iff.mp (by omega)
  have followed := collecting.followed node member
  rw [empty] at followed
  exact followed.resolve_left List.not_mem_nil

/-! ## The cycle check -/

theorem dependsOn_collected {key depKey : String} :
    DependsOn (collectNodes sourceRef newEdges table) (fun ref => tempDeps sourceRef newEdges table (nodeRefKey ref))
      nodeRefKey key depKey ↔ key ∈ (collectNodes sourceRef newEdges table).map nodeRefKey ∧
        KeyDep (tempDeps sourceRef newEdges table) key depKey := by
  constructor
  · intro edge
    have listed := edge.listed.1
    obtain ⟨node, _, rfl, held⟩ := edge
    exact ⟨listed, (mem_resolveDepKeys.mp held).1⟩
  · rintro ⟨listed, edge⟩
    obtain ⟨node, member, rfl⟩ := List.mem_map.mp listed
    refine ⟨node, member, rfl, mem_resolveDepKeys.mpr ⟨edge, ?_⟩⟩
    obtain ⟨dep, held, rfl⟩ := List.mem_map.mp edge
    exact collectNodes_closed.2.2 node member dep held

theorem old_or_through {key last : String} (path : TransGen (KeyDep (tempDeps sourceRef newEdges table)) key last) :
    TransGen (KeyDep (getDeps table)) key last ∨
      (ReflTransGen (KeyDep (tempDeps sourceRef newEdges table)) key (nodeRefKey sourceRef) ∧
        TransGen (KeyDep (tempDeps sourceRef newEdges table)) (nodeRefKey sourceRef) last) := by
  have old : ∀ {middle next : String}, middle ≠ nodeRefKey sourceRef →
      KeyDep (tempDeps sourceRef newEdges table) middle next → KeyDep (getDeps table) middle next := by
    intro middle next differs edge
    rwa [KeyDep, tempDeps, if_neg differs] at edge
  induction path with
  | single edge =>
    by_cases here : key = nodeRefKey sourceRef
    · subst here
      exact .inr ⟨.refl, .single edge⟩
    · exact .inl (.single (old here edge))
  | @tail middle last path edge ih =>
    by_cases here : middle = nodeRefKey sourceRef
    · subst here
      exact .inr ⟨path.to_reflTransGen, .single edge⟩
    · exact ih.imp (fun before => before.tail (old here edge)) fun through => ⟨through.1, through.2.tail edge⟩

theorem acyclic_collected_iff (acyclic : Acyclic (KeyDep (getDeps table))) :
    Acyclic (DependsOn (collectNodes sourceRef newEdges table)
      (fun ref => tempDeps sourceRef newEdges table (nodeRefKey ref)) nodeRefKey) ↔
      Acyclic (KeyDep (tempDeps sourceRef newEdges table)) := by
  constructor
  · intro collected key cycle
    have inside : ∀ {last : String}, TransGen (KeyDep (tempDeps sourceRef newEdges table)) (nodeRefKey sourceRef) last →
        TransGen (DependsOn (collectNodes sourceRef newEdges table)
          (fun ref => tempDeps sourceRef newEdges table (nodeRefKey ref)) nodeRefKey) (nodeRefKey sourceRef) last := by
      intro last path
      induction path with
      | single edge =>
        exact .single (dependsOn_collected.mpr ⟨List.mem_map_of_mem collectNodes_closed.2.1, edge⟩)
      | tail _ edge ih =>
        obtain ⟨_, _, last⟩ := TransGen.tail'_iff.mp ih
        exact ih.tail (dependsOn_collected.mpr ⟨last.listed.2, edge⟩)
    cases old_or_through cycle with
    | inl old => exact acyclic key old
    | inr through => exact collected _ (inside (through.2.trans_left through.1))
  · intro extended
    exact acyclic_mono extended fun key depKey edge => (dependsOn_collected.mp edge).2

theorem firstRepeated_none {seen : List String} {edges : List WorkNodeRef} :
    firstRepeated seen edges = none ↔ (edges.map nodeRefKey).Nodup ∧ ∀ edge ∈ edges, nodeRefKey edge ∉ seen := by
  induction edges generalizing seen with
  | nil => simp [firstRepeated]
  | cons first rest ih =>
    unfold firstRepeated
    split
    next held => simp [held]
    next fresh =>
      rw [ih, List.map_cons, List.nodup_cons]
      constructor
      · rintro ⟨distinct, apart⟩
        refine ⟨⟨fun member => ?_, distinct⟩, fun edge member => ?_⟩
        · obtain ⟨later, held, same⟩ := List.mem_map.mp member
          exact apart later held (same ▸ List.mem_cons_self)
        · cases List.mem_cons.mp member with
          | inl here => exact here ▸ fresh
          | inr later => exact fun held => apart edge later (List.mem_cons_of_mem _ held)
      · rintro ⟨⟨apart, distinct⟩, unseen⟩
        refine ⟨distinct, fun edge member held => ?_⟩
        cases List.mem_cons.mp held with
        | inl same => exact apart (same ▸ List.mem_map_of_mem member)
        | inr old => exact unseen edge (List.mem_cons_of_mem _ member) old

/-- Over an acyclic relation the check passes just if no key is wrong and no cycle appears. -/
theorem validateEdgeAdd_none_iff {resolvableNodeKeys : List String} (acyclic : Acyclic (KeyDep (getDeps table))) :
    validateEdgeAdd sourceRef newEdges table resolvableNodeKeys = none ↔ newEdges = [] ∨
      ((∀ edge ∈ newEdges, nodeRefKey edge ≠ nodeRefKey sourceRef) ∧ (newEdges.map nodeRefKey).Nodup ∧
        (∀ edge ∈ newEdges, ∀ dep ∈ getDeps table (nodeRefKey sourceRef), nodeRefKey dep ≠ nodeRefKey edge) ∧
        (∀ edge ∈ newEdges, nodeRefKey edge ∈ resolvableNodeKeys) ∧
        Acyclic (KeyDep (tempDeps sourceRef newEdges table))) := by
  unfold validateEdgeAdd
  by_cases none : newEdges = []
  · simp [none]
  rw [if_neg (fun empty => none (List.length_eq_zero_iff.mp empty)), or_iff_right none]
  simp only
  split
  next edge self =>
    have same := List.find?_some self
    simp only [refEquals, decide_eq_true_eq] at same
    refine iff_of_false nofun fun valid => ?_
    exact valid.1 edge (List.mem_of_find?_eq_some self) same
  next noSelf =>
    split
    next edge repeated =>
      refine iff_of_false nofun fun valid => ?_
      rw [firstRepeated_none.mpr ⟨valid.2.1, fun _ _ => List.not_mem_nil⟩] at repeated
      cases repeated
    next distinct =>
      split
      next edge known =>
        refine iff_of_false nofun fun valid => ?_
        have some := List.find?_some known
        simp only [List.any_eq_true] at some
        obtain ⟨dep, held, same⟩ := some
        exact valid.2.2.1 edge (List.mem_of_find?_eq_some known) dep held (of_decide_eq_true same)
      next fresh =>
        split
        next edge missing =>
          refine iff_of_false nofun fun valid => ?_
          have unresolved := List.find?_some missing
          simp only [decide_eq_true_eq] at unresolved
          exact unresolved (valid.2.2.2.1 edge (List.mem_of_find?_eq_some missing))
        next resolved =>
          have decided := @cycles_nil_iff _ _ _ _ (fun ref => tempDeps sourceRef newEdges table (nodeRefKey ref)) _
            (@collectNodes_closed sourceRef newEdges table).1
          rw [acyclic_collected_iff acyclic] at decided
          split
          next empty =>
            refine iff_of_true rfl ⟨fun edge member => ?_, (firstRepeated_none.mp distinct).1,
              fun edge member dep held => ?_, fun edge member => ?_, decided.mp empty⟩
            · simpa [refEquals] using List.find?_eq_none.mp noSelf edge member
            · have apart := List.find?_eq_none.mp fresh edge member
              simp only [List.any_eq_true, not_exists, not_and, decide_eq_true_eq] at apart
              exact apart dep held
            · simpa using List.find?_eq_none.mp resolved edge member
          next cycle _ reported =>
            refine iff_of_false nofun fun valid => ?_
            rw [decided.mpr valid.2.2.2.2] at reported
            cases reported

end

end Advance.Validator
