import Mathlib.Algebra.Order.BigOperators.Group.List
import Mathlib.Algebra.Order.Group.Nat
import Mathlib.Data.List.Chain
import Advance.Validator.CycleKahn

/-! # What the depth-first search reports

The frames of the stack are a path of edges; a node that was left without a report
has dependencies that bottom out.
-/

namespace Advance.Validator

open Relation

section

variable {T K : Type} [DecidableEq K]
variable (nodes : List T) (getDeps : T → List T) (getKey : T → K)

/-- The second node is a dependency of the first. -/
def IsEdge (node dep : T) : Prop := getKey dep ∈ resolveDepKeys nodes getDeps getKey node

/-- A path of listed nodes along edges that ends where it starts. -/
def ClosedCycle (path : List T) : Prop :=
  ∃ first middle, path = first :: middle ++ [first] ∧ (∀ node ∈ path, node ∈ nodes) ∧
    path.IsChain (IsEdge nodes getDeps getKey)

/-- Each dependency of a frame's node is to be looked at, bottoms out, or is the frame above. -/
def Pending : Option K → List (StackFrame T K) → Prop
  | _, [] => True
  | above, frame :: below =>
    (∀ depKey ∈ resolveDepKeys nodes getDeps getKey frame.node, depKey ∈ frame.depKeys ∨
      Acc (flip (DependsOn nodes getDeps getKey)) depKey ∨ above = some depKey) ∧
    Pending (some frame.key) below

structure FrameOk (visited : List K) (frame : StackFrame T K) : Prop where
  listed : frame.node ∈ nodes
  keyed : frame.key = getKey frame.node
  edges : ∀ depKey ∈ frame.depKeys, depKey ∈ resolveDepKeys nodes getDeps getKey frame.node
  seen : frame.key ∈ visited

structure SearchInvariant (above : Option K) (state : SearchState T K) : Prop where
  path : state.path = (state.stack.map StackFrame.node).reverse
  recStack : ∀ key, key ∈ state.recStack ↔ key ∈ state.stack.map StackFrame.key
  frames : ∀ frame ∈ state.stack, FrameOk nodes getDeps getKey state.visited frame
  distinct : (state.stack.map StackFrame.key).Nodup
  linked : (state.stack.map StackFrame.node).IsChain fun upper lower => IsEdge nodes getDeps getKey lower upper
  cycles : ∀ cycle ∈ state.cycles, ClosedCycle nodes getDeps getKey cycle
  left : state.cycles = [] → ∀ key ∈ state.visited, key ∈ state.stack.map StackFrame.key ∨
    Acc (flip (DependsOn nodes getDeps getKey)) key
  pending : state.cycles = [] → Pending nodes getDeps getKey above state.stack

end

section

variable {T K : Type} [DecidableEq K]
variable {nodes : List T} {getDeps : T → List T} {getKey : T → K}

/-! ## Closed paths -/

theorem IsEdge.dependsOn {node dep : T} (member : node ∈ nodes) (edge : IsEdge nodes getDeps getKey node dep) :
    DependsOn nodes getDeps getKey (getKey node) (getKey dep) := ⟨node, member, rfl, edge⟩

theorem transGen_of_chain {first last : T} {middle : List T}
    (listed : ∀ node ∈ first :: middle ++ [last], node ∈ nodes)
    (chain : (first :: middle ++ [last]).IsChain (IsEdge nodes getDeps getKey)) :
    TransGen (DependsOn nodes getDeps getKey) (getKey first) (getKey last) := by
  induction middle generalizing first with
  | nil =>
    have edge := (List.isChain_cons_cons.mp chain).1
    exact .single (edge.dependsOn (listed first (by simp)))
  | cons next middle ih =>
    obtain ⟨edge, rest⟩ := List.isChain_cons_cons.mp chain
    refine .head (edge.dependsOn (listed first (by simp))) (ih (fun node member => listed node ?_) rest)
    exact List.mem_cons_of_mem _ member

theorem ClosedCycle.cycle {path : List T} (closed : ClosedCycle nodes getDeps getKey path) :
    ∃ key, TransGen (DependsOn nodes getDeps getKey) key key := by
  obtain ⟨first, middle, rfl, listed, chain⟩ := closed
  exact ⟨_, transGen_of_chain listed chain⟩

theorem drop_findIdx {α : Type} {p : α → Bool} {items : List α} (some : ∃ item ∈ items, p item = true) :
    ∃ first rest, items.drop (items.findIdx p) = first :: rest ∧ p first = true ∧ first ∈ items := by
  have bound := List.findIdx_lt_length_of_exists some
  exact ⟨_, _, List.drop_eq_getElem_cons bound, List.findIdx_getElem, List.getElem_mem bound⟩

/-! ## One step -/

variable {key : K}

theorem pending_of_acc {stack : List (StackFrame T K)} (bottoms : Acc (flip (DependsOn nodes getDeps getKey)) key)
    (pending : Pending nodes getDeps getKey (some key) stack) : Pending nodes getDeps getKey none stack := by
  cases stack with
  | nil => trivial
  | cons frame below =>
    refine ⟨fun depKey edge => ?_, pending.2⟩
    cases pending.1 depKey edge with
    | inl waiting => exact .inl waiting
    | inr settled =>
      cases settled with
      | inl bottom => exact .inr (.inl bottom)
      | inr above =>
        obtain rfl := Option.some.inj above
        exact .inr (.inl bottoms)

variable {frame : StackFrame T K}

theorem FrameOk.mono {visited more : List K} (grows : ∀ key ∈ visited, key ∈ more)
    (ok : FrameOk nodes getDeps getKey visited frame) : FrameOk nodes getDeps getKey more frame :=
  { ok with seen := grows _ ok.seen }

variable {state : SearchState T K}

variable {below : List (StackFrame T K)}

theorem SearchInvariant.take {depKey : K} {rest : List K}
    (invariant : SearchInvariant nodes getDeps getKey none state) (stack : state.stack = frame :: below)
    (next : frame.depKeys = depKey :: rest) : SearchInvariant nodes getDeps getKey (some depKey)
      { state with stack := { frame with depKeys := rest } :: below } where
  path := by simp [invariant.path, stack]
  recStack key := by simp [invariant.recStack key, stack]
  frames other member := by
    have frames := invariant.frames
    rw [stack] at frames
    cases List.mem_cons.mp member with
    | inl here =>
      subst here
      have top := frames frame List.mem_cons_self
      exact { top with edges := fun key held => top.edges key (next ▸ List.mem_cons_of_mem _ held) }
    | inr lower => exact frames other (List.mem_cons_of_mem _ lower)
  distinct := by simpa [stack] using invariant.distinct
  linked := by simpa [stack] using invariant.linked
  cycles := invariant.cycles
  left none key visited := by simpa [stack] using invariant.left none key visited
  pending none := by
    have pending := invariant.pending none
    rw [stack] at pending
    refine ⟨fun key edge => ?_, pending.2⟩
    cases pending.1 key edge with
    | inl waiting =>
      rw [next] at waiting
      cases List.mem_cons.mp waiting with
      | inl here => exact .inr (.inr (congrArg some here.symm))
      | inr later => exact .inl later
    | inr settled =>
      cases settled with
      | inl bottom => exact .inr (.inl bottom)
      | inr above => cases above

theorem SearchInvariant.enter {node : T} (invariant : SearchInvariant nodes getDeps getKey (some key) state)
    (member : node ∈ nodes) (keyed : getKey node = key) (fresh : key ∉ state.visited)
    (edge : ∀ top ∈ state.stack.head?, key ∈ resolveDepKeys nodes getDeps getKey top.node) :
    SearchInvariant nodes getDeps getKey none (state.enter nodes getDeps getKey node key) where
  path := by simp [SearchState.enter, invariant.path]
  recStack other := by simp [SearchState.enter, invariant.recStack other]
  frames frame held := by
    cases List.mem_cons.mp held with
    | inl here =>
      subst here
      exact ⟨member, keyed.symm, fun _ held => held, mem_addKey.mpr (.inl rfl)⟩
    | inr lower => exact (invariant.frames frame lower).mono fun _ seen => mem_addKey.mpr (.inr seen)
  distinct := by
    refine List.nodup_cons.mpr ⟨fun onStack => ?_, invariant.distinct⟩
    obtain ⟨frame, lower, same⟩ := List.mem_map.mp onStack
    have seen := (invariant.frames frame lower).seen
    rw [same] at seen
    exact fresh seen
  linked := by
    have linked := invariant.linked
    cases stack : state.stack with
    | nil => simp [SearchState.enter, stack]
    | cons top below =>
      rw [stack] at linked edge
      have here : IsEdge nodes getDeps getKey top.node node := by
        rw [IsEdge, keyed]
        exact edge top rfl
      rw [SearchState.enter, stack]
      exact List.isChain_cons_cons.mpr ⟨here, linked⟩
  cycles := invariant.cycles
  left none other visited := by
    cases mem_addKey.mp visited with
    | inl here => exact .inl (here ▸ List.mem_cons_self)
    | inr old => exact (invariant.left none other old).imp_left (List.mem_cons_of_mem _)
  pending none := ⟨fun _ held => .inl held, invariant.pending none⟩

theorem SearchInvariant.skip (invariant : SearchInvariant nodes getDeps getKey (some key) state)
    (visited : key ∈ state.visited) (off : key ∉ state.recStack) :
    SearchInvariant nodes getDeps getKey none state where
  path := invariant.path
  recStack := invariant.recStack
  frames := invariant.frames
  distinct := invariant.distinct
  linked := invariant.linked
  cycles := invariant.cycles
  left := invariant.left
  pending none := by
    have bottoms := (invariant.left none key visited).resolve_left fun held => off ((invariant.recStack key).mpr held)
    exact pending_of_acc bottoms (invariant.pending none)

theorem SearchInvariant.report (invariant : SearchInvariant nodes getDeps getKey (some key) state)
    (distinct : (nodes.map getKey).Nodup) (on : key ∈ state.recStack)
    (edge : ∀ top ∈ state.stack.head?, key ∈ resolveDepKeys nodes getDeps getKey top.node) :
    SearchInvariant nodes getDeps getKey none
      { state with cycles := state.cycles ++ [closedPath nodes getKey state.path key] } where
  path := invariant.path
  recStack := invariant.recStack
  frames := invariant.frames
  distinct := invariant.distinct
  linked := invariant.linked
  cycles cycle member := by
    cases List.mem_append.mp member with
    | inl old => exact invariant.cycles cycle old
    | inr new =>
      obtain rfl := List.mem_singleton.mp new
      have listed : ∀ node ∈ state.path, node ∈ nodes := by
        intro node held
        rw [invariant.path, List.mem_reverse] at held
        obtain ⟨frame, member, rfl⟩ := List.mem_map.mp held
        exact (invariant.frames frame member).listed
      obtain ⟨frame, member, same⟩ := List.mem_map.mp ((invariant.recStack key).mp on)
      have onPath : ∃ node ∈ state.path, decide (getKey node = key) = true := by
        refine ⟨frame.node, ?_, ?_⟩
        · rw [invariant.path, List.mem_reverse]
          exact List.mem_map_of_mem member
        · rw [decide_eq_true_eq, ← same, (invariant.frames frame member).keyed]
      obtain ⟨first, rest, dropped, keyed, held⟩ := drop_findIdx onPath
      obtain rfl := of_decide_eq_true keyed
      have chain : state.path.IsChain (IsEdge nodes getDeps getKey) := by
        rw [invariant.path, List.isChain_reverse]
        exact invariant.linked
      have last : ∀ node ∈ (first :: rest).getLast?, IsEdge nodes getDeps getKey node first := by
        intro node final
        rw [← dropped, List.getLast?_drop] at final
        split at final
        next => cases final
        next =>
          rw [invariant.path, List.getLast?_reverse, List.head?_map] at final
          obtain ⟨top, here, rfl⟩ := Option.map_eq_some_iff.mp final
          exact edge top here
      refine ⟨first, rest, ?_, fun node held => ?_, ?_⟩
      · rw [closedPath, dropped, keyToNode_of_mem distinct (listed first held)]
        rfl
      · rw [closedPath, dropped, keyToNode_of_mem distinct (listed first ‹_›)] at held
        cases List.mem_append.mp held with
        | inl inside => exact listed node (List.mem_of_mem_drop (dropped ▸ inside))
        | inr close =>
          rw [List.mem_singleton.mp close]
          exact listed first ‹_›
      · rw [closedPath, dropped, keyToNode_of_mem distinct (listed first held), List.isChain_append]
        refine ⟨dropped ▸ chain.drop _, List.isChain_singleton _, fun node final other head => ?_⟩
        obtain rfl := Option.some.inj head
        exact last node final
  left none := absurd none (by simp)
  pending none := absurd none (by simp)

theorem SearchInvariant.leave
    (invariant : SearchInvariant nodes getDeps getKey none state) (distinct : (nodes.map getKey).Nodup)
    (stack : state.stack = frame :: below) (finished : frame.depKeys = []) : SearchInvariant nodes getDeps getKey none
      { state with stack := below, recStack := state.recStack.filter (· ≠ frame.key), path := state.path.dropLast } := by
  have frames := invariant.frames
  have keys := invariant.distinct
  have linked := invariant.linked
  rw [stack] at frames linked
  rw [stack, List.map_cons, List.nodup_cons] at keys
  have bottoms : state.cycles = [] → Acc (flip (DependsOn nodes getDeps getKey)) frame.key := by
    intro none
    have pending := invariant.pending none
    rw [stack] at pending
    have top := frames frame List.mem_cons_self
    refine ⟨_, fun depKey edge => ?_⟩
    have held := (dependsOn_iff distinct).mp edge
    rw [top.keyed, depsOf_of_mem distinct top.listed] at held
    cases pending.1 depKey held with
    | inl waiting => rw [finished] at waiting; cases waiting
    | inr settled =>
      cases settled with
      | inl bottom => exact bottom
      | inr above => cases above
  exact
    { path := by simp [invariant.path, stack]
      recStack := by
        intro key
        rw [List.mem_filter, invariant.recStack key, stack, List.map_cons, List.mem_cons]
        constructor
        · rintro ⟨here | lower, differs⟩
          · exact absurd here (of_decide_eq_true differs)
          · exact lower
        · intro lower
          exact ⟨.inr lower, decide_eq_true fun same => keys.1 (same ▸ lower)⟩
      frames := fun other lower => frames other (List.mem_cons_of_mem _ lower)
      distinct := keys.2
      linked := linked.tail
      cycles := invariant.cycles
      left := fun none key visited => by
        cases invariant.left none key visited with
        | inl onStack =>
          rw [stack, List.map_cons] at onStack
          cases List.mem_cons.mp onStack with
          | inl here => exact .inr (here ▸ bottoms none)
          | inr lower => exact .inl lower
        | inr bottom => exact .inr bottom
      pending := fun none => by
        have pending := invariant.pending none
        rw [stack] at pending
        exact pending_of_acc (bottoms none) pending.2 }

theorem searchStep_invariant (distinct : (nodes.map getKey).Nodup)
    (invariant : SearchInvariant nodes getDeps getKey none state) :
    SearchInvariant nodes getDeps getKey none (searchStep nodes getDeps getKey state) := by
  unfold searchStep
  split
  next => exact invariant
  next frame below stack =>
    split
    next finished => exact invariant.leave distinct stack finished
    next depKey rest taking =>
      have taken := invariant.take stack taking
      have top := invariant.frames frame (stack ▸ List.mem_cons_self)
      have edge : depKey ∈ resolveDepKeys nodes getDeps getKey frame.node :=
        top.edges depKey (taking ▸ List.mem_cons_self)
      have onTop : ∀ other ∈ (StackFrame.mk frame.node frame.key rest :: below).head?,
          depKey ∈ resolveDepKeys nodes getDeps getKey other.node := by
        intro other head
        obtain rfl := Option.some.inj head
        exact edge
      simp only
      split
      next fresh =>
        split
        next depNode found =>
          obtain ⟨member, keyed⟩ := keyToNode_some found
          exact taken.enter member keyed fresh onTop
        next missing =>
          -- A dependency in the graph has a node.
          obtain ⟨node, member, same⟩ := List.mem_map.mp (mem_resolveDepKeys.mp edge).2
          rw [← same, keyToNode_of_mem distinct member] at missing
          cases missing
      next seen =>
        split
        next on => exact taken.report distinct on onTop
        next off => exact taken.skip (not_not.mp seen) off

/-! ## The loop ends -/

/-- What entering and leaving the nodes outside a set of keys would take. -/
def unvisitedCost (nodes : List T) (cost : T → Nat) (getKey : T → K) (visited : List K) : Nat :=
  (nodes.map fun node => if getKey node ∈ visited then 0 else cost node + 2).sum

/-- The turns a search may still take. -/
def turnsLeft (nodes : List T) (getDeps : T → List T) (getKey : T → K) (state : SearchState T K) : Nat :=
  unvisitedCost nodes (fun node => (resolveDepKeys nodes getDeps getKey node).length) getKey state.visited +
    (state.stack.map fun frame => frame.depKeys.length + 1).sum

theorem unvisitedCost_le {rows : List T} {cost : T → Nat} {visited : List K} (key : K) :
    unvisitedCost rows cost getKey (addKey key visited) ≤ unvisitedCost rows cost getKey visited := by
  induction rows with
  | nil => exact Nat.le_refl _
  | cons row rows ih =>
    simp only [unvisitedCost, List.map_cons, List.sum_cons, mem_addKey] at ih ⊢
    by_cases old : getKey row ∈ visited
    · simp only [old, or_true, if_true]
      omega
    · simp only [old, or_false, if_false]
      split <;> omega

theorem unvisitedCost_enter {rows : List T} (cost : T → Nat) {visited : List K} {node : T} (member : node ∈ rows)
    (fresh : getKey node ∉ visited) :
    unvisitedCost rows cost getKey (addKey (getKey node) visited) + (cost node + 2) ≤
      unvisitedCost rows cost getKey visited := by
  induction rows with
  | nil => cases member
  | cons row rows ih =>
    have others := @unvisitedCost_le _ _ _ getKey rows cost visited (getKey node)
    simp only [unvisitedCost, List.map_cons, List.sum_cons, mem_addKey] at ih others ⊢
    cases List.mem_cons.mp member with
    | inl here =>
      subst here
      simp only [fresh, or_false, if_true, if_false]
      omega
    | inr later =>
      have rest := ih later
      by_cases old : getKey row ∈ visited
      · simp only [old, or_true, if_true]
        omega
      · simp only [old, or_false, if_false]
        split <;> omega

theorem searchStep_turns (distinct : (nodes.map getKey).Nodup)
    (invariant : SearchInvariant nodes getDeps getKey none state) (busy : state.stack ≠ []) :
    turnsLeft nodes getDeps getKey (searchStep nodes getDeps getKey state) + 1 ≤
      turnsLeft nodes getDeps getKey state := by
  unfold searchStep
  split
  next empty => exact absurd empty busy
  next frame below stack =>
    split
    next finished =>
      simp only [turnsLeft, stack, List.map_cons, List.sum_cons]
      omega
    next depKey rest taking =>
      have top := invariant.frames frame (stack ▸ List.mem_cons_self)
      have edge : depKey ∈ resolveDepKeys nodes getDeps getKey frame.node :=
        top.edges depKey (taking ▸ List.mem_cons_self)
      simp only
      split
      next fresh =>
        obtain ⟨node, member, rfl⟩ := List.mem_map.mp (mem_resolveDepKeys.mp edge).2
        rw [keyToNode_of_mem distinct member]
        have entered := unvisitedCost_enter (fun node => (resolveDepKeys nodes getDeps getKey node).length) member fresh
        simp only [turnsLeft, SearchState.enter, stack, List.map_cons, List.sum_cons, taking, List.length_cons]
        omega
      next =>
        split
        next =>
          simp only [turnsLeft, stack, List.map_cons, List.sum_cons, taking, List.length_cons]
          omega
        next =>
          simp only [turnsLeft, stack, List.map_cons, List.sum_cons, taking, List.length_cons]
          omega

theorem searchStep_idle (empty : state.stack = []) : searchStep nodes getDeps getKey state = state := by
  rw [searchStep, empty]

theorem search_turns (distinct : (nodes.map getKey).Nodup)
    (invariant : SearchInvariant nodes getDeps getKey none state) (turns : Nat) :
    SearchInvariant nodes getDeps getKey none ((searchStep nodes getDeps getKey)^[turns] state) ∧
      (((searchStep nodes getDeps getKey)^[turns] state).stack = [] ∨
        turnsLeft nodes getDeps getKey ((searchStep nodes getDeps getKey)^[turns] state) + turns ≤
          turnsLeft nodes getDeps getKey state) := by
  induction turns with
  | zero => exact ⟨invariant, .inr (Nat.le_refl _)⟩
  | succ turns ih =>
    obtain ⟨kept, progress⟩ := ih
    rw [Function.iterate_succ_apply']
    refine ⟨searchStep_invariant distinct kept, ?_⟩
    by_cases empty : ((searchStep nodes getDeps getKey)^[turns] state).stack = []
    · rw [searchStep_idle empty]
      exact .inl empty
    · have fewer := searchStep_turns distinct kept empty
      have before := progress.resolve_left empty
      exact .inr (by omega)

theorem searchStep_visited (seen : key ∈ state.visited) : key ∈ (searchStep nodes getDeps getKey state).visited := by
  unfold searchStep
  split
  next => exact seen
  next =>
    split
    next => exact seen
    next =>
      simp only
      split
      next =>
        split
        next => exact mem_addKey.mpr (.inr seen)
        next => exact seen
      next => split <;> exact seen

theorem searchLoop_visited (seen : key ∈ state.visited) : key ∈ (searchLoop nodes getDeps getKey state).visited := by
  rw [searchLoop]
  generalize searchFuel nodes getDeps getKey = turns
  induction turns with
  | zero => exact seen
  | succ turns ih =>
    rw [Function.iterate_succ_apply']
    exact searchStep_visited ih

/-! ## The whole search -/

/-- What holds between two searches: nothing is on the stack. -/
def Rested (nodes : List T) (getDeps : T → List T) (getKey : T → K) (state : SearchState T K) : Prop :=
  SearchInvariant nodes getDeps getKey none state ∧ state.stack = []

section

variable (distinct : (nodes.map getKey).Nodup)
include distinct

theorem searchFrom_rested (rested : Rested nodes getDeps getKey state) {startNode : T} (member : startNode ∈ nodes) :
    Rested nodes getDeps getKey (searchFrom nodes getDeps getKey state startNode) ∧
      getKey startNode ∈ (searchFrom nodes getDeps getKey state startNode).visited ∧
      ∀ key ∈ state.visited, key ∈ (searchFrom nodes getDeps getKey state startNode).visited := by
  unfold searchFrom
  split
  next seen => exact ⟨rested, seen, fun _ held => held⟩
  next fresh =>
    obtain ⟨invariant, empty⟩ := rested
    have cleared : SearchInvariant nodes getDeps getKey (some (getKey startNode))
        { state with recStack := [], path := [], stack := [] } :=
      { path := rfl
        recStack := fun key => Iff.rfl
        frames := fun _ held => absurd held List.not_mem_nil
        distinct := List.nodup_nil
        linked := List.isChain_nil
        cycles := invariant.cycles
        left := fun none key visited => by simpa [empty] using invariant.left none key visited
        pending := fun _ => trivial }
    have entered := cleared.enter member rfl fresh (fun _ held => by cases held)
    -- Leaving the start node costs one turn less than the fuel holds for it.
    have fuel : turnsLeft nodes getDeps getKey (SearchState.enter nodes getDeps getKey
        { state with recStack := [], path := [], stack := [] } startNode (getKey startNode)) ≤
        searchFuel nodes getDeps getKey := by
      have start := unvisitedCost_enter (fun node => (resolveDepKeys nodes getDeps getKey node).length) member fresh
      have all : unvisitedCost nodes (fun node => (resolveDepKeys nodes getDeps getKey node).length) getKey
          state.visited ≤ searchFuel nodes getDeps getKey := by
        rw [unvisitedCost, searchFuel]
        refine List.sum_le_sum fun node _ => ?_
        split
        · exact Nat.zero_le _
        · exact Nat.le_refl _
      simp only [turnsLeft, SearchState.enter, List.map_cons, List.sum_cons, List.map_nil, List.sum_nil]
      omega
    obtain ⟨kept, progress⟩ := search_turns distinct entered (searchFuel nodes getDeps getKey)
    refine ⟨⟨kept, progress.elim id fun fewer => ?_⟩, ?_, fun key seen => ?_⟩
    · cases stack : ((searchStep nodes getDeps getKey)^[searchFuel nodes getDeps getKey] (SearchState.enter nodes
        getDeps getKey { state with recStack := [], path := [], stack := [] } startNode (getKey startNode))).stack with
      | nil => exact stack
      | cons frame below =>
        have none : turnsLeft nodes getDeps getKey ((searchStep nodes getDeps getKey)^[searchFuel nodes getDeps getKey]
            (SearchState.enter nodes getDeps getKey { state with recStack := [], path := [], stack := [] } startNode
              (getKey startNode))) = 0 := by omega
        simp [turnsLeft, stack] at none
    · exact searchLoop_visited (mem_addKey.mpr (.inl rfl))
    · exact searchLoop_visited (mem_addKey.mpr (.inr seen))

theorem search_rested : Rested nodes getDeps getKey (search nodes getDeps getKey) ∧
      ∀ node ∈ nodes, getKey node ∈ (search nodes getDeps getKey).visited := by
  have each : ∀ (rows : List T) (state : SearchState T K), (∀ node ∈ rows, node ∈ nodes) →
      Rested nodes getDeps getKey state → Rested nodes getDeps getKey (rows.foldl (searchFrom nodes getDeps getKey) state) ∧
        (∀ node ∈ rows, getKey node ∈ (rows.foldl (searchFrom nodes getDeps getKey) state).visited) ∧
        ∀ key ∈ state.visited, key ∈ (rows.foldl (searchFrom nodes getDeps getKey) state).visited := by
    intro rows
    induction rows with
    | nil => exact fun state _ rested => ⟨rested, fun _ held => absurd held List.not_mem_nil, fun _ seen => seen⟩
    | cons row rows ih =>
      intro state listed rested
      obtain ⟨next, here, kept⟩ := searchFrom_rested distinct rested (listed row List.mem_cons_self)
      obtain ⟨last, others, later⟩ := ih _ (fun node member => listed node (List.mem_cons_of_mem _ member)) next
      refine ⟨last, fun node member => ?_, fun key seen => later key (kept key seen)⟩
      cases List.mem_cons.mp member with
      | inl first => exact first ▸ later _ here
      | inr member => exact others node member
  have start : Rested nodes getDeps getKey (⟨[], [], [], [], []⟩ : SearchState T K) := by
    refine ⟨⟨rfl, fun key => Iff.rfl, ?_, List.nodup_nil, List.isChain_nil, ?_, ?_, fun _ => trivial⟩, rfl⟩
    · exact fun _ held => absurd held List.not_mem_nil
    · exact fun _ held => absurd held List.not_mem_nil
    · exact fun _ _ held => absurd held List.not_mem_nil
  obtain ⟨rested, visited, _⟩ := each nodes _ (fun _ member => member) start
  exact ⟨rested, visited⟩

theorem search_cycles : ∀ cycle ∈ (search nodes getDeps getKey).cycles, ClosedCycle nodes getDeps getKey cycle :=
  (search_rested distinct).1.1.cycles

/-- Without a report every listed node bottoms out. -/
theorem search_complete (none : (search nodes getDeps getKey).cycles = [])
    (listed : key ∈ nodes.map getKey) : Acc (flip (DependsOn nodes getDeps getKey)) key := by
  obtain ⟨⟨invariant, empty⟩, visited⟩ := @search_rested _ _ _ nodes getDeps getKey distinct
  obtain ⟨node, member, rfl⟩ := List.mem_map.mp listed
  have settled := invariant.left none _ (visited node member)
  rw [empty] at settled
  exact settled.resolve_left List.not_mem_nil

end

end

end Advance.Validator
