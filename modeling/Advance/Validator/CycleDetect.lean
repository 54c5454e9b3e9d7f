import Mathlib.Algebra.GroupWithZero.Nat
import Advance.Foundation.Acyclic

/-! # Cycle detection

Kahn's algorithm sorts the nodes dependencies first; where it leaves nodes over, a
depth-first search reports the cycles among them as closed paths.
-/

namespace Advance.Validator

section

variable {T K : Type} [DecidableEq K]
variable (nodes : List T) (getDeps : T → List T) (getKey : T → K)

/-- `new Set(nodes.map(getKey))` -/
def nodeKeys : List K := nodes.map getKey

/-- `keyToNode.get(key)`: the last node set under the key. -/
def keyToNode (key : K) : Option T := nodes.reverse.find? fun node => getKey node = key

/-- The keys of a node's dependencies that are in the graph, self-edges included. -/
def resolveDepKeys (node : T) : List K :=
  ((getDeps node).map getKey).filter fun depKey => depKey ∈ nodeKeys nodes getKey

/-! ## Kahn's algorithm -/

/-- The in-degree map and the forward adjacency, from a dependency to its dependents. -/
structure EdgeTables (K : Type) where
  inDegree : K → Int
  forwardAdjacency : K → List K

def EdgeTables.empty : EdgeTables K := ⟨fun _ => 0, fun _ => []⟩

/-- `set.add(key)` -/
def addKey (key : K) (keys : List K) : List K := if key ∈ keys then keys else keys ++ [key]

def EdgeTables.addEdge (key : K) (tables : EdgeTables K) (depKey : K) : EdgeTables K where
  inDegree := Function.update tables.inDegree key (tables.inDegree key + 1)
  forwardAdjacency := Function.update tables.forwardAdjacency depKey (addKey key (tables.forwardAdjacency depKey))

def edgeTables : EdgeTables K :=
  nodes.foldl (fun tables node =>
    (resolveDepKeys nodes getDeps getKey node).foldl (EdgeTables.addEdge (getKey node)) tables) .empty

structure KahnState (K : Type) where
  inDegree : K → Int
  kahnQueue : List K
  sortedKeys : List K

/-- One dependent of a sorted node has one edge less; at none it is queued. -/
def KahnState.relax (state : KahnState K) (dependent : K) : KahnState K :=
  let newDegree := state.inDegree dependent - 1
  { state with
    inDegree := Function.update state.inDegree dependent newDegree
    kahnQueue := if newDegree = 0 then state.kahnQueue ++ [dependent] else state.kahnQueue }

def kahnStep (tables : EdgeTables K) (state : KahnState K) : KahnState K :=
  match state.kahnQueue with
  | [] => state
  | current :: rest =>
    (tables.forwardAdjacency current).foldl KahnState.relax
      { state with kahnQueue := rest, sortedKeys := state.sortedKeys ++ [current] }

def kahnStart : KahnState K where
  inDegree := (edgeTables nodes getDeps getKey).inDegree
  kahnQueue := (nodes.map getKey).filter fun key => (edgeTables nodes getDeps getKey).inDegree key = 0
  sortedKeys := []

/-- `while (kahnQueue.length > 0)`; no key is queued twice, so one turn for each node is enough. -/
def kahn : KahnState K := (kahnStep (edgeTables nodes getDeps getKey))^[nodes.length] (kahnStart nodes getDeps getKey)

/-! ## Depth-first search -/

/-- A stack frame; `depKeys` are those from `depIndex` on. -/
structure StackFrame (T K : Type) where
  node : T
  key : K
  depKeys : List K

/-- The search; the top of the stack comes first. -/
structure SearchState (T K : Type) where
  visited : List K
  recStack : List K
  path : List T
  stack : List (StackFrame T K)
  cycles : List (List T)

def SearchState.enter (state : SearchState T K) (node : T) (key : K) : SearchState T K :=
  { state with
    visited := addKey key state.visited
    recStack := addKey key state.recStack
    path := state.path ++ [node]
    stack := ⟨node, key, resolveDepKeys nodes getDeps getKey node⟩ :: state.stack }

/-- `path.slice(cycleStartIdx)` with the start repeated. -/
def closedPath (path : List T) (depKey : K) : List T :=
  path.drop (path.findIdx fun node => getKey node = depKey) ++ (keyToNode nodes getKey depKey).toList

def searchStep (state : SearchState T K) : SearchState T K :=
  match state.stack with
  | [] => state
  | frame :: below =>
    match frame.depKeys with
    | [] =>
      { state with stack := below, recStack := state.recStack.filter (· ≠ frame.key), path := state.path.dropLast }
    | depKey :: rest =>
      let state := { state with stack := { frame with depKeys := rest } :: below }
      if depKey ∉ state.visited then
        match keyToNode nodes getKey depKey with
        | some depNode => state.enter nodes getDeps getKey depNode depKey
        | none => state
      else if depKey ∈ state.recStack then
        { state with cycles := state.cycles ++ [closedPath nodes getKey state.path depKey] }
      else state

/-- Each node is entered and left once, and each of its edges followed once. -/
def searchFuel : Nat := (nodes.map fun node => (resolveDepKeys nodes getDeps getKey node).length + 2).sum

/-- `while (stack.length > 0)` -/
def searchLoop (state : SearchState T K) : SearchState T K :=
  (searchStep nodes getDeps getKey)^[searchFuel nodes getDeps getKey] state

def searchFrom (state : SearchState T K) (startNode : T) : SearchState T K :=
  if getKey startNode ∈ state.visited then state
  else
    searchLoop nodes getDeps getKey
      (SearchState.enter nodes getDeps getKey { state with recStack := [], path := [], stack := [] } startNode
        (getKey startNode))

def search : SearchState T K := nodes.foldl (searchFrom nodes getDeps getKey) ⟨[], [], [], [], []⟩

/-! ## The result -/

structure CycleDetectionResult (T : Type) where
  sorted : List T
  cycles : List (List T)

def detectCycles : CycleDetectionResult T :=
  if nodes.length = 0 then ⟨[], []⟩
  else
    let sortedKeys := (kahn nodes getDeps getKey).sortedKeys
    let sorted := sortedKeys.filterMap (keyToNode nodes getKey)
    if sortedKeys.length = nodes.length then ⟨sorted, []⟩
    else ⟨sorted, (search nodes getDeps getKey).cycles⟩

end

end Advance.Validator
