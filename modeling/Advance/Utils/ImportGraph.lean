import Advance.Foundation.Pattern
import Advance.Foundation.Worklist
import Advance.JavaScript.Collections
import Advance.JavaScript.Path
import Advance.Types.LightweightChangeProfile
import Advance.Utils.SyntheticFixtureDetector

/-! # Public roots and what they import

Whether the changed files of a repository can be reached from its public roots, by a walk over the
relative imports that three patterns find in the text of each file.
-/

namespace Advance.Utils

open Advance.Foundation Advance.JavaScript Advance.Types

/-! ## The repository -/

/-- A path inside the repository, as the graph names a file. -/
abbrev RepoPath := List Char

/-- The names from the root of the file system down. -/
abbrev Names := List (List Char)

inductive TreeEntry where
  | file (content : List Char)
  | directory
  deriving DecidableEq

structure RepoTree where
  workdir : Names
  entries : List (Names × TreeEntry)

def RepoTree.entry (tree : RepoTree) (names : Names) : Option TreeEntry := tree.entries.lookup names

/-- `readFile(path, "utf-8")`, nothing where it fails. -/
def RepoTree.readFile (tree : RepoTree) (names : Names) : Option (List Char) :=
  match tree.entry names with
  | some (.file content) => some content
  | some .directory | none => none

/-- `access(path)` succeeds. -/
def RepoTree.fileExists (tree : RepoTree) (names : Names) : Bool := (tree.entry names).isSome

/-! ## Paths -/

/-- `resolve(directory, path)` -/
def resolveFrom (directory : Names) (path : List Char) : Names :=
  (pathNames path).foldl enterName (if path.head? = some '/' then [] else directory)

/-- `join(directory, path)` -/
def joinFrom (directory : Names) (path : List Char) : Names := (pathNames path).foldl enterName directory

/-- The names of `relative(directory, target)`. -/
def relativeNames : Names → Names → Names
  | name :: directory, next :: target =>
    if name = next then relativeNames directory target
    else (name :: directory).map (fun _ => ['.', '.']) ++ next :: target
  | directory, target => directory.map (fun _ => ['.', '.']) ++ target

/-- The path of a file relative to the working directory, its backslashes turned. -/
def RepoTree.pathOf (tree : RepoTree) (names : Names) : RepoPath :=
  (['/'].intercalate (relativeNames tree.workdir names)).map fun c => if c = '\\' then '/' else c

def normalizeRepoPath (tree : RepoTree) (filePath : List Char) : RepoPath :=
  tree.pathOf (resolveFrom tree.workdir filePath)

def SOURCE_EXTENSIONS : List (List Char) :=
  [".ts".toList, ".tsx".toList, ".js".toList, ".jsx".toList, ".mjs".toList, ".cjs".toList]

def withSuffix (names : Names) (suffix : List Char) : Names := names.dropLast ++ [names.getLastD [] ++ suffix]

/-- The file itself, the file with a source extension, the index file of the directory. -/
def importCandidates (base : Names) : List Names :=
  base :: (SOURCE_EXTENSIONS.map (withSuffix base) ++
    SOURCE_EXTENSIONS.map fun extension => base ++ ["index".toList ++ extension])

def resolveImportTarget (tree : RepoTree) (importerPath : RepoPath) (importSpecifier : List Char) : Option RepoPath :=
  if "node:".toList.isPrefixOf importSpecifier || "bun:".toList.isPrefixOf importSpecifier ||
      "/".toList.isPrefixOf importSpecifier || !(".".toList.isPrefixOf importSpecifier) then none
  else
    let base := resolveFrom (joinFrom tree.workdir importerPath).dropLast importSpecifier
    (importCandidates base).findSome? fun candidate =>
      let repoPath := tree.pathOf candidate
      if repoPath = importerPath then none
      else if tree.fileExists candidate then some repoPath
      else none

/-! ## Imports in a text -/

namespace ImportPattern

open Pattern

def literal (text : String) : Pattern Char := word (fun own other => own = other) text.toList

def isQuote (c : Char) : Bool := c.toNat = 34 || c.toNat = 39

/-- `[\s\w*\x7b\x7d,\n]` -/
def isBinding (c : Char) : Bool :=
  isJsWhitespace c || c.isAlphanum || c = '_' || c = '*' || c = '\x7b' || c = '\x7d' || c = ','

def spaces : Pattern Char := many isJsWhitespace 0 none true

def someSpaces : Pattern Char := many isJsWhitespace 1 none true

def quoted : Pattern Char :=
  inTurn [unit isQuote, captured (many (fun c => !isQuote c) 1 none true), unit isQuote]

def optionally (pattern : Pattern Char) : Pattern Char := either pattern nothing

def importFrom : Pattern Char :=
  inTurn [literal "import", someSpaces, either (inTurn [optionally (inTurn [literal "type", someSpaces]),
        optionally (inTurn [many isBinding 1 none true, literal "from", someSpaces]), quoted])
      quoted]

def exportFrom : Pattern Char :=
  inTurn [literal "export", someSpaces, many (fun c => !isQuote c) 1 none true, literal "from", someSpaces, quoted]

def requireCall : Pattern Char :=
  inTurn [literal "require", spaces, literal "(", spaces, quoted, spaces, literal ")"]

/-- The loop over `exec` with the flag `g`, for a pattern with one group in every way. -/
def capturesFrom (pattern : Pattern Char) : Nat → Bool → List Char → List (List Char)
  | 0, _, _ => []
  | fuel + 1, start, text =>
    match pattern.search start text with
    | none => []
    | some (_, way) => way.group 0 :: capturesFrom pattern fuel false way.rest

def captures (pattern : Pattern Char) (text : List Char) : List (List Char) :=
  capturesFrom pattern text.length true text

end ImportPattern

open ImportPattern in
def extractRelativeImports (content : List Char) : List (List Char) :=
  captures importFrom content ++ captures exportFrom content ++ captures requireCall content

/-! ## The graph -/

structure ImportGraph where
  nodes : List RepoPath
  edges : List (RepoPath × List RepoPath)

def importTargets (tree : RepoTree) (node : RepoPath) : List RepoPath :=
  match tree.readFile (joinFrom tree.workdir node) with
  | none => []
  | some content => (extractRelativeImports content).filterMap (resolveImportTarget tree node)

def visitNode (tree : RepoTree) (left : List (RepoPath × List RepoPath) × List RepoPath) (node : RepoPath) :
    List (RepoPath × List RepoPath) × List RepoPath :=
  match tree.readFile (joinFrom tree.workdir node) with
  | none => left
  | some _ =>
    let targets := distinctOf (importTargets tree node)
    (if targets.isEmpty then left.1 else left.1 ++ [(node, targets)], left.2 ++ [node])

def isSourcePath (path : RepoPath) : Bool := SOURCE_EXTENSIONS.any fun extension => extension.isSuffixOf path

/-- The walk from the changed source files and the public roots; each step takes the last pending node. -/
def buildImportGraph (tree : RepoTree) (changedPaths publicRoots : List RepoPath) : ImportGraph × List RepoPath :=
  let seeds := distinctOf (changedPaths.filter isSourcePath ++ publicRoots)
  let walk := explore true (importTargets tree) (visitNode tree) (seeds.length + tree.entries.length)
    (.start true seeds) ([], [])
  (⟨walk.1, walk.2.1⟩, walk.2.2)

def ImportGraph.neighbors (graph : ImportGraph) (node : RepoPath) : List RepoPath :=
  (graph.edges.lookup node).getD []

/-- The nodes that are reached from the roots, in the order of a queue. -/
def reachableFrom (tree : RepoTree) (graph : ImportGraph) (publicRoots : List RepoPath) : List RepoPath :=
  let roots := distinctOf publicRoots
  (explore false graph.neighbors (fun _ _ => ()) (roots.length + tree.entries.length) (.start false roots) ()).1

/-! ## The verdict -/

structure PublicRootPolicy where
  roots : List (List Char)

def evaluateApiCompatibility (tree : RepoTree) (changedPaths : List RepoPath) (policy : Option PublicRootPolicy) :
    ApiCompatibility :=
  match policy with
  | none => ⟨.policyAbsent, []⟩
  | some policy =>
    if policy.roots.isEmpty then ⟨.policyAbsent, []⟩
    else
      let normalizedRoots := policy.roots.map (normalizeRepoPath tree)
      if normalizedRoots.any fun root => changedPaths.contains root then ⟨.publicImpact, normalizedRoots⟩
      else
        let (graph, readNodes) := buildImportGraph tree changedPaths normalizedRoots
        if normalizedRoots.any fun root => !readNodes.contains root then ⟨.graphFailure, normalizedRoots⟩
        else
          let reachable := reachableFrom tree graph normalizedRoots
          if changedPaths.any fun path => reachable.contains path then ⟨.publicImpact, normalizedRoots⟩
          else ⟨.provenPrivate, normalizedRoots⟩

/-! ## What the walk finds -/

section

variable {tree : RepoTree} {node target : RepoPath}

def RepoTree.paths (tree : RepoTree) : List RepoPath := tree.entries.map fun entry => tree.pathOf entry.1

theorem resolveImportTarget_mem {importSpecifier : List Char}
    (resolved : resolveImportTarget tree node importSpecifier = some target) : target ∈ tree.paths := by
  unfold resolveImportTarget at resolved
  split at resolved
  next => cases resolved
  next =>
    obtain ⟨candidate, -, found⟩ := List.exists_of_findSome?_eq_some resolved
    dsimp only at found
    split at found
    next => cases found
    next =>
      split at found
      next existing =>
        obtain rfl := Option.some.inj found
        obtain ⟨entry, held⟩ := Option.isSome_iff_exists.mp existing
        obtain ⟨front, back, entries, -⟩ := List.lookup_eq_some_iff.mp held
        exact List.mem_map.mpr ⟨(candidate, entry), by simp [entries], rfl⟩
      next => cases found

theorem importTargets_mem (leads : target ∈ importTargets tree node) : target ∈ tree.paths := by
  unfold importTargets at leads
  split at leads
  next => cases leads
  next content _ =>
    obtain ⟨importSpecifier, -, resolved⟩ := List.mem_filterMap.mp leads
    exact resolveImportTarget_mem resolved

theorem importTargets_unread (unread : tree.readFile (joinFrom tree.workdir node) = none) :
    importTargets tree node = [] := by
  simp [importTargets, unread]

/-- The edge a visit of the node leaves, if it leaves one. -/
def edgeOf (tree : RepoTree) (node : RepoPath) : Option (List RepoPath) :=
  if importTargets tree node = [] then none else some (distinctOf (importTargets tree node))

theorem distinctOf_eq_nil {α : Type} [DecidableEq α] {list : List α} : distinctOf list = [] ↔ list = [] := by
  cases list <;> simp [distinctOf]

theorem visitNode_lookup (left : List (RepoPath × List RepoPath) × List RepoPath) (visited asked : RepoPath) :
    (visitNode tree left visited).1.lookup asked =
      (left.1.lookup asked).or (if asked = visited then edgeOf tree visited else none) := by
  unfold visitNode
  split
  next unread =>
    rw [edgeOf, if_pos (importTargets_unread unread)]
    simp
  next =>
    simp only [List.isEmpty_iff, distinctOf_eq_nil, edgeOf]
    by_cases none_found : importTargets tree visited = []
    · simp [none_found]
    · rw [if_neg none_found, if_neg none_found, List.lookup_append]
      by_cases same : asked = visited
      · simp [same]
      · have differs : (asked == visited) = false := by simpa using same
        simp [same, List.lookup_cons, differs]

section

variable (visited : List RepoPath) (left : List (RepoPath × List RepoPath) × List RepoPath) (asked : RepoPath)
include visited left asked

theorem visits_lookup : (visited.foldl (visitNode tree) left).1.lookup asked =
      (left.1.lookup asked).or (if asked ∈ visited then edgeOf tree asked else none) := by
  induction visited generalizing left with
  | nil => simp
  | cons first rest ih =>
    rw [List.foldl_cons, ih, visitNode_lookup, Option.or_assoc]
    congr 1
    by_cases same : asked = first
    · subst same
      by_cases again : asked ∈ rest <;> simp [again]
    · simp [same]

theorem visits_read : asked ∈ (visited.foldl (visitNode tree) left).2 ↔
      asked ∈ left.2 ∨ (asked ∈ visited ∧ (tree.readFile (joinFrom tree.workdir asked)).isSome) := by
  induction visited generalizing left with
  | nil => simp
  | cons first rest ih =>
    rw [List.foldl_cons, ih]
    unfold visitNode
    cases read : tree.readFile (joinFrom tree.workdir first) with
    | none =>
      constructor
      · rintro (before | ⟨later, readable⟩)
        · exact .inl before
        · exact .inr ⟨List.mem_cons_of_mem _ later, readable⟩
      · rintro (before | ⟨member, readable⟩)
        · exact .inl before
        · rcases List.mem_cons.mp member with rfl | later
          · simp [read] at readable
          · exact .inr ⟨later, readable⟩
    | some content =>
      simp only [List.mem_append, List.mem_cons, List.not_mem_nil, or_false]
      constructor
      · rintro ((before | rfl) | ⟨later, readable⟩)
        · exact .inl before
        · exact .inr ⟨.inl rfl, by simp [read]⟩
        · exact .inr ⟨.inr later, readable⟩
      · rintro (before | ⟨rfl | later, readable⟩)
        · exact .inl (.inl before)
        · exact .inl (.inr rfl)
        · exact .inr ⟨later, readable⟩

end

/-! ## The graph is that of the imports that are found -/

section

variable (changedPaths publicRoots : List RepoPath)

theorem graph_bounded (tree : RepoTree) (seeds : List RepoPath) :
    ∀ x ∈ seeds ++ tree.paths, ∀ y ∈ importTargets tree x, y ∈ seeds ++ tree.paths :=
  fun _ _ _ leads => List.mem_append_right _ (importTargets_mem leads)

theorem bound_length (tree : RepoTree) (seeds : List RepoPath) :
    (seeds ++ tree.paths).length ≤ seeds.length + tree.entries.length := by
  simp [RepoTree.paths]

theorem buildImportGraph_spec (asked : RepoPath) : let built := buildImportGraph tree changedPaths publicRoots
    let walked := ∃ seed, (seed ∈ changedPaths ∧ isSourcePath seed ∨ seed ∈ publicRoots) ∧
      Relation.ReflTransGen (Leads (importTargets tree)) seed asked
    (asked ∈ built.2 ↔ walked ∧ (tree.readFile (joinFrom tree.workdir asked)).isSome) ∧
      (walked → ∀ y, y ∈ built.1.neighbors asked ↔ y ∈ importTargets tree asked) ∧
      ∀ y ∈ built.1.neighbors asked, y ∈ importTargets tree asked := by
  intro built walked
  obtain ⟨reached, visited, left, same⟩ := explore_start true (visitNode tree) ([], [])
    (graph_bounded tree (distinctOf (changedPaths.filter isSourcePath ++ publicRoots))) (nodup_distinctOf _)
    (fun _ seed => List.mem_append_left _ seed) (bound_length tree _)
  have walked_iff : asked ∈ visited ↔ walked := by
    rw [same, reached]
    simp only [mem_distinctOf, List.mem_append, List.mem_filter, walked]
  have neighbors : built.1.neighbors asked = ((if asked ∈ visited then edgeOf tree asked else none).getD []) := by
    have edges := @visits_lookup tree visited ([], []) asked
    rw [← left] at edges
    exact congrArg (fun edge => Option.getD edge []) edges
  have found : ∀ y, asked ∈ visited → (y ∈ built.1.neighbors asked ↔ y ∈ importTargets tree asked) := by
    intro y member
    rw [neighbors, if_pos member, edgeOf]
    split
    next none_found => simp [none_found]
    next => simp
  refine ⟨?_, fun walks y => found y (walked_iff.mpr walks), fun y neighbor => ?_⟩
  · have read := @visits_read tree visited ([], []) asked
    rw [← left] at read
    rw [← walked_iff]
    exact read.trans (by simp)
  · by_cases member : asked ∈ visited
    · exact (found y member).mp neighbor
    · rw [neighbors, if_neg member] at neighbor
      cases neighbor

theorem mem_reachableFrom (path : RepoPath) :
    path ∈ reachableFrom tree (buildImportGraph tree changedPaths publicRoots).1 publicRoots ↔
      ∃ root ∈ publicRoots, Relation.ReflTransGen (Leads (importTargets tree)) root path := by
  have spec := @buildImportGraph_spec tree changedPaths publicRoots
  have bounded : ∀ x ∈ distinctOf publicRoots ++ tree.paths,
      ∀ y ∈ (buildImportGraph tree changedPaths publicRoots).1.neighbors x,
        y ∈ distinctOf publicRoots ++ tree.paths :=
    fun x _ y neighbor => List.mem_append_right _ (importTargets_mem ((spec x).2.2 y neighbor))
  have reached := (explore_start false (fun _ _ => ()) () bounded (nodup_distinctOf publicRoots)
    (fun _ root => List.mem_append_left _ root) (bound_length tree _)).1 path
  refine reached.trans (exists_congr fun root => ?_)
  rw [mem_distinctOf]
  refine and_congr_right fun member => ⟨fun route => ?_, fun route => ?_⟩
  · exact Relation.ReflTransGen.mono (fun x y neighbor => (spec x).2.2 y neighbor) _ _ route
  · -- the roots are seeds of the walk, so every node on the way has its edges
    clear reached
    induction route with
    | refl => exact .refl
    | tail front leads ih => exact ih.tail (((spec _).2.1 ⟨root, .inr member, front⟩ _).mpr leads)

end

/-! ## The verdict -/

/-- A changed path is reached from a root through the imports that are found. -/
def FoundExposed (tree : RepoTree) (policy : PublicRootPolicy) (path : RepoPath) : Prop :=
  ∃ root ∈ policy.roots, Relation.ReflTransGen (Leads (importTargets tree)) (normalizeRepoPath tree root) path

/-- A root can be judged: it has not changed itself and can be read. -/
def RootUsable (tree : RepoTree) (changedPaths : List RepoPath) (root : List Char) : Prop :=
  normalizeRepoPath tree root ∉ changedPaths ∧
    (tree.readFile (joinFrom tree.workdir (normalizeRepoPath tree root))).isSome

theorem provenPrivate_iff (tree : RepoTree) (changedPaths : List RepoPath) (policy : PublicRootPolicy) :
    (evaluateApiCompatibility tree changedPaths (some policy)).publicSurface = .provenPrivate ↔
      policy.roots ≠ [] ∧ (∀ root ∈ policy.roots, RootUsable tree changedPaths root) ∧
        ∀ path ∈ changedPaths, ¬ FoundExposed tree policy path := by
  have spec := @buildImportGraph_spec tree changedPaths (policy.roots.map (normalizeRepoPath tree))
  have reached := @mem_reachableFrom tree changedPaths (policy.roots.map (normalizeRepoPath tree))
  simp only [evaluateApiCompatibility]
  split
  next empty => simp [List.isEmpty_iff.mp empty]
  next some_root =>
    have some_root : policy.roots ≠ [] := fun empty => some_root (by simp [empty])
    split
    next changed =>
      obtain ⟨root, member, contained⟩ := by simpa using changed
      refine iff_of_false nofun fun verdict => (verdict.2.1 root member).1 contained
    next unchanged =>
      have unchanged : ∀ root ∈ policy.roots, normalizeRepoPath tree root ∉ changedPaths := by simpa using unchanged
      have readable : ∀ root ∈ policy.roots, (normalizeRepoPath tree root ∈
          (buildImportGraph tree changedPaths (policy.roots.map (normalizeRepoPath tree))).2 ↔
            (tree.readFile (joinFrom tree.workdir (normalizeRepoPath tree root))).isSome) := fun root member =>
        (spec _).1.trans (and_iff_right ⟨_, .inr (List.mem_map_of_mem member), .refl⟩)
      split
      next unread =>
        obtain ⟨root, member, missing⟩ := by simpa using unread
        refine iff_of_false nofun fun verdict => missing ?_
        exact (readable root member).mpr (verdict.2.1 root member).2
      next all_read =>
        have usable : ∀ root ∈ policy.roots, RootUsable tree changedPaths root := by
          intro root member
          refine ⟨unchanged root member, (readable root member).mp ?_⟩
          by_contra missing
          exact all_read (by simpa using ⟨root, member, missing⟩)
        have exposed : ∀ path, path ∈ reachableFrom tree (buildImportGraph tree changedPaths
            (policy.roots.map (normalizeRepoPath tree))).1 (policy.roots.map (normalizeRepoPath tree)) ↔
              FoundExposed tree policy path := by
          intro path
          rw [reached, FoundExposed]
          simp
        split
        next impact =>
          obtain ⟨path, member, contained⟩ := by simpa using impact
          exact iff_of_false nofun fun verdict => verdict.2.2 path member ((exposed path).mp contained)
        next no_impact =>
          have hidden : ∀ path ∈ changedPaths, ¬ FoundExposed tree policy path := by
            intro path member found
            exact no_impact (by simpa using ⟨path, member, (exposed path).mpr found⟩)
          exact iff_of_true rfl ⟨some_root, usable, hidden⟩

end

/-! ## The references of the language -/

section

-- the specifiers that the language takes from a text: of static imports, re-exports, dynamic imports and
-- calls of `require`
variable (references : List Char → List (List Char))

def relativeSpecifier (specifier : List Char) : Bool :=
  "./".toList.isPrefixOf specifier || "../".toList.isPrefixOf specifier || specifier = ".".toList ||
    specifier = "..".toList

/-- The file a relative specifier names: the file itself, with a source extension, or the index of the
    directory. -/
def referencedFile (tree : RepoTree) (importer : Names) (specifier : List Char) : Option Names :=
  (importCandidates (resolveFrom importer.dropLast specifier)).find? fun candidate =>
    (tree.readFile candidate).isSome

def RefersTo (tree : RepoTree) (importer target : Names) : Prop :=
  ∃ content, tree.readFile importer = some content ∧ ∃ specifier ∈ references content,
    relativeSpecifier specifier ∧ referencedFile tree importer specifier = some target

/-- A changed path can be reached from a public root. -/
def Exposed (tree : RepoTree) (policy : PublicRootPolicy) (path : RepoPath) : Prop :=
  ∃ root ∈ policy.roots, Relation.ReflTransGen (RefersTo references tree) (resolveFrom tree.workdir root)
    (joinFrom tree.workdir path)

/-- A private verdict means that no changed path can be reached. -/
def VerdictSound (tree : RepoTree) (changedPaths : List RepoPath) (policy : PublicRootPolicy) : Prop :=
  (evaluateApiCompatibility tree changedPaths (some policy)).publicSurface = .provenPrivate →
    ∀ path ∈ changedPaths, ¬ Exposed references tree policy path

variable {references}

theorem verdictSound_of_shows {tree : RepoTree} {changedPaths : List RepoPath} {policy : PublicRootPolicy}
    (shows : (∃ path ∈ changedPaths, Exposed references tree policy path) →
      (∃ root ∈ policy.roots, ¬ RootUsable tree changedPaths root) ∨
        ∃ path ∈ changedPaths, FoundExposed tree policy path) : VerdictSound references tree changedPaths policy := by
  intro verdict path changed exposed
  obtain ⟨_, usable, hidden⟩ := (provenPrivate_iff tree changedPaths policy).mp verdict
  rcases shows ⟨path, changed, exposed⟩ with ⟨root, member, unusable⟩ | ⟨other, member, found⟩
  · exact unusable (usable root member)
  · exact hidden other member found

end

/-! ## Fixed runs -/

def directoryTree : RepoTree where
  workdir := ["repo".toList]
  entries :=
    [(["repo".toList, "index.ts".toList], .file "import { secret } from \"./lib\";".toList),
      (["repo".toList, "lib".toList], .directory),
      (["repo".toList, "lib".toList, "index.ts".toList], .file "export const secret = 1;".toList)]

/-- No pattern finds a dynamic import. -/
example : extractRelativeImports "const lib = import(\"./lib\");".toList = [] := by rfl

end Advance.Utils
